/-
# The list on screen

`replaceFragment` filters the forum and sorts it, `replaceForumFragment` only
filters it, which leaves the posts category by category and, in a category,
league by league. So the list that a filter or a sort choice brings on screen is
in the chosen order exactly when the posts are so already. And the sort by
popularity compares what `getPopularity` computes, which wraps: it orders the posts
by their popularity exactly when it does so pair by pair.

Key definitions: `Passes`, `popularity`, `InOrder`, `InForumOrder`, `Sortable`, `Unmoved`, `Shown`,
`shows`, `Ready`, `Along`.
Key theorems: `filtered_perm`, `count_filterForumCollection`, `pairwise_filtered`, `sortPosts_inOrder`,
`shown_iff`, `list_shown_iff`.
-/
import FootballGallery.CoreForum
import FootballGallery.Lib.Sorting

namespace FootballGallery
namespace CoreForum

open DBUtil Buckets Sorting

/-! ### The filter -/

/-- The flags of the post's league and of its category are set. -/
def Passes (flags : List Bool) (p : Post) : Prop :=
  (∃ i < flags.length - 4, flags[i]? = some true ∧ p.mFilter = i) ∧
    ∃ k < flags.length - 5, flags[k + 5]? = some true ∧ p.mCategory = k

instance (flags : List Bool) (p : Post) : Decidable (Passes flags p) :=
  inferInstanceAs (Decidable (_ ∧ _))

/-- What `filterForumCollection` makes of a collection. -/
def filtered (flags : List Bool) (ps : List Post) : List Post :=
  categoryFiltered flags (leagueFiltered flags ps)

section Filter

variable {flags : List Bool} {ps : List Post} {p : Post}

theorem getD_flag (i : ℕ) : flags[i]?.getD false = true ↔ flags[i]? = some true := by
  cases flags[i]? with
  | none => simp
  | some b => simp

theorem any_league :
    ((List.range (flags.length - 4)).any fun i => flags[i]?.getD false && p.mFilter == (i : ℤ)) = true ↔
      ∃ i < flags.length - 4, flags[i]? = some true ∧ p.mFilter = i := by
  simp only [List.any_eq_true, List.mem_range, Bool.and_eq_true, getD_flag, beq_iff_eq]

theorem any_category :
    ((List.range' 5 (flags.length - 5)).any fun i => flags[i]?.getD false && p.mCategory == (i : ℤ) - 5) = true ↔
      ∃ k < flags.length - 5, flags[k + 5]? = some true ∧ p.mCategory = k := by
  simp only [List.any_eq_true, List.mem_range'_1, Bool.and_eq_true, getD_flag, beq_iff_eq]
  constructor
  · rintro ⟨i, ⟨h5, hi⟩, hflag, hcat⟩
    refine ⟨i - 5, by omega, ?_, by omega⟩
    rwa [Nat.sub_add_cancel h5]
  · rintro ⟨k, hk, hflag, hcat⟩
    exact ⟨k + 5, ⟨by omega, by omega⟩, hflag, by omega⟩

theorem leagueFiltered_perm : (leagueFiltered flags ps).Perm
    (ps.filter fun p => (List.range (flags.length - 4)).any fun i => flags[i]?.getD false && p.mFilter == (i : ℤ)) := by
  refine buckets_perm fun p _ => List.Pairwise.imp (fun hij hi => ?_) List.pairwise_lt_range
  simp only [Bool.and_eq_true, beq_iff_eq] at hi
  rw [Bool.and_eq_false_iff]
  refine .inr (beq_eq_false_iff_ne.mpr ?_)
  omega

theorem categoryFiltered_perm : (categoryFiltered flags ps).Perm
    (ps.filter fun p =>
      (List.range' 5 (flags.length - 5)).any fun i => flags[i]?.getD false && p.mCategory == (i : ℤ) - 5) := by
  refine buckets_perm fun p _ => List.Pairwise.imp (fun hij hi => ?_) List.pairwise_lt_range'
  simp only [Bool.and_eq_true, beq_iff_eq] at hi
  rw [Bool.and_eq_false_iff]
  refine .inr (beq_eq_false_iff_ne.mpr ?_)
  omega

/-- The filter reorders the posts, and keeps those that pass. -/
theorem filtered_perm (flags : List Bool) (ps : List Post) :
    (filtered flags ps).Perm (ps.filter fun p => decide (Passes flags p)) := by
  refine categoryFiltered_perm.trans ((leagueFiltered_perm.filter _).trans ?_)
  rw [List.filter_filter]
  refine List.Perm.of_eq (List.filter_congr fun p _ => ?_)
  rw [Bool.eq_iff_iff, Bool.and_eq_true, any_league, any_category, decide_eq_true_iff]
  exact and_comm

theorem mem_filtered : p ∈ filtered flags ps ↔ p ∈ ps ∧ Passes flags p := by
  rw [(filtered_perm flags ps).mem_iff, List.mem_filter, decide_eq_true_iff]

/-- What passes nine flags, league by league and category by category. -/
theorem passes_ofFn (flags : Fin 9 → Bool) (p : Post) : Passes (List.ofFn flags) p ↔
    (∃ i : Fin 5, flags (i.castLE (by omega)) = true ∧ p.mFilter = (i : ℤ)) ∧
      ∃ k : Fin 4, flags (k.natAdd 5) = true ∧ p.mCategory = (k : ℤ) := by
  unfold Passes
  rw [List.length_ofFn]
  refine and_congr ?_ ?_
  · constructor
    · rintro ⟨i, hi, hflag, hleague⟩
      rw [List.getElem?_ofFn, dif_pos (by omega)] at hflag
      exact ⟨⟨i, hi⟩, Option.some.inj hflag, hleague⟩
    · rintro ⟨i, hflag, hleague⟩
      refine ⟨i, i.isLt, ?_, hleague⟩
      rw [List.getElem?_ofFn, dif_pos (by omega)]
      exact congrArg some hflag
  · constructor
    · rintro ⟨k, hk, hflag, hcat⟩
      rw [List.getElem?_ofFn, dif_pos (by omega)] at hflag
      refine ⟨⟨k, hk⟩, ?_, hcat⟩
      rw [← Option.some.inj hflag]
      exact congrArg flags (Fin.ext (Nat.add_comm 5 k))
    · rintro ⟨k, hflag, hcat⟩
      refine ⟨k, k.isLt, ?_, hcat⟩
      rw [List.getElem?_ofFn, dif_pos (by omega), ← hflag]
      exact congrArg (fun i => some (flags i)) (Fin.ext (Nat.add_comm _ 5))

/-- **The forum filter is exact.** A post is in the filtered list as often as in the
collection when the flags of its league and of its category are set, and otherwise
not at all. -/
theorem count_filterForumCollection (flags : Fin 9 → Bool) (c : CoreForum) (ps : List Post) :
    ∃ l, (filterForumCollection { c with
        mForumCollection := some ps
        mForumFilterSelection := List.ofFn flags }).mFilteredForum = some l ∧
      ∀ p : Post, l.count p =
        if (∃ i : Fin 5, flags (i.castLE (by omega)) = true ∧ p.mFilter = (i : ℤ)) ∧
          ∃ k : Fin 4, flags (k.natAdd 5) = true ∧ p.mCategory = (k : ℤ) then ps.count p else 0 := by
  refine ⟨filtered (List.ofFn flags) ps, rfl, fun p => ?_⟩
  rw [(filtered_perm _ ps).count_eq]
  have hpasses := passes_ofFn flags p
  by_cases hp : Passes (List.ofFn flags) p
  · rw [if_pos (hpasses.mp hp)]
    exact List.count_filter (decide_eq_true hp)
  · rw [if_neg (hp ∘ hpasses.mpr)]
    refine List.count_eq_zero_of_not_mem fun hmem => ?_
    exact hp (of_decide_eq_true (List.mem_filter.mp hmem).2)

/-- The posts that pass satisfy `R` pairwise when they are taken category by category,
in a category league by league, and in a league in the order of the collection. -/
def InForumOrder (R : Post → Post → Prop) (flags : List Bool) (ps : List Post) : Prop :=
  ps.Pairwise (fun p q => Passes flags p → Passes flags q → p.mCategory = q.mCategory →
    p.mFilter = q.mFilter → R p q) ∧
  ∀ p ∈ ps, Passes flags p → ∀ q ∈ ps, Passes flags q →
    p.mCategory < q.mCategory ∨ p.mCategory = q.mCategory ∧ p.mFilter < q.mFilter → R p q

theorem pairwise_range {S : ℕ → ℕ → Prop} {n : ℕ} :
    (List.range n).Pairwise S ↔ ∀ i j, i < j → j < n → S i j := by
  rw [List.pairwise_iff_getElem]
  simp only [List.length_range, List.getElem_range]
  constructor
  · intro h i j hij hj
    exact h i j (by omega) hj hij
  · intro h i j hi hj hij
    exact h i j hij hj

theorem pairwise_range' {S : ℕ → ℕ → Prop} {n : ℕ} :
    (List.range' 5 n).Pairwise S ↔ ∀ i j, i < j → j < n → S (5 + i) (5 + j) := by
  rw [List.pairwise_iff_getElem]
  simp only [List.length_range', List.getElem_range', Nat.one_mul]
  constructor
  · intro h i j hij hj
    exact h i j (by omega) hj hij
  · intro h i j hi hj hij
    exact h i j hij hj

variable {R : Post → Post → Prop}

theorem pairwise_leagueFiltered : (leagueFiltered flags ps).Pairwise R ↔
    ps.Pairwise (fun (p q : Post) => ∀ i : ℕ, i < flags.length - 4 → flags[i]? = some true → p.mFilter = i →
      q.mFilter = i → R p q) ∧
    ∀ i j : ℕ, i < j → j < flags.length - 4 → flags[i]? = some true → flags[j]? = some true →
      ∀ p ∈ ps, p.mFilter = i → ∀ q ∈ ps, q.mFilter = j → R p q := by
  unfold leagueFiltered
  rw [pairwise_buckets, pairwise_range]
  simp only [Bool.and_eq_true, getD_flag, beq_iff_eq, List.mem_range]
  refine and_congr ?_ ?_
  · simp only [List.pairwise_iff_forall_sublist]
    constructor
    · intro h p q hpq i hi hf hp hq
      exact h i hi hpq ⟨hf, hp⟩ ⟨hf, hq⟩
    · intro h i hi p q hpq hp hq
      exact h hpq i hi hp.1 hp.2 hq.2
  · constructor
    · intro h i j hij hj hfi hfj p hp hpi q hq hqj
      exact h i j hij hj p hp ⟨hfi, hpi⟩ q hq ⟨hfj, hqj⟩
    · intro h i j hij hj p hp hpi q hq hqj
      exact h i j hij hj hpi.1 hqj.1 p hp hpi.2 q hq hqj.2

theorem pairwise_categoryFiltered : (categoryFiltered flags ps).Pairwise R ↔
    ps.Pairwise (fun (p q : Post) => ∀ k : ℕ, k < flags.length - 5 → flags[k + 5]? = some true → p.mCategory = k →
      q.mCategory = k → R p q) ∧
    ∀ i j : ℕ, i < j → j < flags.length - 5 → flags[i + 5]? = some true → flags[j + 5]? = some true →
      ∀ p ∈ ps, p.mCategory = i → ∀ q ∈ ps, q.mCategory = j → R p q := by
  unfold categoryFiltered
  rw [pairwise_buckets, pairwise_range']
  simp only [Bool.and_eq_true, getD_flag, beq_iff_eq, List.mem_range'_1]
  refine and_congr ?_ ?_
  · simp only [List.pairwise_iff_forall_sublist]
    constructor
    · intro h p q hpq k hk hf hp hq
      exact h (k + 5) (by omega) hpq ⟨hf, by omega⟩ ⟨hf, by omega⟩
    · intro h i hi p q hpq hp hq
      have hf : flags[i - 5 + 5]? = some true := by
        rw [Nat.sub_add_cancel hi.1]
        exact hp.1
      exact h hpq (i - 5) (by omega) hf (by omega) (by omega)
  · constructor
    · intro h i j hij hj hfi hfj p hp hpi q hq hqj
      rw [Nat.add_comm] at hfi hfj
      exact h i j hij hj p hp ⟨hfi, by omega⟩ q hq ⟨hfj, by omega⟩
    · intro h i j hij hj p hp hpi q hq hqj
      rw [Nat.add_comm] at hpi hqj
      exact h i j hij hj hpi.1 hqj.1 p hp (by omega) q hq (by omega)

theorem pairwise_filtered : (filtered flags ps).Pairwise R ↔ InForumOrder R flags ps := by
  unfold filtered
  rw [pairwise_categoryFiltered, pairwise_leagueFiltered]
  constructor
  · rintro ⟨⟨hsame, hleague⟩, hcat⟩
    refine ⟨hsame.imp fun hpq hp hq hc hf => ?_, fun p hp hpp q hq hqp hlt => ?_⟩
    · obtain ⟨⟨i, hi, hfi, hpi⟩, k, hk, hfk, hpk⟩ := hp
      exact hpq i hi hfi hpi (by omega) k hk hfk hpk (by omega)
    · have hp' : p ∈ leagueFiltered flags ps := by
        rw [leagueFiltered_perm.mem_iff, List.mem_filter, any_league]
        exact ⟨hp, hpp.1⟩
      have hq' : q ∈ leagueFiltered flags ps := by
        rw [leagueFiltered_perm.mem_iff, List.mem_filter, any_league]
        exact ⟨hq, hqp.1⟩
      obtain ⟨⟨i, hi, hfi, hpi⟩, k, hk, hfk, hpk⟩ := hpp
      obtain ⟨⟨j, hj, hfj, hqj⟩, l, hl, hfl, hql⟩ := hqp
      rcases hlt with hlt | ⟨hc, hlt⟩
      · exact hcat k l (by omega) hl hfk hfl p hp' hpk q hq' hql
      · exact hleague i j (by omega) hj hfi hfj p hp hpi q hq hqj k hk hfk hpk (by omega)
  · rintro ⟨hsame, hacross⟩
    refine ⟨⟨hsame.imp fun hpq i hi hfi hpi hqi k hk hfk hpk hqk => ?_,
      fun i j hij hj hfi hfj p hp hpi q hq hqj k hk hfk hpk hqk => ?_⟩,
      fun k l hkl hl hfk hfl p hp hpk q hq hql => ?_⟩
    · exact hpq ⟨⟨i, hi, hfi, hpi⟩, k, hk, hfk, hpk⟩ ⟨⟨i, hi, hfi, hqi⟩, k, hk, hfk, hqk⟩ (by omega) (by omega)
    · exact hacross p hp ⟨⟨i, by omega, hfi, hpi⟩, k, hk, hfk, hpk⟩ q hq ⟨⟨j, hj, hfj, hqj⟩, k, hk, hfk, hqk⟩
        (.inr ⟨by omega, by omega⟩)
    · rw [leagueFiltered_perm.mem_iff, List.mem_filter, any_league] at hp hq
      exact hacross p hp.1 ⟨hp.2, k, by omega, hfk, hpk⟩ q hq.1 ⟨hq.2, l, hl, hfl, hql⟩ (.inl (by omega))

end Filter

/-! ### The order -/

/-- Likes plus twice the comments. -/
def popularity (p : Post) : ℤ := p.mLikes + p.mComments.length * 2

/-- `getPopularity` is the popularity of a post that is not too popular. -/
theorem getPopularity_eq {p : Post} (hlow : -2 ^ 31 ≤ popularity p) (hhigh : popularity p < 2 ^ 31) :
    p.getPopularity = popularity p := by
  unfold popularity at hlow hhigh
  exact Int.bmod_eq_of_le (by omega) (by omega)

section TimeZone

variable (toInstant : ℤ → ℤ)

/-- `p` may stand before `q`: it is not older, or not less popular by the measure `pop`. -/
def OrderBy (pop : Post → ℤ) (selection : ℤ) (p q : Post) : Prop :=
  if selection = 0 then
    ∃ d ∈ p.getDateDate toInstant, ∃ d' ∈ q.getDateDate toInstant, d' ≤ d
  else pop q ≤ pop p

/-- The order that the user has chosen. -/
def InOrder (selection : ℤ) (p q : Post) : Prop := OrderBy toInstant popularity selection p q

/-- The order that the user has chosen is also the one that the code sorts by. -/
def Unmoved (selection : ℤ) (p q : Post) : Prop :=
  InOrder toInstant selection p q ∧ OrderBy toInstant Post.getPopularity selection p q

/-- The posts that pass can be sorted: by date if no dates are compared, or all are
there, and by popularity if the code ranks each two of them as they are ranked. -/
def Sortable (selection : ℤ) (flags : List Bool) (ps : List Post) : Prop :=
  if selection = 0 then
    (ps.filter fun p => decide (Passes flags p)).length < 2 ∨
      ∀ p ∈ ps, Passes flags p → (p.getDateDate toInstant).isSome
  else
    InForumOrder (Settled (fun o1 o2 => o2.getPopularity ≤ o1.getPopularity)
      fun p q => popularity q ≤ popularity p) flags ps

/-- The list of the fragment. -/
def screen (c : CoreForum) : Option (List Post) := c.fragment.map (·.mCollection.getD [])

/-- The list of the fragment is right: it has the posts that pass, in the chosen
order, and is what `replaceFragment` would show. -/
structure Shown (c : CoreForum) (l : List Post) : Prop where
  list : c.screen = some l
  perm : l.Perm ((c.mForumCollection.getD []).filter fun p => decide (Passes c.mForumFilterSelection p))
  sorted : l.Pairwise (InOrder toInstant c.mForumSortSelection)
  agree : (replaceFragment toInstant .forum c).bind screen = some l

instance (selection : ℤ) (p q : Post) : Decidable (InOrder toInstant selection p q) :=
  inferInstanceAs (Decidable (if selection = 0 then
    ∃ d ∈ p.getDateDate toInstant, ∃ d' ∈ q.getDateDate toInstant, d' ≤ d
    else popularity q ≤ popularity p))

variable {toInstant} {pop : Post → ℤ} {selection : ℤ} {flags : List Bool} {ps l : List Post}

theorem orderBy_date (h : selection = 0) {p q : Post} (hp : (p.getDateDate toInstant).isSome)
    (hq : (q.getDateDate toInstant).isSome) :
    OrderBy toInstant pop selection p q ↔ (q.getDateDate toInstant).getD 0 ≤ (p.getDateDate toInstant).getD 0 := by
  obtain ⟨d, hd⟩ := Option.isSome_iff_exists.mp hp
  obtain ⟨d', hd'⟩ := Option.isSome_iff_exists.mp hq
  simp [OrderBy, h, hd, hd']

theorem isSome_of_orderBy (h : selection = 0) {p q : Post} (hpq : OrderBy toInstant pop selection p q) :
    (p.getDateDate toInstant).isSome ∧ (q.getDateDate toInstant).isSome := by
  rw [OrderBy, if_pos h] at hpq
  obtain ⟨d, hd, d', hd', -⟩ := hpq
  exact ⟨Option.isSome_iff_exists.mpr ⟨d, hd⟩, Option.isSome_iff_exists.mpr ⟨d', hd'⟩⟩

/-- In a list of at least two members each is compared with another one. -/
theorem forall_of_pairwise {α : Type*} {R : α → α → Prop} {P : α → Prop} {l : List α}
    (hR : ∀ x y, R x y → P x ∧ P y) (h : l.Pairwise R) (hlen : 2 ≤ l.length) : ∀ x ∈ l, P x := by
  match l, hlen with
  | a :: b :: l, _ =>
    have hab := List.pairwise_cons.mp h
    intro x hx
    rcases List.mem_cons.mp hx with rfl | hx
    · exact (hR _ _ (hab.1 b List.mem_cons_self)).1
    · exact (hR _ _ (hab.1 x hx)).2

theorem pairwise_of_short {α : Type*} {R : α → α → Prop} {l : List α} (hlen : l.length < 2) : l.Pairwise R := by
  match l, hlen with
  | [], _ => exact .nil
  | [x], _ => exact List.pairwise_singleton R x

/-- What sorting makes of a list, if it does not throw. -/
theorem sortPosts_spec (h : sortPosts toInstant selection ps = some l) :
    l.Perm ps ∧ l.Pairwise (OrderBy toInstant Post.getPopularity selection) := by
  unfold sortPosts at h
  by_cases hsel : selection = 0
  · rw [if_pos hsel] at h
    split at h
    · rename_i hdates
      obtain rfl := Option.some.inj h
      have hperm := List.perm_insertionSort
        (fun o1 o2 : Post => (o2.getDateDate toInstant).getD 0 ≤ (o1.getDateDate toInstant).getD 0) ps
      refine ⟨hperm, ?_⟩
      have hsorted := List.pairwise_insertionSort
        (fun o1 o2 : Post => (o2.getDateDate toInstant).getD 0 ≤ (o1.getDateDate toInstant).getD 0) ps
      rw [Bool.or_eq_true, decide_eq_true_iff, List.all_eq_true] at hdates
      rcases hdates with hlen | hall
      · exact pairwise_of_short (hperm.length_eq ▸ hlen)
      · refine hsorted.imp_of_mem fun hx hy hxy => ?_
        exact (orderBy_date hsel (hall _ (hperm.mem_iff.mp hx)) (hall _ (hperm.mem_iff.mp hy))).mpr hxy
    · cases h
  · rw [if_neg hsel] at h
    obtain rfl := Option.some.inj h
    refine ⟨List.perm_insertionSort (fun o1 o2 : Post => o2.getPopularity ≤ o1.getPopularity) ps, ?_⟩
    have hsorted := List.pairwise_insertionSort (fun o1 o2 : Post => o2.getPopularity ≤ o1.getPopularity) ps
    refine hsorted.imp fun hxy => ?_
    rw [OrderBy, if_neg hsel]
    exact hxy

/-- When what sorting makes of a list is in the order that the user has chosen. -/
theorem sortPosts_inOrder (h : sortPosts toInstant selection ps = some l) :
    l.Pairwise (InOrder toInstant selection) ↔
      (selection ≠ 0 → ps.Pairwise (Settled (fun o1 o2 => o2.getPopularity ≤ o1.getPopularity)
        fun p q => popularity q ≤ popularity p)) := by
  by_cases hsel : selection = 0
  · subst hsel
    -- the order by date does not look at the popularity
    have hdate := (sortPosts_spec h).2
    exact iff_of_true hdate fun h0 => absurd rfl h0
  · unfold sortPosts at h
    rw [if_neg hsel] at h
    obtain rfl := Option.some.inj h
    have hpop : ∀ p q : Post, InOrder toInstant selection p q ↔ popularity q ≤ popularity p := by
      intro p q
      rw [InOrder, OrderBy, if_neg hsel]
    have : Std.Total fun o1 o2 : Post => o2.getPopularity ≤ o1.getPopularity := ⟨fun _ _ => le_total _ _⟩
    have : IsTrans Post fun o1 o2 => o2.getPopularity ≤ o1.getPopularity :=
      ⟨fun _ _ _ h₁₂ h₂₃ => le_trans h₂₃ h₁₂⟩
    simp only [ne_eq, hsel, not_false_eq_true, forall_const]
    rw [← pairwise_insertionSort_iff, List.Pairwise.iff hpop]

theorem sortPosts_isSome : (sortPosts toInstant selection ps).isSome ↔
    (selection = 0 → ps.length < 2 ∨ ∀ p ∈ ps, (p.getDateDate toInstant).isSome) := by
  unfold sortPosts
  by_cases hsel : selection = 0
  · rw [if_pos hsel]
    split
    · rename_i hdates
      rw [Bool.or_eq_true, decide_eq_true_iff, List.all_eq_true] at hdates
      simp only [Option.isSome_some, true_iff]
      exact fun _ => hdates
    · rename_i hdates
      rw [Bool.or_eq_true, decide_eq_true_iff, List.all_eq_true] at hdates
      simp only [Option.isSome_none, Bool.false_eq_true, false_iff]
      exact fun h => hdates (h hsel)
  · rw [if_neg hsel]
    simp [hsel]

/-- Sorting leaves a list alone that is in order. -/
theorem sortPosts_eq (h : ps.Pairwise (OrderBy toInstant Post.getPopularity selection)) :
    sortPosts toInstant selection ps = some ps := by
  by_cases hsel : selection = 0
  · have hdates : ps.length < 2 ∨ ∀ p ∈ ps, (p.getDateDate toInstant).isSome := by
      by_cases hlen : ps.length < 2
      · exact .inl hlen
      · exact .inr (forall_of_pairwise (fun _ _ => isSome_of_orderBy hsel) h (by omega))
    unfold sortPosts
    rw [if_pos hsel, if_pos (by rwa [Bool.or_eq_true, decide_eq_true_iff, List.all_eq_true])]
    refine congrArg some (List.Pairwise.insertionSort_eq (h.imp fun hpq => ?_))
    obtain ⟨hp, hq⟩ := isSome_of_orderBy hsel hpq
    exact (orderBy_date hsel hp hq).mp hpq
  · unfold sortPosts
    rw [if_neg hsel]
    refine congrArg some (List.Pairwise.insertionSort_eq (h.imp fun hpq => ?_))
    rw [OrderBy, if_neg hsel] at hpq
    exact hpq

/-! ### The two ways of making the fragment -/

variable {c c' : CoreForum}

theorem screen_replaceFragment (c : CoreForum) : (replaceFragment toInstant .forum c).bind screen =
    sortPosts toInstant c.mForumSortSelection
      (filtered c.mForumFilterSelection (c.mForumCollection.getD [])) := by
  simp only [replaceFragment, sortForumCollection, filterForumCollection]
  cases hc : c.mForumCollection with
  | none =>
    have hnil : filtered c.mForumFilterSelection [] = [] := by
      have hperm := filtered_perm c.mForumFilterSelection []
      exact List.Perm.eq_nil hperm
    have hsort : sortPosts toInstant c.mForumSortSelection [] = some [] := sortPosts_eq .nil
    simp only [Option.map_none, Option.getD_none, hnil, hsort]
    rfl
  | some ps =>
    simp only [Option.map_some, Option.getD_some]
    unfold filtered
    cases sortPosts toInstant c.mForumSortSelection (categoryFiltered c.mForumFilterSelection
      (leagueFiltered c.mForumFilterSelection ps)) with
    | none => rfl
    | some l => rfl

/-- What `replaceFragment` leaves alone. -/
theorem replaceFragment_frame {tab : Tab} (h : replaceFragment toInstant tab c = some c') :
    c'.mForumCollection = c.mForumCollection ∧ c'.mForumFilterSelection = c.mForumFilterSelection ∧
      c'.mForumSortSelection = c.mForumSortSelection ∧ c'.mBNV = c.mBNV := by
  have hsort : ∀ {c₁ c₂ : CoreForum}, sortForumCollection toInstant c₁ = some c₂ →
      c₂.mForumCollection = c₁.mForumCollection ∧ c₂.mForumFilterSelection = c₁.mForumFilterSelection ∧
        c₂.mForumSortSelection = c₁.mForumSortSelection ∧ c₂.mBNV = c₁.mBNV := by
    intro c₁ c₂ h
    unfold sortForumCollection at h
    split at h
    · obtain rfl := Option.some.inj h
      exact ⟨rfl, rfl, rfl, rfl⟩
    · obtain ⟨l, -, rfl⟩ := Option.map_eq_some_iff.mp h
      exact ⟨rfl, rfl, rfl, rfl⟩
  unfold replaceFragment at h
  cases tab with
  | forum =>
    obtain ⟨c₁, hc₁, rfl⟩ := Option.map_eq_some_iff.mp h
    have hframe := hsort hc₁
    exact hframe
  | _ =>
    obtain rfl := Option.some.inj h
    exact ⟨rfl, rfl, rfl, rfl⟩

/-- The posts that pass can be sorted when the sort does not throw and leaves them in
the chosen order. -/
theorem sortable_iff : Sortable toInstant selection flags ps ↔
    ∃ l, sortPosts toInstant selection (filtered flags ps) = some l ∧ l.Pairwise (InOrder toInstant selection) := by
  have hsome : (sortPosts toInstant selection (filtered flags ps)).isSome ↔ (selection = 0 →
      (ps.filter fun p => decide (Passes flags p)).length < 2 ∨
        ∀ p ∈ ps, Passes flags p → (p.getDateDate toInstant).isSome) := by
    rw [sortPosts_isSome, (filtered_perm flags ps).length_eq]
    simp only [mem_filtered, and_imp]
  unfold Sortable
  by_cases hsel : selection = 0
  · rw [if_pos hsel]
    constructor
    · intro h
      obtain ⟨l, hl⟩ := Option.isSome_iff_exists.mp (hsome.mpr fun _ => h)
      exact ⟨l, hl, (sortPosts_inOrder hl).mpr fun h0 => absurd hsel h0⟩
    · rintro ⟨l, hl, -⟩
      exact hsome.mp (hl ▸ rfl) hsel
  · rw [if_neg hsel, ← pairwise_filtered]
    constructor
    · intro h
      obtain ⟨l, hl⟩ := Option.isSome_iff_exists.mp (hsome.mpr fun h0 => absurd h0 hsel)
      exact ⟨l, hl, (sortPosts_inOrder hl).mpr fun _ => h⟩
    · rintro ⟨l, hl, hsorted⟩
      exact (sortPosts_inOrder hl).mp hsorted hsel

/-- Posts whose popularity does not wrap can be sorted by it. -/
theorem sortable_of_small (hsel : selection ≠ 0)
    (h : ∀ p ∈ ps, Passes flags p → -2 ^ 31 ≤ popularity p ∧ popularity p < 2 ^ 31) :
    Sortable toInstant selection flags ps := by
  rw [Sortable, if_neg hsel, ← pairwise_filtered]
  refine List.pairwise_of_forall_mem_list fun p hp q hq => ?_
  have hpop : ∀ x ∈ filtered flags ps, x.getPopularity = popularity x := by
    intro x hx
    obtain ⟨hmem, hpass⟩ := mem_filtered.mp hx
    exact getPopularity_eq (h x hmem hpass).1 (h x hmem hpass).2
  rw [Settled, hpop p hp, hpop q hq]
  split
  · assumption
  · omega

/-- `replaceFragment` shows the right list unless it throws or the popularity wraps. -/
theorem shown_replaceFragment : (∃ c' l, replaceFragment toInstant .forum c = some c' ∧ Shown toInstant c' l) ↔
    Sortable toInstant c.mForumSortSelection c.mForumFilterSelection (c.mForumCollection.getD []) := by
  rw [sortable_iff, ← screen_replaceFragment]
  constructor
  · rintro ⟨c', l, hc', hshown⟩
    have hsorted := hshown.sorted
    rw [(replaceFragment_frame hc').2.2.1] at hsorted
    exact ⟨l, by rw [hc', Option.bind_some, hshown.list], hsorted⟩
  · rintro ⟨l, hl, hsorted⟩
    obtain ⟨c', hc', hscreen⟩ := Option.bind_eq_some_iff.mp hl
    obtain ⟨hcol, hflags, hsel, -⟩ := replaceFragment_frame hc'
    have hsort : sortPosts toInstant c.mForumSortSelection
        (filtered c.mForumFilterSelection (c.mForumCollection.getD [])) = some l := by
      rw [← screen_replaceFragment, hl]
    refine ⟨c', l, hc', hscreen, ?_, ?_, ?_⟩
    · rw [hcol, hflags]
      exact (sortPosts_spec hsort).1.trans (filtered_perm _ _)
    · rw [hsel]
      exact hsorted
    · rw [screen_replaceFragment, hcol, hflags, hsel, hsort]

/-- `replaceForumFragment` shows the right list if the posts are in order already. -/
theorem shown_replaceForumFragment :
    (∃ l, Shown toInstant (replaceForumFragment flags selection c) l) ↔
      InForumOrder (Unmoved toInstant selection) flags (c.mForumCollection.getD []) := by
  have hscreen : (replaceForumFragment flags selection c).screen =
      some (filtered flags (c.mForumCollection.getD [])) := by
    unfold replaceForumFragment filterForumCollection newFragment screen
    cases c.mForumCollection with
    | none =>
      refine congrArg some ?_
      exact (List.Perm.eq_nil (filtered_perm flags [])).symm
    | some ps => rfl
  rw [← pairwise_filtered]
  constructor
  · rintro ⟨l, hshown⟩
    obtain rfl := Option.some.inj (hscreen.symm.trans hshown.list)
    have hagree := hshown.agree
    rw [screen_replaceFragment] at hagree
    exact List.pairwise_and_iff.mpr ⟨hshown.sorted, (sortPosts_spec hagree).2⟩
  · intro h
    obtain ⟨hsorted, hcode⟩ := List.pairwise_and_iff.mp h
    refine ⟨_, hscreen, filtered_perm _ _, hsorted, ?_⟩
    rw [screen_replaceFragment]
    exact sortPosts_eq hcode

/-! ### Events and runs -/

variable (toInstant)

def step (c : CoreForum) : Action ⊕ Reply → Option (CoreForum × List CoreTask)
  | .inl a => act toInstant c a
  | .inr r => recv toInstant c r

/-- The event makes a `ForumFragment`. -/
def shows (c : CoreForum) : Action ⊕ Reply → Bool
  | .inl (.onBnvClick tab) => tab == .forum
  | .inl .applyFilter => minimumSelection c.mForumFilterSelection && c.mBNV == .forum && c.fragment.isSome
  | .inl .selectAll | .inl .applySort => c.mBNV == .forum && c.fragment.isSome
  | .inr (.broadcast ⟨a, true, some (.posts _)⟩) => a == CoreActivity.repopulateForum && c.mBNV == .forum
  | .inr .onPostStandingsAsync => c.mBNV == .forum
  | _ => false

/-- The posts that the event is about can be sorted or, where nobody sorts them, are
in order already, and in the order that the sort would give them. -/
def Ready (c : CoreForum) : Action ⊕ Reply → Prop
  | .inl .applyFilter | .inl .applySort => ∀ f ∈ c.fragment,
    InForumOrder (Unmoved toInstant f.mCheckedSortItem) c.mForumFilterSelection (c.mForumCollection.getD [])
  | .inl .selectAll => ∀ f ∈ c.fragment, InForumOrder (Unmoved toInstant f.mCheckedSortItem)
    (c.mForumFilterSelection.map fun _ => true) (c.mForumCollection.getD [])
  | .inr (.broadcast ⟨_, _, some (.posts ps)⟩) =>
    Sortable toInstant c.mForumSortSelection c.mForumFilterSelection ps
  | _ => Sortable toInstant c.mForumSortSelection c.mForumFilterSelection (c.mForumCollection.getD [])

/-- `P` holds of every event of the run of `es` from `c`. -/
def Along (P : CoreForum → Action ⊕ Reply → Prop) : CoreForum → List (Action ⊕ Reply) → Prop
  | _, [] => True
  | c, e :: es => P c e ∧ ∀ c' ts, step toInstant c e = some (c', ts) → Along P c' es

variable {toInstant}

theorem along_congr {P P' : CoreForum → Action ⊕ Reply → Prop} (h : ∀ c e, P c e ↔ P' c e) (c : CoreForum)
    (es : List (Action ⊕ Reply)) : Along toInstant P c es ↔ Along toInstant P' c es := by
  induction es generalizing c with
  | nil => exact Iff.rfl
  | cons e es ih => exact and_congr (h c e) (forall₃_congr fun c' _ _ => ih c')

/-- A dialog of the fragment on screen. -/
theorem shown_onFragment {g : ForumFragment → CoreForum} {f : ForumFragment} (htab : c.mBNV = .forum)
    (hf : c.fragment = some f) : c.onFragment g = g f := by
  unfold onFragment
  rw [if_pos htab, hf]
  rfl

/-- **An event that shows the forum shows the right list exactly when it finds the
posts sorted or sorts them.** -/
theorem shown_iff {e : Action ⊕ Reply} (h : shows c e = true) :
    (∃ c' ts l, step toInstant c e = some (c', ts) ∧ Shown toInstant c' l) ↔ Ready toInstant c e := by
  have hsorted : ∀ {c : CoreForum} {x : Option CoreForum},
      x = replaceFragment toInstant .forum c →
      ((∃ c' ts l, x.map (fun c' => (c', ([] : List CoreTask))) = some (c', ts) ∧ Shown toInstant c' l) ↔
        Sortable toInstant c.mForumSortSelection c.mForumFilterSelection (c.mForumCollection.getD [])) := by
    intro c x hx
    rw [hx, ← shown_replaceFragment]
    constructor
    · rintro ⟨c', ts, l, hmap, hl⟩
      obtain ⟨c₁, hc₁, heq⟩ := Option.map_eq_some_iff.mp hmap
      obtain ⟨rfl, -⟩ := Prod.mk.inj heq
      exact ⟨c₁, l, hc₁, hl⟩
    · rintro ⟨c', l, hc', hl⟩
      exact ⟨c', [], l, by rw [hc']; rfl, hl⟩
  have hunsorted : ∀ {flags : List Bool} {c₁ : CoreForum} {f : ForumFragment}, c.fragment = some f →
      c₁ = replaceForumFragment flags f.mCheckedSortItem c →
      ((∃ c' ts l, some (c₁, ([] : List CoreTask)) = some (c', ts) ∧ Shown toInstant c' l) ↔
        ∀ f ∈ c.fragment, InForumOrder (Unmoved toInstant f.mCheckedSortItem) flags
          (c.mForumCollection.getD [])) := by
    intro flags c₁ f hf hc₁
    have hall : (∀ f ∈ c.fragment, InForumOrder (Unmoved toInstant f.mCheckedSortItem) flags
        (c.mForumCollection.getD [])) ↔
        InForumOrder (Unmoved toInstant f.mCheckedSortItem) flags (c.mForumCollection.getD []) := by
      rw [hf]
      simp
    rw [hall, ← shown_replaceForumFragment (c := c), ← hc₁]
    constructor
    · rintro ⟨c', ts, l, heq, hl⟩
      obtain ⟨rfl, -⟩ := Prod.mk.inj (Option.some.inj heq)
      exact ⟨l, hl⟩
    · rintro ⟨l, hl⟩
      exact ⟨c₁, [], l, rfl, hl⟩
  cases e with
  | inl a =>
    cases a with
    | onBnvClick tab =>
      obtain rfl : tab = .forum := beq_iff_eq.mp h
      exact hsorted (c := { c with mBNV := .forum }) rfl
    | applyFilter =>
      simp only [shows, Bool.and_eq_true, beq_iff_eq] at h
      obtain ⟨f, hf⟩ := Option.isSome_iff_exists.mp h.2
      refine hunsorted hf ?_
      rw [if_pos h.1.1, shown_onFragment h.1.2 hf]
    | selectAll =>
      simp only [shows, Bool.and_eq_true, beq_iff_eq] at h
      obtain ⟨f, hf⟩ := Option.isSome_iff_exists.mp h.2
      exact hunsorted hf (shown_onFragment h.1 hf)
    | applySort =>
      simp only [shows, Bool.and_eq_true, beq_iff_eq] at h
      obtain ⟨f, hf⟩ := Option.isSome_iff_exists.mp h.2
      exact hunsorted hf (shown_onFragment h.1 hf)
    | _ => cases h
  | inr r =>
    cases r with
    | broadcast i =>
      obtain ⟨a, b, x⟩ := i
      match b, x, h with
      | true, some (.posts ps), h =>
        simp only [shows, Bool.and_eq_true, beq_iff_eq] at h
        obtain ⟨rfl, htab⟩ := h
        refine hsorted (c := { c with mForumCollection := some ps }) ?_
        rw [htab]
    | onPostStandingsAsync =>
      have htab : c.mBNV = .forum := beq_iff_eq.mp h
      exact hsorted (by rw [htab])
    | _ => cases h

/-- **The list on screen reflects the chosen filter and order along a run** exactly
when each event that shows the forum finds its posts sorted or sorts them. -/
theorem list_shown_iff (c : CoreForum) (es : List (Action ⊕ Reply)) :
    Along toInstant (fun c e => shows c e = true →
        ∃ c' ts l, step toInstant c e = some (c', ts) ∧ Shown toInstant c' l) c es ↔
      Along toInstant (fun c e => shows c e = true → Ready toInstant c e) c es :=
  along_congr (fun _ _ => forall_congr' shown_iff) c es

/-! Two news of one league, the older one first in the collection: the tab shows the
newer one first, and the filter dialog, applied as it is, the older one. -/

def utc (second : ℤ) : ℤ := (second - 719468 * 86400) * 1000

def older : Post := Post.new "post_01-01-2022-09-00-00" "Derby" "who was there?" 0 0

def newer : Post := Post.new "post_02-01-2022-09-00-00" "Clásico" "what a goal" 0 0

def twoNews : CoreForum := { (onCreate "ann@mail.com").1 with mForumCollection := some [older, newer] }

def applied : List (Action ⊕ Reply) := [.inl (.onBnvClick .forum), .inl .applyFilter]

theorem list_unsorted :
    ((step utc twoNews (.inl (.onBnvClick .forum))).bind fun r => r.1.screen) = some [newer, older] ∧
      ¬ Along utc (fun c e => shows c e = true →
        ∃ c' ts l, step utc c e = some (c', ts) ∧ Shown utc c' l) twoNews applied := by
  refine ⟨by decide, fun h => ?_⟩
  obtain ⟨-, hrun⟩ := h
  obtain ⟨⟨c₁, ts₁⟩, hstep⟩ : ∃ r, step utc twoNews (.inl (.onBnvClick .forum)) = some r :=
    Option.isSome_iff_exists.mp (by decide)
  obtain ⟨hshown, -⟩ := hrun c₁ ts₁ hstep
  have hscreen : ∀ r, step utc twoNews (.inl (.onBnvClick .forum)) = some r →
      shows r.1 (.inl .applyFilter) = true ∧
        (step utc r.1 (.inl .applyFilter)).all (fun r' => decide (r'.1.screen = some [older, newer])) = true ∧
        (step utc r.1 (.inl .applyFilter)).all (fun r' => decide (r'.1.mForumSortSelection = 0)) = true := by
    intro r hr
    obtain rfl := Option.some.inj hr
    decide
  obtain ⟨hshows, hlist, hsel⟩ := hscreen _ hstep
  obtain ⟨c₂, ts₂, l, hc₂, hl⟩ := hshown hshows
  rw [hc₂, Option.all_some, decide_eq_true_iff] at hlist hsel
  obtain rfl := Option.some.inj (hl.list.symm.trans hlist)
  have hsorted := hl.sorted
  rw [hsel] at hsorted
  revert hsorted
  decide

end TimeZone
end CoreForum
end FootballGallery
