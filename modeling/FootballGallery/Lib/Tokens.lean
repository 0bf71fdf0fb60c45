/-
# Replacing tokens one after the other

A token starts with an opener, ends with a closer and has neither in between, so
two occurrences of tokens in a text never overlap. To replace all occurrences of
a token by nothing can bring letters together that were apart: what a pass leaves
comes from a word with copies of the token between its letters (`Spread`). So a
token is in the text after a sequence of passes exactly when the text before them
has the token with copies of deleted tokens put into it, where the token's own
pass or a later one took something out; otherwise its own pass would have seen it.

Key definitions: `replaceAll`, `run`, `IsToken`, `Spread`, `Unwound`.
Key theorems: `exists_undone`, `infix_replaceAll`, `infix_run_iff`.
-/
import Mathlib.Data.List.Basic
import Mathlib.Data.List.Infix
import Mathlib.Tactic.Common

namespace Tokens

variable {α : Type*}

/-! ### One pass -/

/-- The copies of a token. -/
def copies (n : ℕ) (t : List α) : List α := (List.replicate n t).flatten

theorem copies_succ (n : ℕ) (t : List α) : copies (n + 1) t = t ++ copies n t := by
  simp [copies, List.replicate_succ]

section Replace

variable [DecidableEq α]

/-- The text after `k` more letters of a match. -/
def replaceFrom (t r : List α) : ℕ → List α → List α
  | _, [] => []
  | k + 1, _ :: s => replaceFrom t r k s
  | 0, c :: s => if t <+: c :: s then r ++ replaceFrom t r (t.length - 1) s else c :: replaceFrom t r 0 s

/-- Every occurrence of `t` is replaced by `r`, from left to right. -/
def replaceAll (t r s : List α) : List α := replaceFrom t r 0 s

variable {t r s : List α} {c : α}

theorem replaceFrom_eq (k : ℕ) (s : List α) : replaceFrom t r k s = replaceAll t r (s.drop k) := by
  induction s generalizing k with
  | nil =>
    rw [List.drop_nil]
    cases k <;> rfl
  | cons c s ih =>
    cases k with
    | zero => rfl
    | succ k => exact ih k

@[simp] theorem replaceAll_nil : replaceAll t r [] = [] := rfl

theorem replaceAll_token (ht : t ≠ []) : replaceAll t r (t ++ s) = r ++ replaceAll t r s := by
  obtain ⟨c, u, rfl⟩ := List.exists_cons_of_ne_nil ht
  have hprefix : c :: u <+: c :: (u ++ s) := List.prefix_append (c :: u) s
  calc replaceAll (c :: u) r (c :: u ++ s) = r ++ replaceFrom (c :: u) r u.length (u ++ s) := if_pos hprefix
    _ = r ++ replaceAll (c :: u) r ((u ++ s).drop u.length) := by rw [replaceFrom_eq]
    _ = r ++ replaceAll (c :: u) r s := by rw [List.drop_left]

theorem replaceAll_cons (h : ¬ t <+: c :: s) : replaceAll t r (c :: s) = c :: replaceAll t r s := if_neg h

omit [DecidableEq α] in
/-- A text is read token by token and, where there is none, letter by letter. -/
theorem token_induction {P : List α → Prop} (ht : t ≠ []) (nil : P []) (token : ∀ s, P s → P (t ++ s))
    (cons : ∀ c s, ¬ t <+: c :: s → P s → P (c :: s)) (s : List α) : P s := by
  induction hlen : s.length using Nat.strong_induction_on generalizing s with
  | _ n ih =>
    cases s with
    | nil => exact nil
    | cons c s =>
      by_cases hprefix : t <+: c :: s
      · obtain ⟨s', hs'⟩ := hprefix
        have hpos : 0 < t.length := List.length_pos_iff.mpr ht
        have hshort : s'.length < n := by
          rw [← hlen, ← hs', List.length_append]
          omega
        rw [← hs']
        exact token s' (ih _ hshort s' rfl)
      · exact cons c s hprefix (ih _ (by rw [← hlen, List.length_cons]; omega) s rfl)

/-- A pass that finds nothing. -/
theorem replaceAll_of_not_infix (h : ¬ t <:+: s) : replaceAll t r s = s := by
  induction s with
  | nil => rfl
  | cons c s ih =>
    rw [replaceAll_cons fun hp => h hp.isInfix, ih fun hi => h (List.infix_cons hi)]

theorem replaceAll_copies (ht : t ≠ []) (n : ℕ) : replaceAll t [] (copies n t ++ s) = replaceAll t [] s := by
  induction n with
  | zero => rfl
  | succ n ih =>
    rw [copies_succ, List.append_assoc, replaceAll_token ht, List.nil_append, ih]

/-! ### What a pass leaves -/

/-- `W` is the word `X` with copies of `t` put between its letters. -/
inductive Spread (t : List α) : List α → List α → Prop
  | last (c : α) : Spread t [c] [c]
  | cons (c : α) (n : ℕ) {X W : List α} (h : Spread t X W) : Spread t (c :: X) (c :: (copies n t ++ W))

/-- Where a deleting pass leaves a word there was the word with copies in it. -/
theorem spread_of_prefix (ht : t ≠ []) {X : List α} (hX : X ≠ []) (h : X <+: replaceAll t [] s) :
    ∃ W n, Spread t X W ∧ replaceAll t [] W = X ∧ copies n t ++ W <+: s := by
  induction s using token_induction ht generalizing X with
  | nil => exact absurd (List.prefix_nil.mp h) hX
  | token s ih =>
    rw [replaceAll_token ht, List.nil_append] at h
    obtain ⟨W, n, hspread, hback, hprefix⟩ := ih hX h
    refine ⟨W, n + 1, hspread, hback, ?_⟩
    rw [copies_succ, List.append_assoc]
    exact (List.prefix_append_right_inj t).mpr hprefix
  | cons c s hno ih =>
    rw [replaceAll_cons hno] at h
    obtain ⟨d, X, rfl⟩ := List.exists_cons_of_ne_nil hX
    obtain ⟨rfl, htail⟩ := List.cons_prefix_cons.mp h
    by_cases hnil : X = []
    · subst hnil
      have hone : [d] <+: d :: s := List.prefix_append [d] s
      exact ⟨[d], 0, .last d, replaceAll_cons fun hp => hno (hp.trans hone), hone⟩
    · obtain ⟨W, n, hspread, hback, hprefix⟩ := ih hnil htail
      have hcons : d :: (copies n t ++ W) <+: d :: s := List.cons_prefix_cons.mpr ⟨rfl, hprefix⟩
      refine ⟨_, 0, .cons d n hspread, ?_, hcons⟩
      rw [replaceAll_cons fun hp => hno (hp.trans hcons), replaceAll_copies ht, hback]

theorem spread_of_infix (ht : t ≠ []) {X : List α} (hX : X ≠ []) (h : X <:+: replaceAll t [] s) :
    ∃ W, Spread t X W ∧ replaceAll t [] W = X ∧ W <:+: s := by
  induction s using token_induction ht with
  | nil => exact absurd (List.infix_nil.mp h) hX
  | token s ih =>
    rw [replaceAll_token ht, List.nil_append] at h
    obtain ⟨W, hspread, hback, hinfix⟩ := ih h
    exact ⟨W, hspread, hback, hinfix.trans (List.suffix_append t s).isInfix⟩
  | cons c s hno ih =>
    rw [replaceAll_cons hno, List.infix_cons_iff, ← replaceAll_cons hno] at h
    rcases h with hprefix | hinfix
    · obtain ⟨W, n, hspread, hback, hW⟩ := spread_of_prefix ht hX hprefix
      exact ⟨W, hspread, hback, (List.suffix_append _ W).isInfix.trans hW.isInfix⟩
    · obtain ⟨W, hspread, hback, hW⟩ := ih hinfix
      exact ⟨W, hspread, hback, List.infix_cons hW⟩

/-- Where a pass that puts other letters leaves a word there was the word. -/
theorem prefix_of_prefix_replaceAll (ht : t ≠ []) (hr : r ≠ []) {X : List α} (hX : X ≠ [])
    (hletters : ∀ c ∈ X, c ∉ r) (h : X <+: replaceAll t r s) : X <+: s ∧ ¬ t <:+: X := by
  induction s using token_induction ht generalizing X with
  | nil => exact absurd (List.prefix_nil.mp h) hX
  | token s =>
    rw [replaceAll_token ht] at h
    obtain ⟨d, X, rfl⟩ := List.exists_cons_of_ne_nil hX
    obtain ⟨e, r, rfl⟩ := List.exists_cons_of_ne_nil hr
    obtain ⟨rfl, -⟩ := List.cons_prefix_cons.mp h
    exact absurd List.mem_cons_self (hletters d List.mem_cons_self)
  | cons c s hno ih =>
    rw [replaceAll_cons hno] at h
    obtain ⟨d, X, rfl⟩ := List.exists_cons_of_ne_nil hX
    obtain ⟨rfl, htail⟩ := List.cons_prefix_cons.mp h
    have hrest : X <+: s ∧ ¬ t <:+: X := by
      by_cases hnil : X = []
      · subst hnil
        exact ⟨List.nil_prefix, fun hi => ht (List.infix_nil.mp hi)⟩
      · exact ih hnil (fun e he => hletters e (List.mem_cons_of_mem _ he)) htail
    have hcons : d :: X <+: d :: s := List.cons_prefix_cons.mpr ⟨rfl, hrest.1⟩
    refine ⟨hcons, fun hi => ?_⟩
    rcases List.infix_cons_iff.mp hi with hp | hi
    · exact hno (hp.trans hcons)
    · exact hrest.2 hi

omit [DecidableEq α] in
theorem infix_of_infix_append {X Z : List α} (hX : X ≠ []) (hletters : ∀ c ∈ X, c ∉ r) (h : X <:+: r ++ Z) :
    X <:+: Z := by
  induction r with
  | nil => exact h
  | cons e r ih =>
    rcases List.infix_cons_iff.mp h with hp | hi
    · obtain ⟨d, X, rfl⟩ := List.exists_cons_of_ne_nil hX
      obtain ⟨rfl, -⟩ := List.cons_prefix_cons.mp hp
      exact absurd List.mem_cons_self (hletters d List.mem_cons_self)
    · exact ih (fun c hc hmem => hletters c hc (List.mem_cons_of_mem e hmem)) hi

theorem infix_of_infix_replaceAll (ht : t ≠ []) (hr : r ≠ []) {X : List α} (hX : X ≠ [])
    (hletters : ∀ c ∈ X, c ∉ r) (h : X <:+: replaceAll t r s) : X <:+: s ∧ ¬ t <:+: X := by
  induction s using token_induction ht with
  | nil => exact absurd (List.infix_nil.mp h) hX
  | token s ih =>
    rw [replaceAll_token ht] at h
    obtain ⟨hs, hno⟩ := ih (infix_of_infix_append hX hletters h)
    exact ⟨hs.trans (List.suffix_append t s).isInfix, hno⟩
  | cons c s hno ih =>
    rw [replaceAll_cons hno, List.infix_cons_iff, ← replaceAll_cons hno] at h
    rcases h with hprefix | hinfix
    · obtain ⟨hp, hX'⟩ := prefix_of_prefix_replaceAll ht hr hX hletters hprefix
      exact ⟨hp.isInfix, hX'⟩
    · obtain ⟨hs, hX'⟩ := ih hinfix
      exact ⟨List.infix_cons hs, hX'⟩

end Replace

/-! ### Tokens -/

/-- A word of at least two letters with one opener, at its start, and one closer, at its
end. -/
structure IsToken (opener closer : α → Bool) (t : List α) : Prop where
  head : ∃ o u, t = o :: u ∧ opener o = true ∧ ∀ c ∈ u, opener c = false
  last : ∃ u c, t = u ++ [c] ∧ closer c = true ∧ ∀ d ∈ u, closer d = false
  long : 2 ≤ t.length

/-- A word that starts with an opener and ends with a closer. -/
structure Solid (opener closer : α → Bool) (X : List α) : Prop where
  head : ∃ o u, X = o :: u ∧ opener o = true
  last : ∃ u c, X = u ++ [c] ∧ closer c = true

section Token

variable {opener closer : α → Bool} {t T s X Y W : List α}

theorem isToken_cons {o c : α} {u : List α} (ho : opener o = true ∧ closer o = false)
    (hc : opener c = false ∧ closer c = true) (hu : ∀ d ∈ u, opener d = false ∧ closer d = false) :
    IsToken opener closer (o :: (u ++ [c])) := by
  refine ⟨⟨o, u ++ [c], rfl, ho.1, fun d hd => ?_⟩, ⟨o :: u, c, rfl, hc.2, fun d hd => ?_⟩, by simp⟩
  · rcases List.mem_append.mp hd with hd | hd
    · exact (hu d hd).1
    · exact List.mem_singleton.mp hd ▸ hc.1
  · rcases List.mem_cons.mp hd with rfl | hd
    · exact ho.2
    · exact (hu d hd).2

theorem IsToken.solid (ht : IsToken opener closer t) : Solid opener closer t := by
  obtain ⟨o, u, hu, ho, -⟩ := ht.head
  obtain ⟨v, c, hv, hc, -⟩ := ht.last
  exact ⟨⟨o, u, hu, ho⟩, v, c, hv, hc⟩

theorem Solid.ne_nil (h : Solid opener closer X) : X ≠ [] := by
  obtain ⟨o, u, rfl, -⟩ := h.head
  exact List.cons_ne_nil o u

theorem IsToken.ne_nil (ht : IsToken opener closer t) : t ≠ [] := ht.solid.ne_nil

/-- A token is not continued by another one. -/
theorem IsToken.eq_of_prefix (ht : IsToken opener closer t) (hT : IsToken opener closer T) (h : t <+: T) : t = T := by
  obtain ⟨v, rfl⟩ := h
  obtain ⟨u, c, rfl, hc, -⟩ := ht.last
  obtain ⟨w, d, hw, -, hinit⟩ := hT.last
  rcases List.eq_nil_or_concat' v with rfl | ⟨v, e, rfl⟩
  · rw [List.append_nil]
  · have hw' : w = u ++ [c] ++ v := by
      rw [← List.append_assoc] at hw
      exact (List.append_inj' hw rfl).1.symm
    rw [hinit c (by rw [hw']; simp)] at hc
    cases hc

/-- Where a token starts no other one does. -/
theorem IsToken.eq_of_prefixes (ht : IsToken opener closer t) (hT : IsToken opener closer T) (h : t <+: s)
    (h' : T <+: s) : t = T := by
  rcases List.prefix_or_prefix_of_prefix h h' with hp | hp
  · exact ht.eq_of_prefix hT hp
  · exact (hT.eq_of_prefix ht hp).symm

/-- Another token that occurs after a token begins is behind it. -/
theorem IsToken.infix_of_append (ht : IsToken opener closer t) (hT : IsToken opener closer T) (hne : T ≠ t)
    (h : T <:+: t ++ s) : T <:+: s := by
  obtain ⟨A, B, hAB⟩ := h
  rw [List.append_assoc] at hAB
  obtain ⟨o, u, rfl, ho, -⟩ := hT.head
  rcases List.append_eq_append_iff.mp hAB with ⟨v, hv, hs⟩ | ⟨v, hv, hs⟩
  · cases v with
    | nil => exact ⟨[], B, hs.trans (List.nil_append s)⟩
    | cons c v =>
      obtain rfl : o = c := (List.cons.inj hs).1
      cases A with
      | nil => exact absurd (ht.eq_of_prefixes hT (List.prefix_append t s) ⟨B, hAB⟩).symm hne
      | cons a A =>
        -- the opener of `T` would be inside of `t`
        obtain ⟨o', u', hu', -, hrest⟩ := ht.head
        rw [hv] at hu'
        rw [hrest o (by rw [← (List.cons.inj hu').2]; simp)] at ho
        cases ho
  · exact ⟨v, B, by rw [hs, List.append_assoc]⟩

/-- A token has no other one inside. -/
theorem IsToken.eq_of_infix (ht : IsToken opener closer t) (hT : IsToken opener closer T) (h : T <:+: t) : T = t := by
  by_contra hne
  rw [← List.append_nil t] at h
  exact hT.ne_nil (List.infix_nil.mp (ht.infix_of_append hT hne h))

theorem IsToken.infix_of_copies (ht : IsToken opener closer t) (hT : IsToken opener closer T) (hne : T ≠ t) {n : ℕ}
    (h : T <:+: copies n t ++ s) : T <:+: s := by
  induction n with
  | zero => exact h
  | succ n ih =>
    rw [copies_succ, List.append_assoc] at h
    exact ih (ht.infix_of_append hT hne h)

/-! ### Copies between letters -/

theorem Spread.ne_nil (h : Spread t X W) : X ≠ [] ∧ W ≠ [] := by
  cases h with
  | last c => exact ⟨List.cons_ne_nil _ _, List.cons_ne_nil _ _⟩
  | cons c n h => exact ⟨List.cons_ne_nil _ _, List.cons_ne_nil _ _⟩

/-- The ends stay where they are. -/
theorem Spread.solid (h : Spread t X W) (hX : Solid opener closer X) : Solid opener closer W := by
  have hhead : W.head? = X.head? := by cases h <;> rfl
  have hlast : W.getLast? = X.getLast? := by
    clear hX hhead
    induction h with
    | last c => rfl
    | cons c n h ih =>
      obtain ⟨hX, hW⟩ := h.ne_nil
      rw [List.getLast?_cons_of_ne_nil (by simp [hW]), List.getLast?_append_of_ne_nil _ hW,
        List.getLast?_cons_of_ne_nil hX, ih]
  obtain ⟨o, u, rfl, ho⟩ := hX.head
  obtain ⟨v, c, hv, hc⟩ := hX.last
  rw [hv, List.getLast?_concat] at hlast
  obtain ⟨w, hw⟩ := List.head?_eq_some_iff.mp hhead
  obtain ⟨w', hw'⟩ := List.getLast?_eq_some_iff.mp hlast
  exact ⟨⟨o, w, hw, ho⟩, w', c, hw', hc⟩

/-- A word without openers at the start does not reach into a copy. -/
theorem Spread.prefix_of_prefix (ht : IsToken opener closer t) (h : Spread t X W) {u : List α}
    (hu : ∀ c ∈ u, opener c = false) (hp : u <+: W) : u <+: X := by
  induction h generalizing u with
  | last c => exact hp
  | cons c n h ih =>
    cases u with
    | nil => exact List.nil_prefix
    | cons d u =>
      obtain ⟨rfl, hrest⟩ := List.cons_prefix_cons.mp hp
      refine List.cons_prefix_cons.mpr ⟨rfl, ?_⟩
      have hu' : ∀ c ∈ u, opener c = false := fun c hc => hu c (List.mem_cons_of_mem _ hc)
      cases n with
      | zero => exact ih hu' hrest
      | succ n =>
        cases u with
        | nil => exact List.nil_prefix
        | cons e u =>
          obtain ⟨o, v, hv, ho, -⟩ := ht.head
          rw [copies_succ, hv] at hrest
          obtain ⟨rfl, -⟩ := List.cons_prefix_cons.mp hrest
          rw [hu' e List.mem_cons_self] at ho
          cases ho

/-- A token at the start is at the start of the word itself. -/
theorem Spread.token_isPrefix (ht : IsToken opener closer t) (h : Spread t X W) (hT : IsToken opener closer T)
    (hp : T <+: W) : T <+: X := by
  obtain ⟨o, u, rfl, -, hu⟩ := hT.head
  cases h with
  | last c => exact hp
  | cons c n h =>
    obtain ⟨rfl, hrest⟩ := List.cons_prefix_cons.mp hp
    refine List.cons_prefix_cons.mpr ⟨rfl, ?_⟩
    cases n with
    | zero => exact h.prefix_of_prefix ht hu hrest
    | succ n =>
      have hlong := hT.long
      cases u with
      | nil => simp at hlong
      | cons e u =>
        obtain ⟨o', v, hv, ho, -⟩ := ht.head
        rw [copies_succ, hv] at hrest
        obtain ⟨rfl, -⟩ := List.cons_prefix_cons.mp hrest
        rw [hu e List.mem_cons_self] at ho
        cases ho

/-- The copies make no other token. -/
theorem Spread.token_infix (ht : IsToken opener closer t) (h : Spread t X W) (hT : IsToken opener closer T)
    (hne : T ≠ t) (hi : T <:+: W) : T <:+: X := by
  induction h with
  | last c => exact hi
  | cons c n h ih =>
    rcases List.infix_cons_iff.mp hi with hp | hrest
    · exact ((Spread.cons c n h).token_isPrefix ht hT hp).isInfix
    · exact List.infix_cons (ih (ht.infix_of_copies hT hne hrest))

/-- A word without openers that is still at the start has no copies in it. -/
theorem Spread.eq_of_prefix (ht : IsToken opener closer t) (h : Spread t X W) (hX : ∀ c ∈ X, opener c = false)
    (hp : X <+: W) : W = X := by
  induction h with
  | last c => rfl
  | cons c n h ih =>
    obtain ⟨-, hrest⟩ := List.cons_prefix_cons.mp hp
    have hX' : ∀ c ∈ _, opener c = false := fun c hc => hX c (List.mem_cons_of_mem _ hc)
    cases n with
    | zero =>
      have hW := ih hX' hrest
      exact congrArg (c :: ·) hW
    | succ n =>
      obtain ⟨d, X', rfl⟩ := List.exists_cons_of_ne_nil h.ne_nil.1
      obtain ⟨o, v, hv, ho, -⟩ := ht.head
      rw [copies_succ, hv] at hrest
      obtain ⟨rfl, -⟩ := List.cons_prefix_cons.mp hrest
      rw [hX' d List.mem_cons_self] at ho
      cases ho

/-- A token that is still at the start has no copies in it. -/
theorem Spread.eq_of_token_isPrefix (ht : IsToken opener closer t) (hT : IsToken opener closer T)
    (h : Spread t T W) (hp : T <+: W) : W = T := by
  obtain ⟨o, u, rfl, -, hu⟩ := hT.head
  have hlong := hT.long
  cases h with
  | last c => simp at hlong
  | cons c n h =>
    obtain ⟨-, hrest⟩ := List.cons_prefix_cons.mp hp
    obtain ⟨d, u, rfl⟩ := List.exists_cons_of_ne_nil h.ne_nil.1
    cases n with
    | zero => exact congrArg (_ :: ·) (h.eq_of_prefix ht hu hrest)
    | succ n =>
      obtain ⟨o', v, hv, ho, -⟩ := ht.head
      rw [copies_succ, hv] at hrest
      obtain ⟨rfl, -⟩ := List.cons_prefix_cons.mp hrest
      rw [hu d List.mem_cons_self] at ho
      cases ho

/-- Another token that is still there has no copies in it. -/
theorem Spread.eq_of_token_infix (ht : IsToken opener closer t) (hT : IsToken opener closer T) (hne : T ≠ t)
    (h : Spread t T W) (hi : T <:+: W) : W = T := by
  by_cases hp : T <+: W
  · exact h.eq_of_token_isPrefix ht hT hp
  · cases h with
    | last c => exact absurd (List.prefix_refl _) hp
    | cons c n h =>
      have hrest := (List.infix_cons_iff.mp hi).resolve_left hp
      have hshort := (h.token_infix ht hT hne (ht.infix_of_copies hT hne hrest)).length_le
      rw [List.length_cons] at hshort
      omega

section Replace

variable [DecidableEq α] {r A B : List α}

/-- A pass over a text that goes on with an opener. -/
theorem replaceAll_append_of_opener (ht : IsToken opener closer t) (hB : ∃ o u, B = o :: u ∧ opener o = true) :
    replaceAll t r (A ++ B) = replaceAll t r A ++ replaceAll t r B := by
  induction A using token_induction ht.ne_nil with
  | nil => rfl
  | token A ih =>
    rw [List.append_assoc, replaceAll_token ht.ne_nil, replaceAll_token ht.ne_nil, ih, List.append_assoc]
  | cons c A hno ih =>
    have hno' : ¬ t <+: c :: (A ++ B) := by
      intro hp
      rcases List.prefix_or_prefix_of_prefix hp (List.prefix_append (c :: A) B) with h | ⟨v, hv⟩
      · exact hno h
      · obtain ⟨o, u, rfl, ho⟩ := hB
        obtain ⟨w, hw⟩ := hp
        rw [← hv, List.append_assoc] at hw
        cases v with
        | nil => exact hno (hv ▸ (List.append_nil (c :: A)).symm ▸ List.prefix_refl _)
        | cons d v =>
          obtain rfl : d = o := (List.cons.inj (List.append_cancel_left hw)).1
          obtain ⟨o', u', hu', -, hrest⟩ := ht.head
          rw [← hv] at hu'
          rw [hrest d (by rw [← (List.cons.inj hu').2]; simp)] at ho
          cases ho
    rw [List.cons_append, replaceAll_cons hno', replaceAll_cons hno, ih, List.cons_append]

/-- A pass over a text that has come to a closer. -/
theorem replaceAll_append_of_closer (ht : IsToken opener closer t) (hA : ∀ c ∈ A.getLast?, closer c = true) :
    replaceAll t r (A ++ B) = replaceAll t r A ++ replaceAll t r B := by
  induction A using token_induction ht.ne_nil with
  | nil => rfl
  | token A ih =>
    have hA' : ∀ c ∈ A.getLast?, closer c = true := by
      intro c hc
      refine hA c ?_
      rw [List.getLast?_append, hc]
      rfl
    rw [List.append_assoc, replaceAll_token ht.ne_nil, replaceAll_token ht.ne_nil, ih hA', List.append_assoc]
  | cons c A hno ih =>
    have hA' : ∀ c ∈ A.getLast?, closer c = true := by
      intro d hd
      refine hA d ?_
      rw [List.getLast?_cons, hd]
      rfl
    have hno' : ¬ t <+: c :: (A ++ B) := by
      intro hp
      rcases List.prefix_or_prefix_of_prefix hp (List.prefix_append (c :: A) B) with h | ⟨v, hv⟩
      · exact hno h
      · obtain ⟨u, d, hu, -, hinit⟩ := ht.last
        rcases List.eq_nil_or_concat' v with rfl | ⟨v, e, rfl⟩
        · exact hno (hv ▸ (List.append_nil (c :: A)).symm ▸ List.prefix_refl _)
        · -- the closer at the end of `A` would be inside of `t`
          have hu' : u = c :: A ++ v := by
            rw [← hv, ← List.append_assoc] at hu
            exact (List.append_inj' hu rfl).1.symm
          obtain ⟨e', he'⟩ : ∃ e', (c :: A).getLast? = some e' :=
            ⟨_, List.getLast?_eq_some_getLast (List.cons_ne_nil c A)⟩
          have hmem : e' ∈ u := by
            rw [hu']
            exact List.mem_append_left _ (List.mem_of_getLast? he')
          have hclosed := hA e' he'
          rw [hinit e' hmem] at hclosed
          cases hclosed
    rw [List.cons_append, replaceAll_cons hno', replaceAll_cons hno, ih hA', List.cons_append]

/-- A solid word is passed on its own. -/
theorem infix_replaceAll_of_solid (ht : IsToken opener closer t) (hW : Solid opener closer W) (h : W <:+: s) :
    replaceAll t r W <:+: replaceAll t r s := by
  obtain ⟨A, B, rfl⟩ := h
  obtain ⟨o, u, hu, ho⟩ := hW.head
  obtain ⟨v, c, hv, hc⟩ := hW.last
  have hlast : ∀ d ∈ W.getLast?, closer d = true := by
    intro d hd
    rw [hv, List.getLast?_concat] at hd
    obtain rfl := Option.some.inj hd
    exact hc
  have hopen : ∃ o' u', W ++ B = o' :: u' ∧ opener o' = true := ⟨o, u ++ B, by rw [hu]; rfl, ho⟩
  refine ⟨replaceAll t r A, replaceAll t r B, ?_⟩
  calc replaceAll t r A ++ replaceAll t r W ++ replaceAll t r B
      = replaceAll t r A ++ replaceAll t r (W ++ B) := by
        rw [List.append_assoc, replaceAll_append_of_closer ht hlast]
    _ = replaceAll t r (A ++ (W ++ B)) := (replaceAll_append_of_opener ht hopen).symm
    _ = replaceAll t r (A ++ W ++ B) := by rw [List.append_assoc]

/-- A pass takes the copies out of a word that does not have the token itself. -/
theorem Spread.replaceAll_eq (ht : IsToken opener closer t) (h : Spread t X W) (hX : ¬ t <:+: X) :
    replaceAll t [] W = X := by
  induction h with
  | last c => exact replaceAll_of_not_infix hX
  | cons c n h ih =>
    have hno : ¬ t <+: c :: (copies n t ++ _) := fun hp =>
      hX ((Spread.cons c n h).token_isPrefix ht ht hp).isInfix
    rw [replaceAll_cons hno, replaceAll_copies ht.ne_nil, ih fun hi => hX (List.infix_cons hi)]

/-- A pass takes the copies out of the token itself, if there are some. -/
theorem Spread.replaceAll_self (ht : IsToken opener closer t) (h : Spread t t W) (hne : W ≠ t) :
    replaceAll t [] W = t := by
  have hno : ¬ t <+: W := fun hp => hne (h.eq_of_token_isPrefix ht ht hp)
  obtain ⟨X, hX⟩ : ∃ X, X = t := ⟨t, rfl⟩
  have h' : Spread t X W := hX ▸ h
  cases h' with
  | last c =>
    have hlong := ht.long
    rw [← hX] at hlong
    simp at hlong
  | @cons c n Y V h' =>
    have hshort : ¬ t <:+: Y := fun hi => by
      have hle := hi.length_le
      rw [← hX, List.length_cons] at hle
      omega
    rw [replaceAll_cons hno, replaceAll_copies ht.ne_nil, h'.replaceAll_eq ht hshort, hX]

end Replace

/-! ### Passes one after the other -/

/-- Before a pass over `W` that leaves `Y`: copies of a token that is deleted. -/
def Undone (p : List α × List α) (Y W : List α) : Prop := if p.2 = [] then Spread p.1 Y W else W = Y

/-- `W` is the word `X` with the copies put back that the passes delete, the last pass
first. -/
def Unwound : List (List α × List α) → List α → List α → Prop
  | [], X, W => W = X
  | p :: ps, X, W => ∃ Y, Unwound ps X Y ∧ Undone p Y W

variable {p : List α × List α} {ps pre post : List (List α × List α)}

theorem Undone.solid (h : Undone p Y W) (hY : Solid opener closer Y) : Solid opener closer W := by
  unfold Undone at h
  split at h
  · exact h.solid hY
  · exact h ▸ hY

theorem Undone.token_infix (hp : IsToken opener closer p.1) (h : Undone p Y W) (hT : IsToken opener closer T)
    (hne : T ≠ p.1) (hi : T <:+: W) : T <:+: Y := by
  unfold Undone at h
  split at h
  · exact h.token_infix hp hT hne hi
  · exact h ▸ hi

theorem Unwound.solid (h : Unwound ps X W) (hX : Solid opener closer X) : Solid opener closer W := by
  induction ps generalizing W with
  | nil => exact h ▸ hX
  | cons p ps ih =>
    obtain ⟨Y, hY, hp⟩ := h
    exact hp.solid (ih hY)

/-- What is put back makes no other token. -/
theorem Unwound.token_infix (hps : ∀ p ∈ ps, IsToken opener closer p.1) (h : Unwound ps X W)
    (hT : IsToken opener closer T) (hne : T ∉ ps.map Prod.fst) (hi : T <:+: W) : T <:+: X := by
  induction ps generalizing W with
  | nil => exact h ▸ hi
  | cons p ps ih =>
    obtain ⟨Y, hY, hp⟩ := h
    rw [List.map_cons, List.mem_cons, not_or] at hne
    exact ih (fun q hq => hps q (List.mem_cons_of_mem _ hq)) hY hne.2
      (hp.token_infix (hps p List.mem_cons_self) hT hne.1 hi)

/-- A token that is still there has nothing put into it. -/
theorem Unwound.eq_of_token_infix (hps : ∀ p ∈ ps, IsToken opener closer p.1) (hT : IsToken opener closer T)
    (h : Unwound ps T W) (hne : T ∉ ps.map Prod.fst) (hi : T <:+: W) : W = T := by
  induction ps generalizing W with
  | nil => exact h
  | cons p ps ih =>
    obtain ⟨Y, hY, hp⟩ := h
    have htoken := hps p List.mem_cons_self
    rw [List.map_cons, List.mem_cons, not_or] at hne
    obtain rfl := ih (fun q hq => hps q (List.mem_cons_of_mem _ hq)) hY hne.2 (hp.token_infix htoken hT hne.1 hi)
    unfold Undone at hp
    split at hp
    · exact hp.eq_of_token_infix htoken hT hne.1 hi
    · exact hp

variable {R : α → Prop}

/-- The letters of the tokens are none of those (`R`) that passes put. -/
structure Passes (opener closer : α → Bool) (R : α → Prop) (ps : List (List α × List α)) : Prop where
  token : ∀ p ∈ ps, IsToken opener closer p.1
  letters : ∀ p ∈ ps, ∀ c ∈ p.1, ¬ R c
  replaced : ∀ p ∈ ps, ∀ c ∈ p.2, R c

theorem Passes.mono (h : Passes opener closer R ps) (hsub : ∀ q ∈ pre, q ∈ ps) : Passes opener closer R pre :=
  ⟨fun q hq => h.token q (hsub q hq), fun q hq => h.letters q (hsub q hq), fun q hq => h.replaced q (hsub q hq)⟩

theorem mem_copies {n : ℕ} {c : α} (h : c ∈ copies n t) : c ∈ t := by
  obtain ⟨u, hu, hc⟩ := List.mem_flatten.mp h
  exact List.eq_of_mem_replicate hu ▸ hc

theorem Spread.mem {c : α} (h : Spread t X W) (hc : c ∈ W) : c ∈ X ∨ c ∈ t := by
  induction h with
  | last d => exact .inl hc
  | cons d n h ih =>
    rcases List.mem_cons.mp hc with rfl | hc
    · exact .inl List.mem_cons_self
    · rcases List.mem_append.mp hc with hc | hc
      · exact .inr (mem_copies hc)
      · exact (ih hc).imp_left (List.mem_cons_of_mem d)

section Run

variable [DecidableEq α]

/-- The passes, from the first to the last. -/
def run (ps : List (List α × List α)) (s : List α) : List α := ps.foldl (fun s p => replaceAll p.1 p.2 s) s

theorem run_cons : run (p :: ps) s = run ps (replaceAll p.1 p.2 s) := rfl

theorem run_append : run (pre ++ post) s = run post (run pre s) := List.foldl_append

theorem run_of_not_infix (h : ∀ p ∈ ps, ¬ p.1 <:+: s) : run ps s = s := by
  induction ps with
  | nil => rfl
  | cons p ps ih =>
    rw [run_cons, replaceAll_of_not_infix (h p List.mem_cons_self), ih fun q hq => h q (List.mem_cons_of_mem _ hq)]

/-- **Before a pass that leaves a word there was what the pass takes out of it**, and
that was not the token of the pass itself. -/
theorem exists_undone (hp : IsToken opener closer p.1) (hletters : ∀ c ∈ p.1, ¬ R c) (hR : ∀ c ∈ p.2, R c)
    (hY : Y ≠ []) (hfree : ∀ c ∈ Y, ¬ R c) (h : Y <:+: replaceAll p.1 p.2 s) :
    ∃ W, Undone p Y W ∧ W <:+: s ∧ W ≠ p.1 ∧ W ≠ [] ∧ ∀ c ∈ W, ¬ R c := by
  unfold Undone
  by_cases hr : p.2 = []
  · rw [hr] at h
    obtain ⟨W, hspread, hback, hW⟩ := spread_of_infix hp.ne_nil hY h
    refine ⟨W, by rwa [if_pos hr], hW, ?_, hspread.ne_nil.2, ?_⟩
    · rintro rfl
      have hnil : replaceAll p.1 [] (p.1 ++ []) = [] := by rw [replaceAll_token hp.ne_nil]; rfl
      rw [List.append_nil, hback] at hnil
      exact hY hnil
    · intro c hc
      rcases hspread.mem hc with hc | hc
      · exact hfree c hc
      · exact hletters c hc
  · obtain ⟨hs, hno⟩ := infix_of_infix_replaceAll hp.ne_nil hr hY (fun c hc hmem => hfree c hc (hR c hmem)) h
    refine ⟨Y, by rw [if_neg hr], hs, ?_, hY, hfree⟩
    rintro rfl
    exact hno (List.infix_refl _)

theorem exists_unwound (hps : Passes opener closer R ps) (hX : X ≠ []) (hfree : ∀ c ∈ X, ¬ R c)
    (h : X <:+: run ps s) : ∃ W, Unwound ps X W ∧ W <:+: s ∧ W ≠ [] ∧ ∀ c ∈ W, ¬ R c := by
  induction ps generalizing s with
  | nil => exact ⟨X, rfl, h, hX, hfree⟩
  | cons p ps ih =>
    obtain ⟨Y, hunwound, hY, hne, hfreeY⟩ := ih (hps.mono fun q hq => List.mem_cons_of_mem p hq) h
    obtain ⟨W, hundone, hW, -, hne', hfreeW⟩ := exists_undone (hps.token p List.mem_cons_self)
      (hps.letters p List.mem_cons_self) (hps.replaced p List.mem_cons_self) hne hfreeY hY
    exact ⟨W, ⟨Y, hunwound, hundone⟩, hW, hne', hfreeW⟩

/-- **A pass takes what was put in out again**, when the token is not in the word, or is
the word and something was put into it. -/
theorem infix_replaceAll (hp : IsToken opener closer p.1) (hY : Solid opener closer Y) (h : Undone p Y W)
    (hno : p.1 <:+: Y → Y = p.1 ∧ W ≠ p.1) (hW : W <:+: s) : Y <:+: replaceAll p.1 p.2 s := by
  have hback : replaceAll p.1 p.2 W = Y := by
    unfold Undone at h
    split at h
    · rename_i hr
      rw [hr]
      by_cases hi : p.1 <:+: Y
      · obtain ⟨rfl, hne⟩ := hno hi
        exact h.replaceAll_self hp hne
      · exact h.replaceAll_eq hp hi
    · subst h
      exact replaceAll_of_not_infix fun hi => (hno hi).2 (hno hi).1
  have hpass := infix_replaceAll_of_solid (r := p.2) hp (h.solid hY) hW
  rwa [hback] at hpass

theorem infix_run (hps : ∀ p ∈ ps, IsToken opener closer p.1) (hnodup : (ps.map Prod.fst).Nodup)
    (hX : Solid opener closer X) (hno : ∀ p ∈ ps, ¬ p.1 <:+: X) (h : Unwound ps X W) (hW : W <:+: s) :
    X <:+: run ps s := by
  induction ps generalizing W s with
  | nil => exact h ▸ hW
  | cons p ps ih =>
    obtain ⟨Y, hunwound, hundone⟩ := h
    have hps' : ∀ q ∈ ps, IsToken opener closer q.1 := fun q hq => hps q (List.mem_cons_of_mem _ hq)
    have hp := hps p List.mem_cons_self
    rw [List.map_cons, List.nodup_cons] at hnodup
    have hY : ¬ p.1 <:+: Y := fun hi =>
      hno p List.mem_cons_self (hunwound.token_infix hps' hp hnodup.1 hi)
    exact ih hps' hnodup.2 (fun q hq => hno q (List.mem_cons_of_mem _ hq)) hunwound
      (infix_replaceAll hp (hunwound.solid hX) hundone (fun hi => absurd hi hY) hW)

/-- A token, with copies put into it, that the passes put together: a copy that its own
pass or a later one deletes is among them. -/
def Torn (pre : List (List α × List α)) (p : List α × List α) (post : List (List α × List α)) (W : List α) : Prop :=
  ∃ X, Unwound (p :: post) p.1 X ∧ X ≠ p.1 ∧ Unwound pre X W

/-- **A token is left by the passes exactly when the text has it with deleted tokens
inside**, one of them deleted by its own pass or a later one. -/
theorem infix_run_iff (hps : Passes opener closer R (pre ++ p :: post))
    (hnodup : ((pre ++ p :: post).map Prod.fst).Nodup) :
    p.1 <:+: run (pre ++ p :: post) s ↔ ∃ W, Torn pre p post W ∧ W <:+: s := by
  have hp : p ∈ pre ++ p :: post := List.mem_append_right pre List.mem_cons_self
  have hpre : ∀ q ∈ pre, q ∈ pre ++ p :: post := fun q hq => List.mem_append_left _ hq
  have hpost : ∀ q ∈ post, q ∈ pre ++ p :: post := fun q hq =>
    List.mem_append_right pre (List.mem_cons_of_mem p hq)
  have htoken := hps.token p hp
  rw [List.map_append, List.map_cons, List.nodup_append, List.nodup_cons] at hnodup
  obtain ⟨hnodupPre, ⟨hnotPost, hnodupPost⟩, hdisjoint⟩ := hnodup
  constructor
  · intro h
    rw [run_append, run_cons] at h
    obtain ⟨Y, hunwound, hY, hne, hfree⟩ := exists_unwound (hps.mono hpost) htoken.ne_nil (hps.letters p hp) h
    obtain ⟨X, hundone, hX, hXp, hne', hfree'⟩ := exists_undone htoken (hps.letters p hp) (hps.replaced p hp)
      hne hfree hY
    obtain ⟨W, hunwound', hW, -, -⟩ := exists_unwound (hps.mono hpre) hne' hfree' hX
    exact ⟨W, ⟨X, ⟨Y, hunwound, hundone⟩, hXp, hunwound'⟩, hW⟩
  · rintro ⟨W, ⟨X, ⟨Y, hunwound, hundone⟩, hXp, hunwound'⟩, hW⟩
    have htokenPost : ∀ q ∈ post, IsToken opener closer q.1 := fun q hq => hps.token q (hpost q hq)
    have hsolid := hunwound.solid htoken.solid
    -- no token of an earlier pass is in the torn one
    have hX : X <:+: run pre s := by
      refine infix_run (fun q hq => hps.token q (hpre q hq)) hnodupPre (hundone.solid hsolid) (fun q hq hi => ?_)
        hunwound' hW
      have hqtoken := hps.token q (hpre q hq)
      have hqp : q.1 ≠ p.1 := hdisjoint q.1 (List.mem_map_of_mem hq) p.1 List.mem_cons_self
      have hqpost : q.1 ∉ post.map Prod.fst := fun hmem =>
        hdisjoint q.1 (List.mem_map_of_mem hq) q.1 (List.mem_cons_of_mem p.1 hmem) rfl
      exact hqp (htoken.eq_of_infix hqtoken
        (hunwound.token_infix htokenPost hqtoken hqpost (hundone.token_infix htoken hqtoken hqp hi)))
    have hY : Y <:+: replaceAll p.1 p.2 (run pre s) := by
      refine infix_replaceAll htoken hsolid hundone (fun hi => ⟨?_, hXp⟩) hX
      exact hunwound.eq_of_token_infix htokenPost htoken hnotPost hi
    rw [run_append, run_cons]
    refine infix_run htokenPost hnodupPost htoken.solid (fun q hq hi => ?_) hunwound hY
    have hqp := htoken.eq_of_infix (htokenPost q hq) hi
    exact hnotPost (hqp ▸ List.mem_map_of_mem hq)

end Run

end Token

end Tokens
