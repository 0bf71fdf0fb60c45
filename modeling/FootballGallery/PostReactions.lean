/-
# Reactions to a post

A like, or a like taken back, is stored in two writes: the post's id in the
user's array, and the page's copy of the post with the counter changed at the
tap. What a tap does depends on whether the button's icon is the same object
as one from the resources. A yellow card's second write is the copy with the
like counter changed or nothing changed, again by an icon; the yellow cards
are never counted. A comment writes the copy of the post as well.

`PostCounted` is the law, `postRun` the runs it is asked for, whatever the icon
comparison says, and `tapsCurrent` what keeps it.

Key definitions: `PostCounted`, `postRun`, `tapsCurrent`.
Key theorems: `postCounted_of_reach`, `yellow_card_uncounted`.
-/
import FootballGallery.Comments
import FootballGallery.Reactors

namespace FootballGallery
namespace Forum

open DBUtil ForumDetailActivity Async DocStore

/-! ### The law and the runs -/

/-- The counters are the numbers of users who have reacted to the post `k`;
nothing is said of a post that is not stored. -/
def PostCounts (db : Database) (k : String) (like yellowcard : ℤ) : Prop :=
  (db.posts.get k).isSome → like = reactors db .postLikes k ∧ yellowcard = reactors db .postYCards k

/-- The stored post `k` counts the users who have reacted to it. -/
def PostCounted (db : Database) (k : String) : Prop :=
  ∀ post, db.posts.get k = some post →
    post.like = reactors db .postLikes k ∧ post.yellowcard = reactors db .postYCards k

/-- The taps of the run: reacting to posts, commenting, and reading the post again. -/
def onPost : Action → Bool
  | .onLikeIconTap | .onYCardIconTap => true
  | a => commenting a

/-- Users react to posts, comment and read, and every backend call succeeds. -/
def postRun (s : ForumConf) (e : Ev Action) : Bool :=
  (match e with
    | .act _ a => onPost a
    | _ => true) && backendWorks s e

/-- The page's copy has the stored counters, the likes less by `δ`. -/
def sameCounters (s : ForumConf) (p : ForumDetail) (δ : ℤ) : Bool :=
  (s.store.posts.get p.mPost.mId).all fun doc =>
    doc.like == p.mPost.mLikes + δ && doc.yellowcard == p.mPost.mYCards

/-- The stored document of the page's user says of the post what `has` says. -/
def hasReacted (s : ForumConf) (p : ForumDetail) (f : UserArray) (has : Bool) : Bool :=
  (s.store.users.get p.me).all fun u => decide (p.mPost.mId ∈ u.array f) == has

/-- No flow of client `i` is under way. -/
def idle (s : ForumConf) (i : ℕ) : Bool := s.net.all fun m => m.client != i || postKey m == none

/-- What keeps the counters: comments and likes start from a copy with the stored
counters while no flow works on the post; who likes has not liked, who takes a
like back has; who gives a yellow card has given it before, and the copy that
is then written back has the stored counters. -/
def tapsCurrent (d : Drawables) (s : ForumConf) : Ev Action → Bool
  | .act i (.onCommentTap _) => (s.client i).all fun p =>
    !(p.populated && StringUtil.isFieldValid [p.mEt_comment]) ||
      sameCounters s p 0 && unused s p.mPost.mId
  | .act i .onLikeIconTap => (s.client i).all fun p =>
    !(p.populated && p.mBtn_like_clickable) ||
      if d.same p.mBtn_like .like then
        sameCounters s p 0 && unused s p.mPost.mId && hasReacted s p .postLikes false
      else if d.same p.mBtn_like .likeClicked then
        sameCounters s p 0 && unused s p.mPost.mId && hasReacted s p .postLikes true
      else idle s i
  | .act i .onYCardIconTap => (s.client i).all fun p =>
    !p.populated || unused s p.mPost.mId && hasReacted s p .postYCards true
  | .deliver n =>
    match s.net[n]? with
    | some ⟨i, _, .inr r⟩ => r.action != updateUserYCard || (s.client i).all fun p =>
        sameCounters s p (if d.same p.mBtn_ycard .ycard then 1 else 0)
    | _ => true
  | _ => true

/-! ### The flow -/

/-- The post that the page will write, with the like counter less by `δ`, counts
the users who have reacted. -/
def Pending (db : Database) (p : ForumDetail) (k : String) (δ : ℤ) : Prop :=
  ∃ newPost, p.mNewPost = some newPost ∧ PostCounts db k (newPost.mLikes - δ) newPost.mYCards

/-- The user `id` has reacted to the post `k` in the way of `f`, or has not. -/
def Reacted (db : Database) (id : String) (f : UserArray) (k : String) (has : Prop) : Prop :=
  ∀ u, db.users.get id = some u → (k ∈ u.array f ↔ has)

/-- How far a flow on the post `k` is. -/
def PostMid (db : Database) (p : ForumDetail) (b : Request ⊕ Intent) (k : String) : Prop :=
  p.extraPost.mId = k ∧
    match b with
    | .inl (.setComment a ..) => a = updateComment ∧ Pending db p k 0
    | .inl (.updateUserArray a id f op v) => v = k ∧
        (a = updateUserLike ∧ f = .postLikes ∧ op = .union ∧ Pending db p k 1 ∧ Reacted db id f k False ∨
          a = updateUserLike ∧ f = .postLikes ∧ op = .remove ∧ Pending db p k (-1) ∧ Reacted db id f k True ∨
          a = updateUserYCard ∧ f = .postYCards ∧ op = .union ∧
            (p.populated = true ∧ PostCounted db k) ∧ Reacted db id f k True)
    | .inr r => r.result = true ∧
        ((r.action = updateComment ∨ r.action = updateUserLike) ∧ Pending db p k 0 ∨
          r.action = updateUserYCard ∧ p.populated = true ∧ PostCounted db k)
    | .inl (.updatePost a id doc) => a ∈ after ∧ id = k ∧ PostCounts db k doc.like doc.yellowcard
    | _ => False

theorem PostMid.kept {db : Database} {p p' : ForumDetail} {b : Request ⊕ Intent} {k : String}
    (hk : Kept p p') (h : PostMid db p b k) : PostMid db p' b k := by
  unfold PostMid Pending at h ⊢
  rw [hk.extraPost, hk.newPost]
  refine ⟨h.1, ?_⟩
  have hb := h.2
  split at hb
  · exact hb
  · refine ⟨hb.1, ?_⟩
    rcases hb.2 with hadd | hrem | ⟨ha, hf, hop, hc, hr⟩
    · exact .inl hadd
    · exact .inr (.inl hrem)
    · exact .inr (.inr ⟨ha, hf, hop, ⟨hk.populated hc.1, hc.2⟩, hr⟩)
  · refine ⟨hb.1, ?_⟩
    rcases hb.2 with hpend | ⟨ha, hpop, hc⟩
    · exact .inl hpend
    · exact .inr ⟨ha, hk.populated hpop, hc⟩
  · exact hb
  · exact hb.elim

def postFlow : Flow where
  key := postKey
  Good := PostCounted
  Mid := PostMid
  key_reading := postKey_reading
  mid_kept hk h := h.kept hk

theorem postCounts_of_counted {db : Database} {k : String} {like yellowcard : ℤ} (h : PostCounted db k)
    (hl : ∀ doc, db.posts.get k = some doc → doc.like = like ∧ doc.yellowcard = yellowcard) :
    PostCounts db k like yellowcard := by
  intro hk
  obtain ⟨doc, hdoc⟩ := Option.isSome_iff_exists.mp hk
  obtain ⟨rfl, rfl⟩ := hl doc hdoc
  exact h doc hdoc

/-! ### What a write leaves alone -/

theorem PostMid.frame {db db' : Database} {k : String}
    (hcounts : ∀ like yellowcard, PostCounts db k like yellowcard → PostCounts db' k like yellowcard)
    (hgood : PostCounted db k → PostCounted db' k)
    (hreacted : ∀ id f has, Reacted db id f k has → Reacted db' id f k has)
    (p : ForumDetail) (b : Request ⊕ Intent) (h : PostMid db p b k) : PostMid db' p b k := by
  have hpending : ∀ δ, Pending db p k δ → Pending db' p k δ := by
    intro δ h
    obtain ⟨newPost, hnew, hc⟩ := h
    exact ⟨newPost, hnew, hcounts _ _ hc⟩
  obtain ⟨hp, hb⟩ := h
  refine ⟨hp, ?_⟩
  split at hb
  · exact ⟨hb.1, hpending _ hb.2⟩
  · refine ⟨hb.1, ?_⟩
    rcases hb.2 with ⟨ha, hf, hop, hc, hr⟩ | ⟨ha, hf, hop, hc, hr⟩ | ⟨ha, hf, hop, hc, hr⟩
    · exact .inl ⟨ha, hf, hop, hpending _ hc, hreacted _ _ _ hr⟩
    · exact .inr (.inl ⟨ha, hf, hop, hpending _ hc, hreacted _ _ _ hr⟩)
    · exact .inr (.inr ⟨ha, hf, hop, ⟨hc.1, hgood hc.2⟩, hreacted _ _ _ hr⟩)
  · refine ⟨hb.1, ?_⟩
    rcases hb.2 with ⟨ha, hc⟩ | ⟨ha, hc⟩
    · exact .inl ⟨ha, hpending _ hc⟩
    · exact .inr ⟨ha, hc.1, hgood hc.2⟩
  · exact ⟨hb.1, hb.2.1, hcounts _ _ hb.2.2⟩
  · exact hb.elim

section Users

variable {db : Database} {id k k' : String} {f : UserArray} {op : ArrayOp} {us : Collection UserDoc}
  (hu : db.users.update id (·.updateArray f op k) = some us) (hne : k' ≠ k)
include hu hne

theorem PostCounts.other {like yellowcard : ℤ} (h : PostCounts db k' like yellowcard) :
    PostCounts { db with users := us } k' like yellowcard := by
  intro hk
  rw [reactors_other hu (.inr hne), reactors_other hu (.inr hne)]
  exact h hk

theorem PostCounted.other (h : PostCounted db k') : PostCounted { db with users := us } k' := by
  intro doc hdoc
  rw [reactors_other hu (.inr hne), reactors_other hu (.inr hne)]
  exact h doc hdoc

theorem Reacted.other {id' : String} {g : UserArray} {has : Prop} (h : Reacted db id' g k' has) :
    Reacted { db with users := us } id' g k' has :=
  mem_array_update (P := (· ↔ has)) hu hne h

end Users

section Posts

variable {db : Database} {k k' : String} {doc : PostDoc} {ps : Collection PostDoc}
  (hu : db.posts.update k (fun _ => doc) = some ps)
include hu

theorem PostCounts.update {like yellowcard : ℤ} (h : PostCounts db k' like yellowcard) :
    PostCounts { db with posts := ps } k' like yellowcard := by
  intro hk
  refine h ?_
  rw [← isSome_update hu k']
  exact hk

theorem PostCounted.update (hne : k' ≠ k) (h : PostCounted db k') :
    PostCounted { db with posts := ps } k' := by
  intro post hpost
  have hget : ps.get k' = some post := hpost
  rw [Collection.get_update_ne hu hne] at hget
  exact h post hget

end Posts

/-! ### The steps -/

section Step

variable {d : Drawables} {post : ℕ → String} {s s' : ForumConf} {e : Ev Action} {i : ℕ}
  {p p' : ForumDetail}

theorem sameCounters_eq {δ : ℤ} (h : sameCounters s p δ = true) : ∀ doc,
    s.store.posts.get p.mPost.mId = some doc →
      doc.like = p.mPost.mLikes + δ ∧ doc.yellowcard = p.mPost.mYCards := by
  intro doc hdoc
  rw [sameCounters, hdoc] at h
  simpa using h

theorem hasReacted_iff {f : UserArray} {has : Bool} (h : hasReacted s p f has = true) :
    Reacted s.store p.me f p.mPost.mId (has = true) := by
  intro u hu
  rw [hasReacted, hu] at h
  simp only [Option.all_some, beq_iff_eq] at h
  rw [← h, decide_eq_true_eq]

theorem idle_eq (h : idle s i = true) : ∀ m ∈ s.net, m.client = i → postKey m = none := by
  intro m hm hi
  have hm' := List.all_eq_true.mp h m hm
  simpa [hi] using hm'

/-- A tap that starts a flow with the request `q` on the post of its page. -/
theorem post_tap (h : Inv postFlow post s) (hc : s.client i = some p) (hu : p'.mCurrentUser.isSome)
    (hpage : PageOf (post i) p') (hunused : unused s p.mPost.mId = true) {q : Request}
    (hkey : ∀ t, postKey ⟨i, t, .inl q⟩ = some t.1)
    (hmid : PostCounted s.store p.mPost.mId → PostMid s.store p' (.inl q) p.mPost.mId) :
    Inv postFlow post ⟨s.store, Function.update s.client i (some p'), s.net ++ issue (forum d) i p' [q]⟩ := by
  have hp := h.page i p hc
  have hk : p'.extraPost.mId = p.mPost.mId := hpage.extraPost.trans hp.mPost.symm
  refine h.tapStarts hc hpage hu ?_ (unused_iff hunused) hmid fun m _ _ k' hne _ hm => ?_
  · exact (hkey _).trans (congrArg some hk)
  · have hm' : PostMid s.store p m.body k' := hm
    exact absurd (hm'.1.symm.trans (hp.extraPost.trans hp.mPost.symm)) hne

/-- A like is added or taken back on a current copy, or the tap recognises no icon. -/
theorem like_tap (h : Inv postFlow post s) (hc : s.client i = some p) (hpop : p.populated = true)
    (hclick : p.mBtn_like_clickable = true) (hcur : tapsCurrent d s (.act i .onLikeIconTap) = true) :
    let p' := { p with mPost := (likeCase d p).1, mNewPost := some (likeCase d p).1 }
    Inv postFlow post ⟨s.store, Function.update s.client i (some p'), s.net ++ issue (forum d) i p'
      (userUpdatePostLikesValue p.me updateUserLike p.mPost.mId (likeCase d p).2)⟩ := by
  have hpage := h.page i p hc
  have hk : p.extraPost.mId = p.mPost.mId := hpage.extraPost.trans hpage.mPost.symm
  have hcopy : ∀ n, PageOf (post i)
      { p with mPost := p.mPost.setLikes n, mNewPost := some (p.mPost.setLikes n) } :=
    fun n => ⟨hpage.extraPost, hpage.mPost, hpage.user⟩
  simp only [tapsCurrent, hc, Option.all_some, hpop, hclick, Bool.and_self, Bool.not_true,
    Bool.false_or] at hcur
  by_cases hadd : d.same p.mBtn_like .like = true
  · -- the icon shows no like: one like more
    rw [if_pos hadd] at hcur
    simp only [Bool.and_eq_true] at hcur
    obtain ⟨⟨hsame, hunused⟩, hnot⟩ := hcur
    have hcase : likeCase d p = (p.mPost.setLikes (p.mPost.mLikes + 1), caseAdd) := if_pos hadd
    rw [hcase]
    refine post_tap h hc ?_ (hcopy _) hunused (fun t => ?_) fun hgood => ?_
    · exact hpage.user hpop
    · rfl
    refine ⟨hk, rfl, .inl ⟨rfl, rfl, rfl, ⟨_, rfl, ?_⟩, by simpa using hasReacted_iff hnot⟩⟩
    refine postCounts_of_counted hgood fun doc hdoc => ?_
    obtain ⟨hl, hy⟩ := sameCounters_eq hsame doc hdoc
    refine ⟨?_, hy⟩
    show doc.like = p.mPost.mLikes + 1 - 1
    omega
  · rw [if_neg hadd] at hcur
    by_cases hrem : d.same p.mBtn_like .likeClicked = true
    · -- the icon shows the like: it is taken back
      rw [if_pos hrem] at hcur
      simp only [Bool.and_eq_true] at hcur
      obtain ⟨⟨hsame, hunused⟩, hhas⟩ := hcur
      have hcase : likeCase d p = (p.mPost.setLikes (p.mPost.mLikes - 1), caseRemove) := by
        rw [likeCase, if_neg hadd, if_pos hrem]
      rw [hcase]
      refine post_tap h hc ?_ (hcopy _) hunused (fun t => ?_) fun hgood => ?_
      · exact hpage.user hpop
      · rfl
      refine ⟨hk, rfl, .inr (.inl ⟨rfl, rfl, rfl, ⟨_, rfl, ?_⟩, by simpa using hasReacted_iff hhas⟩)⟩
      refine postCounts_of_counted hgood fun doc hdoc => ?_
      obtain ⟨hl, hy⟩ := sameCounters_eq hsame doc hdoc
      refine ⟨?_, hy⟩
      show doc.like = p.mPost.mLikes - 1 - -1
      omega
    · -- the comparison recognises no icon: nothing is asked for
      rw [if_neg hrem] at hcur
      have hcase : likeCase d p = (p.mPost, 0) := by
        rw [likeCase, if_neg hadd, if_neg hrem]
      rw [hcase]
      exact h.tapIdle ⟨hpage.extraPost, hpage.mPost, hpage.user⟩ (idle_eq hcur)

/-- A yellow card is given again. -/
theorem ycard_tap (h : Inv postFlow post s) (hc : s.client i = some p) (hpop : p.populated = true)
    (hcur : tapsCurrent d s (.act i .onYCardIconTap) = true) :
    Inv postFlow post ⟨s.store, Function.update s.client i (some p), s.net ++ issue (forum d) i p
      [.updateUserArray updateUserYCard p.me .postYCards .union p.mPost.mId]⟩ := by
  have hpage := h.page i p hc
  have hk : p.extraPost.mId = p.mPost.mId := hpage.extraPost.trans hpage.mPost.symm
  simp only [tapsCurrent, hc, Option.all_some, hpop, Bool.not_true, Bool.false_or, Bool.and_eq_true] at hcur
  obtain ⟨hunused, hhas⟩ := hcur
  refine post_tap h hc (hpage.user hpop) hpage hunused (fun t => rfl) fun hgood => ?_
  refine ⟨hk, rfl, .inr (.inr ⟨rfl, rfl, rfl, ⟨hpop, hgood⟩, ?_⟩)⟩
  simpa using hasReacted_iff hhas

/-- A comment is started from a copy with the current counters. -/
theorem postComment_tap (h : Inv postFlow post s) {id : String} {u : User} (hc : s.client i = some p)
    (hpop : p.populated = true) (htext : StringUtil.isFieldValid [p.mEt_comment] = true)
    (hcur : tapsCurrent d s (.act i (.onCommentTap id)) = true) :
    let p' := { p with mPost := p.mPost.appendComments [id], mNewPost := some (p.mPost.appendComments [id]) }
    Inv postFlow post ⟨s.store, Function.update s.client i (some p'), s.net ++ issue (forum d) i p'
      [.setComment updateComment id ⟨p.mEt_comment, p.mPost.mId, u.mId, 0, 0, p.mCurrentParentId,
        p.mCurrentMentionId⟩]⟩ := by
  have hpage := h.page i p hc
  have hk : p.extraPost.mId = p.mPost.mId := hpage.extraPost.trans hpage.mPost.symm
  simp only [tapsCurrent, hc, Option.all_some, hpop, htext, Bool.and_self, Bool.not_true, Bool.false_or,
    Bool.and_eq_true] at hcur
  obtain ⟨hsame, hunused⟩ := hcur
  refine post_tap h hc ?_ ?_ hunused (fun t => ?_) fun hgood => ?_
  · exact hpage.user hpop
  · exact ⟨hpage.extraPost, hpage.mPost, hpage.user⟩
  · rfl
  refine ⟨hk, rfl, _, rfl, ?_⟩
  refine postCounts_of_counted hgood fun doc hdoc => ?_
  obtain ⟨hl, hy⟩ := sameCounters_eq hsame doc hdoc
  refine ⟨?_, hy⟩
  show doc.like = p.mPost.mLikes - 0
  omega

section Exec

variable {t : Tag} {k : String} {db' : Database} {out : List (Request ⊕ Intent)} {l₁ l₂ : List ForumMsg}

/-- The user's array is written, and the counts follow. -/
theorem post_exec_user (h : Inv postFlow post s) {a id v : String} {f : UserArray} {op : ArrayOp}
    (hl : s.net = l₁ ++ ⟨i, t, .inl (.updateUserArray a id f op v)⟩ :: l₂)
    (hkey : postKey ⟨i, t, .inl (.updateUserArray a id f op v)⟩ = some k)
    (hmid : PostMid s.store p (.inl (.updateUserArray a id f op v)) k)
    (he : exec true s.store (.updateUserArray a id f op v) = some (db', out))
    (hsucc : succeeds s.store (.updateUserArray a id f op v) = true) :
    Inv postFlow post ⟨db', s.client, l₁ ++ follow i t out ++ l₂⟩ := by
  obtain ⟨us, hu, rfl, rfl⟩ := updateUserArray_succeeds hsucc he
  obtain ⟨-, rfl, hwhich⟩ := hmid
  have ht := postKey_eq hkey
  refine h.execGoesOn hl hkey (fun k' hne hgood => PostCounted.other hu hne hgood)
    (fun k' hne => PostMid.frame (fun _ _ => .other hu hne) (.other hu hne) fun _ _ _ => .other hu hne) ?_
    fun p' _ hm => ?_
  · rcases hwhich with ⟨rfl, -⟩ | ⟨rfl, -⟩ | ⟨rfl, -⟩
    · exact congrArg some ht
    · exact congrArg some ht
    · exact congrArg some ht
  · obtain ⟨hp, -, hwhich⟩ := hm
    rcases hwhich with ⟨rfl, rfl, rfl, hpending, hr⟩ | ⟨rfl, rfl, rfl, hpending, hr⟩ |
      ⟨rfl, rfl, rfl, ⟨hpop, hgood⟩, hr⟩
    · obtain ⟨newPost, hnew, hcounts⟩ := hpending
      refine ⟨hp, rfl, .inl ⟨.inr rfl, newPost, hnew, fun hk => ?_⟩⟩
      obtain ⟨hlike, hyellow⟩ := hcounts hk
      rw [reactors_union hu fun u hget => (hr u hget).mp, reactors_other hu (.inl (by decide))]
      exact ⟨by push_cast; omega, hyellow⟩
    · obtain ⟨newPost, hnew, hcounts⟩ := hpending
      refine ⟨hp, rfl, .inl ⟨.inr rfl, newPost, hnew, fun hk => ?_⟩⟩
      obtain ⟨hlike, hyellow⟩ := hcounts hk
      have hone := reactors_remove hu fun u hget => (hr u hget).mpr trivial
      rw [reactors_other (g := .postYCards) hu (.inl (by decide))]
      exact ⟨by omega, hyellow⟩
    · refine ⟨hp, rfl, .inr ⟨rfl, hpop, fun doc hdoc => ?_⟩⟩
      obtain ⟨hlike, hyellow⟩ := hgood doc hdoc
      rw [reactors_union_again hu fun u hget => (hr u hget).mpr trivial, reactors_other hu (.inl (by decide))]
      exact ⟨hlike, hyellow⟩

theorem post_exec (h : Inv postFlow post s) {q : Request} (hl : s.net = l₁ ++ ⟨i, t, .inl q⟩ :: l₂)
    (hkey : postKey ⟨i, t, .inl q⟩ = some k) (hmid : PostMid s.store p (.inl q) k)
    (he : exec true s.store q = some (db', out)) (hsucc : succeeds s.store q = true) :
    Inv postFlow post ⟨db', s.client, l₁ ++ follow i t out ++ l₂⟩ := by
  have hb := hmid.2
  split at hb
  · rename_i a cid doc heq
    -- the comment's document: no counter is touched
    obtain rfl := Sum.inl.inj heq
    obtain ⟨rfl, -⟩ := hb
    obtain ⟨rfl, rfl⟩ := setComment_succeeds hsucc he
    refine h.execGoesOn hl hkey ?_ ?_ ?_ fun p' _ hm => ?_
    · exact fun _ _ hgood => hgood
    · exact fun _ _ _ _ hm => hm
    · exact hkey
    · exact ⟨hm.1, rfl, .inl ⟨.inl rfl, hm.2.2⟩⟩
  · rename_i a id f op v heq
    obtain rfl := Sum.inl.inj heq
    exact post_exec_user h hl hkey hmid he hsucc
  · rename_i heq
    cases heq
  · rename_i a pid doc heq
    -- the post with its counters
    obtain rfl := Sum.inl.inj heq
    obtain ⟨ha, rfl, -⟩ := hb
    obtain ⟨ps, hu, rfl, rfl⟩ := updatePost_succeeds hsucc he
    refine h.execEnds hl hkey (fun _ hne hgood => PostCounted.update hu hne hgood)
      (fun k' hne => PostMid.frame (fun _ _ => .update hu) (.update hu hne) fun _ _ _ => id) (fun b hb => ?_)
      fun p' _ hm => ?_
    · obtain rfl := List.mem_singleton.mp hb
      exact .reply (.after ha)
    · obtain ⟨-, -, -, hcounts⟩ := hm
      intro post hpost
      obtain ⟨old, hold, rfl⟩ := Collection.update_eq_some hu
      have hget : (s.store.posts.set pid doc).get pid = some post := hpost
      rw [Collection.get_set_self _ _ (Collection.ne_of_get hold)] at hget
      obtain rfl := Option.some.inj hget
      exact hcounts (by rw [hold]; rfl)
  · exact hb.elim

end Exec

/-- The replies to the first writes of a comment and of a like. -/
theorem onReceive_write {newPost : Post} {r : Intent} (hnew : p.mNewPost = some newPost)
    (ha : r.action = updateComment ∨ r.action = updateUserLike) (hr : r.result = true) :
    ∃ a ∈ after, onReceive d p r = some (p, [.updatePost a p.mPost.mId (postMap newPost)]) := by
  obtain ⟨b, r, x⟩ := r
  obtain rfl : r = true := hr
  rcases ha with rfl | rfl
  · exact ⟨updateValue, by decide, onReceive_updateComment hnew x⟩
  · exact ⟨updatePostAfterLike, by decide, onReceive_updateUserLike hnew x⟩

theorem post_reply (h : Inv postFlow post s) {n : ℕ} {t : Tag} {r : Intent} {k : String}
    {l₁ l₂ : List ForumMsg} (hn : s.net[n]? = some ⟨i, t, .inr r⟩)
    (hl : s.net = l₁ ++ ⟨i, t, .inr r⟩ :: l₂) (hkey : postKey ⟨i, t, .inr r⟩ = some k)
    (hc : s.client i = some p) (hu : p.mCurrentUser.isSome) (hmid : PostMid s.store p (.inr r) k)
    (hcur : tapsCurrent d s (.deliver n) = true) :
    ∃ p' qs, onReceive d p r = some (p', qs) ∧ Inv postFlow post
      ⟨s.store, Function.update s.client i (some p'), l₁ ++ issue (forum d) i p' qs ++ l₂⟩ := by
  obtain ⟨hp, hr, hwhich⟩ := hmid
  have hpage := h.page i p hc
  have hpid : p.mPost.mId = k := (hpage.mPost.trans hpage.extraPost.symm).trans hp
  rcases hwhich with ⟨ha, newPost, hnew, hcounts⟩ | ⟨ha, hpop, hgood⟩
  · obtain ⟨a, hafter, hrecv⟩ := onReceive_write (d := d) hnew ha hr
    refine ⟨p, _, hrecv, h.recvGoesOn hl hkey hc hpage hu ?_ (fun _ => ?_) fun _ _ _ => id⟩
    · exact congrArg some hp
    · exact ⟨hp, hafter, hpid, by simpa [postMap] using hcounts⟩
  · -- the yellow card: the copy of now is written back
    let δ : ℤ := if d.same p.mBtn_ycard .ycard then 1 else 0
    let newPost := if d.same p.mBtn_ycard .ycard then p.mPost.setLikes (p.mPost.mLikes + 1) else p.mPost
    let p' := { p with mPost := newPost, mNewPost := some newPost }
    have hfields : newPost.mId = p.mPost.mId ∧ newPost.mLikes = p.mPost.mLikes + δ ∧
        newPost.mYCards = p.mPost.mYCards := by
      by_cases hs : d.same p.mBtn_ycard .ycard = true
      · simp [newPost, δ, hs]
      · simp [newPost, δ, hs]
    have hrecv : onReceive d p r = some (p', forumUpdatePost updatePostAfterYCard newPost newPost) := by
      obtain ⟨b, r, x⟩ := r
      obtain rfl : b = updateUserYCard := ha
      obtain rfl : r = true := hr
      exact onReceive_updateUserYCard hpop x rfl
    have hsame : sameCounters s p δ = true := by
      simp only [tapsCurrent, hn, ha, hc, Option.all_some, bne_self_eq_false, Bool.false_or] at hcur
      exact hcur
    refine ⟨p', _, hrecv, h.recvGoesOn hl hkey hc ?_ (show p'.mCurrentUser.isSome from hu) ?_ (fun _ => ?_)
      fun b k' hne hm => ?_⟩
    · exact ⟨hpage.extraPost, hfields.1.trans hpage.mPost, hpage.user⟩
    · exact congrArg some hp
    · refine ⟨hp, by decide, hfields.1.trans hpid, postCounts_of_counted hgood fun doc hdoc => ?_⟩
      have hdoc' : s.store.posts.get p.mPost.mId = some doc := by rw [hpid, hdoc]
      obtain ⟨hlike, hyellow⟩ := sameCounters_eq hsame doc hdoc'
      exact ⟨hlike.trans hfields.2.1.symm, hyellow.trans hfields.2.2.symm⟩
    · have hm' : PostMid s.store p b k' := hm
      exact absurd (hm'.1.symm.trans hp) hne

theorem post_step (h : Inv postFlow post s) (ho : (postRun s e && tapsCurrent d s e) = true)
    (hs : Step (forum d) s e s') : Inv postFlow post s' := by
  simp only [postRun, Bool.and_eq_true] at ho
  obtain ⟨⟨hacts, hworks⟩, hcur⟩ := ho
  refine h.step hworks hs ?_ ?_ ?_
  · intro i a p p' qs he hc ht
    obtain rfl := he
    cases ht with
    | quiet hkept hp _ => exact h.tapQuiet hc hkept hp
    | resume => exact h.tapResume hc
    | like hpop hclick => exact like_tap h hc hpop hclick hcur
    | ycard hpop => exact ycard_tap h hc hpop hcur
    | comment hpop _ htext => exact postComment_tap h hc hpop htext hcur
    | _ => cases hacts
  · intro n i t q k p db' out l₁ l₂ he hq hl hkey hc hmid hex hsucc
    exact post_exec h hl hkey hmid hex hsucc
  · intro n i t r k p l₁ l₂ he hn hl hkey hc hu hmid
    obtain rfl := he
    exact post_reply h hn hl hkey hc hu hmid hcur

end Step

/-- **A post's counters count users while likes and comments start from current
copies, one at a time on a post, and no new yellow card is given.** -/
theorem postCounted_of_reach {d : Drawables} {db : Database} {opened : List Opened} {s : ForumConf}
    (hgood : ∀ k, PostCounted db k)
    (h : Reach (forum d) (fun s e => (postRun s e && tapsCurrent d s e) = true) (openPages d db opened) s)
    (hquiet : ∀ m ∈ s.net, postKey m = none) : ∀ k, PostCounted s.store k := by
  have hinv : Inv postFlow (postOf opened) s :=
    Reach.inv (Inv.init opened hgood) (fun _ _ _ h ho hs => post_step h ho hs) h
  exact hinv.good hquiet

/-- An icon is the same as the one that is shown. -/
def shownDrawables : Drawables := ⟨fun a b => a == b, 0⟩

/-- A reaction to a post without comments is carried through and the post is read again. -/
def postReacted : List (Ev Action) :=
  [carry, arrive, carry, arrive, carry, carry, arrive, carry, arrive]

theorem counted_derbyDb (k : String) : PostCounted derbyDb k := by
  intro post hpost
  have hzero : ∀ e ∈ derbyDb.posts.toList, e.2.like = 0 ∧ e.2.yellowcard = 0 := by decide
  obtain ⟨hlike, hyellow⟩ := hzero _ (Collection.mem_toList.mpr hpost)
  rw [hlike, hyellow, reactors_eq_zero (by decide) k, reactors_eq_zero (by decide) k]
  exact ⟨rfl, rfl⟩

/-- Ann likes the post, Bob reads it again and comments. -/
theorem postCounted_of_reach_derby :
    ∃ s, Reach (forum shownDrawables) (fun s e => (postRun s e && tapsCurrent shownDrawables s e) = true)
        (openPages shownDrawables derbyDb annAndBob) s ∧
      (s.store.posts.get derbyId).map (fun p => (p.like, p.comments)) = some (1, [firstId]) ∧
      ∀ k, PostCounted s.store k := by
  obtain ⟨s, hr, hs⟩ := @reach_of_test _ _ _ _ _ _ (forum shownDrawables)
    (fun s e => postRun s e && tapsCurrent shownDrawables s e)
    (openPages shownDrawables derbyDb annAndBob)
    (loading ++ [.act 0 .onLikeIconTap] ++ postReacted ++ [.act 1 .onResume, carry, carry, arrive, carry,
      arrive, .act 1 (.typeComment "me"), .act 1 (.onCommentTap firstId), carry, arrive, carry, arrive,
      carry, carry, arrive, carry, carry, carry, carry, arrive])
    (fun s => s.net.all (fun m => postKey m == none) &&
      (s.store.posts.get derbyId).map (fun p => (p.like, p.comments)) == some (1, [firstId])) (by decide)
  simp only [Bool.and_eq_true, List.all_eq_true, beq_iff_eq] at hs
  exact ⟨s, hr, hs.2, postCounted_of_reach counted_derbyDb hr hs.1⟩

theorem not_postCounted {s : ForumConf}
    (h : ((s.store.posts.get derbyId).map (·.yellowcard) == some 0 &&
      reactors s.store .postYCards derbyId == 1) = true) : ¬ PostCounted s.store derbyId := by
  simp only [Bool.and_eq_true, beq_iff_eq] at h
  obtain ⟨hyellow, hone⟩ := h
  intro hcounted
  obtain ⟨post, hget, hzero⟩ := Option.map_eq_some_iff.mp hyellow
  have hcount := (hcounted post hget).2
  rw [hzero, hone] at hcount
  revert hcount
  decide

/-- Ann gives a yellow card: one user has given one, and the post says none,
whether the comparison means the shown icon or is never true. -/
theorem yellow_card_uncounted :
    (∀ k, PostCounted derbyDb k) ∧
    (∃ s, Reach (forum shownDrawables) (fun s e => postRun s e = true)
        (openPages shownDrawables derbyDb annAndBob) s ∧
      (∀ m ∈ s.net, postKey m = none) ∧ ¬ PostCounted s.store derbyId) ∧
    ∃ s, Reach (forum plainDrawables) (fun s e => postRun s e = true)
        (openPages plainDrawables derbyDb annAndBob) s ∧
      (∀ m ∈ s.net, postKey m = none) ∧ ¬ PostCounted s.store derbyId := by
  let test (s : ForumConf) : Bool := s.net.all (fun m => postKey m == none) &&
    ((s.store.posts.get derbyId).map (·.yellowcard) == some 0 &&
      reactors s.store .postYCards derbyId == 1)
  have htest : ∀ s, test s = true → (∀ m ∈ s.net, postKey m = none) ∧ ¬ PostCounted s.store derbyId := by
    intro s hs
    have hs' := Bool.and_eq_true_iff.mp hs
    refine ⟨fun m hm => ?_, not_postCounted hs'.2⟩
    exact beq_iff_eq.mp (List.all_eq_true.mp hs'.1 m hm)
  refine ⟨counted_derbyDb, ?_, ?_⟩
  · obtain ⟨s, hr, hs⟩ := @reach_of_test _ _ _ _ _ _ (forum shownDrawables) postRun
      (openPages shownDrawables derbyDb annAndBob)
      (loading ++ [.act 0 .onYCardIconTap] ++ postReacted) test (by decide)
    exact ⟨s, hr, htest s hs⟩
  · obtain ⟨s, hr, hs⟩ := @reach_of_test _ _ _ _ _ _ (forum plainDrawables) postRun
      (openPages plainDrawables derbyDb annAndBob)
      (loading ++ [.act 0 .onYCardIconTap] ++ postReacted) test (by decide)
    exact ⟨s, hr, htest s hs⟩

end Forum
end FootballGallery
