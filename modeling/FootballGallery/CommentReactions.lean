/-
# Reactions to a comment

A like or a yellow card on a comment is stored in two writes: the comment's id
in an array of the user's document, and the comment with its counters as the
page's own copy has them after the tap. The page's copies come from the
decoder of `forum_get_comments`, which leaves both counters at zero.

`CommentCounted` is the law, `reactionRun` the runs it is asked for and
`reactsToCurrent` what keeps it: the copy has the stored counters, the user has
not reacted to the comment in this way before, and neither the comment nor the
page has a reaction under way.

Key definitions: `commentKey`, `CommentCounted`, `reactionRun`, `reactsToCurrent`.
Key theorems: `counted_of_reach`, `second_like_uncounted`.
-/
import FootballGallery.Forum
import FootballGallery.Reactors

namespace FootballGallery
namespace Forum

open DBUtil ForumDetailActivity Async DocStore

/-- The comment that a message works on: the user's array, or the comment itself. -/
def commentKey (m : ForumMsg) : Option String :=
  match m.body with
  | .inl (.updateUserArray _ _ f ..) =>
    if f = .commentLikes ∨ f = .commentYCards then some (m.tag.2.getD "") else none
  | .inl (.updateComment ..) => some (m.tag.2.getD "")
  | .inr r =>
    if r.action ∈ [userUpdateLikeValueComment, userUpdateYCardValueComment] then some (m.tag.2.getD "")
    else none
  | _ => none

theorem commentKey_reading (m : ForumMsg) (h : Reading m.tag.1 m.body) : commentKey m = none := by
  obtain ⟨i, ⟨pid, id⟩, b⟩ := m
  change Reading pid b at h
  cases h with
  | reply hi =>
    have hsub : [userUpdateLikeValueComment, userUpdateYCardValueComment] ⊆ [updateComment, updateUserLike, updateUserYCard,
        userUpdateLikeValueComment, userUpdateYCardValueComment] := by decide
    exact if_neg fun ha => settled_action hi (hsub ha)
  | _ => rfl

/-! ### The law and the runs -/

/-- The counters are the numbers of users who have reacted to the comment `k`;
nothing is said of a comment that is not stored. -/
def Counts (db : Database) (k : String) (like yellowcard : ℤ) : Prop :=
  (db.comments.get k).isSome → like = reactors db .commentLikes k ∧ yellowcard = reactors db .commentYCards k

/-- The stored comment `k` counts the users who have reacted to it. -/
def CommentCounted (db : Database) (k : String) : Prop :=
  ∀ doc, db.comments.get k = some doc →
    doc.like = reactors db .commentLikes k ∧ doc.yellowcard = reactors db .commentYCards k

/-- The taps of the run: reacting to comments, and loading them again. A view's
id is no drawable's. -/
def reacting (d : Drawables) : Action → Bool
  | .onLikeClick _ viewId => viewId != d.icLikeClicked
  | .typeComment _ | .onYCardClick _ | .onReplyClick _ | .onUndoReplyTap | .onResume => true
  | _ => false

/-- Users react to comments and load them, and every backend call succeeds. -/
def reactionRun (d : Drawables) (s : ForumConf) (e : Ev Action) : Bool :=
  (match e with
    | .act _ a => reacting d a
    | _ => true) && backendWorks s e

/-- The comment at `pos` of the page `p` has the stored counters, the user's
stored array `f` does not have it, and no reaction to it and none from this
page is under way. -/
def current (s : ForumConf) (i : ℕ) (p : ForumDetail) (f : UserArray) (pos : ℕ) : Bool :=
  !p.populated || (p.mComments[pos]?).all fun c =>
    (s.store.comments.get c.mId).all (fun doc => doc.like == c.mLikes && doc.yellowcard == c.mYCards) &&
      (s.store.users.get p.me).all (fun u => c.mId ∉ u.array f) &&
      s.net.all fun m => commentKey m != some c.mId && (m.client != i || commentKey m == none)

def reactsToCurrent (s : ForumConf) : Ev Action → Bool
  | .act i (.onLikeClick pos _) => (s.client i).all fun p => current s i p .commentLikes pos
  | .act i (.onYCardClick pos) => (s.client i).all fun p => current s i p .commentYCards pos
  | _ => true

/-! ### The flow -/

/-- How far a reaction to the comment `k` is. -/
def ReactionMid (db : Database) (p : ForumDetail) (b : Request ⊕ Intent) (k : String) : Prop :=
  ∃ c, p.mComment = some c ∧ c.mId = k ∧
    match b with
    | .inl (.updateUserArray a id f op v) => op = .union ∧ v = k ∧
        (∀ u, db.users.get id = some u → k ∉ u.array f) ∧
        (a = userUpdateLikeValueComment ∧ f = .commentLikes ∧ Counts db k (c.mLikes - 1) c.mYCards ∨
          a = userUpdateYCardValueComment ∧ f = .commentYCards ∧ Counts db k c.mLikes (c.mYCards - 1))
    | .inr r => (r.action = userUpdateLikeValueComment ∨ r.action = userUpdateYCardValueComment) ∧
        r.result = true ∧ Counts db k c.mLikes c.mYCards
    | .inl (.updateComment a id doc) => a ∈ after ∧ id = k ∧ Counts db k doc.like doc.yellowcard
    | _ => False

def reactionFlow : Flow where
  key := commentKey
  Good := CommentCounted
  Mid := ReactionMid
  key_reading := commentKey_reading
  mid_kept hk h := by
    unfold ReactionMid at h ⊢
    rw [hk.comment]
    exact h

theorem counts_of_counted {db : Database} {k : String} {like yellowcard : ℤ} (h : CommentCounted db k)
    (hl : ∀ doc, db.comments.get k = some doc → doc.like = like ∧ doc.yellowcard = yellowcard) :
    Counts db k like yellowcard := by
  intro hk
  obtain ⟨doc, hdoc⟩ := Option.isSome_iff_exists.mp hk
  obtain ⟨rfl, rfl⟩ := hl doc hdoc
  exact h doc hdoc

/-! ### What a write leaves alone -/

section Updates

variable {db db' : Database} {id k k' : String} {f : UserArray} {us : Collection UserDoc}

theorem ReactionMid.frame (hcounts : ∀ like yellowcard, Counts db k' like yellowcard → Counts db' k' like yellowcard)
    (hnot : ∀ id f, (∀ u, db.users.get id = some u → k' ∉ u.array f) →
      ∀ u, db'.users.get id = some u → k' ∉ u.array f)
    (p : ForumDetail) (b : Request ⊕ Intent) (h : ReactionMid db p b k') : ReactionMid db' p b k' := by
  obtain ⟨c, hc, hid, hb⟩ := h
  refine ⟨c, hc, hid, ?_⟩
  split at hb
  · obtain ⟨hop, hv, hnot', hwhich⟩ := hb
    refine ⟨hop, hv, hnot _ _ hnot', ?_⟩
    rcases hwhich with ⟨ha, hf, hc⟩ | ⟨ha, hf, hc⟩
    · exact .inl ⟨ha, hf, hcounts _ _ hc⟩
    · exact .inr ⟨ha, hf, hcounts _ _ hc⟩
  · obtain ⟨ha, hr, hc⟩ := hb
    exact ⟨ha, hr, hcounts _ _ hc⟩
  · obtain ⟨ha, hid', hc⟩ := hb
    exact ⟨ha, hid', hcounts _ _ hc⟩
  · exact hb.elim

theorem Counts.other (hu : db.users.update id (·.updateArray f .union k) = some us) (hne : k' ≠ k)
    {like yellowcard : ℤ} (h : Counts db k' like yellowcard) :
    Counts { db with users := us } k' like yellowcard := by
  intro hk
  rw [reactors_other hu (.inr hne), reactors_other hu (.inr hne)]
  exact h hk

variable {doc : CommentDoc} {cs : Collection CommentDoc}

theorem Counts.update (hu : db.comments.update k (fun _ => doc) = some cs) {like yellowcard : ℤ}
    (h : Counts db k' like yellowcard) : Counts { db with comments := cs } k' like yellowcard := by
  intro hk
  have hk' : (cs.get k').isSome := hk
  refine h ?_
  by_cases hi : k' = k
  · rw [hi, Collection.get_update_self hu, Option.isSome_map] at hk'
    rw [hi]
    exact hk'
  · rwa [Collection.get_update_ne hu hi] at hk'

end Updates

/-! ### The steps -/

section Step

variable {d : Drawables} {post : ℕ → String} {s s' : ForumConf} {e : Ev Action}

theorem current_tap {i pos : ℕ} {p : ForumDetail} {f : UserArray} {c : Comment}
    (hpop : p.populated = true) (hc : p.mComments[pos]? = some c) (h : current s i p f pos = true) :
    (∀ doc, s.store.comments.get c.mId = some doc → doc.like = c.mLikes ∧ doc.yellowcard = c.mYCards) ∧
      (∀ u, s.store.users.get p.me = some u → c.mId ∉ u.array f) ∧
      c.mId ∉ s.net.filterMap commentKey ∧ ∀ m ∈ s.net, m.client = i → commentKey m = none := by
  simp only [current, hpop, Bool.not_true, Bool.false_or, hc, Option.all_some, Bool.and_eq_true,
    List.all_eq_true, bne_iff_ne, ne_eq, Bool.or_eq_true, beq_iff_eq] at h
  obtain ⟨⟨hcopy, hnot⟩, hfree⟩ := h
  refine ⟨fun doc hdoc => ?_, fun u hu => ?_, fun hin => ?_, fun m hm hi => ?_⟩
  · rw [hdoc] at hcopy
    simpa using hcopy
  · rw [hu] at hnot
    simpa using hnot
  · obtain ⟨m, hm, hk⟩ := List.mem_filterMap.mp hin
    exact (hfree m hm).1 hk
  · exact (hfree m hm).2.resolve_left fun hne => hne hi

/-- A tap on a comment whose copy `c` becomes `c'`. -/
theorem reaction_tap (h : Inv reactionFlow post s) {i pos : ℕ} {p : ForumDetail} {a : String}
    {f : UserArray} {c c' : Comment} (hc : s.client i = some p) (hpop : p.populated = true)
    (hpos : p.mComments[pos]? = some c) (hcur : current s i p f pos = true) (hid : c'.mId = c.mId)
    (hwhich : a = userUpdateLikeValueComment ∧ f = .commentLikes ∧ c' = c.updateLikeValue 1 ∨
      a = userUpdateYCardValueComment ∧ f = .commentYCards ∧ c' = c.updateYCardValue) :
    let p' := { p with mComments := p.mComments.set pos c', mComment := some c' }
    Inv reactionFlow post ⟨s.store, Function.update s.client i (some p'),
      s.net ++ issue (forum d) i p' [.updateUserArray a p.me f .union c.mId]⟩ := by
  intro p'
  have hpage := h.page i p hc
  obtain ⟨hcopy, hnot, hfree, hidle⟩ := current_tap hpop hpos hcur
  refine h.tapStarts hc ?_ (show p'.mCurrentUser.isSome from hpage.user hpop) ?_ hfree ?_ ?_
  · exact ⟨hpage.extraPost, hpage.mPost, hpage.user⟩
  · show (if f = .commentLikes ∨ f = .commentYCards then some c'.mId else none) = some c.mId
    rw [hid, if_pos]
    exact hwhich.imp (·.2.1) (·.2.1)
  · intro hgood
    have hcounts := counts_of_counted hgood hcopy
    refine ⟨c', rfl, hid, rfl, rfl, hnot, ?_⟩
    rcases hwhich with ⟨ha, hf, rfl⟩ | ⟨ha, hf, rfl⟩
    · exact .inl ⟨ha, hf, by simpa using hcounts⟩
    · exact .inr ⟨ha, hf, by simpa using hcounts⟩
  · intro m hm hi k' _ hk'
    have hnone : commentKey m = some k' := hk'
    rw [hidle m hm hi] at hnone
    cases hnone

theorem reaction_exec (h : Inv reactionFlow post s) {i : ℕ} {t : Tag} {q : Request} {k : String}
    {p : ForumDetail} {db' : Database} {out : List (Request ⊕ Intent)} {l₁ l₂ : List ForumMsg}
    (hl : s.net = l₁ ++ ⟨i, t, .inl q⟩ :: l₂) (hkey : commentKey ⟨i, t, .inl q⟩ = some k)
    (hmid : ReactionMid s.store p (.inl q) k) (he : exec true s.store q = some (db', out))
    (hsucc : succeeds s.store q = true) :
    Inv reactionFlow post ⟨db', s.client, l₁ ++ follow i t out ++ l₂⟩ := by
  obtain ⟨c, -, -, hb⟩ := hmid
  split at hb
  · rename_i a id f op v heq
    -- the user's array: one user more
    obtain rfl := Sum.inl.inj heq
    obtain ⟨rfl, rfl, hnot, hwhich⟩ := hb
    obtain ⟨us, hu, rfl, rfl⟩ := updateUserArray_succeeds hsucc he
    have ht : t.2.getD "" = v := by
      have hkey' : (if f = .commentLikes ∨ f = .commentYCards then some (t.2.getD "") else none) = some v := hkey
      rw [if_pos (hwhich.imp (·.2.1) (·.2.1))] at hkey'
      exact Option.some.inj hkey'
    refine h.execGoesOn hl hkey (fun k' hne hgood doc hdoc => ?_) (fun k' hne => ?_) ?_ fun p' _ hm => ?_
    · rw [reactors_other hu (.inr hne), reactors_other hu (.inr hne)]
      exact hgood doc hdoc
    · exact ReactionMid.frame (fun _ _ => .other hu hne) fun _ _ => mem_array_update (P := Not) hu hne
    · rcases hwhich with ⟨rfl, -⟩ | ⟨rfl, -⟩
      · exact congrArg some ht
      · exact congrArg some ht
    · obtain ⟨c, hc, hid, -, -, hnot, hwhich⟩ := hm
      refine ⟨c, hc, hid, hwhich.imp (·.1) (·.1), rfl, fun hk => ?_⟩
      rcases hwhich with ⟨-, rfl, hcounts⟩ | ⟨-, rfl, hcounts⟩
      · obtain ⟨hlike, hyellow⟩ := hcounts hk
        rw [reactors_union hu hnot, reactors_other hu (.inl (by decide))]
        exact ⟨by push_cast; omega, hyellow⟩
      · obtain ⟨hlike, hyellow⟩ := hcounts hk
        rw [reactors_union hu hnot, reactors_other hu (.inl (by decide))]
        exact ⟨hlike, by push_cast; omega⟩
  · rename_i heq
    cases heq
  · rename_i a id doc heq
    -- the comment with its counters
    obtain rfl := Sum.inl.inj heq
    obtain ⟨ha, rfl, -⟩ := hb
    obtain ⟨cs, hu, rfl, rfl⟩ := updateComment_succeeds hsucc he
    refine h.execEnds hl hkey (fun k' hne hgood doc' hdoc' => ?_) (fun k' hne => ?_) (fun b hb => ?_)
      fun p' _ hm => ?_
    · have hdoc : cs.get k' = some doc' := hdoc'
      rw [Collection.get_update_ne hu hne] at hdoc
      exact hgood doc' hdoc
    · exact ReactionMid.frame (fun _ _ => .update hu) fun _ _ hnot => hnot
    · obtain rfl := List.mem_singleton.mp hb
      exact .reply (.after ha)
    · obtain ⟨-, -, -, -, -, hcounts⟩ := hm
      intro doc' hdoc'
      obtain ⟨old, hold, rfl⟩ := Collection.update_eq_some hu
      have hdoc : (s.store.comments.set id doc).get id = some doc' := hdoc'
      rw [Collection.get_set_self _ _ (Collection.ne_of_get hold)] at hdoc
      obtain rfl := Option.some.inj hdoc
      exact hcounts (by rw [hold]; rfl)
  · exact hb.elim

theorem onReceive_reaction {p : ForumDetail} {c : Comment} {r : Intent} (hc : p.mComment = some c)
    (ha : r.action = userUpdateLikeValueComment ∨ r.action = userUpdateYCardValueComment)
    (hr : r.result = true) : ∃ a ∈ after, onReceive d p r =
      some (p, [.updateComment a c.mId (commentMap c.getRawDesc c.mLikes c)]) := by
  obtain ⟨b, r, x⟩ := r
  obtain rfl : r = true := hr
  rcases ha with rfl | rfl
  · exact ⟨commentUpdateLikeValue, by decide, onReceive_userUpdateLikeValueComment hc x⟩
  · exact ⟨commentUpdateYCardValue, by decide, onReceive_userUpdateYCardValueComment hc x⟩

theorem reaction_reply (h : Inv reactionFlow post s) {i : ℕ} {t : Tag} {r : Intent} {k : String}
    {p : ForumDetail} {l₁ l₂ : List ForumMsg} (hl : s.net = l₁ ++ ⟨i, t, .inr r⟩ :: l₂)
    (hkey : commentKey ⟨i, t, .inr r⟩ = some k) (hc : s.client i = some p) (hu : p.mCurrentUser.isSome)
    (hmid : ReactionMid s.store p (.inr r) k) :
    ∃ p' qs, onReceive d p r = some (p', qs) ∧ Inv reactionFlow post
      ⟨s.store, Function.update s.client i (some p'), l₁ ++ issue (forum d) i p' qs ++ l₂⟩ := by
  obtain ⟨c, hcomment, hid, ha, hr, hcounts⟩ := hmid
  obtain ⟨a, hafter, hrecv⟩ := onReceive_reaction (d := d) hcomment ha hr
  refine ⟨p, _, hrecv, h.recvGoesOn hl hkey hc (h.page i p hc) hu ?_ (fun _ => ?_) fun _ _ _ => id⟩
  · show some ((p.mComment.map (·.mId)).getD "") = some k
    rw [hcomment, ← hid]
    rfl
  · exact ⟨c, hcomment, hid, hafter, hid, hcounts⟩

theorem reaction_step (h : Inv reactionFlow post s)
    (ho : (reactionRun d s e && reactsToCurrent s e) = true) (hs : Step (forum d) s e s') :
    Inv reactionFlow post s' := by
  simp only [reactionRun, Bool.and_eq_true] at ho
  obtain ⟨⟨hacts, hworks⟩, hcur⟩ := ho
  refine h.step hworks hs ?_ ?_ ?_
  · intro i a p p' qs he hc ht
    obtain rfl := he
    cases ht with
    | quiet hkept hp _ => exact h.tapQuiet hc hkept hp
    | resume => exact h.tapResume hc
    | @commentLike pos viewId c op δ hpop hpos hop =>
      have hview : viewId ≠ d.icLikeClicked := bne_iff_ne.mp hacts
      obtain ⟨-, rfl, rfl⟩ := hop.resolve_left fun hx => hview hx.1
      simp only [reactsToCurrent, hc, Option.all_some] at hcur
      exact reaction_tap h hc hpop hpos hcur rfl (.inl ⟨rfl, rfl, rfl⟩)
    | @commentYCard pos c hpop hpos =>
      simp only [reactsToCurrent, hc, Option.all_some] at hcur
      exact reaction_tap h hc hpop hpos hcur rfl (.inr ⟨rfl, rfl, rfl⟩)
    | comment => cases hacts
    | like => cases hacts
    | ycard => cases hacts
    | delete => cases hacts
  · intro n i t q k p db' out l₁ l₂ he hq hl hkey hc hmid hex hsucc
    exact reaction_exec h hl hkey hmid hex hsucc
  · intro n i t r k p l₁ l₂ he hn hl hkey hc hu hmid
    exact reaction_reply h hl hkey hc hu hmid

end Step

/-- **A comment's counters count users while users react once, to current copies,
one at a time on a comment and on a page.** -/
theorem counted_of_reach {d : Drawables} {db : Database} {opened : List Opened} {s : ForumConf}
    (hgood : ∀ k, CommentCounted db k)
    (h : Reach (forum d) (fun s e => (reactionRun d s e && reactsToCurrent s e) = true)
      (openPages d db opened) s)
    (hquiet : ∀ m ∈ s.net, commentKey m = none) : ∀ k, CommentCounted s.store k := by
  have hinv : Inv reactionFlow (postOf opened) s :=
    Reach.inv (Inv.init opened hgood) (fun _ _ _ h ho hs => reaction_step h ho hs) h
  exact hinv.good hquiet

/-- The post with a comment of Ann's that nobody has reacted to. -/
def commentedDb : Database :=
  { derbyDb with
    posts := derbyDb.posts.set derbyId { derby with comments := [firstId] }
    comments := Collection.empty.set firstId ⟨"me", derbyId, "ann@mail.com", 0, 0, "", ""⟩ }

/-- Both pages load, with the comment. -/
def loadingComment : List (Ev Action) :=
  [carry, carry, arrive, carry, carry, arrive, carry, arrive, carry, carry, arrive, carry, carry, carry,
    carry, arrive, carry, carry, arrive, carry, carry, arrive, carry, arrive, carry, carry, arrive,
    carry, carry, carry, carry, arrive]

/-- A reaction is carried through and the comments are loaded again. -/
def reacted : List (Ev Action) :=
  [carry, arrive, carry, arrive, carry, carry, arrive, carry, carry, carry, carry, arrive]

theorem counted_commentedDb (k : String) : CommentCounted commentedDb k := by
  intro doc hdoc
  have hzero : ∀ e ∈ commentedDb.comments.toList, e.2.like = 0 ∧ e.2.yellowcard = 0 := by decide
  obtain ⟨hlike, hyellow⟩ := hzero _ (Collection.mem_toList.mpr hdoc)
  rw [hlike, hyellow, reactors_eq_zero (by decide) k, reactors_eq_zero (by decide) k]
  exact ⟨rfl, rfl⟩

/-- Ann likes the comment. -/
theorem counted_of_reach_derby :
    ∃ s, Reach (forum plainDrawables)
        (fun s e => (reactionRun plainDrawables s e && reactsToCurrent s e) = true)
        (openPages plainDrawables commentedDb annAndBob) s ∧
      (s.store.comments.get firstId).map (·.like) = some 1 ∧ ∀ k, CommentCounted s.store k := by
  obtain ⟨s, hr, hs⟩ := @reach_of_test _ _ _ _ _ _ (forum plainDrawables)
    (fun s e => reactionRun plainDrawables s e && reactsToCurrent s e)
    (openPages plainDrawables commentedDb annAndBob)
    (loadingComment ++ [.act 0 (.onLikeClick 0 7)] ++ reacted)
    (fun s => s.net.all (fun m => commentKey m == none) &&
      (s.store.comments.get firstId).map (·.like) == some 1) (by decide)
  simp only [Bool.and_eq_true, List.all_eq_true, beq_iff_eq] at hs
  exact ⟨s, hr, hs.2, counted_of_reach counted_commentedDb hr hs.1⟩

/-- Ann likes the comment, and then Bob: two users like it, and it says one. -/
theorem second_like_uncounted :
    (∀ k, CommentCounted commentedDb k) ∧
    ∃ s, Reach (forum plainDrawables) (fun s e => reactionRun plainDrawables s e = true)
        (openPages plainDrawables commentedDb annAndBob) s ∧
      (∀ m ∈ s.net, commentKey m = none) ∧ ¬ CommentCounted s.store firstId := by
  refine ⟨counted_commentedDb, ?_⟩
  obtain ⟨s, hr, hs⟩ := @reach_of_test _ _ _ _ _ _ (forum plainDrawables) (reactionRun plainDrawables)
    (openPages plainDrawables commentedDb annAndBob)
    (loadingComment ++ [.act 0 (.onLikeClick 0 7)] ++ reacted ++ [.act 1 (.onLikeClick 0 7)] ++ reacted)
    (fun s => s.net.all (fun m => commentKey m == none) &&
      (s.store.comments.get firstId).map (·.like) == some 1 &&
      reactors s.store .commentLikes firstId == 2) (by decide)
  simp only [Bool.and_eq_true, List.all_eq_true, beq_iff_eq] at hs
  obtain ⟨⟨hquiet, hlike⟩, htwo⟩ := hs
  refine ⟨s, hr, hquiet, fun hcounted => ?_⟩
  obtain ⟨doc, hget, hone⟩ := Option.map_eq_some_iff.mp hlike
  have hcount := (hcounted doc hget).1
  rw [hone, htwo] at hcount
  revert hcount
  decide

end Forum
end FootballGallery
