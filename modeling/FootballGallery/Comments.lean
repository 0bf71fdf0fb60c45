/-
# Comments on a post

A comment is stored in two writes: its document, and the post with the
comment's id at the end of its comments array. The second write is the page's
own copy of the post, whole, so a comment that somebody else has added since
the copy was read is gone from the array.

`Listed` is the law, `commentRun` the runs it is asked for and `copyCurrent`
what keeps it: who comments has the stored array in front of them and nobody
else is commenting on the post.

Key definitions: `postKey`, `Listed`, `commentRun`, `copyCurrent`.
Key theorems: `listed_of_reach`, `comment_lost`.
-/
import FootballGallery.Forum

namespace FootballGallery
namespace Forum

open DBUtil ForumDetailActivity Async DocStore

/-! ### The flows on a post -/

/-- The post that a flow's message works on: a comment, a like or a yellow card under way. -/
def postKey (m : ForumMsg) : Option String :=
  match m.body with
  | .inl (.setComment ..) | .inl (.updatePost ..) => some m.tag.1
  | .inl (.updateUserArray _ _ f ..) => if f = .postLikes ∨ f = .postYCards then some m.tag.1 else none
  | .inr r => if r.action ∈ [updateComment, updateUserLike, updateUserYCard] then some m.tag.1 else none
  | _ => none

theorem postKey_reading (m : ForumMsg) (h : Reading m.tag.1 m.body) : postKey m = none := by
  obtain ⟨i, ⟨pid, id⟩, b⟩ := m
  change Reading pid b at h
  cases h with
  | reply hi =>
    have hsub : [updateComment, updateUserLike, updateUserYCard] ⊆ [updateComment, updateUserLike, updateUserYCard,
        userUpdateLikeValueComment, userUpdateYCardValueComment] := by decide
    exact if_neg fun ha => settled_action hi (hsub ha)
  | _ => rfl

theorem postKey_eq {m : ForumMsg} {k : String} (h : postKey m = some k) : m.tag.1 = k := by
  unfold postKey at h
  split at h
  · exact Option.some.inj h
  · exact Option.some.inj h
  · split at h
    · exact Option.some.inj h
    · cases h
  · split at h
    · exact Option.some.inj h
    · cases h
  · cases h

/-- No flow works on the post `pid`. -/
def unused (s : ForumConf) (pid : String) : Bool := s.net.all fun m => postKey m != some pid

theorem unused_iff {s : ForumConf} {pid : String} (h : unused s pid = true) :
    pid ∉ s.net.filterMap postKey := by
  intro hin
  obtain ⟨m, hm, hk⟩ := List.mem_filterMap.mp hin
  simp [unused] at h
  exact h m hm hk

/-! ### The law and the runs -/

/-- `l` has the id of every comment on the post `k` once, and no other; nothing
is said of a post that is not stored. -/
def Lists (db : Database) (k : String) (l : List String) : Prop :=
  (db.posts.get k).isSome → l.Nodup ∧ ∀ c, c ∈ l ↔ ∃ doc, db.comments.get c = some doc ∧ doc.postId = k

/-- The comments array of the stored post `k` has the id of every comment on it
once, and no other. -/
def Listed (db : Database) (k : String) : Prop :=
  ∀ post, db.posts.get k = some post →
    post.comments.Nodup ∧ ∀ c, c ∈ post.comments ↔ ∃ doc, db.comments.get c = some doc ∧ doc.postId = k

/-- The taps of the run: commenting, and reading the post again. -/
def commenting : Action → Bool
  | .typeComment _ | .onCommentTap _ | .onReplyClick _ | .onUndoReplyTap | .onResume => true
  | _ => false

/-- A new comment's id is not one of a stored comment. -/
def freshId (s : ForumConf) : Ev Action → Bool
  | .exec n _ => (requestAt s n).all fun
    | .setComment _ id _ => id != "" && (s.store.comments.get id).isNone
    | _ => true
  | _ => true

/-- Users comment on posts and read them, every backend call succeeds and every comment id is fresh. -/
def commentRun (s : ForumConf) (e : Ev Action) : Bool :=
  (match e with
    | .act _ a => commenting a
    | _ => true) && backendWorks s e && freshId s e

/-- A comment is posted from a copy of the post that has the stored comments,
while no flow works on the post. -/
def copyCurrent (s : ForumConf) : Ev Action → Bool
  | .act i (.onCommentTap _) => (s.client i).all fun p =>
    !(p.populated && StringUtil.isFieldValid [p.mEt_comment]) ||
      (s.store.posts.get p.mPost.mId).all (·.comments == p.mPost.mComments) && unused s p.mPost.mId
  | _ => true

/-! ### Lists of comments under the two writes -/

section Writes

variable {db : Database} {k k' cid : String} {l : List String} {doc : CommentDoc}

theorem Lists.set_other (hne : k' ≠ k) (hdoc : doc.postId = k) (hfree : db.comments.get cid = none)
    (h : Lists db k' l) : Lists { db with comments := db.comments.set cid doc } k' l := by
  intro hk
  obtain ⟨hnodup, hmem⟩ := h hk
  refine ⟨hnodup, fun c => ?_⟩
  by_cases hc : c = cid
  · rw [hmem, hc, hfree]
    refine ⟨fun hx => ?_, fun hx => ?_⟩
    · obtain ⟨x, hx, -⟩ := hx
      cases hx
    · obtain ⟨x, hx, hpost⟩ := hx
      by_cases hid : cid = ""
      · rw [hid, Collection.get_noId] at hx
        cases hx
      · rw [Collection.get_set_self _ _ hid] at hx
        obtain rfl := Option.some.inj hx
        exact absurd (hpost.symm.trans hdoc) hne
  · rw [hmem, Collection.get_set_ne _ _ hc]

/-- The new comment belongs at the end of its post's list. -/
theorem Lists.set_own (hid : cid ≠ "") (hdoc : doc.postId = k) (hfree : db.comments.get cid = none)
    (h : Lists db k l) : Lists { db with comments := db.comments.set cid doc } k (l ++ [cid]) := by
  intro hk
  obtain ⟨hnodup, hmem⟩ := h hk
  have hnot : cid ∉ l := by
    rw [hmem, hfree]
    intro hx
    obtain ⟨x, hx, -⟩ := hx
    cases hx
  refine ⟨hnodup.append (List.nodup_singleton _) (List.disjoint_singleton.mpr hnot), fun c => ?_⟩
  rw [List.mem_append, List.mem_singleton]
  by_cases hc : c = cid
  · rw [hc, Collection.get_set_self _ _ hid]
    exact ⟨fun _ => ⟨doc, rfl, hdoc⟩, fun _ => .inr rfl⟩
  · rw [Collection.get_set_ne _ _ hc, ← hmem]
    exact ⟨fun hx => hx.resolve_right hc, .inl⟩

variable {f : PostDoc → PostDoc} {ps : Collection PostDoc}

theorem isSome_update (hu : db.posts.update k f = some ps) (id : String) :
    (ps.get id).isSome = (db.posts.get id).isSome := by
  by_cases hi : id = k
  · rw [hi, Collection.get_update_self hu, Option.isSome_map]
  · rw [Collection.get_update_ne hu hi]

theorem Lists.update (hu : db.posts.update k f = some ps) (h : Lists db k' l) :
    Lists { db with posts := ps } k' l := by
  intro hk
  refine h ?_
  rw [← isSome_update hu k']
  exact hk

end Writes

theorem lists_of_listed {db : Database} {k : String} {l : List String} (h : Listed db k)
    (hl : ∀ post, db.posts.get k = some post → post.comments = l) : Lists db k l := by
  intro hk
  obtain ⟨post, hpost⟩ := Option.isSome_iff_exists.mp hk
  rw [← hl post hpost]
  exact h post hpost

/-! ### The flow -/

/-- How far a comment on the post `k` is. -/
def CommentMid (db : Database) (p : ForumDetail) (b : Request ⊕ Intent) (k : String) : Prop :=
  p.extraPost.mId = k ∧ ∃ newPost, p.mNewPost = some newPost ∧
    match b with
    | .inl (.setComment a id doc) => a = updateComment ∧ doc.postId = k ∧
        ∃ l, newPost.mComments = l ++ [id] ∧ Lists db k l
    | .inr r => r.action = updateComment ∧ r.result = true ∧ Lists db k newPost.mComments
    | .inl (.updatePost a id doc) => a = updateValue ∧ id = k ∧ Lists db k doc.comments
    | _ => False

def commentFlow : Flow where
  key := postKey
  Good := Listed
  Mid := CommentMid
  key_reading := postKey_reading
  mid_kept hk h := by
    unfold CommentMid at h ⊢
    rw [hk.extraPost, hk.newPost]
    exact h

section Step

variable {d : Drawables} {post : ℕ → String} {s s' : ForumConf} {e : Ev Action}

/-- Two flows of one page work on one post. -/
theorem CommentMid.other {db db' : Database} {p p' : ForumDetail} {b : Request ⊕ Intent} {k k' : String}
    (hp : p.extraPost.mId = k) (hne : k' ≠ k) (h : CommentMid db p b k') : CommentMid db' p' b k' :=
  absurd (h.1.symm.trans hp) hne

theorem listed_other {db : Database} {k k' : String} {f : PostDoc → PostDoc} {ps : Collection PostDoc}
    (hu : db.posts.update k f = some ps) (hne : k' ≠ k) (h : Listed db k') :
    Listed { db with posts := ps } k' := by
  intro post hpost
  rw [Collection.get_update_ne hu hne] at hpost
  exact h post hpost

theorem CommentMid.frame {db db' : Database} {k' : String} (hl : ∀ l, Lists db k' l → Lists db' k' l)
    (p : ForumDetail) (b : Request ⊕ Intent) (h : CommentMid db p b k') : CommentMid db' p b k' := by
  obtain ⟨hp, newPost, hnew, hb⟩ := h
  refine ⟨hp, newPost, hnew, ?_⟩
  split at hb
  · obtain ⟨ha, hdoc, l, hcomments, hlists⟩ := hb
    exact ⟨ha, hdoc, l, hcomments, hl l hlists⟩
  · obtain ⟨ha, hr, hlists⟩ := hb
    exact ⟨ha, hr, hl _ hlists⟩
  · obtain ⟨ha, hid, hlists⟩ := hb
    exact ⟨ha, hid, hl _ hlists⟩
  · exact hb.elim

theorem copyCurrent_tap {i : ℕ} {id : String} {p : ForumDetail} (hc : s.client i = some p)
    (hpop : p.populated = true) (htext : StringUtil.isFieldValid [p.mEt_comment] = true)
    (h : copyCurrent s (.act i (.onCommentTap id)) = true) :
    (∀ doc, s.store.posts.get p.mPost.mId = some doc → doc.comments = p.mPost.mComments) ∧
      unused s p.mPost.mId = true := by
  simp only [copyCurrent, hc, Option.all_some, hpop, htext, Bool.and_self, Bool.not_true, Bool.false_or,
    Bool.and_eq_true] at h
  refine ⟨fun doc hdoc => ?_, h.2⟩
  have hsame := h.1
  rw [hdoc] at hsame
  simpa using hsame

/-- A comment is started from a current copy, on a post that no other one works on. -/
theorem comment_tap (h : Inv commentFlow post s) {i : ℕ} {id : String} {p : ForumDetail} {u : User}
    (hc : s.client i = some p) (hpop : p.populated = true) (hu : p.mCurrentUser = some u)
    (htext : StringUtil.isFieldValid [p.mEt_comment] = true)
    (hcur : copyCurrent s (.act i (.onCommentTap id)) = true) :
    let p' := { p with mPost := p.mPost.appendComments [id], mNewPost := some (p.mPost.appendComments [id]) }
    Inv commentFlow post ⟨s.store, Function.update s.client i (some p'), s.net ++ issue (forum d) i p'
      [.setComment updateComment id ⟨p.mEt_comment, p.mPost.mId, u.mId, 0, 0, p.mCurrentParentId,
        p.mCurrentMentionId⟩]⟩ := by
  have hpage := h.page i p hc
  have hk : p.extraPost.mId = p.mPost.mId := hpage.extraPost.trans hpage.mPost.symm
  obtain ⟨hcopy, hunused⟩ := copyCurrent_tap hc hpop htext hcur
  refine h.tapStarts hc ?_ ?_ ?_ (unused_iff hunused) ?_ ?_
  · exact ⟨hpage.extraPost, hpage.mPost, hpage.user⟩
  · exact Option.isSome_iff_exists.mpr ⟨u, hu⟩
  · exact congrArg some hk
  · intro hgood
    exact ⟨hk, _, rfl, rfl, rfl, p.mPost.mComments, rfl, lists_of_listed hgood hcopy⟩
  · intro m _ _ k' hne _ hm
    exact hm.other hk hne

theorem comment_exec (h : Inv commentFlow post s) {n i : ℕ} {t : Tag} {q : Request} {k : String}
    {p : ForumDetail} {db' : Database} {out : List (Request ⊕ Intent)} {l₁ l₂ : List ForumMsg}
    (hq : requestAt s n = some q) (hfresh : freshId s (.exec n true) = true)
    (hl : s.net = l₁ ++ ⟨i, t, .inl q⟩ :: l₂) (hkey : postKey ⟨i, t, .inl q⟩ = some k)
    (hmid : CommentMid s.store p (.inl q) k)
    (he : exec true s.store q = some (db', out)) (hsucc : succeeds s.store q = true) :
    Inv commentFlow post ⟨db', s.client, l₁ ++ follow i t out ++ l₂⟩ := by
  obtain ⟨-, newPost, -, hbody⟩ := hmid
  split at hbody
  · rename_i a id doc heq
    -- the comment's document: its post's list gets longer
    obtain rfl := Sum.inl.inj heq
    obtain ⟨rfl, hdoc, -⟩ := hbody
    obtain ⟨rfl, rfl⟩ := setComment_succeeds hsucc he
    simp only [freshId, hq, Option.all_some, Bool.and_eq_true, bne_iff_ne, ne_eq,
      Option.isNone_iff_eq_none] at hfresh
    obtain ⟨hid, hfree⟩ := hfresh
    have hother : ∀ k', k' ≠ k → ∀ l, Lists s.store k' l →
        Lists { s.store with comments := s.store.comments.set id doc } k' l :=
      fun k' hne l => .set_other hne hdoc hfree
    refine h.execGoesOn hl hkey (fun k' hne hgood post hpost => ?_) (fun k' hne => CommentMid.frame (hother k' hne))
      hkey fun p' _ hm => ?_
    · exact hother k' hne _ (lists_of_listed hgood fun post' hpost' => by
        rw [Option.some.inj (hpost'.symm.trans hpost)]) (by rw [hpost]; rfl)
    · obtain ⟨hp, newPost, hnew, -, -, l, hcomments, hlists⟩ := hm
      refine ⟨hp, newPost, hnew, rfl, rfl, ?_⟩
      rw [hcomments]
      exact hlists.set_own hid hdoc hfree
  · rename_i heq
    cases heq
  · rename_i a id doc heq
    -- the post with the list
    obtain rfl := Sum.inl.inj heq
    obtain ⟨rfl, rfl, -⟩ := hbody
    obtain ⟨ps, hu, rfl, rfl⟩ := updatePost_succeeds hsucc he
    refine h.execEnds hl hkey (fun k' hne => listed_other hu hne)
      (fun k' _ => CommentMid.frame fun l => .update hu) (fun b hb => ?_) fun p' _ hm => ?_
    · obtain rfl := List.mem_singleton.mp hb
      exact .reply (.after (by decide))
    · obtain ⟨-, -, -, -, -, hlists⟩ := hm
      intro post hpost
      obtain ⟨old, hold, rfl⟩ := Collection.update_eq_some hu
      rw [Collection.get_set_self _ _ (Collection.ne_of_get hold)] at hpost
      obtain rfl := Option.some.inj hpost
      exact hlists (by rw [hold]; rfl)
  · exact hbody.elim

theorem comment_reply (h : Inv commentFlow post s) {i : ℕ} {t : Tag} {r : Intent} {k : String}
    {p : ForumDetail} {l₁ l₂ : List ForumMsg} (hl : s.net = l₁ ++ ⟨i, t, .inr r⟩ :: l₂)
    (hkey : postKey ⟨i, t, .inr r⟩ = some k) (hc : s.client i = some p) (hu : p.mCurrentUser.isSome)
    (hmid : CommentMid s.store p (.inr r) k) :
    ∃ p' qs, onReceive d p r = some (p', qs) ∧ Inv commentFlow post
      ⟨s.store, Function.update s.client i (some p'), l₁ ++ issue (forum d) i p' qs ++ l₂⟩ := by
  obtain ⟨hp, newPost, hnew, ha, hr, hlists⟩ := hmid
  have hpage := h.page i p hc
  have hrecv : onReceive d p r = some (p, forumUpdatePost updateValue p.mPost newPost) := by
    obtain ⟨a, b, x⟩ := r
    obtain rfl : a = updateComment := ha
    obtain rfl : b = true := hr
    exact onReceive_updateComment hnew x
  refine ⟨p, _, hrecv, h.recvGoesOn hl hkey hc hpage hu ?_ (fun _ => ?_) fun _ _ _ => id⟩
  · exact congrArg some hp
  · have hpid : p.mPost.mId = k := (hpage.mPost.trans hpage.extraPost.symm).trans hp
    exact ⟨hp, newPost, hnew, rfl, hpid, hlists⟩

theorem comment_step (h : Inv commentFlow post s) (ho : (commentRun s e && copyCurrent s e) = true)
    (hs : Step (forum d) s e s') : Inv commentFlow post s' := by
  simp only [commentRun, Bool.and_eq_true] at ho
  obtain ⟨⟨⟨hacts, hworks⟩, hfresh⟩, hcur⟩ := ho
  refine h.step hworks hs ?_ ?_ ?_
  · intro i a p p' qs he hc ht
    obtain rfl := he
    cases ht with
    | quiet hkept hp _ => exact h.tapQuiet hc hkept hp
    | resume => exact h.tapResume hc
    | comment hpop hu htext => exact comment_tap h hc hpop hu htext hcur
    | _ => cases hacts
  · intro n i t q k p db' out l₁ l₂ he hq hl hkey hc hmid hex hsucc
    obtain rfl := he
    exact comment_exec h hq hfresh hl hkey hmid hex hsucc
  · intro n i t r k p l₁ l₂ he hn hl hkey hc hu hmid
    exact comment_reply h hl hkey hc hu hmid

end Step

/-- **No comment is lost or duplicated while comments are posted from current
copies, one at a time on a post.** -/
theorem listed_of_reach {d : Drawables} {db : Database} {opened : List Opened} {s : ForumConf}
    (hgood : ∀ k, Listed db k)
    (h : Reach (forum d) (fun s e => (commentRun s e && copyCurrent s e) = true) (openPages d db opened) s)
    (hquiet : ∀ m ∈ s.net, postKey m = none) : ∀ k, Listed s.store k := by
  have hinv : Inv commentFlow (postOf opened) s :=
    Reach.inv (Inv.init opened hgood) (fun _ _ _ h ho hs => comment_step h ho hs) h
  exact hinv.good hquiet

theorem listed_of_no_comments {db : Database} (hc : db.comments = .empty)
    (hp : ∀ e ∈ db.posts.toList, e.2.comments = []) (k : String) : Listed db k := by
  intro post hpost
  have hnil : post.comments = [] := hp (k, post) (Collection.mem_toList.mpr hpost)
  rw [hnil, hc]
  refine ⟨List.nodup_nil, fun c => ?_⟩
  simp

/-- Ann posts a comment, Bob reads the post again and posts another one. -/
theorem listed_of_reach_derby :
    ∃ s, Reach (forum plainDrawables) (fun s e => (commentRun s e && copyCurrent s e) = true)
        (openPages plainDrawables derbyDb annAndBob) s ∧
      (s.store.posts.get derbyId).map (·.comments) = some [firstId, secondId] ∧ ∀ k, Listed s.store k := by
  obtain ⟨s, hr, hs⟩ := @reach_of_test _ _ _ _ _ _ (forum plainDrawables)
    (fun s e => commentRun s e && copyCurrent s e) (openPages plainDrawables derbyDb annAndBob)
    (loading ++ [.act 0 (.typeComment "me"), .act 0 (.onCommentTap firstId), carry, arrive, carry, arrive,
      carry, carry, arrive, carry, carry, carry, carry, arrive, .act 1 .onResume, carry, carry, arrive,
      carry, carry, carry, carry, arrive, .act 1 (.typeComment "me too"), .act 1 (.onCommentTap secondId),
      carry, arrive, carry, arrive, carry, carry, arrive, carry, carry, carry, carry, arrive])
    (fun s => s.net.all (fun m => postKey m == none) &&
      (s.store.posts.get derbyId).map (·.comments) == some [firstId, secondId]) (by decide)
  simp only [Bool.and_eq_true, List.all_eq_true, beq_iff_eq] at hs
  exact ⟨s, hr, hs.2, listed_of_reach (listed_of_no_comments rfl (by decide)) hr hs.1⟩

/-- Ann and Bob comment at once: Ann's comment is stored, and no post lists it. -/
theorem comment_lost :
    (∀ k, Listed derbyDb k) ∧
    ∃ s, Reach (forum plainDrawables) (fun s e => commentRun s e = true)
        (openPages plainDrawables derbyDb annAndBob) s ∧
      (∀ m ∈ s.net, postKey m = none) ∧ ¬ Listed s.store derbyId := by
  refine ⟨listed_of_no_comments rfl (by decide), ?_⟩
  obtain ⟨s, hr, hs⟩ := @reach_of_test _ _ _ _ _ _ (forum plainDrawables) commentRun
    (openPages plainDrawables derbyDb annAndBob)
    (loading ++ [.act 0 (.typeComment "me"), .act 1 (.typeComment "me too"), .act 0 (.onCommentTap firstId),
      .act 1 (.onCommentTap secondId), carry, arrive, carry, arrive, carry, carry, arrive, carry, carry,
      carry, carry, arrive, carry, arrive, carry, arrive, carry, carry, arrive, carry, carry, carry,
      carry, arrive])
    (fun s => s.net.all (fun m => postKey m == none) &&
      (s.store.posts.get derbyId).map (·.comments) == some [secondId] &&
      (s.store.comments.get firstId).any (·.postId == derbyId)) (by decide)
  simp only [Bool.and_eq_true, List.all_eq_true, beq_iff_eq, Option.any_eq_true] at hs
  obtain ⟨⟨hquiet, harray⟩, doc, hdoc, hpost⟩ := hs
  refine ⟨s, hr, hquiet, fun hlisted => ?_⟩
  obtain ⟨post, hget, hcomments⟩ := Option.map_eq_some_iff.mp harray
  have hin : firstId ∈ post.comments := ((hlisted post hget).2 firstId).mpr ⟨doc, hdoc, hpost⟩
  rw [hcomments] at hin
  revert hin
  decide

end Forum
end FootballGallery
