/-
# What one step of a page does

A tap either starts one of the page's flows with its first write, or reads the
post again, or changes only what the page shows. A reply brings a user, a post
or comments, or starts the next write or another read.

Most messages of a page are reads and the replies that start them: the page
asks for the user, the author, the post and its comments, and asks again after
a write. They write nothing, and their replies change what the page shows but
neither who uses it, nor the post it is about, nor the objects that a flow
under way has put aside.

Key definitions: `Kept`, `Tapped`, `Replied`, `continues`, `Settled`, `Reading`.
Key theorems: `tapped_act`, `replied_onReceive`, `continues_of_writes`, `exec_reading`, `recv_settled`,
`recv_settled_isSome`.
-/
import FootballGallery.ForumDetailActivity
import FootballGallery.TaskSteps

namespace FootballGallery
namespace ForumDetailActivity

open DBUtil

/-! ### Taps -/

/-- What only a flow changes. -/
structure Kept (p p' : ForumDetail) : Prop where
  me : p'.me = p.me
  extraPost : p'.extraPost = p.extraPost
  newPost : p'.mNewPost = p.mNewPost
  comment : p'.mComment = p.mComment
  user : p.mCurrentUser.isSome → p'.mCurrentUser.isSome
  populated : p.populated = true → p'.populated = true
  listeners : (p.populated = true → p.mCurrentUser.isSome) → p'.populated = true → p'.mCurrentUser.isSome

theorem Kept.refl (p : ForumDetail) : Kept p p := ⟨rfl, rfl, rfl, rfl, id, id, id⟩

/-- What the tap `a` makes of the page `p`: another page and requests. -/
inductive Tapped (d : Drawables) (p : ForumDetail) : Action → ForumDetail → List Request → Prop
  | quiet {a p'} (hk : Kept p p') (hp : p'.mPost = p.mPost)
      (hs : p'.mComments = p.mComments ∧ p'.finished = p.finished) : Tapped d p a p' []
  | resume : Tapped d p .onResume p (onResume p)
  | comment {id u} (hpop : p.populated = true) (hu : p.mCurrentUser = some u)
      (htext : StringUtil.isFieldValid [p.mEt_comment] = true) :
      Tapped d p (.onCommentTap id)
        { p with mPost := p.mPost.appendComments [id], mNewPost := some (p.mPost.appendComments [id]) }
        [.setComment updateComment id ⟨p.mEt_comment, p.mPost.mId, u.mId, 0, 0, p.mCurrentParentId,
          p.mCurrentMentionId⟩]
  | like (hpop : p.populated = true) (hclick : p.mBtn_like_clickable = true) :
      Tapped d p .onLikeIconTap
        { p with mPost := (likeCase d p).1, mNewPost := some (likeCase d p).1 }
        (userUpdatePostLikesValue p.me updateUserLike p.mPost.mId (likeCase d p).2)
  | ycard (hpop : p.populated = true) :
      Tapped d p .onYCardIconTap p [.updateUserArray updateUserYCard p.me .postYCards .union p.mPost.mId]
  | commentLike {pos viewId c op δ} (hpop : p.populated = true) (hc : p.mComments[pos]? = some c)
      (hop : viewId = d.icLikeClicked ∧ op = .remove ∧ δ = -1 ∨
        viewId ≠ d.icLikeClicked ∧ op = .union ∧ δ = 1) :
      Tapped d p (.onLikeClick pos viewId)
        { p with mComments := p.mComments.set pos (c.updateLikeValue δ), mComment := some (c.updateLikeValue δ) }
        [.updateUserArray userUpdateLikeValueComment p.me .commentLikes op c.mId]
  | commentYCard {pos c} (hpop : p.populated = true) (hc : p.mComments[pos]? = some c) :
      Tapped d p (.onYCardClick pos)
        { p with mComments := p.mComments.set pos c.updateYCardValue, mComment := some c.updateYCardValue }
        [.updateUserArray userUpdateYCardValueComment p.me .commentYCards .union c.mId]
  | delete (hmine : p.mIsMyPost = true) :
      Tapped d p .onDeleteMenu p [.deletePost deletePostInPosts p.mPost.mId]

theorem tapped_act (d : Drawables) (p : ForumDetail) (a : Action) :
    Tapped d p a (act d p a).1 (act d p a).2 := by
  have hsame : ∀ {a}, Tapped d p a p [] := .quiet (.refl p) rfl ⟨rfl, rfl⟩
  cases a with
  | typeComment text => exact .quiet ⟨rfl, rfl, rfl, rfl, id, id, id⟩ rfl ⟨rfl, rfl⟩
  | onCommentTap id =>
    by_cases hpop : p.populated = true
    · simp only [act, if_pos hpop]
      unfold onCommentTap
      split
      · exact hsame
      · rename_i u hu
        by_cases htext : StringUtil.isFieldValid [p.mEt_comment] = true
        · rw [if_pos htext]
          exact @Tapped.comment d p id u hpop hu htext
        · rw [if_neg htext]
          exact hsame
    · simp only [act, if_neg hpop]
      exact hsame
  | onLikeIconTap =>
    by_cases hpop : (p.populated && p.mBtn_like_clickable) = true
    · simp only [act, if_pos hpop]
      exact .like (Bool.and_eq_true_iff.mp hpop).1 (Bool.and_eq_true_iff.mp hpop).2
    · simp only [act, if_neg hpop]
      exact hsame
  | onYCardIconTap =>
    by_cases hpop : p.populated = true
    · simp only [act, if_pos hpop]
      exact .ycard hpop
    · simp only [act, if_neg hpop]
      exact hsame
  | onLikeClick pos viewId =>
    by_cases hpop : p.populated = true
    · simp only [act, if_pos hpop]
      unfold onLikeClick
      split
      · exact hsame
      · rename_i c hc
        by_cases hv : viewId = d.icLikeClicked
        · rw [if_pos hv]
          exact @Tapped.commentLike d p pos viewId c .remove (-1) hpop hc (.inl ⟨hv, rfl, rfl⟩)
        · rw [if_neg hv]
          exact @Tapped.commentLike d p pos viewId c .union 1 hpop hc (.inr ⟨hv, rfl, rfl⟩)
    · simp only [act, if_neg hpop]
      exact hsame
  | onYCardClick pos =>
    by_cases hpop : p.populated = true
    · simp only [act, if_pos hpop]
      unfold onYCardClick
      split
      · exact hsame
      · rename_i c hc
        exact @Tapped.commentYCard d p pos c hpop hc
    · simp only [act, if_neg hpop]
      exact hsame
  | onReplyClick pos =>
    by_cases hpop : p.populated = true
    · simp only [act, if_pos hpop, onReplyClick]
      split
      · exact hsame
      · exact .quiet ⟨rfl, rfl, rfl, rfl, id, id, id⟩ rfl ⟨rfl, rfl⟩
    · simp only [act, if_neg hpop]
      exact hsame
  | onUndoReplyTap =>
    by_cases hpop : p.populated = true
    · simp only [act, if_pos hpop]
      exact .quiet ⟨rfl, rfl, rfl, rfl, id, id, id⟩ rfl ⟨rfl, rfl⟩
    · simp only [act, if_neg hpop]
      exact hsame
  | onDeleteMenu =>
    by_cases hmine : p.mIsMyPost = true
    · simp only [act, if_pos hmine]
      exact .delete hmine
    · simp only [act, if_neg hmine]
      exact hsame
  | onResume => exact .resume

/-! ### Replies -/

/-- The actions of the replies that come after a flow's writes. -/
def after : List String :=
  [updateValue, updatePostAfterLike, updatePostAfterYCard, getUpdatedPost, commentUpdateLikeValue,
    commentUpdateYCardValue]

/-- What the reply `i` makes of the page `p`: another page and requests. -/
inductive Replied (d : Drawables) (p : ForumDetail) (i : Intent) : ForumDetail → List Request → Prop
  | ignored : Replied d p i p []
  | currentUser {u} (ha : i.action = getCurrentUser) (hx : i.extra = some (.user u)) :
      Replied d p i { p with mCurrentUser := some u }
        (userGetUserDetailWithEmail getAuthorInfo p.mPost.mAuthorEmail)
  | author {u} (ha : i.action = getAuthorInfo) (hx : i.extra = some (.user u)) :
      Replied d p i { p with mAuthor := some u } (forumGetComments forumGetCommentsAction p.mPost.mComments)
  | deletedInPosts (ha : i.action = deletePostInPosts) (hr : i.result = true) :
      Replied d p i p [.updateUserArray deletePostInUsers p.me .posts .remove p.mPost.mId]
  | deletedInUsers (ha : i.action = deletePostInUsers) : Replied d p i { p with finished := true } []
  | fields {q} (ha : i.action = updateFields) (hr : i.result = true) (hx : i.extra = some (.post q)) :
      Replied d p i { p with mPost := q } (forumGetComments forumGetCommentsAction q.mComments)
  | comments {x : Option (List Comment)} {p₁} (ha : i.action = forumGetCommentsAction) (hr : i.result = true)
      (hx : i.extra = x.map .comments)
      (hp : populateInfo { p with mComments := x.getD p.mComments } = some p₁) :
      Replied d p i (clearCommentField p₁) []
  | again {a} (ha : a = updateFields ∨ a = getUpdatedPost) : Replied d p i p (forumGetPostWithId a p.mPost.mId)
  | value (ha : i.action = updateValue) :
      Replied d p i { p with mCurrentMentionId := "", mCurrentParentId := "" }
        (forumGetPostWithId updateFields p.mPost.mId)
  | post {a newPost} (ha : i.action = updateComment ∨ i.action = updateUserLike) (hr : i.result = true)
      (hnew : p.mNewPost = some newPost) (hb : a ∈ after) :
      Replied d p i p (forumUpdatePost a p.mPost newPost)
  | ycard (ha : i.action = updateUserYCard) (hr : i.result = true) (hpop : p.populated = true) {newPost}
      (hnew : newPost = if d.same p.mBtn_ycard .ycard then p.mPost.setLikes (p.mPost.mLikes + 1) else p.mPost) :
      Replied d p i { p with mPost := newPost, mNewPost := some newPost }
        (forumUpdatePost updatePostAfterYCard newPost newPost)
  | comment {a c} (ha : i.action = userUpdateLikeValueComment ∨ i.action = userUpdateYCardValueComment)
      (hr : i.result = true) (hc : p.mComment = some c) (hb : a ∈ after) :
      Replied d p i p [.updateComment a c.mId (commentMap c.getRawDesc c.mLikes c)]

theorem replied_onReceive {d : Drawables} {p p' : ForumDetail} {i : Intent} {qs : List Request}
    (h : onReceive d p i = some (p', qs)) : Replied d p i p' qs := by
  have hsame : some (p, []) = some (p', qs) → Replied d p i p' qs := by
    intro heq
    obtain ⟨rfl, rfl⟩ := Prod.mk.inj (Option.some.inj heq)
    exact .ignored
  obtain ⟨a, r, x⟩ := i
  simp only [onReceive] at h
  by_cases ha : a = getCurrentUser
  · rw [if_pos ha] at h
    split at h
    · obtain ⟨rfl, rfl⟩ := Prod.mk.inj (Option.some.inj h)
      exact .currentUser ha rfl
    · cases h
    · exact hsame h
  rw [if_neg ha] at h
  by_cases ha : a = getAuthorInfo
  · rw [if_pos ha] at h
    split at h
    · obtain ⟨rfl, rfl⟩ := Prod.mk.inj (Option.some.inj h)
      exact .author ha rfl
    · cases h
    · exact hsame h
  rw [if_neg ha] at h
  by_cases ha : a = deletePostInPosts
  · rw [if_pos ha] at h
    cases r with
    | false => exact hsame h
    | true =>
      obtain ⟨rfl, rfl⟩ := Prod.mk.inj (Option.some.inj h)
      exact .deletedInPosts ha rfl
  rw [if_neg ha] at h
  by_cases ha : a = deletePostInUsers
  · rw [if_pos ha] at h
    cases r with
    | false => exact hsame h
    | true =>
      obtain ⟨rfl, rfl⟩ := Prod.mk.inj (Option.some.inj h)
      exact .deletedInUsers ha
  rw [if_neg ha] at h
  by_cases ha : a = updateFields
  · rw [if_pos ha] at h
    split at h
    · obtain ⟨rfl, rfl⟩ := Prod.mk.inj (Option.some.inj h)
      exact .fields ha rfl rfl
    · cases h
    · exact hsame h
  rw [if_neg ha] at h
  by_cases ha : a = forumGetCommentsAction
  · rw [if_pos ha] at h
    split at h
    · rename_i cs
      obtain ⟨p₁, hp, heq⟩ := Option.map_eq_some_iff.mp h
      obtain ⟨rfl, rfl⟩ := Prod.mk.inj heq
      exact @Replied.comments d p _ (some cs) p₁ ha rfl rfl hp
    · cases h
    · obtain ⟨p₁, hp, heq⟩ := Option.map_eq_some_iff.mp h
      obtain ⟨rfl, rfl⟩ := Prod.mk.inj heq
      exact @Replied.comments d p _ none p₁ ha rfl rfl hp
    · exact hsame h
  rw [if_neg ha] at h
  by_cases ha : a = updateValue
  · rw [if_pos ha] at h
    obtain ⟨rfl, rfl⟩ := Prod.mk.inj (Option.some.inj h)
    exact .value ha
  rw [if_neg ha] at h
  by_cases ha : a = updateComment
  · rw [if_pos ha] at h
    split at h
    · rename_i hnew
      obtain ⟨rfl, rfl⟩ := Prod.mk.inj (Option.some.inj h)
      exact .post (.inl ha) rfl hnew (by decide)
    · cases h
    · exact hsame h
  rw [if_neg ha] at h
  by_cases ha : a = updateUserLike
  · rw [if_pos ha] at h
    split at h
    · rename_i hnew
      obtain ⟨rfl, rfl⟩ := Prod.mk.inj (Option.some.inj h)
      exact .post (.inr ha) rfl hnew (by decide)
    · cases h
    · exact hsame h
  rw [if_neg ha] at h
  have hagain : ∀ {b}, b = updateFields ∨ b = getUpdatedPost →
      some (p, if r then forumGetPostWithId b p.mPost.mId else []) = some (p', qs) →
      Replied d p ⟨a, r, x⟩ p' qs := by
    intro b hb heq
    cases r with
    | false => exact hsame heq
    | true =>
      obtain ⟨rfl, rfl⟩ := Prod.mk.inj (Option.some.inj heq)
      exact .again hb
  by_cases ha : a = updatePostAfterLike
  · rw [if_pos ha] at h
    exact hagain (.inl rfl) h
  rw [if_neg ha] at h
  by_cases ha : a = getUpdatedPost
  · rw [if_pos ha] at h
    exact hsame h
  rw [if_neg ha] at h
  by_cases ha : a = updateUserYCard
  · rw [if_pos ha] at h
    cases r with
    | false => exact hsame h
    | true =>
      rw [if_pos rfl] at h
      by_cases hpop : p.populated = true
      · rw [if_pos hpop] at h
        obtain ⟨rfl, rfl⟩ := Prod.mk.inj (Option.some.inj h)
        exact .ycard ha rfl hpop rfl
      · rw [if_neg hpop] at h
        cases h
  rw [if_neg ha] at h
  by_cases ha : a = updatePostAfterYCard
  · rw [if_pos ha] at h
    exact hagain (.inl rfl) h
  rw [if_neg ha] at h
  by_cases ha : a = userUpdateLikeValueComment
  · rw [if_pos ha] at h
    split at h
    · rename_i hc
      obtain ⟨rfl, rfl⟩ := Prod.mk.inj (Option.some.inj h)
      exact .comment (.inl ha) rfl hc (by decide)
    · cases h
    · exact hsame h
  rw [if_neg ha] at h
  by_cases ha : a = commentUpdateLikeValue
  · rw [if_pos ha] at h
    exact hagain (.inl rfl) h
  rw [if_neg ha] at h
  by_cases ha : a = userUpdateYCardValueComment
  · rw [if_pos ha] at h
    split at h
    · rename_i hc
      obtain ⟨rfl, rfl⟩ := Prod.mk.inj (Option.some.inj h)
      exact .comment (.inr ha) rfl hc (by decide)
    · cases h
    · exact hsame h
  rw [if_neg ha] at h
  by_cases ha : a = commentUpdateYCardValue
  · rw [if_pos ha] at h
    exact hagain (.inr rfl) h
  rw [if_neg ha] at h
  exact hsame h

/-- The reply starts the next write of a flow on the page `p`. -/
def continues (p : ForumDetail) (i : Intent) : Bool :=
  i.result &&
    (i.action == deletePostInPosts ||
      (i.action == updateComment || i.action == updateUserLike) && p.mNewPost.isSome ||
      i.action == updateUserYCard && p.populated ||
      (i.action == userUpdateLikeValueComment || i.action == userUpdateYCardValueComment) && p.mComment.isSome)

/-- A page writes only to go on with a flow. -/
theorem continues_of_writes {d : Drawables} {p p' : ForumDetail} {i : Intent} {qs : List Request}
    (h : Replied d p i p' qs) {q : Request} (hq : q ∈ qs) (hw : writes q = true) : continues p i = true := by
  have hread : ∀ {r : Request}, writes r = false → qs = [r] → continues p i = true := by
    rintro r hr rfl
    rw [List.mem_singleton.mp hq, hr] at hw
    cases hw
  unfold continues
  cases h with
  | ignored | deletedInUsers | comments => cases hq
  | currentUser | author | fields | again | value => exact hread rfl rfl
  | deletedInPosts ha hr => simp [ha, hr]
  | post ha hr hnew => rcases ha with ha | ha <;> simp [ha, hr, hnew]
  | ycard ha hr hpop => simp [ha, hr, hpop]
  | comment ha hr hc => rcases ha with ha | ha <;> simp [ha, hr, hc]

/-! ### Reads and settled replies -/

/-- A reply, for the page of the post `pid`, that continues no flow. -/
inductive Settled (pid : String) : Intent → Prop
  | user {a r} (ha : a = getCurrentUser ∨ a = getAuthorInfo) (x : Option User) :
      Settled pid ⟨a, r, x.map .user⟩
  | fields {r} (x : Option Post) (hx : ∀ q ∈ x, q.mId = pid) : Settled pid ⟨updateFields, r, x.map .post⟩
  | comments {r} (x : Option (List Comment)) : Settled pid ⟨forumGetCommentsAction, r, x.map .comments⟩
  | after {a r x} (ha : a ∈ after) : Settled pid ⟨a, r, x⟩

/-- No flow goes on at a settled reply. -/
theorem settled_action {pid : String} {i : Intent} (h : Settled pid i) :
    i.action ∉ [updateComment, updateUserLike, updateUserYCard, userUpdateLikeValueComment,
      userUpdateYCardValueComment] := by
  have hdisj : ∀ a ∈ getCurrentUser :: getAuthorInfo :: updateFields :: forumGetCommentsAction :: after,
      a ∉ [updateComment, updateUserLike, updateUserYCard, userUpdateLikeValueComment,
        userUpdateYCardValueComment] := by decide
  refine hdisj i.action ?_
  cases h with
  | user ha => rcases ha with rfl | rfl <;> simp
  | fields => simp
  | comments => simp
  | after ha => simp [ha]

/-- A read, for the page of the post `pid`, or a reply that continues no flow. -/
inductive Reading (pid : String) : Request ⊕ Intent → Prop
  | getUser {a} (ha : a = getCurrentUser ∨ a = getAuthorInfo) (id : String) (silent : Bool) :
      Reading pid (.inl (.getUser a id silent))
  | getUserPosts {a} (ha : a = getCurrentUser ∨ a = getAuthorInfo) (email : String) (doc : UserDoc) :
      Reading pid (.inl (.getUserPosts a email doc))
  | getPost {a} (ha : a = updateFields ∨ a = getUpdatedPost) : Reading pid (.inl (.getPost a pid))
  | getPostAuthor {a q} (ha : a = updateFields ∨ a = getUpdatedPost) (hq : q.mId = pid) :
      Reading pid (.inl (.getPostAuthor a q))
  | getComments (ids : List String) : Reading pid (.inl (.getComments forumGetCommentsAction ids))
  | stepTwo (ids uids : List String) : Reading pid (.inl (.getCommentsStepTwo forumGetCommentsAction ids uids))
  | stepThree (es ms us) : Reading pid (.inl (.getCommentsStepThree forumGetCommentsAction es ms us))
  | stepFour (es ms us ns) : Reading pid (.inl (.getCommentsStepFour forumGetCommentsAction es ms us ns))
  | reply {i} (hi : Settled pid i) : Reading pid (.inr i)

/-! ### Reads leave the database as it is -/

theorem reading_broadcast {pid a : String} (ha : a = updateFields ∨ a = getUpdatedPost) (r : Bool)
    {q : Post} (hq : q.mId = pid) : Settled pid ⟨a, r, some (.post q)⟩ := by
  rcases ha with rfl | rfl
  · exact .fields (some q) fun q' hq' => by
      obtain rfl := Option.some.inj hq'
      exact hq
  · exact .after (by decide)

theorem reading_failure {pid a : String} (ha : a = updateFields ∨ a = getUpdatedPost) (r : Bool) :
    Settled pid ⟨a, r, none⟩ := by
  rcases ha with rfl | rfl
  · exact .fields none fun q hq => by cases hq
  · exact .after (by decide)

/-- A read that answers only whether it succeeded. -/
theorem reading_answer {pid : String} {q : Request} (hq : Reading pid (.inl q)) (r : Bool) :
    Reading pid (.inr ⟨q.action, r, none⟩) := by
  cases hq with
  | getUser ha => exact .reply (.user ha none)
  | getUserPosts ha => exact .reply (.user ha none)
  | getPost ha => exact .reply (reading_failure ha r)
  | getPostAuthor ha => exact .reply (reading_failure ha r)
  | _ => exact .reply (.comments none)

theorem exec_reading {pid : String} {q : Request} (hq : Reading pid (.inl q)) {ok : Bool}
    {db db' : Database} {out : List (Request ⊕ Intent)} (h : exec ok db q = some (db', out)) :
    db' = db ∧ ∀ b ∈ out, Reading pid b := by
  have hone : ∀ {b : Request ⊕ Intent}, Reading pid b → ∀ b' ∈ [b], Reading pid b' :=
    fun hb b' hb' => List.mem_singleton.mp hb' ▸ hb
  cases executed_exec h with
  | wrote hw => cases hw <;> cases hq
  | fails hall =>
    refine ⟨rfl, fun b hb => ?_⟩
    obtain rfl := hall b hb
    exact reading_answer hq false
  | answers _ r => exact ⟨rfl, hone (reading_answer hq r)⟩
  | getUser =>
    cases hq with
    | getUser ha => exact ⟨rfl, hone (.getUserPosts ha _ _)⟩
  | getUserPosts =>
    cases hq with
    | getUserPosts ha => exact ⟨rfl, hone (.reply (.user ha (some _)))⟩
  | getPosts => cases hq
  | getPostsStepTwo => cases hq
  | getPost =>
    cases hq with
    | getPost ha => exact ⟨rfl, hone (.getPostAuthor ha rfl)⟩
  | @getPostAuthor a q u =>
    cases hq with
    | getPostAuthor ha hq =>
      exact ⟨rfl, hone (.reply (reading_broadcast ha true (show (withAuthor q u).mId = pid from hq)))⟩
  | getComments =>
    cases hq
    exact ⟨rfl, hone (.stepTwo _ _)⟩
  | getCommentsStepTwo =>
    cases hq
    exact ⟨rfl, hone (.stepThree _ _ _)⟩
  | getCommentsStepThree =>
    cases hq
    exact ⟨rfl, hone (.stepFour _ _ _ _)⟩
  | @getCommentsStepFour _ _ _ _ _ cs =>
    cases hq
    exact ⟨rfl, hone (.reply (.comments (some cs)))⟩

/-! ### The replies that continue no flow -/

section Receive

variable {d : Drawables} {pid : String} {p p' : ForumDetail} {qs : List Request} {i : Intent}

theorem onReceive_getCurrentUser (r : Bool) (x : Option User) :
    onReceive d p ⟨getCurrentUser, r, x.map .user⟩ = some (if r then
      match x with
      | some u => ({ p with mCurrentUser := some u },
          userGetUserDetailWithEmail getAuthorInfo p.mPost.mAuthorEmail)
      | none => (p, [])
    else (p, [])) := by
  cases r <;> cases x <;> rfl

theorem onReceive_getAuthorInfo (r : Bool) (x : Option User) :
    onReceive d p ⟨getAuthorInfo, r, x.map .user⟩ = some (if r then
      match x with
      | some u => ({ p with mAuthor := some u }, forumGetComments forumGetCommentsAction p.mPost.mComments)
      | none => (p, [])
    else (p, [])) := by
  cases r <;> cases x <;> rfl

theorem onReceive_updateFields (r : Bool) (x : Option Post) :
    onReceive d p ⟨updateFields, r, x.map .post⟩ = some (if r then
      match x with
      | some q => ({ p with mPost := q }, forumGetComments forumGetCommentsAction q.mComments)
      | none => (p, [])
    else (p, [])) := by
  cases r <;> cases x <;> rfl

theorem onReceive_forumGetComments (r : Bool) (x : Option (List Comment)) :
    onReceive d p ⟨forumGetCommentsAction, r, x.map .comments⟩ = if r then
      (populateInfo { p with mComments := x.getD p.mComments }).map fun p' => (clearCommentField p', [])
    else some (p, []) := by
  cases r <;> cases x <;> rfl

/-! The replies that go on with what the page has put aside. -/

theorem onReceive_updateComment {newPost : Post} (hnew : p.mNewPost = some newPost) (x : Option Extra) :
    onReceive d p ⟨updateComment, true, x⟩ = some (p, forumUpdatePost updateValue p.mPost newPost) := by
  cases p
  obtain rfl := hnew
  rfl

theorem onReceive_updateUserLike {newPost : Post} (hnew : p.mNewPost = some newPost) (x : Option Extra) :
    onReceive d p ⟨updateUserLike, true, x⟩ = some (p, forumUpdatePost updatePostAfterLike p.mPost newPost) := by
  cases p
  obtain rfl := hnew
  rfl

theorem onReceive_updateUserYCard (hpop : p.populated = true) (x : Option Extra) {newPost : Post}
    (hnew : newPost = if d.same p.mBtn_ycard .ycard then p.mPost.setLikes (p.mPost.mLikes + 1) else p.mPost) :
    onReceive d p ⟨updateUserYCard, true, x⟩ =
      some ({ p with mPost := newPost, mNewPost := some newPost },
        forumUpdatePost updatePostAfterYCard newPost newPost) := by
  cases p
  obtain rfl := hpop
  obtain rfl := hnew
  rfl

theorem onReceive_userUpdateLikeValueComment {c : Comment} (hc : p.mComment = some c) (x : Option Extra) :
    onReceive d p ⟨userUpdateLikeValueComment, true, x⟩ =
      some (p, forumUpdateCommentInComments commentUpdateLikeValue c caseUpdate) := by
  cases p
  obtain rfl := hc
  rfl

theorem onReceive_userUpdateYCardValueComment {c : Comment} (hc : p.mComment = some c) (x : Option Extra) :
    onReceive d p ⟨userUpdateYCardValueComment, true, x⟩ =
      some (p, forumUpdateCommentInComments commentUpdateYCardValue c caseUpdate) := by
  cases p
  obtain rfl := hc
  rfl

/-- After a flow's writes the page at most asks for its post again. -/
theorem onReceive_after {a : String} (ha : a ∈ after) (r : Bool) (x : Option Extra) :
    ∃ p' qs, onReceive d p ⟨a, r, x⟩ = some (p', qs) ∧
      (p' = p ∨ p' = { p with mCurrentMentionId := "", mCurrentParentId := "" }) ∧
      (qs = [] ∨ qs = forumGetPostWithId updateFields p.mPost.mId ∨
        qs = forumGetPostWithId getUpdatedPost p.mPost.mId) := by
  simp only [after, List.mem_cons, List.not_mem_nil, or_false] at ha
  rcases ha with rfl | rfl | rfl | rfl | rfl | rfl
  · exact ⟨_, _, rfl, .inr rfl, .inr (.inl rfl)⟩
  · cases r
    · exact ⟨_, _, rfl, .inl rfl, .inl rfl⟩
    · exact ⟨_, _, rfl, .inl rfl, .inr (.inl rfl)⟩
  · cases r
    · exact ⟨_, _, rfl, .inl rfl, .inl rfl⟩
    · exact ⟨_, _, rfl, .inl rfl, .inr (.inl rfl)⟩
  · exact ⟨_, _, rfl, .inl rfl, .inl rfl⟩
  · cases r
    · exact ⟨_, _, rfl, .inl rfl, .inl rfl⟩
    · exact ⟨_, _, rfl, .inl rfl, .inr (.inl rfl)⟩
  · cases r
    · exact ⟨_, _, rfl, .inl rfl, .inl rfl⟩
    · exact ⟨_, _, rfl, .inl rfl, .inr (.inr rfl)⟩

theorem populateInfo_kept (h : populateInfo p = some p') :
    Kept p p' ∧ p'.mPost = p.mPost ∧ p'.mCurrentUser.isSome := by
  obtain ⟨u, hu, rfl⟩ := Option.map_eq_some_iff.mp h
  have hsome : p.mCurrentUser.isSome := by rw [hu]; rfl
  by_cases hy : p.mPost.mId ∈ u.mPostYCards
  · rw [if_pos hy]
    exact ⟨⟨rfl, rfl, rfl, rfl, id, fun _ => rfl, fun _ _ => hsome⟩, rfl, hsome⟩
  · rw [if_neg hy]
    exact ⟨⟨rfl, rfl, rfl, rfl, id, fun _ => rfl, fun _ _ => hsome⟩, rfl, hsome⟩

theorem populateInfo_populated (h : populateInfo p = some p') : p'.populated = true := by
  obtain ⟨u, -, rfl⟩ := Option.map_eq_some_iff.mp h
  by_cases hy : p.mPost.mId ∈ u.mPostYCards
  · rw [if_pos hy]
  · rw [if_neg hy]

theorem populateInfo_shows (h : populateInfo p = some p') :
    p'.mComments = p.mComments ∧ p'.finished = p.finished := by
  obtain ⟨u, -, rfl⟩ := Option.map_eq_some_iff.mp h
  by_cases hy : p.mPost.mId ∈ u.mPostYCards
  · rw [if_pos hy]
    exact ⟨rfl, rfl⟩
  · rw [if_neg hy]
    exact ⟨rfl, rfl⟩

theorem reading_getPost (hp : p.mPost.mId = pid) {a : String} (ha : a = updateFields ∨ a = getUpdatedPost) :
    ∀ q ∈ forumGetPostWithId a p.mPost.mId, Reading pid (.inl q) := by
  intro q hq
  obtain rfl := List.mem_singleton.mp hq
  rw [hp]
  exact .getPost ha

/-- A reply that continues no flow keeps what flows work with and starts reads. -/
theorem recv_settled (hi : Settled pid i) (hp : p.mPost.mId = pid)
    (h : onReceive d p i = some (p', qs)) :
    p'.mPost.mId = pid ∧ Kept p p' ∧ ∀ q ∈ qs, Reading pid (.inl q) := by
  have hsame : some (p, []) = some (p', qs) →
      p'.mPost.mId = pid ∧ Kept p p' ∧ ∀ q ∈ qs, Reading pid (.inl q) := by
    intro heq
    obtain ⟨rfl, rfl⟩ := Prod.mk.inj (Option.some.inj heq)
    exact ⟨hp, .refl p, fun q hq => by cases hq⟩
  cases hi with
  | @user a r ha x =>
    rcases ha with rfl | rfl
    · rw [onReceive_getCurrentUser] at h
      cases r with
      | false => exact hsame h
      | true =>
        cases x with
        | none => exact hsame h
        | some u =>
          obtain ⟨rfl, rfl⟩ := Prod.mk.inj (Option.some.inj h)
          refine ⟨hp, ⟨rfl, rfl, rfl, rfl, fun _ => rfl, id, fun _ _ => rfl⟩, fun q hq => ?_⟩
          obtain rfl := List.mem_singleton.mp hq
          exact .getUser (.inr rfl) _ _
    · rw [onReceive_getAuthorInfo] at h
      cases r with
      | false => exact hsame h
      | true =>
        cases x with
        | none => exact hsame h
        | some u =>
          obtain ⟨rfl, rfl⟩ := Prod.mk.inj (Option.some.inj h)
          refine ⟨hp, ⟨rfl, rfl, rfl, rfl, id, id, id⟩, fun q hq => ?_⟩
          obtain rfl := List.mem_singleton.mp hq
          exact .getComments _
  | @fields r x hx =>
    rw [onReceive_updateFields] at h
    cases r with
    | false => exact hsame h
    | true =>
      cases x with
      | none => exact hsame h
      | some q =>
        obtain ⟨rfl, rfl⟩ := Prod.mk.inj (Option.some.inj h)
        refine ⟨hx q rfl, ⟨rfl, rfl, rfl, rfl, id, id, id⟩, fun q' hq' => ?_⟩
        obtain rfl := List.mem_singleton.mp hq'
        exact .getComments _
  | @comments r x =>
    rw [onReceive_forumGetComments] at h
    cases r with
    | false => exact hsame h
    | true =>
      simp only [if_true] at h
      obtain ⟨p₁, hpop, heq⟩ := Option.map_eq_some_iff.mp h
      obtain ⟨rfl, rfl⟩ := Prod.mk.inj heq
      obtain ⟨hk, hpost, hsome⟩ := populateInfo_kept hpop
      exact ⟨(congrArg Post.mId hpost).trans hp, ⟨hk.me, hk.extraPost, hk.newPost, hk.comment, hk.user,
        hk.populated, fun _ _ => hsome⟩, fun q hq => by cases hq⟩
  | @after a r x ha =>
    obtain ⟨p₁, qs₁, heq, hp₁, hqs⟩ := onReceive_after (d := d) (p := p) ha r x
    obtain ⟨rfl, rfl⟩ := Prod.mk.inj (Option.some.inj (heq.symm.trans h))
    have hreads : ∀ q ∈ qs₁, Reading pid (.inl q) := by
      rcases hqs with rfl | rfl | rfl
      · exact fun q hq => by cases hq
      · exact reading_getPost hp (.inl rfl)
      · exact reading_getPost hp (.inr rfl)
    rcases hp₁ with rfl | rfl
    · exact ⟨hp, .refl _, hreads⟩
    · exact ⟨hp, ⟨rfl, rfl, rfl, rfl, id, id, id⟩, hreads⟩

/-- A page with a user handles every such reply. -/
theorem recv_settled_isSome (hi : Settled pid i) (hu : p.mCurrentUser.isSome) :
    (onReceive d p i).isSome := by
  cases hi with
  | @user a r ha x =>
    rcases ha with rfl | rfl
    · rw [onReceive_getCurrentUser]
      rfl
    · rw [onReceive_getAuthorInfo]
      rfl
  | @fields r x hx =>
    rw [onReceive_updateFields]
    rfl
  | @comments r x =>
    rw [onReceive_forumGetComments]
    cases r with
    | false => rfl
    | true => simpa [populateInfo] using hu
  | @after a r x ha =>
    obtain ⟨p₁, qs₁, heq, -⟩ := onReceive_after (d := d) (p := p) ha r x
    rw [heq]
    rfl

end Receive

end ForumDetailActivity
end FootballGallery
