/-
# Only stored comments are listed

A page writes a new comment first, and the post with the comment's id in its array
when it hears that the comment is stored. It puts the id into its own copy of the
post before either. A comment that could not be written leaves it there, and the
next write of the post, after a like, a yellow card or another comment, stores it.

`AllBacked` is the law and `tapsBacked` what keeps it: nobody comments, likes or
gives a yellow card on a page whose post has the id of a comment that is not
stored, and nobody comments on a page that has still to write its post.

Key definitions: `OnPost`, `AllBacked`, `tapsBacked`, `MsgBacked`, `Waits`.
Key theorems: `backed_exec`, `waits_exec`, `backed_tapped`, `backed_replied`,
`allBacked_of_reach`, `failed_comment_listed`.
-/
import FootballGallery.CommentCopies
import FootballGallery.CommentReactions
import FootballGallery.Comments
import FootballGallery.PostReactions
import FootballGallery.Lib.Views

namespace FootballGallery
namespace StoredComments

open DBUtil DocStore Async Forum ForumDetailActivity CommentCopies

/-! ### The law and the runs -/

/-- The comment `c` is stored, as one on the post `pid`. -/
def OnPost (db : Database) (pid c : String) : Prop :=
  ∃ doc, db.comments.get c = some doc ∧ doc.postId = pid

/-- All of `cs` are stored comments on the post `pid`. -/
def Backed (db : Database) (pid : String) (cs : List String) : Prop := ∀ c ∈ cs, OnPost db pid c

/-- What the comments array of a stored post names are stored comments on it. -/
def AllBacked (db : Database) : Prop := ∀ id post, db.posts.get id = some post → Backed db id post.comments

instance (db : Database) (pid c : String) : Decidable (OnPost db pid c) :=
  decidable_of_iff ((db.comments.get c).any (·.postId == pid) = true) (by simp [OnPost, Option.any_eq_true])

instance (db : Database) (pid : String) (cs : List String) : Decidable (Backed db pid cs) :=
  inferInstanceAs (Decidable (∀ c ∈ cs, OnPost db pid c))

/-- The actions whose replies make the page write its post. -/
def postWrites : List String := [updateUserLike, updateUserYCard, updateComment]

/-- The page may still write its post because of this message. -/
def writesPost (b : Request ⊕ Intent) : Bool :=
  b.elim (fun q => decide (q.action ∈ postWrites)) fun i => i.result && decide (i.action ∈ postWrites)

/-- The tap is one that the page goes on to write its post for. -/
def starts (p : ForumDetail) : Action → Bool
  | .onCommentTap _ => p.populated && StringUtil.isFieldValid [p.mEt_comment]
  | .onLikeIconTap => p.populated && p.mBtn_like_clickable
  | .onYCardIconTap => p.populated
  | _ => false

def comments : Action → Bool
  | .onCommentTap _ => true
  | _ => false

/-- Such a tap is made on a page whose post lists stored comments, and a comment on
a page that has no write of its post ahead. -/
def tapsBacked (s : ForumConf) : Ev Action → Bool
  | .act i a => (s.client i).all fun p =>
    !starts p a || decide (Backed s.store p.extraPost.mId p.mPost.mComments) &&
      (!comments a || s.net.all fun m => m.client != i || !writesPost m.body)
  | _ => true

/-- What the message writes to a post, or has read of one, is backed. `pid` is the
post of the page. -/
def MsgBacked (db : Database) (pid : String) (b : Request ⊕ Intent) : Prop :=
  match b with
  | .inl (.setPost ..) => False
  | .inl (.updatePost _ id doc) => Backed db id doc.comments
  | .inl (.getPost _ id) => id = pid
  | .inl (.getPostAuthor _ q) | .inr ⟨_, _, some (.post q)⟩ => q.mId = pid ∧ Backed db pid q.mComments
  | .inl (.setComment _ _ doc) => doc.postId = pid
  | _ => True

/-- What the page `p` writes to its post when `a` has succeeded is backed. -/
structure Ready (db : Database) (p : ForumDetail) (a : String) : Prop where
  newPost : a = updateUserLike ∨ a = updateComment → ∀ q ∈ p.mNewPost, Backed db p.extraPost.mId q.mComments
  post : a = updateUserYCard → Backed db p.extraPost.mId p.mPost.mComments

/-- The page is ready for what the message ends in. The write of a comment makes it so. -/
def Waits (db : Database) (p : ForumDetail) (b : Request ⊕ Intent) : Prop :=
  match b with
  | .inl (.setComment a id _) =>
      a = updateComment ∧ ∀ q ∈ p.mNewPost, ∀ c ∈ q.mComments, c = id ∨ OnPost db p.extraPost.mId c
  | .inl q => Ready db p q.action
  | .inr i => i.result = true → Ready db p i.action

variable {db db' : Database} {pid : String} {p p' : ForumDetail}

/-! ### What a write keeps -/

theorem OnPost.mono {c : String} (h : OnPost db pid c) (hk : KeepsLinks db db') : OnPost db' pid c := by
  obtain ⟨doc, hdoc, rfl⟩ := h
  obtain ⟨doc', hdoc', hlinks⟩ := hk c doc.links ⟨doc, hdoc, rfl⟩
  exact ⟨doc', hdoc', congrArg Links.postId hlinks⟩

theorem Backed.mono {cs : List String} (h : Backed db pid cs) (hk : KeepsLinks db db') : Backed db' pid cs :=
  fun c hc => (h c hc).mono hk

theorem MsgBacked.mono {b : Request ⊕ Intent} (h : MsgBacked db pid b) (hk : KeepsLinks db db') :
    MsgBacked db' pid b := by
  unfold MsgBacked at h ⊢
  split at h
  · exact h
  · exact h.mono hk
  · exact h
  · exact ⟨h.1, h.2.mono hk⟩
  · exact ⟨h.1, h.2.mono hk⟩
  · exact h
  · trivial

theorem Ready.mono {a : String} (h : Ready db p a) (hk : KeepsLinks db db') : Ready db' p a :=
  ⟨fun ha q hq => (h.newPost ha q hq).mono hk, fun ha => (h.post ha).mono hk⟩

/-- The reply to a like or a comment makes the page write the pending post. -/
theorem ready_newPost {a : String} (ha : a = updateUserLike ∨ a = updateComment)
    (h : ∀ q ∈ p.mNewPost, Backed db p.extraPost.mId q.mComments) : Ready db p a where
  newPost _ := h
  post hy := by
    have hne : updateUserLike ≠ updateUserYCard ∧ updateComment ≠ updateUserYCard := by decide
    rcases ha with rfl | rfl
    · exact absurd hy hne.1
    · exact absurd hy hne.2

theorem ready_post (h : Backed db p.extraPost.mId p.mPost.mComments) : Ready db p updateUserYCard where
  newPost ha := absurd ha (by decide)
  post _ := h

/-- Where no write of the post comes of it, every page is ready. -/
theorem ready_of_not_mem {a : String} (ha : a ∉ postWrites) : Ready db p a where
  newPost h := by
    refine absurd ?_ ha
    rcases h with rfl | rfl <;> decide
  post h := by
    refine absurd ?_ ha
    rw [h]
    decide

theorem ready_after {a : String} (ha : a ∈ after) : Ready db p a := by
  have hdisj : ∀ a ∈ after, a ∉ postWrites := by decide
  exact ready_of_not_mem (hdisj a ha)

theorem Waits.mono {b : Request ⊕ Intent} (h : Waits db p b) (hk : KeepsLinks db db') : Waits db' p b := by
  unfold Waits at h ⊢
  split at h
  · exact ⟨h.1, fun q hq c hc => (h.2 q hq c hc).imp_right fun hon => hon.mono hk⟩
  · exact h.mono hk
  · exact fun hr => (h hr).mono hk

/-! ### The backend -/

section Exec

variable {ok : Bool} {q : Request} {out : List (Request ⊕ Intent)}

theorem AllBacked.wrote (h : AllBacked db) (hw : Wrote db q db') (hq : MsgBacked db pid (.inl q))
    (hk : KeepsLinks db db') : AllBacked db' := by
  have hold : ∀ id post, db.posts.get id = some post → Backed db' id post.comments :=
    fun id post hpost => (h id post hpost).mono hk
  cases hw with
  | setPost => exact hq.elim
  | updatePost hu =>
    obtain ⟨old, -, rfl⟩ := Collection.update_eq_some hu
    exact Collection.forall_set hold (MsgBacked.mono hq hk)
  | deletePost => exact Collection.forall_delete hold _
  | _ => exact hold

/-- The backend keeps the law, and a post that it sends is backed. -/
theorem backed_exec (h : exec ok db q = some (db', out)) (hdb : AllBacked db)
    (hq : MsgBacked db pid (.inl q)) (hk : KeepsLinks db db') :
    AllBacked db' ∧ ∀ b ∈ out, MsgBacked db' pid b := by
  cases executed_exec h with
  | wrote hw => exact ⟨hdb.wrote hw hq hk, List.forall_mem_singleton.mpr trivial⟩
  | fails hall =>
    refine ⟨hdb, fun b hb => ?_⟩
    obtain rfl := hall b hb
    trivial
  | @getPost a id doc hget =>
    obtain rfl : id = pid := hq
    exact ⟨hdb, List.forall_mem_singleton.mpr ⟨rfl, hdb id doc hget⟩⟩
  | getPostAuthor => exact ⟨hdb, List.forall_mem_singleton.mpr hq⟩
  | _ => exact ⟨hdb, List.forall_mem_singleton.mpr trivial⟩

/-- A task without a write says nothing new. -/
theorem Waits.ready (h : Waits db p (.inl q)) (hq : writes q = false) : Ready db p q.action := by
  cases q with
  | setComment => cases hq
  | _ => exact h

/-- A stored comment makes the page ready, and other tasks leave it so. -/
theorem waits_exec (h : exec ok db q = some (db', out)) (hq : MsgBacked db p.extraPost.mId (.inl q))
    (hid : ∀ a id doc, q = .setComment a id doc → id ≠ "") (hk : KeepsLinks db db')
    (hw : Waits db p (.inl q)) : ∀ b ∈ out, Waits db' p b := by
  cases executed_exec h with
  | wrote hwrote =>
    refine List.forall_mem_singleton.mpr fun _ => ?_
    cases hwrote with
    | @setComment a id doc =>
      obtain ⟨rfl, hnew⟩ := hw
      refine ready_newPost (.inr rfl) fun r hr c hc => ?_
      rcases hnew r hr c hc with rfl | hon
      · exact ⟨doc, Collection.get_set_self _ _ (hid _ _ _ rfl), hq⟩
      · exact hon.mono hk
    | _ =>
      have hready : Ready db p _ := hw
      exact hready.mono hk
  | fails hall =>
    intro b hb
    obtain rfl := hall b hb
    exact fun hr => by cases hr
  | answers hread => exact List.forall_mem_singleton.mpr fun _ => hw.ready hread
  | getUserPosts | getPostsStepTwo | getPostAuthor | getCommentsStepFour => exact List.forall_mem_singleton.mpr fun _ => hw
  | _ => exact List.forall_mem_singleton.mpr hw

end Exec

/-! ### The page -/

section Page

variable {d : Drawables} {qs : List Request}

/-- A like changes neither the id of the post nor its comments. -/
theorem likeCase_comments (d : Drawables) (p : ForumDetail) :
    (likeCase d p).1.mComments = p.mPost.mComments ∧ (likeCase d p).1.mId = p.mPost.mId := by
  unfold likeCase
  split
  · exact ⟨rfl, rfl⟩
  · split <;> exact ⟨rfl, rfl⟩

/-- The page is still the same post's, and what it may write to the post is as before or backed. -/
structure PostKept (db : Database) (p p' : ForumDetail) : Prop where
  extraPost : p'.extraPost = p.extraPost
  newPost : p'.mNewPost = p.mNewPost ∨ ∀ q ∈ p'.mNewPost, Backed db p.extraPost.mId q.mComments
  post : p'.mPost.mComments = p.mPost.mComments ∨ Backed db p.extraPost.mId p'.mPost.mComments

theorem PostKept.same (hextra : p'.extraPost = p.extraPost) (hnew : p'.mNewPost = p.mNewPost)
    (hpost : p'.mPost = p.mPost) : PostKept db p p' :=
  ⟨hextra, .inl hnew, .inl (congrArg Post.mComments hpost)⟩

theorem Ready.kept {a : String} (h : Ready db p a) (hk : PostKept db p p') : Ready db p' a where
  newPost ha := by
    rw [hk.extraPost]
    rcases hk.newPost with hsame | hbacked
    · rw [hsame]
      exact h.newPost ha
    · exact hbacked
  post ha := by
    rw [hk.extraPost]
    rcases hk.post with hsame | hbacked
    · rw [hsame]
      exact h.post ha
    · exact hbacked

theorem Waits.kept {b : Request ⊕ Intent} (h : Waits db p b) (hk : PostKept db p p') : Waits db p' b := by
  unfold Waits at h ⊢
  split at h
  · refine ⟨h.1, ?_⟩
    rw [hk.extraPost]
    rcases hk.newPost with hsame | hbacked
    · rw [hsame]
      exact h.2
    · exact fun q hq c hc => .inr (hbacked q hq c hc)
  · exact h.kept hk
  · exact fun hr => (h hr).kept hk

theorem Waits.of_quiet {b : Request ⊕ Intent} (h : Waits db p b) (hb : writesPost b = false) :
    Waits db p' b := by
  unfold Waits at h ⊢
  split at h
  · obtain ⟨rfl, -⟩ := h
    cases hb
  · exact ready_of_not_mem (of_decide_eq_false hb)
  · intro hr
    simp only [writesPost, Sum.elim_inr, hr, Bool.true_and, decide_eq_false_iff_not] at hb
    exact ready_of_not_mem hb

/-- What the page asks for. -/
def Asks (db : Database) (p : ForumDetail) (qs : List Request) : Prop :=
  ∀ q ∈ qs, MsgBacked db p.extraPost.mId (.inl q) ∧ Waits db p (.inl q)

theorem asks_nil : Asks db p [] := fun q hq => by cases hq

theorem asks_one {q : Request} (hq : MsgBacked db p.extraPost.mId (.inl q)) (hw : Waits db p (.inl q)) :
    Asks db p [q] := List.forall_mem_singleton.mpr ⟨hq, hw⟩

theorem asks_getPost (hid : pid = p.extraPost.mId) {a : String} (ha : a = updateFields ∨ a = getUpdatedPost) :
    Asks db p (forumGetPostWithId a pid) := by
  have hdisj : updateFields ∉ postWrites ∧ getUpdatedPost ∉ postWrites := by decide
  rcases ha with rfl | rfl
  · exact asks_one hid (ready_of_not_mem hdisj.1)
  · exact asks_one hid (ready_of_not_mem hdisj.2)

theorem asks_updatePost {old q : Post} (hid : old.mId = p.extraPost.mId) {a : String} (ha : a ∈ after)
    (hq : Backed db p.extraPost.mId q.mComments) : Asks db p (forumUpdatePost a old q) := by
  refine asks_one ?_ (ready_after ha)
  rw [← hid] at hq
  exact hq

/-- A comment puts its id on a post whose other ids are backed, on a page that waits
for no other write; the other taps keep what is ready. -/
theorem backed_tapped {a : Action} (h : Tapped d p a p' qs) (hid : p.mPost.mId = p.extraPost.mId)
    (hbacked : starts p a = true → Backed db p.extraPost.mId p.mPost.mComments) :
    p'.mPost.mId = p'.extraPost.mId ∧ p'.extraPost = p.extraPost ∧ Asks db p' qs ∧
      ∀ b, (starts p a = true → comments a = true → writesPost b = false) → Waits db p b → Waits db p' b := by
  cases h with
  | quiet hk hpost =>
    refine ⟨?_, hk.extraPost, asks_nil, fun b _ hb => hb.kept (.same hk.extraPost hk.newPost hpost)⟩
    rw [hpost, hk.extraPost]
    exact hid
  | resume => exact ⟨hid, rfl, asks_getPost hid (.inl rfl), fun b _ hb => hb⟩
  | @comment id u hpop hu htext =>
    have hstarts : starts p (.onCommentTap id) = true := by
      rw [starts, hpop, htext]
      rfl
    refine ⟨hid, rfl, asks_one hid ⟨rfl, fun q hq c hc => ?_⟩, fun b hquiet hb => hb.of_quiet (hquiet hstarts rfl)⟩
    obtain rfl := Option.some.inj hq
    rcases List.mem_append.mp hc with hc | hc
    · exact .inr (hbacked hstarts c hc)
    · exact .inl (List.mem_singleton.mp hc)
  | like hpop hclick =>
    have hstarts : starts p .onLikeIconTap = true := by
      rw [starts, hpop, hclick]
      rfl
    obtain ⟨hsame, hmId⟩ := likeCase_comments d p
    have hnew : ∀ q ∈ some (likeCase d p).1, Backed db p.extraPost.mId q.mComments := by
      intro q hq
      rw [← Option.some.inj hq, hsame]
      exact hbacked hstarts
    refine ⟨hmId.trans hid, rfl, fun q hq => ?_, fun b _ hb => hb.kept ⟨rfl, .inr ?_, .inl hsame⟩⟩
    · obtain ⟨op, rfl⟩ := mem_userUpdateValue hq
      exact ⟨trivial, ready_newPost (.inl rfl) hnew⟩
    · exact hnew
  | ycard hpop =>
    exact ⟨hid, rfl, asks_one trivial (ready_post (hbacked hpop)), fun b _ hb => hb⟩
  | commentLike =>
    have hother : userUpdateLikeValueComment ∉ postWrites := by decide
    exact ⟨hid, rfl, asks_one trivial (ready_of_not_mem hother), fun b _ hb => hb.kept (.same rfl rfl rfl)⟩
  | commentYCard =>
    have hother : userUpdateYCardValueComment ∉ postWrites := by decide
    exact ⟨hid, rfl, asks_one trivial (ready_of_not_mem hother), fun b _ hb => hb.kept (.same rfl rfl rfl)⟩
  | delete =>
    have hother : deletePostInPosts ∉ postWrites := by decide
    exact ⟨hid, rfl, asks_one trivial (ready_of_not_mem hother), fun b _ hb => hb⟩

/-- The page writes what it is ready to write. -/
theorem backed_replied {i : Intent} (h : Replied d p i p' qs) (hid : p.mPost.mId = p.extraPost.mId)
    (hi : MsgBacked db p.extraPost.mId (.inr i)) (hw : Waits db p (.inr i)) :
    p'.mPost.mId = p'.extraPost.mId ∧ Asks db p' qs ∧ PostKept db p p' := by
  have hother : getAuthorInfo ∉ postWrites ∧ deletePostInUsers ∉ postWrites ∧
      forumGetCommentsAction ∉ postWrites := by decide
  cases h with
  | ignored | deletedInUsers => exact ⟨hid, asks_nil, .same rfl rfl rfl⟩
  | currentUser => exact ⟨hid, asks_one trivial (ready_of_not_mem hother.1), .same rfl rfl rfl⟩
  | author => exact ⟨hid, asks_one trivial (ready_of_not_mem hother.2.2), .same rfl rfl rfl⟩
  | deletedInPosts => exact ⟨hid, asks_one trivial (ready_of_not_mem hother.2.1), .same rfl rfl rfl⟩
  | fields _ _ hx =>
    obtain ⟨a, r, x⟩ := i
    obtain rfl : x = some (.post _) := hx
    exact ⟨hi.1, asks_one trivial (ready_of_not_mem hother.2.2), ⟨rfl, .inl rfl, .inr hi.2⟩⟩
  | @comments x p₁ _ _ _ hpop =>
    obtain ⟨hk, hpost, -⟩ := populateInfo_kept hpop
    refine ⟨?_, asks_nil, .same hk.extraPost hk.newPost hpost⟩
    show p₁.mPost.mId = p₁.extraPost.mId
    rw [hpost, hk.extraPost]
    exact hid
  | again ha => exact ⟨hid, asks_getPost hid ha, .same rfl rfl rfl⟩
  | value =>
    refine ⟨hid, asks_getPost ?_ (.inl rfl), .same rfl rfl rfl⟩
    exact hid
  | post ha hr hnew hb =>
    have hbacked := (hw hr).newPost ha.symm _ hnew
    exact ⟨hid, asks_updatePost hid hb hbacked, .same rfl rfl rfl⟩
  | @ycard ha hr _ newPost hnew =>
    have hsame : newPost.mComments = p.mPost.mComments ∧ newPost.mId = p.mPost.mId := by
      rw [hnew]
      split <;> exact ⟨rfl, rfl⟩
    have hbacked : Backed db p.extraPost.mId newPost.mComments := by
      rw [hsame.1]
      exact (hw hr).post ha
    have hid' : newPost.mId = p.extraPost.mId := hsame.2.trans hid
    refine ⟨hid', asks_updatePost ?_ (by decide) ?_, ⟨rfl, .inr fun q hq => ?_, .inr hbacked⟩⟩
    · exact hid'
    · exact hbacked
    · rw [← Option.some.inj hq]
      exact hbacked
  | comment _ _ hc hb => exact ⟨hid, asks_one trivial (ready_after hb), .same rfl rfl rfl⟩

end Page

/-! ### Runs -/

/-- The message is labelled with the post of the page, which is ready for it. -/
def Fits (db : Database) (p : ForumDetail) (m : ForumMsg) : Prop :=
  m.tag.1 = p.extraPost.mId ∧ Waits db p m.body

theorem bonds (d : Drawables) :
    Bonds (forum d) (fun s e => (freshId s e && tapsBacked s e) = true) AllBacked
      (fun db p => Copies db p ∧ p.mPost.mId = p.extraPost.mId)
      (fun db m => MsgCopies db m.body ∧ MsgBacked db m.tag.1 m.body) Fits where
  act s i a p p' qs ho hc ha _ hp := by
    obtain ⟨rfl, rfl⟩ := Prod.mk.inj (Option.some.inj ha)
    have htap := tapped_act d p a
    simp only [Bool.and_eq_true, tapsBacked, hc, Option.all_some, Bool.or_eq_true, Bool.not_eq_true',
      decide_eq_true_eq, List.all_eq_true, bne_iff_ne, ne_eq] at ho
    have hbacked : starts p a = true → Backed s.store p.extraPost.mId p.mPost.mComments := by
      intro hstarts
      rcases ho.2 with hno | ⟨hb, -⟩
      · rw [hno] at hstarts
        cases hstarts
      · exact hb
    obtain ⟨hcopies, hmsgs⟩ := copies_tapped htap hp.1
    obtain ⟨hid, hextra, hasks, hkeep⟩ := backed_tapped htap hp.2 hbacked
    refine ⟨⟨hcopies, hid⟩, fun q hq => ⟨⟨hmsgs q hq, (hasks q hq).1⟩, rfl, (hasks q hq).2⟩, ?_⟩
    intro m hm hi hfit
    refine ⟨hfit.1.trans (congrArg Post.mId hextra).symm, hkeep _ (fun hstarts hcomments => ?_) hfit.2⟩
    rcases ho.2 with hno | ⟨-, hno | hquiet⟩
    · rw [hno] at hstarts
      cases hstarts
    · rw [hno] at hcomments
      cases hcomments
    · exact (hquiet m hm).resolve_left fun hne => hne hi
  exec s n b i t q db' out ho hn he hdb hq := by
    have hfresh : ∀ a id doc, q = .setComment a id doc → id ≠ "" ∧ s.store.comments.get id = none := by
      rintro a id doc rfl
      simpa [freshId, tapsBacked, requestAt, hn] using ho
    have hnew : NewComment s.store q := by
      cases q with
      | setComment a id doc => exact (hfresh a id doc rfl).2
      | _ => trivial
    obtain ⟨hk, hcopies⟩ := msgCopies_exec he hq.1 hnew
    obtain ⟨hdb', hbacked⟩ := backed_exec he hdb hq.2 hk
    refine ⟨hdb', fun p hp => ⟨hp.1.mono hk, hp.2⟩, fun m _ hm => ⟨hm.1.mono hk, hm.2.mono hk⟩,
      fun m _ p hm => ⟨hm.1, hm.2.mono hk⟩, fun x hx => ⟨⟨hcopies x hx, hbacked x hx⟩, fun p hp => ?_⟩⟩
    obtain ⟨htag, hw⟩ := hp
    have hq' := hq.2
    rw [htag] at hq'
    exact ⟨htag, waits_exec he hq' (fun a id doc heq => (hfresh a id doc heq).1) hk hw x hx⟩
  recv s n i t r p p' qs _ _ _ hr _ hp hm hfit := by
    have hreplied := replied_onReceive hr
    obtain ⟨htag, hw⟩ := hfit
    have hr' := hm.2
    rw [htag] at hr'
    obtain ⟨hcopies, hmsgs⟩ := copies_replied hreplied hp.1 hm.1
    obtain ⟨hid, hasks, hkeep⟩ := backed_replied hreplied hp.2 hr' hw
    refine ⟨⟨hcopies, hid⟩, fun q hq => ⟨⟨hmsgs q hq, (hasks q hq).1⟩, rfl, (hasks q hq).2⟩, ?_⟩
    exact fun m _ _ hfit => ⟨hfit.1.trans (congrArg Post.mId hkeep.extraPost).symm, hfit.2.kept hkeep⟩

/-- A page that opens waits for nothing that makes it write. -/
theorem bonded_init {d : Drawables} {db : Database} (opened : List Opened) (hdb : AllBacked db) :
    Bonded AllBacked (fun db p => Copies db p ∧ p.mPost.mId = p.extraPost.mId)
      (fun db m => MsgCopies db m.body ∧ MsgBacked db m.tag.1 m.body) Fits (openPages d db opened) where
  store := hdb
  client i p hp := by
    obtain ⟨o, -, rfl⟩ := Option.map_eq_some_iff.mp hp
    exact ⟨copies_nothing rfl rfl, rfl⟩
  msg m hm := by
    obtain ⟨i, o, q, -, hq, rfl⟩ := mem_openPages hm
    rcases Opened.mem_requests hq with rfl | rfl
    · exact ⟨trivial, trivial⟩
    · exact ⟨trivial, rfl⟩
  fits m hm p hp := by
    obtain ⟨i, o, q, ho, hq, rfl⟩ := mem_openPages hm
    obtain ⟨o', ho', rfl⟩ := Option.map_eq_some_iff.mp hp
    obtain rfl := Option.some.inj (ho.symm.trans ho')
    have hother : getCurrentUser ∉ postWrites ∧ updateFields ∉ postWrites := by decide
    rcases Opened.mem_requests hq with rfl | rfl
    · exact ⟨rfl, ready_of_not_mem hother.1⟩
    · exact ⟨rfl, ready_of_not_mem hother.2⟩

/-- **A post lists stored comments only, and so does what is under way to it**, whatever
the users tap and whichever backend calls fail, as long as nobody goes on from a page
whose post lists a comment that is not stored. -/
theorem allBacked_of_reach {d : Drawables} {db : Database} {opened : List Opened} {s : ForumConf}
    (hdb : AllBacked db)
    (h : Reach (forum d) (fun s e => (freshId s e && tapsBacked s e) = true) (openPages d db opened) s) :
    AllBacked s.store ∧
      ∀ i t a id doc, ⟨i, t, .inl (.updatePost a id doc)⟩ ∈ s.net → Backed s.store id doc.comments := by
  have hb := (bonds d).reach (bonded_init opened hdb) h
  exact ⟨hb.store, fun i t a id doc hm => (hb.msg _ hm).2⟩

/-! ### Ann on her own post -/

/-- Ann opens her post. -/
def annAlone : List Opened := [⟨"ann@mail.com", postOfDoc derbyId derby, none⟩]

/-- The page loads, and Ann comments. -/
def annComments : List (Ev Action) :=
  [carry, carry, arrive, carry, carry, arrive, carry, arrive, carry, carry, arrive, carry, arrive,
    .act 0 (.typeComment "me"), .act 0 (.onCommentTap firstId)]

theorem allBacked_derbyDb : AllBacked derbyDb := by
  have h : ∀ e ∈ derbyDb.posts.toList, Backed derbyDb e.1 e.2.comments := by decide
  exact fun id post hpost => h _ (Collection.mem_toList.mpr hpost)

/-- Ann's comment is stored and listed, and then she likes the post. -/
theorem allBacked_of_reach_derby :
    ∃ s, Reach (forum shownDrawables) (fun s e => (freshId s e && tapsBacked s e) = true)
        (openPages shownDrawables derbyDb annAlone) s ∧
      (s.store.posts.get derbyId).map (fun post => (post.comments, post.like)) = some ([firstId], 1) ∧
      AllBacked s.store ∧
      ∀ i t a id doc, ⟨i, t, .inl (.updatePost a id doc)⟩ ∈ s.net → Backed s.store id doc.comments := by
  obtain ⟨s, hr, hs⟩ := @reach_of_test _ _ _ _ _ _ (forum shownDrawables)
    (fun s e => freshId s e && tapsBacked s e) (openPages shownDrawables derbyDb annAlone)
    (annComments ++ [carry, arrive, carry, arrive, carry, carry, arrive, carry, carry, carry, carry, arrive,
      .act 0 .onLikeIconTap, carry, arrive, carry])
    (fun s => (s.store.posts.get derbyId).map (fun post => (post.comments, post.like)) == some ([firstId], 1))
    (by decide)
  exact ⟨s, hr, beq_iff_eq.mp hs, allBacked_of_reach allBacked_derbyDb hr⟩

/-- Ann's comment fails, and she posts it again: the second write of the post lists the
first one too. -/
theorem failed_comment_listed :
    AllBacked derbyDb ∧
    ∃ s, Reach (forum plainDrawables) (fun s e => freshId s e = true)
        (openPages plainDrawables derbyDb annAlone) s ∧
      (s.store.posts.get derbyId).map (·.comments) = some [firstId, secondId] ∧
      (s.store.comments.get firstId) = none ∧ ¬ AllBacked s.store := by
  refine ⟨allBacked_derbyDb, ?_⟩
  obtain ⟨s, hr, hs⟩ := @reach_of_test _ _ _ _ _ _ (forum plainDrawables) freshId
    (openPages plainDrawables derbyDb annAlone)
    (annComments ++ [.exec 0 false, arrive, .act 0 (.onCommentTap secondId), carry, arrive, carry])
    (fun s => (s.store.posts.get derbyId).map (·.comments) == some [firstId, secondId] &&
      (s.store.comments.get firstId).isNone) (by decide)
  simp only [Bool.and_eq_true, beq_iff_eq, Option.isNone_iff_eq_none] at hs
  obtain ⟨hlisted, hnone⟩ := hs
  refine ⟨s, hr, hlisted, hnone, fun hbacked => ?_⟩
  obtain ⟨post, hpost, hcomments⟩ := Option.map_eq_some_iff.mp hlisted
  obtain ⟨doc, hdoc, -⟩ := hbacked _ _ hpost firstId (by rw [hcomments]; simp)
  rw [hnone] at hdoc
  cases hdoc

end StoredComments
end FootballGallery
