/-
# A user's list of posts

Creating a post stores it and then puts its id on the posts array of its author;
deleting it takes it out of the collection and then off the array. Any number of
devices do this at the same time, each with its own user, and open, edit and comment
on each other's posts as well.

When every user waits for the replies before going on, and the writes of creations and
deletions succeed, the array of a user who waits for nothing has the ids of the stored
posts by this user and no others. A user who does not wait can leave a form before its
second write, and two forms at once list one of their posts.

Key definitions: `Listed`, `Reading`, `Working`, `Phase`, `authored`, `writesPass`.
Key theorems: `reading_exec`, `working_exec`, `phase_act`, `phase_recv`, `posts_listed`.
-/
import FootballGallery.Lib.Waiting
import FootballGallery.Reactors
import FootballGallery.SignedIn

namespace FootballGallery
namespace PostLists

open DBUtil Async DocStore SignedIn
open Forum (derbyId newPostId otherPostId)

/-- The array of the user `u`, if there is such a user, has the ids of the posts by `u`. -/
def Listed (db : Database) (u : String) : Prop :=
  ∀ doc, db.users.get u = some doc → ∀ k, k ∈ doc.posts ↔ ∃ post, db.posts.get k = some post ∧ post.userId = u

-- who a post is by, whether it is stored or not
variable (owner : String → String)

/-- Posts are stored as their author's. -/
def Authors (db : Database) : Prop := ∀ id post, db.posts.get id = some post → post.userId = owner id

/-- The array of `u` is right about the id `k`. -/
def Lists (db : Database) (u k : String) : Prop :=
  ∀ doc, db.users.get u = some doc → (k ∈ doc.posts ↔ (db.posts.get k).isSome ∧ owner k = u)

/-- Neither the array of `u` nor which posts by `u` are stored has changed. -/
structure Frame (u : String) (db db' : Database) : Prop where
  array : (db'.users.get u).map (·.posts) = (db.users.get u).map (·.posts)
  posts : ∀ k, owner k = u → (db'.posts.get k).isSome = (db.posts.get k).isSome

section Store

variable {owner} {db db' : Database} {u me k id : String}

theorem listed_iff (hdb : Authors owner db) : (∀ k, Lists owner db u k) ↔ Listed db u := by
  have hstored : ∀ k, (db.posts.get k).isSome ∧ owner k = u ↔ ∃ post, db.posts.get k = some post ∧ post.userId = u := by
    intro k
    constructor
    · rintro ⟨hsome, howner⟩
      obtain ⟨post, hpost⟩ := Option.isSome_iff_exists.mp hsome
      exact ⟨post, hpost, (hdb k post hpost).trans howner⟩
    · rintro ⟨post, hpost, huser⟩
      exact ⟨Option.isSome_iff_exists.mpr ⟨post, hpost⟩, (hdb k post hpost).symm.trans huser⟩
  constructor
  · intro h doc hdoc k
    rw [h k doc hdoc, hstored]
  · intro h k doc hdoc
    rw [h doc hdoc k, hstored]

theorem Frame.refl (u : String) (db : Database) : Frame owner u db db := ⟨rfl, fun _ _ => rfl⟩

theorem Frame.lists (h : Frame owner u db db') (hk : Lists owner db u k) : Lists owner db' u k := by
  intro doc' hdoc'
  obtain ⟨doc, hdoc, harray⟩ : ∃ doc, db.users.get u = some doc ∧ doc.posts = doc'.posts := by
    have harray := h.array
    rw [hdoc'] at harray
    exact Option.map_eq_some_iff.mp harray.symm
  rw [← harray, hk doc hdoc]
  refine and_congr_left fun howner => ?_
  rw [h.posts k howner]

/-- A write of one post. -/
theorem frame_posts {ps : Collection PostDoc} (hps : ∀ k, k ≠ id → ps.get k = db.posts.get k) (hid : owner id ≠ u) :
    Frame owner u db { db with posts := ps } := by
  refine ⟨rfl, fun k howner => ?_⟩
  have hne : k ≠ id := by
    rintro rfl
    exact hid howner
  rw [← hps k hne]

theorem lists_posts {ps : Collection PostDoc} (hps : ∀ k, k ≠ id → ps.get k = db.posts.get k) (hk : k ≠ id)
    (h : Lists owner db u k) : Lists owner { db with posts := ps } u k := by
  intro doc hdoc
  rw [h doc hdoc, ← hps k hk]

section Array

variable {us : Collection UserDoc} {op : ArrayOp} {f : UserArray}

/-- A write of one user's array is nothing to the others. -/
theorem frame_array (hu : db.users.update me (·.updateArray f op k) = some us) (hne : u ≠ me) :
    Frame owner u db { db with users := us } :=
  ⟨congrArg _ (Collection.get_update_ne hu hne), fun _ _ => rfl⟩

/-- Another array than the one of the posts. -/
theorem frame_otherArray (hu : db.users.update me (·.updateArray f op k) = some us) (hf : f ≠ .posts) (u : String) :
    Frame owner u db { db with users := us } := by
  by_cases hme : u = me
  · subst hme
    refine ⟨?_, fun _ _ => rfl⟩
    obtain ⟨d, hd, rfl⟩ := Collection.update_eq_some hu
    have hsame : (d.updateArray f op k).posts = d.posts := by
      have harray := UserDoc.array_updateArray d f .posts op k
      rwa [if_neg (Ne.symm hf)] at harray
    show ((db.users.set u _).get u).map _ = _
    rw [hd, Collection.get_set_self _ _ (Collection.ne_of_get hd), Option.map_some, Option.map_some, hsame]
  · exact frame_array hu hme

/-- The write of the array makes it right about the id it is given. -/
theorem lists_array (hu : db.users.update me (·.updateArray .posts op id) = some us)
    (hop : (db.posts.get id).isSome ∧ owner id = me ↔ op = .union)
    (hothers : ∀ k, k ≠ id → Lists owner db me k) : ∀ k, Lists owner { db with users := us } me k := by
  intro k doc' hdoc'
  obtain ⟨d, hd, rfl⟩ := Collection.update_eq_some hu
  have hdoc : doc' = d.updateArray .posts op id := by
    have hself := hdoc'.symm
    rw [Collection.get_set_self _ _ (Collection.ne_of_get hd)] at hself
    exact Option.some.inj hself
  have hposts : doc'.posts = op.apply id d.posts := by
    rw [hdoc]
    exact (UserDoc.array_updateArray d .posts .posts op id).trans (if_pos rfl)
  rw [hposts, ArrayOp.mem_apply]
  by_cases hk : k = id
  · rw [if_pos hk, hk, hop]
  · rw [if_neg hk]
    exact hothers k hk d hd

end Array
end Store

/-! ### Messages that create and delete nothing -/

/-- The actions that a creation, an edit or a deletion goes on with. -/
def settling : List String :=
  [ForumFormActivity.createPostInPosts, ForumFormActivity.updatePostInPosts, ForumFormActivity.updatePostInUsers,
    ForumDetailActivity.deletePostInPosts, ForumDetailActivity.deletePostInUsers]

/-- A copy of a post, by its author. -/
def Copy (k : Option String) (q : Post) : Prop := k = some q.mId ∧ q.mAuthorEmail = owner q.mId

variable (me : String) (k : Option String) (mine : Bool)

/-- What the activity on top, which shows the post `k`, asks for. With `mine` it takes
who it is told of for its own user. -/
def Asks : Request → Prop
  | .getUser a id _ | .getUserPosts a id _ => a = CoreActivity.getUserInfo → mine = true → id = me
  | .getPost _ id => k = some id
  | .getPostAuthor _ q => Copy owner k q
  | .updatePost _ id doc => doc.userId = owner id
  | .updateUserArray _ _ f _ _ => f ≠ .posts
  | .createAccount .. | .setUser .. | .updateUser .. | .setPost .. | .deletePost .. => False
  | _ => True

/-- What such an activity is told. -/
def Tells (i : Intent) : Prop :=
  match i.extra with
  | some (.user u) => i.action = CoreActivity.getUserInfo → mine = true → u.mId = me
  | some (.post q) => Copy owner k q
  | _ => True

/-- A message of the activity, of no creation, edit or deletion. -/
def Reading : Send ⊕ Intent → Prop
  | .inl (.call q) => q.action ∉ settling ∧ Asks owner me k mine q
  | .inl (.broadcast i) | .inr i => i.action ∉ settling ∧ Tells owner me k mine i

/-- Requests of the activity, of no creation, edit or deletion. -/
def Reads (qs : List Request) : Prop := ∀ q ∈ qs, q.action ∉ settling ∧ Asks owner me k mine q

section Exec

variable {owner} {me : String} {k : Option String} {mine : Bool} {ok : Bool} {db db' : Database}

theorem authors_set (hdb : Authors owner db) {id : String} {doc : PostDoc} (hdoc : doc.userId = owner id) :
    Authors owner { db with posts := db.posts.set id doc } := Collection.forall_set hdb hdoc

/-- What is asked for and writes, writes no list of posts. -/
theorem asks_wrote {q : Request} (hdb : Authors owner db) (hq : Asks owner me k mine q) (hw : Wrote db q db') :
    Authors owner db' ∧ ∀ u, Frame owner u db db' := by
  cases hw with
  | updateUserArray hu => exact ⟨hdb, frame_otherArray hu hq⟩
  | @updatePost a id doc ps hu =>
    obtain ⟨old, hold, rfl⟩ := Collection.update_eq_some hu
    refine ⟨authors_set hdb hq, fun u => ⟨rfl, fun k' _ => ?_⟩⟩
    show ((db.posts.set id doc).get k').isSome = _
    by_cases hk' : k' = id
    · rw [hk', hold, Collection.get_set_self _ _ (Collection.ne_of_get hold)]
      rfl
    · rw [Collection.get_set_ne _ _ hk']
  | setComment | updateComment | deleteComment => exact ⟨hdb, fun u => ⟨rfl, fun _ _ => rfl⟩⟩
  | createAccount | setUser | updateUser | setPost | deletePost => exact hq.elim

theorem asks_exec {q : Request} {out : List (Request ⊕ Intent)} (h : DBUtil.exec ok db q = some (db', out))
    (hdb : Authors owner db) (hq : Asks owner me k mine q) :
    Authors owner db' ∧ (∀ u, Frame owner u db db') ∧
      ∀ b ∈ out, match b with
        | .inl q' => q'.action = q.action ∧ Asks owner me k mine q'
        | .inr i => i.action = q.action ∧ Tells owner me k mine i := by
  have hsame := @Frame.refl owner
  cases executed_exec h with
  | wrote hw =>
    obtain ⟨hdb', hframe⟩ := asks_wrote hdb hq hw
    exact ⟨hdb', hframe, List.forall_mem_singleton.mpr ⟨rfl, trivial⟩⟩
  | fails hall =>
    refine ⟨hdb, fun u => hsame u db, fun b hb => ?_⟩
    obtain rfl := hall b hb
    exact ⟨rfl, trivial⟩
  | getUser | getUserPosts => exact ⟨hdb, fun u => hsame u db, List.forall_mem_singleton.mpr ⟨rfl, hq⟩⟩
  | getPost hget =>
    exact ⟨hdb, fun u => hsame u db, List.forall_mem_singleton.mpr ⟨rfl, hq, hdb _ _ hget⟩⟩
  | getPostAuthor => exact ⟨hdb, fun u => hsame u db, List.forall_mem_singleton.mpr ⟨rfl, hq⟩⟩
  | _ => exact ⟨hdb, fun u => hsame u db, List.forall_mem_singleton.mpr ⟨rfl, trivial⟩⟩

theorem reading_exec {q : Send} {out : List (Send ⊕ Intent)} (h : q.exec ok db = some (db', out))
    (hdb : Authors owner db) (hq : Reading owner me k mine (.inl q)) :
    Authors owner db' ∧ (∀ u, Frame owner u db db') ∧ ∀ b ∈ out, Reading owner me k mine b := by
  cases q with
  | broadcast i =>
    obtain ⟨rfl, rfl⟩ := Prod.mk.inj (Option.some.inj h)
    exact ⟨hdb, fun u => .refl u _, List.forall_mem_singleton.mpr hq⟩
  | call q =>
    obtain ⟨r, hr, heq⟩ := Option.map_eq_some_iff.mp h
    obtain ⟨rfl, rfl⟩ := Prod.mk.inj heq
    obtain ⟨hdb', hframe, hout⟩ := asks_exec hr hdb hq.2
    refine ⟨hdb', hframe, fun b hb => ?_⟩
    obtain ⟨b', hb', rfl⟩ := List.mem_map.mp hb
    cases b' with
    | inl q' =>
      obtain ⟨ha, hasks⟩ := hout _ hb'
      exact ⟨ha ▸ hq.1, hasks⟩
    | inr i =>
      obtain ⟨ha, htells⟩ := hout _ hb'
      exact ⟨ha ▸ hq.1, htells⟩

end Exec

/-! ### The activities -/

/-- The page shows one post all the time; its user may delete and edit it only as its author. -/
structure OnPage (p : ForumDetail) : Prop where
  user : p.me = me
  shown : p.finished = false
  post : p.mPost.mAuthorEmail = owner p.mPost.mId
  newPost : ∀ q ∈ p.mNewPost, q.mAuthorEmail = owner p.mPost.mId
  mine : p.mIsMyPost = true → owner p.mPost.mId = me ∧ OfMe me p.mAuthor

/-- A form of the user `me`, who edits only posts by `me`. -/
structure OnForm (f : ForumForm) : Prop where
  user : f.me = me
  shown : f.finished = false
  author : OfMe me f.mAuthor
  oldPost : ∀ q ∈ f.mOldPost, owner q.mId = me

/-- What an activity of the user `me` knows. -/
def Kept : Screen → Prop
  | .core c => OfMe me c.mUser ∧ OfMe me c.fragmentUser
  | .profile p => p.me = me ∧ OfMe me p.mUser
  | .form f => OnForm owner me f
  | .detail p => OnPage owner me p

/-- The post that the activity shows. -/
def shows : Screen → Option String
  | .detail p => some p.mPost.mId
  | _ => none

/-- The activity takes who it is told of for its own user. -/
def takes : Screen → Bool
  | .detail p => p.mIsMyPost
  | _ => true

section Page

open ForumDetailActivity

variable {owner} {me : String} {d : Drawables} {p p' : ForumDetail}

theorem copy_likeCase : (likeCase d p).1.mId = p.mPost.mId ∧ (likeCase d p).1.mAuthorEmail = p.mPost.mAuthorEmail := by
  unfold likeCase
  split
  · exact ⟨rfl, rfl⟩
  · split <;> exact ⟨rfl, rfl⟩

/-- What a page is opened with. -/
theorem onPage_onCreate {post : Post} {author : Option User} {qs : List Request}
    (h : onCreate me post author = (p, qs)) (hpost : post.mAuthorEmail = owner post.mId) (hauthor : OfMe me author) :
    OnPage owner me p ∧ Reads owner me (some p.mPost.mId) p.mIsMyPost qs := by
  obtain ⟨rfl, rfl⟩ := Prod.mk.inj h
  refine ⟨⟨rfl, rfl, hpost, fun q hq => (by cases hq), fun hmine => ⟨?_, hauthor⟩⟩, fun q hq => ?_⟩
  · exact hpost.symm.trans (beq_iff_eq.mp hmine)
  · rcases List.mem_append.mp hq with hq | hq
    · obtain rfl := List.mem_singleton.mp hq
      exact ⟨show getCurrentUser ∉ settling by decide, fun heq => absurd heq (by decide)⟩
    · obtain rfl := List.mem_singleton.mp hq
      exact ⟨show updateFields ∉ settling by decide, rfl⟩

/-- The page of the same post, after a tap or a reply. -/
structure SamePage (p p' : ForumDetail) : Prop where
  user : p'.me = p.me
  shown : p'.finished = p.finished
  post : p'.mPost.mId = p.mPost.mId ∧ p'.mPost.mAuthorEmail = p.mPost.mAuthorEmail
  newPost : p'.mNewPost = p.mNewPost ∨ ∃ q, p'.mNewPost = some q ∧ q.mAuthorEmail = p.mPost.mAuthorEmail
  mine : p'.mIsMyPost = p.mIsMyPost
  author : p'.mAuthor = p.mAuthor

theorem SamePage.refl (p : ForumDetail) : SamePage p p := ⟨rfl, rfl, ⟨rfl, rfl⟩, .inl rfl, rfl, rfl⟩

theorem SamePage.onPage (h : SamePage p p') (hp : OnPage owner me p) : OnPage owner me p' where
  user := h.user.trans hp.user
  shown := h.shown.trans hp.shown
  post := by
    rw [h.post.1, h.post.2]
    exact hp.post
  newPost := by
    rw [h.post.1]
    rcases h.newPost with hnew | ⟨q, hnew, hq⟩
    · rw [hnew]
      exact hp.newPost
    · rw [hnew]
      intro q' hq'
      rw [← Option.some.inj hq', hq]
      exact hp.post
  mine := by
    rw [h.mine, h.post.1, h.author]
    exact hp.mine

theorem samePage_toggle (isOn : Bool) (uname : String) (p : ForumDetail) :
    SamePage p (toggleReplyPopup isOn uname p) := by
  cases isOn <;> exact ⟨rfl, rfl, ⟨rfl, rfl⟩, .inl rfl, rfl, rfl⟩

theorem samePage_act (a : Action) : SamePage p (act d p a).1 := by
  have hsame := SamePage.refl p
  cases a with
  | typeComment text => exact ⟨rfl, rfl, ⟨rfl, rfl⟩, .inl rfl, rfl, rfl⟩
  | onDeleteMenu | onResume => exact hsame
  | onYCardIconTap =>
    simp only [act]
    split <;> exact hsame
  | onCommentTap id =>
    simp only [act, onCommentTap]
    split
    · split
      · exact hsame
      · split
        · exact ⟨rfl, rfl, ⟨rfl, rfl⟩, .inr ⟨_, rfl, rfl⟩, rfl, rfl⟩
        · exact hsame
    · exact hsame
  | onLikeIconTap =>
    simp only [act, onLikeIconTap]
    split
    · exact ⟨rfl, rfl, copy_likeCase, .inr ⟨_, rfl, copy_likeCase.2⟩, rfl, rfl⟩
    · exact hsame
  | onLikeClick pos viewId =>
    simp only [act, onLikeClick]
    split
    · split
      · exact hsame
      · exact ⟨rfl, rfl, ⟨rfl, rfl⟩, .inl rfl, rfl, rfl⟩
    · exact hsame
  | onYCardClick pos =>
    simp only [act, onYCardClick]
    split
    · split
      · exact hsame
      · exact ⟨rfl, rfl, ⟨rfl, rfl⟩, .inl rfl, rfl, rfl⟩
    · exact hsame
  | onReplyClick pos =>
    simp only [act, onReplyClick]
    split
    · split
      · exact hsame
      · exact ⟨rfl, rfl, ⟨rfl, rfl⟩, .inl rfl, rfl, rfl⟩
    · exact hsame
  | onUndoReplyTap =>
    simp only [act]
    split
    · exact samePage_toggle false "" p
    · exact hsame

/-- A tap asks for what the page knows, unless it deletes the post. -/
theorem asks_tapped {a : Action} {qs : List Request} (h : Tapped d p a p' qs) (ha : a ≠ .onDeleteMenu) :
    Reads owner me (some p.mPost.mId) p.mIsMyPost qs := by
  intro q hq
  cases h with
  | quiet => cases hq
  | resume =>
    obtain rfl := List.mem_singleton.mp hq
    exact ⟨show updateFields ∉ settling by decide, rfl⟩
  | comment =>
    obtain rfl := List.mem_singleton.mp hq
    exact ⟨show updateComment ∉ settling by decide, trivial⟩
  | like =>
    obtain ⟨op, rfl⟩ := mem_userUpdateValue hq
    exact ⟨show updateUserLike ∉ settling by decide, fun heq => by cases heq⟩
  | ycard =>
    obtain rfl := List.mem_singleton.mp hq
    exact ⟨show updateUserYCard ∉ settling by decide, fun heq => by cases heq⟩
  | commentLike =>
    obtain rfl := List.mem_singleton.mp hq
    exact ⟨show userUpdateLikeValueComment ∉ settling by decide, fun heq => by cases heq⟩
  | commentYCard =>
    obtain rfl := List.mem_singleton.mp hq
    exact ⟨show userUpdateYCardValueComment ∉ settling by decide, fun heq => by cases heq⟩
  | delete => exact absurd rfl ha

theorem populateInfo_same (h : populateInfo p = some p') : SamePage p p' := by
  obtain ⟨u, -, rfl⟩ := Option.map_eq_some_iff.mp h
  by_cases hy : p.mPost.mId ∈ u.mPostYCards
  · rw [if_pos hy]
    exact ⟨rfl, rfl, ⟨rfl, rfl⟩, .inl rfl, rfl, rfl⟩
  · rw [if_neg hy]
    exact ⟨rfl, rfl, ⟨rfl, rfl⟩, .inl rfl, rfl, rfl⟩

theorem not_settling_after : ∀ a ∈ after, a ∉ settling := by decide

/-- What a reply that settles nothing makes of a page. -/
theorem onPage_replied {i : Intent} {qs : List Request} (h : Replied d p i p' qs) (hi : i.action ∉ settling)
    (ht : Tells owner me (some p.mPost.mId) p.mIsMyPost i) (hp : OnPage owner me p) :
    OnPage owner me p' ∧ p'.mPost.mId = p.mPost.mId ∧ p'.mIsMyPost = p.mIsMyPost ∧
      Reads owner me (some p.mPost.mId) p.mIsMyPost qs := by
  have hgetPost : ∀ {a : String}, a ∉ settling →
      Reads owner me (some p.mPost.mId) p.mIsMyPost (forumGetPostWithId a p.mPost.mId) :=
    fun ha => List.forall_mem_singleton.mpr ⟨ha, rfl⟩
  have hupdatePost : ∀ {a : String} {new : Post}, a ∉ settling → new.mAuthorEmail = owner p.mPost.mId →
      Reads owner me (some p.mPost.mId) p.mIsMyPost (forumUpdatePost a p.mPost new) :=
    fun ha hnew => List.forall_mem_singleton.mpr ⟨ha, hnew⟩
  cases h with
  | ignored => exact ⟨hp, rfl, rfl, fun q hq => by cases hq⟩
  | currentUser =>
    refine ⟨⟨hp.user, hp.shown, hp.post, hp.newPost, hp.mine⟩, rfl, rfl, List.forall_mem_singleton.mpr ⟨?_, ?_⟩⟩
    · show getAuthorInfo ∉ settling
      decide
    · exact fun _ hmine => hp.post.trans (hp.mine hmine).1
  | @author u ha hx =>
    refine ⟨⟨hp.user, hp.shown, hp.post, hp.newPost, fun hmine => ⟨(hp.mine hmine).1, ?_⟩⟩, rfl, rfl,
      List.forall_mem_singleton.mpr ⟨show forumGetCommentsAction ∉ settling by decide, trivial⟩⟩
    unfold Tells at ht
    rw [hx] at ht
    exact .some (ht ha hmine)
  | deletedInPosts ha => exact absurd (ha ▸ by decide) hi
  | deletedInUsers ha => exact absurd (ha ▸ by decide) hi
  | @fields q ha hr hx =>
    unfold Tells at ht
    rw [hx] at ht
    obtain ⟨hid, hq⟩ := ht
    have hid : p.mPost.mId = q.mId := Option.some.inj hid
    refine ⟨⟨hp.user, hp.shown, hq, hid ▸ hp.newPost, hid ▸ hp.mine⟩, hid.symm, rfl,
      List.forall_mem_singleton.mpr ⟨show forumGetCommentsAction ∉ settling by decide, trivial⟩⟩
  | @comments x p₁ ha hr hx hpop =>
    have hsame := populateInfo_same hpop
    have hp₁ : OnPage owner me p₁ := hsame.onPage ⟨hp.user, hp.shown, hp.post, hp.newPost, hp.mine⟩
    exact ⟨⟨hp₁.user, hp₁.shown, hp₁.post, hp₁.newPost, hp₁.mine⟩, hsame.post.1, hsame.mine, fun q hq => by cases hq⟩
  | again ha => exact ⟨hp, rfl, rfl, hgetPost (by rcases ha with rfl | rfl <;> decide)⟩
  | value =>
    exact ⟨⟨hp.user, hp.shown, hp.post, hp.newPost, hp.mine⟩, rfl, rfl, hgetPost (by decide)⟩
  | post _ _ hnew hb => exact ⟨hp, rfl, rfl, hupdatePost (not_settling_after _ hb) (hp.newPost _ hnew)⟩
  | @ycard _ _ _ newPost hnew =>
    have hcopy : newPost.mId = p.mPost.mId ∧ newPost.mAuthorEmail = p.mPost.mAuthorEmail := by
      rw [hnew]
      split <;> exact ⟨rfl, rfl⟩
    have hauthor := hcopy.2.trans hp.post
    refine ⟨?_, hcopy.1, rfl, List.forall_mem_singleton.mpr ⟨show updatePostAfterYCard ∉ settling by decide, ?_⟩⟩
    · have hsame : SamePage p { p with mPost := newPost, mNewPost := some newPost } :=
        ⟨rfl, rfl, hcopy, .inr ⟨newPost, rfl, hcopy.2⟩, rfl, rfl⟩
      exact hsame.onPage hp
    · show newPost.mAuthorEmail = owner newPost.mId
      rw [hcopy.1]
      exact hauthor
  | comment _ _ _ hb => exact ⟨hp, rfl, rfl, List.forall_mem_singleton.mpr ⟨not_settling_after _ hb, trivial⟩⟩

end Page

section Screens

variable {owner} {me : String} {d : Drawables} {x x' : Screen} {qs : List Request}

theorem reads_nil {k : Option String} {mine : Bool} : Reads owner me k mine [] := fun q hq => by cases hq

theorem reads_getUser {k : Option String} {mine : Bool} (silent : Bool) :
    Reads owner me k mine [.getUser CoreActivity.getUserInfo me silent] :=
  List.forall_mem_singleton.mpr ⟨show CoreActivity.getUserInfo ∉ settling by decide, fun _ _ => rfl⟩

theorem reads_getPosts {k : Option String} {mine : Bool} {a : String} (ha : a ∉ settling) :
    Reads owner me k mine (forumGetPosts a) := List.forall_mem_singleton.mpr ⟨ha, trivial⟩

/-- What an activity asks for when it comes to the top. -/
theorem reads_onResume (hx : Kept owner me x) : Reads owner me (shows x) (takes x) x.onResume := by
  cases x with
  | core c =>
    show Reads _ _ _ _ (if c.forumTab then forumGetPosts CoreActivity.repopulateForum else [])
    split
    · exact reads_getPosts (by decide)
    · exact reads_nil
  | profile p =>
    show Reads _ _ _ _ [.getUser CoreActivity.getUserInfo p.me false]
    rw [hx.1]
    exact reads_getUser false
  | form => exact reads_nil
  | detail p =>
    exact List.forall_mem_singleton.mpr ⟨show ForumDetailActivity.updateFields ∉ settling by decide, rfl⟩

theorem kept_replaceFragment {c : Core} (forum : Bool) (hc : Kept owner me (.core c)) :
    Kept owner me (.core (CoreActivity.replaceFragment forum c)) := by
  unfold CoreActivity.replaceFragment
  split
  · exact ⟨hc.1, hc.1⟩
  · exact hc

/-- An activity goes on showing what it shows when it is told something. -/
theorem kept_onReceive {i : Intent} (h : x.onReceive d i = some (x', qs)) (hx : Kept owner me x)
    (hi : i.action ∉ settling) (ht : Tells owner me (shows x) (takes x) i) :
    Kept owner me x' ∧ x'.finished = false ∧ shows x' = shows x ∧ takes x' = takes x ∧
      Reads owner me (shows x) (takes x) qs := by
  have htold : ∀ u, i.action = CoreActivity.getUserInfo → i.extra = some (.user u) → takes x = true → u.mId = me := by
    intro u ha hu hmine
    unfold Tells at ht
    rw [hu] at ht
    exact ht ha hmine
  cases x with
  | core c =>
    obtain ⟨⟨c', qs'⟩, hr, heq⟩ := Option.map_eq_some_iff.mp h
    obtain ⟨rfl, rfl⟩ := Prod.mk.inj heq
    obtain ⟨hc', hqs⟩ := CoreActivity.onReceive_cases hr
    refine ⟨?_, rfl, rfl, rfl, ?_⟩
    · rcases hc' with rfl | ⟨u, ha, hu, rfl⟩ | rfl
      · exact hx
      · exact ⟨.some (htold u ha hu rfl), hx.2⟩
      · exact kept_replaceFragment _ hx
    · rcases hqs with rfl | rfl
      · exact reads_nil
      · exact reads_getPosts (by decide)
  | profile p =>
    obtain ⟨⟨p', qs'⟩, hr, heq⟩ := Option.map_eq_some_iff.mp h
    obtain ⟨rfl, rfl⟩ := Prod.mk.inj heq
    obtain ⟨hp', rfl⟩ := ProfileActivity.onReceive_cases hr
    refine ⟨?_, rfl, rfl, rfl, reads_nil⟩
    rcases hp' with rfl | ⟨u, ha, hu, rfl⟩
    · exact hx
    · exact ⟨hx.1, .some (htold u ha hu rfl)⟩
  | form f =>
    obtain ⟨⟨f', qs'⟩, hr, heq⟩ := Option.map_eq_some_iff.mp h
    obtain ⟨rfl, rfl⟩ := Prod.mk.inj heq
    have hne : i.action ≠ ForumFormActivity.createPostInPosts ∧ i.action ≠ ForumFormActivity.updatePostInPosts ∧
        i.action ≠ ForumFormActivity.updatePostInUsers := by
      refine ⟨?_, ?_, ?_⟩ <;>
      · rintro heq
        rw [heq] at hi
        exact hi (by decide)
    simp only [ForumFormActivity.onReceive, if_neg hne.1, if_neg hne.2.1, if_neg hne.2.2] at hr
    split at hr
    · rename_i ha
      split at hr
      · rename_i u hu
        obtain ⟨rfl, rfl⟩ := Prod.mk.inj (Option.some.inj hr)
        exact ⟨⟨hx.user, hx.shown, .some (htold u ha hu rfl), hx.oldPost⟩, hx.shown, rfl, rfl, reads_nil⟩
      · cases hr
      · obtain ⟨rfl, rfl⟩ := Prod.mk.inj (Option.some.inj hr)
        exact ⟨⟨hx.user, hx.shown, .none me, hx.oldPost⟩, hx.shown, rfl, rfl, reads_nil⟩
    · obtain ⟨rfl, rfl⟩ := Prod.mk.inj (Option.some.inj hr)
      exact ⟨hx, hx.shown, rfl, rfl, reads_nil⟩
  | detail p =>
    obtain ⟨⟨p', qs'⟩, hr, heq⟩ := Option.map_eq_some_iff.mp h
    obtain ⟨rfl, rfl⟩ := Prod.mk.inj heq
    obtain ⟨hp', hid, hmine, hqs⟩ := onPage_replied (ForumDetailActivity.replied_onReceive hr) hi ht hx
    exact ⟨hp', hp'.shown, congrArg some hid, hmine, hqs⟩

def topShows (stack : List Screen) : Option String := stack.head?.bind shows

def topTakes (stack : List Screen) : Bool := (stack.head?.map takes).getD true

theorem reads_resume {stack : List Screen} (h : ∀ x ∈ stack, Kept owner me x) :
    Reads owner me (topShows stack) (topTakes stack) (Session.onResume stack) := by
  cases stack with
  | nil => exact reads_nil
  | cons x rest => exact reads_onResume (h x List.mem_cons_self)

end Screens

/-! ### Phases -/

/-- The user's device, with its activities. -/
structure Device (s : Session) : Prop where
  user : s.me = me
  kept : ∀ x ∈ s.stack, Kept owner me x

/-- The one message of a creation, an edit or a deletion, what it will make right and
what is right already. -/
inductive Working (db : Database) (s : Session) : Send ⊕ Intent → Prop
  | creating {f rest post doc} (hs : s.stack = .form f :: rest) (hnew : f.mNewPost = some post) (hid : post.mId ≠ "")
      (hdoc : doc.userId = me) (howner : owner post.mId = me) (hright : ∀ k, Lists owner db me k) :
      Working db s (.inl (.call (.setPost ForumFormActivity.createPostInPosts post.mId doc)))
  | created {f rest post} (hs : s.stack = .form f :: rest) (hnew : f.mNewPost = some post)
      (howner : owner post.mId = me) (hstored : (db.posts.get post.mId).isSome)
      (hright : ∀ k, k ≠ post.mId → Lists owner db me k) :
      Working db s (.inr ⟨ForumFormActivity.createPostInPosts, true, none⟩)
  | deleting {p rest} (hs : s.stack = .detail p :: rest) (howner : owner p.mPost.mId = me)
      (hright : ∀ k, Lists owner db me k) :
      Working db s (.inl (.call (.deletePost ForumDetailActivity.deletePostInPosts p.mPost.mId)))
  | deleted {p rest} (hs : s.stack = .detail p :: rest) (howner : owner p.mPost.mId = me)
      (hgone : (db.posts.get p.mPost.mId).isSome = false) (hright : ∀ k, k ≠ p.mPost.mId → Lists owner db me k) :
      Working db s (.inr ⟨ForumDetailActivity.deletePostInPosts, true, none⟩)
  | listing {a op k} (ha : a = ForumFormActivity.updatePostInUsers ∨ a = ForumDetailActivity.deletePostInUsers)
      (howner : owner k = me) (hop : (db.posts.get k).isSome ↔ op = .union)
      (hright : ∀ k', k' ≠ k → Lists owner db me k') :
      Working db s (.inl (.call (.updateUserArray a me .posts op k)))
  | editing {id doc} (hdoc : doc.userId = owner id) (hright : ∀ k, Lists owner db me k) :
      Working db s (.inl (.call (.updatePost ForumFormActivity.updatePostInPosts id doc)))
  | ending {a r} (ha : a ∈ [ForumFormActivity.updatePostInPosts, ForumFormActivity.updatePostInUsers,
        ForumDetailActivity.deletePostInUsers]) (hright : ∀ k, Lists owner db me k) :
      Working db s (.inr ⟨a, r, none⟩)

/-- How far the user's device is, with its messages: it reads, and its array is right, or
it has one message of a creation, an edit or a deletion. -/
inductive Phase (db : Database) : Option Session → List (Send ⊕ Intent) → Prop
  | reading {c k mine bs} (hc : ∀ s ∈ c, Device owner me s ∧ topShows s.stack = k ∧ topTakes s.stack = mine)
      (hbs : ∀ b ∈ bs, Reading owner me k mine b) (hright : ∀ k, Lists owner db me k) : Phase db c bs
  | working {s b} (hs : Device owner me s) (hr : s.resumed = true) (hw : Working owner me db s b) : Phase db (some s) [b]

section Phases

variable {owner} {me : String} {d : Drawables} {db db' : Database} {s s' : Session} {qs : List Send}

theorem singleton_of_splice {α : Type*} {l₁ l₂ : List α} {x y : α} (h : l₁ ++ x :: l₂ = [y]) :
    l₁ = [] ∧ y = x ∧ l₂ = [] := by
  cases l₁ with
  | nil =>
    obtain ⟨rfl, rfl⟩ := List.cons.inj h
    exact ⟨rfl, rfl, rfl⟩
  | cons z l₁ =>
    have hlength := congrArg List.length h
    simp at hlength

/-- What others write leaves a user's array right where it was right. -/
theorem Working.frame {b : Send ⊕ Intent} (h : Working owner me db s b) (hf : Frame owner me db db') :
    Working owner me db' s b := by
  cases h with
  | creating hs hnew hid hdoc howner hright =>
    exact .creating hs hnew hid hdoc howner fun k => hf.lists (hright k)
  | created hs hnew howner hstored hright =>
    exact .created hs hnew howner ((hf.posts _ howner).trans hstored) fun k hk => hf.lists (hright k hk)
  | deleting hs howner hright => exact .deleting hs howner fun k => hf.lists (hright k)
  | deleted hs howner hgone hright =>
    exact .deleted hs howner ((hf.posts _ howner).trans hgone) fun k hk => hf.lists (hright k hk)
  | listing ha howner hop hright =>
    exact .listing ha howner (by rw [hf.posts _ howner, hop]) fun k hk => hf.lists (hright k hk)
  | editing hdoc hright => exact .editing hdoc fun k => hf.lists (hright k)
  | ending ha hright => exact .ending ha fun k => hf.lists (hright k)

theorem Phase.frame {c : Option Session} {bs : List (Send ⊕ Intent)} (h : Phase owner me db c bs)
    (hf : Frame owner me db db') : Phase owner me db' c bs := by
  cases h with
  | reading hc hbs hright => exact .reading hc hbs fun k => hf.lists (hright k)
  | working hs hr hw => exact .working hs hr (hw.frame hf)

/-- A device that waits for nothing has its array right. -/
theorem Phase.idle {c : Option Session} (h : Phase owner me db c []) :
    (∀ s ∈ c, Device owner me s) ∧ ∀ k, Lists owner db me k := by
  generalize hbs : ([] : List (Send ⊕ Intent)) = bs at h
  cases h with
  | reading hc _ hright => exact ⟨fun s hs => (hc s hs).1, hright⟩
  | working => cases hbs

theorem Phase.gone_idle {c : Option Session} (h : Phase owner me db c []) : Phase owner me db none [] := by
  have hnone : ∀ s ∈ (none : Option Session), Device owner me s ∧ topShows s.stack = none ∧
      topTakes s.stack = true := fun s hs => by cases hs
  exact .reading hnone (fun b hb => by cases hb) h.idle.2

/-- The device reads on. -/
theorem phase_reads {rs : List Request} (hs : Device owner me s) (hright : ∀ k, Lists owner db me k)
    (h : Reads owner me (topShows s.stack) (topTakes s.stack) rs) :
    Phase owner me db (some s) ((rs.map Send.call).map .inl) := by
  have hdevice : ∀ s' ∈ some s, Device owner me s' ∧ topShows s'.stack = topShows s.stack ∧
      topTakes s'.stack = topTakes s.stack := by
    intro s' hs'
    obtain rfl := Option.some.inj hs'
    exact ⟨hs, rfl, rfl⟩
  refine .reading hdevice (fun b hb => ?_) hright
  obtain ⟨q, hq, rfl⟩ := List.mem_map.mp hb
  obtain ⟨r, hr, rfl⟩ := List.mem_map.mp hq
  exact h r hr

/-! ### What the user does -/

/-- The actions that may start a creation, an edit or a deletion. -/
inductive Started (d : Drawables) (s : Session) : NavAction → Session → List Send → Prop
  | stays {a} : Started d s a s []
  | page {p rest a} (hr : s.resumed = true) (hs : s.stack = .detail p :: rest) :
      Started d s (.page a) { s with stack := .detail (ForumDetailActivity.act d p a).1 :: rest }
        ((ForumDetailActivity.act d p a).2.map .call)
  | edit {p rest f rs} (hs : s.stack = .detail p :: rest) (hmine : p.mIsMyPost = true)
      (hf : ForumFormActivity.onCreate s.me p.mAuthor (some p.mPost) = some (f, rs)) :
      Started d s .openEdit { s with stack := .form f :: s.stack } (rs.map .call)
  | post {f rest id f' rs} (hr : s.resumed = true) (hs : s.stack = .form f :: rest)
      (hf : ForumFormActivity.onPostTap f id = some (f', rs)) :
      Started d s (.onPostTap id) { s with stack := .form f' :: rest } (rs.map .call)

theorem started_act {a : NavAction} (h : Session.act d s a = some (s', qs))
    (ha : (∃ t, a = .page t) ∨ a = .openEdit ∨ ∃ id, a = .onPostTap id) : Started d s a s' qs := by
  have hstays : some (s, []) = some (s', qs) → Started d s a s' qs := by
    intro heq
    obtain ⟨rfl, rfl⟩ := Prod.mk.inj (Option.some.inj heq)
    exact .stays
  obtain ⟨me, stack, resumed⟩ := s
  cases resumed with
  | false => rcases ha with ⟨t, rfl⟩ | rfl | ⟨id, rfl⟩ <;> exact hstays h
  | true =>
    cases stack with
    | nil => rcases ha with ⟨t, rfl⟩ | rfl | ⟨id, rfl⟩ <;> exact hstays h
    | cons x rest =>
      cases x with
      | core | profile => rcases ha with ⟨t, rfl⟩ | rfl | ⟨id, rfl⟩ <;> exact hstays h
      | form f =>
        rcases ha with ⟨t, rfl⟩ | rfl | ⟨id, rfl⟩
        · exact hstays h
        · exact hstays h
        · obtain ⟨⟨f', rs⟩, hf, heq⟩ := Option.map_eq_some_iff.mp h
          obtain ⟨rfl, rfl⟩ := Prod.mk.inj heq
          exact .post rfl rfl hf
      | detail p =>
        rcases ha with ⟨t, rfl⟩ | rfl | ⟨id, rfl⟩
        · obtain ⟨rfl, rfl⟩ := Prod.mk.inj (Option.some.inj h)
          exact .page rfl rfl
        · cases hmine : p.mIsMyPost with
          | false =>
            refine hstays (Eq.trans ?_ h)
            simp [Session.act, hmine]
          | true =>
            have hpush : Session.pushForm ⟨me, .detail p :: rest, true⟩ p.mAuthor (some p.mPost) = some (s', qs) := by
              rw [← h]
              simp [Session.act, hmine]
            obtain ⟨⟨f, rs⟩, hf, heq⟩ := Option.map_eq_some_iff.mp hpush
            obtain ⟨rfl, rfl⟩ := Prod.mk.inj heq
            exact .edit rfl hmine hf
        · exact hstays h

/-- An activity is changed, or another one comes over it. -/
theorem Device.replace {x y : Screen} {rest : List Screen} (h : Device owner me s) (hs : s.stack = x :: rest)
    (hy : Kept owner me y) : Device owner me { s with stack := y :: rest } where
  user := h.user
  kept := List.forall_mem_cons.mpr ⟨hy, fun z hz => h.kept z (by rw [hs]; exact .tail _ hz)⟩

theorem Device.push {y : Screen} (h : Device owner me s) (hy : Kept owner me y) :
    Device owner me { s with stack := y :: s.stack } where
  user := h.user
  kept := List.forall_mem_cons.mpr ⟨hy, h.kept⟩

/-- What the user opens, but for the form of an edit. -/
theorem kept_opens {a : NavAction} {x y : Screen} {rs : List Request} (h : Session.Opens me a x y rs)
    (hx : Kept owner me x) (ha : a ≠ .openEdit)
    (hpost : ∀ post, a = .openPost post → post.mAuthorEmail = owner post.mId) :
    Kept owner me y ∧ Reads owner me (shows y) (takes y) rs := by
  cases h with
  | form h =>
    obtain ⟨u, hu, heq⟩ := Option.map_eq_some_iff.mp h
    obtain ⟨rfl, rfl⟩ := Prod.mk.inj heq
    exact ⟨⟨rfl, rfl, hu ▸ hx.1, fun q hq => by cases hq⟩, reads_getUser true⟩
  | edit => exact absurd rfl ha
  | ofForum h => exact onPage_onCreate h (hpost _ rfl) hx.2
  | ofProfile h => exact onPage_onCreate h (hpost _ rfl) hx.2
  | profile => exact ⟨⟨rfl, .none me⟩, reads_getUser false⟩

/-- The form of an edit is opened over the page of the user's own post. -/
theorem kept_edit {p : ForumDetail} {f : ForumForm} {rs : List Request}
    (h : ForumFormActivity.onCreate me p.mAuthor (some p.mPost) = some (f, rs)) (hp : OnPage owner me p)
    (hmine : p.mIsMyPost = true) : OnForm owner me f ∧ Reads owner me none true rs := by
  obtain ⟨u, hu, heq⟩ := Option.map_eq_some_iff.mp h
  obtain ⟨rfl, rfl⟩ := Prod.mk.inj heq
  refine ⟨⟨rfl, rfl, hu ▸ (hp.mine hmine).2, fun q hq => ?_⟩, reads_getUser true⟩
  obtain rfl := Option.some.inj hq
  exact (hp.mine hmine).1

/-- The form is posted: a new post, or the edit of one by the user. -/
theorem working_post {f f' : ForumForm} {id : String} {rest : List Screen} {rs : List Request}
    (h : ForumFormActivity.onPostTap f id = some (f', rs)) (hs : s.stack = .form f' :: rest)
    (hf : OnForm owner me f) (hid : id ≠ "") (howner : owner id = me) (hright : ∀ k, Lists owner db me k) :
    OnForm owner me f' ∧ (rs = [] ∨ ∃ q, rs = [q] ∧ Working owner me db s (.inl (.call q))) := by
  obtain ⟨author, hauthor, heq⟩ := Option.map_eq_some_iff.mp h
  obtain ⟨rfl, rfl⟩ := Prod.mk.inj heq
  have hme : author.mId = me := hf.author author hauthor
  refine ⟨⟨hf.user, hf.shown, hf.author, hf.oldPost⟩, ?_⟩
  split
  · cases hold : f.mOldPost with
    | none => exact .inr ⟨_, rfl, .creating hs rfl hid hme howner hright⟩
    | some old => exact .inr ⟨_, rfl, .editing (hme.trans (hf.oldPost old hold).symm) hright⟩
  · exact .inl rfl

/-- Whatever the user does next, the device reads, or has started one thing. -/
theorem phase_act {a : NavAction} (h : Session.act d s a = some (s', qs)) (hs : Device owner me s)
    (hright : ∀ k, Lists owner db me k) (hpost : ∀ post, a = .openPost post → post.mAuthorEmail = owner post.mId)
    (hid : ∀ id, a = .onPostTap id → id ≠ "" ∧ owner id = me) : Phase owner me db (some s') (qs.map .inl) := by
  by_cases ha : (∃ t, a = .page t) ∨ a = .openEdit ∨ ∃ id, a = .onPostTap id
  · cases started_act h ha with
    | stays => exact phase_reads hs hright reads_nil
    | @page p rest t hr hstack =>
      have hp : OnPage owner me p := hs.kept (.detail p) (by rw [hstack]; exact List.mem_cons_self)
      have hs' := hs.replace hstack (show Kept owner me (.detail _) from (samePage_act (d := d) t).onPage hp)
      by_cases ht : t = .onDeleteMenu
      · subst ht
        cases hmine : p.mIsMyPost with
        | false =>
          have hnil : (ForumDetailActivity.act d p .onDeleteMenu).2 = [] := if_neg (by rw [hmine]; decide)
          rw [hnil]
          exact phase_reads hs' hright reads_nil
        | true =>
          have hone : (ForumDetailActivity.act d p .onDeleteMenu).2 =
              forumDeletePost ForumDetailActivity.deletePostInPosts p.mPost.mId := if_pos hmine
          rw [hone]
          exact .working hs' hr (.deleting rfl (hp.mine hmine).1 hright)
      · refine phase_reads hs' hright ?_
        have hasks : Reads owner me _ _ _ := asks_tapped (ForumDetailActivity.tapped_act d p t) ht
        have hsame := samePage_act (d := d) (p := p) t
        rw [← hsame.post.1, ← hsame.mine] at hasks
        exact hasks
    | @edit p rest f rs hstack hmine hf =>
      have hp : OnPage owner me p := hs.kept (.detail p) (by rw [hstack]; exact List.mem_cons_self)
      obtain ⟨hform, hreads⟩ := kept_edit (hs.user ▸ hf) hp hmine
      exact phase_reads (hs.push (show Kept owner me (.form f) from hform)) hright hreads
    | @post f rest id f' rs hr hstack hf =>
      have hform : OnForm owner me f := hs.kept (.form f) (by rw [hstack]; exact List.mem_cons_self)
      obtain ⟨hne, howner⟩ := hid id rfl
      obtain ⟨hform', hrs⟩ := working_post (s := { s with stack := .form f' :: rest }) hf rfl hform hne howner hright
      have hs' := hs.replace hstack (show Kept owner me (.form f') from hform')
      rcases hrs with rfl | ⟨q, rfl, hw⟩
      · exact phase_reads hs' hright reads_nil
      · exact .working hs' hr hw
  · simp only [not_or, not_exists] at ha
    obtain ⟨hpage, hedit, htap⟩ := ha
    cases Session.moved_act h with
    | stays => exact phase_reads hs hright reads_nil
    | news => exact phase_reads hs hright (reads_getPosts (by decide))
    | pauses => exact phase_reads (s := { s with resumed := false }) ⟨hs.user, hs.kept⟩ hright reads_nil
    | resumes => exact phase_reads (s := { s with resumed := true }) ⟨hs.user, hs.kept⟩ hright (reads_resume hs.kept)
    | @back x rest hstack =>
      have hrest : ∀ y ∈ rest, Kept owner me y := fun y hy => hs.kept y (by rw [hstack]; exact .tail _ hy)
      exact phase_reads (s := { s with stack := rest }) ⟨hs.user, hrest⟩ hright (reads_resume hrest)
    | @opens _ x rest y rs hstack hopen =>
      obtain ⟨hy, hreads⟩ := kept_opens (hs.user ▸ hopen) (hs.kept x (by rw [hstack]; exact List.mem_cons_self))
        hedit hpost
      exact phase_reads (hs.push hy) hright hreads
    | @turns _ x x' rest rs hstack hturn =>
      have hx := hs.kept x (by rw [hstack]; exact List.mem_cons_self)
      cases hturn with
      | replaceFragment => exact phase_reads (hs.replace hstack (kept_replaceFragment _ hx)) hright reads_nil
      | fill =>
        have hform : OnForm owner me _ := hx
        exact phase_reads (hs.replace hstack (show Kept owner me (.form _) from
          ⟨hform.user, hform.shown, hform.author, hform.oldPost⟩)) hright reads_nil
      | onPostTap => exact absurd rfl (htap _)
      | page => exact absurd rfl (hpage _)

/-! ### What the backend does -/

/-- A write of a creation or a deletion. -/
def posting : Send → Bool
  | .call (.setPost ..) | .call (.deletePost ..) => true
  | .call (.updateUserArray _ _ f _ _) => f = .posts
  | _ => false

theorem answer_write {ok : Bool} {a : String} {w : Option Database} {out : List (Request ⊕ Intent)}
    (h : write db a ok w = some (db', out)) : ∃ r, out = [.inr ⟨a, r, none⟩] := by
  unfold write at h
  split at h <;>
  · obtain ⟨-, rfl⟩ := Prod.mk.inj (Option.some.inj h)
    exact ⟨_, rfl⟩

/-- The write of a creation, an edit or a deletion goes on, and is nothing to other users. -/
theorem working_exec {ok : Bool} {q : Send} {out : List (Send ⊕ Intent)} (h : q.exec ok db = some (db', out))
    (hdb : Authors owner db) (hw : Working owner me db s (.inl q)) (hok : posting q = true → ok = true) :
    Authors owner db' ∧ (∀ u, u ≠ me → Frame owner u db db') ∧ ∃ b, out = [b] ∧ Working owner me db' s b := by
  generalize hm : (Sum.inl q : Send ⊕ Intent) = m at hw
  have hne : ∀ {k u : String}, owner k = me → u ≠ me → owner k ≠ u := fun howner hu heq => hu (heq.symm.trans howner)
  cases hw with
  | @creating f rest post doc hs hnew hid hdoc howner hright =>
    obtain rfl := Sum.inl.inj hm
    obtain rfl := hok rfl
    obtain ⟨rfl, rfl⟩ := Prod.mk.inj (Option.some.inj h)
    have hothers : ∀ k, k ≠ post.mId → (db.posts.set post.mId doc).get k = db.posts.get k :=
      fun k hk => Collection.get_set_ne _ _ hk
    refine ⟨authors_set hdb (hdoc.trans howner.symm), fun u hu => frame_posts hothers (hne howner hu), _, rfl, ?_⟩
    refine .created hs hnew howner ?_ fun k hk => lists_posts hothers hk (hright k)
    show ((db.posts.set post.mId doc).get post.mId).isSome = true
    rw [Collection.get_set_self _ _ hid]
    rfl
  | @deleting p rest hs howner hright =>
    obtain rfl := Sum.inl.inj hm
    obtain rfl := hok rfl
    obtain ⟨rfl, rfl⟩ := Prod.mk.inj (Option.some.inj h)
    have hothers : ∀ k, k ≠ p.mPost.mId → (db.posts.delete p.mPost.mId).get k = db.posts.get k :=
      fun k hk => Collection.get_delete_ne _ hk
    refine ⟨Collection.forall_delete hdb _, fun u hu => frame_posts hothers (hne howner hu), _, rfl, ?_⟩
    refine .deleted hs howner ?_ fun k hk => lists_posts hothers hk (hright k)
    show ((db.posts.delete p.mPost.mId).get p.mPost.mId).isSome = false
    rw [Collection.get_delete_self]
    rfl
  | @listing a op k ha howner hop hright =>
    obtain rfl := Sum.inl.inj hm
    obtain rfl := hok rfl
    have hend : a ∈ [ForumFormActivity.updatePostInPosts, ForumFormActivity.updatePostInUsers,
        ForumDetailActivity.deletePostInUsers] := by
      rcases ha with rfl | rfl <;> decide
    cases hu : db.users.update me (·.updateArray .posts op k) with
    | some us =>
      simp only [Send.exec, DBUtil.exec, write, hu, Option.map_some] at h
      obtain ⟨rfl, rfl⟩ := Prod.mk.inj (Option.some.inj h)
      refine ⟨hdb, fun u hu' => frame_array hu hu', _, rfl, .ending hend (lists_array hu ?_ hright)⟩
      rw [← hop]
      exact and_iff_left howner
    | none =>
      simp only [Send.exec, DBUtil.exec, write, hu, Option.map_none, Option.map_some] at h
      obtain ⟨rfl, rfl⟩ := Prod.mk.inj (Option.some.inj h)
      -- a user who is not stored has no array
      refine ⟨hdb, fun u _ => .refl u db, _, rfl, .ending hend fun k doc hdoc => ?_⟩
      rw [Collection.update_isSome hdoc] at hu
      cases hu
  | @editing id doc hdoc hright =>
    obtain rfl := Sum.inl.inj hm
    obtain ⟨⟨db₁, out₁⟩, hr, heq⟩ := Option.map_eq_some_iff.mp h
    obtain ⟨rfl, rfl⟩ := Prod.mk.inj heq
    obtain ⟨hdb', hframe, -⟩ := @asks_exec owner me none true _ _ _ _ _ hr hdb hdoc
    obtain ⟨r, rfl⟩ := answer_write hr
    exact ⟨hdb', fun u _ => hframe u, _, rfl, .ending (by decide) fun k => (hframe me).lists (hright k)⟩
  | created | deleted | ending => cases hm

/-- A write does not throw. -/
theorem working_exec_isSome {ok : Bool} {q : Send} (hw : Working owner me db s (.inl q)) :
    (q.exec ok db).isSome = true := by
  have hwrite : ∀ (a : String) (w : Option Database), (write db a ok w).isSome = true := by
    intro a w
    unfold write
    split <;> rfl
  generalize hm : (Sum.inl q : Send ⊕ Intent) = m at hw
  cases hw with
  | created | deleted | ending => cases hm
  | _ =>
    obtain rfl := Sum.inl.inj hm
    exact (Option.isSome_map).trans (hwrite _ _)

/-! ### What the device is told -/

theorem recv_shown {i : Intent} {x x' : Screen} {rest : List Screen} {rs : List Request} (hr : s.resumed = true)
    (hs : s.stack = x :: rest) (hx : x.onReceive d i = some (x', rs)) (hf : x'.finished = false) :
    Session.recv d s i = some ({ s with stack := x' :: rest }, rs.map .call) := by
  simp [Session.recv, hr, hs, hx, hf]

theorem recv_finished {i : Intent} {x x' : Screen} {rest : List Screen} {rs : List Request} (hr : s.resumed = true)
    (hs : s.stack = x :: rest) (hx : x.onReceive d i = some (x', rs)) (hf : x'.finished = true) :
    Session.recv d s i = some ({ s with stack := rest }, rs.map .call ++
      (if x'.updatesForum then [.broadcast ⟨CoreActivity.updateForum, false, none⟩] else []) ++
        (Session.onResume rest).map .call) := by
  simp [Session.recv, hr, hs, hx, hf]

/-- The last reply of a creation, an edit or a deletion ends the activity, or nothing. -/
theorem ending_onReceive {a : String} (x : Screen) (r : Bool) (ha : a ∈ [ForumFormActivity.updatePostInPosts,
    ForumFormActivity.updatePostInUsers, ForumDetailActivity.deletePostInUsers]) :
    ∃ x', x.onReceive d ⟨a, r, none⟩ = some (x', []) ∧ (x' = x ∨ x'.finished = true) := by
  simp only [List.mem_cons, List.not_mem_nil, or_false] at ha
  rcases ha with rfl | rfl | rfl <;> cases x <;> cases r <;>
    first
    | exact ⟨_, rfl, .inl rfl⟩
    | exact ⟨_, rfl, .inr rfl⟩

/-- The reply of a creation, an edit or a deletion goes on with it, or is the last one. -/
theorem working_recv {i : Intent} (hw : Working owner me db s (.inr i)) (hs : Device owner me s)
    (hr : s.resumed = true) :
    ∃ s' qs, Session.recv d s i = some (s', qs) ∧ Phase owner me db (some s') (qs.map .inl) := by
  generalize hm : (Sum.inr i : Send ⊕ Intent) = m at hw
  cases hw with
  | creating | deleting | listing | editing => cases hm
  | @created f rest post hstack hnew howner hstored hright =>
    obtain rfl := Sum.inr.inj hm
    have hform : OnForm owner me f := hs.kept (.form f) (by rw [hstack]; exact List.mem_cons_self)
    have hx : (Screen.form f).onReceive d ⟨ForumFormActivity.createPostInPosts, true, none⟩ = some (.form f,
        [.updateUserArray ForumFormActivity.updatePostInUsers f.me .posts .union post.mId]) := by
      simp [Screen.onReceive, ForumFormActivity.onReceive, ForumFormActivity.getUserInfo,
        ForumFormActivity.createPostInPosts, hnew, userUpdatePostsValue, userUpdateValue, caseAdd]
    refine ⟨_, _, recv_shown hr hstack hx hform.shown, .working (hs.replace hstack hform) hr ?_⟩
    rw [hform.user]
    exact .listing (.inl rfl) howner (iff_of_true hstored rfl) hright
  | @deleted p rest hstack howner hgone hright =>
    obtain rfl := Sum.inr.inj hm
    have hpage : OnPage owner me p := hs.kept (.detail p) (by rw [hstack]; exact List.mem_cons_self)
    have hx : (Screen.detail p).onReceive d ⟨ForumDetailActivity.deletePostInPosts, true, none⟩ = some (.detail p,
        [.updateUserArray ForumDetailActivity.deletePostInUsers p.me .posts .remove p.mPost.mId]) := rfl
    refine ⟨_, _, recv_shown hr hstack hx hpage.shown, .working (hs.replace hstack hpage) hr ?_⟩
    rw [hpage.user]
    exact .listing (.inr rfl) howner (iff_of_false (by rw [hgone]; decide) (by decide)) hright
  | @ending a r ha hright =>
    obtain rfl := Sum.inr.inj hm
    cases hstack : s.stack with
    | nil =>
      refine ⟨s, [], ?_, phase_reads hs hright reads_nil⟩
      simp [Session.recv, hr, hstack]
    | cons x rest =>
      obtain ⟨x', hx, hx'⟩ := ending_onReceive (d := d) x r ha
      have hkept : Kept owner me x := hs.kept x (by rw [hstack]; exact List.mem_cons_self)
      have hrest : ∀ y ∈ rest, Kept owner me y := fun y hy => hs.kept y (by rw [hstack]; exact .tail _ hy)
      cases hf : x'.finished with
      | false =>
        obtain rfl : x' = x := hx'.resolve_right fun htrue => by
          rw [hf] at htrue
          cases htrue
        exact ⟨_, _, recv_shown hr hstack hx hf, phase_reads (hs.replace hstack hkept) hright reads_nil⟩
      | true =>
        refine ⟨_, _, recv_finished hr hstack hx hf, ?_⟩
        have hdevice : ∀ s' ∈ some { s with stack := rest }, Device owner me s' ∧
            topShows s'.stack = topShows rest ∧ topTakes s'.stack = topTakes rest := by
          intro s' hs'
          obtain rfl := Option.some.inj hs'
          exact ⟨⟨hs.user, hrest⟩, rfl, rfl⟩
        refine .reading hdevice (fun b hb => ?_) hright
        obtain ⟨q, hq, rfl⟩ := List.mem_map.mp hb
        rcases List.mem_append.mp hq with hq | hq
        · rw [List.map_nil, List.nil_append] at hq
          split at hq
          · obtain rfl := List.mem_singleton.mp hq
            exact ⟨show CoreActivity.updateForum ∉ settling by decide, trivial⟩
          · cases hq
        · obtain ⟨request, hrequest, rfl⟩ := List.mem_map.mp hq
          exact reads_resume hrest request hrequest

/-- A device that reads, reads on. -/
theorem reading_recv {i : Intent} {k : Option String} {mine : Bool} (h : Session.recv d s i = some (s', qs))
    (hs : Device owner me s ∧ topShows s.stack = k ∧ topTakes s.stack = mine)
    (hi : Reading owner me k mine (.inr i)) :
    (Device owner me s' ∧ topShows s'.stack = k ∧ topTakes s'.stack = mine) ∧
      ∀ q ∈ qs, Reading owner me k mine (.inl q) := by
  obtain ⟨hdevice, rfl, rfl⟩ := hs
  have hkept : ∀ {x rest}, s.stack = x :: rest → Kept owner me x ∧
      Tells owner me (shows x) (takes x) i := by
    intro x rest hstack
    have ht := hi.2
    rw [hstack] at ht
    exact ⟨hdevice.kept x (by rw [hstack]; exact List.mem_cons_self), ht⟩
  cases Session.received_recv h with
  | ignores => exact ⟨⟨hdevice, rfl, rfl⟩, fun q hq => by cases hq⟩
  | handles hr hstack hx hf =>
    obtain ⟨hx', -, hshows, htakes, hreads⟩ := kept_onReceive hx (hkept hstack).1 hi.1 (hkept hstack).2
    rw [hstack]
    refine ⟨⟨hdevice.replace hstack hx', hshows, htakes⟩, fun q hq => ?_⟩
    obtain ⟨r, hr', rfl⟩ := List.mem_map.mp hq
    exact hreads r hr'
  | finishes hr hstack hx hf =>
    obtain ⟨-, hnot, -⟩ := kept_onReceive hx (hkept hstack).1 hi.1 (hkept hstack).2
    rw [hf] at hnot
    cases hnot

end Phases

/-! ### Runs -/

/-- The user `me` has just signed in. -/
def signedIn (me : String) : Session := ⟨me, [.core (CoreActivity.onCreate me).1], true⟩

/-- What `CoreActivity` asks for first. -/
def starts (me : String) : List Send :=
  ((CoreActivity.onCreate me).2 ++ Session.onResume (signedIn me).stack).map .call

/-- A device for each of the users. -/
def devices (d : Drawables) (db : Database) (users : List String) : NavConf where
  store := db
  client i := users[i]?.map signedIn
  net := (List.range users.length).flatMap fun i =>
    issue (nav d) i (signedIn (users.getD i "")) (starts (users.getD i ""))

/-- What users open are copies of posts, by their authors, and the ids that are
generated on a device are its user's. -/
def authored (s : NavConf) : Ev NavAction → Bool
  | .act _ (.openPost post) => post.mAuthorEmail == owner post.mId
  | .act i (.onPostTap id) => id != "" && (s.client i).all fun c => owner id == c.me
  | _ => true

/-- The writes of creations and deletions succeed. -/
def writesPass (s : NavConf) : Ev NavAction → Bool
  | .exec n ok => ok || (requestAt s n).all fun q => !posting q
  | _ => true

section Runs

variable {owner} {d : Drawables} {users : List String}

/-- Device `i` is the one of the user in this place. -/
def Progress (owner : String → String) (users : List String) (i : ℕ) (db : Database) (c : Option Session)
    (bs : List (Send ⊕ Intent)) : Prop :=
  match users[i]? with
  | some me => Phase owner me db c bs
  | none => c = none ∧ bs = []

/-- Posts are by their authors, and the arrays of the users without a device are right. -/
structure Stored (owner : String → String) (users : List String) (db : Database) : Prop where
  authors : Authors owner db
  others : ∀ u, u ∉ users → ∀ k, Lists owner db u k

theorem Stored.frame {db db' : Database} (h : Stored owner users db) (hdb' : Authors owner db')
    (hf : ∀ u, u ∉ users → Frame owner u db db') : Stored owner users db' :=
  ⟨hdb', fun u hu k => (hf u hu).lists (h.others u hu k)⟩

theorem progress_of_some {i : ℕ} {me : String} (hme : users[i]? = some me) (db : Database) (c : Option Session)
    (bs : List (Send ⊕ Intent)) : Progress owner users i db c bs ↔ Phase owner me db c bs := by
  unfold Progress
  rw [hme]

/-- With messages of its own a device is there. -/
theorem Progress.user {i : ℕ} {db : Database} {c : Option Session} {b : Send ⊕ Intent} {l₁ l₂ : List (Send ⊕ Intent)}
    (h : Progress owner users i db c (l₁ ++ b :: l₂)) : ∃ me, users[i]? = some me := by
  cases hme : users[i]? with
  | some me => exact ⟨me, rfl⟩
  | none =>
    unfold Progress at h
    rw [hme] at h
    simp at h

theorem Progress.frame {i : ℕ} {db db' : Database} {c : Option Session} {bs : List (Send ⊕ Intent)}
    (h : Progress owner users i db c bs) (hf : ∀ u, users[i]? = some u → Frame owner u db db') :
    Progress owner users i db' c bs := by
  cases hu : users[i]? with
  | some u =>
    rw [progress_of_some hu] at h ⊢
    exact h.frame (hf u hu)
  | none =>
    unfold Progress at h ⊢
    rw [hu] at h ⊢
    exact h

/-- What is allowed, besides waiting. -/
def allowed (owner : String → String) (s : NavConf) (e : Ev NavAction) : Bool := authored owner s e && writesPass s e

theorem allowed_act {s : NavConf} {i : ℕ} {a : NavAction} {c : Session} (h : allowed owner s (.act i a) = true)
    (hc : s.client i = some c) : (∀ post, a = .openPost post → post.mAuthorEmail = owner post.mId) ∧
      ∀ id, a = .onPostTap id → id ≠ "" ∧ owner id = c.me := by
  have hauthored := (Bool.and_eq_true_iff.mp h).1
  constructor
  · rintro post rfl
    exact beq_iff_eq.mp hauthored
  · rintro id rfl
    simpa [authored, hc] using hauthored

/-- A phase's message is carried out. -/
theorem phase_exec {me : String} {ok : Bool} {q : Send} {db db' : Database} {c : Option Session}
    {l₁ l₂ out : List (Send ⊕ Intent)} (h : q.exec ok db = some (db', out)) (hdb : Authors owner db)
    (hp : Phase owner me db c (l₁ ++ .inl q :: l₂)) (hok : posting q = true → ok = true) :
    Authors owner db' ∧ (∀ u, u ≠ me → Frame owner u db db') ∧ Phase owner me db' c (l₁ ++ out ++ l₂) := by
  generalize hbs : l₁ ++ .inl q :: l₂ = bs at hp
  cases hp with
  | reading hc hbs' hright =>
    subst hbs
    obtain ⟨hdb', hframe, hout⟩ := reading_exec h hdb (hbs' (.inl q) (by simp))
    exact ⟨hdb', fun u _ => hframe u,
      .reading hc (forall_splice hbs' hout) fun k => (hframe me).lists (hright k)⟩
  | working hs hr hw =>
    obtain ⟨rfl, heq, rfl⟩ := singleton_of_splice hbs
    obtain ⟨hdb', hframe, b, rfl, hw'⟩ := working_exec h hdb (heq ▸ hw) hok
    exact ⟨hdb', hframe, .working hs hr hw'⟩

/-- A device that is gone leaves only messages that change no list. -/
theorem phase_gone {me : String} {db : Database} {c : Option Session} {x : Send ⊕ Intent} {l₁ l₂ : List (Send ⊕ Intent)}
    (hp : Phase owner me db c (l₁ ++ x :: l₂)) (hx : ∀ s, c = some s → Device owner me s → s.resumed = true →
      ¬ Working owner me db s x) : Phase owner me db none (l₁ ++ l₂) := by
  generalize hbs : l₁ ++ x :: l₂ = bs at hp
  cases hp with
  | reading hc hbs' hright =>
    subst hbs
    exact .reading (fun s hs => by cases hs) (forall_drop hbs') hright
  | working hs hr hw =>
    obtain ⟨rfl, rfl, rfl⟩ := singleton_of_splice hbs
    exact absurd hw (hx _ rfl hs hr)

theorem locals (d : Drawables) (hnodup : users.Nodup) :
    Locals (nav d) (fun s e => waits s e = true ∧ allowed owner s e = true) (Stored owner users)
      (Progress owner users) where
  act s i a c c' qs ho hc ha hD hI := by
    cases hu : users[i]? with
    | none =>
      unfold Progress at hI
      rw [hu] at hI
      cases hI.1
    | some me =>
      rw [progress_of_some hu] at hI ⊢
      obtain ⟨hdevice, hright⟩ := hI.idle
      obtain ⟨hpost, hid⟩ := allowed_act ho.2 hc
      have hs := hdevice c rfl
      exact phase_act ha hs hright hpost (hs.user ▸ hid)
  actThrows i st c hI := by
    cases hu : users[i]? with
    | none =>
      unfold Progress at hI
      rw [hu] at hI
      cases hI.1
    | some me =>
      rw [progress_of_some hu] at hI ⊢
      exact hI.gone_idle
  exec s n b i t q st l₁ l₂ out ho hn he hD hI := by
    obtain ⟨me, hme⟩ := hI.user
    rw [progress_of_some hme] at hI ⊢
    have hok : posting q = true → b = true := by
      intro hq
      have hpass := (Bool.and_eq_true_iff.mp ho.2).2
      simpa [writesPass, requestAt, hn, hq] using hpass
    obtain ⟨hauthors, hframe, hphase⟩ := phase_exec he hD.authors hI hok
    have hmem : me ∈ users := List.mem_of_getElem? hme
    refine ⟨hD.frame hauthors fun u hu => hframe u fun heq => hu (heq ▸ hmem), hphase, fun j hj c bs hJ => ?_⟩
    refine hJ.frame fun u hu => hframe u ?_
    rintro rfl
    exact hj ((List.getElem?_inj (List.getElem?_eq_some_iff.mp hu).1 hnodup).mp (hu.trans hme.symm))
  execThrows i b q st c l₁ l₂ he hI := by
    obtain ⟨me, hme⟩ := hI.user
    rw [progress_of_some hme] at hI ⊢
    refine phase_gone hI fun s _ _ _ hw => ?_
    have hsome : (q.exec b st).isSome = true := working_exec_isSome hw
    change q.exec b st = none at he
    rw [he] at hsome
    cases hsome
  recv i r st c c' qs l₁ l₂ hr hD hI := by
    obtain ⟨me, hme⟩ := hI.user
    rw [progress_of_some hme] at hI ⊢
    generalize hbs : l₁ ++ .inr r :: l₂ = bs at hI
    cases hI with
    | reading hc hbs' hright =>
      subst hbs
      obtain ⟨hc', hqs⟩ := reading_recv hr (hc c rfl) (hbs' (.inr r) (by simp))
      refine .reading (fun s hs => ?_) (forall_splice hbs' fun m hm => ?_) hright
      · obtain rfl := Option.some.inj hs
        exact hc'
      · obtain ⟨q, hq, rfl⟩ := List.mem_map.mp hm
        exact hqs q hq
    | working hs hres hw =>
      obtain ⟨rfl, heq, rfl⟩ := singleton_of_splice hbs
      obtain ⟨s', qs', hrecv, hphase⟩ := working_recv (d := d) (heq ▸ hw) hs hres
      obtain ⟨rfl, rfl⟩ := Prod.mk.inj (Option.some.inj (hrecv.symm.trans hr))
      simpa using hphase
  recvThrows i r st c l₁ l₂ hr hI := by
    obtain ⟨me, hme⟩ := hI.user
    rw [progress_of_some hme] at hI ⊢
    refine phase_gone hI fun s hs hdevice hres hw => ?_
    obtain rfl := Option.some.inj hs
    obtain ⟨s', qs', hrecv, -⟩ := working_recv (d := d) hw hdevice hres
    cases hrecv.symm.trans hr
  drop i r st l₁ l₂ hI := by
    obtain ⟨me, hme⟩ := hI.user
    rw [progress_of_some hme] at hI ⊢
    exact phase_gone hI fun s hs => by cases hs

theorem device_signedIn (me : String) : Device owner me (signedIn me) where
  user := rfl
  kept := List.forall_mem_singleton.mpr ⟨.none me, .none me⟩

/-- The devices as they are switched on. -/
theorem local_devices {db : Database} (hdb : Authors owner db) (hright : ∀ u k, Lists owner db u k) :
    Local (Stored owner users) (Progress owner users) (devices d db users) where
  store := ⟨hdb, fun u _ => hright u⟩
  client i := by
    have hown : own i (devices d db users).net = if i < users.length then
        (starts (users.getD i "")).map .inl else [] :=
      own_starts (nav d) i users.length (fun i => signedIn (users.getD i "")) fun i => starts (users.getD i "")
    rw [hown]
    cases hu : users[i]? with
    | none =>
      unfold Progress
      rw [hu, if_neg (Nat.not_lt.mpr (List.getElem?_eq_none_iff.mp hu))]
      refine ⟨?_, rfl⟩
      show users[i]?.map signedIn = none
      rw [hu]
      rfl
    | some me =>
      have hclient : (devices d db users).client i = some (signedIn me) := by
        show users[i]?.map signedIn = _
        rw [hu]
        rfl
      have hget : users.getD i "" = me := by rw [List.getD_eq_getElem?_getD, hu]; rfl
      rw [progress_of_some hu, hclient, if_pos (List.getElem?_eq_some_iff.mp hu).1, hget]
      exact phase_reads (device_signedIn me) (hright me) (reads_getUser false)

/-- **The posts arrays are right**: whenever a user waits for nothing, the array has
the ids of the stored posts by this user and no others, whatever all the users do
meanwhile, as long as no two of them make one id. -/
theorem posts_listed (owner : String → String) (d : Drawables) (users : List String) (db : Database) (s : NavConf)
    (hnodup : users.Nodup) (hdb : Authors owner db) (hlisted : ∀ u, Listed db u)
    (h : Reach (nav d) (fun s e => waits s e = true ∧ allowed owner s e = true) (devices d db users) s) :
    ∀ u, (∀ i, users[i]? = some u → own i s.net = []) → Listed s.store u := by
  intro u hquiet
  have hright : ∀ u k, Lists owner db u k := fun u => (listed_iff hdb).mpr (hlisted u)
  have hlocal := (@locals owner users d hnodup).reach (local_devices hdb hright) h
  refine (listed_iff hlocal.store.authors).mp ?_
  by_cases hu : u ∈ users
  · obtain ⟨i, hi⟩ := List.mem_iff_getElem?.mp hu
    have hphase := hlocal.client i
    rw [progress_of_some hi, hquiet i hi] at hphase
    exact hphase.idle.2
  · exact hlocal.store.others u hu

end Runs

/-! Ann and Bob post at the same time, and Ann deletes her first post. -/

def postOwner (id : String) : String := if id = otherPostId then "bob@mail.com" else "ann@mail.com"

open Forum in
def bothPost : List (Ev NavAction) :=
  [carry, carry, arrive, carry, carry, arrive, .act 0 (.replaceFragment true), .act 1 (.replaceFragment true),
    .act 0 .openForm, .act 1 .openForm, carry, carry, arrive, carry, carry, arrive,
    .act 0 (.fill "A draw" "at last" 0 0), .act 1 (.fill "A pity" "" 0 0), .act 0 (.onPostTap newPostId),
    .act 1 (.onPostTap otherPostId), .exec 0 true, .exec 1 true, .deliver 1, .deliver 0, .exec 0 true, .exec 1 true,
    arrive, carry, arrive, carry, carry, arrive, carry, carry, arrive, arrive, carry, arrive, carry, carry, arrive,
    carry, carry, arrive, .act 0 (.openPost (postOfDoc derbyId derby)), carry, carry, arrive, carry, carry, arrive,
    carry, arrive, carry, carry, arrive, carry, arrive, .act 0 (.page .onDeleteMenu), carry, arrive, carry, arrive,
    carry, carry, arrive]

theorem listed_derbyDb (u : String) : Listed Forum.derbyDb u := by
  have hposts : ∀ e ∈ Forum.derbyDb.posts.toList, e.1 = derbyId ∧ e.2.userId = "ann@mail.com" := by decide
  have hderby : Forum.derbyDb.posts.get derbyId = some Forum.derby := by decide
  have husers : ∀ e ∈ Forum.derbyDb.users.toList, e.1 = "ann@mail.com" ∧ e.2.posts = [derbyId] ∨
      e.1 ≠ "ann@mail.com" ∧ e.2.posts = [] := by decide
  intro doc hdoc k
  have hstored : (∃ post, Forum.derbyDb.posts.get k = some post ∧ post.userId = u) ↔
      k = derbyId ∧ u = "ann@mail.com" := by
    constructor
    · rintro ⟨post, hpost, rfl⟩
      exact hposts (k, post) (Collection.mem_toList.mpr hpost)
    · rintro ⟨rfl, rfl⟩
      exact ⟨_, hderby, rfl⟩
  rw [hstored]
  rcases husers (u, doc) (Collection.mem_toList.mpr hdoc) with ⟨rfl, hlist⟩ | ⟨hne, hlist⟩
  · change doc.posts = [derbyId] at hlist
    rw [hlist, List.mem_singleton, and_iff_left rfl]
  · change doc.posts = [] at hlist
    rw [hlist]
    exact iff_of_false List.not_mem_nil fun h => hne h.2

theorem posts_listed_derby :
    ∃ s, Reach (nav plainDrawables) (fun s e => waits s e = true ∧ allowed postOwner s e = true)
        (devices plainDrawables Forum.derbyDb ["ann@mail.com", "bob@mail.com"]) s ∧
      s.net.length = 0 ∧ s.store.users.toList.map (fun e => (e.1, e.2.posts)) =
        [("ann@mail.com", [newPostId]), ("bob@mail.com", [otherPostId])] ∧
      ∀ u, (∀ i, ["ann@mail.com", "bob@mail.com"][i]? = some u → own i s.net = []) → Listed s.store u := by
  obtain ⟨s, hr, hs⟩ := @reach_of_test _ _ _ _ _ _ (nav plainDrawables)
    (fun s e => waits s e && allowed postOwner s e)
    (devices plainDrawables Forum.derbyDb ["ann@mail.com", "bob@mail.com"]) bothPost
    (fun s => decide (s.net.length = 0 ∧ s.store.users.toList.map (fun e => (e.1, e.2.posts)) =
      [("ann@mail.com", [newPostId]), ("bob@mail.com", [otherPostId])])) (by decide)
  obtain ⟨hnet, husers⟩ := of_decide_eq_true hs
  have hreach := hr.mono fun _ _ h => Bool.and_eq_true_iff.mp h
  exact ⟨s, hreach, hnet, husers, posts_listed postOwner plainDrawables ["ann@mail.com", "bob@mail.com"] Forum.derbyDb s
    (by decide) (fun id post hpost => (show ∀ e ∈ Forum.derbyDb.posts.toList, e.2.userId = postOwner e.1 by decide)
      (id, post) (Collection.mem_toList.mpr hpost)) listed_derbyDb hreach⟩

end PostLists
end FootballGallery
