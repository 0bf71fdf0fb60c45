/-
# `b_core/ForumFormActivity`: the form of a new or an edited post

The form writes a post that its constructor makes from the title, the content
and the two spinners. With a post to edit the whole map of this post goes to
the old document, so what the constructor resets is written as well: the
likes, the yellow cards and the comments are gone.

Key definitions: `ForumForm`, `onPostTap`, `onReceive`, `edited`.
Key theorems: `onPostTap_edit`, `edit_frame_iff`.
-/
import FootballGallery.DBUtil
import FootballGallery.StringUtil

namespace FootballGallery

/-- The form. `me` is the email of the signed-in user, `updateForum` says that the
broadcast `UPDATE_FORUM` has been sent. -/
structure ForumForm where
  me : String
  mNewPost : Option Post
  mOldPost : Option Post
  mOldPostIds : List String
  mAuthor : Option User
  mSp_league : ℤ
  mSp_category : ℤ
  mEt_title : String
  mEt_content : String
  updateForum : Bool
  finished : Bool
deriving DecidableEq

namespace ForumFormActivity

open DBUtil

def getUserInfo := "GET_USER_INFO"
def createPostInPosts := "CREATE_POST_IN_POSTS"
def updatePostInPosts := "UPDATE_POST_IN_POSTS"
def updatePostInUsers := "UPDATE_POST_IN_USERS"

/-- `onCreate` with the extras `EXTRA_USER`, which both callers put, and
`EXTRA_POST_TO_EDIT`; a `null` user throws. -/
def onCreate (me : String) (author : Option User) (postToEdit : Option Post) :
    Option (ForumForm × List Request) :=
  author.map fun u =>
    ({ me := me
       mNewPost := none
       mOldPost := postToEdit
       mOldPostIds := u.getPostIds
       mAuthor := some u
       mSp_league := (postToEdit.map (·.mFilter)).getD 0
       mSp_category := (postToEdit.map (·.mCategory)).getD 0
       mEt_title := (postToEdit.map (·.mTitle)).getD ""
       mEt_content := (postToEdit.map (·.mDesc)).getD ""
       updateForum := false
       finished := false },
      userGetUserDetailWithEmail getUserInfo me)

/-- The post that `onPostTap` makes; `id` is what `generateId` returns. -/
def newPost (f : ForumForm) (author : User) (id : String) : Post :=
  ((((((Post.new id f.mEt_title f.mEt_content f.mSp_category f.mSp_league).setAuthor
    author.mId).setLeague f.mSp_league).setCategory f.mSp_category).setAuthorUname
    author.mUName).setAuthorEmblemLeagueInt author.mEmblemLeague).setAuthorEmblemTeamInt
    author.mEmblemTeam

/-- `onPostTap`; a `null` author throws. -/
def onPostTap (f : ForumForm) (id : String) : Option (ForumForm × List Request) :=
  f.mAuthor.map fun author =>
    let post := newPost f author id
    ({ f with mNewPost := some post },
      if StringUtil.isFieldValid [f.mEt_title] then
        match f.mOldPost with
        | some oldPost => forumUpdatePost updatePostInPosts oldPost post
        | none => forumCreatePost createPostInPosts post
      else [])

/-- `Receiver.onReceive`; a cast to the wrong class and a `null` object throw. -/
def onReceive (f : ForumForm) (intent : Intent) : Option (ForumForm × List Request) :=
  if intent.action = getUserInfo then
    match intent.extra with
    | some (.user u) => some ({ f with mAuthor := some u }, [])
    | some _ => none
    | none => some ({ f with mAuthor := none }, [])
  else if intent.action = createPostInPosts then
    match intent.result, f.mNewPost with
    | true, some post => some (f, userUpdatePostsValue f.me updatePostInUsers post.mId 1)
    | true, none => none
    | false, _ => some (f, [])
  else if intent.action = updatePostInPosts then
    some (if intent.result then { f with finished := true } else f, [])
  else if intent.action = updatePostInUsers then
    some (if intent.result then { f with updateForum := true, finished := true } else f, [])
  else some (f, [])

/-- What a reply makes of the form: its user is told, or the new post is listed. -/
theorem onReceive_cases {f f' : ForumForm} {i : Intent} {qs : List Request}
    (h : onReceive f i = some (f', qs)) :
    f'.mOldPost = f.mOldPost ∧
      (f'.mAuthor = f.mAuthor ∨ f'.mAuthor = none ∨
        ∃ u, i.action = getUserInfo ∧ i.extra = some (.user u) ∧ f'.mAuthor = some u) ∧
      (qs = [] ∨ ∃ id, qs = userUpdatePostsValue f.me updatePostInUsers id 1) := by
  unfold onReceive at h
  split at h
  · rename_i ha
    split at h
    · rename_i u hx
      obtain ⟨rfl, rfl⟩ := Prod.mk.inj (Option.some.inj h)
      exact ⟨rfl, .inr (.inr ⟨u, ha, hx, rfl⟩), .inl rfl⟩
    · cases h
    · obtain ⟨rfl, rfl⟩ := Prod.mk.inj (Option.some.inj h)
      exact ⟨rfl, .inr (.inl rfl), .inl rfl⟩
  · split at h
    · split at h
      · obtain ⟨rfl, rfl⟩ := Prod.mk.inj (Option.some.inj h)
        exact ⟨rfl, .inl rfl, .inr ⟨_, rfl⟩⟩
      · cases h
      · obtain ⟨rfl, rfl⟩ := Prod.mk.inj (Option.some.inj h)
        exact ⟨rfl, .inl rfl, .inl rfl⟩
    · split at h
      · obtain ⟨rfl, rfl⟩ := Prod.mk.inj (Option.some.inj h)
        split
        · exact ⟨rfl, .inl rfl, .inl rfl⟩
        · exact ⟨rfl, .inl rfl, .inl rfl⟩
      · split at h
        · obtain ⟨rfl, rfl⟩ := Prod.mk.inj (Option.some.inj h)
          split
          · exact ⟨rfl, .inl rfl, .inl rfl⟩
          · exact ⟨rfl, .inl rfl, .inl rfl⟩
        · obtain ⟨rfl, rfl⟩ := Prod.mk.inj (Option.some.inj h)
          exact ⟨rfl, .inl rfl, .inl rfl⟩

/-! ### Editing a post -/

/-- The document `doc` with what the form edits. -/
def edited (f : ForumForm) (doc : PostDoc) : PostDoc :=
  { doc with
    title := f.mEt_title
    description := f.mEt_content
    category := f.mSp_category
    filter := f.mSp_league }

/-- The document as the edit leaves it: what the constructor resets is reset. -/
def rewritten (f : ForumForm) (doc : PostDoc) : PostDoc :=
  { edited f doc with like := 0, yellowcard := 0, comments := [] }

theorem rewritten_eq_edited (f : ForumForm) (doc : PostDoc) :
    rewritten f doc = edited f doc ↔ doc.like = 0 ∧ doc.yellowcard = 0 ∧ doc.comments = [] := by
  simp only [rewritten, edited, PostDoc.mk.injEq, true_and]
  constructor
  · rintro ⟨hcomments, hlike, hycard⟩
    exact ⟨hlike.symm, hycard.symm, hcomments.symm⟩
  · rintro ⟨hlike, hycard, hcomments⟩
    exact ⟨hcomments.symm, hlike.symm, hycard.symm⟩

/-- From `db` to `db'` nothing changes but what the form edits in `doc`. -/
structure EditFrame (f : ForumForm) (id : String) (doc : PostDoc) (db db' : Database) : Prop where
  post : db'.posts.get id = some (edited f doc)
  others : ∀ id', id' ≠ id → db'.posts.get id' = db.posts.get id'
  comments : db'.comments = db.comments
  users : db'.users = db.users
  accounts : db'.accounts = db.accounts

/-- What the form writes over the document of `userId`'s post. -/
theorem postMap_newPost (f : ForumForm) (author : User) (id : String) (doc : PostDoc)
    (h : author.mId = doc.userId) :
    postMap (newPost f author id) = rewritten f doc := by
  simp [postMap, newPost, Post.new, rewritten, edited, h]

section Edit

variable {f : ForumForm} {old : Post} {author : User} {doc : PostDoc} {db : Database}
  (hold : f.mOldPost = some old) (hauthor : f.mAuthor = some author)
  (hdoc : db.posts.get old.mId = some doc) (hown : author.mId = doc.userId)
  (htitle : StringUtil.isFieldValid [f.mEt_title] = true) (id : String)

include hold hauthor hdoc hown htitle

/-- The edit of a stored post succeeds and writes one document. -/
theorem onPostTap_edit :
    ∃ f' qs, onPostTap f id = some (f', qs) ∧
      carryOut db qs = some { db with posts := db.posts.set old.mId (rewritten f doc) } := by
  refine ⟨_, _, by rw [onPostTap, hauthor]; rfl, ?_⟩
  rw [if_pos htitle, hold]
  simp only [forumUpdatePost, carryOut, exec, write, DocStore.Collection.update_isSome hdoc,
    postMap_newPost f author id doc hown, Option.map_some, Option.bind_some]

/-- **An edit keeps the rest of a post exactly when there is nothing to lose**: no
like, no yellow card and no comment. -/
theorem edit_frame_iff :
    (∃ f' qs db', onPostTap f id = some (f', qs) ∧ carryOut db qs = some db' ∧
        EditFrame f old.mId doc db db') ↔
      doc.like = 0 ∧ doc.yellowcard = 0 ∧ doc.comments = [] := by
  obtain ⟨f', qs, htap, hrun⟩ := onPostTap_edit hold hauthor hdoc hown htitle id
  have hid := DocStore.Collection.ne_of_get hdoc
  constructor
  · rintro ⟨f'', qs', db', htap', hrun', hframe⟩
    rw [htap] at htap'
    obtain ⟨rfl, rfl⟩ := Prod.mk.inj (Option.some.inj htap')
    obtain rfl := Option.some.inj (hrun.symm.trans hrun')
    have hpost := hframe.post
    rw [DocStore.Collection.get_set_self _ _ hid] at hpost
    exact (rewritten_eq_edited f doc).mp (Option.some.inj hpost)
  · intro hempty
    have hsame := (rewritten_eq_edited f doc).mpr hempty
    refine ⟨f', qs, _, htap, hrun, ?_, ?_, rfl, rfl, rfl⟩
    · rw [hsame]
      exact DocStore.Collection.get_set_self _ _ hid
    · intro id' hne
      exact DocStore.Collection.get_set_ne _ _ hne

end Edit

/-! An author corrects the title of a post that has a like and a comment. -/

def likedDoc : PostDoc where
  category := 1
  comments := ["comment_02-01-2022-08-00-00"]
  description := "What a match."
  filter := 0
  like := 1
  title := "Derby dya"
  userId := "ann@mail.com"
  yellowcard := 0

/-- The post with the document `doc`, alone. -/
def onePost (doc : PostDoc) : Database where
  posts := (DocStore.Collection.empty).set "post_01-01-2022-08-00-00" doc
  comments := .empty
  users := .empty
  accounts := .empty

def correction : ForumForm where
  me := "ann@mail.com"
  mNewPost := none
  mOldPost := some (postOfDoc "post_01-01-2022-08-00-00" likedDoc)
  mOldPostIds := []
  mAuthor := some (.brief "ann@mail.com" "ann" 0 12)
  mSp_league := 0
  mSp_category := 1
  mEt_title := "Derby day"
  mEt_content := "What a match."
  updateForum := false
  finished := false

theorem edit_loses_like :
    ¬ ∃ f' qs db', onPostTap correction "post_03-01-2022-08-00-00" = some (f', qs) ∧
      carryOut (onePost likedDoc) qs = some db' ∧
      EditFrame correction "post_01-01-2022-08-00-00" likedDoc (onePost likedDoc) db' := by
  rintro ⟨f', qs, db', htap, hrun, hframe⟩
  have h : ((onPostTap correction "post_03-01-2022-08-00-00").bind fun r => carryOut (onePost likedDoc) r.2).bind
      (fun db => db.posts.get "post_01-01-2022-08-00-00") = some (rewritten correction likedDoc) := by
    decide
  rw [htap, Option.bind_some, hrun, Option.bind_some, hframe.post] at h
  exact absurd (Option.some.inj h) (by decide)

/-- The same correction before anybody has reacted. -/
def freshDoc : PostDoc := { likedDoc with like := 0, comments := [] }

theorem edit_frame_iff_fresh :
    (∃ f' qs db', onPostTap correction "post_03-01-2022-08-00-00" = some (f', qs) ∧
        carryOut (onePost freshDoc) qs = some db' ∧
        EditFrame correction "post_01-01-2022-08-00-00" freshDoc (onePost freshDoc) db') ↔
      freshDoc.like = 0 ∧ freshDoc.yellowcard = 0 ∧ freshDoc.comments = [] :=
  edit_frame_iff (show correction.mOldPost = some (postOfDoc "post_01-01-2022-08-00-00" likedDoc) from rfl)
    (show correction.mAuthor = some (.brief "ann@mail.com" "ann" 0 12) from rfl) (by decide) rfl
    (by decide) _

end ForumFormActivity
end FootballGallery
