/-
# `f_utils/DBUtil`: the backend calls

Every operation of `DBUtil` starts a backend task and sends the reply from the
task's listeners. `Request` lists the tasks with all their listeners know, the
operations (under the source's names) say which task they start, and `exec`
carries a task out: with success or failure, on the database it finds, it
changes the database and either sends a reply, goes on with the nested task of
the listener, sends nothing (a listener that is not there), or throws.

A document's map has all fields of its collection, so an `update` with it
overwrites the whole document, but fails where there is none. A `get` of a
missing document succeeds with a snapshot whose fields are `null`; the
listeners read fields from it and throw.

Key definitions: `Request`, `Intent`, `exec`, and the steps `stepOne` to
`stepFour` of `forum_get_comments`.
-/
import FootballGallery.Objects

namespace FootballGallery

open DocStore

/-- What a broadcast carries as `EXTRA_SERIALIZABLE`. -/
inductive Extra where
  | user (u : User)
  | post (p : Post)
  | posts (ps : List Post)
  | comments (cs : List Comment)
deriving DecidableEq

/-- A broadcast: its action string, `EXTRA_BOOLEAN` and `EXTRA_SERIALIZABLE`. -/
structure Intent where
  action : String
  result : Bool
  extra : Option Extra
deriving DecidableEq

/-- The arrays of a `users` document. -/
inductive UserArray where
  | posts | postLikes | postYCards | commentLikes | commentYCards
deriving DecidableEq

/-- `FieldValue.arrayUnion` and `FieldValue.arrayRemove`. -/
inductive ArrayOp where
  | union | remove
deriving DecidableEq

def ArrayOp.apply (v : String) : ArrayOp → List String → List String
  | .union, l => if v ∈ l then l else l ++ [v]
  | .remove, l => l.filter (· ≠ v)

namespace UserDoc

def array (d : UserDoc) : UserArray → List String
  | .posts => d.posts
  | .postLikes => d.postLikes
  | .postYCards => d.postYCards
  | .commentLikes => d.commentLikes
  | .commentYCards => d.commentYCards

def setArray (d : UserDoc) (l : List String) : UserArray → UserDoc
  | .posts => { d with posts := l }
  | .postLikes => { d with postLikes := l }
  | .postYCards => { d with postYCards := l }
  | .commentLikes => { d with commentLikes := l }
  | .commentYCards => { d with commentYCards := l }

/-- `update(field, arrayUnion(value))` and `update(field, arrayRemove(value))`. -/
def updateArray (f : UserArray) (op : ArrayOp) (v : String) (d : UserDoc) : UserDoc :=
  d.setArray (op.apply v (d.array f)) f

end UserDoc

/-- A backend task under way, with the action its listeners reply to. -/
inductive Request where
  /-- `signInWithEmailAndPassword` -/
  | signIn (action email password : String)
  /-- `fetchSignInMethodsForEmail` -/
  | fetchSignIn (action email : String) (case : ℤ)
  /-- `createUserWithEmailAndPassword` -/
  | createAccount (action email password : String)
  /-- `users`: `set` -/
  | setUser (action docId : String) (doc : UserDoc)
  /-- `users`: `whereEqualTo(username)` -/
  | queryUsername (action username : String)
  /-- `users`: `update` of the whole profile -/
  | updateUser (action docId : String) (doc : UserDoc)
  /-- `users`: `update` of one array -/
  | updateUserArray (action docId : String) (field : UserArray) (op : ArrayOp) (value : String)
  /-- `users`: `get`, the first task of the user details; `silent` has an empty failure listener -/
  | getUser (action docId : String) (silent : Bool)
  /-- `posts`: `whereEqualTo(userId)`, the second task of the user details -/
  | getUserPosts (action userEmail : String) (doc : UserDoc)
  /-- `posts`: the query of `forum_check_update` -/
  | countPosts (action : String) (originalCount : ℕ)
  /-- `posts`: the query of `forum_get_posts` -/
  | getPosts (action : String)
  /-- the tasks of `forum_get_post_step_two` -/
  | getPostsStepTwo (action : String) (postIds uIds : List String)
  /-- `posts`: `set` -/
  | setPost (action docId : String) (doc : PostDoc)
  /-- `posts`: `update` -/
  | updatePost (action docId : String) (doc : PostDoc)
  /-- `posts`: `get`, the first task of `forum_get_post_with_id` -/
  | getPost (action docId : String)
  /-- `users`: `get`, the second task of `forum_get_post_with_id` -/
  | getPostAuthor (action : String) (newPost : Post)
  /-- `posts`: `delete` -/
  | deletePost (action docId : String)
  /-- `comments`: `set` -/
  | setComment (action docId : String) (doc : CommentDoc)
  /-- `comments`: `update`, without a failure listener -/
  | updateComment (action docId : String) (doc : CommentDoc)
  /-- `comments`: `delete` -/
  | deleteComment (action docId : String)
  /-- the four steps of `forum_get_comments` -/
  | getComments (action : String) (commentIds : List String)
  | getCommentsStepTwo (action : String) (commentIds authorIds : List String)
  | getCommentsStepThree (action : String) (snapshot1 : List (String × CommentDoc))
      (mentionIds : List String) (authors : List User)
  | getCommentsStepFour (action : String) (snapshot1 : List (String × CommentDoc))
      (mentionIds : List String) (authors : List User) (mentionUserIds : List String)
deriving DecidableEq

/-- The action that a request's replies have. -/
def Request.action : Request → String
  | .signIn a .. | .fetchSignIn a .. | .createAccount a .. | .setUser a .. | .queryUsername a ..
  | .updateUser a .. | .updateUserArray a .. | .getUser a .. | .getUserPosts a .. | .countPosts a ..
  | .getPosts a | .getPostsStepTwo a .. | .setPost a .. | .updatePost a .. | .getPost a ..
  | .getPostAuthor a .. | .deletePost a .. | .setComment a .. | .updateComment a ..
  | .deleteComment a .. | .getComments a .. | .getCommentsStepTwo a .. | .getCommentsStepThree a ..
  | .getCommentsStepFour a .. => a

namespace DBUtil

def caseRemove : ℤ := -1
def caseUpdate : ℤ := 0
def caseAdd : ℤ := 1

def caseLogin : ℤ := 0
def caseSignup : ℤ := 1

/-! ### Which task an operation starts -/

def authLogin (action email password : String) : List Request := [.signIn action email password]

def authVerifyEmail (action email : String) (case : ℤ) : List Request :=
  [.fetchSignIn action email case]

def authSignupCreateAccount (action email password : String) : List Request :=
  [.createAccount action email password]

def userCreateInUsers (action : String) (user : User) : List Request :=
  [.setUser action user.mId
    { username := user.mUName
      photo := user.mPhoto
      emblemLeague := user.mEmblemLeague
      emblemTeam := user.mEmblemTeam
      posts := []
      postLikes := []
      postYCards := []
      commentLikes := []
      commentYCards := [] }]

def userVerifyUsername (action username : String) : List Request := [.queryUsername action username]

def userUpdateProfile (action : String) (oldUser newUser : User) : List Request :=
  [.updateUser action oldUser.mId
    { username := newUser.mUName
      photo := newUser.mPhoto
      emblemLeague := newUser.mEmblemLeague
      emblemTeam := newUser.mEmblemTeam
      posts := newUser.getPostIds
      postLikes := newUser.mPostLikes
      postYCards := newUser.mPostYCards
      commentLikes := newUser.mCommentLikes
      commentYCards := newUser.mCommentYCards }]

section Signed

-- the email of `FirebaseAuth.getInstance().getCurrentUser()`
variable (me : String)

/-- The operations that add a value to an array of the signed-in user or remove
it; with any other case they start no task and so send no reply. -/
def userUpdateValue (field : UserArray) (action newValue : String) (case : ℤ) : List Request :=
  if case = caseAdd then [.updateUserArray action me field .union newValue]
  else if case = caseRemove then [.updateUserArray action me field .remove newValue]
  else []

def userUpdatePostsValue := userUpdateValue me .posts

def userUpdatePostLikesValue := userUpdateValue me .postLikes

def userUpdateCommentLikesValue := userUpdateValue me .commentLikes

def userUpdatePostYCardValue (action newValue : String) : List Request :=
  [.updateUserArray action me .postYCards .union newValue]

def userUpdateCommentYCardValue (action newValue : String) : List Request :=
  [.updateUserArray action me .commentYCards .union newValue]

def userGetUserInfo (action : String) : List Request := [.getUser action me false]

end Signed

def userGetUserDetailWithEmail (action userEmail : String) : List Request :=
  [.getUser action userEmail true]

def forumCheckUpdate (action : String) (originalCount : ℕ) : List Request :=
  [.countPosts action originalCount]

def forumGetPosts (action : String) : List Request := [.getPosts action]

/-- The map that `forum_create_post` and `forum_update_post` fill. -/
def postMap (p : Post) : PostDoc where
  category := p.mCategory
  comments := p.mComments
  description := p.mDesc
  filter := p.mFilter
  like := p.mLikes
  title := p.mTitle
  userId := p.mAuthorEmail
  yellowcard := p.mYCards

def forumCreatePost (action : String) (newPost : Post) : List Request :=
  [.setPost action newPost.mId (postMap newPost)]

def forumUpdatePost (action : String) (oldPost newPost : Post) : List Request :=
  [.updatePost action oldPost.mId (postMap newPost)]

def forumGetPostWithId (action postId : String) : List Request := [.getPost action postId]

def forumDeletePost (action postId : String) : List Request := [.deletePost action postId]

/-- The map of a comment with the given description and like count. -/
def commentMap (description : String) (like : ℤ) (c : Comment) : CommentDoc where
  description := description
  postId := c.mPostId
  userId := c.mAuthor.mId
  like := like
  yellowcard := c.mYCards
  parentId := c.mParentId
  mentionId := c.mMentionId

def forumCreateComment (fromHtml : String → String) (action : String) (c : Comment) : List Request :=
  [.setComment action c.mId (commentMap (c.getDesc fromHtml) c.mLikes c)]

def forumUpdateCommentInComments (action : String) (c : Comment) (case : ℤ) : List Request :=
  if case = caseAdd then [.setComment action c.mId (commentMap c.getRawDesc c.mLikes c)]
  else if case = caseUpdate then [.updateComment action c.mId (commentMap c.getRawDesc c.mLikes c)]
  else if case = caseRemove then [.deleteComment action c.mId]
  else []

def forumUpdateLikeOnComment (action : String) (c : Comment) (case : ℤ) : List Request :=
  [.updateComment action c.mId
    (commentMap c.getRawDesc (if case = caseAdd then c.mLikes + 1 else c.mLikes - 1) c)]

def forumGetComments (action : String) (commentIds : List String) : List Request :=
  [.getComments action commentIds]

/-! ### What the listeners read -/

/-- The user of `user_get_user_info` and `user_get_user_detail_with_email`. -/
def userOfDoc (userEmail : String) (d : UserDoc) (posts : List Post) : User where
  mId := userEmail
  mUName := d.username
  mPosts := posts
  mPostLikes := d.postLikes
  mPostYCards := d.postYCards
  mCommentLikes := d.commentLikes
  mCommentYCards := d.commentYCards
  mPhoto := d.photo
  mEmblemLeague := d.emblemLeague
  mEmblemTeam := d.emblemTeam

/-- A post of the user details. -/
def postOfUser (id : String) (d : PostDoc) : Post :=
  .ofFields id d.userId d.title d.description d.category d.filter d.like d.yellowcard d.comments

/-- A post of `forum_get_post_with_id` and `forum_get_post_step_two`, without
its author's name and emblem. -/
def postOfDoc (id : String) (d : PostDoc) : Post :=
  ((((((Post.new "" d.title d.description d.category d.filter).setLikes d.like).setYCard
    d.yellowcard).setId id).setComments d.comments).setCategory d.category).setLeague d.filter
    |>.setAuthor d.userId

/-- The author's name and emblem, set from the author's document. -/
def withAuthor (p : Post) (d : UserDoc) : Post :=
  ((p.setAuthorUname d.username).setAuthorEmblemLeagueInt d.emblemLeague).setAuthorEmblemTeamInt
    d.emblemTeam

/-- `forum_get_post_step_two`: the posts' snapshots with their authors. -/
def getPostStepTwo (db : Database) (postIds uIds : List String) : Option (List Post) :=
  (postIds.zip uIds).mapM fun (e : String × String) => do
    let doc1 ← db.posts.get e.1
    let doc2 ← db.users.get e.2
    return withAuthor (postOfDoc e.1 doc1) doc2

/-! ### `forum_get_comments` -/

/-- Step one: the ids of the listed comments that are stored, and their authors'. -/
def stepOne (db : Database) (commentIds : List String) : List (String × String) :=
  (db.comments.toList.filter fun e => e.1 ∈ commentIds).map fun e => (e.1, e.2.userId)

/-- Step two: the comments' snapshots with their authors. A comment that went away
since step one has a `null` mention id, on which step three throws; here the
exception comes with step two. -/
def stepTwo (db : Database) (commentIds authorIds : List String) :
    Option (List ((String × CommentDoc) × User)) :=
  (commentIds.zip authorIds).mapM fun e => do
    let doc1 ← db.comments.get e.1
    let doc2 ← db.users.get e.2
    return ((e.1, doc1), User.brief e.2 doc2.username doc2.emblemLeague doc2.emblemTeam)

/-- Step three: the authors of the comments that `mentionIds` name. -/
def stepThree (db : Database) (mentionIds : List String) : List String :=
  mentionIds.flatMap fun m => (db.comments.toList.filter fun e => m = e.1).map (·.2.userId)

/-- Step four, the join: the names of the users `mentionUserIds`. -/
def usernames (db : Database) (mentionUserIds : List String) : List String :=
  mentionUserIds.flatMap fun u => (db.users.toList.filter fun e => u = e.1).map (·.2.username)

/-- Step four, the loop that hands the names out: `x` runs over the names, and
a name that is not there is an `IndexOutOfBoundsException`. -/
def fillMentions (mentionUsernames : List String) : ℕ → List (String × CommentDoc) → Option (List String)
  | _, [] => some []
  | x, s :: ss =>
    if s.2.mentionId.length > 0 then
      match mentionUsernames[x]? with
      | none => none
      | some n => (fillMentions mentionUsernames (x + 1) ss).map (n :: ·)
    else (fillMentions mentionUsernames x ss).map ("" :: ·)

/-- Step four: the comments. -/
def stepFour (db : Database) (snapshot1 : List (String × CommentDoc)) (authors : List User)
    (mentionUserIds : List String) : Option (List Comment) :=
  (fillMentions (usernames db mentionUserIds) 0 snapshot1).map fun newMentionUsernames =>
    ((snapshot1.zip authors).zip newMentionUsernames).map fun e =>
      (Comment.new "" e.1.1.2.postId e.1.2 e.2 e.1.1.2.description e.1.1.2.parentId
        e.1.1.2.mentionId).setId e.1.1.1

/-! ### Carrying a task out -/

/-- What a listener does after its own task: go on with `q`. -/
abbrev goOn (q : Request) : List (Request ⊕ Intent) := [.inl q]

/-- What a listener does after its own task: `sendBroadcast`. -/
abbrev sendBroadcast (action : String) (result : Bool) (x : Option Extra) : List (Request ⊕ Intent) :=
  [.inr ⟨action, result, x⟩]

/-- A write with a success and a failure listener; `w` is the written database,
if the write is possible. -/
def write (db : Database) (action : String) (ok : Bool) (w : Option Database) :
    Option (Database × List (Request ⊕ Intent)) :=
  match ok, w with
  | true, some db' => some (db', sendBroadcast action true none)
  | _, _ => some (db, sendBroadcast action false none)

def exec (ok : Bool) (db : Database) : Request → Option (Database × List (Request ⊕ Intent))
  | .signIn a email pwd =>
    some (db, sendBroadcast a (ok && db.accounts.get email == some pwd) none)
  | .fetchSignIn a email case =>
    -- the complete listener calls `getResult` on the failed task before the failure listener runs
    if ok then
      some (db, sendBroadcast a
        (if (db.accounts.get email).isSome then case == caseLogin else !(case == caseLogin)) none)
    else none
  | .createAccount a email pwd =>
    write db a ok
      (if (db.accounts.get email).isSome || email == "" then none
       else some { db with accounts := db.accounts.set email pwd })
  | .setUser a id doc => write db a ok (some { db with users := db.users.set id doc })
  | .queryUsername a name =>
    if ok then
      some (db, sendBroadcast a (decide ((db.users.toList.filter (·.2.username = name)).length ≤ 0)) none)
    else some (db, sendBroadcast a false none ++ sendBroadcast a false none)
  | .updateUser a id doc =>
    write db a ok ((db.users.update id fun _ => doc).map fun us => { db with users := us })
  | .updateUserArray a id f op v =>
    write db a ok ((db.users.update id (·.updateArray f op v)).map fun us => { db with users := us })
  | .getUser a id silent =>
    if ok then
      match db.users.get id with
      | none => none
      | some d => some (db, goOn (.getUserPosts a id d))
    else if silent then some (db, [])
    else some (db, sendBroadcast a false none)
  | .getUserPosts a email d =>
    if ok then
      let posts := (db.posts.toList.filter (·.2.userId = email)).map fun e => postOfUser e.1 e.2
      some (db, sendBroadcast a true (some (.user (userOfDoc email d posts))))
    else some (db, sendBroadcast a false none)
  | .countPosts a n => some (db, sendBroadcast a (ok && n != db.posts.size) none)
  | .getPosts a =>
    if ok then
      let es := db.posts.toList
      if es.length > 0 then
        some (db, goOn (.getPostsStepTwo a (es.map (·.1)) (es.map (·.2.userId))))
      else some (db, sendBroadcast a true none)
    else some (db, [])
  | .getPostsStepTwo a postIds uIds =>
    if ok then
      (getPostStepTwo db postIds uIds).map fun combined =>
        (db, sendBroadcast a true (some (.posts combined)))
    else some (db, [])
  | .setPost a id doc => write db a ok (some { db with posts := db.posts.set id doc })
  | .updatePost a id doc =>
    write db a ok ((db.posts.update id fun _ => doc).map fun ps => { db with posts := ps })
  | .getPost a id =>
    if ok then
      match db.posts.get id with
      | none => none
      | some d => some (db, goOn (.getPostAuthor a (postOfDoc id d)))
    else some (db, sendBroadcast a false none)
  | .getPostAuthor a newPost =>
    if ok then
      match db.users.get newPost.mAuthorEmail with
      | none => none
      | some d => some (db, sendBroadcast a true (some (.post (withAuthor newPost d))))
    else some (db, [])
  | .deletePost a id => write db a ok (some { db with posts := db.posts.delete id })
  | .setComment a id doc => write db a ok (some { db with comments := db.comments.set id doc })
  | .updateComment a id doc =>
    match ok, db.comments.update id fun _ => doc with
    | true, some cs => some ({ db with comments := cs }, sendBroadcast a true none)
    | _, _ => some (db, [])
  | .deleteComment a id => write db a ok (some { db with comments := db.comments.delete id })
  | .getComments a ids =>
    if ok then
      let found := stepOne db ids
      if found.length > 0 then
        some (db, goOn (.getCommentsStepTwo a (found.map (·.1)) (found.map (·.2))))
      else some (db, sendBroadcast a true none)
    else some (db, sendBroadcast a false none)
  | .getCommentsStepTwo a ids authorIds =>
    if ok then
      (stepTwo db ids authorIds).map fun es =>
        (db, goOn (.getCommentsStepThree a (es.map (·.1)) (es.map (·.1.2.mentionId)) (es.map (·.2))))
    else some (db, [])
  | .getCommentsStepThree a snapshot1 mentionIds authors =>
    if ok then
      some (db, goOn (.getCommentsStepFour a snapshot1 mentionIds authors (stepThree db mentionIds)))
    else some (db, [])
  | .getCommentsStepFour a snapshot1 _ authors mentionUserIds =>
    if ok then
      (stepFour db snapshot1 authors mentionUserIds).map fun finalComments =>
        (db, sendBroadcast a true (some (.comments finalComments)))
    else some (db, [])

/-- Carries out tasks one after the other, all with success. -/
def carryOut (db : Database) : List Request → Option Database
  | [] => some db
  | q :: qs => (exec true db q).bind fun r => carryOut r.1 qs

end DBUtil
end FootballGallery
