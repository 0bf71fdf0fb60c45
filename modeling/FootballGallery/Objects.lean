/-
# The app's objects and the documents they are stored as

`e_models/objects`: the Java classes `Post`, `Comment` and `User` with the
constructors, setters and getters the model uses, and the documents of the
three collections with the fields `DBUtil` puts there. A string the Java
constructor leaves `null` is `""` here and a list it leaves `null` is `[]`.

Java's `int` is `ℤ`. A post's popularity is computed with wrap-around. The counters
of likes and yellow cards are not: they start at 0, are copied, and move by one a tap,
so that nothing wraps before `2 ^ 31` taps.
-/
import FootballGallery.Lib.DocStore
import FootballGallery.StringUtil
import Mathlib.Algebra.Group.Int.Defs
import Mathlib.Algebra.Group.Nat.Defs

namespace FootballGallery

open DocStore

/-! ### Documents -/

/-- A document of `posts`. -/
structure PostDoc where
  category : ℤ
  comments : List String
  description : String
  filter : ℤ
  like : ℤ
  title : String
  userId : String
  yellowcard : ℤ
deriving DecidableEq

/-- A document of `comments`. -/
structure CommentDoc where
  description : String
  postId : String
  userId : String
  like : ℤ
  yellowcard : ℤ
  parentId : String
  mentionId : String
deriving DecidableEq

/-- A document of `users`. -/
structure UserDoc where
  username : String
  photo : String
  emblemLeague : ℤ
  emblemTeam : ℤ
  posts : List String
  postLikes : List String
  postYCards : List String
  commentLikes : List String
  commentYCards : List String
deriving DecidableEq

/-- The backend: the three collections, and the accounts with their passwords. -/
structure Database where
  posts : Collection PostDoc
  comments : Collection CommentDoc
  users : Collection UserDoc
  accounts : Collection String

/-! ### Posts -/

structure Post where
  mId : String
  mAuthorEmail : String
  mAuthorUName : String
  mAuthorEmblemLeagueInt : ℤ
  mAuthorEmblemTeamInt : ℤ
  mTitle : String
  mDesc : String
  mCategory : ℤ
  mFilter : ℤ
  mLikes : ℤ
  mYCards : ℤ
  mComments : List String
deriving DecidableEq

namespace Post

/-- The constructor of a post being written; `id` is what `generateId` returns. -/
def new (id title desc : String) (category league : ℤ) : Post where
  mId := id
  mAuthorEmail := ""
  mAuthorUName := ""
  mAuthorEmblemLeagueInt := 0
  mAuthorEmblemTeamInt := 0
  mTitle := title
  mDesc := desc
  mCategory := category
  mFilter := league
  mLikes := 0
  mYCards := 0
  mComments := []

/-- The constructor of a post with all it stores. -/
def ofFields (postId author title desc : String) (category filter like ycard : ℤ)
    (comments : List String) : Post where
  mId := postId
  mAuthorEmail := author
  mAuthorUName := ""
  mAuthorEmblemLeagueInt := 0
  mAuthorEmblemTeamInt := 0
  mTitle := title
  mDesc := desc
  mCategory := category
  mFilter := filter
  mLikes := like
  mYCards := ycard
  mComments := comments

@[simp] def setId (p : Post) (id : String) : Post := { p with mId := id }
@[simp] def setAuthor (p : Post) (uid : String) : Post := { p with mAuthorEmail := uid }
@[simp] def setLikes (p : Post) (like : ℤ) : Post := { p with mLikes := like }
@[simp] def setYCard (p : Post) (ycard : ℤ) : Post := { p with mYCards := ycard }
@[simp] def setComments (p : Post) (comments : List String) : Post := { p with mComments := comments }
@[simp] def appendComments (p : Post) (comments : List String) : Post :=
  { p with mComments := p.mComments ++ comments }
@[simp] def setLeague (p : Post) (league : ℤ) : Post := { p with mFilter := league }
@[simp] def setCategory (p : Post) (category : ℤ) : Post := { p with mCategory := category }
@[simp] def setAuthorUname (p : Post) (uname : String) : Post := { p with mAuthorUName := uname }
@[simp] def setAuthorEmblemLeagueInt (p : Post) (league : ℤ) : Post :=
  { p with mAuthorEmblemLeagueInt := league }
@[simp] def setAuthorEmblemTeamInt (p : Post) (team : ℤ) : Post :=
  { p with mAuthorEmblemTeamInt := team }

/-- `toInstant`: the client's time zone -/
def getDateDate (toInstant : ℤ → ℤ) (p : Post) : Option ℤ :=
  StringUtil.extractDateFromDocumentId toInstant p.mId

/-- `x + y * 2` is an `int`. -/
def getPopularity (p : Post) : ℤ := (p.mLikes + p.mComments.length * 2).bmod (2 ^ 32)

example : (setComments (setLikes (Post.new "" "" "" 0 0) 2147483647) [""]).getPopularity = -2147483647 := by
  decide

end Post

/-! ### Users -/

structure User where
  mId : String
  mUName : String
  mPosts : List Post
  mPostLikes : List String
  mPostYCards : List String
  mCommentLikes : List String
  mCommentYCards : List String
  mPhoto : String
  mEmblemLeague : ℤ
  mEmblemTeam : ℤ
deriving DecidableEq

namespace User

/-- The four-argument constructor. -/
def brief (id uname : String) (emblemLeagueInt emblemTeamInt : ℤ) : User where
  mId := id
  mUName := uname
  mPosts := []
  mPostLikes := []
  mPostYCards := []
  mCommentLikes := []
  mCommentYCards := []
  mPhoto := ""
  mEmblemLeague := emblemLeagueInt
  mEmblemTeam := emblemTeamInt

def getPostIds (u : User) : List String := u.mPosts.map (·.mId)

end User

/-! ### Comments -/

structure Comment where
  mId : String
  mDesc : String
  mAuthor : User
  mMentionUsername : String
  mLikes : ℤ
  mYCards : ℤ
  mParentId : String
  mMentionId : String
  mPostId : String
deriving DecidableEq

namespace Comment

/-- The constructor; `id` is what `generateId` returns. -/
def new (id postId : String) (author : User) (mentionUsername desc parentId mentionId : String) :
    Comment where
  mId := id
  mDesc := desc
  mAuthor := author
  mMentionUsername := mentionUsername
  mLikes := 0
  mYCards := 0
  mParentId := parentId
  mMentionId := mentionId
  mPostId := postId

@[simp] def setId (c : Comment) (id : String) : Comment := { c with mId := id }
@[simp] def updateLikeValue (c : Comment) (calculation : ℤ) : Comment :=
  { c with mLikes := c.mLikes + calculation }
@[simp] def updateYCardValue (c : Comment) : Comment := { c with mYCards := c.mYCards + 1 }

section Html

-- `Html.fromHtml` of the platform, as the text of what it returns
variable (fromHtml : String → String)

def getMentionIdFormatted (c : Comment) : String := fromHtml ("<i>@" ++ c.mMentionUsername ++ " </i> ")

/-- The description as it is displayed. -/
def getDesc (c : Comment) : String :=
  if c.mMentionId.length > 0 then getMentionIdFormatted fromHtml c ++ c.mDesc else c.mDesc

end Html

def getRawDesc (c : Comment) : String := c.mDesc

end Comment
end FootballGallery
