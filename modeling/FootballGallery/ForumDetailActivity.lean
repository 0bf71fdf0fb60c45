/-
# `b_core/ForumDetailActivity`: a post's page

The page with its comment list (`CommentAdapter`): what the user's taps do and
what its receiver does with the replies of the backend calls. A reply is told
from another by its action string alone.

`mNewPost = mPost` makes two names of one object. Each place that changes it
sets both names first, so here both fields get the changed post. The comments are
drawn in another order than they arrive in; a position is one of `mComments`.

A request carries the values it is started with. Only `forum_get_comments` keeps an
object that changes: it looks at the ids of `mPost.mComments` when the collection
arrives, and a comment posted meanwhile is among them. If it is stored by then, the
answer has it too, and the page shows it one load earlier than here. It is a stored
comment on the page's post like the others, and nothing is said of a page's comments
but that they are such.

Key definitions: `ForumDetail`, `Action`, `onCreate`, `act`, `onReceive`.
-/
import FootballGallery.DBUtil
import FootballGallery.StringUtil

namespace FootballGallery

/-- The icon a button of the page shows. -/
inductive Icon where
  | like | likeClicked | ycard | ycardClicked
deriving DecidableEq

/-- What the tap handlers ask about drawables: whether a button's icon is the same
object as one from the resources, and the id of `R.drawable.ic_like_clicked`. -/
structure Drawables where
  same : Icon → Icon → Bool
  icLikeClicked : ℤ

/-- No two icons are the same object. -/
def plainDrawables : Drawables := ⟨fun _ _ => false, 0⟩

/-- A post's page. `me` is the email of the signed-in user and `extraPost` the post
the page was opened with; `populated` says that `populateInfo` has set the
listeners and found the buttons, `mTv_reply_desc` is the name the reply banner
shows, if it shows. -/
structure ForumDetail where
  me : String
  extraPost : Post
  mPost : Post
  mNewPost : Option Post
  mComments : List Comment
  mAuthor : Option User
  mCurrentUser : Option User
  mIsMyPost : Bool
  mCurrentParentId : String
  mCurrentMentionId : String
  mEt_comment : String
  mTv_reply_desc : Option String
  mBtn_like : Icon
  mBtn_like_clickable : Bool
  mBtn_ycard : Icon
  mComment : Option Comment
  populated : Bool
  finished : Bool
deriving DecidableEq

namespace ForumDetailActivity

open DBUtil

def updateUserLike := "UPDATE_USER_LIKE"
def updateUserYCard := "UPDATE_USER_YCARD"
def updatePostAfterLike := "UPDATE_POST_AFTER_LIKE"
def updatePostAfterYCard := "UPDATE_POST_AFTER_YCARD"
def userUpdateLikeValueComment := "USER_UPDATE_LIKE_VALUE_COMMENT"
def commentUpdateLikeValue := "COMMENT_UPDATE_LIKE_VALUE"
def getUpdatedPost := "GET_UPDATED_POST"
def userUpdateYCardValueComment := "USER_UPDATE_YCARD_VALUE_COMMENT"
def commentUpdateYCardValue := "COMMENT_UPDATE_YCARD_VALUE"
def getCurrentUser := "GET_CURRENT_USER"
def updateFields := "UPDATE_FIELDS"
def getAuthorInfo := "GET_USER_INFO"
def deletePostInPosts := "DELETE_POST_IN_POSTS"
def deletePostInUsers := "DELETE_POST_IN_USERS"
def forumGetCommentsAction := "FORUM_GET_COMMENTS"
def updateValue := "UPDATE_VALUE"
def updateComment := "UPDATE_COMMENT"

/-- What the user does on the page. -/
inductive Action where
  | typeComment (text : String)
  /-- `id` is what `generateId` returns -/
  | onCommentTap (id : String)
  | onLikeIconTap
  | onYCardIconTap
  /-- the like button of the comment at `pos`, a view with id `viewId` -/
  | onLikeClick (pos : ℕ) (viewId : ℤ)
  | onYCardClick (pos : ℕ)
  | onReplyClick (pos : ℕ)
  | onUndoReplyTap
  | onDeleteMenu
  | onResume
deriving DecidableEq

def onResume (p : ForumDetail) : List Request := forumGetPostWithId updateFields p.mPost.mId

/-- `onCreate` and the first `onResume`. The layout has the banner "Replying to username". -/
def onCreate (me : String) (post : Post) (author : Option User) : ForumDetail × List Request :=
  let p : ForumDetail :=
    { me := me
      extraPost := post
      mPost := post
      mNewPost := none
      mComments := []
      mAuthor := author
      mCurrentUser := none
      mIsMyPost := post.mAuthorEmail == me
      mCurrentParentId := ""
      mCurrentMentionId := ""
      mEt_comment := ""
      mTv_reply_desc := some "username"
      mBtn_like := .like
      mBtn_like_clickable := true
      mBtn_ycard := .ycard
      mComment := none
      populated := false
      finished := false }
  (p, userGetUserInfo me getCurrentUser ++ onResume p)

/-- What `populateInfo` does besides drawing; without a user it throws. Left out with
the drawing is that it throws also for a post whose id has no date and for an emblem
that no array has. -/
def populateInfo (p : ForumDetail) : Option ForumDetail :=
  p.mCurrentUser.map fun u =>
    let icon := if p.mPost.mId ∈ u.mPostLikes then .likeClicked else p.mBtn_like
    if p.mPost.mId ∈ u.mPostYCards then
      { p with mBtn_like := .ycardClicked, mBtn_like_clickable := false, populated := true }
    else { p with mBtn_like := icon, mBtn_like_clickable := true, populated := true }

def toggleReplyPopup (isOn : Bool) (uname : String) (p : ForumDetail) : ForumDetail :=
  if isOn then { p with mTv_reply_desc := some uname }
  else { p with mCurrentParentId := "", mCurrentMentionId := "", mTv_reply_desc := none }

def clearCommentField (p : ForumDetail) : ForumDetail :=
  toggleReplyPopup false ""
    { p with mEt_comment := "", mCurrentMentionId := "", mCurrentParentId := "" }

/-! ### Taps -/

def onCommentTap (p : ForumDetail) (id : String) : ForumDetail × List Request :=
  match p.mCurrentUser with
  | none => (p, [])
  | some u =>
    if StringUtil.isFieldValid [p.mEt_comment] then
      let comment := Comment.new id p.mPost.mId u "" p.mEt_comment p.mCurrentParentId p.mCurrentMentionId
      let newPost := p.mPost.appendComments [comment.mId]
      ({ p with mPost := newPost, mNewPost := some newPost },
        forumUpdateCommentInComments updateComment comment caseAdd)
    else (p, [])

/-- The post and the case that a tap on the like icon makes. -/
def likeCase (d : Drawables) (p : ForumDetail) : Post × ℤ :=
  if d.same p.mBtn_like .like then (p.mPost.setLikes (p.mPost.mLikes + 1), caseAdd)
  else if d.same p.mBtn_like .likeClicked then (p.mPost.setLikes (p.mPost.mLikes - 1), caseRemove)
  else (p.mPost, 0)

def onLikeIconTap (d : Drawables) (p : ForumDetail) : ForumDetail × List Request :=
  let newPost := (likeCase d p).1
  ({ p with mPost := newPost, mNewPost := some newPost },
    userUpdatePostLikesValue p.me updateUserLike p.mPost.mId (likeCase d p).2)

def onYCardIconTap (p : ForumDetail) : ForumDetail × List Request :=
  (p, userUpdatePostYCardValue p.me updateUserYCard p.mPost.mId)

/-- `CommentAdapter.OnLikeClickListener` and `onLike` -/
def onLikeClick (d : Drawables) (p : ForumDetail) (pos : ℕ) (viewId : ℤ) : ForumDetail × List Request :=
  match p.mComments[pos]? with
  | none => (p, [])
  | some c =>
    let (tappedComment, caseUser) :=
      if viewId = d.icLikeClicked then (c.updateLikeValue (-1), caseRemove)
      else (c.updateLikeValue 1, caseAdd)
    ({ p with mComments := p.mComments.set pos tappedComment, mComment := some tappedComment },
      userUpdateCommentLikesValue p.me userUpdateLikeValueComment tappedComment.mId caseUser)

/-- `CommentAdapter.OnYCardClickListener` and `onYCard` -/
def onYCardClick (p : ForumDetail) (pos : ℕ) : ForumDetail × List Request :=
  match p.mComments[pos]? with
  | none => (p, [])
  | some c =>
    let tappedComment := c.updateYCardValue
    ({ p with mComments := p.mComments.set pos tappedComment, mComment := some tappedComment },
      userUpdateCommentYCardValue p.me userUpdateYCardValueComment tappedComment.mId)

/-- `CommentAdapter.PosOnClickListener` and `onReply` -/
def onReplyClick (p : ForumDetail) (pos : ℕ) : ForumDetail :=
  match p.mComments[pos]? with
  | none => p
  | some c =>
    let parentId := if c.mParentId.length ≤ 0 then c.mId else c.mParentId
    toggleReplyPopup true c.mAuthor.mUName
      { p with mCurrentParentId := parentId, mCurrentMentionId := c.mId }

/-- One action of the user. Before `populateInfo` no button has a listener. -/
def act (d : Drawables) (p : ForumDetail) : Action → ForumDetail × List Request
  | .typeComment text => ({ p with mEt_comment := text }, [])
  | .onCommentTap id => if p.populated then onCommentTap p id else (p, [])
  | .onLikeIconTap => if p.populated && p.mBtn_like_clickable then onLikeIconTap d p else (p, [])
  | .onYCardIconTap => if p.populated then onYCardIconTap p else (p, [])
  | .onLikeClick pos viewId => if p.populated then onLikeClick d p pos viewId else (p, [])
  | .onYCardClick pos => if p.populated then onYCardClick p pos else (p, [])
  | .onReplyClick pos => (if p.populated then onReplyClick p pos else p, [])
  | .onUndoReplyTap => (if p.populated then toggleReplyPopup false "" p else p, [])
  | .onDeleteMenu => (p, if p.mIsMyPost then forumDeletePost deletePostInPosts p.mPost.mId else [])
  | .onResume => (p, onResume p)

/-! ### Replies -/

/-- `UserReceiver.onReceive`; a cast to the wrong class and a `null` object throw. -/
def onReceive (d : Drawables) (p : ForumDetail) (intent : Intent) : Option (ForumDetail × List Request) :=
  if intent.action = getCurrentUser then
    match intent.result, intent.extra with
    | true, some (.user u) =>
      some ({ p with mCurrentUser := some u },
        userGetUserDetailWithEmail getAuthorInfo p.mPost.mAuthorEmail)
    | true, some _ => none
    | _, _ => some (p, [])
  else if intent.action = getAuthorInfo then
    match intent.result, intent.extra with
    | true, some (.user u) =>
      some ({ p with mAuthor := some u }, forumGetComments forumGetCommentsAction p.mPost.mComments)
    | true, some _ => none
    | _, _ => some (p, [])
  else if intent.action = deletePostInPosts then
    some (p, if intent.result then userUpdatePostsValue p.me deletePostInUsers p.mPost.mId (-1) else [])
  else if intent.action = deletePostInUsers then
    some (if intent.result then { p with finished := true } else p, [])
  else if intent.action = updateFields then
    match intent.result, intent.extra with
    | true, some (.post q) =>
      some ({ p with mPost := q }, forumGetComments forumGetCommentsAction q.mComments)
    | true, some _ => none
    | _, _ => some (p, [])
  else if intent.action = forumGetCommentsAction then
    match intent.result, intent.extra with
    | true, some (.comments cs) =>
      (populateInfo { p with mComments := cs }).map fun p' => (clearCommentField p', [])
    | true, some _ => none
    | true, none => (populateInfo p).map fun p' => (clearCommentField p', [])
    | false, _ => some (p, [])
  else if intent.action = updateValue then
    some ({ p with mCurrentMentionId := "", mCurrentParentId := "" },
      forumGetPostWithId updateFields p.mPost.mId)
  else if intent.action = updateComment then
    match intent.result, p.mNewPost with
    | true, some newPost => some (p, forumUpdatePost updateValue p.mPost newPost)
    | true, none => none
    | false, _ => some (p, [])
  else if intent.action = updateUserLike then
    match intent.result, p.mNewPost with
    | true, some newPost => some (p, forumUpdatePost updatePostAfterLike p.mPost newPost)
    | true, none => none
    | false, _ => some (p, [])
  else if intent.action = updatePostAfterLike then
    some (p, if intent.result then forumGetPostWithId updateFields p.mPost.mId else [])
  else if intent.action = getUpdatedPost then some (p, [])
  else if intent.action = updateUserYCard then
    if intent.result then
      -- `mBtn_ycard` is `null` until `populateInfo` has found it
      if p.populated then
        let newPost := if d.same p.mBtn_ycard .ycard then p.mPost.setLikes (p.mPost.mLikes + 1) else p.mPost
        some ({ p with mPost := newPost, mNewPost := some newPost },
          forumUpdatePost updatePostAfterYCard newPost newPost)
      else none
    else some (p, [])
  else if intent.action = updatePostAfterYCard then
    some (p, if intent.result then forumGetPostWithId updateFields p.mPost.mId else [])
  else if intent.action = userUpdateLikeValueComment then
    match intent.result, p.mComment with
    | true, some c => some (p, forumUpdateCommentInComments commentUpdateLikeValue c caseUpdate)
    | true, none => none
    | false, _ => some (p, [])
  else if intent.action = commentUpdateLikeValue then
    some (p, if intent.result then forumGetPostWithId updateFields p.mPost.mId else [])
  else if intent.action = userUpdateYCardValueComment then
    match intent.result, p.mComment with
    | true, some c => some (p, forumUpdateCommentInComments commentUpdateYCardValue c caseUpdate)
    | true, none => none
    | false, _ => some (p, [])
  else if intent.action = commentUpdateYCardValue then
    some (p, if intent.result then forumGetPostWithId getUpdatedPost p.mPost.mId else [])
  else some (p, [])

end ForumDetailActivity
end FootballGallery
