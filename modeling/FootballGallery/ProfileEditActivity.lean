/-
# `d_profiles/ProfileEditActivity`: the edit of the own profile

The page shows the user that it has been opened with. A save under another
username asks first whether the name is free; the profile that is written is
made from the fields as they are when the answer arrives, with the arrays of
the user that the page has been opened with.

Key definitions: `ProfileEdit`, `onCreate`, `act`, `onReceive`.
-/
import FootballGallery.DBUtil
import FootballGallery.StringUtil

namespace FootballGallery

/-- The page. A `null` photo is not told from an empty one. -/
structure ProfileEdit where
  mUser : User
  mNewUser : Option User
  mUri : Option String
  et_uname : String
  sp_league : ℤ
  sp_team : ℤ
  finished : Bool
deriving DecidableEq

namespace ProfileEditActivity

open DBUtil StringUtil

def verifyUsername := "VERIFY_USERNAME"
def updateProfile := "UPDATE_PROFILE"

def onCreate (user : User) : ProfileEdit where
  mUser := user
  mNewUser := none
  mUri := none
  et_uname := user.mUName
  sp_league := user.mEmblemLeague
  sp_team := user.mEmblemTeam
  finished := false

/-- What the user does on the page. -/
inductive Action where
  | typeUName (text : String)
  /-- what the two spinners show -/
  | selectEmblem (league team : ℤ)
  /-- a picture from the album or the camera -/
  | onActivityResult (uri : String)
  | onSaveTap
deriving DecidableEq

/-- The user that the page writes. -/
def newUser (p : ProfileEdit) : User where
  mId := p.mUser.mId
  mUName := p.et_uname
  mPosts := p.mUser.mPosts
  mPostLikes := p.mUser.mPostLikes
  mPostYCards := p.mUser.mPostYCards
  mCommentLikes := p.mUser.mCommentLikes
  mCommentYCards := p.mUser.mCommentYCards
  mPhoto := p.mUri.getD ""
  mEmblemLeague := p.sp_league
  mEmblemTeam := p.sp_team

/-- The page writes its user. -/
def save (p : ProfileEdit) : ProfileEdit × List Request :=
  ({ p with mNewUser := some (newUser p) }, userUpdateProfile updateProfile p.mUser (newUser p))

def onSaveTap (p : ProfileEdit) : ProfileEdit × List Request :=
  let p := { p with mUri := some (p.mUri.getD p.mUser.mPhoto) }
  if isFieldValid [p.et_uname] then
    if p.et_uname ≠ p.mUser.mUName then (p, userVerifyUsername verifyUsername p.et_uname)
    else save p
  else (p, [])

def act (p : ProfileEdit) : Action → ProfileEdit × List Request
  | .typeUName text => ({ p with et_uname := text }, [])
  | .selectEmblem league team => ({ p with sp_league := league, sp_team := team }, [])
  | .onActivityResult uri => ({ p with mUri := some uri }, [])
  | .onSaveTap => onSaveTap p

/-- `VerificationReceiver.onReceive` -/
def onReceive (p : ProfileEdit) (intent : Intent) : ProfileEdit × List Request :=
  if intent.action = verifyUsername then
    if intent.result then save p else (p, [])
  else if intent.action = updateProfile then
    (if intent.result then { p with finished := true } else p, [])
  else (p, [])

/-! ### What the page asks for -/

/-- The document that the page writes, with the photo `photo`. -/
def profileMap (p : ProfileEdit) (photo : String) : UserDoc where
  username := p.et_uname
  photo := photo
  emblemLeague := p.sp_league
  emblemTeam := p.sp_team
  posts := p.mUser.getPostIds
  postLikes := p.mUser.mPostLikes
  postYCards := p.mUser.mPostYCards
  commentLikes := p.mUser.mCommentLikes
  commentYCards := p.mUser.mCommentYCards

/-- What the tap `a` makes of the page `p`: another page of the same user, and a
question or a save. -/
inductive Tapped (p : ProfileEdit) : Action → ProfileEdit → List Request → Prop
  | quiet {a p'} (hu : p'.mUser = p.mUser) : Tapped p a p' []
  | verifies {p'} (hu : p'.mUser = p.mUser) (hname : p'.et_uname = p.et_uname) :
      Tapped p .onSaveTap p' [.queryUsername verifyUsername p.et_uname]
  | saves {p' photo} (hu : p'.mUser = p.mUser) (hname : p'.et_uname = p.et_uname)
      (hsame : p.et_uname = p.mUser.mUName) :
      Tapped p .onSaveTap p' [.updateUser updateProfile p.mUser.mId (profileMap p photo)]

/-- What the reply `i` makes of the page `p`. -/
inductive Replied (p : ProfileEdit) (i : Intent) : ProfileEdit → List Request → Prop
  | quiet {p'} (hu : p'.mUser = p.mUser) (hname : p'.et_uname = p.et_uname) : Replied p i p' []
  | saves {p' photo} (hu : p'.mUser = p.mUser) (hname : p'.et_uname = p.et_uname)
      (ha : i.action = verifyUsername) (hr : i.result = true) :
      Replied p i p' [.updateUser updateProfile p.mUser.mId (profileMap p photo)]

theorem Tapped.user {p p' : ProfileEdit} {a : Action} {qs : List Request} (h : Tapped p a p' qs) :
    p'.mUser = p.mUser := by
  cases h <;> assumption

theorem Replied.user {p p' : ProfileEdit} {i : Intent} {qs : List Request} (h : Replied p i p' qs) :
    p'.mUser = p.mUser := by
  cases h <;> assumption

theorem Replied.uname {p p' : ProfileEdit} {i : Intent} {qs : List Request} (h : Replied p i p' qs) :
    p'.et_uname = p.et_uname := by
  cases h <;> assumption

theorem tapped_act (p : ProfileEdit) (a : Action) : Tapped p a (act p a).1 (act p a).2 := by
  cases a with
  | typeUName text => exact .quiet rfl
  | selectEmblem league team => exact .quiet rfl
  | onActivityResult uri => exact .quiet rfl
  | onSaveTap =>
    simp only [act, onSaveTap]
    by_cases hvalid : isFieldValid [p.et_uname] = true
    · rw [if_pos hvalid]
      by_cases hne : p.et_uname ≠ p.mUser.mUName
      · rw [if_pos hne]
        exact .verifies rfl rfl
      · rw [if_neg hne]
        exact .saves rfl rfl (not_ne_iff.mp hne)
    · rw [if_neg hvalid]
      exact .quiet rfl

theorem replied_onReceive (p : ProfileEdit) (i : Intent) :
    Replied p i (onReceive p i).1 (onReceive p i).2 := by
  unfold onReceive
  split
  · rename_i ha
    split
    · rename_i hr
      exact .saves rfl rfl ha hr
    · exact .quiet rfl rfl
  · split
    · split <;> exact .quiet rfl rfl
    · exact .quiet rfl rfl

end ProfileEditActivity
end FootballGallery
