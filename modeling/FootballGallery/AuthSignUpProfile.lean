/-
# `a_authentications/AuthSignUpProfile`: the last page of the sign-up

The page checks its fields and the username, creates the account and then the
user's document.

Key definitions: `SignUpProfile`, `onCreate`, `onDoneTap`, `act`, `onReceive`, `Tapped`, `Replied`.
-/
import FootballGallery.DBUtil
import FootballGallery.StringUtil

namespace FootballGallery

/-- The page; `started` says that it has started `CoreActivity`. -/
structure SignUpProfile where
  mEmail : String
  mUri : Option String
  mEt_uname : String
  mEt_pwd : String
  mEt_pwd_conf : String
  mSp_emblem_league : ℤ
  mSp_emblem_team : ℤ
  mTv_err_uname : Bool
  mTv_err_pwd : Bool
  mUser : Option User
  started : Bool
deriving DecidableEq

namespace AuthSignUpProfile

open DBUtil StringUtil

def userVerifyUsernameAction := "USERS_VERIFY_USERNAME"
def authCreateAccount := "AUTH_CREATE_ACCOUNT"
def authCreateUserInUsers := "AUTH_CREATE_USER_IN_USERS"

/-- `email`: what `AuthSignUpEmail` hands on -/
def onCreate (email : String) : SignUpProfile where
  mEmail := email
  mUri := none
  mEt_uname := ""
  mEt_pwd := ""
  mEt_pwd_conf := ""
  mSp_emblem_league := 0
  mSp_emblem_team := 12
  mTv_err_uname := false
  mTv_err_pwd := false
  mUser := none
  started := false

/-- What the user does on the page. -/
inductive Action where
  | typeUName (text : String)
  | typePwd (text : String)
  | typePwdConf (text : String)
  /-- the focus of a field changes -/
  | onUNameTap
  | onPwdTap
  /-- what the two spinners show -/
  | selectEmblem (league team : ℤ)
  /-- a picture from the album or the camera -/
  | onActivityResult (uri : String)
  | onDoneTap
deriving DecidableEq

def onDoneTap (a : SignUpProfile) : SignUpProfile × List Request :=
  if isFieldValid [a.mEt_uname, a.mEt_pwd, a.mEt_pwd_conf] then
    if isPwdValid [a.mEt_pwd, a.mEt_pwd_conf] = msgPwdValid then
      match a.mUri with
      | some _ => (a, userVerifyUsername userVerifyUsernameAction a.mEt_uname)
      | none => (a, [])
    else ({ a with mTv_err_pwd := true }, [])
  else (a, [])

def act (a : SignUpProfile) : Action → SignUpProfile × List Request
  | .typeUName text => ({ a with mEt_uname := text }, [])
  | .typePwd text => ({ a with mEt_pwd := text }, [])
  | .typePwdConf text => ({ a with mEt_pwd_conf := text }, [])
  | .onUNameTap => ({ a with mTv_err_uname := false }, [])
  | .onPwdTap => ({ a with mTv_err_pwd := false }, [])
  | .selectEmblem league team => ({ a with mSp_emblem_league := league, mSp_emblem_team := team }, [])
  | .onActivityResult uri => ({ a with mUri := some uri }, [])
  | .onDoneTap => onDoneTap a

/-- The user that the page creates; a `null` list is empty. -/
def newUser (a : SignUpProfile) : User where
  mId := a.mEmail
  mUName := a.mEt_uname
  mPosts := []
  mPostLikes := []
  mPostYCards := []
  mCommentLikes := []
  mCommentYCards := []
  mPhoto := a.mUri.getD ""
  mEmblemLeague := a.mSp_emblem_league
  mEmblemTeam := a.mSp_emblem_team

/-- `Receiver.onReceive` -/
def onReceive (a : SignUpProfile) (intent : Intent) : SignUpProfile × List Request :=
  if intent.action = userVerifyUsernameAction then
    if intent.result then (a, authSignupCreateAccount authCreateAccount a.mEmail a.mEt_pwd)
    else ({ a with mTv_err_uname := true }, [])
  else if intent.action = authCreateAccount then
    if intent.result then
      ({ a with mUser := some (newUser a) }, userCreateInUsers authCreateUserInUsers (newUser a))
    else (a, [])
  else if intent.action = authCreateUserInUsers then
    (if intent.result then { a with started := true } else a, [])
  else (a, [])

/-! ### What the page asks for -/

/-- The email and what the text fields say. -/
structure SameFields (a a' : SignUpProfile) : Prop where
  email : a'.mEmail = a.mEmail
  uname : a'.mEt_uname = a.mEt_uname
  pwd : a'.mEt_pwd = a.mEt_pwd
  conf : a'.mEt_pwd_conf = a.mEt_pwd_conf

/-- The fields pass the checks of `onDoneTap`. -/
structure Passes (uname pwd conf : String) : Prop where
  fields : isFieldValid [uname, pwd, conf] = true
  pwds : isPwdValid [pwd, conf] = msgPwdValid

/-- What the tap `t` makes of the page `a`. -/
inductive Tapped (a : SignUpProfile) : Action → SignUpProfile → List Request → Prop
  | quiet {t a'} (he : a'.mEmail = a.mEmail) : Tapped a t a' []
  | verifies (hp : Passes a.mEt_uname a.mEt_pwd a.mEt_pwd_conf) :
      Tapped a .onDoneTap a [.queryUsername userVerifyUsernameAction a.mEt_uname]

/-- What the reply `i` makes of the page `a`. -/
inductive Replied (a : SignUpProfile) (i : Intent) : SignUpProfile → List Request → Prop
  | quiet {a'} (hs : SameFields a a') : Replied a i a' []
  | creates (ha : i.action = userVerifyUsernameAction) (hr : i.result = true) :
      Replied a i a [.createAccount authCreateAccount a.mEmail a.mEt_pwd]
  | stores {a' doc} (ha : i.action = authCreateAccount) (hr : i.result = true) (hs : SameFields a a')
      (hname : doc.username = a.mEt_uname) : Replied a i a' [.setUser authCreateUserInUsers a.mEmail doc]

theorem tapped_act (a : SignUpProfile) (t : Action) : Tapped a t (act a t).1 (act a t).2 := by
  cases t with
  | onDoneTap =>
    simp only [act, onDoneTap]
    by_cases hfields : isFieldValid [a.mEt_uname, a.mEt_pwd, a.mEt_pwd_conf] = true
    · rw [if_pos hfields]
      by_cases hpwds : isPwdValid [a.mEt_pwd, a.mEt_pwd_conf] = msgPwdValid
      · rw [if_pos hpwds]
        cases a.mUri with
        | none => exact .quiet rfl
        | some uri => exact .verifies ⟨hfields, hpwds⟩
      · rw [if_neg hpwds]
        exact .quiet rfl
    · rw [if_neg hfields]
      exact .quiet rfl
  | _ => exact .quiet rfl

theorem replied_onReceive (a : SignUpProfile) (i : Intent) :
    Replied a i (onReceive a i).1 (onReceive a i).2 := by
  have hsame : SameFields a a := ⟨rfl, rfl, rfl, rfl⟩
  unfold onReceive
  split
  · rename_i ha
    split
    · rename_i hr
      exact .creates ha hr
    · exact .quiet ⟨rfl, rfl, rfl, rfl⟩
  · split
    · rename_i ha
      split
      · rename_i hr
        exact .stores ha hr ⟨rfl, rfl, rfl, rfl⟩ rfl
      · exact .quiet hsame
    · split
      · split <;> exact .quiet ⟨rfl, rfl, rfl, rfl⟩
      · exact .quiet hsame

end AuthSignUpProfile
end FootballGallery
