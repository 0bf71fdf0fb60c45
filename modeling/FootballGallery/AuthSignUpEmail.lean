/-
# `a_authentications/AuthSignUpEmail`: the first page of the sign-up

The page asks whether an email can be signed up and then hands on what the
field says. Nothing makes the next button grey again when the email is edited.

Key definitions: `SignUpEmail`, `onCreate`, `act`, `onReceive`, `Tapped`, `Replied`.
-/
import FootballGallery.DBUtil
import FootballGallery.StringUtil

namespace FootballGallery

structure SignUpEmail where
  mEt_email : String
  mBtn_verify_clickable : Bool
  mBtn_next_clickable : Bool
deriving DecidableEq

namespace AuthSignUpEmail

open DBUtil StringUtil

def verifyEmail := "VERIFY_EMAIL"

def toggleBtns (isVerified : Bool) (p : SignUpEmail) : SignUpEmail :=
  { p with mBtn_verify_clickable := !isVerified, mBtn_next_clickable := isVerified }

def onCreate : SignUpEmail := toggleBtns false ⟨"", true, true⟩

/-- What the user does on the page and stays there. -/
inductive Action where
  | typeEmail (text : String)
  | onVerifyTap
deriving DecidableEq

def onVerifyTap (emailAddress : String → Bool) (p : SignUpEmail) : SignUpEmail × List Request :=
  (p, if isEmailValid emailAddress p.mEt_email = msgEmailValid then
    authVerifyEmail verifyEmail p.mEt_email caseSignup else [])

def act (emailAddress : String → Bool) (p : SignUpEmail) : Action → SignUpEmail × List Request
  | .typeEmail text => ({ p with mEt_email := text }, [])
  | .onVerifyTap => if p.mBtn_verify_clickable then onVerifyTap emailAddress p else (p, [])

/-- `onNextTap`: the email that `AuthSignUpProfile` is started with -/
def onNextTap (p : SignUpEmail) : Option String := if p.mBtn_next_clickable then some p.mEt_email else none

/-- `Receiver.onReceive` -/
def onReceive (p : SignUpEmail) (intent : Intent) : SignUpEmail × List Request :=
  if intent.action = verifyEmail then
    (if intent.result then toggleBtns true p else p, [])
  else (p, [])

/-! ### What the page asks for -/

/-- What the tap `t` makes of the page `p`. -/
inductive Tapped (p : SignUpEmail) : Action → SignUpEmail → List Request → Prop
  | types (text : String) : Tapped p (.typeEmail text) { p with mEt_email := text } []
  | quiet : Tapped p .onVerifyTap p []
  | verifies : Tapped p .onVerifyTap p [.fetchSignIn verifyEmail p.mEt_email caseSignup]

/-- What the reply `i` makes of the page `p`. -/
inductive Replied (p : SignUpEmail) (i : Intent) : SignUpEmail → Prop
  | quiet : Replied p i p
  | verified (ha : i.action = verifyEmail) (hr : i.result = true) : Replied p i (toggleBtns true p)

theorem tapped_act (emailAddress : String → Bool) (p : SignUpEmail) (t : Action) :
    Tapped p t (act emailAddress p t).1 (act emailAddress p t).2 := by
  cases t with
  | typeEmail text => exact .types text
  | onVerifyTap =>
    simp only [act, onVerifyTap]
    split
    · split
      · exact .verifies
      · exact .quiet
    · exact .quiet

theorem replied_onReceive (p : SignUpEmail) (i : Intent) :
    Replied p i (onReceive p i).1 ∧ (onReceive p i).2 = [] := by
  unfold onReceive
  split
  · rename_i ha
    refine ⟨?_, rfl⟩
    split
    · rename_i hr
      exact .verified ha hr
    · exact .quiet
  · exact ⟨.quiet, rfl⟩

end AuthSignUpEmail
end FootballGallery
