/-
# `a_authentications/AuthHome`: the login

The page checks its fields, asks whether the email has an account, and signs in with
what the fields say by then. A failed login shows the error view of the password but
puts its message into the view of the email: what the page shows is the text of the
layout, or what an earlier check has left there.

Key definitions: `AuthHome`, `onCreate`, `onLoginTap`, `act`, `onReceive`, `Tapped`, `Replied`, `visit`.
Key theorems: `tapped_act`, `replied_onReceive`, `failed_login_shows`.
-/
import FootballGallery.LifeCycles
import FootballGallery.Lib.Runs

namespace FootballGallery

/-- A text view that is shown or gone. -/
structure ErrView where
  text : String
  visible : Bool
deriving DecidableEq

structure AuthHome where
  mEt_email : String
  mEt_pwd : String
  mTv_err_id : ErrView
  mTv_err_pwd : ErrView
deriving DecidableEq

def StringUtil.msgIncorrectInput := "Incorrect user information. Try again"

namespace AuthHome

open DBUtil hiding authLogin
open StringUtil Runs

def toggleCaseId : ℤ := 0
def toggleCasePwd : ℤ := 1
def toggleCaseBoth : ℤ := 2

def toggleErrFeedback (isShow : Bool) (case : ℤ) (p : AuthHome) : AuthHome :=
  if case = toggleCaseId then { p with mTv_err_id.visible := isShow }
  else if case = toggleCasePwd then { p with mTv_err_pwd.visible := isShow }
  else { p with mTv_err_id.visible := isShow, mTv_err_pwd.visible := isShow }

/-- The texts of the error views are those of the layout. -/
def onCreate : AuthHome :=
  toggleErrFeedback false toggleCaseBoth ⟨"", "", ⟨"incorrect email", true⟩, ⟨"incorrect password", true⟩⟩

/-- What the user does on the page and stays there. -/
inductive Action where
  | typeEmail (text : String)
  | typePwd (text : String)
  /-- the focus of a field changes -/
  | onIdTap
  | onPwdTap
  | onLoginTap
  | onForgotTap
deriving DecidableEq

/-- `emailAddress`: the platform's `Patterns.EMAIL_ADDRESS` -/
def onLoginTap (emailAddress : String → Bool) (p : AuthHome) : AuthHome × List Request :=
  let emailMsg := isEmailValid emailAddress p.mEt_email
  let pwdMsg := isPwdValid [p.mEt_pwd]
  if emailMsg = msgEmailValid then
    if pwdMsg = msgPwdValid then (p, authVerifyEmail authEmailCheck p.mEt_email caseLogin)
    else (toggleErrFeedback true toggleCasePwd { p with mTv_err_pwd.text := pwdMsg }, [])
  else (toggleErrFeedback true toggleCaseId { p with mTv_err_id.text := emailMsg }, [])

def act (emailAddress : String → Bool) (p : AuthHome) : Action → AuthHome × List Request
  | .typeEmail text => ({ p with mEt_email := text }, [])
  | .typePwd text => ({ p with mEt_pwd := text }, [])
  | .onIdTap => (toggleErrFeedback false toggleCaseId p, [])
  | .onPwdTap => (toggleErrFeedback false toggleCasePwd p, [])
  | .onLoginTap => onLoginTap emailAddress p
  | .onForgotTap => (p, [])

/-- `Receiver.onReceive`: the page, what it asks for, and whether it starts `CoreActivity`. -/
def onReceive (p : AuthHome) (intent : Intent) : AuthHome × List Request × Bool :=
  if intent.action = authEmailCheck then
    if intent.result then
      (toggleErrFeedback false toggleCaseId p, DBUtil.authLogin authLogin p.mEt_email p.mEt_pwd, false)
    else (toggleErrFeedback true toggleCaseId { p with mTv_err_id.text := msgIncorrectInput }, [], false)
  else if intent.action = authLogin then
    if intent.result then (toggleErrFeedback false toggleCaseBoth p, [], true)
    else (toggleErrFeedback true toggleCasePwd { p with mTv_err_id.text := msgPwdMatch }, [], false)
  else (p, [], false)

/-! ### What the page asks for -/

/-- The text fields say the same. -/
def SameFields (p p' : AuthHome) : Prop := p'.mEt_email = p.mEt_email ∧ p'.mEt_pwd = p.mEt_pwd

/-- The fields pass the checks of `onLoginTap`. -/
structure Passes (emailAddress : String → Bool) (p : AuthHome) : Prop where
  email : isEmailValid emailAddress p.mEt_email = msgEmailValid
  pwd : isPwdValid [p.mEt_pwd] = msgPwdValid

/-- What the tap `t` makes of the page `p`. -/
inductive Tapped (emailAddress : String → Bool) (p : AuthHome) : Action → AuthHome → List Request → Prop
  | typesEmail (text : String) : Tapped emailAddress p (.typeEmail text) { p with mEt_email := text } []
  | typesPwd (text : String) : Tapped emailAddress p (.typePwd text) { p with mEt_pwd := text } []
  | quiet {t p'} (hs : SameFields p p') : Tapped emailAddress p t p' []
  | checks (hp : Passes emailAddress p) :
      Tapped emailAddress p .onLoginTap p [.fetchSignIn authEmailCheck p.mEt_email caseLogin]

/-- What the reply `i` makes of the page `p`. -/
inductive Replied (p : AuthHome) (i : Intent) : AuthHome → List Request → Bool → Prop
  | quiet {p'} (hs : SameFields p p') : Replied p i p' [] false
  | signsIn {p'} (ha : i.action = authEmailCheck) (hr : i.result = true) (hs : SameFields p p') :
      Replied p i p' [.signIn authLogin p.mEt_email p.mEt_pwd] false
  | starts {p'} (ha : i.action = authLogin) (hr : i.result = true) (hs : SameFields p p') :
      Replied p i p' [] true

variable {emailAddress : String → Bool} {p p' : AuthHome}

theorem sameFields_toggle (isShow : Bool) (case : ℤ) (h : SameFields p p') :
    SameFields p (toggleErrFeedback isShow case p') := by
  unfold toggleErrFeedback
  split
  · exact h
  · split <;> exact h

theorem tapped_act (emailAddress : String → Bool) (p : AuthHome) (t : Action) :
    Tapped emailAddress p t (act emailAddress p t).1 (act emailAddress p t).2 := by
  have hsame : SameFields p p := ⟨rfl, rfl⟩
  cases t with
  | typeEmail text => exact .typesEmail text
  | typePwd text => exact .typesPwd text
  | onIdTap | onPwdTap => exact .quiet (sameFields_toggle _ _ hsame)
  | onForgotTap => exact .quiet hsame
  | onLoginTap =>
    simp only [act, onLoginTap]
    split
    · rename_i hemail
      split
      · rename_i hpwd
        exact .checks ⟨hemail, hpwd⟩
      · exact .quiet (sameFields_toggle _ _ ⟨rfl, rfl⟩)
    · exact .quiet (sameFields_toggle _ _ ⟨rfl, rfl⟩)

theorem replied_onReceive (p : AuthHome) (i : Intent) :
    Replied p i (onReceive p i).1 (onReceive p i).2.1 (onReceive p i).2.2 := by
  have hsame : SameFields p p := ⟨rfl, rfl⟩
  unfold onReceive
  split
  · rename_i ha
    split
    · rename_i hr
      exact .signsIn ha hr (sameFields_toggle _ _ hsame)
    · exact .quiet (sameFields_toggle _ _ ⟨rfl, rfl⟩)
  · split
    · rename_i ha
      split
      · rename_i hr
        exact .starts ha hr (sameFields_toggle _ _ hsame)
      · exact .quiet (sameFields_toggle _ _ ⟨rfl, rfl⟩)
    · exact .quiet hsame

/-! ### What a failed login shows -/

/-- A tap on the page, or a reply to it. -/
def visit (emailAddress : String → Bool) (p : AuthHome) : Action ⊕ Intent → Option AuthHome
  | .inl t => some (act emailAddress p t).1
  | .inr i => some (onReceive p i).1

/-- The user taps login with a good email and a password that is too short. -/
def TooShort (emailAddress : String → Bool) (p : AuthHome) (e : Action ⊕ Intent) : Prop :=
  e = .inl .onLoginTap ∧ isEmailValid emailAddress p.mEt_email = msgEmailValid ∧ isPwdValid [p.mEt_pwd] ≠ msgPwdValid

theorem isPwdValid_singleton (pwd : String) : isPwdValid [pwd] = msgPwdValid ∨ isPwdValid [pwd] = msgPwdLength := by
  show (if utf16Length pwd ≥ 8 then msgPwdValid else msgPwdLength) = _ ∨ (if utf16Length pwd ≥ 8 then _ else _) = _
  split
  · exact .inl rfl
  · exact .inr rfl

@[simp] theorem text_toggle (isShow : Bool) (case : ℤ) (p : AuthHome) :
    (toggleErrFeedback isShow case p).mTv_err_pwd.text = p.mTv_err_pwd.text := by
  unfold toggleErrFeedback
  split
  · rfl
  · split <;> rfl

/-- Only the tap with a short password changes the text of the password's error. -/
theorem text_visit {e : Action ⊕ Intent} (h : visit emailAddress p e = some p') :
    (TooShort emailAddress p e → p'.mTv_err_pwd.text = msgPwdLength) ∧
      (¬ TooShort emailAddress p e → p'.mTv_err_pwd.text = p.mTv_err_pwd.text) := by
  cases e with
  | inl t =>
    obtain rfl := Option.some.inj h
    cases t with
    | onLoginTap =>
      simp only [act, onLoginTap]
      by_cases hemail : isEmailValid emailAddress p.mEt_email = msgEmailValid
      · rw [if_pos hemail]
        rcases isPwdValid_singleton p.mEt_pwd with hpwd | hpwd
        · rw [if_pos hpwd]
          exact ⟨fun hshort => absurd hpwd hshort.2.2, fun _ => rfl⟩
        · have hshort : isPwdValid [p.mEt_pwd] ≠ msgPwdValid := by
            rw [hpwd]
            decide
          rw [if_neg hshort, text_toggle]
          exact ⟨fun _ => hpwd, fun hno => absurd ⟨rfl, hemail, hshort⟩ hno⟩
      · rw [if_neg hemail, text_toggle]
        exact ⟨fun hshort => absurd hshort.2.1 hemail, fun _ => rfl⟩
    | _ =>
      refine ⟨fun hshort => ?_, fun _ => ?_⟩
      · cases hshort.1
      · simp only [act, text_toggle]
  | inr i =>
    obtain rfl := Option.some.inj h
    refine ⟨fun hshort => ?_, fun _ => ?_⟩
    · cases hshort.1
    · unfold onReceive
      split
      · split <;> simp only [text_toggle]
      · split
        · split <;> simp only [text_toggle]
        · rfl

/-- **What a failed login shows**: after any taps and replies, the error of the password,
with the text of the layout if no password that is too short has been tried on the page
with an accepted email, and otherwise with the message about the length. -/
theorem failed_login_shows (emailAddress : String → Bool) (es : List (Action ⊕ Intent)) (p : AuthHome) (i : Intent)
    (h : run (visit emailAddress) onCreate es = some p) (ha : i.action = authLogin) (hr : i.result = false) :
    (onReceive p i).1.mTv_err_id.text = msgPwdMatch ∧ (onReceive p i).1.mTv_err_pwd.visible = true ∧
      ((onReceive p i).1.mTv_err_pwd.text = "incorrect password" ↔
        Along (visit emailAddress) (fun p e => ¬ TooShort emailAddress p e) onCreate es) ∧
      ((onReceive p i).1.mTv_err_pwd.text = "incorrect password" ∨ (onReceive p i).1.mTv_err_pwd.text = msgPwdLength) := by
  have hpage : (onReceive p i).1 = toggleErrFeedback true toggleCasePwd { p with mTv_err_id.text := msgPwdMatch } := by
    have hother : i.action ≠ authEmailCheck := by
      rw [ha]
      decide
    simp only [onReceive, if_neg hother, if_pos ha, hr, Bool.false_eq_true, if_false]
  rw [hpage, text_toggle]
  refine ⟨rfl, rfl, ?_⟩
  have hsplit := run_splits (I := fun p => p.mTv_err_pwd.text = "incorrect password")
    (J := fun p => p.mTv_err_pwd.text = msgPwdLength)
    (fun p e p' hp hno hv => ((text_visit hv).2 hno).trans hp)
    (fun p e p' _ hyes hv => (text_visit hv).1 (not_not.mp hyes))
    (fun p e p' hp hv => ?_) (show onCreate.mTv_err_pwd.text = _ from rfl) h
  · rcases hsplit with ⟨halong, htext⟩ | ⟨halong, htext⟩
    · exact ⟨iff_of_true htext halong, .inl htext⟩
    · refine ⟨iff_of_false (fun htext' => ?_) halong, .inr htext⟩
      exact absurd (htext.symm.trans htext') (by decide)
  · by_cases hshort : TooShort emailAddress p e
    · exact (text_visit hv).1 hshort
    · exact ((text_visit hv).2 hshort).trans hp

/-! A password that is too short, and then one that is wrong. -/

def containsAt (s : String) : Bool := s.toList.contains '@'

def tried : List (Action ⊕ Intent) :=
  [.inl (.typeEmail "ann@mail.com"), .inl (.typePwd "short"), .inl .onLoginTap, .inl (.typePwd "long enough"),
    .inl .onLoginTap, .inr ⟨authEmailCheck, true, none⟩]

theorem failed_login_shows_ann :
    ∃ p, run (visit containsAt) onCreate tried = some p ∧
      (onReceive p ⟨authLogin, false, none⟩).1.mTv_err_pwd = ⟨"Password must be at least 8 characters.", true⟩ ∧
      (onReceive p ⟨authLogin, false, none⟩).1.mTv_err_id.text = msgPwdMatch ∧
      (onReceive p ⟨authLogin, false, none⟩).1.mTv_err_pwd.visible = true ∧
      ((onReceive p ⟨authLogin, false, none⟩).1.mTv_err_pwd.text = "incorrect password" ↔
        Along (visit containsAt) (fun p e => ¬ TooShort containsAt p e) onCreate tried) ∧
      ((onReceive p ⟨authLogin, false, none⟩).1.mTv_err_pwd.text = "incorrect password" ∨
        (onReceive p ⟨authLogin, false, none⟩).1.mTv_err_pwd.text = msgPwdLength) :=
  ⟨_, rfl, by decide, failed_login_shows containsAt tried _ ⟨authLogin, false, none⟩ rfl rfl rfl⟩

end AuthHome
end FootballGallery
