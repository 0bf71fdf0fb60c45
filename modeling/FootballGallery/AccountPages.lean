/-
# The pages that write users

Clients on the two pages of the sign-up or on the edit of their profile, against
one backend. A tap on next opens the profile page on top of the email page, and
the back button returns to it.

A message is labelled with what the page's fields said when it was sent: what
is asked for is what the label says, and a reply continues only a flow of its
own page.

Key definitions: `Page`, `Label`, `accounts`, `Starts`, `Continues`, `Sent`.
Key theorems: `starts_act`, `continues_recv`, `replies_exec`, `sent_of_reach`.
-/
import FootballGallery.AuthSignUpEmail
import FootballGallery.AuthSignUpProfile
import FootballGallery.ProfileEditActivity
import FootballGallery.TaskSteps
import FootballGallery.Lib.Claims

namespace FootballGallery
namespace Accounts

open DBUtil Async

inductive Page where
  | email (p : SignUpEmail)
  /-- the profile page and the email page under it -/
  | signUp (below : SignUpEmail) (p : SignUpProfile)
  | profileEdit (p : ProfileEdit)
deriving DecidableEq

/-- What the user does. -/
inductive Action where
  | email (t : AuthSignUpEmail.Action)
  | onNextTap
  | signUp (t : AuthSignUpProfile.Action)
  | back
  | profileEdit (t : ProfileEditActivity.Action)
deriving DecidableEq

/-- What the fields of a page say; of a profile also whose it is and the name it has. -/
inductive Label where
  | email (text : String)
  | signUp (email uname pwd conf : String)
  | profileEdit (id oldName uname : String)
deriving DecidableEq

namespace Page

def label : Page → Label
  | .email p => .email p.mEt_email
  | .signUp _ p => .signUp p.mEmail p.mEt_uname p.mEt_pwd p.mEt_pwd_conf
  | .profileEdit p => .profileEdit p.mUser.mId p.mUser.mUName p.et_uname

/-- An action of another page does nothing. -/
def act (emailAddress : String → Bool) : Page → Action → Page × List Request
  | .email p, .email t =>
    (.email (AuthSignUpEmail.act emailAddress p t).1, (AuthSignUpEmail.act emailAddress p t).2)
  | .email p, .onNextTap =>
    match AuthSignUpEmail.onNextTap p with
    | some text => (.signUp p (AuthSignUpProfile.onCreate text), [])
    | none => (.email p, [])
  | .signUp below p, .signUp t => (.signUp below (AuthSignUpProfile.act p t).1, (AuthSignUpProfile.act p t).2)
  | .signUp below _, .back => (.email below, [])
  | .profileEdit p, .profileEdit t =>
    (.profileEdit (ProfileEditActivity.act p t).1, (ProfileEditActivity.act p t).2)
  | c, _ => (c, [])

/-- A reply comes to the page on top. -/
def recv : Page → Intent → Page × List Request
  | .email p, i => (.email (AuthSignUpEmail.onReceive p i).1, (AuthSignUpEmail.onReceive p i).2)
  | .signUp below p, i =>
    (.signUp below (AuthSignUpProfile.onReceive p i).1, (AuthSignUpProfile.onReceive p i).2)
  | .profileEdit p, i =>
    (.profileEdit (ProfileEditActivity.onReceive p i).1, (ProfileEditActivity.onReceive p i).2)

end Page

def accounts (emailAddress : String → Bool) : App Database Page Request Intent Action Label where
  act c a := some (c.act emailAddress a)
  exec := exec
  recv c i := some (c.recv i)
  tag := Page.label

abbrev AccountMsg := Msg Request Intent Label

/-! ### What a page asks for -/

/-- What a tap on a page with the label `l` asks for. -/
inductive Starts : Label → Request → Prop
  | verifyEmail {text} :
      Starts (.email text) (.fetchSignIn AuthSignUpEmail.verifyEmail text caseSignup)
  | verifyUsername {e n w v} (hp : AuthSignUpProfile.Passes n w v) :
      Starts (.signUp e n w v) (.queryUsername AuthSignUpProfile.userVerifyUsernameAction n)
  | verifyNewName {id old n} :
      Starts (.profileEdit id old n) (.queryUsername ProfileEditActivity.verifyUsername n)
  | saves {id n doc} (hname : doc.username = n) :
      Starts (.profileEdit id n n) (.updateUser ProfileEditActivity.updateProfile id doc)

/-- The actions whose replies make a page go on. -/
def goesOn (action : String) : Bool :=
  action == AuthSignUpProfile.userVerifyUsernameAction || action == AuthSignUpProfile.authCreateAccount ||
    action == ProfileEditActivity.verifyUsername

/-- What a reply makes a page with the label `l` ask for. -/
inductive Continues : Label → Request → Prop
  | creates {e n w v} : Continues (.signUp e n w v) (.createAccount AuthSignUpProfile.authCreateAccount e w)
  | stores {e n w v doc} (hname : doc.username = n) :
      Continues (.signUp e n w v) (.setUser AuthSignUpProfile.authCreateUserInUsers e doc)
  | saves {id old n doc} (hname : doc.username = n) :
      Continues (.profileEdit id old n) (.updateUser ProfileEditActivity.updateProfile id doc)

/-- What a page with the label `l` asks for. -/
def Asks (l : Label) (q : Request) : Prop := Starts l q ∨ Continues l q

/-- What may be under way for a page that had the label `l`. -/
def Sent (l : Label) : Request ⊕ Intent → Prop
  | .inl q => Asks l q
  | .inr i => ∃ q, Asks l q ∧ i.action = q.action

section Pages

variable {emailAddress : String → Bool} {below : SignUpEmail} {i : Intent} {qs : List Request}

theorem starts_email {p p' : SignUpEmail} {t : AuthSignUpEmail.Action}
    (h : AuthSignUpEmail.Tapped p t p' qs) : ∀ q ∈ qs, Starts (Page.email p').label q := by
  intro q hq
  cases h with
  | types | quiet => cases hq
  | verifies =>
    obtain rfl := List.mem_singleton.mp hq
    exact .verifyEmail

theorem starts_signUp {p p' : SignUpProfile} {t : AuthSignUpProfile.Action}
    (h : AuthSignUpProfile.Tapped p t p' qs) : ∀ q ∈ qs, Starts (Page.signUp below p').label q := by
  intro q hq
  cases h with
  | quiet => cases hq
  | verifies hp =>
    obtain rfl := List.mem_singleton.mp hq
    exact .verifyUsername hp

theorem starts_profileEdit {p p' : ProfileEdit} {t : ProfileEditActivity.Action}
    (h : ProfileEditActivity.Tapped p t p' qs) : ∀ q ∈ qs, Starts (Page.profileEdit p').label q := by
  intro q hq
  cases h with
  | quiet => cases hq
  | verifies hu hname =>
    obtain rfl := List.mem_singleton.mp hq
    rw [Page.label, hname]
    exact .verifyNewName
  | saves hu hname hsame =>
    obtain rfl := List.mem_singleton.mp hq
    rw [Page.label, hu, hname, hsame]
    exact .saves hsame

theorem starts_act (c : Page) (a : Action) :
    ∀ q ∈ (c.act emailAddress a).2, Starts (c.act emailAddress a).1.label q := by
  have hnone : ∀ {l : Label}, ∀ q ∈ ([] : List Request), Starts l q := fun q hq => by cases hq
  cases c with
  | email p =>
    cases a with
    | email t => exact starts_email (AuthSignUpEmail.tapped_act emailAddress p t)
    | onNextTap =>
      simp only [Page.act]
      split <;> exact hnone
    | _ => exact hnone
  | signUp below p =>
    cases a with
    | signUp t => exact starts_signUp (AuthSignUpProfile.tapped_act p t)
    | _ => exact hnone
  | profileEdit p =>
    cases a with
    | profileEdit t => exact starts_profileEdit (ProfileEditActivity.tapped_act p t)
    | _ => exact hnone

theorem continues_signUp {p p' : SignUpProfile} (h : AuthSignUpProfile.Replied p i p' qs) :
    (Page.signUp below p').label = (Page.signUp below p).label ∧
      ∀ q ∈ qs, Continues (Page.signUp below p).label q ∧ i.result = true ∧ goesOn i.action = true := by
  cases h with
  | quiet hs =>
    refine ⟨?_, fun q hq => by cases hq⟩
    rw [Page.label, hs.email, hs.uname, hs.pwd, hs.conf]
    rfl
  | creates ha hr =>
    refine ⟨rfl, fun q hq => ?_⟩
    obtain rfl := List.mem_singleton.mp hq
    exact ⟨.creates, hr, by rw [ha]; rfl⟩
  | stores ha hr hs hname =>
    refine ⟨?_, fun q hq => ?_⟩
    · rw [Page.label, hs.email, hs.uname, hs.pwd, hs.conf]
      rfl
    · obtain rfl := List.mem_singleton.mp hq
      exact ⟨.stores hname, hr, by rw [ha]; rfl⟩

theorem continues_profileEdit {p p' : ProfileEdit} (h : ProfileEditActivity.Replied p i p' qs) :
    (Page.profileEdit p').label = (Page.profileEdit p).label ∧
      ∀ q ∈ qs, Continues (Page.profileEdit p).label q ∧ i.result = true ∧ goesOn i.action = true := by
  have hlabel : (Page.profileEdit p').label = (Page.profileEdit p).label := by
    rw [Page.label, h.user, h.uname]
    rfl
  refine ⟨hlabel, fun q hq => ?_⟩
  cases h with
  | quiet => cases hq
  | saves _ _ ha hr =>
    obtain rfl := List.mem_singleton.mp hq
    exact ⟨.saves rfl, hr, by rw [ha]; rfl⟩

/-- A reply leaves the fields alone, and only a positive one makes a page go on. -/
theorem continues_recv (c : Page) (i : Intent) :
    (c.recv i).1.label = c.label ∧
      ∀ q ∈ (c.recv i).2, Continues c.label q ∧ i.result = true ∧ goesOn i.action = true := by
  cases c with
  | email p =>
    obtain ⟨hr, hqs⟩ := AuthSignUpEmail.replied_onReceive p i
    simp only [Page.recv, Page.label, hqs]
    refine ⟨congrArg Label.email ?_, fun q hq => by cases hq⟩
    generalize (AuthSignUpEmail.onReceive p i).1 = p' at hr
    cases hr <;> rfl
  | signUp below p => exact continues_signUp (AuthSignUpProfile.replied_onReceive p i)
  | profileEdit p => exact continues_profileEdit (ProfileEditActivity.replied_onReceive p i)

end Pages

/-- The backend answers what a page asks with a single kind of reply. -/
theorem replies_exec {l : Label} {ok : Bool} {db db' : Database} {q : Request} {out : List (Request ⊕ Intent)}
    (hq : Asks l q) (h : exec ok db q = some (db', out)) :
    ∀ b ∈ out, ∃ r, b = .inr ⟨q.action, r, none⟩ := by
  intro b hb
  have hex := executed_exec h
  rcases hq with hq | hq <;> cases hq <;> cases hex with
  | wrote => exact ⟨true, List.mem_singleton.mp hb⟩
  | fails hall => exact ⟨false, hall b hb⟩
  | answers _ r => exact ⟨r, List.mem_singleton.mp hb⟩

/-- Everything under way is what its page has asked for, or an answer to it. -/
theorem sent_of_reach {emailAddress : String → Bool} {ok : Conf Database Page Request Intent Label → Ev Action → Prop}
    {s₀ s : Conf Database Page Request Intent Label} (h0 : s₀.net = [])
    (h : Reach (accounts emailAddress) ok s₀ s) : ∀ m ∈ s.net, Sent m.tag m.body := by
  have hparts : Parts (accounts emailAddress) ok (fun _ => True) (fun _ => True) (fun m => Sent m.tag m.body) := by
    refine ⟨fun s i a c c' qs _ _ ha _ => ?_, fun s n b i t q st out _ _ he _ hq => ?_,
      fun s n i t r c c' qs _ _ _ hr _ _ => ?_⟩
    · obtain ⟨rfl, rfl⟩ := Prod.mk.inj (Option.some.inj ha)
      exact ⟨trivial, fun q hq => .inl (starts_act c a q hq)⟩
    · refine ⟨trivial, fun x hx => ?_⟩
      obtain ⟨r, rfl⟩ := replies_exec hq he x hx
      exact ⟨q, hq, rfl⟩
    · obtain ⟨rfl, rfl⟩ := Prod.mk.inj (Option.some.inj hr)
      obtain ⟨hlabel, hqs⟩ := continues_recv c r
      refine ⟨trivial, fun q hq => .inr ?_⟩
      show Continues (c.recv r).1.label q
      rw [hlabel]
      exact (hqs q hq).1
  refine (hparts.reach ⟨trivial, fun _ _ _ => trivial, fun m hm => ?_⟩ h).2.2
  rw [h0] at hm
  cases hm

/-! A visitor signs up. -/

def hasAt (s : String) : Bool := s.toList.contains '@'

/-- Client `i` fills in both pages and taps done; message `n` is the next one under way. -/
def fillsIn (i n : ℕ) (email : String) : List (Ev Action) :=
  [.act i (.email (.typeEmail email)), .act i (.email .onVerifyTap), .exec n true, .deliver n,
    .act i .onNextTap, .act i (.signUp (.typeUName "cat")), .act i (.signUp (.typePwd "password")),
    .act i (.signUp (.typePwdConf "password")), .act i (.signUp (.onActivityResult "content://photo")),
    .act i (.signUp .onDoneTap)]

/-- The first three calls of a sign-up succeed; message `n` is the one under way. -/
def signsUp (n : ℕ) : List (Ev Action) := [.exec n true, .deliver n, .exec n true, .deliver n, .exec n true]

end Accounts
end FootballGallery
