/-
# Who is signed in on a device

The pages of the login and of the sign-up, the activities behind them, the calls
under way, and the user that `FirebaseAuth` has signed in: a sign-in that succeeds
sets it when it is carried out, whatever is on screen by then, and the broadcast to
the page comes later. Only the profile's menu signs out, which starts the login in a
task of its own.

An activity that asks who is signed in throws when nobody is. Of the activities behind
the login this module has whom they have found signed in, and the user that the main
activity has been told of, without whom it has no menus. What they ask the backend for
is any call that is not one of the sign-in.

Key definitions: `Page`, `Device`, `act`, `recv`, `Event`, `next`, `launch`, `Happened`.
Key theorems: `happened_next`.
-/
import FootballGallery.AuthHome
import FootballGallery.Navigation
import FootballGallery.TaskSteps

namespace FootballGallery
namespace Sessions

open DBUtil Runs

/-- The activities that the main activity and the profile open. -/
inductive Inner where
  | newsDetail | forumDetail | forumForm | inbox | profileEdit
deriving DecidableEq

/-- The activity asks in `onCreate` who is signed in. -/
def Inner.asksUser : Inner → Bool
  | .forumDetail | .forumForm => true
  | _ => false

/-- An activity; those behind the login have the email of the user they have found
signed in, if they have asked. -/
inductive Page where
  | authHome (p : AuthHome)
  | signUpEmail (p : SignUpEmail)
  | signUpProfile (p : SignUpProfile)
  | core (me : String) (mUser : Option User)
  | profile (me : Option String)
  | inner (k : Inner) (me : Option String)
deriving DecidableEq

/-- The state that the activity on top is in. -/
inductive Life where
  | resumed | paused | stopped
deriving DecidableEq

/-- `currentUser` is the email of `FirebaseAuth.getInstance().getCurrentUser()`, `stack` the
activities with the one on top first, `net` the calls and broadcasts under way. -/
structure Device where
  db : Database
  currentUser : Option String
  stack : List Page
  life : Life
  net : List (Request ⊕ Intent)

/-- What the user does, and the calls that the activities behind the login make. -/
inductive Action where
  | authHome (t : AuthHome.Action)
  | onSignUpTap
  | signUpEmail (t : AuthSignUpEmail.Action)
  | onNextTap
  | signUpProfile (t : AuthSignUpProfile.Action)
  | openProfile
  | openInner (k : Inner)
  | call (q : Request)
  | signOut
  | back
deriving DecidableEq

/-- The actions of the pages that sign a user in. -/
def signInActions : List String :=
  [AuthHome.authEmailCheck, AuthHome.authLogin, AuthSignUpProfile.userVerifyUsernameAction,
    AuthSignUpProfile.authCreateAccount, AuthSignUpProfile.authCreateUserInUsers]

/-- A call of the activities behind the login; those with the main activity's own action ask
for a user. -/
def behindCall : Request → Bool
  | .signIn .. | .fetchSignIn .. | .createAccount .. | .setUser .. => false
  | .getUser a .. => a ∉ signInActions
  | q => q.action ∉ signInActions && q.action != CoreActivity.getUserInfo

/-- The call as it is made: an update of an array of the user reads the email of the user
who is signed in. -/
def asUser (user : Option String) : Request → Option Request
  | .updateUserArray a _ f op v => user.map fun me => .updateUserArray a me f op v
  | q => some q

/-- What `x` opens, besides the profile. -/
def Page.opensInner : Page → Inner → Bool
  | .core _ mUser, k => mUser.isSome && k != .profileEdit
  | .profile _, k => k == .profileEdit || k == .forumDetail
  | .inner .forumDetail _, k => k == .forumForm
  | _, _ => false

namespace Device

def issue (qs : List Request) (w : Device) : Device := { w with net := w.net ++ qs.map .inl }

def push (x : Page) (w : Device) : Device := { w with stack := x :: w.stack }

/-- `CoreActivity.onCreate` reads the email of the user who is signed in. -/
def startMainActivity (w : Device) : Option Device :=
  w.currentUser.map fun me => (w.push (.core me none)).issue (userGetUserInfo me CoreActivity.getUserInfo)

/-- `onStart` of the activity on top -/
def onStart (w : Device) : Option Device :=
  match w.stack with
  | .authHome _ :: _ => if w.currentUser.isSome then w.startMainActivity else some w
  | _ => some w

/-- `onResume` of the activity on top -/
def onResume (w : Device) : Option Device :=
  match w.stack with
  | .profile _ :: rest => w.currentUser.map fun me =>
      { w with stack := .profile (some me) :: rest }.issue (userGetUserInfo me ProfileActivity.getUserInfo)
  | _ => some w

/-- The activity on top is started and resumed. -/
def appear (w : Device) : Option Device := { w with life := .resumed }.onStart.bind onResume

def openInner (k : Inner) (w : Device) : Option Device :=
  if k.asksUser then w.currentUser.map fun me => w.push (.inner k (some me)) else some (w.push (.inner k none))

end Device

section Act

variable (emailAddress : String → Bool)

/-- What the activity on top does on an action; one that it does not have does nothing. -/
def act (w : Device) (a : Action) : Option Device :=
  match a, w.stack with
  | .authHome t, .authHome p :: rest =>
    some ({ w with stack := .authHome (AuthHome.act emailAddress p t).1 :: rest }.issue (AuthHome.act emailAddress p t).2)
  | .onSignUpTap, .authHome _ :: _ => some (w.push (.signUpEmail AuthSignUpEmail.onCreate))
  | .signUpEmail t, .signUpEmail p :: rest =>
    some ({ w with stack := .signUpEmail (AuthSignUpEmail.act emailAddress p t).1 :: rest }.issue
      (AuthSignUpEmail.act emailAddress p t).2)
  | .onNextTap, .signUpEmail p :: _ =>
    match AuthSignUpEmail.onNextTap p with
    | some text => some (w.push (.signUpProfile (AuthSignUpProfile.onCreate text)))
    | none => some w
  | .signUpProfile t, .signUpProfile p :: rest =>
    some ({ w with stack := .signUpProfile (AuthSignUpProfile.act p t).1 :: rest }.issue (AuthSignUpProfile.act p t).2)
  | .openProfile, .core _ mUser :: _ => if mUser.isSome then (w.push (.profile none)).onResume else some w
  | .openInner k, x :: _ => if x.opensInner k then w.openInner k else some w
  | .call q, .inner _ _ :: _ =>
    if behindCall q then (asUser w.currentUser q).map fun q' => w.issue [q'] else some w
  | .signOut, .profile _ :: _ =>
    { w with currentUser := none, stack := [.authHome AuthHome.onCreate] }.appear
  | .back, [_] => some { w with stack := [], life := .stopped }
  | .back, _ :: rest => { w with stack := rest }.appear
  | _, _ => some w

end Act

/-! ### Broadcasts -/

/-- What the broadcast `i` makes of an activity with its receivers registered: what it asks
for, and whether it starts the main activity. -/
def hear (i : Intent) : Page → Option (Page × List Request × Bool)
  | .authHome p => some (.authHome (AuthHome.onReceive p i).1, (AuthHome.onReceive p i).2)
  | .signUpEmail p => some (.signUpEmail (AuthSignUpEmail.onReceive p i).1, (AuthSignUpEmail.onReceive p i).2, false)
  | .signUpProfile p => some (.signUpProfile (AuthSignUpProfile.onReceive p i).1, (AuthSignUpProfile.onReceive p i).2,
      i.action == AuthSignUpProfile.authCreateUserInUsers && i.result)
  | .core me mUser =>
    if i.action = CoreActivity.getUserInfo then
      match i.result, i.extra with
      | true, some (.user u) => some (.core me (some u), [], false)
      | true, some _ => none
      | _, _ => some (.core me mUser, [], false)
    else some (.core me mUser, [], false)
  | x => some (x, [], false)

/-- What it makes of one that has been paused: `AuthSignUpProfile` does not unregister the
receiver for the username. -/
def overhear (i : Intent) : Page → Page × List Request
  | .signUpProfile p =>
    if i.action = AuthSignUpProfile.userVerifyUsernameAction then
      (.signUpProfile (AuthSignUpProfile.onReceive p i).1, (AuthSignUpProfile.onReceive p i).2)
    else (.signUpProfile p, [])
  | x => (x, [])

/-- The activities `xs`, all paused, get the broadcast. -/
def Device.overhears (i : Intent) (above : List Page) (xs : List Page) (w : Device) : Device :=
  { w with stack := above ++ xs.map fun x => (overhear i x).1 }.issue (xs.flatMap fun x => (overhear i x).2)

def recv (i : Intent) (w : Device) : Option Device :=
  if w.life = .resumed then
    match w.stack with
    | [] => some w
    | x :: rest =>
      match hear i x with
      | none => none
      | some (x', qs, starts) =>
        if starts then (w.overhears i [x'] rest |>.issue qs).startMainActivity
        else some (w.overhears i [x'] rest |>.issue qs)
  else some (w.overhears i [] w.stack)

/-! ### Events -/

/-- The user who is signed in after the call `q`. -/
def signedIn (q : Request) (out : List (Request ⊕ Intent)) (user : Option String) : Option String :=
  match q with
  | .signIn _ email _ | .createAccount _ email _ =>
    if out.any fun b => b.elim (fun _ => false) (·.result) then some email else user
  | _ => user

inductive Event where
  | act (a : Action)
  | pause
  | stop
  /-- the user comes back to the app, or starts it -/
  | resume
  | exec (n : ℕ) (ok : Bool)
  | deliver (n : ℕ)
  /-- another device's call is carried out -/
  | elsewhere (ok : Bool) (q : Request)
deriving DecidableEq

/-- One event; `none`: an exception ends the app. -/
def next (emailAddress : String → Bool) (w : Device) : Event → Option Device
  | .act a => if w.life = .resumed then act emailAddress w a else some w
  | .pause => some (if w.life = .resumed then { w with life := .paused } else w)
  | .stop => some (if w.life = .paused then { w with life := .stopped } else w)
  | .resume =>
    match w.life, w.stack with
    | .resumed, _ => some w
    | .paused, _ => { w with life := .resumed }.onResume
    | .stopped, [] => { w with stack := [.authHome AuthHome.onCreate] }.appear
    | .stopped, _ => w.appear
  | .exec n ok =>
    match w.net[n]? with
    | some (.inl q) => (exec ok w.db q).map fun r =>
        { w with db := r.1, currentUser := signedIn q r.2 w.currentUser, net := w.net.eraseIdx n ++ r.2 }
    | _ => some w
  | .deliver n =>
    match w.net[n]? with
    | some (.inr i) => recv i { w with net := w.net.eraseIdx n }
    | _ => some w
  | .elsewhere ok q => some ((exec ok w.db q).elim w fun r => { w with db := r.1 })

/-- The app before it is started, on a device where `user` is still signed in. -/
def launch (db : Database) (user : Option String) : Device := ⟨db, user, [], .stopped, []⟩

/-! ### What an event can do -/

/-- What a tap makes of the activity on top, and what it asks for. -/
inductive Tapped (emailAddress : String → Bool) : Action → Page → Page → List Request → Prop
  | authHome {t p p' qs} (h : AuthHome.Tapped emailAddress p t p' qs) :
      Tapped emailAddress (.authHome t) (.authHome p) (.authHome p') qs
  | signUpEmail {t p p' qs} (h : AuthSignUpEmail.Tapped p t p' qs) :
      Tapped emailAddress (.signUpEmail t) (.signUpEmail p) (.signUpEmail p') qs
  | signUpProfile {t p p' qs} (h : AuthSignUpProfile.Tapped p t p' qs) :
      Tapped emailAddress (.signUpProfile t) (.signUpProfile p) (.signUpProfile p') qs

/-- What an activity opens, with `user` signed in, and what the new one asks for. -/
inductive Opened (user : Option String) : Page → Page → List Request → Prop
  | signUpEmail {p} : Opened user (.authHome p) (.signUpEmail AuthSignUpEmail.onCreate) []
  | signUpProfile {p text} (h : AuthSignUpEmail.onNextTap p = some text) :
      Opened user (.signUpEmail p) (.signUpProfile (AuthSignUpProfile.onCreate text)) []
  | profile {c u me} (hu : user = some me) :
      Opened user (.core c (some u)) (.profile (some me)) [.getUser ProfileActivity.getUserInfo me false]
  | inner {x k m} (hx : x.opensInner k = true) (hm : ∀ me ∈ m, user = some me) : Opened user x (.inner k m) []

/-- The activity on top is started and resumed. -/
inductive Appeared (w : Device) : Device → Prop
  | shows (hhome : ∀ p rest, w.stack = .authHome p :: rest → w.currentUser = none) :
      Appeared w { w with life := .resumed }
  | starts {p rest me} (hs : w.stack = .authHome p :: rest) (hu : w.currentUser = some me) :
      Appeared w (({ w with life := .resumed }.push (.core me none)).issue [.getUser CoreActivity.getUserInfo me false])
  | reads {m rest me} (hs : w.stack = .profile m :: rest) (hu : w.currentUser = some me) :
      Appeared w ({ w with life := .resumed, stack := .profile (some me) :: rest }.issue
        [.getUser ProfileActivity.getUserInfo me false])

inductive Acted (emailAddress : String → Bool) (w : Device) : Action → Device → Prop
  | stays {a} : Acted emailAddress w a w
  | taps {a x x' rest qs} (hs : w.stack = x :: rest) (ht : Tapped emailAddress a x x' qs) :
      Acted emailAddress w a ({ w with stack := x' :: rest }.issue qs)
  | opens {a x y rest qs} (hs : w.stack = x :: rest) (ho : Opened w.currentUser x y qs) :
      Acted emailAddress w a ((w.push y).issue qs)
  | calls {k m rest q q'} (hs : w.stack = .inner k m :: rest) (hq : behindCall q = true)
      (hq' : asUser w.currentUser q = some q') : Acted emailAddress w (.call q) (w.issue [q'])
  | signsOut {m rest} (hs : w.stack = .profile m :: rest) :
      Acted emailAddress w .signOut
        { w with currentUser := none, stack := [.authHome AuthHome.onCreate], life := .resumed }
  | closes {x} (hs : w.stack = [x]) : Acted emailAddress w .back { w with stack := [], life := .stopped }
  | back {x y rest w'} (hs : w.stack = x :: y :: rest) (h : Appeared { w with stack := y :: rest } w') :
      Acted emailAddress w .back w'

/-- What a broadcast makes of an activity, what this asks for, and whether it starts the
main activity. -/
inductive Heard (i : Intent) : Page → Page → List Request → Bool → Prop
  | quiet {x} : Heard i x x [] false
  | authHome {p p' qs starts} (h : AuthHome.Replied p i p' qs starts) :
      Heard i (.authHome p) (.authHome p') qs starts
  | signUpEmail {p p'} (h : AuthSignUpEmail.Replied p i p') : Heard i (.signUpEmail p) (.signUpEmail p') [] false
  | signUpProfile {p p' qs} (h : AuthSignUpProfile.Replied p i p' qs) :
      Heard i (.signUpProfile p) (.signUpProfile p') qs false
  | signedUp {p p' qs} (h : AuthSignUpProfile.Replied p i p' qs) (ha : i.action = AuthSignUpProfile.authCreateUserInUsers)
      (hr : i.result = true) : Heard i (.signUpProfile p) (.signUpProfile p') qs true
  | told {me mUser u} (ha : i.action = CoreActivity.getUserInfo) (hr : i.result = true)
      (hx : i.extra = some (.user u)) : Heard i (.core me mUser) (.core me (some u)) [] false

/-- The broadcast is heard by the activities `above`, which become `above'` and ask for
`qs`, and overheard by the others. -/
inductive Received (i : Intent) (w : Device) : Device → Prop
  | overheard (hl : w.life ≠ .resumed) : Received i w (w.overhears i [] w.stack)
  | empty (hs : w.stack = []) : Received i w w
  | heard {x x' rest qs} (hs : w.stack = x :: rest) (h : Heard i x x' qs false) :
      Received i w ((w.overhears i [x'] rest).issue qs)
  | started {x x' rest qs me} (hs : w.stack = x :: rest) (h : Heard i x x' qs true) (hu : w.currentUser = some me) :
      Received i w ((((w.overhears i [x'] rest).issue qs).push (.core me none)).issue
        [.getUser CoreActivity.getUserInfo me false])

/-- What an event can do. -/
inductive Happened (emailAddress : String → Bool) (w : Device) : Event → Device → Prop
  | nothing {e} : Happened emailAddress w e w
  | acts {a w'} (hl : w.life = .resumed) (h : Acted emailAddress w a w') : Happened emailAddress w (.act a) w'
  | pauses (hl : w.life = .resumed) : Happened emailAddress w .pause { w with life := .paused }
  | stops (hl : w.life = .paused) : Happened emailAddress w .stop { w with life := .stopped }
  | launches {w'} (hs : w.stack = []) (h : Appeared { w with stack := [.authHome AuthHome.onCreate] } w') :
      Happened emailAddress w .resume w'
  | resumes {w'} (hl : w.life ≠ .resumed) (h : Appeared w w') : Happened emailAddress w .resume w'
  | comesBack (hl : w.life = .paused) : Happened emailAddress w .resume { w with life := .resumed }
  | execs {n ok q db out} (hn : w.net[n]? = some (.inl q)) (he : exec ok w.db q = some (db, out)) :
      Happened emailAddress w (.exec n ok)
        { w with db := db, currentUser := signedIn q out w.currentUser, net := w.net.eraseIdx n ++ out }
  | delivers {n i w'} (hn : w.net[n]? = some (.inr i)) (h : Received i { w with net := w.net.eraseIdx n } w') :
      Happened emailAddress w (.deliver n) w'
  | elsewhere {ok q db out} (he : exec ok w.db q = some (db, out)) :
      Happened emailAddress w (.elsewhere ok q) { w with db := db }

section Inversion

variable {emailAddress : String → Bool} {w w' : Device}

theorem appeared_onResume (h : ({ w with life := .resumed } : Device).onResume = some w') :
    w' = { w with life := .resumed } ∨ Appeared w w' := by
  unfold Device.onResume at h
  split at h
  · rename_i hs
    obtain ⟨me, hu, rfl⟩ := Option.map_eq_some_iff.mp h
    exact .inr (.reads hs hu)
  · exact .inl (Option.some.inj h).symm

theorem appeared_appear (h : w.appear = some w') : Appeared w w' := by
  have hshows : (∀ p rest, w.stack = .authHome p :: rest → w.currentUser = none) →
      ({ w with life := .resumed } : Device).onResume = some w' → Appeared w w' := by
    intro hhome hresume
    rcases appeared_onResume hresume with rfl | h
    · exact .shows hhome
    · exact h
  obtain ⟨w₁, hstart, hresume⟩ := Option.bind_eq_some_iff.mp h
  unfold Device.onStart at hstart
  split at hstart
  · rename_i p rest hs
    split at hstart
    · obtain ⟨me, hu, rfl⟩ := Option.map_eq_some_iff.mp hstart
      obtain rfl := Option.some.inj hresume
      exact .starts hs hu
    · rename_i hnone
      obtain rfl := Option.some.inj hstart
      exact hshows (fun _ _ _ => Option.not_isSome_iff_eq_none.mp hnone) hresume
  · rename_i hs
    obtain rfl := Option.some.inj hstart
    exact hshows (fun p rest h => absurd h (hs p rest)) hresume

theorem acted_openInner {x : Page} {rest : List Page} {k : Inner} {a : Action} (hs : w.stack = x :: rest)
    (hx : x.opensInner k = true) (h : w.openInner k = some w') : Acted emailAddress w a w' := by
  unfold Device.openInner at h
  split at h
  · obtain ⟨me, hu, rfl⟩ := Option.map_eq_some_iff.mp h
    have hacted := @Acted.opens emailAddress w a x (.inner k (some me)) rest [] hs
      (.inner hx fun me' hme' => hu.trans hme')
    rwa [Device.issue, List.map_nil, List.append_nil] at hacted
  · obtain rfl := Option.some.inj h
    have hacted := @Acted.opens emailAddress w a x (.inner k none) rest [] hs (.inner hx fun _ hno => by cases hno)
    rwa [Device.issue, List.map_nil, List.append_nil] at hacted

theorem acted_act {a : Action} (h : act emailAddress w a = some w') :
    Acted emailAddress w a w' := by
  unfold act at h
  split at h
  · rename_i hs
    obtain rfl := Option.some.inj h
    exact .taps hs (.authHome (AuthHome.tapped_act _ _ _))
  · rename_i hs
    obtain rfl := Option.some.inj h
    have hacted := @Acted.opens emailAddress w .onSignUpTap _ _ _ [] hs .signUpEmail
    rwa [Device.issue, List.map_nil, List.append_nil] at hacted
  · rename_i hs
    obtain rfl := Option.some.inj h
    exact .taps hs (.signUpEmail (AuthSignUpEmail.tapped_act _ _ _))
  · rename_i hs
    split at h
    · rename_i htext
      obtain rfl := Option.some.inj h
      have hacted := @Acted.opens emailAddress w .onNextTap _ _ _ [] hs (.signUpProfile htext)
      rwa [Device.issue, List.map_nil, List.append_nil] at hacted
    · obtain rfl := Option.some.inj h
      exact .stays
  · rename_i hs
    obtain rfl := Option.some.inj h
    exact .taps hs (.signUpProfile (AuthSignUpProfile.tapped_act _ _))
  · rename_i hs
    split at h
    · rename_i hsome
      obtain ⟨u, rfl⟩ := Option.isSome_iff_exists.mp hsome
      obtain ⟨me, hu, rfl⟩ := Option.map_eq_some_iff.mp h
      exact .opens hs (.profile hu)
    · obtain rfl := Option.some.inj h
      exact .stays
  · rename_i hs
    split at h
    · rename_i hx
      exact acted_openInner hs hx h
    · obtain rfl := Option.some.inj h
      exact .stays
  · rename_i hs
    split at h
    · rename_i hq
      obtain ⟨q', hq', rfl⟩ := Option.map_eq_some_iff.mp h
      exact .calls hs hq hq'
    · obtain rfl := Option.some.inj h
      exact .stays
  · rename_i hs
    have hout : ({ w with currentUser := none, stack := [.authHome AuthHome.onCreate] } : Device).appear =
        some { w with currentUser := none, stack := [.authHome AuthHome.onCreate], life := .resumed } := rfl
    obtain rfl := Option.some.inj (hout.symm.trans h)
    exact .signsOut hs
  · rename_i hs
    obtain rfl := Option.some.inj h
    exact .closes hs
  · rename_i rest hone hs
    cases rest with
    | nil => exact absurd rfl hone
    | cons y rest => exact .back hs (appeared_appear h)
  · obtain rfl := Option.some.inj h
    exact .stays

/-! ### Broadcasts -/

variable {i : Intent}

theorem heard_overhear (i : Intent) (x : Page) : Heard i x (overhear i x).1 (overhear i x).2 false := by
  cases x with
  | signUpProfile p =>
    simp only [overhear]
    split
    · exact .signUpProfile (AuthSignUpProfile.replied_onReceive p i)
    · exact .quiet
  | _ => exact .quiet

theorem heard_hear {x x' : Page} {qs : List Request} {starts : Bool} (h : hear i x = some (x', qs, starts)) :
    Heard i x x' qs starts := by
  cases x with
  | authHome p =>
    obtain ⟨rfl, hrest⟩ := Prod.mk.inj (Option.some.inj h)
    obtain ⟨rfl, rfl⟩ := Prod.mk.inj hrest
    exact .authHome (AuthHome.replied_onReceive p i)
  | signUpEmail p =>
    obtain ⟨rfl, hrest⟩ := Prod.mk.inj (Option.some.inj h)
    obtain ⟨hr, hnil⟩ := AuthSignUpEmail.replied_onReceive p i
    rw [hnil] at hrest
    obtain ⟨rfl, rfl⟩ := Prod.mk.inj hrest
    exact .signUpEmail hr
  | signUpProfile p =>
    obtain ⟨rfl, hrest⟩ := Prod.mk.inj (Option.some.inj h)
    obtain ⟨rfl, rfl⟩ := Prod.mk.inj hrest
    have hr := AuthSignUpProfile.replied_onReceive p i
    cases hstarts : i.action == AuthSignUpProfile.authCreateUserInUsers && i.result with
    | false => exact .signUpProfile hr
    | true =>
      obtain ⟨ha, hresult⟩ := Bool.and_eq_true_iff.mp hstarts
      exact .signedUp hr (beq_iff_eq.mp ha) hresult
  | core me mUser =>
    simp only [hear] at h
    split at h
    · rename_i ha
      split at h
      · rename_i hr hx
        obtain ⟨rfl, hrest⟩ := Prod.mk.inj (Option.some.inj h)
        obtain ⟨rfl, rfl⟩ := Prod.mk.inj hrest
        exact .told ha hr hx
      · cases h
      · obtain ⟨rfl, hrest⟩ := Prod.mk.inj (Option.some.inj h)
        obtain ⟨rfl, rfl⟩ := Prod.mk.inj hrest
        exact .quiet
    · obtain ⟨rfl, hrest⟩ := Prod.mk.inj (Option.some.inj h)
      obtain ⟨rfl, rfl⟩ := Prod.mk.inj hrest
      exact .quiet
  | profile me | inner k me =>
    obtain ⟨rfl, hrest⟩ := Prod.mk.inj (Option.some.inj h)
    obtain ⟨rfl, rfl⟩ := Prod.mk.inj hrest
    exact .quiet

theorem received_recv (h : recv i w = some w') : Received i w w' := by
  unfold recv at h
  split at h
  · split at h
    · rename_i hs
      obtain rfl := Option.some.inj h
      exact .empty hs
    · rename_i hs
      split at h
      · cases h
      · rename_i hx
        have hheard := heard_hear hx
        split at h
        · rename_i hstarts
          subst hstarts
          obtain ⟨me, hu, rfl⟩ := Option.map_eq_some_iff.mp h
          exact .started hs hheard hu
        · rename_i hstarts
          obtain rfl := Bool.eq_false_iff.mpr hstarts
          obtain rfl := Option.some.inj h
          exact .heard hs hheard
  · rename_i hl
    obtain rfl := Option.some.inj h
    exact .overheard hl

theorem happened_next {e : Event} (h : next emailAddress w e = some w') : Happened emailAddress w e w' := by
  cases e with
  | act a =>
    simp only [next] at h
    split at h
    · rename_i hl
      exact .acts hl (acted_act h)
    · obtain rfl := Option.some.inj h
      exact .nothing
  | pause =>
    obtain rfl := Option.some.inj h
    split
    · rename_i hl
      exact .pauses hl
    · exact .nothing
  | stop =>
    obtain rfl := Option.some.inj h
    split
    · rename_i hl
      exact .stops hl
    · exact .nothing
  | resume =>
    simp only [next] at h
    split at h
    · obtain rfl := Option.some.inj h
      exact .nothing
    · rename_i hl
      rcases appeared_onResume h with rfl | happeared
      · exact .comesBack hl
      · exact .resumes (by rw [hl]; decide) happeared
    · rename_i hs
      exact .launches hs (appeared_appear h)
    · rename_i hl _
      exact .resumes (by rw [hl]; decide) (appeared_appear h)
  | exec n ok =>
    simp only [next] at h
    split at h
    · rename_i hn
      obtain ⟨⟨db, out⟩, he, rfl⟩ := Option.map_eq_some_iff.mp h
      exact .execs hn he
    · obtain rfl := Option.some.inj h
      exact .nothing
  | deliver n =>
    simp only [next] at h
    split at h
    · rename_i hn
      exact .delivers hn (received_recv h)
    · obtain rfl := Option.some.inj h
      exact .nothing
  | elsewhere ok q =>
    obtain rfl := Option.some.inj h
    cases he : exec ok w.db q with
    | none => exact .nothing
    | some r =>
      obtain ⟨db, out⟩ := r
      exact .elsewhere he

end Inversion

end Sessions
end FootballGallery
