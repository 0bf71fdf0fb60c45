/-
# Who can be signed in

`FirebaseAuth` keeps the user over the end of the app, and only the profile's menu signs
out. Nobody gets signed in on a device without their password; and a user whose account
was made without a document is signed in for good: the main activity throws whenever it
reads the user, the login starts it whenever the app is opened, and the menus that lead to
the sign-out never appear.

Key definitions: `Untyped`, `NotWith`, `Outside`, `Locked`.
Key theorems: `signed_in_with_password`, `login_iff`, `locked_out`.
-/
import FootballGallery.HalfMade
import FootballGallery.SessionRuns

namespace FootballGallery
namespace Sessions

open DBUtil Runs

/-! ### Nobody without the password -/

section Passwords

variable {u pwd : String} {user : Option String} {emailAddress : String → Bool} {w w' : Device} {e : Event}

/-- No field for a password says `pwd`. -/
def Untyped (pwd : String) (x : Page) : Prop := ∀ p, x = .authHome p → p.mEt_pwd ≠ pwd

/-- What is under way is not the sign-in of `u` with `pwd`. -/
def NotWith (u pwd : String) (m : Request ⊕ Intent) : Prop := ∀ a, m ≠ .inl (.signIn a u pwd)

theorem signs_behindCall {q q' : Request} (hq : behindCall q = true) (hq' : asUser user q = some q') :
    signs q' = false := by
  cases q with
  | signIn | fetchSignIn | createAccount | setUser => cases hq
  | updateUserArray =>
    obtain ⟨me, -, rfl⟩ := Option.map_eq_some_iff.mp hq'
    rfl
  | _ =>
    obtain rfl := Option.some.inj hq'
    rfl

theorem notWith_of_not_signs {q : Request} (hq : signs q = false) : NotWith u pwd (.inl q) := by
  intro a heq
  rw [Sum.inl.inj heq] at hq
  cases hq

theorem laws_untyped (hpwd : pwd ≠ "") : Laws user (Untyped pwd) (NotWith u pwd) where
  home p hp := by
    obtain rfl := Page.authHome.inj hp
    exact hpwd.symm
  found me _ := ⟨nofun, nofun, notWith_of_not_signs rfl⟩
  opened x y qs ho _ := by
    cases ho with
    | signUpEmail | signUpProfile | inner => exact ⟨nofun, fun _ hq => by cases hq⟩
    | profile => exact ⟨nofun, List.forall_mem_singleton.mpr (notWith_of_not_signs rfl)⟩
  called k m q q' _ hq hq' := notWith_of_not_signs (signs_behindCall hq hq')
  heard i x x' qs starts _ hx hh := by
    cases hh with
    | quiet => exact ⟨hx, fun _ hq => by cases hq⟩
    | @authHome p p' _ _ hr =>
      have hp : p.mEt_pwd ≠ pwd := hx p rfl
      cases hr with
      | quiet hs | starts _ _ hs =>
        refine ⟨fun p₁ hp₁ => ?_, fun _ hq => by cases hq⟩
        rw [← Page.authHome.inj hp₁, hs.2]
        exact hp
      | signsIn _ _ hs =>
        refine ⟨fun p₁ hp₁ => ?_, List.forall_mem_singleton.mpr fun a heq => ?_⟩
        · rw [← Page.authHome.inj hp₁, hs.2]
          exact hp
        · exact hp (Request.signIn.inj (Sum.inl.inj heq)).2.2
    | signUpEmail => exact ⟨nofun, fun _ hq => by cases hq⟩
    | signUpProfile hr | signedUp hr =>
      refine ⟨nofun, fun q hq => ?_⟩
      cases hr with
      | quiet => cases hq
      | creates | stores =>
        obtain rfl := List.mem_singleton.mp hq
        exact nofun
    | told => exact ⟨nofun, fun _ hq => by cases hq⟩

theorem untyped_tapped {a : Action} {x x' : Page} {qs : List Request} (ha : a ≠ .authHome (.typePwd pwd))
    (h : Tapped emailAddress a x x' qs) (hx : Untyped pwd x) : Untyped pwd x' ∧ ∀ q ∈ qs, NotWith u pwd (.inl q) := by
  cases h with
  | @authHome t p p' _ ht =>
    have hp : p.mEt_pwd ≠ pwd := hx p rfl
    refine ⟨fun p₁ hp₁ => ?_, fun q hq => ?_⟩
    · rw [← Page.authHome.inj hp₁]
      cases ht with
      | typesPwd text => exact fun heq => ha (by rw [← heq])
      | quiet hs =>
        rw [hs.2]
        exact hp
      | _ => exact hp
    · cases ht with
      | checks =>
        obtain rfl := List.mem_singleton.mp hq
        exact nofun
      | _ => cases hq
  | signUpEmail ht =>
    refine ⟨nofun, fun q hq => ?_⟩
    cases ht with
    | verifies =>
      obtain rfl := List.mem_singleton.mp hq
      exact nofun
    | _ => cases hq
  | signUpProfile ht =>
    refine ⟨nofun, fun q hq => ?_⟩
    cases ht with
    | verifies =>
      obtain rfl := List.mem_singleton.mp hq
      exact nofun
    | quiet => cases hq

/-- No call changes the password of an account. -/
theorem account_exec {ok : Bool} {db db' : Database} {q : Request} {out : List (Request ⊕ Intent)}
    (h : exec ok db q = some (db', out)) (hu : db.accounts.get u = some pwd) : db'.accounts.get u = some pwd := by
  cases executed_exec h with
  | wrote hw =>
    cases hw with
    | createAccount _ hnew =>
      refine (DocStore.Collection.get_set_ne _ _ ?_).trans hu
      rintro rfl
      cases hnew.symm.trans hu
    | _ => exact hu
  | _ => exact hu

/-- A sign-in signs in the user with the password, and a sign-up somebody new. -/
theorem signedIn_ne {ok : Bool} {db db' : Database} {q : Request} {out : List (Request ⊕ Intent)}
    (h : exec ok db q = some (db', out)) (hu : db.accounts.get u = some pwd) (hq : NotWith u pwd (.inl q))
    (huser : user ≠ some u) : signedIn q out user ≠ some u := by
  cases q with
  | signIn a email given =>
    obtain ⟨-, rfl⟩ := Prod.mk.inj (Option.some.inj h)
    simp only [signedIn]
    split
    · rename_i hany
      rintro ⟨⟩
      have hgiven : ok = true ∧ db.accounts.get u = some given := by simpa using hany
      obtain rfl := Option.some.inj (hgiven.2.symm.trans hu)
      exact hq a rfl
    · exact huser
  | createAccount a email given =>
    simp only [signedIn]
    split
    · rename_i hany
      rintro ⟨⟩
      have hfails : exec ok db (.createAccount a u given) = some (db, sendBroadcast a false none) := by
        simp only [exec, hu, Option.isSome_some, Bool.true_or, if_true, write]
      obtain ⟨-, rfl⟩ := Prod.mk.inj (Option.some.inj (h.symm.trans hfails))
      cases hany
    · exact huser
  | _ => exact huser

/-- The account is there, and its user is not signed in. -/
structure Outside (u pwd : String) (w : Device) : Prop where
  account : w.db.accounts.get u = some pwd
  user : w.currentUser ≠ some u
  holds : Holds (Untyped pwd) (NotWith u pwd) w

theorem outside_happened (hpwd : pwd ≠ "") (h : Outside u pwd w) (hs : Happened emailAddress w e w')
    (htyped : e ≠ .act (.authHome (.typePwd pwd))) : Outside u pwd w' := by
  have hholds : Holds (Untyped pwd) (NotWith u pwd) w' := by
    refine Holds.happened (S := fun _ => Untyped pwd) (M := fun _ => NotWith u pwd) (fun _ => laws_untyped hpwd)
      h.holds hs ?_ (fun _ => h.holds.msg) fun ok q db out hq he => ⟨h.holds.page, h.holds.msg, fun b hb => ?_⟩
    · rintro a x x' qs rfl ht hx
      exact untyped_tapped (fun ha => htyped (by rw [ha])) ht hx
    · cases executed_exec he with
      | fails hall =>
        rw [hall b hb]
        exact nofun
      | _ =>
        rw [List.mem_singleton.mp hb]
        exact nofun
  rcases hs.calls with ⟨hdb, hu⟩ | ⟨ok, q, out, hq, he, hu⟩ | ⟨ok, q, out, he, hu⟩
  · refine ⟨by rw [hdb]; exact h.account, ?_, hholds⟩
    rcases hu with hu | hu <;> rw [hu]
    · exact h.user
    · nofun
  · refine ⟨account_exec he h.account, ?_, hholds⟩
    rw [hu]
    exact signedIn_ne he h.account (h.holds.msg _ hq) h.user
  · refine ⟨account_exec he h.account, ?_, hholds⟩
    rw [hu]
    exact h.user

end Passwords

/-- **Nobody is signed in without their password**: whatever is done on this device and on
others, a user who has an account and is not signed in when the app is started is never
signed in unless the password of the account is typed into the login. -/
theorem signed_in_with_password (emailAddress : String → Bool) (db : Database) (user : Option String) (u pwd : String)
    (es : List Event) (w : Device) (hpwd : pwd ≠ "") (haccount : db.accounts.get u = some pwd) (huser : user ≠ some u)
    (htyped : ∀ e ∈ es, e ≠ .act (.authHome (.typePwd pwd))) (h : run (next emailAddress) (launch db user) es = some w) :
    w.currentUser ≠ some u := by
  have hcalm : Along (next emailAddress) (fun _ e => e ≠ .act (.authHome (.typePwd pwd))) (launch db user) es :=
    along_of_forall fun e he _ => htyped e he
  exact (hcalm.keeps (I := Outside u pwd) (fun w e w' hw hne hs => outside_happened hpwd hw (happened_next hs) hne)
    ⟨haccount, huser, List.forall_mem_nil _, List.forall_mem_nil _⟩ h).user

/-! Somebody tries to be Ann. -/

def guesses : List Event :=
  [.resume, .act (.authHome (.typeEmail "ann@mail.com")), .act (.authHome (.typePwd "12345678")),
    .act (.authHome .onLoginTap), .exec 0 true, .deliver 0, .exec 0 true, .deliver 0]

theorem signed_in_with_password_ann :
    ∃ w, run (next AuthHome.containsAt) (launch annDb none) guesses = some w ∧ w.net.length = 0 ∧
      w.currentUser ≠ some "ann@mail.com" :=
  ⟨_, rfl, rfl, signed_in_with_password AuthHome.containsAt annDb none "ann@mail.com" "password" guesses _
    (by decide) (by decide) (by decide) (by decide) rfl⟩

/-! ### The login -/

/-- Only the check of the username reaches an activity that is paused. -/
theorem overhears_of_ne {i : Intent} {above rest : List Page} {w : Device}
    (hi : i.action ≠ AuthSignUpProfile.userVerifyUsernameAction) :
    w.overhears i above rest = { w with stack := above ++ rest } := by
  have hquiet : ∀ x, overhear i x = (x, []) := by
    intro x
    cases x with
    | signUpProfile p => exact if_neg hi
    | _ => rfl
  have hnone : (rest.flatMap fun _ => ([] : List Request)) = [] := List.flatMap_eq_nil_iff.mpr fun _ _ => rfl
  simp only [Device.overhears, hquiet, List.map_id', hnone, Device.issue, List.map_nil, List.append_nil]

/-- The call under way is carried out and answered. -/
def roundTrip : List Event := [.exec 0 true, .deliver 0]

/-- The user taps login, and what this leads to is carried out. -/
def logsIn : List Event := .act (.authHome .onLoginTap) :: (roundTrip ++ roundTrip)

section Login

variable {emailAddress : String → Bool} {w : Device} {p : AuthHome} {rest : List Page}

/-- The only call under way is carried out, and the page hears the answer. -/
theorem run_round {q : Request} {i : Intent} (hl : w.life = .resumed) (hs : w.stack = .authHome p :: rest)
    (hn : w.net = [.inl q]) (he : exec true w.db q = some (w.db, [.inr i]))
    (hi : i.action ≠ AuthSignUpProfile.userVerifyUsernameAction) :
    run (next emailAddress) w roundTrip =
      let w' : Device := { w with
        currentUser := signedIn q [.inr i] w.currentUser
        stack := .authHome (AuthHome.onReceive p i).1 :: rest
        net := (AuthHome.onReceive p i).2.1.map .inl }
      if (AuthHome.onReceive p i).2.2 then w'.startMainActivity else some w' := by
  obtain ⟨db, user, stack, life, net⟩ := w
  obtain rfl : life = .resumed := hl
  obtain rfl : stack = .authHome p :: rest := hs
  obtain rfl : net = [.inl q] := hn
  have hround : run (next emailAddress) ⟨db, user, .authHome p :: rest, .resumed, [.inl q]⟩ roundTrip =
      (recv i ⟨db, signedIn q [.inr i] user, .authHome p :: rest, .resumed, []⟩).bind some := by
    simp only [roundTrip, run, next, List.getElem?_cons_zero, he, Option.map_some, Option.bind_some, List.eraseIdx_cons_zero,
      List.nil_append]
  simp only [hround, Option.bind_fun_some, recv, if_true, hear, overhears_of_ne hi, Device.issue, List.nil_append,
    List.singleton_append]

/-- Nothing is under way, so nothing happens. -/
theorem run_quiet (hn : w.net = []) : run (next emailAddress) w roundTrip = some w := by
  simp only [roundTrip, run, next, hn, List.getElem?_nil, Option.bind_some]

/-- The page asks whether the email has an account, and goes on to the sign-in if so. -/
theorem run_check (hl : w.life = .resumed) (hs : w.stack = .authHome p :: rest)
    (hn : w.net = [.inl (.fetchSignIn AuthHome.authEmailCheck p.mEt_email caseLogin)]) :
    ∃ p', AuthHome.SameFields p p' ∧ run (next emailAddress) w roundTrip = some { w with
      stack := .authHome p' :: rest
      net := if (w.db.accounts.get p.mEt_email).isSome then
        [.inl (.signIn AuthHome.authLogin p.mEt_email p.mEt_pwd)] else [] } := by
  obtain ⟨r, hr⟩ : ∃ r, (w.db.accounts.get p.mEt_email).isSome = r := ⟨_, rfl⟩
  have he : exec true w.db (.fetchSignIn AuthHome.authEmailCheck p.mEt_email caseLogin) =
      some (w.db, sendBroadcast AuthHome.authEmailCheck r none) := by
    simp only [exec, if_true, hr]
    cases r <;> rfl
  rw [run_round hl hs hn he (show AuthHome.authEmailCheck ≠ _ by decide), hr]
  refine ⟨(AuthHome.onReceive p ⟨AuthHome.authEmailCheck, r, none⟩).1, ?_, ?_⟩
  · cases r <;> exact AuthHome.sameFields_toggle _ _ ⟨rfl, rfl⟩
  · cases r <;> rfl

/-- The page signs in, and goes on to the main activity or stays. -/
theorem run_signIn (hl : w.life = .resumed) (hs : w.stack = .authHome p :: rest) {email pwd : String}
    (hn : w.net = [.inl (.signIn AuthHome.authLogin email pwd)]) :
    ∃ w', run (next emailAddress) w roundTrip = some w' ∧
      (w.db.accounts.get email = some pwd ∧ w'.stack.head? = some (.core email none) ∧ w'.currentUser = some email ∨
        w.db.accounts.get email ≠ some pwd ∧ (∃ p', w'.stack = .authHome p' :: rest) ∧ w'.currentUser = w.currentUser) := by
  obtain ⟨r, hr⟩ : ∃ r, (w.db.accounts.get email == some pwd) = r := ⟨_, rfl⟩
  have he : exec true w.db (.signIn AuthHome.authLogin email pwd) =
      some (w.db, sendBroadcast AuthHome.authLogin r none) := by
    simp only [exec, Bool.true_and, hr]
  rw [run_round hl hs hn he (show AuthHome.authLogin ≠ _ by decide)]
  cases r with
  | true => exact ⟨_, rfl, .inl ⟨beq_iff_eq.mp hr, rfl, rfl⟩⟩
  | false =>
    refine ⟨_, rfl, .inr ⟨fun heq => ?_, ⟨_, rfl⟩, rfl⟩⟩
    rw [heq, beq_self_eq_true] at hr
    cases hr

/-- **What a login ends in**: from a page with nothing under way, the tap and what it leads to
end in the main activity, with the email's user signed in, when the fields pass the checks
and the password is the one of the account, and on the page otherwise. -/
theorem login_iff (emailAddress : String → Bool) (w : Device) (p : AuthHome) (rest : List Page) (hl : w.life = .resumed)
    (hs : w.stack = .authHome p :: rest) (hn : w.net = []) :
    ∃ w', run (next emailAddress) w logsIn = some w' ∧
      (AuthHome.Passes emailAddress p ∧ w.db.accounts.get p.mEt_email = some p.mEt_pwd ∧
          w'.stack.head? = some (.core p.mEt_email none) ∧ w'.currentUser = some p.mEt_email ∨
        ¬ (AuthHome.Passes emailAddress p ∧ w.db.accounts.get p.mEt_email = some p.mEt_pwd) ∧
          (∃ p', w'.stack = .authHome p' :: rest) ∧ w'.currentUser = w.currentUser) := by
  have hnext : next emailAddress w (.act (.authHome .onLoginTap)) = some { w with
      stack := .authHome (AuthHome.act emailAddress p .onLoginTap).1 :: rest
      net := (AuthHome.act emailAddress p .onLoginTap).2.map .inl } := by
    simp only [next, hl, if_true, act, hs, Device.issue, hn, List.nil_append]
  rw [logsIn, run, hnext, Option.bind_some, run_append]
  by_cases hp : AuthHome.Passes emailAddress p
  · have htap : AuthHome.act emailAddress p .onLoginTap =
        (p, [.fetchSignIn AuthHome.authEmailCheck p.mEt_email caseLogin]) := by
      simp only [AuthHome.act, AuthHome.onLoginTap, hp.email, hp.pwd, if_true]
      rfl
    rw [htap]
    obtain ⟨p', hsame, hcheck⟩ := run_check (w := { w with stack := .authHome p :: rest, net := [.inl _] }) hl rfl rfl
    rw [List.map_singleton, hcheck, Option.bind_some]
    by_cases hsome : (w.db.accounts.get p.mEt_email).isSome = true
    · rw [if_pos hsome]
      obtain ⟨w', hrun, hw'⟩ := run_signIn (w := { w with stack := .authHome p' :: rest, net := [.inl _] }) hl rfl rfl
      rcases hw' with ⟨hacc, htop, hu⟩ | ⟨hacc, hrest⟩
      · exact ⟨w', hrun, .inl ⟨hp, hacc, htop, hu⟩⟩
      · exact ⟨w', hrun, .inr ⟨fun h => hacc h.2, hrest⟩⟩
    · rw [if_neg hsome, run_quiet rfl]
      refine ⟨_, rfl, .inr ⟨fun h => hsome ?_, ⟨_, rfl⟩, rfl⟩⟩
      rw [h.2]
      rfl
  · have htap : (AuthHome.act emailAddress p .onLoginTap).2 = [] := by
      have hinv := AuthHome.tapped_act emailAddress p .onLoginTap
      generalize (AuthHome.act emailAddress p .onLoginTap).1 = p₁ at hinv
      generalize (AuthHome.act emailAddress p .onLoginTap).2 = qs at hinv
      cases hinv with
      | quiet => rfl
      | checks hpasses => exact absurd hpasses hp
    rw [htap, run_quiet rfl, Option.bind_some, run_quiet rfl]
    exact ⟨_, rfl, .inr ⟨fun h => hp h.1, ⟨_, rfl⟩, rfl⟩⟩

end Login

def filledIn : AuthHome := { AuthHome.onCreate with mEt_email := "ann@mail.com", mEt_pwd := "password" }

theorem login_iff_ann :
    ∃ w', run (next AuthHome.containsAt) ⟨annDb, none, [.authHome filledIn], .resumed, []⟩ logsIn = some w' ∧
      (AuthHome.Passes AuthHome.containsAt filledIn ∧ annDb.accounts.get "ann@mail.com" = some "password" ∧
          w'.stack.head? = some (.core "ann@mail.com" none) ∧ w'.currentUser = some "ann@mail.com" ∨
        ¬ (AuthHome.Passes AuthHome.containsAt filledIn ∧ annDb.accounts.get "ann@mail.com" = some "password") ∧
          (∃ p', w'.stack = [.authHome p']) ∧ w'.currentUser = none) :=
  login_iff AuthHome.containsAt ⟨annDb, none, [.authHome filledIn], .resumed, []⟩ filledIn [] rfl rfl rfl

/-! ### Locked out -/

section Locked

open Accounts

variable {email : String} {emailAddress : String → Bool} {w w' : Device} {e : Event}

/-- The main activity is all there is, and it has no user. -/
structure Locked (email : String) (w : Device) : Prop where
  half : HalfMade email w.db
  user : w.currentUser = some email
  stack : w.stack = [] ∨ w.stack = [.core email none, .authHome AuthHome.onCreate]
  msg : ∀ m ∈ w.net, m = .inl (.getUser CoreActivity.getUserInfo email false) ∨
    m = .inr ⟨CoreActivity.getUserInfo, false, none⟩

/-- The login starts the main activity again. -/
theorem locked_started (h : Locked email w)
    (ha : Appeared { w with stack := [.authHome AuthHome.onCreate] } w') : Locked email w' := by
  cases ha with
  | shows hhome => cases h.user.symm.trans (hhome _ _ rfl)
  | starts _ hu =>
    obtain rfl := Option.some.inj (h.user.symm.trans hu)
    refine ⟨h.half, h.user, .inr rfl, fun m hm => ?_⟩
    rcases List.mem_append.mp hm with hm | hm
    · exact h.msg m hm
    · exact .inl (List.mem_singleton.mp hm)
  | reads hs => cases hs

theorem locked_acted {a : Action} (h : Locked email w) (ha : Acted emailAddress w a w') : Locked email w' := by
  have htop : ∀ {x rest}, w.stack = x :: rest → x = .core email none ∧ rest = [.authHome AuthHome.onCreate] := by
    intro x rest hs
    rcases h.stack with hnil | hcore
    · cases hnil.symm.trans hs
    · exact ⟨(List.cons.inj (hs.symm.trans hcore)).1, (List.cons.inj (hs.symm.trans hcore)).2⟩
  cases ha with
  | stays => exact h
  | taps hs ht =>
    obtain ⟨rfl, -⟩ := htop hs
    cases ht
  | opens hs ho =>
    obtain ⟨rfl, -⟩ := htop hs
    cases ho with
    | inner hx => cases hx
  | calls hs =>
    obtain ⟨hx, -⟩ := htop hs
    cases hx
  | signsOut hs =>
    obtain ⟨hx, -⟩ := htop hs
    cases hx
  | closes => exact ⟨h.half, h.user, .inl rfl, h.msg⟩
  | back hs happeared =>
    obtain ⟨-, hrest⟩ := htop hs
    obtain ⟨rfl, rfl⟩ := List.cons.inj hrest
    exact locked_started h happeared

theorem locked_received {i : Intent} (h : Locked email w) (hi : i = ⟨CoreActivity.getUserInfo, false, none⟩)
    (hr : Received i w w') : Locked email w' := by
  have hother : i.action ≠ AuthSignUpProfile.userVerifyUsernameAction := by
    rw [hi]
    decide
  cases hr with
  | overheard =>
    rw [overhears_of_ne hother]
    exact ⟨h.half, h.user, h.stack, h.msg⟩
  | empty => exact h
  | @heard x x' rest qs hs hh =>
    rw [overhears_of_ne hother]
    rcases h.stack with hnil | hcore
    · cases hnil.symm.trans hs
    · obtain ⟨rfl, rfl⟩ := List.cons.inj (hs.symm.trans hcore)
      cases hh with
      | quiet => exact ⟨h.half, h.user, .inr rfl, by simpa [Device.issue] using h.msg⟩
      | told _ hresult =>
        rw [hi] at hresult
        cases hresult
  | started hs hh =>
    rcases h.stack with hnil | hcore
    · cases hnil.symm.trans hs
    · obtain ⟨rfl, rfl⟩ := List.cons.inj (hs.symm.trans hcore)
      cases hh

/-- The read of the user throws, or it fails. -/
theorem exec_getUser {ok : Bool} {db db' : Database} {out : List (Request ⊕ Intent)} {a : String} (h : HalfMade email db)
    (he : exec ok db (.getUser a email false) = some (db', out)) : db' = db ∧ out = sendBroadcast a false none := by
  cases ok with
  | false =>
    obtain ⟨rfl, rfl⟩ := Prod.mk.inj (Option.some.inj he)
    exact ⟨rfl, rfl⟩
  | true =>
    simp only [exec, h.user, if_true] at he
    cases he

theorem locked_happened (h : Locked email w) (hs : Happened emailAddress w e w')
    (helse : ∀ ok a doc, e ≠ .elsewhere ok (.setUser a email doc)) : Locked email w' := by
  have herased : ∀ n, ∀ m ∈ w.net.eraseIdx n, m = .inl (.getUser CoreActivity.getUserInfo email false) ∨
      m = .inr ⟨CoreActivity.getUserInfo, false, none⟩ := fun n m hm => h.msg m (List.mem_of_mem_eraseIdx hm)
  cases hs with
  | nothing => exact h
  | acts _ ha => exact locked_acted h ha
  | pauses | stops | comesBack => exact ⟨h.half, h.user, h.stack, h.msg⟩
  | launches _ ha => exact locked_started h ha
  | resumes _ ha =>
    cases ha with
    | shows => exact ⟨h.half, h.user, h.stack, h.msg⟩
    | starts hs | reads hs =>
      rcases h.stack with hnil | hcore
      · cases hnil.symm.trans hs
      · cases hcore.symm.trans hs
  | execs hn he =>
    rcases h.msg _ (List.mem_of_getElem? hn) with hq | hq
    · obtain rfl := Sum.inl.inj hq
      obtain ⟨rfl, rfl⟩ := exec_getUser h.half he
      refine ⟨h.half, h.user, h.stack, fun m hm => ?_⟩
      rcases List.mem_append.mp hm with hm | hm
      · exact herased _ m hm
      · exact .inr (List.mem_singleton.mp hm)
    · cases hq
  | delivers hn hr =>
    rcases h.msg _ (List.mem_of_getElem? hn) with hi | hi
    · cases hi
    · exact locked_received (w := { w with net := w.net.eraseIdx _ }) ⟨h.half, h.user, h.stack, herased _⟩
        (Sum.inr.inj hi) hr
  | @elsewhere ok q db out he =>
    refine ⟨?_, h.user, h.stack, h.msg⟩
    cases executed_exec he with
    | wrote hw => exact h.half.wrote hw fun a doc heq => helse ok a doc (by rw [heq])
    | _ => exact h.half

end Locked

/-- **A user without a document is locked out**: whenever the app is opened it shows the main
activity, which never gets its user and so has no menu to the sign-out; the read of the
user ends the app or fails. -/
theorem locked_out (emailAddress : String → Bool) (email : String) (db : Database) (es : List Event) (w : Device)
    (hhalf : Accounts.HalfMade email db) (helse : ∀ e ∈ es, ∀ ok a doc, e ≠ .elsewhere ok (.setUser a email doc))
    (h : run (next emailAddress) (launch db (some email)) es = some w) :
    w.currentUser = some email ∧ (w.stack = [] ∨ w.stack = [.core email none, .authHome AuthHome.onCreate]) ∧
      ∀ n q, w.net[n]? = some (.inl q) → next emailAddress w (.exec n true) = none := by
  have hcalm : Along (next emailAddress) (fun _ e => ∀ ok a doc, e ≠ .elsewhere ok (.setUser a email doc))
      (launch db (some email)) es := along_of_forall fun e he _ => helse e he
  have hlocked : Locked email w := hcalm.keeps (I := Locked email)
    (fun w e w' hw hne hs => locked_happened hw (happened_next hs) hne) ⟨hhalf, rfl, .inl rfl, List.forall_mem_nil _⟩ h
  refine ⟨hlocked.user, hlocked.stack, fun n q hn => ?_⟩
  rcases hlocked.msg _ (List.mem_of_getElem? hn) with hq | hq
  · simp only [next, hn, Sum.inl.inj hq, exec, hlocked.half.user, if_true, Option.map_none]
  · cases hq

/-! The account of "cat" has no document; the app is opened, left and opened again. -/

def catDb : Database where
  posts := DocStore.Collection.empty
  comments := DocStore.Collection.empty
  users := DocStore.Collection.empty
  accounts := DocStore.Collection.empty.set "cat@mail.com" "password"

def opensApp : List Event :=
  [.resume, .exec 0 false, .deliver 0, .act .openProfile, .act .back, .pause, .stop, .resume]

theorem locked_out_cat :
    ∃ w, run (next AuthHome.containsAt) (launch catDb (some "cat@mail.com")) opensApp = some w ∧ w.net.length = 1 ∧
      w.currentUser = some "cat@mail.com" ∧
      (w.stack = [] ∨ w.stack = [.core "cat@mail.com" none, .authHome AuthHome.onCreate]) ∧
      ∀ n q, w.net[n]? = some (.inl q) → next AuthHome.containsAt w (.exec n true) = none := by
  have helse : ∀ e ∈ opensApp, ∀ ok a doc, e ≠ .elsewhere ok (.setUser a "cat@mail.com" doc) := by
    rintro e he ok a doc rfl
    simp [opensApp] at he
  exact ⟨_, rfl, rfl, locked_out AuthHome.containsAt "cat@mail.com" catDb opensApp _ ⟨by decide, by decide⟩ helse rfl⟩

end Sessions
end FootballGallery
