/-
# The user of the activities behind the login

An activity behind the login is open only while somebody is signed in, unless the user
has signed out with the broadcast of a sign-in still under way: the login that is on
screen by then takes it for its own and starts the main activity.

Key definitions: `Page.behind`, `Opens`, `Holds`, `Laws`.
Key theorems: `Holds.happened`, `signed_in_behind`.
-/
import FootballGallery.Sessions

namespace FootballGallery
namespace Sessions

open DBUtil Runs

/-! ### Facts about each activity and each message -/

/-- `S` holds of the activities, and `M` of what is under way. -/
structure Holds (S : Page → Prop) (M : Request ⊕ Intent → Prop) (w : Device) : Prop where
  page : ∀ x ∈ w.stack, S x
  msg : ∀ m ∈ w.net, M m

/-- What `S` and `M` need to be kept while `user` stays signed in. -/
structure Laws (user : Option String) (S : Page → Prop) (M : Request ⊕ Intent → Prop) : Prop where
  home : S (.authHome AuthHome.onCreate)
  found : ∀ me, user = some me →
    S (.core me none) ∧ S (.profile (some me)) ∧ M (.inl (.getUser CoreActivity.getUserInfo me false))
  opened : ∀ x y qs, Opened user x y qs → S x → S y ∧ ∀ q ∈ qs, M (.inl q)
  called : ∀ k m q q', S (.inner k m) → behindCall q = true → asUser user q = some q' → M (.inl q')
  heard : ∀ i x x' qs starts, M (.inr i) → S x → Heard i x x' qs starts → S x' ∧ ∀ q ∈ qs, M (.inl q)

section Holds

variable {S : Page → Prop} {M : Request ⊕ Intent → Prop} {w w' : Device} {emailAddress : String → Bool}

theorem Holds.issue {qs : List Request} (h : Holds S M w) (hqs : ∀ q ∈ qs, M (.inl q)) : Holds S M (w.issue qs) := by
  refine ⟨h.page, fun m hm => ?_⟩
  rcases List.mem_append.mp hm with hm | hm
  · exact h.msg m hm
  · obtain ⟨q, hq, rfl⟩ := List.mem_map.mp hm
    exact hqs q hq

theorem Holds.push {x : Page} (h : Holds S M w) (hx : S x) : Holds S M (w.push x) :=
  ⟨List.forall_mem_cons.mpr ⟨hx, h.page⟩, h.msg⟩

theorem Holds.appeared (h : Holds S M w) (hl : Laws w.currentUser S M) (ha : Appeared w w') : Holds S M w' := by
  cases ha with
  | shows => exact ⟨h.page, h.msg⟩
  | starts hs hu =>
    obtain ⟨hcore, -, hcall⟩ := hl.found _ hu
    refine Holds.issue (Holds.push ⟨h.page, h.msg⟩ hcore) fun q hq => ?_
    obtain rfl := List.mem_singleton.mp hq
    exact hcall
  | reads hs hu =>
    obtain ⟨-, hprofile, hcall⟩ := hl.found _ hu
    refine Holds.issue ⟨List.forall_mem_cons.mpr ⟨hprofile, fun x hx => ?_⟩, h.msg⟩ fun q hq => ?_
    · exact h.page x (hs ▸ List.mem_cons_of_mem _ hx)
    · obtain rfl := List.mem_singleton.mp hq
      exact hcall

theorem Holds.overhears {i : Intent} {above rest : List Page} (h : Holds S M w) (hl : Laws w.currentUser S M)
    (hi : M (.inr i)) (habove : ∀ x ∈ above, S x) (hrest : ∀ x ∈ rest, S x) : Holds S M (w.overhears i above rest) := by
  refine Holds.issue ⟨fun x hx => ?_, h.msg⟩ fun q hq => ?_
  · rcases List.mem_append.mp hx with hx | hx
    · exact habove x hx
    · obtain ⟨y, hy, rfl⟩ := List.mem_map.mp hx
      exact (hl.heard i y _ _ _ hi (hrest y hy) (heard_overhear i y)).1
  · obtain ⟨y, hy, hq⟩ := List.mem_flatMap.mp hq
    exact (hl.heard i y _ _ _ hi (hrest y hy) (heard_overhear i y)).2 q hq

theorem Holds.hears {i : Intent} {x x' : Page} {rest : List Page} {qs : List Request} {starts : Bool} (h : Holds S M w)
    (hl : Laws w.currentUser S M) (hi : M (.inr i)) (hs : w.stack = x :: rest) (hx : Heard i x x' qs starts) :
    Holds S M ((w.overhears i [x'] rest).issue qs) := by
  have hpage : ∀ y ∈ x :: rest, S y := hs ▸ h.page
  obtain ⟨hx', hqs⟩ := hl.heard i x x' qs starts hi (hpage x List.mem_cons_self) hx
  exact (h.overhears hl hi (List.forall_mem_singleton.mpr hx') (List.forall_mem_cons.mp hpage).2).issue hqs

theorem Holds.received {i : Intent} (h : Holds S M w) (hl : Laws w.currentUser S M) (hi : M (.inr i))
    (hr : Received i w w') : Holds S M w' ∧ w'.currentUser = w.currentUser := by
  cases hr with
  | overheard => exact ⟨h.overhears hl hi (fun _ hx => by cases hx) h.page, rfl⟩
  | empty => exact ⟨h, rfl⟩
  | heard hs hx => exact ⟨h.hears hl hi hs hx, rfl⟩
  | started hs hx hu =>
    obtain ⟨hcore, -, hcall⟩ := hl.found _ hu
    exact ⟨((h.hears hl hi hs hx).push hcore).issue (List.forall_mem_singleton.mpr hcall), rfl⟩

theorem Holds.acted {a : Action} (h : Holds S M w) (hl : Laws w.currentUser S M) (ha : Acted emailAddress w a w')
    (hout : a ≠ .signOut)
    (htap : ∀ x x' qs, Tapped emailAddress a x x' qs → S x → S x' ∧ ∀ q ∈ qs, M (.inl q)) :
    Holds S M w' ∧ w'.currentUser = w.currentUser := by
  cases ha with
  | stays => exact ⟨h, rfl⟩
  | taps hs ht =>
    obtain ⟨hx, hrest⟩ := List.forall_mem_cons.mp (hs ▸ h.page)
    obtain ⟨hx', hqs⟩ := htap _ _ _ ht hx
    exact ⟨Holds.issue ⟨List.forall_mem_cons.mpr ⟨hx', hrest⟩, h.msg⟩ hqs, rfl⟩
  | opens hs ho =>
    obtain ⟨hx, -⟩ := List.forall_mem_cons.mp (hs ▸ h.page)
    obtain ⟨hy, hqs⟩ := hl.opened _ _ _ ho hx
    exact ⟨(h.push hy).issue hqs, rfl⟩
  | calls hs hq hq' =>
    obtain ⟨hx, -⟩ := List.forall_mem_cons.mp (hs ▸ h.page)
    exact ⟨h.issue (List.forall_mem_singleton.mpr (hl.called _ _ _ _ hx hq hq')), rfl⟩
  | signsOut => exact absurd rfl hout
  | closes => exact ⟨⟨fun _ hx => absurd hx List.not_mem_nil, h.msg⟩, rfl⟩
  | @back x y rest _ hs happeared =>
    have hrest := (List.forall_mem_cons.mp (hs ▸ h.page)).2
    refine ⟨Holds.appeared (w := { w with stack := y :: rest }) ⟨hrest, h.msg⟩ hl happeared, ?_⟩
    cases happeared <;> rfl

end Holds

/-- The database and the user change with calls, and the user with the sign-out. -/
theorem Happened.calls {emailAddress : String → Bool} {w w' : Device} {e : Event} (h : Happened emailAddress w e w') :
    (w'.db = w.db ∧ (w'.currentUser = w.currentUser ∨ w'.currentUser = none)) ∨
      (∃ ok q out, .inl q ∈ w.net ∧ exec ok w.db q = some (w'.db, out) ∧ w'.currentUser = signedIn q out w.currentUser) ∨
      ∃ ok q out, exec ok w.db q = some (w'.db, out) ∧ w'.currentUser = w.currentUser := by
  have happears : ∀ {v v' : Device}, Appeared v v' → v'.db = v.db ∧ v'.currentUser = v.currentUser := by
    intro v v' ha
    cases ha <;> exact ⟨rfl, rfl⟩
  cases h with
  | acts _ ha =>
    cases ha with
    | signsOut => exact .inl ⟨rfl, .inr rfl⟩
    | back _ ha =>
      obtain ⟨hdb, hu⟩ := happears ha
      exact .inl ⟨hdb, .inl hu⟩
    | _ => exact .inl ⟨rfl, .inl rfl⟩
  | launches _ ha | resumes _ ha =>
    obtain ⟨hdb, hu⟩ := happears ha
    exact .inl ⟨hdb, .inl hu⟩
  | execs hn he => exact .inr (.inl ⟨_, _, _, List.mem_of_getElem? hn, he, rfl⟩)
  | elsewhere he => exact .inr (.inr ⟨_, _, _, he, rfl⟩)
  | delivers _ hr => cases hr <;> exact .inl ⟨rfl, .inl rfl⟩
  | _ => exact .inl ⟨rfl, .inl rfl⟩

/-- Facts that may depend on who is signed in: the sign-out and the calls are left to prove. -/
theorem Holds.happened {S : Option String → Page → Prop} {M : Option String → Request ⊕ Intent → Prop}
    {emailAddress : String → Bool} {w w' : Device} {e : Event} (hl : ∀ user, Laws user (S user) (M user))
    (h : Holds (S w.currentUser) (M w.currentUser) w) (hs : Happened emailAddress w e w')
    (htap : ∀ a x x' qs, e = .act a → Tapped emailAddress a x x' qs → S w.currentUser x →
      S w.currentUser x' ∧ ∀ q ∈ qs, M w.currentUser (.inl q))
    (hout : e = .act .signOut → ∀ m ∈ w.net, M none m)
    (hexec : ∀ ok q db out, .inl q ∈ w.net → exec ok w.db q = some (db, out) →
      (∀ x ∈ w.stack, S (signedIn q out w.currentUser) x) ∧
        (∀ m ∈ w.net, M (signedIn q out w.currentUser) m) ∧ ∀ b ∈ out, M (signedIn q out w.currentUser) b) :
    Holds (S w'.currentUser) (M w'.currentUser) w' := by
  have herased : ∀ n, ∀ m ∈ w.net.eraseIdx n, m ∈ w.net := fun n m hm => List.mem_of_mem_eraseIdx hm
  have happears : ∀ {v : Device}, v.currentUser = w.currentUser → Holds (S w.currentUser) (M w.currentUser) v →
      Appeared v w' → Holds (S w'.currentUser) (M w'.currentUser) w' := by
    intro v hu hv ha
    have hsame : w'.currentUser = v.currentUser := by cases ha <;> rfl
    rw [hsame, hu]
    exact hv.appeared (hu ▸ hl w.currentUser) ha
  cases hs with
  | nothing => exact h
  | @acts a _ hlife ha =>
    by_cases hsign : a = .signOut
    · subst hsign
      cases ha with
      | stays => exact h
      | taps _ ht => cases ht
      | opens hs ho =>
        obtain ⟨hx, -⟩ := List.forall_mem_cons.mp (hs ▸ h.page)
        obtain ⟨hy, hqs⟩ := (hl w.currentUser).opened _ _ _ ho hx
        exact (h.push hy).issue hqs
      | signsOut => exact ⟨List.forall_mem_singleton.mpr (hl none).home, hout rfl⟩
    · obtain ⟨hw', hu⟩ := h.acted (hl _) ha hsign fun x x' qs => htap a x x' qs rfl
      rw [hu]
      exact hw'
  | pauses | stops | comesBack => exact ⟨h.page, h.msg⟩
  | launches _ ha =>
    exact happears (v := { w with stack := [.authHome AuthHome.onCreate] }) rfl
      ⟨List.forall_mem_singleton.mpr (hl w.currentUser).home, h.msg⟩ ha
  | resumes _ ha => exact happears rfl h ha
  | execs hn he =>
    obtain ⟨hpage, hmsg, hmore⟩ := hexec _ _ _ _ (List.mem_of_getElem? hn) he
    refine ⟨hpage, fun m hm => ?_⟩
    rcases List.mem_append.mp hm with hm | hm
    · exact hmsg m (herased _ m hm)
    · exact hmore m hm
  | @delivers n i _ hn hr =>
    have hrest : Holds (S w.currentUser) (M w.currentUser) { w with net := w.net.eraseIdx n } :=
      ⟨h.page, fun m hm => h.msg m (herased n m hm)⟩
    obtain ⟨hw', hu⟩ := hrest.received (hl _) (h.msg _ (List.mem_of_getElem? hn)) hr
    rw [hu]
    exact hw'
  | elsewhere => exact ⟨h.page, h.msg⟩

/-! ### Signed in behind the login -/

/-- The activity is behind the login. -/
def Page.behind : Page → Bool
  | .core .. | .profile _ | .inner .. => true
  | _ => false

/-- The call signs a user in. -/
def signs : Request → Bool
  | .signIn .. | .createAccount .. => true
  | _ => false

/-- The actions whose positive broadcasts take the pages of the login to the main activity. -/
def opening : List String :=
  [AuthHome.authLogin, AuthSignUpProfile.authCreateAccount, AuthSignUpProfile.authCreateUserInUsers]

/-- What is under way comes after a sign-in and may still start the main activity. -/
def Opens : Request ⊕ Intent → Prop
  | .inl q => q.action ∈ opening ∧ signs q = false
  | .inr i => i.action ∈ opening ∧ i.result = true

/-- The main activity's question is answered with a user. -/
def Informs : Request ⊕ Intent → Prop
  | .inl q => q.action = CoreActivity.getUserInfo →
      (∃ a e s, q = .getUser a e s) ∨ ∃ a e d, q = .getUserPosts a e d
  | .inr i => i.action = CoreActivity.getUserInfo → i.result = true → ∃ u, i.extra = some (.user u)

section Calls

variable {ok : Bool} {db db' : Database} {q : Request} {out : List (Request ⊕ Intent)} {user : Option String}

theorem action_exec (h : exec ok db q = some (db', out)) :
    ∀ b ∈ out, b.elim Request.action Intent.action = q.action := by
  intro b hb
  cases executed_exec h with
  | fails hall =>
    obtain rfl := hall b hb
    rfl
  | _ =>
    obtain rfl := List.mem_singleton.mp hb
    rfl

theorem informs_exec (hq : Informs (.inl q)) (h : exec ok db q = some (db', out)) : ∀ b ∈ out, Informs b := by
  intro b hb
  have haction := action_exec h b hb
  by_cases ha : q.action = CoreActivity.getUserInfo
  · rcases hq ha with ⟨a, e, silent, rfl⟩ | ⟨a, e, d, rfl⟩
    · simp only [exec] at h
      split at h
      · split at h
        · cases h
        · obtain ⟨-, rfl⟩ := Prod.mk.inj (Option.some.inj h)
          obtain rfl := List.mem_singleton.mp hb
          exact fun _ => .inr ⟨_, _, _, rfl⟩
      · split at h
        · obtain ⟨-, rfl⟩ := Prod.mk.inj (Option.some.inj h)
          cases hb
        · obtain ⟨-, rfl⟩ := Prod.mk.inj (Option.some.inj h)
          obtain rfl := List.mem_singleton.mp hb
          exact fun _ hr => by cases hr
    · simp only [exec] at h
      split at h
      · obtain ⟨-, rfl⟩ := Prod.mk.inj (Option.some.inj h)
        obtain rfl := List.mem_singleton.mp hb
        exact fun _ _ => ⟨_, rfl⟩
      · obtain ⟨-, rfl⟩ := Prod.mk.inj (Option.some.inj h)
        obtain rfl := List.mem_singleton.mp hb
        exact fun _ hr => by cases hr
  · cases b with
    | inl q' => exact fun ha' => absurd (haction.symm.trans ha') ha
    | inr i => exact fun ha' => absurd (haction.symm.trans ha') ha

/-- A sign-in that succeeds leaves somebody signed in, and no call signs out. -/
theorem signedIn_ne_none (h : user ≠ none) : signedIn q out user ≠ none := by
  unfold signedIn
  split
  · split
    · exact Option.some_ne_none _
    · exact h
  · split
    · exact Option.some_ne_none _
    · exact h
  · exact h

theorem signedIn_of_signs (hq : signs q = true) {i : Intent} (hi : .inr i ∈ out) (hr : i.result = true) :
    signedIn q out user ≠ none := by
  have hany : (out.any fun b => b.elim (fun _ => false) (·.result)) = true := List.any_eq_true.mpr ⟨_, hi, hr⟩
  cases q with
  | signIn | createAccount =>
    simp only [signedIn, hany, if_true]
    exact Option.some_ne_none _
  | _ => cases hq

theorem signedIn_of_not_signs (hq : signs q = false) : signedIn q out user = user := by
  cases q with
  | signIn | createAccount => cases hq
  | _ => rfl

theorem opens_exec (hq : Opens (.inl q) → user ≠ none) (h : exec ok db q = some (db', out)) :
    ∀ b ∈ out, Opens b → signedIn q out user ≠ none := by
  intro b hb hopens
  have haction := action_exec h b hb
  cases hsigns : signs q with
  | false =>
    rw [signedIn_of_not_signs hsigns]
    refine hq ⟨?_, hsigns⟩
    rw [← haction]
    cases b <;> exact hopens.1
  | true =>
    cases b with
    | inr i => exact signedIn_of_signs hsigns hb hopens.2
    | inl q' =>
      cases executed_exec h with
      | fails hall => cases hall _ hb
      | wrote | answers => cases List.mem_singleton.mp hb
      | _ => cases hsigns

end Calls

/-- Behind the login somebody is signed in. -/
def Inside (user : Option String) (x : Page) : Prop := x.behind = true → user ≠ none

/-- What may start the main activity, or answers it, does so. -/
def Sound (user : Option String) (m : Request ⊕ Intent) : Prop := (Opens m → user ≠ none) ∧ Informs m

theorem behind_of_opensInner {x : Page} {k : Inner} (h : x.opensInner k = true) : x.behind = true := by
  cases x with
  | core | profile | inner => rfl
  | _ => cases h

theorem behindCall_asUser {user : Option String} {q q' : Request} (hq : behindCall q = true)
    (hq' : asUser user q = some q') : q'.action ∉ signInActions ∧ Informs (.inl q') := by
  have hother : ∀ q : Request, (decide (q.action ∉ signInActions) && q.action != CoreActivity.getUserInfo) = true →
      q.action ∉ signInActions ∧ Informs (.inl q) := by
    intro q hq
    obtain ⟨hsign, hinfo⟩ := Bool.and_eq_true_iff.mp hq
    exact ⟨of_decide_eq_true hsign, fun ha => absurd ha (bne_iff_ne.mp hinfo)⟩
  cases q with
  | signIn | fetchSignIn | createAccount | setUser => cases hq
  | getUser a e silent =>
    obtain rfl := Option.some.inj hq'
    exact ⟨of_decide_eq_true hq, fun _ => .inl ⟨_, _, _, rfl⟩⟩
  | updateUserArray a id f op v =>
    obtain ⟨me, -, rfl⟩ := Option.map_eq_some_iff.mp hq'
    exact hother (.updateUserArray a me f op v) hq
  | _ =>
    obtain rfl := Option.some.inj hq'
    exact hother _ hq

theorem laws_inside (user : Option String) : Laws user (Inside user) (Sound user) where
  home := nofun
  found me hu := by
    have huser : user ≠ none := hu ▸ Option.some_ne_none me
    exact ⟨fun _ => huser, fun _ => huser, fun _ => huser, fun _ => .inl ⟨_, _, _, rfl⟩⟩
  opened x y qs ho hx := by
    cases ho with
    | signUpEmail | signUpProfile => exact ⟨nofun, fun _ hq => by cases hq⟩
    | @profile c u me hu =>
      have huser : user ≠ none := hu ▸ Option.some_ne_none me
      refine ⟨fun _ => huser, fun q hq => ?_⟩
      obtain rfl := List.mem_singleton.mp hq
      exact ⟨fun _ => huser, fun _ => .inl ⟨_, _, _, rfl⟩⟩
    | inner hopens => exact ⟨fun _ => hx (behind_of_opensInner hopens), fun _ hq => by cases hq⟩
  called k m q q' hx hq hq' := by
    exact ⟨fun _ => hx rfl, (behindCall_asUser hq hq').2⟩
  heard i x x' qs starts hi hx hh := by
    cases hh with
    | quiet => exact ⟨hx, fun _ hq => by cases hq⟩
    | authHome hr =>
      refine ⟨nofun, fun q hq => ?_⟩
      cases hr with
      | quiet | starts => cases hq
      | signsIn =>
        obtain rfl := List.mem_singleton.mp hq
        exact ⟨fun hopens => (nomatch hopens.2), fun ha => absurd ha (show AuthHome.authLogin ≠ _ by decide)⟩
    | signUpEmail => exact ⟨nofun, fun _ hq => by cases hq⟩
    | signUpProfile hr | signedUp hr =>
      refine ⟨nofun, fun q hq => ?_⟩
      cases hr with
      | quiet => cases hq
      | creates =>
        obtain rfl := List.mem_singleton.mp hq
        exact ⟨fun hopens => (nomatch hopens.2),
          fun ha => absurd ha (show AuthSignUpProfile.authCreateAccount ≠ _ by decide)⟩
      | stores ha hres =>
        obtain rfl := List.mem_singleton.mp hq
        refine ⟨fun _ => hi.1 ⟨?_, hres⟩,
          fun ha => absurd ha (show AuthSignUpProfile.authCreateUserInUsers ≠ _ by decide)⟩
        rw [ha]
        decide
    | told => exact ⟨fun _ => hx rfl, fun _ hq => by cases hq⟩

section Inside

variable {emailAddress : String → Bool} {w w' : Device} {e : Event}

/-- The pages of the login ask about emails and usernames on a tap. -/
theorem sound_tapped {a : Action} {x x' : Page} {qs : List Request} {user : Option String}
    (h : Tapped emailAddress a x x' qs) : Inside user x' ∧ ∀ q ∈ qs, Sound user (.inl q) := by
  have hsound : ∀ q : Request, q.action ∉ opening → q.action ≠ CoreActivity.getUserInfo → Sound user (.inl q) :=
    fun q hopening hinfo => ⟨fun hopens => absurd hopens.1 hopening, fun ha => absurd ha hinfo⟩
  cases h with
  | authHome ht =>
    refine ⟨nofun, fun q hq => ?_⟩
    cases ht with
    | checks =>
      obtain rfl := List.mem_singleton.mp hq
      exact hsound _ (show AuthHome.authEmailCheck ∉ opening by decide)
        (show AuthHome.authEmailCheck ≠ CoreActivity.getUserInfo by decide)
    | _ => cases hq
  | signUpEmail ht =>
    refine ⟨nofun, fun q hq => ?_⟩
    cases ht with
    | verifies =>
      obtain rfl := List.mem_singleton.mp hq
      exact hsound _ (show AuthSignUpEmail.verifyEmail ∉ opening by decide)
        (show AuthSignUpEmail.verifyEmail ≠ CoreActivity.getUserInfo by decide)
    | _ => cases hq
  | signUpProfile ht =>
    refine ⟨nofun, fun q hq => ?_⟩
    cases ht with
    | verifies =>
      obtain rfl := List.mem_singleton.mp hq
      exact hsound _ (show AuthSignUpProfile.userVerifyUsernameAction ∉ opening by decide)
        (show AuthSignUpProfile.userVerifyUsernameAction ≠ CoreActivity.getUserInfo by decide)
    | quiet => cases hq

theorem inside_happened (h : Holds (Inside w.currentUser) (Sound w.currentUser) w) (hs : Happened emailAddress w e w')
    (hout : e = .act .signOut → ∀ m ∈ w.net, ¬ Opens m) : Holds (Inside w'.currentUser) (Sound w'.currentUser) w' := by
  refine h.happened laws_inside hs (fun a x x' qs _ ht _ => sound_tapped ht)
    (fun he m hm => ⟨fun hopens => absurd hopens (hout he m hm), (h.msg m hm).2⟩) ?_
  intro ok q db out hq he
  have hsound := h.msg _ hq
  refine ⟨fun x hx hbehind => signedIn_ne_none (h.page x hx hbehind), fun m hm => ?_, fun b hb => ?_⟩
  · exact ⟨fun hopens => signedIn_ne_none ((h.msg m hm).1 hopens), (h.msg m hm).2⟩
  · exact ⟨opens_exec hsound.1 he b hb, informs_exec hsound.2 he b hb⟩

/-! ### What throws -/

theorem startMainActivity_isSome (h : w.currentUser ≠ none) : w.startMainActivity.isSome = true := by
  obtain ⟨me, hme⟩ := Option.ne_none_iff_exists'.mp h
  rw [Device.startMainActivity, hme]
  rfl

theorem onResume_isSome (h : ∀ x ∈ w.stack, Inside w.currentUser x) : w.onResume.isSome = true := by
  unfold Device.onResume
  split
  · rename_i hs
    obtain ⟨me, hme⟩ := Option.ne_none_iff_exists'.mp (h (.profile _) (hs ▸ List.mem_cons_self) rfl)
    rw [hme]
    rfl
  · rfl

theorem appear_isSome (h : ∀ x ∈ w.stack, Inside w.currentUser x) : w.appear.isSome = true := by
  unfold Device.appear Device.onStart
  split
  · split
    · rename_i hsome
      obtain ⟨me, hme⟩ := Option.isSome_iff_exists.mp hsome
      rw [Device.startMainActivity, hme]
      rfl
    · exact onResume_isSome (w := { w with life := .resumed }) h
  · exact onResume_isSome (w := { w with life := .resumed }) h

theorem act_isSome (h : ∀ x ∈ w.stack, Inside w.currentUser x) (a : Action) : (act emailAddress w a).isSome = true := by
  have htop : ∀ {x rest}, w.stack = x :: rest → x.behind = true → ∃ me, w.currentUser = some me := fun hs hx =>
    Option.ne_none_iff_exists'.mp (h _ (hs ▸ List.mem_cons_self) hx)
  unfold act
  split
  · rfl
  · rfl
  · rfl
  · split <;> rfl
  · rfl
  · rename_i hs
    split
    · obtain ⟨me, hme⟩ := htop hs rfl
      rw [Device.onResume, Device.push, hme]
      rfl
    · rfl
  · rename_i hs
    split
    · rename_i hx
      obtain ⟨me, hme⟩ := htop hs (behind_of_opensInner hx)
      rw [Device.openInner, hme]
      split <;> rfl
    · rfl
  · rename_i hs
    split
    · obtain ⟨me, hme⟩ := htop hs rfl
      rw [hme]
      unfold asUser
      split <;> rfl
    · rfl
  · rfl
  · rfl
  · rename_i hs
    exact appear_isSome (w := { w with stack := _ }) fun x hx => h x (hs ▸ List.mem_cons_of_mem _ hx)
  · rfl

/-- The main activity's question is answered with a user, so nobody throws at a broadcast. -/
theorem hear_isSome {i : Intent} (hi : Informs (.inr i)) (x : Page) : (hear i x).isSome = true := by
  cases x with
  | core me mUser =>
    simp only [hear]
    split
    · rename_i ha
      split
      · rfl
      · rename_i hother hr hx
        obtain ⟨u, hu⟩ := hi ha hr
        exact absurd (hx.symm.trans hu) (fun heq => hother u (Option.some.inj heq))
      · rfl
    · rfl
  | _ => rfl

/-- A broadcast that starts the main activity comes after a sign-in. -/
theorem opens_of_heard {i : Intent} {x x' : Page} {qs : List Request} (h : Heard i x x' qs true) : Opens (.inr i) := by
  cases h with
  | authHome hr =>
    cases hr with
    | starts ha hr => exact ⟨by rw [ha]; decide, hr⟩
  | signedUp _ ha hr => exact ⟨by rw [ha]; decide, hr⟩

theorem recv_isSome {i : Intent} (hi : Sound w.currentUser (.inr i)) : (recv i w).isSome = true := by
  unfold recv
  split
  · split
    · rfl
    · rename_i x rest hs
      obtain ⟨⟨x', qs, starts⟩, hx⟩ := Option.isSome_iff_exists.mp (hear_isSome hi.2 x)
      rw [hx]
      cases starts with
      | false => rfl
      | true =>
        exact startMainActivity_isSome (w := (w.overhears i [x'] rest).issue qs)
          (hi.1 (opens_of_heard (heard_hear hx)))
  · rfl

/-- Only a call's listener throws. -/
theorem exec_of_throws (h : Holds (Inside w.currentUser) (Sound w.currentUser) w)
    (hnone : next emailAddress w e = none) : ∃ n ok, e = .exec n ok := by
  have habsurd : ∀ {o : Option Device}, o.isSome = true → o ≠ none := fun ho hno => by rw [hno] at ho; cases ho
  cases e with
  | act a =>
    simp only [next] at hnone
    split at hnone
    · exact absurd hnone (habsurd (act_isSome h.page a))
    · cases hnone
  | pause | stop | elsewhere => cases hnone
  | resume =>
    simp only [next] at hnone
    split at hnone
    · cases hnone
    · exact absurd hnone (habsurd (onResume_isSome (w := { w with life := .resumed }) h.page))
    · exact absurd hnone (habsurd (appear_isSome (w := { w with stack := [.authHome AuthHome.onCreate] })
        (List.forall_mem_singleton.mpr (laws_inside w.currentUser).home)))
    · exact absurd hnone (habsurd (appear_isSome h.page))
  | exec n ok => exact ⟨n, ok, rfl⟩
  | deliver n =>
    simp only [next] at hnone
    split at hnone
    · rename_i hn
      exact absurd hnone (habsurd (recv_isSome (w := { w with net := w.net.eraseIdx n })
        (h.msg _ (List.mem_of_getElem? hn))))
    · cases hnone

end Inside

/-- The positive broadcast of a login finds the login that the sign-out has started. -/
theorem signOut_throws {emailAddress : String → Bool} {w : Device} {m : Option String} {rest : List Page} {n : ℕ}
    {i : Intent} (hl : w.life = .resumed) (hs : w.stack = .profile m :: rest) (hn : w.net[n]? = some (.inr i))
    (ha : i.action = AuthHome.authLogin) (hr : i.result = true) :
    ∃ w', next emailAddress w (.act .signOut) = some w' ∧ next emailAddress w' (.deliver n) = none := by
  have hout : next emailAddress w (.act .signOut) =
      some { w with currentUser := none, stack := [.authHome AuthHome.onCreate], life := .resumed } := by
    simp only [next, hl, if_true, act, hs]
    rfl
  refine ⟨_, hout, ?_⟩
  have hother : i.action ≠ AuthHome.authEmailCheck := by
    rw [ha]
    decide
  have hheard : hear i (.authHome AuthHome.onCreate) =
      some (.authHome (AuthHome.toggleErrFeedback false AuthHome.toggleCaseBoth AuthHome.onCreate), [], true) := by
    simp only [hear, AuthHome.onReceive, if_neg hother, if_pos ha, hr, if_true]
  simp only [next, hn, recv, if_true, hheard]
  rfl

/-- **Behind the login somebody is signed in**, in every run in which nobody signs out while
the broadcast of a sign-in, or what it leads to, is under way. So no activity asks in vain
who is signed in, which is what throws here but for the listeners of calls; after a
sign-out, the broadcast of a login does, and ends the app. -/
theorem signed_in_behind (emailAddress : String → Bool) (db : Database) (user : Option String) (es : List Event) (w : Device)
    (hcalm : Along (next emailAddress) (fun w e => e = .act .signOut → ∀ m ∈ w.net, ¬ Opens m) (launch db user) es)
    (h : run (next emailAddress) (launch db user) es = some w) :
    ((∃ x ∈ w.stack, x.behind = true) → w.currentUser ≠ none) ∧
      (∀ e, next emailAddress w e = none → ∃ n ok, e = .exec n ok) ∧
      ∀ m rest n i, w.life = .resumed → w.stack = .profile m :: rest → w.net[n]? = some (.inr i) →
        i.action = AuthHome.authLogin → i.result = true →
        ∃ w', next emailAddress w (.act .signOut) = some w' ∧ next emailAddress w' (.deliver n) = none := by
  have hholds : Holds (Inside w.currentUser) (Sound w.currentUser) w :=
    hcalm.keeps (I := fun w => Holds (Inside w.currentUser) (Sound w.currentUser) w)
      (fun w e w' hw hout hs => inside_happened hw (happened_next hs) hout)
      ⟨List.forall_mem_nil _, List.forall_mem_nil _⟩ h
  exact ⟨fun ⟨x, hx, hbehind⟩ => hholds.page x hx hbehind, fun e => exec_of_throws hholds,
    fun m rest n i => signOut_throws⟩

/-! Ann taps login twice; the second broadcast is under way while she is on her profile. -/

def annDb : Database where
  posts := DocStore.Collection.empty
  comments := DocStore.Collection.empty
  users := DocStore.Collection.empty.set "ann@mail.com" ⟨"ann", "", 0, 12, [], [], [], [], []⟩
  accounts := DocStore.Collection.empty.set "ann@mail.com" "password"

def twice : List Event :=
  [.resume, .act (.authHome (.typeEmail "ann@mail.com")), .act (.authHome (.typePwd "password")),
    .act (.authHome .onLoginTap), .act (.authHome .onLoginTap), .exec 0 true, .exec 0 true, .deliver 0, .deliver 0,
    .exec 0 true, .exec 0 true, .deliver 0, .exec 1 true, .exec 1 true, .deliver 1, .act .openProfile]

theorem signed_in_behind_ann :
    ∃ w, run (next AuthHome.containsAt) (launch annDb none) twice = some w ∧
      w.stack.map (·.behind) = [true, true, false] ∧ w.net.length = 2 ∧
      ((∃ x ∈ w.stack, x.behind = true) → w.currentUser ≠ none) ∧
      (∀ e, next AuthHome.containsAt w e = none → ∃ n ok, e = .exec n ok) ∧
      ∀ m rest n i, w.life = .resumed → w.stack = .profile m :: rest → w.net[n]? = some (.inr i) →
        i.action = AuthHome.authLogin → i.result = true →
        ∃ w', next AuthHome.containsAt w (.act .signOut) = some w' ∧ next AuthHome.containsAt w' (.deliver n) = none := by
  have hstays : ∀ e ∈ twice, e ≠ .act .signOut := by decide
  exact ⟨_, rfl, rfl, rfl, signed_in_behind AuthHome.containsAt annDb none twice _
    (along_of_forall fun e he _ hout => absurd hout (hstays e he)) rfl⟩

end Sessions
end FootballGallery
