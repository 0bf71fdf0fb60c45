/-
# Whom the activities have found signed in

The main activity, the profile, a post's page and the form of a post each ask
`FirebaseAuth` who is signed in and go by the answer. Two logins that overlap can end
with one user's activities on screen and another user signed in. When the user does
nothing while a sign-in or a sign-up is under way this does not happen: there is one
call of it at most, none behind the login, and every activity has found the user who is
signed in.

Key definitions: `Page.found`, `ofSignIn`, `waits`, `Shape`, `Calm`.
Key theorems: `calm_happened`, `found_users`.
-/
import FootballGallery.SessionRuns
import Mathlib.Data.List.Perm.Basic

namespace FootballGallery
namespace Sessions

open DBUtil Runs

/-- The user whom the activity has found signed in. -/
def Page.found : Page → Option String
  | .core me _ => some me
  | .profile me | .inner _ me => me
  | _ => none

/-- A call of a sign-in or a sign-up, or a positive answer to one. -/
def ofSignIn : Request ⊕ Intent → Bool
  | .inl q => decide (q.action ∈ signInActions)
  | .inr i => decide (i.action ∈ signInActions) && i.result

/-- The user does nothing while a sign-in or a sign-up is under way. -/
def waits (w : Device) : Event → Prop
  | .act _ | .pause | .stop | .resume => ∀ m ∈ w.net, ofSignIn m = false
  | _ => True

instance decidableWaits (w : Device) : ∀ e, Decidable (waits w e)
  | .act _ | .pause | .stop | .resume => inferInstanceAs (Decidable (∀ m ∈ w.net, ofSignIn m = false))
  | .exec .. | .deliver _ | .elsewhere .. => isTrue trivial

/-! ### The stack -/

inductive Kind where
  | home | email | signUp | behind
deriving DecidableEq

def Page.kind : Page → Kind
  | .authHome _ => .home
  | .signUpEmail _ => .email
  | .signUpProfile _ => .signUp
  | _ => .behind

/-- The pages of the login and the sign-up, each over the one that opens it. -/
def Base (ks : List Kind) : Prop := ks = [.home] ∨ ks = [.email, .home] ∨ ks = [.signUp, .email, .home]

/-- The activities behind the login are over the pages of the login. -/
inductive Shape : List Kind → Prop
  | nil : Shape []
  | base {ks} (h : Base ks) : Shape ks
  | behind {ks} (h : Shape ks) (hne : ks ≠ []) : Shape (.behind :: ks)

theorem Base.tail {k : Kind} {ks : List Kind} (h : Base (k :: ks)) (hne : ks ≠ []) : Base ks := by
  rcases h with h | h | h
  · exact absurd (List.cons.inj h).2 hne
  · exact .inl (List.cons.inj h).2
  · exact .inr (.inl (List.cons.inj h).2)

theorem Shape.tail {k : Kind} {ks : List Kind} (h : Shape (k :: ks)) : Shape ks := by
  cases h with
  | base h =>
    by_cases hne : ks = []
    · rw [hne]
      exact .nil
    · exact .base (h.tail hne)
  | behind h => exact h

theorem Shape.base_of_ne {k : Kind} {ks : List Kind} (h : Shape (k :: ks)) (hk : k ≠ .behind) : Base (k :: ks) := by
  cases h with
  | base h => exact h
  | behind => exact absurd rfl hk

theorem Base.of_home {ks : List Kind} (h : Base (.home :: ks)) : ks = [] := by
  rcases h with h | h | h
  · exact (List.cons.inj h).2
  · cases (List.cons.inj h).1
  · cases (List.cons.inj h).1

theorem Base.of_email {ks : List Kind} (h : Base (.email :: ks)) : ks = [.home] := by
  rcases h with h | h | h
  · cases (List.cons.inj h).1
  · exact (List.cons.inj h).2
  · cases (List.cons.inj h).1

theorem Base.count_signUp {k : Kind} {ks : List Kind} (h : Base (k :: ks)) : ks.count .signUp = 0 := by
  rcases h with h | h | h <;> rw [(List.cons.inj h).2] <;> decide

theorem Shape.count_signUp {ks : List Kind} (h : Shape ks) : ks.count .signUp ≤ 1 := by
  induction h with
  | nil => decide
  | base h => rcases h with rfl | rfl | rfl <;> decide
  | behind _ _ ih =>
    rw [List.count_cons_of_ne (by decide)]
    exact ih

theorem Base.not_behind {ks : List Kind} (h : Base ks) : .behind ∉ ks := by
  rcases h with rfl | rfl | rfl <;> decide

theorem kind_eq_behind {x : Page} : x.kind = .behind ↔ x.behind = true := by
  cases x <;> simp [Page.kind, Page.behind]

theorem found_of_not_behind {x : Page} (h : x.behind = false) : x.found = none := by
  cases x with
  | core | profile | inner => cases h
  | _ => rfl

/-! ### Sign-ins under way -/

/-- The number of calls and positive answers of sign-ins under way. -/
def live (ms : List (Request ⊕ Intent)) : ℕ := ms.countP ofSignIn

theorem live_append (ms ms' : List (Request ⊕ Intent)) : live (ms ++ ms') = live ms + live ms' := List.countP_append

theorem live_eraseIdx {ms : List (Request ⊕ Intent)} {n : ℕ} {m : Request ⊕ Intent} (hn : ms[n]? = some m) :
    live (ms.eraseIdx n) + (if ofSignIn m then 1 else 0) = live ms := by
  obtain ⟨hlt, rfl⟩ := List.getElem?_eq_some_iff.mp hn
  have hperm := (List.getElem_cons_eraseIdx_perm hlt).countP_eq ofSignIn
  rw [List.countP_cons] at hperm
  exact hperm

theorem live_eq_zero {ms : List (Request ⊕ Intent)} : live ms = 0 ↔ ∀ m ∈ ms, ofSignIn m = false := by
  rw [live, List.countP_eq_zero]
  simp only [Bool.not_eq_true]

section Calls

variable {ok : Bool} {db db' : Database} {q : Request} {out : List (Request ⊕ Intent)}

theorem live_exec (h : exec ok db q = some (db', out)) : live out ≤ if ofSignIn (.inl q) then 1 else 0 := by
  have haction := action_exec h
  by_cases hq : q.action ∈ signInActions
  · rw [if_pos (show ofSignIn (.inl q) = true from decide_eq_true hq)]
    cases executed_exec h with
    | fails hall =>
      have hzero : live out = 0 := live_eq_zero.mpr fun b hb => by
        rw [hall b hb]
        exact Bool.and_false _
      omega
    | _ => exact List.countP_le_length
  · have hzero : live out = 0 := live_eq_zero.mpr fun b hb => by
      have hb' := haction b hb
      cases b with
      | inl q' => exact decide_eq_false fun hin => hq (hb' ▸ hin)
      | inr i => exact Bool.and_eq_false_imp.mpr fun hin => absurd (hb' ▸ of_decide_eq_true hin) hq
    omega

/-- A call that signs in is one of a sign-in or a sign-up. -/
def Tagged (m : Request ⊕ Intent) : Prop := ∀ q, m = .inl q → signs q = true → ofSignIn m = true

theorem tagged_of_not_signs (hq : signs q = false) : Tagged (.inl q) := by
  intro q' heq hsigns
  rw [← Sum.inl.inj heq, hq] at hsigns
  cases hsigns

theorem tagged_exec (h : exec ok db q = some (db', out)) : ∀ b ∈ out, Tagged b := by
  intro b hb q' heq hsigns
  subst heq
  cases executed_exec h with
  | fails hall => cases hall _ hb
  | wrote | answers | getUserPosts | getPostsStepTwo | getPostAuthor | getCommentsStepFour =>
    cases List.mem_singleton.mp hb
  | _ =>
    obtain rfl := Sum.inl.inj (List.mem_singleton.mp hb)
    cases hsigns

/-- The call has nothing to do with a sign-in. -/
def Aside (q : Request) : Prop := ofSignIn (.inl q) = false ∧ signs q = false

theorem live_aside {qs : List Request} (h : ∀ q ∈ qs, Aside q) : live (qs.map .inl) = 0 := by
  refine live_eq_zero.mpr fun m hm => ?_
  obtain ⟨q, hq, rfl⟩ := List.mem_map.mp hm
  exact (h q hq).1

theorem aside_getUser {a email : String} {silent : Bool} (ha : a ∉ signInActions) : Aside (.getUser a email silent) :=
  ⟨decide_eq_false ha, rfl⟩

theorem aside_behindCall {user : Option String} {q q' : Request} (hq : behindCall q = true)
    (hq' : asUser user q = some q') : Aside q' := by
  refine ⟨decide_eq_false (behindCall_asUser hq hq').1, ?_⟩
  cases q with
  | signIn | fetchSignIn | createAccount | setUser => cases hq
  | updateUserArray =>
    obtain ⟨me, -, rfl⟩ := Option.map_eq_some_iff.mp hq'
    rfl
  | _ =>
    obtain rfl := Option.some.inj hq'
    rfl

end Calls

/-! ### What the pages ask for -/

section Pages

variable {emailAddress : String → Bool} {i : Intent} {x x' : Page} {qs : List Request}

theorem tapped_asks {a : Action} (h : Tapped emailAddress a x x' qs) :
    x'.kind = x.kind ∧ x.kind ≠ .behind ∧ x'.found = none ∧ qs.length ≤ 1 ∧ ∀ q ∈ qs, Tagged (.inl q) := by
  cases h with
  | authHome ht =>
    have hkind : Kind.home ≠ .behind := by decide
    cases ht with
    | checks => exact ⟨rfl, hkind, rfl, Nat.le_refl 1, List.forall_mem_singleton.mpr (tagged_of_not_signs rfl)⟩
    | _ => exact ⟨rfl, hkind, rfl, Nat.zero_le 1, List.forall_mem_nil _⟩
  | signUpEmail ht =>
    have hkind : Kind.email ≠ .behind := by decide
    cases ht with
    | verifies => exact ⟨rfl, hkind, rfl, Nat.le_refl 1, List.forall_mem_singleton.mpr (tagged_of_not_signs rfl)⟩
    | _ => exact ⟨rfl, hkind, rfl, Nat.zero_le 1, List.forall_mem_nil _⟩
  | signUpProfile ht =>
    have hkind : Kind.signUp ≠ .behind := by decide
    cases ht with
    | verifies => exact ⟨rfl, hkind, rfl, Nat.le_refl 1, List.forall_mem_singleton.mpr (tagged_of_not_signs rfl)⟩
    | quiet => exact ⟨rfl, hkind, rfl, Nat.zero_le 1, List.forall_mem_nil _⟩

/-- A page asks for one thing more at most, and for that at a positive answer of a sign-in. -/
theorem heard_asks {starts : Bool} (h : Heard i x x' qs starts) :
    x'.kind = x.kind ∧ x'.found = x.found ∧ (qs.length ≤ if ofSignIn (.inr i) then 1 else 0) ∧
      (∀ q ∈ qs, Tagged (.inl q)) ∧ (starts = true → qs = [] ∧ ofSignIn (.inr i) = true) := by
  have hlive : i.action ∈ signInActions → i.result = true → ofSignIn (.inr i) = true := fun ha hr =>
    Bool.and_eq_true_iff.mpr ⟨decide_eq_true ha, hr⟩
  have hone : ∀ q : Request, ofSignIn (.inr i) = true →
      [q].length ≤ if ofSignIn (.inr i) then 1 else 0 := fun q hi => by
    rw [if_pos hi]
    exact Nat.le_refl 1
  cases h with
  | quiet | signUpEmail | told => exact ⟨rfl, rfl, Nat.zero_le _, List.forall_mem_nil _, Bool.noConfusion⟩
  | authHome hr =>
    cases hr with
    | quiet => exact ⟨rfl, rfl, Nat.zero_le _, List.forall_mem_nil _, Bool.noConfusion⟩
    | signsIn ha hr =>
      refine ⟨rfl, rfl, hone _ (hlive (by rw [ha]; decide) hr), List.forall_mem_singleton.mpr ?_, Bool.noConfusion⟩
      intro q heq _
      exact decide_eq_true (show AuthHome.authLogin ∈ signInActions by decide)
    | starts ha hr =>
      exact ⟨rfl, rfl, Nat.zero_le _, List.forall_mem_nil _, fun _ => ⟨rfl, hlive (by rw [ha]; decide) hr⟩⟩
  | signUpProfile hr =>
    cases hr with
    | quiet => exact ⟨rfl, rfl, Nat.zero_le _, List.forall_mem_nil _, Bool.noConfusion⟩
    | creates ha hr =>
      refine ⟨rfl, rfl, hone _ (hlive (by rw [ha]; decide) hr), List.forall_mem_singleton.mpr ?_, Bool.noConfusion⟩
      intro q heq _
      exact decide_eq_true (show AuthSignUpProfile.authCreateAccount ∈ signInActions by decide)
    | stores ha hr =>
      exact ⟨rfl, rfl, hone _ (hlive (by rw [ha]; decide) hr),
        List.forall_mem_singleton.mpr (tagged_of_not_signs rfl), Bool.noConfusion⟩
  | signedUp hreply ha hr =>
    have hi : ofSignIn (.inr i) = true := hlive (by rw [ha]; decide) hr
    cases hreply with
    | quiet => exact ⟨rfl, rfl, Nat.zero_le _, List.forall_mem_nil _, fun _ => ⟨rfl, hi⟩⟩
    | creates ha' | stores ha' => exact absurd (ha.symm.trans ha') (by decide)

theorem overhear_of_ne (hx : x.kind ≠ .signUp) : overhear i x = (x, []) := by
  cases x with
  | signUpProfile => exact absurd rfl hx
  | _ => rfl

theorem length_overhears (i : Intent) (xs : List Page) :
    (xs.flatMap fun x => (overhear i x).2).length ≤ if ofSignIn (.inr i) then (xs.map Page.kind).count .signUp else 0 := by
  induction xs with
  | nil => exact Nat.zero_le _
  | cons x xs ih =>
    rw [List.flatMap_cons, List.length_append, List.map_cons]
    by_cases hx : x.kind = .signUp
    · have hasks := (heard_asks (heard_overhear i x)).2.2.1
      rw [hx, List.count_cons_self]
      by_cases hi : ofSignIn (.inr i) = true
      · rw [if_pos hi] at hasks ih ⊢
        omega
      · rw [if_neg hi] at hasks ih ⊢
        omega
    · rw [overhear_of_ne hx, List.count_cons_of_ne hx]
      rw [List.length_nil, Nat.zero_add]
      exact ih

end Pages

/-! ### Calm -/

/-- One sign-in is under way at most and none behind the login, and everybody has found the
user who is signed in. -/
structure Calm (w : Device) : Prop where
  shape : Shape (w.stack.map Page.kind)
  one : live w.net ≤ 1
  inside : .behind ∈ w.stack.map Page.kind → live w.net = 0
  found : ∀ f ∈ w.stack.map Page.found, ∀ me ∈ f, w.currentUser = some me
  tagged : ∀ m ∈ w.net, Tagged m

section Calm

variable {emailAddress : String → Bool} {w w' : Device}

theorem Calm.issue {qs : List Request} (h : Calm w) (htag : ∀ q ∈ qs, Tagged (.inl q))
    (hone : live w.net + live (qs.map .inl) ≤ 1)
    (hin : .behind ∈ w.stack.map Page.kind → live (qs.map .inl) = 0) : Calm (w.issue qs) where
  shape := h.shape
  one := Nat.le_trans (Nat.le_of_eq (live_append _ _)) hone
  inside hb := by
    rw [Device.issue, live_append, h.inside hb, hin hb]
  found := h.found
  tagged m hm := by
    rcases List.mem_append.mp hm with hm | hm
    · exact h.tagged m hm
    · obtain ⟨q, hq, rfl⟩ := List.mem_map.mp hm
      exact htag q hq

/-- An activity that has found nobody says nothing wrong. -/
theorem found_of_none {x : Page} (h : x.found = none) : ∀ me ∈ x.found, w.currentUser = some me := by
  intro me hme
  rw [h] at hme
  cases hme

theorem Calm.issue_aside {qs : List Request} (h : Calm w) (hqs : ∀ q ∈ qs, Aside q) : Calm (w.issue qs) := by
  refine h.issue (fun q hq => tagged_of_not_signs (hqs q hq).2) ?_ fun _ => live_aside hqs
  rw [live_aside hqs]
  exact h.one

/-- An activity opens behind the login. -/
theorem Calm.push_behind {y : Page} (h : Calm w) (hzero : live w.net = 0) (hne : w.stack ≠ []) (hy : y.kind = .behind)
    (hfound : ∀ me ∈ y.found, w.currentUser = some me) : Calm (w.push y) where
  shape := by
    rw [Device.push, List.map_cons, hy]
    exact .behind h.shape fun hnil => hne (List.map_eq_nil_iff.mp hnil)
  one := h.one
  inside _ := hzero
  found := List.forall_mem_cons.mpr ⟨hfound, h.found⟩
  tagged := h.tagged

/-- The pages of the login have found nobody. -/
theorem not_behind_found (h : .behind ∉ w.stack.map Page.kind) : ∀ f ∈ w.stack.map Page.found, f = none := by
  intro f hf
  obtain ⟨x, hx, rfl⟩ := List.mem_map.mp hf
  refine found_of_not_behind (Bool.eq_false_iff.mpr fun hbehind => h ?_)
  exact List.mem_map.mpr ⟨x, hx, kind_eq_behind.mpr hbehind⟩

theorem Calm.of_below {x : Page} {rest : List Page} (h : Calm w) (hs : w.stack = x :: rest) :
    Calm { w with stack := rest } where
  shape := by
    have hshape := h.shape
    rw [hs] at hshape
    exact hshape.tail
  one := h.one
  inside hb := h.inside (by rw [hs]; exact List.mem_cons_of_mem _ hb)
  found f hf := h.found f (by rw [hs]; exact List.mem_cons_of_mem _ hf)
  tagged := h.tagged

theorem calm_appeared (h : Calm w) (hzero : live w.net = 0) (ha : Appeared w w') : Calm w' := by
  cases ha with
  | shows => exact ⟨h.shape, h.one, h.inside, h.found, h.tagged⟩
  | @starts p rest me hs hu =>
    have hcalm : Calm { w with life := .resumed } := ⟨h.shape, h.one, h.inside, h.found, h.tagged⟩
    have hne : w.stack ≠ [] := by
      rw [hs]
      exact List.cons_ne_nil _ _
    refine (hcalm.push_behind hzero hne rfl ?_).issue_aside ?_
    · rintro me' ⟨⟩
      exact hu
    · exact List.forall_mem_singleton.mpr (aside_getUser (by decide))
  | @reads m rest me hs hu =>
    have hshape := h.shape
    have hfound := h.found
    rw [hs] at hshape hfound
    refine Calm.issue_aside ⟨hshape, h.one, fun _ => hzero, ?_, h.tagged⟩ ?_
    · refine List.forall_mem_cons.mpr ⟨?_, (List.forall_mem_cons.mp hfound).2⟩
      rintro me' ⟨⟩
      exact hu
    · exact List.forall_mem_singleton.mpr (aside_getUser (by decide))

theorem calm_acted {a : Action} (h : Calm w) (hzero : live w.net = 0) (ha : Acted emailAddress w a w') : Calm w' := by
  cases ha with
  | stays => exact h
  | @taps _ x x' rest qs hs ht =>
    obtain ⟨hkind, hx, hx', hlen, htag⟩ := tapped_asks ht
    have hshape := h.shape
    have hfound := h.found
    rw [hs, List.map_cons] at hshape hfound
    have hbase : .behind ∉ ({ w with stack := x' :: rest } : Device).stack.map Page.kind := by
      rw [List.map_cons, hkind]
      exact (hshape.base_of_ne hx).not_behind
    refine Calm.issue ⟨?_, h.one, fun hb => absurd hb hbase, ?_, h.tagged⟩ htag ?_ fun hb => absurd hb hbase
    · rw [List.map_cons, hkind]
      exact hshape
    · exact List.forall_mem_cons.mpr ⟨found_of_none hx', (List.forall_mem_cons.mp hfound).2⟩
    · rw [hzero, Nat.zero_add]
      exact Nat.le_trans List.countP_le_length (by rwa [List.length_map])
  | @opens _ x y rest qs hs ho =>
    have hshape := h.shape
    rw [hs, List.map_cons] at hshape
    have hne : w.stack ≠ [] := by
      rw [hs]
      exact List.cons_ne_nil _ _
    have hpage : ∀ {y : Page}, Base (y.kind :: x.kind :: rest.map Page.kind) → y.found = none →
        Calm (w.push y) := by
      intro y hbase hfound
      refine ⟨?_, h.one, fun _ => hzero, List.forall_mem_cons.mpr ⟨found_of_none hfound, h.found⟩, h.tagged⟩
      rw [Device.push, hs]
      exact .base hbase
    cases ho with
    | signUpEmail =>
      refine (hpage ?_ rfl).issue_aside (List.forall_mem_nil _)
      rw [(hshape.base_of_ne (show Kind.home ≠ _ by decide)).of_home]
      exact .inr (.inl rfl)
    | signUpProfile =>
      refine (hpage ?_ rfl).issue_aside (List.forall_mem_nil _)
      rw [(hshape.base_of_ne (show Kind.email ≠ _ by decide)).of_email]
      exact .inr (.inr rfl)
    | profile hu =>
      refine (h.push_behind hzero hne rfl ?_).issue_aside ?_
      · rintro me' ⟨⟩
        exact hu
      · exact List.forall_mem_singleton.mpr (aside_getUser (by decide))
    | @inner _ k m _ hm => exact (h.push_behind (y := .inner k m) hzero hne rfl hm).issue_aside (List.forall_mem_nil _)
  | calls hs hq hq' => exact h.issue_aside (List.forall_mem_singleton.mpr (aside_behindCall hq hq'))
  | signsOut hs =>
    exact ⟨.base (.inl rfl), h.one, fun _ => hzero, List.forall_mem_singleton.mpr (found_of_none (x := .authHome _) rfl),
      h.tagged⟩
  | closes hs => exact ⟨.nil, h.one, fun _ => hzero, List.forall_mem_nil _, h.tagged⟩
  | back hs happeared => exact calm_appeared (h.of_below hs) hzero happeared

/-! ### Broadcasts -/

theorem issue_issue (qs qs' : List Request) : (w.issue qs).issue qs' = w.issue (qs ++ qs') := by
  simp only [Device.issue, List.append_assoc, List.map_append]

variable {i : Intent}

/-- The activities hear `i`, when it is under way no more. -/
theorem Calm.hears {xs : List Page} {qs : List Request} (h : Calm w)
    (hroom : ofSignIn (.inr i) = true → live w.net = 0 ∧ .behind ∉ w.stack.map Page.kind)
    (hkinds : xs.map Page.kind = w.stack.map Page.kind) (hfounds : xs.map Page.found = w.stack.map Page.found)
    (hlen : qs.length ≤ if ofSignIn (.inr i) then 1 else 0) (htag : ∀ q ∈ qs, Tagged (.inl q)) :
    Calm ({ w with stack := xs }.issue qs) := by
  have hcalm : Calm { w with stack := xs } := by
    refine ⟨?_, h.one, fun hb => h.inside (hkinds ▸ hb), ?_, h.tagged⟩
    · rw [hkinds]
      exact h.shape
    · rw [hfounds]
      exact h.found
  by_cases hi : ofSignIn (.inr i) = true
  · obtain ⟨hzero, hbehind⟩ := hroom hi
    rw [if_pos hi] at hlen
    refine hcalm.issue htag ?_ fun hb => absurd (hkinds ▸ hb) hbehind
    rw [hzero, Nat.zero_add]
    exact Nat.le_trans List.countP_le_length (by rwa [List.length_map])
  · rw [if_neg hi] at hlen
    obtain rfl := List.length_eq_zero_iff.mp (Nat.le_zero.mp hlen)
    exact hcalm.issue_aside (List.forall_mem_nil _)

theorem tagged_overhears (i : Intent) (xs : List Page) : ∀ q ∈ xs.flatMap fun x => (overhear i x).2, Tagged (.inl q) := by
  intro q hq
  obtain ⟨x, -, hq⟩ := List.mem_flatMap.mp hq
  exact (heard_asks (heard_overhear i x)).2.2.2.1 q hq

theorem kinds_overhears (i : Intent) (xs : List Page) :
    (xs.map fun x => (overhear i x).1).map Page.kind = xs.map Page.kind := by
  rw [List.map_map]
  exact List.map_congr_left fun x _ => (heard_asks (heard_overhear i x)).1

theorem founds_overhears (i : Intent) (xs : List Page) :
    (xs.map fun x => (overhear i x).1).map Page.found = xs.map Page.found := by
  rw [List.map_map]
  exact List.map_congr_left fun x _ => (heard_asks (heard_overhear i x)).2.1

theorem calm_received (h : Calm w)
    (hroom : ofSignIn (.inr i) = true → live w.net = 0 ∧ .behind ∉ w.stack.map Page.kind) (hr : Received i w w') :
    Calm w' := by
  -- below the page that goes on with the sign-in nobody else does
  have hrest : ∀ {x rest}, w.stack = x :: rest → ofSignIn (.inr i) = true →
      (rest.flatMap fun x => (overhear i x).2) = [] := by
    intro x rest hs hi
    have hover := length_overhears i rest
    have hshape := h.shape
    obtain ⟨-, hbehind⟩ := hroom hi
    rw [hs, List.map_cons] at hshape hbehind
    have hbase := hshape.base_of_ne fun hx => hbehind (hx ▸ List.mem_cons_self)
    rw [if_pos hi, hbase.count_signUp] at hover
    exact List.length_eq_zero_iff.mp (Nat.le_zero.mp hover)
  have hheard : ∀ {x x' rest qs starts}, w.stack = x :: rest → Heard i x x' qs starts →
      Calm ((w.overhears i [x'] rest).issue qs) := by
    intro x x' rest qs starts hs hh
    obtain ⟨hkind, hfound, hlen, htag, -⟩ := heard_asks hh
    rw [Device.overhears, issue_issue]
    refine h.hears hroom ?_ ?_ ?_ fun q hq => (List.mem_append.mp hq).elim (tagged_overhears i rest q) (htag q)
    · rw [List.map_append, kinds_overhears, hs, List.map_singleton, hkind]
      rfl
    · rw [List.map_append, founds_overhears, hs, List.map_singleton, hfound]
      rfl
    · by_cases hi : ofSignIn (.inr i) = true
      · rw [hrest hs hi]
        exact hlen
      · have hover := length_overhears i rest
        rw [if_neg hi] at hover hlen ⊢
        rw [List.length_append]
        omega
  cases hr with
  | overheard hl =>
    refine h.hears hroom ?_ ?_ ?_ (tagged_overhears i w.stack)
    · rw [List.nil_append, kinds_overhears]
    · rw [List.nil_append, founds_overhears]
    · have hover := length_overhears i w.stack
      have hcount := h.shape.count_signUp
      by_cases hi : ofSignIn (.inr i) = true
      · rw [if_pos hi] at hover ⊢
        omega
      · rw [if_neg hi] at hover ⊢
        exact hover
  | empty => exact h
  | heard hs hh => exact hheard hs hh
  | @started x x' rest qs me hs hh hu =>
    have hcalm := hheard hs hh
    obtain ⟨-, -, -, -, hstarts⟩ := heard_asks hh
    obtain ⟨rfl, hi⟩ := hstarts rfl
    have hzero : live ((w.overhears i [x'] rest).issue []).net = 0 := by
      simp only [Device.overhears, Device.issue, hrest hs hi, List.map_nil, List.append_nil]
      exact (hroom hi).1
    refine (hcalm.push_behind hzero (List.cons_ne_nil _ _) rfl ?_).issue_aside ?_
    · rintro me' ⟨⟩
      exact hu
    · exact List.forall_mem_singleton.mpr (aside_getUser (by decide))

/-! ### Events -/

theorem calm_happened {e : Event} (h : Calm w) (hwaits : waits w e) (hs : Happened emailAddress w e w') : Calm w' := by
  have herased : ∀ {n m}, w.net[n]? = some m → live (w.net.eraseIdx n) ≤ live w.net := by
    intro n m hn
    have := live_eraseIdx hn
    omega
  cases hs with
  | nothing => exact h
  | acts _ ha => exact calm_acted h (live_eq_zero.mpr hwaits) ha
  | pauses | stops | comesBack => exact ⟨h.shape, h.one, h.inside, h.found, h.tagged⟩
  | launches _ ha =>
    have hzero := live_eq_zero.mpr hwaits
    exact calm_appeared (w := { w with stack := [.authHome AuthHome.onCreate] })
      ⟨.base (.inl rfl), h.one, fun _ => hzero, List.forall_mem_singleton.mpr (found_of_none (x := .authHome _) rfl),
        h.tagged⟩ hzero ha
  | resumes _ ha => exact calm_appeared h (live_eq_zero.mpr hwaits) ha
  | @execs n ok q db out hn he =>
    have hlive : live (w.net.eraseIdx n ++ out) ≤ live w.net := by
      have hout := live_exec he
      have hn' := live_eraseIdx hn
      rw [live_append]
      omega
    refine ⟨h.shape, Nat.le_trans hlive h.one, fun hb => Nat.le_zero.mp (h.inside hb ▸ hlive),
      fun f hf me hme => ?_, fun m hm => ?_⟩
    · cases hsigns : signs q with
      | false =>
        rw [signedIn_of_not_signs hsigns]
        exact h.found f hf me hme
      | true =>
        -- the call is of a sign-in, so nothing is open behind the login
        have hbehind : .behind ∉ w.stack.map Page.kind := fun hb => by
          have hq := live_eq_zero.mp (h.inside hb) _ (List.mem_of_getElem? hn)
          cases hq.symm.trans (h.tagged _ (List.mem_of_getElem? hn) q rfl hsigns)
        rw [not_behind_found hbehind f hf] at hme
        cases hme
    · rcases List.mem_append.mp hm with hm | hm
      · exact h.tagged m (List.mem_of_mem_eraseIdx hm)
      · exact tagged_exec he m hm
  | @delivers n i _ hn hr =>
    have hn' := live_eraseIdx hn
    have hone := h.one
    refine calm_received (w := { w with net := w.net.eraseIdx n }) ⟨h.shape, Nat.le_trans (herased hn) h.one,
      fun hb => Nat.le_zero.mp (h.inside hb ▸ herased hn), h.found, fun m hm => h.tagged m (List.mem_of_mem_eraseIdx hm)⟩
      (fun hi => ?_) hr
    rw [if_pos hi] at hn'
    refine ⟨show live (w.net.eraseIdx n) = 0 by omega, fun hb => ?_⟩
    have hzero := h.inside hb
    omega
  | elsewhere => exact ⟨h.shape, h.one, h.inside, h.found, h.tagged⟩

end Calm

/-- **Everybody has found the user who is signed in**, in every run in which the user does
nothing while a sign-in or a sign-up is under way; and then no sign-in is under way behind
the login. -/
theorem found_users (emailAddress : String → Bool) (db : Database) (user : Option String) (es : List Event) (w : Device)
    (hcalm : Along (next emailAddress) waits (launch db user) es) (h : run (next emailAddress) (launch db user) es = some w) :
    (∀ x ∈ w.stack, ∀ me ∈ x.found, w.currentUser = some me) ∧
      ((∃ x ∈ w.stack, x.behind = true) → ∀ m ∈ w.net, ofSignIn m = false) := by
  have hw : Calm w := hcalm.keeps (fun w e w' hw hwaits hs => calm_happened hw hwaits (happened_next hs))
    ⟨.nil, Nat.zero_le 1, fun _ => rfl, List.forall_mem_nil _, List.forall_mem_nil _⟩ h
  refine ⟨fun x hx => hw.found _ (List.mem_map_of_mem hx), fun ⟨x, hx, hbehind⟩ => live_eq_zero.mp (hw.inside ?_)⟩
  exact List.mem_map.mpr ⟨x, hx, kind_eq_behind.mpr hbehind⟩

/-! Ann logs in, waits for it, and opens her profile. -/

def patiently : List Event :=
  [.resume, .act (.authHome (.typeEmail "ann@mail.com")), .act (.authHome (.typePwd "password")),
    .act (.authHome .onLoginTap), .exec 0 true, .deliver 0, .exec 0 true, .deliver 0, .exec 0 true, .exec 0 true,
    .deliver 0, .act .openProfile]

theorem found_users_ann :
    ∃ w, run (next AuthHome.containsAt) (launch annDb none) patiently = some w ∧
      w.stack.map Page.found = [some "ann@mail.com", some "ann@mail.com", none] ∧
      (∀ x ∈ w.stack, ∀ me ∈ x.found, w.currentUser = some me) ∧
      ((∃ x ∈ w.stack, x.behind = true) → ∀ m ∈ w.net, ofSignIn m = false) :=
  ⟨_, rfl, rfl, found_users AuthHome.containsAt annDb none patiently _ (by decide) rfl⟩

/-! Bob logs in while Ann's login is under way. -/

def overlapping : List Event :=
  [.resume, .act (.authHome (.typeEmail "ann@mail.com")), .act (.authHome (.typePwd "password")),
    .act (.authHome .onLoginTap), .exec 0 true, .deliver 0, .act (.authHome (.typeEmail "bob@mail.com")),
    .act (.authHome .onLoginTap), .exec 0 true, .exec 0 true, .deliver 1, .deliver 0, .exec 0 true]

example : (run (next AuthHome.containsAt)
    (launch { annDb with accounts := annDb.accounts.set "bob@mail.com" "password" } none) overlapping).map
      (fun w => (w.stack.map Page.found, w.currentUser)) = some ([some "ann@mail.com", none], some "bob@mail.com") := by
  rfl

end Sessions
end FootballGallery
