/-
# Accounts without a user

The sign-up creates the account first and the user's document after it. When the
second write fails, the account is there and the user is not: the email counts as
taken, so its account is not created again, and the page writes the document only
after it has created the account. Nobody can complete such an account, and the main
activity, which reads the document of the user who is signed in, throws at it.

This holds as long as nobody leaves a sign-up while something of it is under way. The
answer that an account has been created would otherwise find the page of another
email and write the document of that one.

Key definitions: `emailOf`, `HalfMade`, `Completes`.
Key theorems: `views_halfMade`, `half_made_stays`.
-/
import FootballGallery.AccountPages
import FootballGallery.Forum

namespace FootballGallery
namespace Accounts

open DBUtil DocStore Async

/-- Whose sign-up a page is. -/
def emailOf : Label → Option String
  | .signUp email .. => some email
  | _ => none

/-- The account of `email` is there, and the user is not. -/
structure HalfMade (email : String) (db : Database) : Prop where
  account : (db.accounts.get email).isSome = true
  user : db.users.get email = none

/-- What is under way can end in a document of the user: it is the write of it, or the
answer that the account has been created. -/
def Completes (email : String) (m : AccountMsg) : Prop :=
  match m.body with
  | .inl (.setUser _ id _) => id = email
  | .inr i => i.action = AuthSignUpProfile.authCreateAccount ∧ i.result = true ∧ emailOf m.tag = some email
  | _ => False

section Writes

variable {email : String} {db db' : Database} {l : Label} {q : Request} {ok : Bool} {out : List (Request ⊕ Intent)}

/-- Only the write of the document makes the user. -/
theorem HalfMade.wrote (h : HalfMade email db) (hw : Wrote db q db') (hq : ∀ a doc, q ≠ .setUser a email doc) :
    HalfMade email db' := by
  have hupdated : ∀ {id us} {f : UserDoc → UserDoc}, db.users.update id f = some us → us.get email = none := by
    intro id us f hu
    obtain ⟨doc, hdoc, -⟩ := Collection.update_eq_some hu
    have hid : email ≠ id := by
      rintro rfl
      cases h.user.symm.trans hdoc
    rw [Collection.get_update_ne hu hid]
    exact h.user
  cases hw with
  | createAccount => exact ⟨Collection.isSome_get_set_of _ _ _ h.account, h.user⟩
  | @setUser a id doc =>
    refine ⟨h.account, ?_⟩
    have hid : email ≠ id := by
      rintro rfl
      exact hq a doc rfl
    exact (Collection.get_set_ne _ _ hid).trans h.user
  | updateUser hu | updateUserArray hu => exact ⟨h.account, hupdated hu⟩
  | setPost | updatePost | deletePost | setComment | updateComment | deleteComment => exact ⟨h.account, h.user⟩

theorem HalfMade.exec (h : HalfMade email db) {i : ℕ} (he : exec ok db q = some (db', out))
    (hq : ¬ Completes email ⟨i, l, .inl q⟩) : HalfMade email db' := by
  have hother : ∀ a doc, q ≠ .setUser a email doc := by
    rintro a doc rfl
    exact hq rfl
  cases executed_exec he with
  | wrote hw => exact h.wrote hw hother
  | _ => exact h

/-- The account is not created again, so no answer says that it has been. -/
theorem not_completes_exec (h : HalfMade email db) {i : ℕ} (hasks : Asks l q) (he : exec ok db q = some (db', out)) :
    ∀ x ∈ out, ¬ Completes email ⟨i, l, x⟩ := by
  intro x hx hc
  obtain ⟨r, rfl⟩ := replies_exec hasks he x hx
  obtain ⟨haction, hresult, hemail⟩ := hc
  obtain rfl : r = true := hresult
  rcases hasks with hq | hq
  · cases hq with
    | verifyEmail => exact absurd haction (show AuthSignUpEmail.verifyEmail ≠ _ by decide)
    | verifyUsername => exact absurd haction (show AuthSignUpProfile.userVerifyUsernameAction ≠ _ by decide)
    | verifyNewName => exact absurd haction (show ProfileEditActivity.verifyUsername ≠ _ by decide)
    | saves => cases hemail
  · cases hq with
    | @creates id _ pwd =>
      obtain rfl : id = email := Option.some.inj hemail
      have htaken : exec ok db (.createAccount AuthSignUpProfile.authCreateAccount id pwd) =
          some (db, sendBroadcast AuthSignUpProfile.authCreateAccount false none) := by
        simp only [DBUtil.exec, h.account, Bool.true_or, if_true, write]
      obtain ⟨-, rfl⟩ := Prod.mk.inj (Option.some.inj (he.symm.trans htaken))
      cases List.mem_singleton.mp hx
    | stores => exact absurd haction (show AuthSignUpProfile.authCreateUserInUsers ≠ _ by decide)
    | saves => cases hemail

/-- A tap does not write the document of the user. -/
theorem not_completes_starts {m : AccountMsg} (hm : m.body = .inl q) (hq : Starts l q) : ¬ Completes email m := by
  rw [Completes, hm]
  cases hq <;> exact not_false

/-- A page goes on to the document only from the answer that its account has been created. -/
theorem not_completes_recv {i : ℕ} {r : Intent} {c : Page} (hlabel : emailOf l = emailOf c.label)
    (hr : ¬ Completes email ⟨i, l, .inr r⟩) :
    ∀ q ∈ (c.recv r).2, ¬ Completes email ⟨i, (c.recv r).1.label, .inl q⟩ := by
  intro q hq hc
  cases c with
  | email p =>
    rw [Page.recv, (AuthSignUpEmail.replied_onReceive p r).2] at hq
    cases hq
  | signUp below p =>
    have hreplied := AuthSignUpProfile.replied_onReceive p r
    simp only [Page.recv] at hq
    generalize (AuthSignUpProfile.onReceive p r).1 = p' at hreplied
    generalize (AuthSignUpProfile.onReceive p r).2 = qs at hreplied hq
    cases hreplied with
    | quiet => cases hq
    | creates =>
      obtain rfl := List.mem_singleton.mp hq
      exact hc
    | stores haction hresult =>
      obtain rfl := List.mem_singleton.mp hq
      obtain rfl : p.mEmail = email := hc
      exact hr ⟨haction, hresult, hlabel⟩
  | profileEdit p =>
    obtain ⟨-, hqs⟩ := continues_recv (.profileEdit p) r
    obtain ⟨hcont, -, -⟩ := hqs q hq
    cases hcont
    exact hc

end Writes

/-! ### Runs -/

section Runs

variable {emailAddress : String → Bool} {email : String}

theorem emailOf_recv (c : Page) (r : Intent) (c' : Page) (qs : List Request)
    (h : (accounts emailAddress).recv c r = some (c', qs)) :
    emailOf ((accounts emailAddress).tag c') = emailOf ((accounts emailAddress).tag c) := by
  obtain rfl := (Prod.mk.inj (Option.some.inj h)).1
  exact congrArg emailOf (continues_recv c r).1

/-- Nobody leaves a sign-up while something of it is under way. -/
def stays (emailAddress : String → Bool) := steady (accounts emailAddress) emailOf

theorem views_halfMade :
    Views (accounts emailAddress) (fun s e => stays emailAddress s e = true) (HalfMade email) (fun _ _ => True)
      (fun _ m => Sent m.tag m.body ∧ ¬ Completes email m) (fun c m => emailOf m.tag = emailOf c.label) where
  act s i a c c' qs ho hc ha _ _ := by
    have hfit := ((views_labelled emailOf_recv).act s i a c c' qs ho hc ha trivial trivial).2.2
    obtain ⟨rfl, rfl⟩ := Prod.mk.inj (Option.some.inj ha)
    refine ⟨trivial, fun q hq => ⟨⟨.inl (starts_act c a q hq), ?_⟩, rfl⟩, hfit⟩
    exact not_completes_starts rfl (starts_act c a q hq)
  exec s n b i t q st out _ _ he hhalf hm := by
    obtain ⟨hasks, hq⟩ := hm
    refine ⟨hhalf.exec he hq, fun _ => id, fun _ _ => id, fun x hx => ⟨⟨?_, ?_⟩, fun _ => id⟩⟩
    · obtain ⟨r, rfl⟩ := replies_exec hasks he x hx
      exact ⟨q, hasks, rfl⟩
    · exact not_completes_exec hhalf hasks he x hx
  recv s n i t r c c' qs _ _ _ hr _ _ hm hlabel := by
    obtain ⟨rfl, rfl⟩ := Prod.mk.inj (Option.some.inj hr)
    obtain ⟨hsame, hqs⟩ := continues_recv c r
    have hkept : emailOf (c.recv r).1.label = emailOf c.label := congrArg emailOf hsame
    refine ⟨trivial, fun q hq => ⟨⟨.inr ?_, not_completes_recv hlabel hm.2 q hq⟩, rfl⟩,
      fun m _ _ hfit => hfit.trans hkept.symm⟩
    show Continues (c.recv r).1.label q
    rw [hsame]
    exact (hqs q hq).1

/-- **An account without a user stays without one**: once nothing under way can end in the
document, no run in which sign-ups are not left half-way writes it, and the main activity's
read of the user throws. -/
theorem half_made_stays (emailAddress : String → Bool) (email : String) (s₀ s s' : Conf Database Page Request Intent Label)
    (h0 : s₀.net = []) (h : Reach (accounts emailAddress) (fun s e => stays emailAddress s e = true) s₀ s)
    (hhalf : HalfMade email s.store) (hquiet : ∀ m ∈ s.net, ¬ Completes email m)
    (h' : Reach (accounts emailAddress) (fun s e => stays emailAddress s e = true) s s') :
    HalfMade email s'.store ∧ ∀ a silent, exec true s'.store (.getUser a email silent) = none := by
  have hnone : ∀ {P : AccountMsg → Prop}, ∀ m ∈ s₀.net, P m := fun m hm => by
    rw [h0] at hm
    cases hm
  have hfits := h.labelled emailOf_recv (fun _ _ => id) hnone
  have hviewed := views_halfMade.reach
    ⟨hhalf, fun _ _ _ => trivial, fun m hm => ⟨sent_of_reach h0 h m hm, hquiet m hm⟩, hfits⟩ h'
  refine ⟨hviewed.store, fun a silent => ?_⟩
  simp only [exec, hviewed.store.user, if_true]

end Runs

/-! The write of the document fails; then the visitor taps done again. -/

def visitor : Conf Database Page Request Intent Label :=
  ⟨Forum.derbyDb, fun i => [Page.email AuthSignUpEmail.onCreate][i]?, []⟩

/-- The answer that the account has not been created is under way. -/
def refused (s : Conf Database Page Request Intent Label) : Bool :=
  decide (s.net.map (·.body) = [.inr ⟨AuthSignUpProfile.authCreateAccount, false, none⟩])

theorem half_made_stays_cat :
    ∃ s s', Reach (accounts hasAt) (fun s e => stays hasAt s e = true) visitor s ∧
      Reach (accounts hasAt) (fun s e => stays hasAt s e = true) s s' ∧
      s'.net.map (·.body) = [.inr ⟨AuthSignUpProfile.authCreateAccount, false, none⟩] ∧
      HalfMade "cat@mail.com" s'.store ∧ ∀ a silent, exec true s'.store (.getUser a "cat@mail.com" silent) = none := by
  obtain ⟨s, hreach, hs⟩ := @reach_of_test _ _ _ _ _ _ (accounts hasAt) (stays hasAt) visitor
    (fillsIn 0 0 "cat@mail.com" ++ [.exec 0 true, .deliver 0, .exec 0 true, .deliver 0, .exec 0 false, .deliver 0])
    (fun s => decide ((s.store.accounts.get "cat@mail.com").isSome = true ∧
        s.store.users.get "cat@mail.com" = none ∧ s.net.length = 0) &&
      (run (accounts hasAt) (stays hasAt) s [.act 0 (.signUp .onDoneTap), .exec 0 true, .deliver 0, .exec 0 true]).any
        refused) (by decide)
  obtain ⟨hhalf, hagain⟩ := Bool.and_eq_true_iff.mp hs
  obtain ⟨haccount, huser, hnet⟩ := of_decide_eq_true hhalf
  obtain ⟨s', hreach', hs'⟩ := reach_of_test _ hagain
  refine ⟨s, s', hreach, hreach', of_decide_eq_true hs', ?_⟩
  refine half_made_stays hasAt "cat@mail.com" visitor s s' rfl hreach ⟨haccount, huser⟩ (fun m hm => ?_) hreach'
  rw [List.length_eq_zero_iff.mp hnet] at hm
  cases hm

end Accounts
end FootballGallery
