/-
# What is verified and what is committed

The email page, the profile page and the edit of the profile each ask the
backend about a field and, on the answer, commit what the field says then.
Nothing keeps the user from editing it meanwhile, nor from editing the email
once it is verified: the next button stays as the answer has left it.

In the runs where fields are edited only while nothing is under way, and a
verified email no more, what is committed is what was verified: an answer finds
the fields as they were when the question was asked.

Key definitions: `audited`, `Granted`, `settled`, `Committed`.
Key theorems: `views_granted`, `committed_of_reach`.
-/
import FootballGallery.AccountPages
import FootballGallery.Forum

namespace FootballGallery
namespace Verified

open DBUtil DocStore Async Accounts

/-- The question `q`, if it has been answered positively. -/
def answeredYes (q : Request) (out : List (Request ⊕ Intent)) : Option Request :=
  match q with
  | .fetchSignIn .. | .queryUsername .. =>
    if out.any fun b => b.elim (fun _ => false) (·.result) then some q else none
  | _ => none

/-- The pages, with a journal of the questions answered positively. -/
def audited (emailAddress : String → Bool) : App (Database × List Request) Page Request Intent Action Label :=
  (accounts emailAddress).journaling answeredYes

abbrev AuditConf := Conf (Database × List Request) Page Request Intent Label

/-- `auth_verify_email` has answered positively for `email`. -/
def EmailVerified (log : List Request) (email : String) : Prop :=
  .fetchSignIn AuthSignUpEmail.verifyEmail email caseSignup ∈ log

/-- `user_verify_username` has answered positively for `uname`. -/
def NameVerified (log : List Request) (uname : String) : Prop := ∃ a, .queryUsername a uname ∈ log

/-- How a page is opened. -/
inductive Opening where
  | signUp
  | profileEdit (user : User)

def Opening.page : Opening → Page
  | .signUp => .email AuthSignUpEmail.onCreate
  | .profileEdit user => .profileEdit (ProfileEditActivity.onCreate user)

/-- The pages `opened` on the database `db`; nothing has been asked. -/
def openPages (db : Database) (opened : List Opening) : AuditConf :=
  ⟨(db, []), fun i => opened[i]?.map (·.page), []⟩

/-- A user edits a field, or leaves a page, only while nothing of the client is under
way, and does not edit an email once it is verified. -/
def settled (emailAddress : String → Bool) (s : AuditConf) : Ev Action → Bool
  | .act i a => steady (audited emailAddress) id s (.act i a) && (s.client i).all fun c =>
      match c, a with
      | .email p, .email (.typeEmail text) => !p.mBtn_next_clickable || text == p.mEt_email
      | _, _ => true
  | _ => true

/-- What is committed, or about to be, is what was verified. -/
structure Committed (s : AuditConf) : Prop where
  email : ∀ i below p, s.client i = some (.signUp below p) → EmailVerified s.store.2 p.mEmail
  newUser : ∀ m ∈ s.net, ∀ a id doc, m.body = .inl (.setUser a id doc) → NameVerified s.store.2 doc.username
  /-- the label has the name of the user that the page was opened with -/
  update : ∀ m ∈ s.net, ∀ a id doc, m.body = .inl (.updateUser a id doc) →
    (∃ uname, m.tag = .profileEdit id doc.username uname) ∨ NameVerified s.store.2 doc.username
  /-- the label has what the fields said -/
  password : ∀ m ∈ s.net, ∀ a email pwd, m.body = .inl (.createAccount a email pwd) →
    ∃ uname conf, m.tag = .signUp email uname pwd conf ∧ AuthSignUpProfile.Passes uname pwd conf

/-! ### What has been granted -/

/-- What a page with the label `l` asks about has been answered positively, or need not be asked. -/
def Granted (log : List Request) : Label → Prop
  | .email text => EmailVerified log text
  | .signUp _ uname _ _ => NameVerified log uname
  | .profileEdit _ oldName uname => uname = oldName ∨ NameVerified log uname

/-- A positive reply, or a write, comes after a grant. -/
def AfterGrant (log : List Request) (l : Label) : Request ⊕ Intent → Prop
  | .inl (.fetchSignIn ..) | .inl (.queryUsername ..) => True
  | .inl _ => Granted log l
  | .inr i => i.result = true → Granted log l

/-- The passwords of a sign-up have passed the checks. -/
def Checked : Label → Prop
  | .signUp _ uname pwd conf => AuthSignUpProfile.Passes uname pwd conf
  | _ => True

/-- What a message knows. -/
structure MsgKnows (log : List Request) (m : AccountMsg) : Prop where
  sent : Sent m.tag m.body
  granted : AfterGrant log m.tag m.body
  checked : Checked m.tag

/-- What a page knows. -/
def Knows (log : List Request) : Page → Prop
  | .email p => p.mBtn_next_clickable = true → EmailVerified log p.mEt_email
  | .signUp below p =>
      (below.mBtn_next_clickable = true → EmailVerified log below.mEt_email) ∧ EmailVerified log p.mEmail
  | .profileEdit _ => True

section Grants

variable {log log' : List Request} {l : Label}

theorem Granted.mono (h : Granted log l) (hsub : log ⊆ log') : Granted log' l := by
  cases l with
  | email text => exact hsub h
  | signUp email uname pwd conf =>
    obtain ⟨a, ha⟩ := h
    exact ⟨a, hsub ha⟩
  | profileEdit id oldName uname =>
    refine h.imp_right fun hname => ?_
    obtain ⟨a, ha⟩ := hname
    exact ⟨a, hsub ha⟩

theorem AfterGrant.mono {b : Request ⊕ Intent} (h : AfterGrant log l b) (hsub : log ⊆ log') :
    AfterGrant log' l b := by
  unfold AfterGrant at h ⊢
  split at h
  · trivial
  · trivial
  · exact h.mono hsub
  · exact fun hr => (h hr).mono hsub

theorem Knows.mono {c : Page} (h : Knows log c) (hsub : log ⊆ log') : Knows log' c := by
  cases c with
  | email p => exact fun hnext => hsub (h hnext)
  | signUp below p => exact ⟨fun hnext => hsub (h.1 hnext), hsub h.2⟩
  | profileEdit p => trivial

/-- A question answered positively is granted. -/
theorem afterGrant_exec {ok : Bool} {db db' : Database} {q : Request} {out : List (Request ⊕ Intent)}
    (hq : Asks l q) (hgrant : AfterGrant log l (.inl q)) (he : exec ok db q = some (db', out)) :
    ∀ b ∈ out, AfterGrant ((answeredYes q out).toList ++ log) l b := by
  intro b hb
  obtain ⟨r, rfl⟩ := replies_exec hq he b hb
  intro hr
  have hyes : (out.any fun b => b.elim (fun _ => false) (·.result)) = true :=
    List.any_eq_true.mpr ⟨_, hb, hr⟩
  rcases hq with hq | hq
  · cases hq with
    | verifyEmail =>
      rw [answeredYes, if_pos hyes]
      exact .head _
    | verifyUsername =>
      rw [answeredYes, if_pos hyes]
      exact ⟨_, .head _⟩
    | verifyNewName =>
      rw [answeredYes, if_pos hyes]
      exact .inr ⟨_, .head _⟩
    | saves => exact hgrant
  · cases hq <;> exact hgrant

theorem granted_starts {q : Request} (h : Starts l q) : AfterGrant log l (.inl q) ∧ Checked l := by
  cases h with
  | verifyEmail | verifyNewName => exact ⟨trivial, trivial⟩
  | verifyUsername hp => exact ⟨trivial, hp⟩
  | saves => exact ⟨.inl rfl, trivial⟩

theorem granted_continues {q : Request} (h : Continues l q) (hgrant : Granted log l) :
    AfterGrant log l (.inl q) := by
  cases h <;> exact hgrant

end Grants

/-! ### Pages -/

section Pages

variable {emailAddress : String → Bool} {log : List Request}

theorem knows_act {s : AuditConf} {i : ℕ} {c : Page} {a : Action} (ho : settled emailAddress s (.act i a) = true)
    (hc : s.client i = some c) (h : Knows log c) : Knows log (c.act emailAddress a).1 := by
  have hkept := (Bool.and_eq_true_iff.mp ho).2
  rw [hc, Option.all_some] at hkept
  cases c with
  | email p =>
    cases a with
    | email t =>
      have ht := AuthSignUpEmail.tapped_act emailAddress p t
      simp only [Page.act]
      generalize (AuthSignUpEmail.act emailAddress p t).1 = p' at ht
      generalize (AuthSignUpEmail.act emailAddress p t).2 = qs at ht
      cases ht with
      | types text =>
        intro hnext
        have hclick : p.mBtn_next_clickable = true := hnext
        simp only [hclick, Bool.not_true, Bool.false_or, beq_iff_eq] at hkept
        show EmailVerified log text
        rw [hkept]
        exact h hclick
      | quiet | verifies => exact h
    | onNextTap =>
      simp only [Page.act, AuthSignUpEmail.onNextTap]
      split
      · rename_i text htext
        split at htext
        · rename_i hclick
          obtain rfl := Option.some.inj htext
          exact ⟨h, h hclick⟩
        · cases htext
      · exact h
    | _ => exact h
  | signUp below p =>
    cases a with
    | signUp t =>
      have ht := AuthSignUpProfile.tapped_act p t
      simp only [Page.act]
      generalize (AuthSignUpProfile.act p t).1 = p' at ht
      generalize (AuthSignUpProfile.act p t).2 = qs at ht
      cases ht with
      | quiet he => exact ⟨h.1, by rw [he]; exact h.2⟩
      | verifies => exact h
    | back => exact h.1
    | _ => exact h
  | profileEdit p =>
    cases a <;> trivial

theorem knows_recv {c : Page} {i : Intent} (h : Knows log c)
    (hi : i.result = true → Granted log c.label) : Knows log (c.recv i).1 := by
  cases c with
  | email p =>
    have hr := (AuthSignUpEmail.replied_onReceive p i).1
    simp only [Page.recv]
    generalize (AuthSignUpEmail.onReceive p i).1 = p' at hr
    cases hr with
    | quiet => exact h
    | verified _ hres => exact fun _ => hi hres
  | signUp below p =>
    have hr := AuthSignUpProfile.replied_onReceive p i
    simp only [Page.recv]
    generalize (AuthSignUpProfile.onReceive p i).1 = p' at hr
    generalize (AuthSignUpProfile.onReceive p i).2 = qs at hr
    refine ⟨h.1, ?_⟩
    cases hr with
    | quiet hs | stores _ _ hs =>
      rw [hs.email]
      exact h.2
    | creates => exact h.2
  | profileEdit p => trivial

end Pages

/-! ### Runs -/

section Runs

variable {emailAddress : String → Bool} {s : AuditConf}

theorem label_recv (c : Page) (i : Intent) (c' : Page) (qs : List Request)
    (h : (audited emailAddress).recv c i = some (c', qs)) :
    id ((audited emailAddress).tag c') = id ((audited emailAddress).tag c) := by
  obtain rfl := (Prod.mk.inj (Option.some.inj h)).1
  exact (continues_recv c i).1

theorem steady_of_settled (s : AuditConf) (e : Ev Action) (h : settled emailAddress s e = true) :
    steady (audited emailAddress) id s e = true := by
  cases e with
  | act i a => exact (Bool.and_eq_true_iff.mp h).1
  | _ => rfl

theorem views_granted (emailAddress : String → Bool) :
    Views (audited emailAddress)
      (fun s e => settled emailAddress s e = true ∧ Fit (fun c m => id m.tag = id c.label) s.client s.net)
      (fun _ => True) (fun st c => Knows st.2 c) (fun st m => MsgKnows st.2 m) (fun _ _ => True) where
  act s i a c c' qs ho hc ha _ hk := by
    obtain ⟨rfl, rfl⟩ := Prod.mk.inj (Option.some.inj ha)
    refine ⟨knows_act ho.1 hc hk, fun q hq => ⟨?_, trivial⟩, fun _ _ _ _ => trivial⟩
    have hstarts : Starts (c.act emailAddress a).1.label q := starts_act c a q hq
    have hgranted : AfterGrant s.store.2 (c.act emailAddress a).1.label (.inl q) ∧ _ := granted_starts hstarts
    exact ⟨.inl hstarts, hgranted.1, hgranted.2⟩
  exec s n b i t q st out _ _ he _ hm := by
    obtain ⟨he, hlog⟩ := App.exec_journaling he
    have hsub : s.store.2 ⊆ st.2 := by
      rw [hlog]
      exact List.subset_append_right _ _
    refine ⟨trivial, fun _ hk => hk.mono hsub, fun m _ hk => ⟨hk.sent, hk.granted.mono hsub, hk.checked⟩,
      fun x hx => ⟨⟨?_, ?_, hm.checked⟩, fun _ _ => trivial⟩⟩
    · obtain ⟨r, rfl⟩ := replies_exec hm.sent he x hx
      exact ⟨q, hm.sent, rfl⟩
    · rw [hlog]
      exact afterGrant_exec hm.sent hm.granted he x hx
  recv s n i t r c c' qs ho hn hc hr _ hk hm _ := by
    obtain rfl : t = c.label := ho.2 _ (List.mem_of_getElem? hn) c hc
    obtain ⟨rfl, rfl⟩ := Prod.mk.inj (Option.some.inj hr)
    obtain ⟨hlabel, hqs⟩ := continues_recv c r
    refine ⟨knows_recv hk hm.granted, fun q hq => ⟨?_, trivial⟩, fun _ _ _ _ => trivial⟩
    obtain ⟨hcont, hres, -⟩ := hqs q hq
    show MsgKnows s.store.2 ⟨i, (c.recv r).1.label, .inl q⟩
    rw [hlabel]
    exact ⟨.inr hcont, granted_continues hcont (hm.granted hres), hm.checked⟩

/-- **What is committed is what was verified** on every page, as long as fields are
edited only while nothing is under way, and a verified email no more. -/
theorem committed_of_reach {db : Database} {opened : List Opening}
    (h : Reach (audited emailAddress) (fun s e => settled emailAddress s e = true) (openPages db opened) s) :
    Committed s := by
  have hnone : ∀ {P : AccountMsg → Prop}, ∀ m ∈ (openPages db opened).net, P m := fun m hm => by cases hm
  have hknown := h.knowing fun s hs => hs.labelled label_recv steady_of_settled hnone
  have hinit : ∀ i c, (openPages db opened).client i = some c → Knows (openPages db opened).store.2 c := by
    intro i c hc
    obtain ⟨o, -, rfl⟩ := Option.map_eq_some_iff.mp hc
    cases o with
    | signUp => exact fun hnext => by cases hnext
    | profileEdit user => trivial
  have hv := (views_granted emailAddress).reach ⟨trivial, hinit, hnone, hnone⟩ hknown
  refine ⟨fun i below p hc => (hv.client i _ hc).2, ?_, ?_, ?_⟩
  · rintro ⟨i, l, b⟩ hm a id doc rfl
    obtain ⟨hsent, hgrant, -⟩ := hv.msg _ hm
    rcases hsent with hq | hq
    · cases hq
    · cases hq with
      | stores hname =>
        rw [hname]
        exact hgrant
  · rintro ⟨i, l, b⟩ hm a id doc rfl
    obtain ⟨hsent, hgrant, -⟩ := hv.msg _ hm
    rcases hsent with hq | hq
    · cases hq with
      | saves hname => exact .inl ⟨_, by rw [hname]⟩
    · cases hq with
      | @saves _ old n _ hname =>
        rw [hname]
        refine Or.imp_left (fun hold => ?_) hgrant
        exact ⟨n, by rw [hold]⟩
  · rintro ⟨i, l, b⟩ hm a email pwd rfl
    obtain ⟨hsent, -, hchecked⟩ := hv.msg _ hm
    rcases hsent with hq | hq
    · cases hq
    · cases hq with
      | creates => exact ⟨_, _, rfl, hchecked⟩

end Runs

/-- A visitor signs up as "cat", and the account is about to be created. -/
theorem committed_of_reach_cat :
    ∃ s, Reach (audited hasAt) (fun s e => settled hasAt s e = true) (openPages Forum.derbyDb [.signUp]) s ∧
      s.net.map (·.body) = [.inl (.createAccount "AUTH_CREATE_ACCOUNT" "cat@mail.com" "password")] ∧
      Committed s := by
  obtain ⟨s, hreach, hs⟩ := @reach_of_test _ _ _ _ _ _ (audited hasAt) (settled hasAt)
    (openPages Forum.derbyDb [.signUp]) (fillsIn 0 0 "cat@mail.com" ++ [.exec 0 true, .deliver 0])
    (fun s => decide (s.net.map (·.body) =
      [.inl (.createAccount "AUTH_CREATE_ACCOUNT" "cat@mail.com" "password")])) (by decide)
  exact ⟨s, hreach, of_decide_eq_true hs, committed_of_reach hreach⟩

theorem not_passes_secret (uname conf : String) : ¬ AuthSignUpProfile.Passes uname "secret" conf := by
  intro hp
  have hpwds : (if "secret" = conf then if decide (StringUtil.utf16Length "secret" ≥ 8) &&
      decide (StringUtil.utf16Length conf ≥ 8) then StringUtil.msgPwdValid else StringUtil.msgPwdLength
      else StringUtil.msgPwdMatch) = StringUtil.msgPwdValid := hp.pwds
  by_cases hconf : "secret" = conf
  · subst hconf
    revert hpwds
    decide
  · rw [if_neg hconf] at hpwds
    revert hpwds
    decide

/-- The visitor edits the email after it is verified, the password while the name is
looked up, and the name while the account is created. -/
theorem edited_after_asking :
    (∃ s, Reach (audited hasAt) (fun _ _ => true) (openPages Forum.derbyDb [.signUp]) s ∧
      (∃ below p, s.client 0 = some (.signUp below p) ∧ ¬ EmailVerified s.store.2 p.mEmail) ∧
      ∃ m ∈ s.net, ∃ a email pwd, m.body = .inl (.createAccount a email pwd) ∧
        ¬ ∃ uname conf, AuthSignUpProfile.Passes uname pwd conf) ∧
    ∃ s, Reach (audited hasAt) (fun _ _ => true) (openPages Forum.derbyDb [.signUp]) s ∧
      ∃ m ∈ s.net, ∃ a id doc, m.body = .inl (.setUser a id doc) ∧ ¬ NameVerified s.store.2 doc.username := by
  constructor
  · obtain ⟨s, hreach, hs⟩ := @reach_of_test _ _ _ _ _ _ (audited hasAt) (fun _ _ => true)
      (openPages Forum.derbyDb [.signUp])
      ([.act 0 (.email (.typeEmail "cat@mail.com")), .act 0 (.email .onVerifyTap), .exec 0 true, .deliver 0,
        .act 0 (.email (.typeEmail "dog@mail.com")), .act 0 .onNextTap, .act 0 (.signUp (.typeUName "cat")),
        .act 0 (.signUp (.typePwd "password")), .act 0 (.signUp (.typePwdConf "password")),
        .act 0 (.signUp (.onActivityResult "content://photo")), .act 0 (.signUp .onDoneTap),
        .act 0 (.signUp (.typePwd "secret")), .exec 0 true, .deliver 0])
      (fun s => decide (s.net.map (·.body) = [.inl (.createAccount "AUTH_CREATE_ACCOUNT" "dog@mail.com" "secret")] ∧
        (s.client 0).map (·.label) = some (.signUp "dog@mail.com" "cat" "secret" "password") ∧
        .fetchSignIn AuthSignUpEmail.verifyEmail "dog@mail.com" caseSignup ∉ s.store.2)) (by decide)
    obtain ⟨hnet, hclient, hlog⟩ := of_decide_eq_true hs
    obtain ⟨c, hc, hlabel⟩ := Option.map_eq_some_iff.mp hclient
    obtain ⟨m, hm, hbody⟩ := List.mem_map.mp (hnet ▸ List.mem_singleton_self _)
    refine ⟨s, hreach, ?_, m, hm, _, _, _, hbody, fun ⟨uname, conf, hp⟩ => not_passes_secret uname conf hp⟩
    cases c with
    | signUp below p =>
      have hemail : p.mEmail = "dog@mail.com" := (Label.signUp.inj hlabel).1
      exact ⟨below, p, hc, by rw [EmailVerified, hemail]; exact hlog⟩
    | email p => cases hlabel
    | profileEdit p => cases hlabel
  · obtain ⟨s, hreach, hs⟩ := @reach_of_test _ _ _ _ _ _ (audited hasAt) (fun _ _ => true)
      (openPages Forum.derbyDb [.signUp])
      (fillsIn 0 0 "cat@mail.com" ++ [.exec 0 true, .deliver 0, .act 0 (.signUp (.typeUName "dog")), .exec 0 true,
        .deliver 0])
      (fun s => decide (s.net.map (·.body) = [.inl (.setUser "AUTH_CREATE_USER_IN_USERS" "cat@mail.com"
          ⟨"dog", "content://photo", 0, 12, [], [], [], [], []⟩)] ∧
        s.store.2 = [.queryUsername AuthSignUpProfile.userVerifyUsernameAction "cat",
          .fetchSignIn AuthSignUpEmail.verifyEmail "cat@mail.com" caseSignup])) (by decide)
    obtain ⟨hnet, hlog⟩ := of_decide_eq_true hs
    obtain ⟨m, hm, hbody⟩ := List.mem_map.mp (hnet ▸ List.mem_singleton_self _)
    refine ⟨s, hreach, m, hm, _, _, _, hbody, fun ⟨a, hname⟩ => ?_⟩
    rw [hlog] at hname
    simp at hname

end Verified
end FootballGallery
