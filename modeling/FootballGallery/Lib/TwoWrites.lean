/-
# Flows of two writes

A client that makes a change in two places starts the first write, starts the
second one when the first has succeeded, and nobody takes the first one back.
Whatever the order of the messages, such a flow leaves one of three stores: the
one it started from, the one after its first write alone, and the one after
both. Which one it is depends on the two calls only.

`TwoWrites` says what a client's handlers must do for that; what happens after
the flow, reads for example, is `Late` and leaves the store as it is.

Key definitions: `App.call`, `App.outcome`, `TwoWrites`, `Phase`.
Key theorems: `Phase.step`, `TwoWrites.outcome`.
-/
import FootballGallery.Lib.Async

namespace Async

variable {σ C Q R A τ : Type*} (app : App σ C Q R A τ) (good : R → Bool)

/-- The store after the call `q`, if the reply says that it succeeded. -/
def App.call (ok : Bool) (st : σ) (q : Q) : Option σ :=
  match app.exec ok st q with
  | some (st', [.inr r]) => if good r then some st' else none
  | _ => none

/-- The store after the calls `q₁` and, if it succeeds, `q₂`. -/
def App.outcome (q₁ q₂ : Q) (ok₁ ok₂ : Bool) (st : σ) : σ :=
  match app.call good ok₁ st q₁ with
  | none => st
  | some st₁ => (app.call good ok₂ st₁ q₂).getD st₁

/-- The user does nothing else, and the calls `q₁` and `q₂` go as `ok₁` and `ok₂` say. -/
def Flags (q₁ q₂ : Q) (ok₁ ok₂ : Bool) (s : Conf σ C Q R τ) : Ev A → Prop
  | .act _ _ => False
  | .exec n ok => ∀ q ∈ requestAt s n, (q = q₁ → ok = ok₁) ∧ (q = q₂ → ok = ok₂)
  | .deliver _ => True

instance [DecidableEq Q] (q₁ q₂ : Q) (ok₁ ok₂ : Bool) (s : Conf σ C Q R τ) :
    ∀ e : Ev A, Decidable (Flags q₁ q₂ ok₁ ok₂ s e)
  | .act _ _ => .isFalse id
  | .exec n ok =>
    inferInstanceAs (Decidable (∀ q ∈ requestAt s n, (q = q₁ → ok = ok₁) ∧ (q = q₂ → ok = ok₂)))
  | .deliver _ => .isTrue trivial

/-- The client `c₁` waits for the write `q₁` and then starts the write `q₂` as `c₂`;
what follows is `Late`. -/
structure TwoWrites (c₁ : C) (q₁ : Q) (c₂ : C) (q₂ : Q) (Late : Q ⊕ R → Prop) (Idle : C → Prop) :
    Prop where
  fails : ∀ ok st, app.call good ok st q₁ = none → ∃ out, app.exec ok st q₁ = some (st, out) ∧
    ∀ b ∈ out, ∃ r, b = .inr r ∧ app.recv c₁ r = some (c₁, [])
  goesOn : ∀ ok st st', app.call good ok st q₁ = some st' →
    ∃ r, app.exec ok st q₁ = some (st', [.inr r]) ∧ app.recv c₁ r = some (c₂, [q₂])
  ends : ∀ ok st, ∃ out, app.exec ok st q₂ = some ((app.call good ok st q₂).getD st, out) ∧
    ∀ b ∈ out, Late b
  idle : Idle c₂
  late_exec : ∀ ok st q, Late (.inl q) → ∀ st' out, app.exec ok st q = some (st', out) →
    st' = st ∧ ∀ b ∈ out, Late b
  late_recv : ∀ c r, Idle c → Late (.inr r) → ∀ c' qs, app.recv c r = some (c', qs) →
    Idle c' ∧ ∀ q ∈ qs, Late (.inl q)

/-- Where the flow from the store `st₀` stands. -/
inductive Phase (c₁ : C) (q₁ : Q) (c₂ : C) (q₂ : Q) (Late : Q ⊕ R → Prop) (Idle : C → Prop)
    (ok₁ ok₂ : Bool) (st₀ : σ) (s : Conf σ C Q R τ) : Prop
  | first (hst : s.store = st₀) (hc : s.client 0 = some c₁) {t} (hnet : s.net = [⟨0, t, .inl q₁⟩])
  | failed (hcall : app.call good ok₁ st₀ q₁ = none) (hst : s.store = st₀) (hc : s.client 0 = some c₁)
      (hnet : ∀ m ∈ s.net, m.client = 0 ∧ ∃ r, m.body = .inr r ∧ app.recv c₁ r = some (c₁, []))
  | waiting (hcall : app.call good ok₁ st₀ q₁ = some s.store) (hc : s.client 0 = some c₁) {t r}
      (hnet : s.net = [⟨0, t, .inr r⟩]) (hr : app.recv c₁ r = some (c₂, [q₂]))
  | second (hcall : app.call good ok₁ st₀ q₁ = some s.store) (hc : s.client 0 = some c₂) {t}
      (hnet : s.net = [⟨0, t, .inl q₂⟩])
  | late (hst : s.store = app.outcome good q₁ q₂ ok₁ ok₂ st₀) (hc : ∀ c, s.client 0 = some c → Idle c)
      (hnet : ∀ m ∈ s.net, m.client = 0 ∧ Late m.body)

section Phase

variable {app good} {c₁ c₂ : C} {q₁ q₂ : Q} {Late : Q ⊕ R → Prop} {Idle : C → Prop}
  {ok₁ ok₂ : Bool} {st₀ : σ} {s s' : Conf σ C Q R τ} {e : Ev A}

theorem singleton_split {α : Type*} {x y : α} {l₁ l₂ : List α} (h : [x] = l₁ ++ y :: l₂) :
    l₁ = [] ∧ y = x ∧ l₂ = [] := by
  cases l₁ with
  | nil =>
    obtain ⟨rfl, rfl⟩ := List.cons.inj h
    exact ⟨rfl, rfl, rfl⟩
  | cons a l₁ => simp at h

theorem mem_of_split {α : Type*} {l l₁ l₂ : List α} {x : α} (h : l = l₁ ++ x :: l₂) : x ∈ l := by
  rw [h]
  exact List.mem_append_right _ (List.mem_cons_self ..)

/-- With one request under way the backend carries it out. -/
theorem step_request {t : τ} {q : Q} (hnet : s.net = [⟨0, t, .inl q⟩]) (ho : Flags q₁ q₂ ok₁ ok₂ s e)
    (hs : Step app s e s') :
    ∃ ok, ((q = q₁ → ok = ok₁) ∧ (q = q₂ → ok = ok₂)) ∧ (app.exec ok s.store q = none ∨
      ∃ st out, app.exec ok s.store q = some (st, out) ∧ s' = ⟨st, s.client, follow 0 t out⟩) := by
  cases hs with
  | act => exact ho.elim
  | actThrows => exact ho.elim
  | exec hn hl he =>
    obtain ⟨rfl, hm, rfl⟩ := singleton_split (hnet.symm.trans hl)
    cases hm
    exact ⟨_, ho _ (by simp [requestAt, hn]), .inr ⟨_, _, he, by simp⟩⟩
  | execThrows hn hl he =>
    obtain ⟨rfl, hm, rfl⟩ := singleton_split (hnet.symm.trans hl)
    cases hm
    exact ⟨_, ho _ (by simp [requestAt, hn]), .inl he⟩
  | recv _ hl => cases (singleton_split (hnet.symm.trans hl)).2.1
  | recvThrows _ hl => cases (singleton_split (hnet.symm.trans hl)).2.1
  | drop _ hl => cases (singleton_split (hnet.symm.trans hl)).2.1

/-- With one reply under way the client handles it. -/
theorem step_reply {t : τ} {r : R} {c c' : C} {qs : List Q} (hnet : s.net = [⟨0, t, .inr r⟩])
    (hc : s.client 0 = some c) (hr : app.recv c r = some (c', qs)) (ho : Flags q₁ q₂ ok₁ ok₂ s e)
    (hs : Step app s e s') :
    s' = ⟨s.store, Function.update s.client 0 (some c'), issue app 0 c' qs⟩ := by
  cases hs with
  | act => exact ho.elim
  | actThrows => exact ho.elim
  | exec _ hl => cases (singleton_split (hnet.symm.trans hl)).2.1
  | execThrows _ hl => cases (singleton_split (hnet.symm.trans hl)).2.1
  | recv _ hl hc' hr' =>
    obtain ⟨rfl, hm, rfl⟩ := singleton_split (hnet.symm.trans hl)
    cases hm
    obtain rfl := Option.some.inj (hc'.symm.trans hc)
    obtain ⟨rfl, rfl⟩ := Prod.mk.inj (Option.some.inj (hr'.symm.trans hr))
    simp
  | recvThrows _ hl hc' hr' =>
    obtain ⟨rfl, hm, rfl⟩ := singleton_split (hnet.symm.trans hl)
    cases hm
    obtain rfl := Option.some.inj (hc'.symm.trans hc)
    rw [hr] at hr'
    cases hr'
  | drop _ hl hc' =>
    obtain ⟨rfl, hm, rfl⟩ := singleton_split (hnet.symm.trans hl)
    cases hm
    rw [hc] at hc'
    cases hc'

/-- The replies to a failed first write change nothing. -/
theorem Phase.step_failed (hcall : app.call good ok₁ st₀ q₁ = none) (hst : s.store = st₀)
    (hc : s.client 0 = some c₁)
    (hnet : ∀ m ∈ s.net, m.client = 0 ∧ ∃ r, m.body = .inr r ∧ app.recv c₁ r = some (c₁, []))
    (ho : Flags q₁ q₂ ok₁ ok₂ s e) (hs : Step app s e s') :
    Phase app good c₁ q₁ c₂ q₂ Late Idle ok₁ ok₂ st₀ s' := by
  cases hs with
  | act => exact ho.elim
  | actThrows => exact ho.elim
  | exec _ hl =>
    obtain ⟨-, r, hb, -⟩ := hnet _ (mem_of_split hl)
    cases hb
  | execThrows _ hl =>
    obtain ⟨-, r, hb, -⟩ := hnet _ (mem_of_split hl)
    cases hb
  | recv _ hl hc' hr =>
    obtain ⟨h0, r, hb, hr'⟩ := hnet _ (mem_of_split hl)
    obtain rfl : _ = 0 := h0
    obtain rfl := Sum.inr.inj hb
    obtain rfl := Option.some.inj (hc'.symm.trans hc)
    obtain ⟨rfl, rfl⟩ := Prod.mk.inj (Option.some.inj (hr.symm.trans hr'))
    refine .failed hcall hst (by simp) fun m hm => hnet m ?_
    rw [hl]
    simp only [issue, List.map_nil, List.append_nil, List.mem_append] at hm
    rcases hm with hm | hm <;> simp [hm]
  | recvThrows _ hl hc' hr =>
    obtain ⟨h0, r, hb, hr'⟩ := hnet _ (mem_of_split hl)
    obtain rfl : _ = 0 := h0
    obtain rfl := Sum.inr.inj hb
    obtain rfl := Option.some.inj (hc'.symm.trans hc)
    rw [hr'] at hr
    cases hr
  | drop _ hl hc' =>
    obtain ⟨h0, -⟩ := hnet _ (mem_of_split hl)
    obtain rfl : _ = 0 := h0
    rw [hc] at hc'
    cases hc'

/-- What follows the flow leaves the store as it is. -/
theorem Phase.step_late (h : TwoWrites app good c₁ q₁ c₂ q₂ Late Idle)
    (hst : s.store = app.outcome good q₁ q₂ ok₁ ok₂ st₀) (hc : ∀ c, s.client 0 = some c → Idle c)
    (hnet : ∀ m ∈ s.net, m.client = 0 ∧ Late m.body)
    (ho : Flags q₁ q₂ ok₁ ok₂ s e) (hs : Step app s e s') :
    Phase app good c₁ q₁ c₂ q₂ Late Idle ok₁ ok₂ st₀ s' := by
  have hkeep : ∀ {l₁ l₂ : List (Msg Q R τ)} {m : Msg Q R τ}, s.net = l₁ ++ m :: l₂ →
      (m.client = 0 ∧ Late m.body) ∧ ∀ (new : List (Msg Q R τ)),
        (∀ x ∈ new, x.client = 0 ∧ Late x.body) → ∀ x ∈ l₁ ++ new ++ l₂, x.client = 0 ∧ Late x.body := by
    intro l₁ l₂ m hl
    refine ⟨hnet m (mem_of_split hl), fun new hnew x hx => ?_⟩
    simp only [List.mem_append] at hx
    rcases hx with (hx | hx) | hx
    · exact hnet x (by rw [hl]; simp [hx])
    · exact hnew x hx
    · exact hnet x (by rw [hl]; simp [hx])
  have hgone : ∀ i c, Function.update s.client i none 0 = some c → Idle c := by
    intro i c hi
    by_cases h0 : i = 0
    · simp [h0] at hi
    · rw [Function.update_of_ne (Ne.symm h0)] at hi
      exact hc c hi
  cases hs with
  | act => exact ho.elim
  | actThrows => exact ho.elim
  | exec _ hl he =>
    obtain ⟨⟨h0, hlate⟩, hnew⟩ := hkeep hl
    obtain ⟨rfl, hout⟩ := h.late_exec _ _ _ hlate _ _ he
    refine .late hst hc (hnew _ fun x hx => ?_)
    obtain ⟨b, hb, rfl⟩ := List.mem_map.mp hx
    exact ⟨h0, hout b hb⟩
  | execThrows _ hl =>
    have hnew := (hkeep hl).2 [] (by simp)
    rw [List.append_nil] at hnew
    exact .late hst (hgone _) hnew
  | recv _ hl hc' hr =>
    obtain ⟨⟨h0, hlate⟩, hnew⟩ := hkeep hl
    obtain rfl : _ = 0 := h0
    obtain ⟨hidle, hqs⟩ := h.late_recv _ _ (hc _ hc') hlate _ _ hr
    refine .late hst (fun c hcc => ?_) (hnew _ fun x hx => ?_)
    · simp only [Function.update_self] at hcc
      obtain rfl := Option.some.inj hcc
      exact hidle
    · obtain ⟨q, hq, rfl⟩ := List.mem_map.mp hx
      exact ⟨rfl, hqs q hq⟩
  | recvThrows _ hl =>
    have hnew := (hkeep hl).2 [] (by simp)
    rw [List.append_nil] at hnew
    exact .late hst (hgone _) hnew
  | drop _ hl =>
    have hnew := (hkeep hl).2 [] (by simp)
    rw [List.append_nil] at hnew
    exact .late hst hc hnew

theorem Phase.step (h : TwoWrites app good c₁ q₁ c₂ q₂ Late Idle)
    (hp : Phase app good c₁ q₁ c₂ q₂ Late Idle ok₁ ok₂ st₀ s)
    (ho : Flags q₁ q₂ ok₁ ok₂ s e) (hs : Step app s e s') :
    Phase app good c₁ q₁ c₂ q₂ Late Idle ok₁ ok₂ st₀ s' := by
  cases hp with
  | first hst hc hnet =>
    obtain ⟨ok, hok, hex⟩ := step_request hnet ho hs
    obtain rfl := hok.1 rfl
    rw [hst] at hex
    cases hcall : app.call good ok st₀ q₁ with
    | none =>
      obtain ⟨out, hfail, hout⟩ := h.fails _ _ hcall
      rw [hfail] at hex
      rcases hex with hex | ⟨st, out', hex, rfl⟩
      · cases hex
      · obtain ⟨rfl, rfl⟩ := Prod.mk.inj (Option.some.inj hex)
        refine .failed hcall rfl hc fun m hm => ?_
        obtain ⟨b, hb, rfl⟩ := List.mem_map.mp hm
        exact ⟨rfl, hout b hb⟩
    | some st₁ =>
      obtain ⟨r, hgo, hr⟩ := h.goesOn _ _ _ hcall
      rw [hgo] at hex
      rcases hex with hex | ⟨st, out', hex, rfl⟩
      · cases hex
      · obtain ⟨rfl, rfl⟩ := Prod.mk.inj (Option.some.inj hex)
        exact .waiting hcall hc rfl hr
  | failed hcall hst hc hnet => exact Phase.step_failed hcall hst hc hnet ho hs
  | waiting hcall hc hnet hr =>
    obtain rfl := step_reply hnet hc hr ho hs
    exact .second hcall (by simp) rfl
  | second hcall hc hnet =>
    obtain ⟨ok, hok, hex⟩ := step_request hnet ho hs
    obtain rfl := hok.2 rfl
    obtain ⟨out, hend, hlate⟩ := h.ends ok s.store
    rw [hend] at hex
    rcases hex with hex | ⟨st, out', hex, rfl⟩
    · cases hex
    · obtain ⟨rfl, rfl⟩ := Prod.mk.inj (Option.some.inj hex)
      refine .late (by rw [App.outcome, hcall]) (fun c hcc => ?_) fun m hm => ?_
      · obtain rfl := Option.some.inj (hc.symm.trans hcc)
        exact h.idle
      · obtain ⟨b, hb, rfl⟩ := List.mem_map.mp hm
        exact ⟨rfl, hlate b hb⟩
  | late hst hc hnet => exact Phase.step_late h hst hc hnet ho hs

/-- **A flow of two writes ends in the outcome of its two calls.** -/
theorem TwoWrites.outcome (h : TwoWrites app good c₁ q₁ c₂ q₂ Late Idle) {t : τ}
    {clients : ℕ → Option C} (h0 : clients 0 = some c₁)
    (hr : Reach app (Flags q₁ q₂ ok₁ ok₂) ⟨st₀, clients, [⟨0, t, .inl q₁⟩]⟩ s) (hend : s.net = []) :
    s.store = app.outcome good q₁ q₂ ok₁ ok₂ st₀ := by
  have hp : Phase app good c₁ q₁ c₂ q₂ Late Idle ok₁ ok₂ st₀ s :=
    Reach.inv (.first rfl h0 rfl) (fun _ _ _ hp ho hs => hp.step h ho hs) hr
  cases hp with
  | first _ _ hnet =>
    rw [hend] at hnet
    cases hnet
  | failed hcall hst =>
    rw [hst, App.outcome, hcall]
  | waiting _ _ hnet =>
    rw [hend] at hnet
    cases hnet
  | second _ _ hnet =>
    rw [hend] at hnet
    cases hnet
  | late hst => exact hst

end Phase
end Async
