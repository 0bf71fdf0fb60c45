/-
# Clients, a backend and the messages between them

An app whose clients never wait: a user action or a reply changes a client's
state and starts requests, the backend carries the requests out one at a time
in any order, each with success or failure, and a request's listener starts
further requests or sends the client a reply, which is handled whenever it
arrives. A handler that throws ends its client.

`next` is one event, computed; `Step` says what it can have done and is what
proofs take apart. `Reach` is the runs whose events all satisfy a condition,
and `Reach.inv` the induction on them. A property may need more than an app keeps:
a note beside each client's state, or labels that follow what one action starts.

A client that announces a change, waits for the reply and then publishes a
value computed from an earlier copy leaves a document wrong while it is under
way. `Exclusive` is the invariant that keeps such flows apart: every message
of a flow has the key of the document it works on, no key occurs twice, a
document without a flow is good, and a flow's message says how far it is.

Where one message is under way at a time, a run has no choice: `Leads` says where
it ends, and `Ends` that it ends well.

Key definitions: `App`, `Conf`, `next`, `Reach`, `Parts`, `App.noting`, `App.labelled`, `Leads`, `Ends`,
`Exclusive`.
Key theorems: `step_of_next`, `Reach.inv`, `Parts.reach`, `reach_of_run`, `next_labelled`, `Ends.reach`,
`Exclusive.quiet`, `Exclusive.start`, `Exclusive.advance`, `Exclusive.finish`.
-/
import Mathlib.Data.List.Nodup
import Mathlib.Logic.Function.Basic
import Mathlib.Tactic.Common

namespace Async

/-- The functions of an app: `σ` is the backend's store, `C` a client's state,
`Q` a request, `R` a reply, `A` a user action. No function reads the label
`τ` that `tag` puts on a client's requests. -/
structure App (σ C Q R A τ : Type*) where
  act : C → A → Option (C × List Q)
  exec : Bool → σ → Q → Option (σ × List (Q ⊕ R))
  recv : C → R → Option (C × List Q)
  tag : C → τ

/-- A request or a reply under way, for a client, with its label. -/
structure Msg (Q R τ : Type*) where
  client : ℕ
  tag : τ
  body : Q ⊕ R

/-- The store, the clients (`none`: not running) and the messages under way. -/
structure Conf (σ C Q R τ : Type*) where
  store : σ
  client : ℕ → Option C
  net : List (Msg Q R τ)

/-- A user acts, the backend carries out message `n`, or message `n` arrives. -/
inductive Ev (A : Type*) where
  | act (i : ℕ) (a : A)
  | exec (n : ℕ) (ok : Bool)
  | deliver (n : ℕ)

variable {σ C Q R A τ : Type*} (app : App σ C Q R A τ)

/-- The request at place `n` of the messages under way. -/
def requestAt (s : Conf σ C Q R τ) (n : ℕ) : Option Q := s.net[n]?.bind fun m => m.body.getLeft?

/-- The requests `qs` of client `i`, under way. -/
def issue (i : ℕ) (c : C) (qs : List Q) : List (Msg Q R τ) := qs.map fun q => ⟨i, app.tag c, .inl q⟩

/-- What a request's listener does, under way. -/
def follow (i : ℕ) (t : τ) (out : List (Q ⊕ R)) : List (Msg Q R τ) := out.map fun b => ⟨i, t, b⟩

/-- One event, if it can happen. -/
def next (s : Conf σ C Q R τ) : Ev A → Option (Conf σ C Q R τ)
  | .act i a =>
    match s.client i with
    | none => none
    | some c =>
      match app.act c a with
      | none => some { s with client := Function.update s.client i none }
      | some (c', qs) =>
        some { s with client := Function.update s.client i (some c'), net := s.net ++ issue app i c' qs }
  | .exec n ok =>
    match s.net[n]? with
    | some ⟨i, t, .inl q⟩ =>
      match app.exec ok s.store q with
      | none => some { s with client := Function.update s.client i none,
                              net := s.net.take n ++ s.net.drop (n + 1) }
      | some (st, out) =>
        some { s with store := st, net := s.net.take n ++ follow i t out ++ s.net.drop (n + 1) }
    | _ => none
  | .deliver n =>
    match s.net[n]? with
    | some ⟨i, _, .inr r⟩ =>
      match s.client i with
      | none => some { s with net := s.net.take n ++ s.net.drop (n + 1) }
      | some c =>
        match app.recv c r with
        | none => some { s with client := Function.update s.client i none,
                                net := s.net.take n ++ s.net.drop (n + 1) }
        | some (c', qs) =>
          some { s with client := Function.update s.client i (some c'),
                        net := s.net.take n ++ issue app i c' qs ++ s.net.drop (n + 1) }
    | _ => none

/-- What an event can have done. -/
inductive Step (s : Conf σ C Q R τ) : Ev A → Conf σ C Q R τ → Prop
  | act {i a c c' qs} (hc : s.client i = some c) (ha : app.act c a = some (c', qs)) :
      Step s (.act i a) ⟨s.store, Function.update s.client i (some c'), s.net ++ issue app i c' qs⟩
  | actThrows {i a c} (hc : s.client i = some c) (ha : app.act c a = none) :
      Step s (.act i a) ⟨s.store, Function.update s.client i none, s.net⟩
  | exec {n ok i t q l₁ l₂ st out} (hn : s.net[n]? = some ⟨i, t, .inl q⟩)
      (hl : s.net = l₁ ++ ⟨i, t, .inl q⟩ :: l₂) (he : app.exec ok s.store q = some (st, out)) :
      Step s (.exec n ok) ⟨st, s.client, l₁ ++ follow i t out ++ l₂⟩
  | execThrows {n ok i t q l₁ l₂} (hn : s.net[n]? = some ⟨i, t, .inl q⟩)
      (hl : s.net = l₁ ++ ⟨i, t, .inl q⟩ :: l₂) (he : app.exec ok s.store q = none) :
      Step s (.exec n ok) ⟨s.store, Function.update s.client i none, l₁ ++ l₂⟩
  | recv {n i t r l₁ l₂ c c' qs} (hn : s.net[n]? = some ⟨i, t, .inr r⟩)
      (hl : s.net = l₁ ++ ⟨i, t, .inr r⟩ :: l₂) (hc : s.client i = some c)
      (hr : app.recv c r = some (c', qs)) :
      Step s (.deliver n)
        ⟨s.store, Function.update s.client i (some c'), l₁ ++ issue app i c' qs ++ l₂⟩
  | recvThrows {n i t r l₁ l₂ c} (hn : s.net[n]? = some ⟨i, t, .inr r⟩)
      (hl : s.net = l₁ ++ ⟨i, t, .inr r⟩ :: l₂) (hc : s.client i = some c)
      (hr : app.recv c r = none) :
      Step s (.deliver n) ⟨s.store, Function.update s.client i none, l₁ ++ l₂⟩
  | drop {n i t r l₁ l₂} (hn : s.net[n]? = some ⟨i, t, .inr r⟩)
      (hl : s.net = l₁ ++ ⟨i, t, .inr r⟩ :: l₂) (hc : s.client i = none) :
      Step s (.deliver n) ⟨s.store, s.client, l₁ ++ l₂⟩

theorem net_split {α : Type*} {l : List α} {n : ℕ} {x : α} (h : l[n]? = some x) :
    l = l.take n ++ x :: l.drop (n + 1) := by
  obtain ⟨hn, hx⟩ := List.getElem?_eq_some_iff.mp h
  rw [← hx, ← List.drop_eq_getElem_cons hn, List.take_append_drop]

theorem step_of_next {s s' : Conf σ C Q R τ} {e : Ev A} (h : next app s e = some s') :
    Step app s e s' := by
  cases e with
  | act i a =>
    simp only [next] at h
    split at h
    · cases h
    · rename_i c hc
      split at h
      · rename_i ha
        obtain rfl := Option.some.inj h
        exact .actThrows hc ha
      · rename_i ha
        obtain rfl := Option.some.inj h
        exact .act hc ha
  | exec n ok =>
    simp only [next] at h
    split at h
    · rename_i hn
      split at h
      · rename_i he
        obtain rfl := Option.some.inj h
        exact .execThrows hn (net_split hn) he
      · rename_i he
        obtain rfl := Option.some.inj h
        exact .exec hn (net_split hn) he
    · cases h
  | deliver n =>
    simp only [next] at h
    split at h
    · rename_i hn
      split at h
      · rename_i hc
        obtain rfl := Option.some.inj h
        exact .drop hn (net_split hn) hc
      · rename_i hc
        split at h
        · rename_i hr
          obtain rfl := Option.some.inj h
          exact .recvThrows hn (net_split hn) hc hr
        · rename_i hr
          obtain rfl := Option.some.inj h
          exact .recv hn (net_split hn) hc hr
    · cases h

/-! ### Runs -/

/-- The configurations that runs from `s₀` reach whose events all satisfy `ok`. -/
inductive Reach (ok : Conf σ C Q R τ → Ev A → Prop) (s₀ : Conf σ C Q R τ) : Conf σ C Q R τ → Prop
  | init : Reach ok s₀ s₀
  | step {s s' e} (h : Reach ok s₀ s) (ho : ok s e) (hs : next app s e = some s') : Reach ok s₀ s'

variable {app}

theorem Reach.inv {ok : Conf σ C Q R τ → Ev A → Prop} {s₀ s : Conf σ C Q R τ}
    {P : Conf σ C Q R τ → Prop} (h0 : P s₀)
    (hstep : ∀ s e s', P s → ok s e → Step app s e s' → P s') (h : Reach app ok s₀ s) : P s := by
  induction h with
  | init => exact h0
  | step _ ho hs ih => exact hstep _ _ _ ih ho (step_of_next app hs)

theorem Reach.mono {ok ok' : Conf σ C Q R τ → Ev A → Prop} {s₀ s : Conf σ C Q R τ}
    (hle : ∀ s e, ok s e → ok' s e) (h : Reach app ok s₀ s) : Reach app ok' s₀ s := by
  induction h with
  | init => exact .init
  | step _ ho hs ih => exact .step ih (hle _ _ ho) hs

/-- An invariant in three parts: one of the store, one of each client, and one of
each message, which the next one inherits from what sent it. -/
structure Parts (app : App σ C Q R A τ) (ok : Conf σ C Q R τ → Ev A → Prop) (D : σ → Prop) (S : C → Prop)
    (M : Msg Q R τ → Prop) : Prop where
  act : ∀ s i a c c' qs, ok s (.act i a) → s.client i = some c → app.act c a = some (c', qs) → S c →
    S c' ∧ ∀ q ∈ qs, M ⟨i, app.tag c', .inl q⟩
  exec : ∀ s n b i t q st out, ok s (.exec n b) → s.net[n]? = some ⟨i, t, .inl q⟩ →
    app.exec b s.store q = some (st, out) → D s.store → M ⟨i, t, .inl q⟩ → D st ∧ ∀ x ∈ out, M ⟨i, t, x⟩
  recv : ∀ s n i t r c c' qs, ok s (.deliver n) → s.net[n]? = some ⟨i, t, .inr r⟩ →
    s.client i = some c → app.recv c r = some (c', qs) → S c → M ⟨i, t, .inr r⟩ →
    S c' ∧ ∀ q ∈ qs, M ⟨i, app.tag c', .inl q⟩

section Parts

theorem clients_update {P : ℕ → C → Prop} {clients : ℕ → Option C} {i : ℕ} {c' : C}
    (h : ∀ j c, clients j = some c → P j c) (hc' : P i c') :
    ∀ j c, Function.update clients i (some c') j = some c → P j c := by
  intro j c hj
  by_cases hji : j = i
  · rw [hji, Function.update_self] at hj
    rw [hji, ← Option.some.inj hj]
    exact hc'
  · rw [Function.update_of_ne hji] at hj
    exact h j c hj

theorem clients_gone {P : ℕ → C → Prop} {clients : ℕ → Option C} {i : ℕ}
    (h : ∀ j c, clients j = some c → P j c) :
    ∀ j c, Function.update clients i none j = some c → P j c := by
  intro j c hj
  by_cases hji : j = i
  · rw [hji, Function.update_self] at hj
    cases hj
  · rw [Function.update_of_ne hji] at hj
    exact h j c hj

theorem forall_splice {α : Type*} {P : α → Prop} {l₁ l₂ new : List α} {x : α}
    (h : ∀ y ∈ l₁ ++ x :: l₂, P y) (hnew : ∀ y ∈ new, P y) : ∀ y ∈ l₁ ++ new ++ l₂, P y := by
  intro y hy
  simp only [List.mem_append] at hy
  rcases hy with (hy | hy) | hy
  · exact h y (by simp [hy])
  · exact hnew y hy
  · exact h y (by simp [hy])

theorem mem_splice {α : Type*} {l₁ l₂ new : List α} {x y : α} (h : y ∈ l₁ ++ new ++ l₂) :
    y ∈ l₁ ++ x :: l₂ ∨ y ∈ new :=
  forall_splice (P := fun y => y ∈ l₁ ++ x :: l₂ ∨ y ∈ new) (fun _ => .inl) (fun _ => .inr) y h

theorem forall_drop {α : Type*} {P : α → Prop} {l₁ l₂ : List α} {x : α}
    (h : ∀ y ∈ l₁ ++ x :: l₂, P y) : ∀ y ∈ l₁ ++ l₂, P y := by
  have hnil := @forall_splice α P l₁ l₂ [] x h fun y hy => (List.not_mem_nil hy).elim
  rwa [List.append_nil] at hnil

variable {ok : Conf σ C Q R τ → Ev A → Prop} {D : σ → Prop} {S : C → Prop} {M : Msg Q R τ → Prop}

/-- The three parts hold wherever a run leads. -/
theorem Parts.reach {s₀ s : Conf σ C Q R τ} (hp : Parts app ok D S M)
    (h0 : D s₀.store ∧ (∀ i c, s₀.client i = some c → S c) ∧ ∀ m ∈ s₀.net, M m) (h : Reach app ok s₀ s) :
    D s.store ∧ (∀ i c, s.client i = some c → S c) ∧ ∀ m ∈ s.net, M m := by
  refine Reach.inv (P := fun s => D s.store ∧ (∀ i c, s.client i = some c → S c) ∧ ∀ m ∈ s.net, M m) h0
    (fun s e s' hs ho hstep => ?_) h
  obtain ⟨hD, hS, hM⟩ := hs
  cases hstep with
  | act hc ha =>
    obtain ⟨hc', hqs⟩ := hp.act _ _ _ _ _ _ ho hc ha (hS _ _ hc)
    refine ⟨hD, clients_update hS hc', fun m hm => ?_⟩
    rcases List.mem_append.mp hm with hm | hm
    · exact hM m hm
    · obtain ⟨q, hq, rfl⟩ := List.mem_map.mp hm
      exact hqs q hq
  | actThrows => exact ⟨hD, clients_gone hS, hM⟩
  | exec hn hl he =>
    obtain ⟨hD', hout⟩ := hp.exec _ _ _ _ _ _ _ _ ho hn he hD (hM _ (List.mem_of_getElem? hn))
    refine ⟨hD', hS, forall_splice (hl ▸ hM) fun m hm => ?_⟩
    obtain ⟨b, hb, rfl⟩ := List.mem_map.mp hm
    exact hout b hb
  | execThrows _ hl => exact ⟨hD, clients_gone hS, forall_drop (hl ▸ hM)⟩
  | recv hn hl hc hr =>
    obtain ⟨hc', hqs⟩ := hp.recv _ _ _ _ _ _ _ _ ho hn hc hr (hS _ _ hc) (hM _ (List.mem_of_getElem? hn))
    refine ⟨hD, clients_update hS hc', forall_splice (hl ▸ hM) fun m hm => ?_⟩
    obtain ⟨q, hq, rfl⟩ := List.mem_map.mp hm
    exact hqs q hq
  | recvThrows _ hl => exact ⟨hD, clients_gone hS, forall_drop (hl ▸ hM)⟩
  | drop _ hl => exact ⟨hD, hS, forall_drop (hl ▸ hM)⟩

end Parts

variable (app)

/-- Runs a list of events, as long as they happen and satisfy `ok`. -/
def run (ok : Conf σ C Q R τ → Ev A → Bool) : Conf σ C Q R τ → List (Ev A) → Option (Conf σ C Q R τ)
  | s, [] => some s
  | s, e :: es => if ok s e then (next app s e).bind fun s' => run ok s' es else none

variable {app}

theorem reach_of_run {ok : Conf σ C Q R τ → Ev A → Bool} {s₀ : Conf σ C Q R τ} :
    ∀ (es : List (Ev A)) {s s' : Conf σ C Q R τ}, Reach app (fun s e => ok s e = true) s₀ s →
      run app ok s es = some s' → Reach app (fun s e => ok s e = true) s₀ s'
  | [], s, s', h, hr => by
    obtain rfl := Option.some.inj hr
    exact h
  | e :: es, s, s', h, hr => by
    simp only [run] at hr
    split at hr
    · rename_i ho
      obtain ⟨s1, h1, h2⟩ := Option.bind_eq_some_iff.mp hr
      exact reach_of_run es (.step h ho h1) h2
    · cases hr

/-- A run whose last state passes a test. -/
theorem reach_of_test {ok : Conf σ C Q R τ → Ev A → Bool} {s₀ : Conf σ C Q R τ} (es : List (Ev A))
    {p : Conf σ C Q R τ → Bool} (h : (run app ok s₀ es).any p = true) :
    ∃ s, Reach app (fun s e => ok s e = true) s₀ s ∧ p s = true := by
  cases hs : run app ok s₀ es with
  | none => simp [hs] at h
  | some s =>
    rw [hs] at h
    exact ⟨s, reach_of_run es .init hs, h⟩

/-! ### Notes -/

/-- The app with a note beside each client's state, which its actions keep up and
no function reads. -/
def App.noting {γ : Type*} (app : App σ C Q R A τ) (note : C → A → γ → γ) : App σ (C × γ) Q R A τ where
  act c a := (app.act c.1 a).map fun r => ((r.1, note c.1 a c.2), r.2)
  exec := app.exec
  recv c r := (app.recv c.1 r).map fun x => ((x.1, c.2), x.2)
  tag c := app.tag c.1

section Notes

variable {γ : Type*} {note : C → A → γ → γ} {c c' : C × γ} {qs : List Q}

theorem App.act_noting {app : App σ C Q R A τ} {a : A} (h : (app.noting note).act c a = some (c', qs)) :
    app.act c.1 a = some (c'.1, qs) ∧ c'.2 = note c.1 a c.2 := by
  obtain ⟨x, hx, heq⟩ := Option.map_eq_some_iff.mp h
  obtain ⟨rfl, rfl⟩ := Prod.mk.inj heq
  exact ⟨hx, rfl⟩

theorem App.recv_noting {app : App σ C Q R A τ} {r : R} (h : (app.noting note).recv c r = some (c', qs)) :
    app.recv c.1 r = some (c'.1, qs) ∧ c'.2 = c.2 := by
  obtain ⟨x, hx, heq⟩ := Option.map_eq_some_iff.mp h
  obtain ⟨rfl, rfl⟩ := Prod.mk.inj heq
  exact ⟨hx, rfl⟩

end Notes

/-! ### Labels -/

/-- The app with a label on each request and reply that no function reads: `first` is
on what a client asks for when its user acts, `later` on what it asks for when a
reply with a label comes, and what a request leads to has the request's. -/
def App.labelled {L : Type*} (app : App σ C Q R A τ) (first : C → L) (later : C → L → Q → L) :
    App σ C (L × Q) (L × R) A τ where
  act c a := (app.act c a).map fun x => (x.1, x.2.map fun q => (first x.1, q))
  exec ok st q := (app.exec ok st q.2).map fun x => (x.1, x.2.map (Sum.map (q.1, ·) (q.1, ·)))
  recv c r := (app.recv c r.2).map fun x => (x.1, x.2.map fun q => (later x.1 r.1 q, q))
  tag := app.tag

section Labels

variable {L : Type*} {first : C → L} {later : C → L → Q → L}

/-- The message without its label. -/
def Msg.unlabelled (m : Msg (L × Q) (L × R) τ) : Msg Q R τ := ⟨m.client, m.tag, m.body.map Prod.snd Prod.snd⟩

/-- The configuration without its labels. -/
def Conf.unlabelled (s : Conf σ C (L × Q) (L × R) τ) : Conf σ C Q R τ :=
  ⟨s.store, s.client, s.net.map Msg.unlabelled⟩

variable (app first later)

theorem labelled_act (c : C) (a : A) : (app.labelled first later).act c a =
    (app.act c a).map fun x => (x.1, x.2.map fun q => (first x.1, q)) := rfl

theorem labelled_exec (ok : Bool) (st : σ) (q : L × Q) : (app.labelled first later).exec ok st q =
    (app.exec ok st q.2).map fun x => (x.1, x.2.map (Sum.map (q.1, ·) (q.1, ·))) := rfl

theorem labelled_recv (c : C) (r : L × R) : (app.labelled first later).recv c r =
    (app.recv c r.2).map fun x => (x.1, x.2.map fun q => (later x.1 r.1 q, q)) := rfl

theorem unlabelled_mk (st : σ) (cl : ℕ → Option C) (net : List (Msg (L × Q) (L × R) τ)) :
    (Conf.mk st cl net).unlabelled = ⟨st, cl, net.map Msg.unlabelled⟩ := rfl

theorem issue_unlabelled (i : ℕ) (c : C) (f : Q → L) (qs : List Q) :
    (issue (app.labelled first later) i c (qs.map fun q => (f q, q))).map Msg.unlabelled = issue app i c qs := by
  unfold issue
  rw [List.map_map, List.map_map]
  rfl

theorem follow_unlabelled (i : ℕ) (t : τ) (l : L) (out : List (Q ⊕ R)) :
    (follow i t (out.map (Sum.map (l, ·) (l, ·)))).map Msg.unlabelled = follow i t out := by
  unfold follow
  rw [List.map_map, List.map_map]
  refine List.map_congr_left fun b _ => ?_
  cases b with
  | inl q => rfl
  | inr r => rfl

/-- **An event does to the labelled app what it does to the app.** -/
theorem next_labelled (s : Conf σ C (L × Q) (L × R) τ) (e : Ev A) :
    (next (app.labelled first later) s e).map Conf.unlabelled = next app s.unlabelled e := by
  obtain ⟨st, cl, net⟩ := s
  rw [unlabelled_mk]
  cases e with
  | act i a =>
    simp only [next, labelled_act]
    cases cl i with
    | none => rfl
    | some c =>
      cases ha : app.act c a with
      | none => simp [ha, unlabelled_mk]
      | some x =>
        have hissue := issue_unlabelled app first later i x.1 (fun _ => first x.1) x.2
        simp [ha, unlabelled_mk, hissue]
  | exec n ok =>
    simp only [next, labelled_exec, List.getElem?_map]
    match net[n]? with
    | none => rfl
    | some ⟨i, t, .inr r⟩ => rfl
    | some ⟨i, t, .inl q⟩ =>
      simp only [Option.map_some, Msg.unlabelled, Sum.map_inl]
      cases app.exec ok st q.2 with
      | none => simp [unlabelled_mk]
      | some x => simp [unlabelled_mk, follow_unlabelled]
  | deliver n =>
    simp only [next, labelled_recv, List.getElem?_map]
    match net[n]? with
    | none => rfl
    | some ⟨i, t, .inl q⟩ => rfl
    | some ⟨i, t, .inr r⟩ =>
      simp only [Option.map_some, Msg.unlabelled, Sum.map_inr]
      cases cl i with
      | none => simp [unlabelled_mk]
      | some c =>
        cases hr : app.recv c r.2 with
        | none => simp [hr, unlabelled_mk]
        | some x => simp [hr, unlabelled_mk, issue_unlabelled]

variable {app first later}

/-- What comes out of a function that keeps the first component. -/
theorem of_map_snd {α β γ : Type*} {o : Option (α × β)} {g : α × β → γ} {a : α} {y : γ}
    (h : (o.map fun x => (x.1, g x)) = some (a, y)) : ∃ z, o = some (a, z) ∧ y = g (a, z) := by
  obtain ⟨x, hx, heq⟩ := Option.map_eq_some_iff.mp h
  obtain ⟨rfl, rfl⟩ := Prod.mk.inj heq
  exact ⟨x.2, hx, rfl⟩

theorem App.act_labelled {c c' : C} {a : A} {qs : List (L × Q)}
    (h : (app.labelled first later).act c a = some (c', qs)) :
    ∃ rs, app.act c a = some (c', rs) ∧ qs = rs.map fun q => (first c', q) := of_map_snd h

theorem App.exec_labelled {ok : Bool} {st st' : σ} {q : L × Q} {out : List ((L × Q) ⊕ (L × R))}
    (h : (app.labelled first later).exec ok st q = some (st', out)) :
    ∃ out', app.exec ok st q.2 = some (st', out') ∧ out = out'.map (Sum.map (q.1, ·) (q.1, ·)) := of_map_snd h

theorem App.recv_labelled {c c' : C} {r : L × R} {qs : List (L × Q)}
    (h : (app.labelled first later).recv c r = some (c', qs)) :
    ∃ rs, app.recv c r.2 = some (c', rs) ∧ qs = rs.map fun q => (later c' r.1 q, q) := of_map_snd h

/-- A run of the labelled app is one of the app. -/
theorem Reach.unlabelled {ok : Conf σ C (L × Q) (L × R) τ → Ev A → Prop}
    {ok' : Conf σ C Q R τ → Ev A → Prop} {s₀ s : Conf σ C (L × Q) (L × R) τ}
    (hok : ∀ s e, ok s e → ok' s.unlabelled e) (h : Reach (app.labelled first later) ok s₀ s) :
    Reach app ok' s₀.unlabelled s.unlabelled := by
  induction h with
  | init => exact .init
  | step _ ho hs ih =>
    refine .step ih (hok _ _ ho) ?_
    rw [← next_labelled app first later, hs]
    rfl

end Labels

/-! ### One message at a time -/

/-- What happens to a message that is alone, all being well. -/
def turn (m : Msg Q R τ) : Ev A := if m.body.isLeft then .exec 0 true else .deliver 0

/-- No user acts, and what is carried out succeeds. -/
def Undisturbed (_ : Conf σ C Q R τ) : Ev A → Prop
  | .act .. => False
  | .exec _ ok => ok = true
  | .deliver _ => True

/-- From `s` one message after the other has its turn, with no other beside it, until
none is under way in `f`. -/
inductive Leads (app : App σ C Q R A τ) (f : Conf σ C Q R τ) : Conf σ C Q R τ → Prop
  | done (hn : f.net = []) : Leads app f f
  | turn {s s' m} (hn : s.net = [m]) (hs : next app s (turn m) = some s') (h : Leads app f s') : Leads app f s

namespace Leads

variable {f s s' : Conf σ C Q R τ} {i : ℕ} {t : τ}

theorem quiet (h : Leads app f s) : f.net = [] := by
  induction h with
  | done hn => exact hn
  | turn _ _ _ ih => exact ih

/-- Nothing else can happen on the way. -/
theorem step {e : Ev A} (h : Leads app f s) (ho : Undisturbed s e) (hs : next app s e = some s') :
    Leads app f s' := by
  have hat : ∀ {n : ℕ} {m x : Msg Q R τ}, [m][n]? = some x → n = 0 ∧ m = x := by
    intro n m x hn
    cases n with
    | zero => exact ⟨rfl, Option.some.inj hn⟩
    | succ n => cases hn
  cases h with
  | done hn =>
    cases step_of_next app hs with
    | exec hn' | execThrows hn' | recv hn' | recvThrows hn' | drop hn' =>
      rw [hn] at hn'
      cases hn'
    | act | actThrows => exact ho.elim
  | @turn _ s₁ m hn hs₁ h₁ =>
    have he : e = Async.turn m := by
      cases e with
      | act => exact ho.elim
      | exec n ok =>
        obtain rfl : ok = true := ho
        cases step_of_next app hs with
        | exec hn' | execThrows hn' =>
          obtain ⟨rfl, rfl⟩ := hat (hn ▸ hn')
          rfl
      | deliver n =>
        cases step_of_next app hs with
        | recv hn' | recvThrows hn' | drop hn' =>
          obtain ⟨rfl, rfl⟩ := hat (hn ▸ hn')
          rfl
    rw [he, hs₁] at hs
    exact Option.some.inj hs ▸ h₁

/-- **Where one message after the other has its turn, every undisturbed run comes to
the same end.** -/
theorem reach {s₀ : Conf σ C Q R τ} (h : Leads app f s₀) (hr : Reach app Undisturbed s₀ s) : Leads app f s := by
  induction hr with
  | init => exact h
  | step _ ho hs ih => exact ih.step ho hs

end Leads

/-- From `s`, one message at a time, a configuration with `P` is reached and nothing is
under way any more. -/
def Ends (app : App σ C Q R A τ) (P : Conf σ C Q R τ → Prop) (s : Conf σ C Q R τ) : Prop :=
  ∃ f, Leads app f s ∧ P f

namespace Ends

variable {P : Conf σ C Q R τ → Prop} {s : Conf σ C Q R τ} {i : ℕ} {t : τ}

theorem done (hn : s.net = []) (h : P s) : Ends app P s := ⟨s, .done hn, h⟩

theorem exec {q : Q} {st : σ} {b : Q ⊕ R} (hn : s.net = [⟨i, t, .inl q⟩])
    (he : app.exec true s.store q = some (st, [b])) (h : Ends app P ⟨st, s.client, [⟨i, t, b⟩]⟩) :
    Ends app P s := by
  obtain ⟨f, hf, hP⟩ := h
  refine ⟨f, .turn hn ?_ hf, hP⟩
  simp only [turn, Sum.isLeft_inl, if_true, next, hn, List.getElem?_cons_zero, he]
  rfl

theorem recv {r : R} {c c' : C} {qs : List Q} (hn : s.net = [⟨i, t, .inr r⟩]) (hc : s.client i = some c)
    (hr : app.recv c r = some (c', qs))
    (h : Ends app P ⟨s.store, Function.update s.client i (some c'), issue app i c' qs⟩) : Ends app P s := by
  obtain ⟨f, hf, hP⟩ := h
  refine ⟨f, .turn hn ?_ hf, hP⟩
  simp only [turn, Sum.isLeft_inr, Bool.false_eq_true, if_false, next, hn, List.getElem?_cons_zero, hc, hr]
  simp

theorem reach {s₀ : Conf σ C Q R τ} (h : Ends app P s₀) (hr : Reach app Undisturbed s₀ s) : Ends app P s := by
  obtain ⟨f, hf, hP⟩ := h
  exact ⟨f, hf.reach hr, hP⟩

end Ends

/-! ### Flows that exclude each other -/

/-- At most one flow works on each key; a key without one is good; a flow's
message says where the flow stands. -/
structure Exclusive {μ κ : Type*} (key : μ → Option κ) (Good : κ → Prop) (Mid : μ → κ → Prop)
    (net : List μ) : Prop where
  nodup : (net.filterMap key).Nodup
  good : ∀ k, k ∉ net.filterMap key → Good k
  mid : ∀ m ∈ net, ∀ k, key m = some k → Mid m k

namespace Exclusive

variable {μ κ : Type*} {key : μ → Option κ} {Good Good' : κ → Prop} {Mid Mid' : μ → κ → Prop}
  {net l₁ l₂ new : List μ} {m x : μ} {k : κ}

theorem filterMap_none (h : ∀ x ∈ new, key x = none) : new.filterMap key = [] :=
  List.filterMap_eq_nil_iff.mpr h

/-- No other message has the key of a flow's message. -/
theorem other (h : Exclusive key Good Mid (l₁ ++ m :: l₂)) (hm : key m = some k) :
    k ∉ l₁.filterMap key ∧ k ∉ l₂.filterMap key := by
  have hn := h.nodup
  rw [List.filterMap_append, List.filterMap_cons_some hm, List.nodup_middle, List.nodup_cons] at hn
  simpa [not_or] using hn.1

/-- A message of no flow gives way to messages of no flow. -/
theorem quiet (h : Exclusive key Good Mid (l₁ ++ m :: l₂)) (hm : key m = none)
    (hnew : ∀ x ∈ new, key x = none) (hG : ∀ k, Good k → Good' k)
    (hM : ∀ x k, key x = some k → Mid x k → Mid' x k) : Exclusive key Good' Mid' (l₁ ++ new ++ l₂) := by
  have he : (l₁ ++ new ++ l₂).filterMap key = (l₁ ++ m :: l₂).filterMap key := by
    simp [List.filterMap_append, List.filterMap_cons_none hm, filterMap_none hnew]
  refine ⟨he ▸ h.nodup, fun k hk => hG k (h.good k (he ▸ hk)), fun y hy k hk => ?_⟩
  simp only [List.mem_append] at hy
  rcases hy with (hy | hy) | hy
  · exact hM y k hk (h.mid y (by simp [hy]) k hk)
  · rw [hnew y hy] at hk
    cases hk
  · exact hM y k hk (h.mid y (by simp [hy]) k hk)

/-- Messages of no flow join. -/
theorem join (h : Exclusive key Good Mid net) (hnew : ∀ x ∈ new, key x = none)
    (hG : ∀ k, Good k → Good' k) (hM : ∀ x ∈ net, ∀ k, key x = some k → Mid x k → Mid' x k) :
    Exclusive key Good' Mid' (net ++ new) := by
  have he : (net ++ new).filterMap key = net.filterMap key := by
    simp [List.filterMap_append, filterMap_none hnew]
  refine ⟨he ▸ h.nodup, fun k hk => hG k (h.good k (he ▸ hk)), fun y hy k hk => ?_⟩
  rcases List.mem_append.mp hy with hy | hy
  · exact hM y hy k hk (h.mid y hy k hk)
  · rw [hnew y hy] at hk
    cases hk

/-- A flow starts on a key that has none. -/
theorem start (h : Exclusive key Good Mid net) (hx : key x = some k) (hk : k ∉ net.filterMap key)
    (hGx : Good k → Mid' x k) (hG : ∀ k', k' ≠ k → Good k' → Good' k')
    (hM : ∀ y ∈ net, ∀ k', k' ≠ k → key y = some k' → Mid y k' → Mid' y k') :
    Exclusive key Good' Mid' (net ++ [x]) := by
  have he : (net ++ [x]).filterMap key = net.filterMap key ++ [k] := by
    simp [List.filterMap_append, hx]
  refine ⟨?_, fun k' hk' => ?_, fun y hy k' hk' => ?_⟩
  · rw [he]
    exact List.nodup_append.mpr ⟨h.nodup, List.nodup_singleton _, fun a ha b hb hab => by
      rw [List.mem_singleton.mp hb] at hab
      exact hk (hab ▸ ha)⟩
  · rw [he, List.mem_append, not_or, List.mem_singleton] at hk'
    exact hG k' hk'.2 (h.good k' hk'.1)
  · rcases List.mem_append.mp hy with hy | hy
    · have hne : k' ≠ k := by
        rintro rfl
        exact hk (List.mem_filterMap.mpr ⟨y, hy, hk'⟩)
      exact hM y hy k' hne hk' (h.mid y hy k' hk')
    · obtain rfl := List.mem_singleton.mp hy
      obtain rfl := Option.some.inj (hx.symm.trans hk')
      exact hGx (h.good k hk)

theorem mid_others (h : Exclusive key Good Mid (l₁ ++ m :: l₂)) (hm : key m = some k)
    (hM : ∀ y k', k' ≠ k → key y = some k' → Mid y k' → Mid' y k') {y : μ} {k' : κ}
    (hy : y ∈ l₁ ∨ y ∈ l₂) (hk' : key y = some k') : Mid' y k' := by
  obtain ⟨h1, h2⟩ := h.other hm
  refine hM y k' ?_ hk' (h.mid y (by rcases hy with hy | hy <;> simp [hy]) k' hk')
  rintro rfl
  rcases hy with hy | hy
  · exact h1 (List.mem_filterMap.mpr ⟨y, hy, hk'⟩)
  · exact h2 (List.mem_filterMap.mpr ⟨y, hy, hk'⟩)

/-- A flow goes on: its message gives way to its next one. -/
theorem advance (h : Exclusive key Good Mid (l₁ ++ m :: l₂)) (hm : key m = some k)
    (hx : key x = some k) (hMx : Mid m k → Mid' x k) (hG : ∀ k', k' ≠ k → Good k' → Good' k')
    (hM : ∀ y k', k' ≠ k → key y = some k' → Mid y k' → Mid' y k') :
    Exclusive key Good' Mid' (l₁ ++ [x] ++ l₂) := by
  have he : (l₁ ++ [x] ++ l₂).filterMap key = (l₁ ++ m :: l₂).filterMap key := by
    simp [List.filterMap_append, hx, hm]
  refine ⟨he ▸ h.nodup, fun k' hk' => ?_, fun y hy k' hk' => ?_⟩
  · rw [he] at hk'
    refine hG k' ?_ (h.good k' hk')
    rintro rfl
    exact hk' (List.mem_filterMap.mpr ⟨m, by simp, hm⟩)
  · simp only [List.mem_append, List.mem_singleton] at hy
    rcases hy with (hy | rfl) | hy
    · exact h.mid_others hm hM (.inl hy) hk'
    · obtain rfl := Option.some.inj (hx.symm.trans hk')
      exact hMx (h.mid m (by simp) k hm)
    · exact h.mid_others hm hM (.inr hy) hk'

/-- A flow ends: its message gives way to messages of no flow. -/
theorem finish (h : Exclusive key Good Mid (l₁ ++ m :: l₂)) (hm : key m = some k)
    (hnew : ∀ x ∈ new, key x = none) (hMx : Mid m k → Good' k)
    (hG : ∀ k', k' ≠ k → Good k' → Good' k')
    (hM : ∀ y k', k' ≠ k → key y = some k' → Mid y k' → Mid' y k') :
    Exclusive key Good' Mid' (l₁ ++ new ++ l₂) := by
  have he : (l₁ ++ new ++ l₂).filterMap key = l₁.filterMap key ++ l₂.filterMap key := by
    simp [List.filterMap_append, filterMap_none hnew]
  have hn := h.nodup
  rw [List.filterMap_append, List.filterMap_cons_some hm, List.nodup_middle, List.nodup_cons] at hn
  refine ⟨he ▸ hn.2, fun k' hk' => ?_, fun y hy k' hk' => ?_⟩
  · rw [he] at hk'
    by_cases hkk : k' = k
    · exact hkk ▸ hMx (h.mid m (by simp) k hm)
    · refine hG k' hkk (h.good k' fun hin => hk' ?_)
      rw [List.filterMap_append, List.filterMap_cons_some hm] at hin
      simp only [List.mem_append, List.mem_cons, hkk, false_or] at hin
      simpa using hin
  · simp only [List.mem_append] at hy
    rcases hy with (hy | hy) | hy
    · exact h.mid_others hm hM (.inl hy) hk'
    · rw [hnew y hy] at hk'
      cases hk'
    · exact h.mid_others hm hM (.inr hy) hk'

end Exclusive
end Async
