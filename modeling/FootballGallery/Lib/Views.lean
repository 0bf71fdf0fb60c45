/-
# What clients and messages know of the store

`Parts` is for facts that a client or a message has by itself. What a client
has read from the store stays true only as long as the store's writes keep it,
and a reply fits the client that has asked for it. `Views` is the invariant in
four parts: one of the store, one of each client and one of each message with
the store as it is, and one of each message with the client it comes from.
`Bonds` is the same with a last part that depends on the store as well.

`Named` is the runs whose events name things and name nothing twice. Each name
then belongs to what it was first used for, and a proof may take this as given
from the start of the run.

Key definitions: `Bonds`, `Views`, `Named`.
Key theorems: `Bonds.reach`, `Views.reach`, `Named.mono`, `Named.owned`.
-/
import FootballGallery.Lib.Async

namespace Async

variable {σ C Q R A τ : Type*} {app : App σ C Q R A τ}

/-- An invariant in four parts, the last one of each message with the client it comes
from and the store. A write keeps what is known, and a client that changes keeps
what its messages go by. -/
structure Bonds (app : App σ C Q R A τ) (ok : Conf σ C Q R τ → Ev A → Prop) (D : σ → Prop)
    (S : σ → C → Prop) (M : σ → Msg Q R τ → Prop) (L : σ → C → Msg Q R τ → Prop) : Prop where
  act : ∀ s i a c c' qs, ok s (.act i a) → s.client i = some c → app.act c a = some (c', qs) →
    D s.store → S s.store c →
    S s.store c' ∧ (∀ q ∈ qs, M s.store ⟨i, app.tag c', .inl q⟩ ∧ L s.store c' ⟨i, app.tag c', .inl q⟩) ∧
      ∀ m ∈ s.net, m.client = i → L s.store c m → L s.store c' m
  exec : ∀ s n b i t q st out, ok s (.exec n b) → s.net[n]? = some ⟨i, t, .inl q⟩ →
    app.exec b s.store q = some (st, out) → D s.store → M s.store ⟨i, t, .inl q⟩ →
    D st ∧ (∀ c, S s.store c → S st c) ∧ (∀ m ∈ s.net, M s.store m → M st m) ∧
      (∀ m ∈ s.net, ∀ c, L s.store c m → L st c m) ∧
      ∀ x ∈ out, M st ⟨i, t, x⟩ ∧ ∀ c, L s.store c ⟨i, t, .inl q⟩ → L st c ⟨i, t, x⟩
  recv : ∀ s n i t r c c' qs, ok s (.deliver n) → s.net[n]? = some ⟨i, t, .inr r⟩ →
    s.client i = some c → app.recv c r = some (c', qs) → D s.store → S s.store c →
    M s.store ⟨i, t, .inr r⟩ → L s.store c ⟨i, t, .inr r⟩ →
    S s.store c' ∧ (∀ q ∈ qs, M s.store ⟨i, app.tag c', .inl q⟩ ∧ L s.store c' ⟨i, app.tag c', .inl q⟩) ∧
      ∀ m ∈ s.net, m.client = i → L s.store c m → L s.store c' m

/-- An invariant in four parts. A write keeps what the clients and the other
messages know, and a client that changes keeps what its messages fit. -/
structure Views (app : App σ C Q R A τ) (ok : Conf σ C Q R τ → Ev A → Prop) (D : σ → Prop)
    (S : σ → C → Prop) (M : σ → Msg Q R τ → Prop) (L : C → Msg Q R τ → Prop) : Prop where
  act : ∀ s i a c c' qs, ok s (.act i a) → s.client i = some c → app.act c a = some (c', qs) →
    D s.store → S s.store c →
    S s.store c' ∧ (∀ q ∈ qs, M s.store ⟨i, app.tag c', .inl q⟩ ∧ L c' ⟨i, app.tag c', .inl q⟩) ∧
      ∀ m ∈ s.net, m.client = i → L c m → L c' m
  exec : ∀ s n b i t q st out, ok s (.exec n b) → s.net[n]? = some ⟨i, t, .inl q⟩ →
    app.exec b s.store q = some (st, out) → D s.store → M s.store ⟨i, t, .inl q⟩ →
    D st ∧ (∀ c, S s.store c → S st c) ∧ (∀ m ∈ s.net, M s.store m → M st m) ∧
      ∀ x ∈ out, M st ⟨i, t, x⟩ ∧ ∀ c, L c ⟨i, t, .inl q⟩ → L c ⟨i, t, x⟩
  recv : ∀ s n i t r c c' qs, ok s (.deliver n) → s.net[n]? = some ⟨i, t, .inr r⟩ →
    s.client i = some c → app.recv c r = some (c', qs) → D s.store → S s.store c →
    M s.store ⟨i, t, .inr r⟩ → L c ⟨i, t, .inr r⟩ →
    S s.store c' ∧ (∀ q ∈ qs, M s.store ⟨i, app.tag c', .inl q⟩ ∧ L c' ⟨i, app.tag c', .inl q⟩) ∧
      ∀ m ∈ s.net, m.client = i → L c m → L c' m

section Fit

variable {L : C → Msg Q R τ → Prop}

/-- The messages `net` fit the clients they come from. -/
def Fit (L : C → Msg Q R τ → Prop) (clients : ℕ → Option C) (net : List (Msg Q R τ)) : Prop :=
  ∀ m ∈ net, ∀ c, clients m.client = some c → L c m

theorem Fit.gone {clients : ℕ → Option C} {net : List (Msg Q R τ)} (h : Fit L clients net) (i : ℕ) :
    Fit L (Function.update clients i none) net := by
  intro m hm c hc
  by_cases hi : m.client = i
  · rw [hi, Function.update_self] at hc
    cases hc
  · rw [Function.update_of_ne hi] at hc
    exact h m hm c hc

/-- Client `i` changes, and the messages fit what it is now. -/
theorem Fit.update {clients : ℕ → Option C} {net : List (Msg Q R τ)} (h : Fit L clients net) {i : ℕ}
    {c c' : C} (hc : clients i = some c) (hkeep : ∀ m ∈ net, m.client = i → L c m → L c' m) :
    Fit L (Function.update clients i (some c')) net := by
  intro m hm c₁ hc₁
  by_cases hi : m.client = i
  · rw [hi, Function.update_self] at hc₁
    obtain rfl := Option.some.inj hc₁
    exact hkeep m hm hi (h m hm c (by rw [hi]; exact hc))
  · rw [Function.update_of_ne hi] at hc₁
    exact h m hm c₁ hc₁

/-- What client `i` issues fits it. -/
theorem Fit.issue (clients : ℕ → Option C) {i : ℕ} {c' : C} {qs : List Q}
    (h : ∀ q ∈ qs, L c' ⟨i, app.tag c', .inl q⟩) :
    Fit L (Function.update clients i (some c')) (Async.issue app i c' qs) := by
  intro m hm c₁ hc₁
  obtain ⟨q, hq, rfl⟩ := List.mem_map.mp hm
  have hself : Function.update clients i (some c') i = some c₁ := hc₁
  rw [Function.update_self] at hself
  obtain rfl := Option.some.inj hself
  exact h q hq

end Fit

section Bonds

variable {ok : Conf σ C Q R τ → Ev A → Prop} {D : σ → Prop} {S : σ → C → Prop}
  {M : σ → Msg Q R τ → Prop} {L : σ → C → Msg Q R τ → Prop}

/-- The four parts hold of a configuration. -/
structure Bonded (D : σ → Prop) (S : σ → C → Prop) (M : σ → Msg Q R τ → Prop)
    (L : σ → C → Msg Q R τ → Prop) (s : Conf σ C Q R τ) : Prop where
  store : D s.store
  client : ∀ i c, s.client i = some c → S s.store c
  msg : ∀ m ∈ s.net, M s.store m
  fits : Fit (L s.store) s.client s.net

theorem Bonds.step {s s' : Conf σ C Q R τ} {e : Ev A} (hp : Bonds app ok D S M L) (h : Bonded D S M L s)
    (ho : ok s e) (hs : Step app s e s') : Bonded D S M L s' := by
  cases hs with
  | @act i a c c' qs hc ha =>
    obtain ⟨hc', hqs, hkeep⟩ := hp.act _ _ _ _ _ _ ho hc ha h.store (h.client _ _ hc)
    have hfits := h.fits.update hc hkeep
    have hnew := Fit.issue s.client fun q hq => (hqs q hq).2
    refine ⟨h.store, clients_update h.client hc', fun m hm => ?_, fun m hm => ?_⟩
    · rcases List.mem_append.mp hm with hm | hm
      · exact h.msg m hm
      · obtain ⟨q, hq, rfl⟩ := List.mem_map.mp hm
        exact (hqs q hq).1
    · rcases List.mem_append.mp hm with hm | hm
      · exact hfits m hm
      · exact hnew m hm
  | actThrows hc => exact ⟨h.store, clients_gone h.client, h.msg, h.fits.gone _⟩
  | @exec n b i t q l₁ l₂ st out hn hl he =>
    have hmem := List.mem_of_getElem? hn
    obtain ⟨hD, hS, hM, hL, hout⟩ := hp.exec _ _ _ _ _ _ _ _ ho hn he h.store (h.msg _ hmem)
    refine ⟨hD, fun j c hc => hS c (h.client j c hc), ?_, ?_⟩
    · refine forall_splice (hl ▸ fun m hm => hM m hm (h.msg m hm)) fun m hm => ?_
      obtain ⟨x, hx, rfl⟩ := List.mem_map.mp hm
      exact (hout x hx).1
    · refine forall_splice (hl ▸ fun m hm c hc => hL m hm c (h.fits m hm c hc)) fun m hm => ?_
      obtain ⟨x, hx, rfl⟩ := List.mem_map.mp hm
      exact fun c hc => (hout x hx).2 c (h.fits _ hmem c hc)
  | execThrows _ hl =>
    have hdrop : Fit (L s.store) s.client _ := forall_drop (hl ▸ h.fits)
    exact ⟨h.store, clients_gone h.client, forall_drop (hl ▸ h.msg), hdrop.gone _⟩
  | @recv n i t r l₁ l₂ c c' qs hn hl hc hr =>
    have hmem := List.mem_of_getElem? hn
    obtain ⟨hc', hqs, hkeep⟩ := hp.recv _ _ _ _ _ _ _ _ ho hn hc hr h.store (h.client _ _ hc)
      (h.msg _ hmem) (h.fits _ hmem c hc)
    have hnew := Fit.issue s.client fun q hq => (hqs q hq).2
    refine ⟨h.store, clients_update h.client hc', ?_, ?_⟩
    · refine forall_splice (hl ▸ h.msg) fun m hm => ?_
      obtain ⟨q, hq, rfl⟩ := List.mem_map.mp hm
      exact (hqs q hq).1
    · exact forall_splice (hl ▸ h.fits.update hc hkeep) hnew
  | recvThrows _ hl _ =>
    have hdrop : Fit (L s.store) s.client _ := forall_drop (hl ▸ h.fits)
    exact ⟨h.store, clients_gone h.client, forall_drop (hl ▸ h.msg), hdrop.gone _⟩
  | drop _ hl => exact ⟨h.store, h.client, forall_drop (hl ▸ h.msg), forall_drop (hl ▸ h.fits)⟩

/-- The four parts hold wherever a run leads. -/
theorem Bonds.reach {s₀ s : Conf σ C Q R τ} (hp : Bonds app ok D S M L) (h0 : Bonded D S M L s₀)
    (h : Reach app ok s₀ s) : Bonded D S M L s :=
  Reach.inv h0 (fun _ _ _ hv ho hs => hp.step hv ho hs) h

end Bonds

section Views

variable {ok : Conf σ C Q R τ → Ev A → Prop} {D : σ → Prop} {S : σ → C → Prop}
  {M : σ → Msg Q R τ → Prop} {L : C → Msg Q R τ → Prop}

/-- The four parts hold of a configuration. -/
structure Viewed (D : σ → Prop) (S : σ → C → Prop) (M : σ → Msg Q R τ → Prop) (L : C → Msg Q R τ → Prop)
    (s : Conf σ C Q R τ) : Prop where
  store : D s.store
  client : ∀ i c, s.client i = some c → S s.store c
  msg : ∀ m ∈ s.net, M s.store m
  fits : Fit L s.client s.net

/-- Where the fit does not depend on the store, a write keeps it. -/
theorem Views.bonds (hp : Views app ok D S M L) : Bonds app ok D S M fun _ => L where
  act := hp.act
  exec s n b i t q st out ho hn he hD hm := by
    obtain ⟨hD', hS, hM, hout⟩ := hp.exec s n b i t q st out ho hn he hD hm
    exact ⟨hD', hS, hM, fun _ _ _ => id, hout⟩
  recv := hp.recv

/-- The four parts hold wherever a run leads. -/
theorem Views.reach {s₀ s : Conf σ C Q R τ} (hp : Views app ok D S M L) (h0 : Viewed D S M L s₀)
    (h : Reach app ok s₀ s) : Viewed D S M L s := by
  have hb := hp.bonds.reach ⟨h0.store, h0.client, h0.msg, h0.fits⟩ h
  exact ⟨hb.store, hb.client, hb.msg, hb.fits⟩

end Views

/-! ### Names -/

variable {ν β : Type*}

/-- Runs that name nothing twice; `used` has the names, the last one first. -/
inductive Named (app : App σ C Q R A τ) (ok : Conf σ C Q R τ → Ev A → Prop) (name : Ev A → Option ν)
    (s₀ : Conf σ C Q R τ) : List ν → Conf σ C Q R τ → Prop
  | init : Named app ok name s₀ [] s₀
  | step {used s s' e} (h : Named app ok name s₀ used s) (ho : ok s e) (hn : ∀ x ∈ name e, x ∉ used)
      (hs : next app s e = some s') : Named app ok name s₀ ((name e).toList ++ used) s'

section Named

variable {ok ok' : Conf σ C Q R τ → Ev A → Prop} {name : Ev A → Option ν} {s₀ s : Conf σ C Q R τ}
  {used : List ν}

/-- What holds of every event that such a run can go on with holds along the run. -/
theorem Named.mono (hle : ∀ used s e s', Named app ok name s₀ used s → ok s e → (∀ x ∈ name e, x ∉ used) →
    next app s e = some s' → ok' s e) (h : Named app ok name s₀ used s) :
    Named app ok' name s₀ used s := by
  induction h with
  | init => exact .init
  | step h ho hn hs ih => exact .step ih (hle _ _ _ _ h ho hn hs) hn hs

/-- Each name has one owner, whatever it is that an event that names something names it for. -/
theorem Named.owned [DecidableEq ν] [Inhabited β] (what : Conf σ C Q R τ → Ev A → β)
    (h : Named app ok name s₀ used s) :
    ∃ owner : ν → β, Reach app (fun s e => ok s e ∧ ∀ x ∈ name e, owner x = what s e) s₀ s := by
  have hused : ∃ owner : ν → β,
      Reach app (fun s e => (ok s e ∧ ∀ x ∈ name e, owner x = what s e) ∧ ∀ x ∈ name e, x ∈ used) s₀ s := by
    induction h with
    | init => exact ⟨fun _ => default, .init⟩
    | @step used s s' e h ho hn hs ih =>
      obtain ⟨owner, hr⟩ := ih
      cases hname : name e with
      | none =>
        refine ⟨owner, .step (Reach.mono (fun s e ho => ⟨ho.1, fun x hx => ?_⟩) hr) ⟨⟨ho, ?_⟩, ?_⟩ hs⟩
        · exact List.mem_append_right _ (ho.2 x hx)
        · exact fun x hx => by rw [hname] at hx; cases hx
        · exact fun x hx => by rw [hname] at hx; cases hx
      | some y =>
        -- the names before are others, and keep their owners
        have hy : y ∉ used := hn y hname
        refine ⟨Function.update owner y (what s e), .step (Reach.mono (fun s e ho => ?_) hr) ⟨⟨ho, ?_⟩, ?_⟩ hs⟩
        · refine ⟨⟨ho.1.1, fun x hx => ?_⟩, fun x hx => List.mem_append_right _ (ho.2 x hx)⟩
          have hne : x ≠ y := fun heq => hy (heq ▸ ho.2 x hx)
          rw [Function.update_of_ne hne]
          exact ho.1.2 x hx
        · intro x hx
          obtain rfl := Option.some.inj (hname.symm.trans hx)
          exact Function.update_self ..
        · intro x hx
          obtain rfl := Option.some.inj (hname.symm.trans hx)
          exact List.mem_append_left _ (List.mem_singleton.mpr rfl)
  obtain ⟨owner, hr⟩ := hused
  exact ⟨owner, Reach.mono (fun _ _ ho => ho.1) hr⟩

/-- A run of a list of events that name nothing twice. -/
theorem Named.run {ok : Conf σ C Q R τ → Ev A → Bool} :
    ∀ (es : List (Ev A)) {used : List ν} {s s' : Conf σ C Q R τ},
      Named app (fun s e => ok s e = true) name s₀ used s → Async.run app ok s es = some s' →
      (es.filterMap name).Nodup → (∀ x ∈ es.filterMap name, x ∉ used) →
      ∃ used', Named app (fun s e => ok s e = true) name s₀ used' s'
  | [], used, s, s', h, hr, _, _ => by
    obtain rfl := Option.some.inj hr
    exact ⟨used, h⟩
  | e :: es, used, s, s', h, hr, hnd, hnew => by
    simp only [Async.run] at hr
    split at hr
    · rename_i ho
      obtain ⟨s1, h1, h2⟩ := Option.bind_eq_some_iff.mp hr
      have hcons : (e :: es).filterMap name = (name e).toList ++ es.filterMap name := by
        rw [List.filterMap_cons]
        cases name e <;> rfl
      rw [hcons] at hnd hnew
      obtain ⟨-, hnd', hdisj⟩ := List.nodup_append.mp hnd
      refine Named.run es (.step h ho (fun x hx => ?_) h1) h2 hnd' fun x hx hmem => ?_
      · exact hnew x (List.mem_append_left _ (Option.mem_toList.mpr hx))
      · rcases List.mem_append.mp hmem with hmem | hmem
        · exact hdisj x hmem x hx rfl
        · exact hnew x (List.mem_append_right _ hx) hmem
    · cases hr

/-- A run whose last state passes a test. -/
theorem Named.test {ok : Conf σ C Q R τ → Ev A → Bool} (es : List (Ev A)) {p : Conf σ C Q R τ → Bool}
    (hnd : (es.filterMap name).Nodup) (h : (Async.run app ok s₀ es).any p = true) :
    ∃ used s, Named app (fun s e => ok s e = true) name s₀ used s ∧ p s = true := by
  cases hs : Async.run app ok s₀ es with
  | none => simp [hs] at h
  | some s =>
    rw [hs] at h
    have h0 : Named app (fun s e => ok s e = true) name s₀ [] s₀ := .init
    obtain ⟨used, hn⟩ := h0.run es hs hnd fun x _ hx => by cases hx
    exact ⟨used, s, hn, h⟩

end Named
end Async
