/-
# Clients that wait

A client that acts only when none of its messages is under way sees its own flows one
after the other, whatever the other clients do. An invariant can then be given for
each client by itself: of the store, the client and its own messages. `Locals` says
what it has to be proved of, which is the client's own steps and, of the others', what
their requests make of the store.

Key definitions: `own`, `waits`, `Locals`, `Local`.
Key theorems: `own_other`, `Locals.step`, `Locals.reach`.
-/
import FootballGallery.Lib.Async

namespace Async

variable {σ C Q R A τ : Type*} {app : App σ C Q R A τ}

/-- The messages of client `i`. -/
def own (i : ℕ) (net : List (Msg Q R τ)) : List (Q ⊕ R) := (net.filter (·.client == i)).map (·.body)

/-- A client acts only when none of its messages is under way. -/
def waits (s : Conf σ C Q R τ) : Ev A → Bool
  | .act i _ => (own i s.net).isEmpty
  | _ => true

section Own

variable {i j : ℕ} {t : τ} {b : Q ⊕ R} {l₁ l₂ new : List (Msg Q R τ)}

theorem own_append (i : ℕ) (l₁ l₂ : List (Msg Q R τ)) : own i (l₁ ++ l₂) = own i l₁ ++ own i l₂ := by
  rw [own, List.filter_append, List.map_append]
  rfl

theorem own_self (i : ℕ) (t : τ) (b : Q ⊕ R) (l₁ l₂ : List (Msg Q R τ)) :
    own i (l₁ ++ ⟨i, t, b⟩ :: l₂) = own i l₁ ++ b :: own i l₂ := by
  have hcons : own i (⟨i, t, b⟩ :: l₂) = b :: own i l₂ := by
    simp [own]
  rw [own_append, hcons]

theorem own_of_ne (hnew : ∀ m ∈ new, m.client ≠ i) : own i new = [] := by
  have hnone : new.filter (·.client == i) = [] := by
    rw [List.filter_eq_nil_iff]
    intro m hm
    rw [beq_iff_eq]
    exact hnew m hm
  rw [own, hnone]
  rfl

/-- What becomes of a message of client `i` is nothing to client `j`. -/
theorem own_other (hij : j ≠ i) (hnew : ∀ m ∈ new, m.client = i) :
    own j (l₁ ++ new ++ l₂) = own j (l₁ ++ ⟨i, t, b⟩ :: l₂) := by
  have hcons : own j ((⟨i, t, b⟩ : Msg Q R τ) :: l₂) = own j l₂ := by
    rw [own, List.filter_cons_of_neg (by simpa using Ne.symm hij)]
    rfl
  have hnone : own j new = [] := own_of_ne fun m hm heq => hij (heq.symm.trans (hnew m hm))
  rw [own_append, own_append, own_append, hcons, hnone, List.append_nil]

theorem own_issue (i : ℕ) (c : C) (qs : List Q) : own i (issue app i c qs) = qs.map .inl := by
  have hall : (issue app i c qs).filter (·.client == i) = issue app i c qs := by
    rw [List.filter_eq_self]
    intro m hm
    obtain ⟨q, -, rfl⟩ := List.mem_map.mp hm
    exact beq_self_eq_true i
  rw [own, hall, issue, List.map_map]
  rfl

theorem own_follow (i : ℕ) (t : τ) (out : List (Q ⊕ R)) : own i (follow i t out) = out := by
  have hall : (follow i t out).filter (·.client == i) = follow i t out := by
    rw [List.filter_eq_self]
    intro m hm
    obtain ⟨b, -, rfl⟩ := List.mem_map.mp hm
    exact beq_self_eq_true i
  rw [own, hall, follow, List.map_map]
  exact List.map_id out

theorem client_issue (i : ℕ) (c : C) (qs : List Q) : ∀ m ∈ issue app i c qs, m.client = i := by
  intro m hm
  obtain ⟨q, -, rfl⟩ := List.mem_map.mp hm
  rfl

theorem client_follow (i : ℕ) (t : τ) (out : List (Q ⊕ R)) : ∀ m ∈ follow i t out, m.client = i := by
  intro m hm
  obtain ⟨b, -, rfl⟩ := List.mem_map.mp hm
  rfl

variable (app) in
/-- Each of the first `n` clients issues requests. -/
theorem own_starts (i n : ℕ) (c : ℕ → C) (qs : ℕ → List Q) :
    own i ((List.range n).flatMap fun j => issue app j (c j) (qs j)) = if i < n then (qs i).map .inl else [] := by
  induction n with
  | zero => rfl
  | succ n ih =>
    rw [List.range_succ, List.flatMap_append, own_append, ih, List.flatMap_singleton]
    by_cases hi : i = n
    · subst hi
      rw [if_neg (Nat.lt_irrefl i), if_pos (Nat.lt_succ_self i), own_issue, List.nil_append]
    · have hnil : own i (issue app n (c n) (qs n)) = [] := own_of_ne fun m hm heq =>
        hi (heq.symm.trans (client_issue n (c n) (qs n) m hm))
      rw [hnil, List.append_nil]
      refine if_congr ?_ rfl rfl
      omega

end Own

/-! ### Invariants of each client -/

/-- `D` is an invariant of the store and `I i` one of client `i` with its own messages,
when clients wait. -/
structure Locals (app : App σ C Q R A τ) (ok : Conf σ C Q R τ → Ev A → Prop) (D : σ → Prop)
    (I : ℕ → σ → Option C → List (Q ⊕ R) → Prop) : Prop where
  act : ∀ s i a c c' qs, ok s (.act i a) → s.client i = some c → app.act c a = some (c', qs) → D s.store →
    I i s.store (some c) [] → I i s.store (some c') (qs.map .inl)
  actThrows : ∀ i st c, I i st (some c) [] → I i st none []
  exec : ∀ s n b i t q st l₁ l₂ out, ok s (.exec n b) → s.net[n]? = some ⟨i, t, .inl q⟩ →
    app.exec b s.store q = some (st, out) → D s.store → I i s.store (s.client i) (l₁ ++ .inl q :: l₂) →
    D st ∧ I i st (s.client i) (l₁ ++ out ++ l₂) ∧
      ∀ j, j ≠ i → ∀ c bs, I j s.store c bs → I j st c bs
  execThrows : ∀ i b q st c l₁ l₂, app.exec b st q = none → I i st c (l₁ ++ .inl q :: l₂) → I i st none (l₁ ++ l₂)
  recv : ∀ i r st c c' qs l₁ l₂, app.recv c r = some (c', qs) → D st → I i st (some c) (l₁ ++ .inr r :: l₂) →
    I i st (some c') (l₁ ++ qs.map .inl ++ l₂)
  recvThrows : ∀ i r st c l₁ l₂, app.recv c r = none → I i st (some c) (l₁ ++ .inr r :: l₂) →
    I i st none (l₁ ++ l₂)
  drop : ∀ i r st l₁ l₂, I i st none (l₁ ++ .inr r :: l₂) → I i st none (l₁ ++ l₂)

/-- The invariants hold of a configuration. -/
structure Local (D : σ → Prop) (I : ℕ → σ → Option C → List (Q ⊕ R) → Prop) (s : Conf σ C Q R τ) : Prop where
  store : D s.store
  client : ∀ i, I i s.store (s.client i) (own i s.net)

variable {ok : Conf σ C Q R τ → Ev A → Prop} {D : σ → Prop} {I : ℕ → σ → Option C → List (Q ⊕ R) → Prop}
  {s s' : Conf σ C Q R τ}

/-- Client `i` changes, and perhaps the store; the messages of the others stay. -/
theorem Local.update {st : σ} {i : ℕ} {o : Option C} {net : List (Msg Q R τ)} (hD : D st)
    (hown : I i st o (own i net)) (hothers : ∀ j, j ≠ i → I j st (s.client j) (own j net)) :
    Local D I (⟨st, Function.update s.client i o, net⟩ : Conf σ C Q R τ) where
  store := hD
  client j := by
    by_cases hj : j = i
    · subst hj
      simpa using hown
    · simpa [Function.update_of_ne hj] using hothers j hj

theorem Locals.step {e : Ev A} (hp : Locals app (fun s e => waits s e = true ∧ ok s e) D I) (h : Local D I s)
    (ho : waits s e = true ∧ ok s e) (hs : Step app s e s') : Local D I s' := by
  have hidle : ∀ {i a}, e = .act i a → own i s.net = [] := fun heq => by
    subst heq
    exact List.isEmpty_iff.mp ho.1
  -- the messages of the others, when the message `x` of client `i` gives way to `new`
  have hothers : ∀ {i t b l₁ l₂ new}, s.net = l₁ ++ ⟨i, t, b⟩ :: l₂ → (∀ m ∈ new, m.client = i) →
      ∀ j, j ≠ i → I j s.store (s.client j) (own j (l₁ ++ new ++ l₂)) := by
    intro i t b l₁ l₂ new hl hnew j hj
    rw [@own_other _ _ _ _ _ t b l₁ l₂ new hj hnew, ← hl]
    exact h.client j
  have hmine : ∀ {i t b l₁ l₂}, s.net = l₁ ++ ⟨i, t, b⟩ :: l₂ →
      I i s.store (s.client i) (own i l₁ ++ b :: own i l₂) := by
    intro i t b l₁ l₂ hl
    rw [← own_self i t b, ← hl]
    exact h.client i
  cases hs with
  | @act i a c c' qs hc ha =>
    have hempty := hidle rfl
    have hi := h.client i
    rw [hc, hempty] at hi
    refine Local.update h.store ?_ fun j hj => ?_
    · rw [own_append, hempty, own_issue, List.nil_append]
      exact hp.act _ _ _ _ _ _ ho hc ha h.store hi
    · rw [own_append, own_of_ne fun m hm heq => hj (heq.symm.trans (client_issue _ _ _ m hm)), List.append_nil]
      exact h.client j
  | @actThrows i a c hc ha =>
    have hi := h.client i
    rw [hc, hidle rfl] at hi
    refine Local.update h.store ?_ fun j _ => h.client j
    rw [hidle rfl]
    exact hp.actThrows _ _ _ hi
  | @exec n b i t q l₁ l₂ st out hn hl he =>
    obtain ⟨hD, hi, hkeep⟩ := hp.exec _ _ _ _ _ _ _ _ _ _ ho hn he h.store (hmine hl)
    refine ⟨hD, fun j => ?_⟩
    by_cases hj : j = i
    · subst hj
      rw [own_append, own_append, own_follow]
      exact hi
    · exact hkeep j hj _ _ (hothers hl (client_follow i t out) j hj)
  | @execThrows n b i t q l₁ l₂ hn hl he =>
    refine Local.update h.store ?_ fun j hj => ?_
    · rw [own_append]
      exact hp.execThrows _ _ _ _ _ _ _ he (hmine hl)
    · have hnil := @hothers _ _ _ _ _ [] hl (fun m hm => by cases hm) j hj
      rwa [List.append_nil] at hnil
  | @recv n i t r l₁ l₂ c c' qs hn hl hc hr =>
    have hi := hmine hl
    rw [hc] at hi
    refine Local.update h.store ?_ fun j hj => hothers hl (client_issue i c' qs) j hj
    rw [own_append, own_append, own_issue]
    exact hp.recv _ _ _ _ _ _ _ _ hr h.store hi
  | @recvThrows n i t r l₁ l₂ c hn hl hc hr =>
    have hi := hmine hl
    rw [hc] at hi
    refine Local.update h.store ?_ fun j hj => ?_
    · rw [own_append]
      exact hp.recvThrows _ _ _ _ _ _ hr hi
    · have hnil := @hothers _ _ _ _ _ [] hl (fun m hm => by cases hm) j hj
      rwa [List.append_nil] at hnil
  | @drop n i t r l₁ l₂ hn hl hc =>
    refine ⟨h.store, fun j => ?_⟩
    by_cases hj : j = i
    · subst hj
      have hi := hmine hl
      rw [hc] at hi
      show I j s.store (s.client j) (own j (l₁ ++ l₂))
      rw [hc, own_append]
      exact hp.drop _ _ _ _ _ hi
    · have hnil := @hothers _ _ _ _ _ [] hl (fun m hm => by cases hm) j hj
      rwa [List.append_nil] at hnil

/-- **Where clients wait, the invariants hold wherever a run leads.** -/
theorem Locals.reach {s₀ : Conf σ C Q R τ} (hp : Locals app (fun s e => waits s e = true ∧ ok s e) D I)
    (h0 : Local D I s₀) (h : Reach app (fun s e => waits s e = true ∧ ok s e) s₀ s) : Local D I s :=
  Reach.inv h0 (fun _ _ _ hl ho hs => hp.step hl ho hs) h

end Async
