/-
# Receivers that come and go

A system that delivers what is sent under an action to the receivers registered for
it, and a component that registers its receivers when it is resumed and
unregisters them when it is paused. It may unregister fewer than it has
registered; then some are left after the first pause, and that is the only way to
go wrong.

Key definitions: `Registry`, `register`, `unregister`, `Listens`, `exec`, `lifeCycle`, `Balanced`, `Listens.Holds`.
Key theorems: `foldlM_unregister`, `Listens.onResume_nil`, `Listens.onPause_registers`, `balanced_iff`,
`alone_lifeCycle`, `run_lifeCycles`.
-/
import Mathlib.Data.List.Induction
import Mathlib.Data.List.Nodup
import Mathlib.Data.Nat.Init
import Mathlib.Tactic.Common

namespace Receivers

variable {ρ κ : Type*} [DecidableEq ρ] [DecidableEq κ]

/-- Who is registered, and for what. -/
abbrev Registry (ρ κ : Type*) := List (ρ × κ)

/-- A second registration of a receiver for the same action is dropped, or is one more. -/
def register (once : Bool) (reg : Registry ρ κ) (p : ρ × κ) : Registry ρ κ :=
  if once ∧ p ∈ reg then reg else reg ++ [p]

/-- All registrations of the receiver go. It is an error if there are none. -/
def unregister (reg : Registry ρ κ) (r : ρ) : Option (Registry ρ κ) :=
  if r ∈ reg.map Prod.fst then some (reg.filter (·.1 ≠ r)) else none

/-- The receivers that get what is sent under `a`. -/
def receivers (reg : Registry ρ κ) (a : κ) : List ρ := (reg.filter (·.2 = a)).map Prod.fst

/-- What a component registers when it is resumed, and unregisters when it is paused. -/
structure Listens (ρ κ : Type*) where
  registers : List (ρ × κ)
  unregisters : List ρ
  receivers_nodup : (registers.map Prod.fst).Nodup := by decide
  actions_nodup : (registers.map Prod.snd).Nodup := by decide
  unregisters_nodup : unregisters.Nodup := by decide
  unregisters_subset : unregisters ⊆ registers.map Prod.fst := by decide

inductive Event where
  | onResume
  | onPause
deriving DecidableEq

def Event.next : Event → Event
  | onResume => onPause
  | onPause => onResume

/-- `n` events in turn, from `e` on. -/
def lifeCycle : Event → ℕ → List Event
  | _, 0 => []
  | e, n + 1 => e :: lifeCycle e.next n

section Component

variable (once : Bool) (l : Listens ρ κ)

def Listens.onResume (reg : Registry ρ κ) : Registry ρ κ := l.registers.foldl (register once) reg

def Listens.onPause (reg : Registry ρ κ) : Option (Registry ρ κ) := l.unregisters.foldlM unregister reg

def exec (e : Event) (reg : Registry ρ κ) : Option (Registry ρ κ) :=
  match e with
  | .onResume => some (l.onResume once reg)
  | .onPause => l.onPause reg

/-- After a resume each action has one receiver, and after a pause no receiver of the
component is registered. -/
def Right (e : Event) (reg : Registry ρ κ) : Prop :=
  match e with
  | .onResume => ∀ p ∈ l.registers, (receivers reg p.2).length = 1
  | .onPause => ∀ p ∈ l.registers, ∀ a, (p.1, a) ∉ reg

/-- Every event ends without an error and right. -/
def Balanced : Registry ρ κ → List Event → Prop
  | _, [] => True
  | reg, e :: es => ∃ reg', exec once l e reg = some reg' ∧ Right l e reg' ∧ Balanced reg' es

/-- Everything that is registered is unregistered. -/
def Listens.Complete : Prop := ∀ p ∈ l.registers, p.1 ∈ l.unregisters

instance : Decidable l.Complete := inferInstanceAs (Decidable (∀ p ∈ l.registers, p.1 ∈ l.unregisters))

end Component

section Laws

variable {once : Bool} {l : Listens ρ κ}

/-- To register receivers that are not registered adds them. -/
theorem foldl_register {ps : List (ρ × κ)} {reg : Registry ρ κ} (h : (reg ++ ps).Nodup) :
    ps.foldl (register once) reg = reg ++ ps := by
  induction ps generalizing reg with
  | nil => simp
  | cons p ps ih =>
    have hp : p ∉ reg := fun hp => by
      have hdisj := (List.nodup_append.mp h).2.2
      exact hdisj p hp p List.mem_cons_self rfl
    have hreg : register once reg p = reg ++ [p] := if_neg fun hdrop => hp hdrop.2
    have happend : reg ++ [p] ++ ps = reg ++ p :: ps := List.append_cons reg p ps ▸ rfl
    rw [List.foldl_cons, hreg, ih (happend ▸ h), happend]

theorem Listens.onResume_nil (l : Listens ρ κ) : l.onResume once [] = l.registers :=
  foldl_register (by simpa using l.receivers_nodup.of_map Prod.fst)

omit [DecidableEq κ] in
/-- To unregister receivers that are registered removes their registrations. -/
theorem foldlM_unregister {rs : List ρ} {reg : Registry ρ κ} (hrs : rs.Nodup) (h : rs ⊆ reg.map Prod.fst) :
    rs.foldlM unregister reg = some (reg.filter (·.1 ∉ rs)) := by
  induction rs generalizing reg with
  | nil => simp
  | cons r rs ih =>
    obtain ⟨hr, hrs⟩ := List.nodup_cons.mp hrs
    have hmem : r ∈ reg.map Prod.fst := h List.mem_cons_self
    have hsub : rs ⊆ (reg.filter (·.1 ≠ r)).map Prod.fst := by
      intro r' hr'
      obtain ⟨p, hp, rfl⟩ := List.mem_map.mp (h (List.mem_cons_of_mem _ hr'))
      refine List.mem_map.mpr ⟨p, List.mem_filter.mpr ⟨hp, decide_eq_true ?_⟩, rfl⟩
      rintro rfl
      exact hr hr'
    rw [List.foldlM_cons]
    unfold unregister
    rw [if_pos hmem]
    refine (ih hrs hsub).trans ?_
    rw [List.filter_filter]
    congr 1
    refine List.filter_congr fun p _ => ?_
    rw [Bool.and_comm]
    simp

omit [DecidableEq κ] in
theorem Listens.onPause_registers (l : Listens ρ κ) :
    l.onPause l.registers = some (l.registers.filter (·.1 ∉ l.unregisters)) :=
  foldlM_unregister l.unregisters_nodup l.unregisters_subset

omit [DecidableEq ρ] in
/-- Of different actions each has one receiver. -/
theorem Listens.length_receivers (l : Listens ρ κ) {p : ρ × κ} (hp : p ∈ l.registers) :
    (receivers l.registers p.2).length = 1 := by
  have hcount : (l.registers.map Prod.snd).count p.2 = 1 :=
    List.count_eq_one_of_mem l.actions_nodup (List.mem_map_of_mem hp)
  unfold receivers
  rw [List.length_map, ← List.countP_eq_length_filter]
  rw [List.count_eq_countP, List.countP_map] at hcount
  exact hcount

omit [DecidableEq κ] in
/-- A component that unregisters everything leaves nothing behind. -/
theorem Listens.Complete.onPause (h : l.Complete) : l.onPause l.registers = some [] := by
  rw [l.onPause_registers]
  refine congrArg some (List.filter_eq_nil_iff.mpr fun p hp => ?_)
  simpa using h p hp

theorem Listens.Complete.balanced (h : l.Complete) (n : ℕ) :
    Balanced once l [] (lifeCycle .onResume n) ∧ Balanced once l l.registers (lifeCycle .onPause n) := by
  induction n with
  | zero => exact ⟨trivial, trivial⟩
  | succ n ih =>
    constructor
    · exact ⟨l.registers, congrArg some l.onResume_nil, fun p hp => l.length_receivers hp, ih.2⟩
    · exact ⟨[], h.onPause, fun p _ a => List.not_mem_nil, ih.1⟩

/-- **The component is right at every event exactly when** it unregisters everything, or
it is never paused. -/
theorem balanced_iff (l : Listens ρ κ) (n : ℕ) :
    Balanced once l [] (lifeCycle .onResume n) ↔ l.Complete ∨ n ≤ 1 := by
  constructor
  · intro h
    by_cases hn : n ≤ 1
    · exact .inr hn
    · obtain ⟨n, rfl⟩ : ∃ k, n = k + 2 := ⟨n - 2, by omega⟩
      obtain ⟨reg₁, h₁, -, reg₂, h₂, hright, -⟩ := h
      obtain rfl : l.registers = reg₁ := l.onResume_nil.symm.trans (Option.some.inj h₁)
      obtain rfl := Option.some.inj (l.onPause_registers.symm.trans h₂)
      refine .inl fun p hp => ?_
      by_contra hleft
      exact hright p hp p.2 (List.mem_filter.mpr ⟨hp, decide_eq_true hleft⟩)
  · rintro (h | hn)
    · exact (h.balanced n).1
    · cases n with
      | zero => trivial
      | succ n =>
        obtain rfl : n = 0 := by omega
        exact ⟨l.registers, congrArg some l.onResume_nil, fun p hp => l.length_receivers hp, trivial⟩

theorem mem_register {reg : Registry ρ κ} {p q : ρ × κ} : p ∈ register once reg q ↔ p ∈ reg ∨ p = q := by
  unfold register
  split
  · rename_i hdrop
    refine ⟨.inl, ?_⟩
    rintro (hp | rfl)
    · exact hp
    · exact hdrop.2
  · rw [List.mem_append, List.mem_singleton]

theorem mem_onResume {reg : Registry ρ κ} {p : ρ × κ} : p ∈ l.onResume once reg ↔ p ∈ reg ∨ p ∈ l.registers := by
  have hfold : ∀ (ps : List (ρ × κ)) (reg : Registry ρ κ), p ∈ ps.foldl (register once) reg ↔ p ∈ reg ∨ p ∈ ps := by
    intro ps
    induction ps with
    | nil => simp
    | cons q ps ih =>
      intro reg
      rw [List.foldl_cons, ih, mem_register, List.mem_cons, or_assoc]
  exact hfold l.registers reg

variable (once) in
/-- A component that is paused after it was resumed unregisters without an error. -/
theorem onPause_onResume (l : Listens ρ κ) (reg : Registry ρ κ) :
    l.onPause (l.onResume once reg) = some ((l.onResume once reg).filter (·.1 ∉ l.unregisters)) := by
  refine foldlM_unregister l.unregisters_nodup fun r hr => ?_
  obtain ⟨p, hp, rfl⟩ := List.mem_map.mp (l.unregisters_subset hr)
  exact List.mem_map_of_mem (mem_onResume.mpr (.inr hp))

variable (once l) in
/-- The events of a component alone. -/
def alone (reg : Registry ρ κ) (es : List Event) : Option (Registry ρ κ) :=
  es.foldlM (fun reg e => exec once l e reg) reg

/-- The component has the receiver registered after `n` events: it is resumed, or it has
been paused and forgets this one. -/
def Listens.Holds (l : Listens ρ κ) (n : ℕ) (p : ρ × κ) : Prop :=
  p ∈ l.registers ∧ (n % 2 = 1 ∨ 2 ≤ n ∧ p.1 ∉ l.unregisters)

variable (once) in
/-- **What a component leaves in a registry**, with what was there before. -/
theorem alone_lifeCycle (l : Listens ρ κ) (n : ℕ) (reg : Registry ρ κ) :
    ∃ reg', alone once l reg (lifeCycle .onResume n) = some reg' ∧
      ∀ p, p ∈ reg' ↔ l.Holds n p ∨ p ∈ reg ∧ (2 ≤ n → p.1 ∉ l.unregisters) := by
  induction n using Nat.twoStepInduction generalizing reg with
  | zero => exact ⟨reg, rfl, fun p => by simp [Listens.Holds]⟩
  | one =>
    refine ⟨l.onResume once reg, rfl, fun p => ?_⟩
    rw [mem_onResume]
    simp [Listens.Holds, or_comm]
  | more n ih _ =>
    obtain ⟨reg', h, hmem⟩ := ih ((l.onResume once reg).filter (·.1 ∉ l.unregisters))
    refine ⟨reg', ?_, fun p => ?_⟩
    · unfold alone at h ⊢
      show (l.onPause (l.onResume once reg) >>= _) = _
      rw [onPause_onResume]
      exact h
    · have hparity : (n + 2) % 2 = n % 2 := Nat.add_mod_right n 2
      have htwo : 2 ≤ n + 2 := Nat.le_add_left 2 n
      rw [hmem, List.mem_filter, mem_onResume, decide_eq_true_iff]
      unfold Listens.Holds
      rw [hparity]
      tauto

theorem lifeCycle_prefix {e : Event} {n : ℕ} {es es' : List Event} (h : es ++ es' = lifeCycle e n) :
    es = lifeCycle e es.length := by
  induction es generalizing e n with
  | nil => rfl
  | cons e' es ih =>
    cases n with
    | zero => cases h
    | succ n =>
      obtain ⟨rfl, h⟩ := List.cons.inj h
      exact congrArg _ (ih h)

end Laws

/-! ### Many components -/

section Device

variable {ι : Type*} [DecidableEq ι] {once : Bool} {i j : ι} {reg reg' : Registry (ι × ρ) κ}

/-- What the component `i` has of a registry. -/
def ownOf (i : ι) (reg : Registry (ι × ρ) κ) : Registry ρ κ :=
  reg.filterMap fun p => if p.1.1 = i then some (p.1.2, p.2) else none

omit [DecidableEq ρ] [DecidableEq κ] in
theorem mem_ownOf {p : ρ × κ} : p ∈ ownOf i reg ↔ ((i, p.1), p.2) ∈ reg := by
  unfold ownOf
  rw [List.mem_filterMap]
  constructor
  · rintro ⟨⟨⟨j, r⟩, a⟩, hmem, hp⟩
    split at hp
    · rename_i hj
      obtain rfl : j = i := hj
      obtain rfl := Option.some.inj hp
      exact hmem
    · cases hp
  · intro hmem
    exact ⟨_, hmem, if_pos rfl⟩

/-- A registration is of the component that makes it only. -/
theorem ownOf_register (p : ρ × κ) : ownOf i (register once reg ((j, p.1), p.2)) =
    if j = i then register once (ownOf i reg) p else ownOf i reg := by
  by_cases hdrop : once ∧ ((j, p.1), p.2) ∈ reg
  · have hreg : register once reg ((j, p.1), p.2) = reg := if_pos hdrop
    rw [hreg]
    split
    · rename_i hj
      subst hj
      exact (if_pos ⟨hdrop.1, mem_ownOf.mpr hdrop.2⟩).symm
    · rfl
  · have hreg : register once reg ((j, p.1), p.2) = reg ++ [((j, p.1), p.2)] := if_neg hdrop
    have happend : ownOf i (reg ++ [((j, p.1), p.2)]) =
        ownOf i reg ++ if j = i then [p] else [] := by
      unfold ownOf
      rw [List.filterMap_append]
      by_cases hj : j = i <;> simp [hj]
    rw [hreg, happend]
    split
    · rename_i hj
      subst hj
      exact (if_neg fun h => hdrop ⟨h.1, mem_ownOf.mp h.2⟩).symm
    · exact List.append_nil _

omit [DecidableEq κ] in
theorem ownOf_filter (r : ρ) : ownOf i (reg.filter (·.1 ≠ (j, r))) =
    if j = i then (ownOf i reg).filter (·.1 ≠ r) else ownOf i reg := by
  unfold ownOf
  rw [List.filterMap_filter]
  split
  · rename_i hj
    subst hj
    rw [List.filter_filterMap]
    congr 1
    funext p
    by_cases hp : p.1.1 = j
    · by_cases hr : p.1.2 = r <;> simp [hp, hr, Prod.ext_iff, Option.filter]
    · simp [hp, Prod.ext_iff]
  · rename_i hj
    congr 1
    funext p
    by_cases hp : p.1.1 = i
    · have hne : p.1 ≠ (j, r) := fun h => hj ((congrArg Prod.fst h).symm.trans hp)
      simp [hne]
    · simp [hp]

omit [DecidableEq κ] in
theorem ownOf_unregister_self (r : ρ) :
    (unregister reg (j, r)).map (ownOf j) = unregister (ownOf j reg) r := by
  have hmem : (j, r) ∈ reg.map Prod.fst ↔ r ∈ (ownOf j reg).map Prod.fst := by
    rw [List.mem_map, List.mem_map]
    constructor
    · rintro ⟨⟨q, a⟩, hp, rfl⟩
      exact ⟨(r, a), mem_ownOf.mpr hp, rfl⟩
    · rintro ⟨⟨r', a⟩, hp, rfl⟩
      exact ⟨((j, r'), a), mem_ownOf.mp hp, rfl⟩
  unfold unregister
  by_cases h : (j, r) ∈ reg.map Prod.fst
  · rw [if_pos h, if_pos (hmem.mp h), Option.map_some, ownOf_filter, if_pos rfl]
  · rw [if_neg h, if_neg fun hown => h (hmem.mpr hown)]
    rfl

omit [DecidableEq κ] in
theorem ownOf_unregister_ne {r : ρ} (hj : j ≠ i) (h : unregister reg (j, r) = some reg') :
    ownOf i reg' = ownOf i reg := by
  unfold unregister at h
  split at h
  · obtain rfl := Option.some.inj h
    rw [ownOf_filter, if_neg hj]
  · cases h

variable (once) in
/-- An event of the component `i`, on the registry of all. -/
def execAt (i : ι) (l : Listens ρ κ) (e : Event) (reg : Registry (ι × ρ) κ) : Option (Registry (ι × ρ) κ) :=
  match e with
  | .onResume => some (l.registers.foldl (fun reg p => register once reg ((i, p.1), p.2)) reg)
  | .onPause => l.unregisters.foldlM (fun reg r => unregister reg (i, r)) reg

/-- An event of a component does to its own registrations what it does without the others. -/
theorem ownOf_execAt_self (l : Listens ρ κ) (e : Event) :
    (execAt once j l e reg).map (ownOf j) = exec once l e (ownOf j reg) := by
  unfold execAt exec
  cases e with
  | onResume =>
    unfold Listens.onResume
    refine congrArg some ?_
    show ownOf j (l.registers.foldl _ reg) = _
    induction l.registers generalizing reg with
    | nil => rfl
    | cons p ps ih => rw [List.foldl_cons, List.foldl_cons, ih, ownOf_register, if_pos rfl]
  | onPause =>
    unfold Listens.onPause
    show Option.map (ownOf j) (l.unregisters.foldlM _ reg) = _
    induction l.unregisters generalizing reg with
    | nil => rfl
    | cons r rs ih =>
      rw [List.foldlM_cons, List.foldlM_cons, ← ownOf_unregister_self]
      cases unregister reg (j, r) with
      | none => rfl
      | some reg₁ => exact ih

theorem ownOf_execAt_ne {l : Listens ρ κ} {e : Event} (hj : j ≠ i) (h : execAt once j l e reg = some reg') :
    ownOf i reg' = ownOf i reg := by
  unfold execAt at h
  cases e with
  | onResume =>
    obtain rfl := Option.some.inj h
    clear h
    induction l.registers generalizing reg with
    | nil => rfl
    | cons p ps ih => rw [List.foldl_cons, ih, ownOf_register, if_neg hj]
  | onPause =>
    dsimp only at h
    generalize l.unregisters = rs at h
    induction rs generalizing reg with
    | nil =>
      obtain rfl := Option.some.inj h
      rfl
    | cons r rs ih =>
      rw [List.foldlM_cons] at h
      obtain ⟨reg₁, h₁, h⟩ := Option.bind_eq_some_iff.mp h
      rw [ih h, ownOf_unregister_ne hj h₁]

/-- The events of all components, in any order. -/
def run (once : Bool) (l : ι → Listens ρ κ) (reg : Registry (ι × ρ) κ) (es : List (ι × Event)) :
    Option (Registry (ι × ρ) κ) :=
  es.foldlM (fun reg e => execAt once e.1 (l e.1) e.2 reg) reg

/-- The events of the component `i`. -/
def eventsOf (i : ι) (es : List (ι × Event)) : List Event := (es.filter (·.1 = i)).map Prod.snd

/-- **Between the others a component does what it does alone.** -/
theorem ownOf_run {l : ι → Listens ρ κ} {es : List (ι × Event)} (h : run once l reg es = some reg') (i : ι) :
    alone once (l i) (ownOf i reg) (eventsOf i es) = some (ownOf i reg') := by
  unfold alone
  induction es generalizing reg with
  | nil =>
    obtain rfl := Option.some.inj h
    rfl
  | cons e es ih =>
    unfold run at h ih
    rw [List.foldlM_cons] at h
    obtain ⟨reg₁, h₁, h⟩ := Option.bind_eq_some_iff.mp h
    unfold eventsOf at ih ⊢
    by_cases hi : e.1 = i
    · subst hi
      have hown : some (ownOf e.1 reg₁) = exec once (l e.1) e.2 (ownOf e.1 reg) := by
        rw [← ownOf_execAt_self, h₁]
        rfl
      rw [List.filter_cons_of_pos (by simp), List.map_cons, List.foldlM_cons, ← hown]
      exact ih h
    · rw [List.filter_cons_of_neg (by simpa using hi), ← ownOf_execAt_ne hi h₁]
      exact ih h

variable (once) in
/-- **With all components registering at one system**, each resumed and paused in turn,
there is never an error, and a component has registered what it would have alone. -/
theorem run_lifeCycles {l : ι → Listens ρ κ} {es : List (ι × Event)}
    (hes : ∀ i, eventsOf i es = lifeCycle .onResume (eventsOf i es).length) :
    ∃ reg', run once l [] es = some reg' ∧
      ∀ i p, ((i, p.1), p.2) ∈ reg' ↔ (l i).Holds (eventsOf i es).length p := by
  have hrun : ∃ reg', run once l [] es = some reg' := by
    induction es using List.reverseRecOn with
    | nil => exact ⟨[], rfl⟩
    | append_singleton es e ih =>
      have happend : ∀ i, eventsOf i (es ++ [e]) = eventsOf i es ++ eventsOf i [e] := fun i => by
        unfold eventsOf
        rw [List.filter_append, List.map_append]
      have hprefix : ∀ i, eventsOf i es = lifeCycle .onResume (eventsOf i es).length := fun i =>
        lifeCycle_prefix ((happend i).symm.trans (hes i))
      obtain ⟨reg₁, h₁⟩ := ih hprefix
      -- alone, the component of the last event gets past it
      obtain ⟨reg₂, h₂, -⟩ := alone_lifeCycle once (l e.1) (eventsOf e.1 (es ++ [e])).length []
      have hlast : eventsOf e.1 [e] = [e.2] := by simp [eventsOf]
      rw [← hes, happend, hlast, alone, List.foldlM_append] at h₂
      obtain ⟨reg₃, h₃, h₂⟩ := Option.bind_eq_some_iff.mp h₂
      obtain rfl := Option.some.inj ((ownOf_run h₁ e.1).symm.trans h₃)
      rw [List.foldlM_cons, ← ownOf_execAt_self] at h₂
      obtain ⟨reg₄, h₄, -⟩ := Option.bind_eq_some_iff.mp h₂
      obtain ⟨reg', h', -⟩ := Option.map_eq_some_iff.mp h₄
      refine ⟨reg', ?_⟩
      unfold run at h₁ ⊢
      rw [List.foldlM_append, h₁]
      show (some reg₁ >>= fun reg => [e].foldlM _ reg) = _
      rw [Option.bind_eq_bind, Option.bind_some, List.foldlM_cons, h']
      rfl
  obtain ⟨reg', h⟩ := hrun
  refine ⟨reg', h, fun i p => ?_⟩
  obtain ⟨own, hown, hmem⟩ := alone_lifeCycle once (l i) (eventsOf i es).length []
  rw [← hes i] at hown
  obtain rfl := Option.some.inj ((ownOf_run h i).symm.trans hown)
  rw [← mem_ownOf, hmem]
  exact or_iff_left fun hp => absurd hp.1 List.not_mem_nil

end Device

end Receivers
