/-
# Runs of a machine that can throw

A machine takes events one after the other; an event that throws ends it. `Along` is
for what has to hold whenever an event happens, with the state it finds. An invariant
of the steps with a condition is then one of the runs that keep the condition, and if
those steps do not throw, the runs do not.

Some conditions decide for good: once they fail, the machine is in a state that it
never leaves. Then the states in which a run can end say whether the condition held
all along (`run_splits`).

Key definitions: `run`, `Along`.
Key theorems: `run_keeps`, `Along.keeps`, `Along.goes`, `Along.simulates`, `run_splits`.
-/
import Mathlib.Data.List.Forall2
import Mathlib.Tactic.Common

namespace Runs

variable {S E : Type*} (step : S → E → Option S)

/-- The state after the events, unless one of them throws. -/
def run : S → List E → Option S
  | s, [] => some s
  | s, e :: es => (step s e).bind fun s' => run s' es

/-- `P` holds of every event with the state it finds. -/
def Along (P : S → E → Prop) : S → List E → Prop
  | _, [] => True
  | s, e :: es => P s e ∧ ∀ s', step s e = some s' → Along P s' es

instance decidableAlong (P : S → E → Prop) [∀ s e, Decidable (P s e)] : ∀ s es, Decidable (Along step P s es)
  | _, [] => isTrue trivial
  | s, e :: es =>
    match h : step s e with
    | none => decidable_of_iff (P s e) (by simp [Along, h])
    | some s' =>
      haveI := decidableAlong P s' es
      decidable_of_iff (P s e ∧ Along step P s' es) (by simp [Along, h])

variable {step} {P : S → E → Prop} {I J : S → Prop} {s s' : S} {e : E} {es : List E}

theorem run_cons_eq_some : run step s (e :: es) = some s' ↔ ∃ s₁, step s e = some s₁ ∧ run step s₁ es = some s' :=
  Option.bind_eq_some_iff

theorem run_append (es es' : List E) (s : S) :
    run step s (es ++ es') = (run step s es).bind fun s' => run step s' es' := by
  induction es generalizing s with
  | nil => rfl
  | cons e es ih =>
    show (step s e).bind (fun s₁ => run step s₁ (es ++ es')) = ((step s e).bind _).bind _
    rw [Option.bind_assoc]
    exact congrArg _ (funext fun s₁ => ih s₁)

theorem along_of_forall (h : ∀ e ∈ es, ∀ s, P s e) : Along step P s es := by
  induction es generalizing s with
  | nil => trivial
  | cons e es ih => exact ⟨h e List.mem_cons_self s, fun _ _ => ih fun e' he' => h e' (List.mem_cons_of_mem e he')⟩

theorem along_cons (h : P s e) (hs : step s e = some s') (ha : Along step P s' es) : Along step P s (e :: es) :=
  ⟨h, fun s₁ hs₁ => by rwa [← Option.some.inj (hs.symm.trans hs₁)]⟩

/-- What every step keeps is kept by the runs. -/
theorem run_keeps (hstep : ∀ s e s', I s → step s e = some s' → I s') (h : I s) (hr : run step s es = some s') :
    I s' := by
  induction es generalizing s with
  | nil =>
    obtain rfl := Option.some.inj hr
    exact h
  | cons e es ih =>
    obtain ⟨s₁, hs₁, hr⟩ := run_cons_eq_some.mp hr
    exact ih (hstep s e s₁ h hs₁) hr

/-- What the steps keep that meet the condition is kept by the runs that do. -/
theorem Along.keeps (ha : Along step P s es) (hstep : ∀ s e s', I s → P s e → step s e = some s' → I s') (h : I s)
    (hr : run step s es = some s') : I s' := by
  induction es generalizing s with
  | nil =>
    obtain rfl := Option.some.inj hr
    exact h
  | cons e es ih =>
    obtain ⟨s₁, hs₁, hr⟩ := run_cons_eq_some.mp hr
    exact ih (ha.2 s₁ hs₁) (hstep s e s₁ h ha.1 hs₁) hr

/-- **Where no step throws that meets the condition**, no run does. -/
theorem Along.goes (ha : Along step P s es) (hstep : ∀ s e, I s → P s e → ∃ s', step s e = some s' ∧ I s') (h : I s) :
    ∃ s', run step s es = some s' ∧ I s' := by
  induction es generalizing s with
  | nil => exact ⟨s, rfl, h⟩
  | cons e es ih =>
    obtain ⟨s₁, hs₁, h₁⟩ := hstep s e h ha.1
    obtain ⟨s', hr, h'⟩ := ih (ha.2 s₁ hs₁) h₁
    exact ⟨s', run_cons_eq_some.mpr ⟨s₁, hs₁, hr⟩, h'⟩

/-- **A simulation step by step is one of runs**: where each step that meets the condition
is a step of the other machine, or nothing to it, a run is one of the other machine, with
the events, in their order, that are something to it. -/
theorem Along.simulates {S' E' : Type*} {step' : S' → E' → Option S'} {R : S → S' → Prop} {Q : E' → E → Prop} {t : S'}
    (ha : Along step P s es) (hstep : ∀ s e s₁ t, R s t → P s e → step s e = some s₁ →
      R s₁ t ∨ ∃ e' t₁, Q e' e ∧ step' t e' = some t₁ ∧ R s₁ t₁) (h : R s t) (hr : run step s es = some s') :
    ∃ es' t', List.SublistForall₂ Q es' es ∧ run step' t es' = some t' ∧ R s' t' := by
  induction es generalizing s t with
  | nil =>
    obtain rfl := Option.some.inj hr
    exact ⟨[], t, .nil, rfl, h⟩
  | cons e es ih =>
    obtain ⟨s₁, hs₁, hr⟩ := run_cons_eq_some.mp hr
    rcases hstep s e s₁ t h ha.1 hs₁ with h₁ | ⟨e', t₁, he, ht₁, h₁⟩
    · obtain ⟨es', t', hsub, hrun, h'⟩ := ih (ha.2 s₁ hs₁) h₁ hr
      exact ⟨es', t', hsub.cons_right, hrun, h'⟩
    · obtain ⟨es', t', hsub, hrun, h'⟩ := ih (ha.2 s₁ hs₁) h₁ hr
      exact ⟨e' :: es', t', hsub.cons he, run_cons_eq_some.mpr ⟨t₁, ht₁, hrun⟩, h'⟩

/-- **A condition that decides for good**: a run that keeps it ends in `I`, and one that
does not ends in `J`. -/
theorem run_splits (hkeep : ∀ s e s', I s → P s e → step s e = some s' → I s')
    (hfail : ∀ s e s', I s → ¬ P s e → step s e = some s' → J s') (hstay : ∀ s e s', J s → step s e = some s' → J s')
    (h : I s) (hr : run step s es = some s') : Along step P s es ∧ I s' ∨ ¬ Along step P s es ∧ J s' := by
  induction es generalizing s with
  | nil =>
    obtain rfl := Option.some.inj hr
    exact .inl ⟨trivial, h⟩
  | cons e es ih =>
    obtain ⟨s₁, hs₁, hr⟩ := run_cons_eq_some.mp hr
    by_cases hP : P s e
    · rcases ih (hkeep s e s₁ h hP hs₁) hr with ⟨ha, h'⟩ | ⟨ha, h'⟩
      · refine .inl ⟨⟨hP, fun s₂ hs₂ => ?_⟩, h'⟩
        rwa [← Option.some.inj (hs₁.symm.trans hs₂)]
      · exact .inr ⟨fun hall => ha (hall.2 s₁ hs₁), h'⟩
    · exact .inr ⟨fun hall => hP hall.1, run_keeps hstay (hfail s e s₁ h hP hs₁) hr⟩

end Runs
