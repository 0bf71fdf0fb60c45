/-
# Loops that carry a state from item to item

A loop that makes a step at each item and puts something out of the state it has
then. The outputs are those of the items on their own when the state is fresh at
every item, that is, when no item but the last leaves something in it.

Key definitions: `outputs`, `Carries`.
Key theorems: `foldlM_eq_outputs`, `foldlM_out`, `Carries.forall₂_outputs_iff`,
`Carries.outputs_append_iff`, `Carries.agree_iff`.
-/
import Mathlib.Data.List.Forall2
import Mathlib.Tactic.Common

namespace Carry

variable {α β σ : Type*} {step : σ → α → Option σ} {out : σ → Option β} {s : σ} {as xs ys : List α}

/-- What a loop puts out that makes a step at each item; it stops for good where a step
or an output is missing. -/
def outputs (step : σ → α → Option σ) (out : σ → Option β) : σ → List α → Option (List β)
  | _, [] => some []
  | s, a :: as =>
    (step s a).bind fun s' => (out s').bind fun b => (outputs step out s' as).map (b :: ·)

theorem outputs_cons {a : α} {s' : σ} (h : step s a = some s') : outputs step out s (a :: as) =
    (out s').bind fun b => (outputs step out s' as).map (b :: ·) := by
  rw [outputs, h, Option.bind_some]

theorem out_eq_head {a : α} {s' : σ} {bs : List β} (hs : step s a = some s')
    (h : outputs step out s (a :: as) = some bs) : out s' = bs.head? := by
  rw [outputs_cons hs] at h
  obtain ⟨b, hb, h⟩ := Option.bind_eq_some_iff.mp h
  obtain ⟨bs', -, rfl⟩ := Option.map_eq_some_iff.mp h
  exact hb

/-- The loop that appends what it puts out to a list. -/
theorem foldlM_eq_outputs (s : σ) (as : List α) (bs : List β) :
    (as.foldlM (fun (p : σ × List β) a =>
        (step p.1 a).bind fun s' => (out s').map fun b => (s', p.2 ++ [b])) (s, bs)).map Prod.snd =
      (outputs step out s as).map (bs ++ ·) := by
  induction as generalizing s bs with
  | nil => simp [outputs]
  | cons a as ih =>
    rw [List.foldlM_cons]
    unfold outputs
    cases hs : step s a with
    | none => rfl
    | some s' =>
      cases hb : out s' with
      | none => simp [hb]
      | some b =>
        have hih := ih s' (bs ++ [b])
        simp only [Option.bind_some, hb, Option.map_some, Option.bind_eq_bind, Option.map_map]
        rw [hih]
        congr 1
        funext l
        simp

theorem outputs_append {s' : σ} (h : xs.foldlM step s = some s') : outputs step out s (xs ++ ys) =
    (outputs step out s xs).bind fun bs => (outputs step out s' ys).map (bs ++ ·) := by
  induction xs generalizing s with
  | nil =>
    obtain rfl := Option.some.inj h
    simp [outputs]
  | cons a xs ih =>
    rw [List.foldlM_cons] at h
    obtain ⟨s₁, hs₁, h⟩ := Option.bind_eq_some_iff.mp h
    rw [List.cons_append, outputs_cons hs₁, outputs_cons hs₁]
    cases hb : out s₁ with
    | none => rfl
    | some b =>
      rw [Option.bind_some, Option.bind_some, ih h]
      cases outputs step out s₁ xs with
      | none => rfl
      | some bs => simp [Function.comp_def]

/-- A loop that puts out after its end only has the last output. -/
theorem foldlM_out {bs : List β} (h : outputs step out s as = some bs) (has : as ≠ []) :
    (as.foldlM step s).bind out = bs.getLast? := by
  induction as generalizing s bs with
  | nil => exact absurd rfl has
  | cons a as ih =>
    obtain ⟨s', hs, h⟩ := Option.bind_eq_some_iff.mp h
    obtain ⟨b, hb, h⟩ := Option.bind_eq_some_iff.mp h
    obtain ⟨bs', hbs, rfl⟩ := Option.map_eq_some_iff.mp h
    rw [List.foldlM_cons, hs]
    show ((as.foldlM step s').bind out) = _
    by_cases hnil : as = []
    · subst hnil
      obtain rfl := Option.some.inj hbs
      exact hb
    · have hne : bs' ≠ [] := by
        intro hbs'
        subst hbs'
        obtain ⟨a', as', rfl⟩ := List.exists_cons_of_ne_nil hnil
        simp [outputs, Option.bind_eq_some_iff, Option.map_eq_some_iff] at hbs
      rw [ih hbs hnil, List.getLast?_cons_of_ne_nil hne]

theorem length_outputs {bs : List β} (h : outputs step out s as = some bs) : bs.length = as.length := by
  induction as generalizing s bs with
  | nil =>
    obtain rfl := Option.some.inj h
    rfl
  | cons a as ih =>
    obtain ⟨s', -, h⟩ := Option.bind_eq_some_iff.mp h
    obtain ⟨b, -, h⟩ := Option.bind_eq_some_iff.mp h
    obtain ⟨bs', hbs, rfl⟩ := Option.map_eq_some_iff.mp h
    rw [List.length_cons, List.length_cons, ih hbs]

section Fresh

/-- What the items of `D` do to the state: it is fresh after an item if it was before and
the item is `quiet`, and there is an output after the items with `ends` only. -/
def Carries (step : σ → α → Option σ) (out : σ → Option β) (fresh : σ → Prop) (D quiet ends : α → Prop) : Prop :=
  ∀ s a, D a → ∃ s', step s a = some s' ∧ (fresh s' ↔ fresh s ∧ quiet a) ∧ ((out s').isSome ↔ ends a)

variable {fresh : σ → Prop} {D quiet ends : α → Prop} (hc : Carries step out fresh D quiet ends)
include hc

theorem Carries.foldlM (s : σ) (h : ∀ a ∈ as, D a) :
    ∃ s', as.foldlM step s = some s' ∧ (fresh s' ↔ fresh s ∧ ∀ a ∈ as, quiet a) := by
  induction as generalizing s with
  | nil => exact ⟨s, rfl, by simp⟩
  | cons a as ih =>
    obtain ⟨ha, has⟩ := List.forall_mem_cons.mp h
    obtain ⟨s₁, hs₁, hfresh₁, -⟩ := hc s a ha
    obtain ⟨s', hs', hfresh'⟩ := ih s₁ has
    refine ⟨s', ?_, ?_⟩
    · rw [List.foldlM_cons, hs₁]
      exact hs'
    · rw [hfresh', hfresh₁, List.forall_mem_cons, and_assoc]

/-- The loop gets to its end exactly when there is an output after every item. -/
theorem Carries.isSome_iff (s : σ) (h : ∀ a ∈ as, D a) : (outputs step out s as).isSome ↔ ∀ a ∈ as, ends a := by
  induction as generalizing s with
  | nil => simp [outputs]
  | cons a as ih =>
    obtain ⟨ha, has⟩ := List.forall_mem_cons.mp h
    obtain ⟨s', hs', -, hends⟩ := hc s a ha
    rw [outputs_cons hs', List.forall_mem_cons, ← hends, ← ih s' has]
    cases out s' with
    | none => simp
    | some b => simp

/-- **The outputs are those of the items on their own exactly when** each item has one of
its own after a fresh state, and no item but the last leaves something in the state. -/
theorem Carries.forall₂_outputs_iff {R : α → β → Prop} {own : α → Prop}
    (hR : ∀ s a s', D a → step s a = some s' → ((∃ b, out s' = some b ∧ R a b) ↔ fresh s ∧ own a))
    (h : ∀ a ∈ as, D a) (hs : fresh s) :
    (∃ bs, outputs step out s as = some bs ∧ List.Forall₂ R as bs) ↔
      (∀ a ∈ as, own a) ∧ ∀ a ∈ as.dropLast, quiet a := by
  induction as generalizing s with
  | nil => exact iff_of_true ⟨[], rfl, .nil⟩ (by simp)
  | cons a as ih =>
    obtain ⟨ha, has⟩ := List.forall_mem_cons.mp h
    obtain ⟨s', hs', hfresh, -⟩ := hc s a ha
    have hhead := hR s a s' ha hs'
    rw [outputs_cons hs']
    have hsplit : (∃ bs, ((out s').bind fun b => (outputs step out s' as).map (b :: ·)) = some bs ∧
        List.Forall₂ R (a :: as) bs) ↔
        (∃ b, out s' = some b ∧ R a b) ∧ ∃ bs, outputs step out s' as = some bs ∧ List.Forall₂ R as bs := by
      constructor
      · rintro ⟨bs, hbs, hall⟩
        obtain ⟨b, hb, hbs⟩ := Option.bind_eq_some_iff.mp hbs
        obtain ⟨bs', hbs', rfl⟩ := Option.map_eq_some_iff.mp hbs
        obtain ⟨hab, hrest⟩ := List.forall₂_cons.mp hall
        exact ⟨⟨b, hb, hab⟩, bs', hbs', hrest⟩
      · rintro ⟨⟨b, hb, hab⟩, bs, hbs, hrest⟩
        refine ⟨b :: bs, ?_, .cons hab hrest⟩
        rw [hb, hbs]
        rfl
    rw [hsplit, hhead, List.forall_mem_cons]
    by_cases hnil : as = []
    · subst hnil
      simp [outputs, hs]
    · rw [List.dropLast_cons_of_ne_nil hnil, List.forall_mem_cons]
      by_cases hquiet : quiet a
      · rw [ih has (hfresh.mpr ⟨hs, hquiet⟩)]
        tauto
      · refine iff_of_false ?_ fun hno => hquiet hno.2.1
        rintro ⟨-, bs, hbs, hall⟩
        -- the next item finds the state that is not fresh
        obtain ⟨a', as', rfl⟩ := List.exists_cons_of_ne_nil hnil
        obtain ⟨ha', -⟩ := List.forall_mem_cons.mp has
        obtain ⟨s'', hs'', -, -⟩ := hc s' a' ha'
        have hb := out_eq_head hs'' hbs
        cases hall with
        | cons hab _ =>
          have hold := (hR s' a' s'' ha' hs'').mp ⟨_, hb, hab⟩
          exact hquiet (hfresh.mp hold.1).2

/-- **The outputs of two lists together are those of each exactly when** some item has no
output, or the first list leaves nothing in the state, or there is no second one. -/
theorem Carries.outputs_append_iff
    (hfresh : ∀ s₀ s₁ a, fresh s₀ → fresh s₁ → D a → step s₁ a = step s₀ a)
    (hout : ∀ s₀ s₁ a s₀' s₁', fresh s₀ → D a → step s₀ a = some s₀' → step s₁ a = some s₁' →
      out s₁' = out s₀' → ends a → fresh s₁)
    (hxs : ∀ a ∈ xs, D a) (hys : ∀ a ∈ ys, D a) (hs : fresh s) :
    (outputs step out s (xs ++ ys) =
        (outputs step out s xs).bind fun bs => (outputs step out s ys).map (bs ++ ·)) ↔
      (∃ a ∈ xs ++ ys, ¬ ends a) ∨ (∀ a ∈ xs, quiet a) ∨ ys = [] := by
  obtain ⟨s₁, hs₁, hfresh₁⟩ := hc.foldlM s hxs
  rw [outputs_append hs₁]
  by_cases hends : ∃ a ∈ xs ++ ys, ¬ ends a
  · -- both sides stop at that item
    refine iff_of_true ?_ (.inl hends)
    obtain ⟨a, ha, hno⟩ := hends
    rcases List.mem_append.mp ha with ha | ha
    · have hnone : outputs step out s xs = none := by
        rw [← Option.not_isSome_iff_eq_none, hc.isSome_iff s hxs]
        exact fun hall => hno (hall a ha)
      rw [hnone]
      rfl
    · have hnone : ∀ s, outputs step out s ys = none := fun s => by
        rw [← Option.not_isSome_iff_eq_none, hc.isSome_iff s hys]
        exact fun hall => hno (hall a ha)
      rw [hnone, hnone]
  · have hall : ∀ a ∈ xs ++ ys, ends a := fun a ha => by
      by_contra hno
      exact hends ⟨a, ha, hno⟩
    obtain ⟨bs, hbs⟩ := Option.isSome_iff_exists.mp
      ((hc.isSome_iff s hxs).mpr fun a ha => hall a (List.mem_append_left _ ha))
    rw [hbs, Option.bind_some, Option.bind_some, or_iff_right hends]
    cases ys with
    | nil => exact iff_of_true rfl (.inr rfl)
    | cons y ys =>
      obtain ⟨hy, -⟩ := List.forall_mem_cons.mp hys
      by_cases hquiet : ∀ a ∈ xs, quiet a
      · refine iff_of_true ?_ (.inl hquiet)
        rw [outputs, outputs, hfresh s s₁ y hs (hfresh₁.mpr ⟨hs, hquiet⟩) hy]
      · refine iff_of_false (fun heq => ?_) (by simp [hquiet])
        obtain ⟨s', hs', -, -⟩ := hc s y hy
        obtain ⟨s₁', hs₁', -, -⟩ := hc s₁ y hy
        have hy' := hall y (List.mem_append_right _ List.mem_cons_self)
        obtain ⟨cs, hcs⟩ := Option.isSome_iff_exists.mp
          ((hc.isSome_iff s₁ hys).mpr fun a ha => hall a (List.mem_append_right _ ha))
        rw [hcs, Option.map_some] at heq
        obtain ⟨ds, hds, happend⟩ := Option.map_eq_some_iff.mp heq.symm
        obtain rfl := List.append_cancel_left happend
        have hsame : out s₁' = out s' := (out_eq_head hs₁' hcs).trans (out_eq_head hs' hds).symm
        exact hquiet (hfresh₁.mp (hout s s₁ y s' s₁' hs hy hs' hs₁' hsame hy')).2

/-- **A loop that puts out at each item and one that puts out after the last agree exactly
when** there is one item, or no output after the last. -/
theorem Carries.agree_iff (h : ∀ a ∈ as, D a) (has : as ≠ []) :
    outputs step out s as = ((as.foldlM step s).bind out).map (fun b => [b]) ↔
      as.length = 1 ∨ ∃ a, as.getLast? = some a ∧ ¬ ends a := by
  obtain ⟨as, a, rfl⟩ := (List.eq_nil_or_concat' as).resolve_left has
  obtain ⟨hinit, hlast⟩ := List.forall_mem_append.mp h
  have ha := hlast a (List.mem_singleton_self a)
  obtain ⟨s₁, hs₁, -⟩ := hc.foldlM s hinit
  obtain ⟨s', hs', -, hends⟩ := hc s₁ a ha
  have hfold : (as ++ [a]).foldlM step s = some s' := by
    rw [List.foldlM_append, hs₁]
    show ([a].foldlM step s₁) = _
    rw [List.foldlM_cons, hs']
    rfl
  have hsome : (outputs step out s (as ++ [a])).isSome ↔ (∀ b ∈ as, ends b) ∧ ends a := by
    rw [hc.isSome_iff s h, List.forall_mem_append, List.forall_mem_singleton]
  have hget : (∃ b, (as ++ [a]).getLast? = some b ∧ ¬ ends b) ↔ ¬ ends a := by simp
  rw [hget]
  by_cases hout : ends a
  · rw [or_iff_left (not_not.mpr hout)]
    obtain ⟨b, hb⟩ := Option.isSome_iff_exists.mp (hends.mpr hout)
    rw [hfold, Option.bind_some, hb, Option.map_some]
    cases hbs : outputs step out s (as ++ [a]) with
    | none =>
      refine iff_of_false nofun fun hlen => ?_
      have hnil : as = [] := by simpa using hlen
      subst hnil
      rw [hbs] at hsome
      simp [hout] at hsome
    | some bs =>
      have hbslen := length_outputs hbs
      have hblast := foldlM_out hbs has
      rw [hfold, Option.bind_some, hb] at hblast
      rw [Option.some.injEq]
      constructor
      · rintro rfl
        exact hbslen.symm
      · intro hlen
        obtain ⟨b', rfl⟩ := List.length_eq_one_iff.mp (hbslen.trans hlen)
        simpa using hblast.symm
  · refine iff_of_true ?_ (.inr hout)
    have hnone : out s' = none := by
      rw [← Option.not_isSome_iff_eq_none, hends]
      exact hout
    have hstop : outputs step out s (as ++ [a]) = none := by
      rw [← Option.not_isSome_iff_eq_none, hsome]
      exact fun hall => hout hall.2
    rw [hstop, hfold, Option.bind_some, hnone]
    rfl

end Fresh

end Carry
