/-
# Answers without their questions

A loop that asks one question after the other and appends the answers it gets. Who
then looks an answer up by the number of its question finds it when every question
up to it has been answered; otherwise he finds the answer to a later question, or
none.

Key definition: `gather`.
Key theorems: `getElem?_filterMap_iff`, `found_iff`.
-/
import Mathlib.Data.Nat.Notation
import Mathlib.Tactic.Common

namespace Gaps

variable {α β : Type*}

/-- Asks in turn; a question without an answer leaves the list as it is. -/
def gather (ask : α → Option β) : List α → List β → List β
  | [], results => results
  | a :: as, results =>
    match ask a with
    | some b => gather ask as (results ++ [b])
    | none => gather ask as results

theorem gather_eq (ask : α → Option β) (as : List α) (results : List β) :
    gather ask as results = results ++ as.filterMap ask := by
  induction as generalizing results with
  | nil => rw [gather, List.filterMap_nil, List.append_nil]
  | cons a as ih =>
    unfold gather
    cases ha : ask a with
    | none => rw [List.filterMap_cons_none ha, ← ih]
    | some b =>
      rw [List.filterMap_cons_some ha]
      show gather ask as (results ++ [b]) = _
      rw [ih, List.append_assoc, List.singleton_append]

theorem length_gather {ask : α → Option β} {as : List α} (h : ∀ a ∈ as, (ask a).isSome) :
    (gather ask as []).length = as.length := by
  rw [gather_eq, List.nil_append, List.length_filterMap_eq_countP]
  exact List.countP_eq_length.mpr h

/-- The questions among the first `j` that have been answered. -/
def answered (ask : α → Option β) (as : List α) (j : ℕ) : ℕ := (as.take j).countP fun a => (ask a).isSome

theorem answered_le (ask : α → Option β) (as : List α) (j : ℕ) : answered ask as j ≤ j := by
  unfold answered
  calc _ ≤ (as.take j).length := List.countP_le_length
    _ ≤ j := List.length_take_le j as

theorem answered_cons (ask : α → Option β) (a : α) (as : List α) (j : ℕ) :
    answered ask (a :: as) (j + 1) = answered ask as j + if (ask a).isSome then 1 else 0 := by
  unfold answered
  rw [List.take_succ_cons, List.countP_cons]

/-- The `i`-th answer is the one to the question before which `i` have been answered. -/
theorem getElem?_filterMap_iff {ask : α → Option β} {as : List α} {i : ℕ} {b : β} :
    (as.filterMap ask)[i]? = some b ↔ ∃ j, as[j]?.bind ask = some b ∧ answered ask as j = i := by
  induction as generalizing i with
  | nil => simp
  | cons a as ih =>
    -- the question is the first one or is among the others
    have hsplit : (∃ j, (a :: as)[j]?.bind ask = some b ∧ answered ask (a :: as) j = i) ↔
        (ask a = some b ∧ 0 = i) ∨ ∃ j, as[j]?.bind ask = some b ∧
          answered ask as j + (if (ask a).isSome then 1 else 0) = i := by
      constructor
      · rintro ⟨j, hb, hi⟩
        cases j with
        | zero => exact .inl ⟨hb, hi⟩
        | succ j => exact .inr ⟨j, hb, (answered_cons ask a as j).symm.trans hi⟩
      · rintro (⟨hb, hi⟩ | ⟨j, hb, hi⟩)
        · exact ⟨0, hb, hi⟩
        · exact ⟨j + 1, hb, (answered_cons ask a as j).trans hi⟩
    rw [hsplit]
    cases ha : ask a with
    | none =>
      rw [List.filterMap_cons_none ha, ih]
      simp
    | some b' =>
      rw [List.filterMap_cons_some ha]
      cases i with
      | zero => simp
      | succ i => simp [ih]

/-- Every question up to `i` has been answered when `i` of the first `i` have. -/
theorem isSome_of_answered {ask : α → Option β} {as : List α} {i : ℕ} (h : answered ask as i = i) {k : ℕ} (hk : k < i) :
    (as[k]?.bind ask).isSome := by
  have hlen : (as.take i).length = i := by
    have hle := List.countP_le_length (p := fun a => (ask a).isSome) (l := as.take i)
    have hmin := List.length_take_le i as
    unfold answered at h
    omega
  have hall : ∀ a ∈ as.take i, (ask a).isSome := List.countP_eq_length.mp (h.trans hlen.symm)
  have hki : k < (as.take i).length := by omega
  have hget : as[k]? = some (as.take i)[k] := by
    rw [← List.getElem?_take_of_lt hk]
    exact List.getElem?_eq_getElem hki
  rw [hget]
  exact hall _ (List.getElem_mem hki)

theorem answered_of_isSome {ask : α → Option β} {as : List α} {i : ℕ} (h : ∀ k < i, (as[k]?.bind ask).isSome) :
    answered ask as i = i := by
  induction i generalizing as with
  | zero => simp [answered]
  | succ i ih =>
    have hfirst := h 0 (by omega)
    cases as with
    | nil => simp at hfirst
    | cons a as =>
      have hrest : answered ask as i = i := ih fun k hk => h (k + 1) (by omega)
      have ha : (ask a).isSome := hfirst
      rw [answered_cons, hrest, if_pos ha]

/-- **What is found at `i` has a property that the right answer has exactly when** every
question up to `i` has been answered, or one after it, with `i` answers before it, has
an answer of that kind. -/
theorem found_iff {ask : α → Option β} {as : List α} {i : ℕ} {P : β → Prop}
    (hself : ∀ b, as[i]?.bind ask = some b → P b) :
    (∃ b, (as.filterMap ask)[i]? = some b ∧ P b) ↔
      (∀ k ≤ i, (as[k]?.bind ask).isSome) ∨
        ∃ j b, i < j ∧ answered ask as j = i ∧ as[j]?.bind ask = some b ∧ P b := by
  constructor
  · rintro ⟨b, hb, hP⟩
    obtain ⟨j, hj, hcount⟩ := getElem?_filterMap_iff.mp hb
    have hle := answered_le ask as j
    rcases Nat.eq_or_lt_of_le (hcount ▸ hle) with rfl | hlt
    · refine .inl fun k hk => ?_
      rcases Nat.eq_or_lt_of_le hk with rfl | hk
      · exact Option.isSome_of_eq_some hj
      · exact isSome_of_answered hcount hk
    · exact .inr ⟨j, b, hlt, hcount, hj, hP⟩
  · rintro (hall | ⟨j, b, -, hcount, hj, hP⟩)
    · obtain ⟨b, hb⟩ := Option.isSome_iff_exists.mp (hall i (Nat.le_refl i))
      have hcount : answered ask as i = i := answered_of_isSome fun k hk => hall k (Nat.le_of_lt hk)
      exact ⟨b, getElem?_filterMap_iff.mpr ⟨i, hb, hcount⟩, hself b hb⟩
    · exact ⟨b, getElem?_filterMap_iff.mpr ⟨j, hj, hcount⟩, hP⟩

/-! ### Reading the answers -/

section Read

variable {γ : Type*} {read : β → Option γ}

/-- All of them are read when each can be. -/
theorem mapM_isSome_iff (results : List β) : (results.mapM read).isSome ↔ ∀ b ∈ results, (read b).isSome := by
  induction results with
  | nil => simp
  | cons b results ih =>
    rw [List.mapM_cons, List.forall_mem_cons, ← ih]
    cases read b with
    | none => simp
    | some c => cases results.mapM read <;> simp

theorem getElem?_of_mapM {results : List β} {collection : List γ} (h : results.mapM read = some collection) (i : ℕ) :
    collection[i]? = results[i]?.bind read := by
  induction results generalizing collection i with
  | nil =>
    obtain rfl := Option.some.inj h
    rfl
  | cons b results ih =>
    rw [List.mapM_cons] at h
    obtain ⟨c, hc, h⟩ := Option.bind_eq_some_iff.mp h
    obtain ⟨rest, hrest, h⟩ := Option.bind_eq_some_iff.mp h
    obtain rfl := Option.some.inj h
    cases i with
    | zero => exact hc.symm
    | succ i => exact ih hrest i

theorem length_of_mapM {results : List β} {collection : List γ} (h : results.mapM read = some collection) :
    collection.length = results.length := by
  induction results generalizing collection with
  | nil =>
    obtain rfl := Option.some.inj h
    rfl
  | cons b results ih =>
    rw [List.mapM_cons] at h
    obtain ⟨c, -, h⟩ := Option.bind_eq_some_iff.mp h
    obtain ⟨rest, hrest, h⟩ := Option.bind_eq_some_iff.mp h
    obtain rfl := Option.some.inj h
    exact congrArg (· + 1) (ih hrest)

end Read

end Gaps
