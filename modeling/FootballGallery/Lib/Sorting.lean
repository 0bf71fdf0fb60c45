/-
# Sorting by one order, judging by another

A stable sort by `r` puts two members the other way round exactly when `r` does not
allow the first before the second. So whether the result is in order by some other
relation can be said of the list before it is sorted.

Key definition: `Settled`.
Key theorem: `pairwise_insertionSort_iff`.
-/
import Mathlib.Data.List.Sort

namespace Sorting

variable {α : Type*} (r : α → α → Prop) [DecidableRel r] {S : α → α → Prop}

/-- A sort by `r` that finds `a` before `b` leaves the two in order by `S`. -/
def Settled (S : α → α → Prop) (a b : α) : Prop := if r a b then S a b else S b a

instance [DecidableRel S] : DecidableRel (Settled r S) := fun a b =>
  inferInstanceAs (Decidable (if r a b then S a b else S b a))

/-- A member inserted into a sorted list is compared with every member of it. -/
theorem pairwise_orderedInsert_iff [IsTrans α r] {a : α} {l : List α} (hl : l.Pairwise r) :
    (l.orderedInsert r a).Pairwise S ↔ (∀ b ∈ l, Settled r S a b) ∧ l.Pairwise S := by
  induction l with
  | nil => simp
  | cons b l ih =>
    obtain ⟨hb, hl⟩ := List.pairwise_cons.mp hl
    by_cases hab : r a b
    · have hall : ∀ c ∈ b :: l, r a c := by
        intro c hc
        rcases List.mem_cons.mp hc with rfl | hc
        · exact hab
        · exact Trans.trans hab (hb c hc)
      rw [List.orderedInsert_cons_of_le r l hab, List.pairwise_cons]
      refine and_congr_left fun _ => forall₂_congr fun c hc => ?_
      rw [Settled, if_pos (hall c hc)]
    · have hset : Settled r S a b ↔ S b a := by rw [Settled, if_neg hab]
      rw [List.orderedInsert_of_not_le r l hab, List.pairwise_cons, ih hl, List.pairwise_cons,
        List.forall_mem_cons, hset]
      simp only [List.mem_orderedInsert, forall_eq_or_imp]
      tauto

/-- **When the sorted list is in order by `S`.** -/
theorem pairwise_insertionSort_iff [Std.Total r] [IsTrans α r] {l : List α} :
    (l.insertionSort r).Pairwise S ↔ l.Pairwise (Settled r S) := by
  induction l with
  | nil => simp
  | cons a l ih =>
    rw [List.insertionSort_cons, pairwise_orderedInsert_iff r (List.pairwise_insertionSort r l), ih,
      List.pairwise_cons]
    simp only [List.mem_insertionSort]

end Sorting
