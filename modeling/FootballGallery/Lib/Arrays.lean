/-
# Arrays by reference

A store of arrays in which every array has a place of its own: what is written
through one reference is read through every other one to the same place, and
through no reference to another place. And arrays of flags that are flipped one
after the other.

Key definitions: `Store`, `Store.get`, `Store.set`, `Store.alloc`, `flipped`.
Key theorems: `Store.get_set_self`, `Store.get_set_ne`, `Store.get_alloc`, `flipped_eq_self_iff`.
-/
import Mathlib.Algebra.Ring.Parity
import Mathlib.Data.List.Basic
import Mathlib.Tactic.Common

namespace Arrays

/-- A place in a store. -/
abbrev Ref := ℕ

structure Store (α : Type*) where
  arrays : List (List α)

namespace Store

variable {α : Type*} {m : Store α} {r r' : Ref} {l l' : List α}

/-- There is an array at `r`. -/
def Has (m : Store α) (r : Ref) : Prop := r < m.arrays.length

def get (m : Store α) (r : Ref) : List α := m.arrays[r]?.getD []

def set (m : Store α) (r : Ref) (l : List α) : Store α := ⟨m.arrays.set r l⟩

/-- A new array, and where it is. -/
def alloc (m : Store α) (l : List α) : Store α × Ref := (⟨m.arrays ++ [l]⟩, m.arrays.length)

theorem get_set_self (h : m.Has r) : (m.set r l).get r = l := by
  unfold get set
  rw [List.getElem?_set_self h]
  rfl

theorem get_set_ne (h : r ≠ r') : (m.set r l).get r' = m.get r' := by
  unfold get set
  rw [List.getElem?_set_ne h]

@[simp] theorem has_set : (m.set r l).Has r' ↔ m.Has r' := by
  unfold Has set
  rw [List.length_set]

@[simp] theorem set_set : (m.set r l).set r l' = m.set r l' := by
  unfold set
  rw [List.set_set]

@[simp] theorem set_get : m.set r (m.get r) = m := by
  unfold set get
  by_cases h : r < m.arrays.length
  · rw [List.getElem?_eq_getElem h, Option.getD_some, List.set_getElem_self]
  · rw [List.set_eq_of_length_le (Nat.le_of_not_lt h)]

theorem has_alloc (h : m.Has r) : (m.alloc l).1.Has r := by
  show r < (m.arrays ++ [l]).length
  rw [List.length_append]
  exact Nat.lt_add_right _ h

/-- The new array changes none that there was. -/
theorem get_alloc (h : m.Has r) : (m.alloc l).1.get r = m.get r := by
  unfold get alloc
  rw [List.getElem?_append_left h]

end Store

/-- An element is replaced by one that looks the same. -/
theorem map_set_eq {α β : Type*} {g : α → β} {l : List α} {n : ℕ} {x y : α} (hx : l[n]? = some x) (hy : g y = g x) :
    (l.set n y).map g = l.map g := by
  refine List.ext_getElem? fun i => ?_
  rw [List.getElem?_map, List.getElem?_map, List.getElem?_set]
  split
  · rename_i hi
    subst hi
    rw [if_pos (List.getElem?_eq_some_iff.mp hx).1, hx]
    exact congrArg some hy
  · rfl

section Flags

variable {flags : List Bool} {toggles : List ℕ} {i : ℕ}

/-- The flags after the flags at the places of `toggles` are flipped, one after the other. -/
def flipped (flags : List Bool) (toggles : List ℕ) : List Bool := toggles.foldl (fun l i => l.modify i not) flags

@[simp] theorem length_flipped (flags : List Bool) (toggles : List ℕ) :
    (flipped flags toggles).length = flags.length := by
  unfold flipped
  induction toggles generalizing flags with
  | nil => rfl
  | cons j toggles ih => rw [List.foldl_cons, ih, List.length_modify]

/-- To put the opposite of a flag in its place is to flip it. -/
theorem set_not_eq_modify (flags : List Bool) (i : ℕ) :
    flags.set i (!(flags[i]?.getD false)) = flags.modify i not := by
  induction flags generalizing i with
  | nil => simp
  | cons b flags ih =>
    cases i with
    | zero => rfl
    | succ i => exact congrArg (b :: ·) (ih i)

/-- A flag is flipped when its place is among the toggles an odd number of times. -/
theorem flipped_getElem? : (flipped flags toggles)[i]? = flags[i]?.map (decide (Odd (toggles.count i)) ^^ ·) := by
  unfold flipped
  induction toggles generalizing flags with
  | nil => simp
  | cons j toggles ih =>
    rw [List.foldl_cons, ih, List.getElem?_modify, Option.map_eq_map, Option.map_map]
    congr 1
    funext b
    by_cases hj : j = i
    · subst hj
      rw [Function.comp_apply, if_pos rfl, List.count_cons_self]
      by_cases hodd : Odd (toggles.count j) <;> simp [hodd, Nat.odd_add_one]
    · rw [Function.comp_apply, if_neg hj, List.count_cons_of_ne hj]

/-- **The flags are the same at the end exactly when** each one is flipped an even number
of times. -/
theorem flipped_eq_self_iff : flipped flags toggles = flags ↔ ∀ i < flags.length, Even (toggles.count i) := by
  constructor
  · intro h i hi
    have hget : (flipped flags toggles)[i]? = flags[i]? := by rw [h]
    rw [flipped_getElem?, List.getElem?_eq_getElem hi, Option.map_some, Option.some.injEq] at hget
    by_contra hodd
    rw [Nat.not_even_iff_odd] at hodd
    simp [hodd] at hget
  · intro h
    refine List.ext_getElem? fun i => ?_
    rw [flipped_getElem?]
    by_cases hi : i < flags.length
    · have heven : ¬ Odd (toggles.count i) := Nat.not_odd_iff_even.mpr (h i hi)
      simp [heven]
    · simp [hi]

end Flags

end Arrays
