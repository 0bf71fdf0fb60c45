/-
# Buckets

A nested loop over keys and, for each key, over a list, that collects what has
the key: the list is put into buckets, and the buckets one after the other. When
nothing has two keys, the result is a permutation of what has one; and whether
it is in order can be said of the list and the keys. When the keys are members
themselves, each can be put before its bucket.

Key definitions: `buckets`, `nested`.
Key theorems: `buckets_perm`, `count_buckets`, `pairwise_buckets`, `nested_perm`, `filter_nested`.
-/
import Mathlib.Data.List.Basic
import Mathlib.Data.List.Perm.Basic
import Mathlib.Tactic.Common

namespace Buckets

variable {ι α : Type*} {has : ι → α → Bool}

/-- For each key, the members of the list that have it. -/
def buckets (keys : List ι) (has : ι → α → Bool) (l : List α) : List α := keys.flatMap fun i => l.filter (has i)

@[simp] theorem buckets_nil (l : List α) : buckets [] has l = [] := rfl

theorem buckets_cons (i : ι) (keys : List ι) (l : List α) :
    buckets (i :: keys) has l = l.filter (has i) ++ buckets keys has l := rfl

/-- What is in one of two disjoint parts. -/
theorem filter_or_perm {p q : α → Bool} {l : List α} (h : ∀ x ∈ l, p x = true → q x = false) :
    (l.filter p ++ l.filter q).Perm (l.filter fun x => p x || q x) := by
  induction l with
  | nil => simp
  | cons a l ih =>
    have hl := ih fun x hx => h x (List.mem_cons_of_mem _ hx)
    cases hp : p a with
    | true =>
      have hq : q a = false := h a List.mem_cons_self hp
      simp only [List.filter_cons, hp, hq, Bool.true_or]
      exact hl.cons a
    | false =>
      cases hq : q a with
      | true =>
        simp only [List.filter_cons, hp, hq, Bool.false_or]
        exact List.perm_middle.trans (hl.cons a)
      | false =>
        simp only [List.filter_cons, hp, hq, Bool.false_or]
        exact hl

theorem buckets_perm {keys : List ι} {l : List α}
    (h : ∀ x ∈ l, keys.Pairwise fun i j => has i x = true → has j x = false) :
    (buckets keys has l).Perm (l.filter fun x => keys.any fun i => has i x) := by
  induction keys with
  | nil => simp
  | cons i keys ih =>
    have hkeys := ih fun x hx => (List.pairwise_cons.mp (h x hx)).2
    rw [buckets_cons]
    refine (hkeys.append_left _).trans ?_
    simp only [List.any_cons]
    refine filter_or_perm fun x hx hi => ?_
    have hrest := (List.pairwise_cons.mp (h x hx)).1
    rw [List.any_eq_false]
    intro j hj
    simp [hrest j hj hi]

/-- With keys that are not disjoint a member is there once for each key that it has. -/
theorem count_buckets [DecidableEq α] (keys : List ι) (l : List α) (a : α) :
    (buckets keys has l).count a = (keys.countP fun i => has i a) * l.count a := by
  induction keys with
  | nil => simp
  | cons i keys ih =>
    rw [buckets_cons, List.count_append, ih, List.countP_cons, Nat.add_mul, Nat.add_comm]
    refine congrArg _ ?_
    cases hi : has i a with
    | true => rw [List.count_filter hi, if_pos rfl, Nat.one_mul]
    | false =>
      have hnot : a ∉ l.filter (has i) := fun h => by
        rw [(List.mem_filter.mp h).2] at hi
        cases hi
      rw [List.count_eq_zero_of_not_mem hnot, if_neg Bool.false_ne_true, Nat.zero_mul]

theorem pairwise_buckets {R : α → α → Prop} {keys : List ι} {l : List α} :
    (buckets keys has l).Pairwise R ↔
      (∀ i ∈ keys, l.Pairwise fun x y => has i x = true → has i y = true → R x y) ∧
      keys.Pairwise fun i j => ∀ x ∈ l, has i x = true → ∀ y ∈ l, has j y = true → R x y := by
  unfold buckets
  rw [List.pairwise_flatMap]
  refine and_congr (forall₂_congr fun i _ => List.pairwise_filter) ?_
  have hmem : ∀ i j, (∀ x ∈ l.filter (has i), ∀ y ∈ l.filter (has j), R x y) ↔
      ∀ x ∈ l, has i x = true → ∀ y ∈ l, has j y = true → R x y := by
    intro i j
    simp only [List.mem_filter, and_imp]
  simp only [hmem]

/-- Exactly the members that have the key are in the key's bucket. -/
theorem filter_buckets {keys : List ι} {l : List α} {i : ι} (hi : i ∈ keys)
    (h : ∀ x ∈ l, keys.Pairwise fun i j => has i x = true → has j x = false) :
    (buckets keys has l).filter (has i) = l.filter (has i) := by
  induction keys with
  | nil => cases hi
  | cons k keys ih =>
    have hrest : ∀ x ∈ l, keys.Pairwise fun i j => has i x = true → has j x = false :=
      fun x hx => (List.pairwise_cons.mp (h x hx)).2
    have hhead : ∀ x ∈ l, has k x = true → ∀ j ∈ keys, has j x = false :=
      fun x hx hk j hj => (List.pairwise_cons.mp (h x hx)).1 j hj hk
    rw [buckets_cons, List.filter_append]
    by_cases hmem : i ∈ keys
    · have hnil : (l.filter (has k)).filter (has i) = [] := by
        rw [List.filter_eq_nil_iff]
        intro x hx hix
        obtain ⟨hxl, hkx⟩ := List.mem_filter.mp hx
        rw [hhead x hxl hkx i hmem] at hix
        cases hix
      rw [hnil, List.nil_append, ih hmem hrest]
    · obtain rfl : i = k := (List.mem_cons.mp hi).resolve_right hmem
      have hnil : (buckets keys has l).filter (has i) = [] := by
        rw [List.filter_eq_nil_iff]
        intro x hx hix
        obtain ⟨j, hj, hxj⟩ := List.mem_flatMap.mp hx
        obtain ⟨hxl, hjx⟩ := List.mem_filter.mp hxj
        rw [hhead x hxl hix j hj] at hjx
        cases hjx
      rw [hnil, List.append_nil, List.filter_filter]
      exact List.filter_congr fun x _ => Bool.and_self _

/-! ### Members as keys -/

section Nested

variable {has : α → α → Bool} {keys l : List α}

/-- Each key, and after it the members of the list that have it. -/
def nested (keys : List α) (has : α → α → Bool) (l : List α) : List α :=
  keys.flatMap fun i => i :: l.filter (has i)

theorem nested_perm : (nested keys has l).Perm (keys ++ buckets keys has l) := by
  have hsplit := List.flatMap_append_perm keys (fun i => [i]) (fun i => l.filter (has i))
  rw [List.flatMap_singleton'] at hsplit
  exact hsplit.symm

theorem count_nested [DecidableEq α] (a : α) : (nested keys has l).count a =
    keys.count a + (keys.countP fun i => has i a) * l.count a := by
  rw [nested_perm.count_eq, List.count_append, count_buckets]

theorem filter_nested (p : α → Bool) : (nested keys has l).filter p =
    keys.flatMap fun i => (if p i then [i] else []) ++ (l.filter (has i)).filter p := by
  unfold nested
  rw [List.filter_flatMap]
  refine congrArg List.flatten (List.map_congr_left fun i _ => ?_)
  rw [List.filter_cons]
  split <;> rfl

/-- The keys, when the members of the list are none. -/
theorem filter_nested_keys {p : α → Bool} (hkeys : ∀ i ∈ keys, p i = true) (hl : ∀ x ∈ l, p x = false) :
    (nested keys has l).filter p = keys := by
  have hparts : ∀ i ∈ keys, (if p i then [i] else []) ++ (l.filter (has i)).filter p = [i] := by
    intro i hi
    have hnil : (l.filter (has i)).filter p = [] := by
      rw [List.filter_eq_nil_iff]
      intro x hx hpx
      rw [hl x (List.mem_filter.mp hx).1] at hpx
      cases hpx
    rw [if_pos (hkeys i hi), hnil]
    rfl
  rw [filter_nested, List.flatMap_def, List.map_congr_left hparts, ← List.flatMap_def]
  exact List.flatMap_singleton' keys

/-- What has a key, when no key has one. -/
theorem filter_nested_has {i : α} (hi : i ∈ keys) (hkeys : ∀ j ∈ keys, has i j = false)
    (h : ∀ x ∈ l, keys.Pairwise fun i j => has i x = true → has j x = false) :
    (nested keys has l).filter (has i) = l.filter (has i) := by
  have hparts : ∀ j ∈ keys, (if has i j then [j] else []) ++ (l.filter (has j)).filter (has i) =
      (l.filter (has j)).filter (has i) := by
    intro j hj
    rw [hkeys j hj]
    rfl
  rw [filter_nested, List.flatMap_def, List.map_congr_left hparts, ← List.flatMap_def, ← List.filter_flatMap]
  exact filter_buckets hi h

end Nested

end Buckets
