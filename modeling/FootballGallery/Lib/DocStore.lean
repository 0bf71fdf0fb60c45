/-
# Collections of named documents

A document database as its clients see it: a collection holds documents of
one type under distinct, non-empty ids. `set` replaces or adds a document,
`update` changes one that is there and fails on one that is not, `delete`
removes one, and a query lists them all. The order of the list is not
specified; here a document written last stands first.

Key definitions: `Collection`, `Collection.get`, `Collection.set`,
`Collection.update`, `Collection.count`.
Key theorems: `get_set_self`, `get_set_ne`, `mem_toList`, `flatMap_filter_toList`,
`count_set`.
-/
import Mathlib.Data.List.AList
import Mathlib.Tactic.Common

namespace DocStore

/-- Documents of type `δ` under distinct ids, none of them empty. -/
structure Collection (δ : Type*) where
  docs : AList fun _ : String => δ
  named : "" ∉ docs

namespace Collection

variable {δ : Type*}

def empty : Collection δ := ⟨∅, AList.notMem_empty _⟩

def get (c : Collection δ) (id : String) : Option δ := c.docs.lookup id

/-- What a query of the whole collection returns. -/
def toList (c : Collection δ) : List (String × δ) := c.docs.entries.map fun e => (e.1, e.2)

/-- Writes the document `d` under `id`, whatever is there. The database
refuses an empty id. -/
def set (c : Collection δ) (id : String) (d : δ) : Collection δ :=
  if h : id = "" then c
  else ⟨c.docs.insert id d, by simpa [AList.mem_insert, Ne.symm h] using c.named⟩

/-- Changes the document under `id`; there must be one. -/
def update (c : Collection δ) (id : String) (f : δ → δ) : Option (Collection δ) :=
  (c.get id).map fun d => c.set id (f d)

def delete (c : Collection δ) (id : String) : Collection δ :=
  ⟨c.docs.erase id, fun h => c.named (AList.mem_erase.mp h).2⟩

/-- The number of documents that satisfy `p`. -/
def count (p : δ → Bool) (c : Collection δ) : ℕ := c.toList.countP fun e => p e.2

def size (c : Collection δ) : ℕ := c.toList.length

@[simp] theorem get_empty (id : String) : (empty : Collection δ).get id = none := AList.lookup_empty _

@[simp] theorem get_noId (c : Collection δ) : c.get "" = none :=
  AList.lookup_eq_none.mpr c.named

theorem ne_of_get {c : Collection δ} {id : String} {d : δ} (h : c.get id = some d) : id ≠ "" := by
  rintro rfl
  simp at h

theorem get_set_self (c : Collection δ) {id : String} (d : δ) (h : id ≠ "") :
    (c.set id d).get id = some d := by
  simp [set, get, h]

theorem get_set_ne (c : Collection δ) {id id' : String} (d : δ) (h : id' ≠ id) :
    (c.set id d).get id' = c.get id' := by
  unfold set
  split
  · rfl
  · exact AList.lookup_insert_ne h

theorem get_set (c : Collection δ) {id : String} (id' : String) (d : δ) (h : id ≠ "") :
    (c.set id d).get id' = if id' = id then some d else c.get id' := by
  by_cases hi : id' = id
  · rw [if_pos hi, hi, get_set_self c d h]
  · rw [if_neg hi, get_set_ne c d hi]

/-- After a `set` there is a document more, and none less. -/
theorem isSome_get_set (c : Collection δ) {id : String} (d : δ) (h : id ≠ "") (id' : String) :
    ((c.set id d).get id').isSome ↔ (c.get id').isSome ∨ id = id' := by
  rw [get_set _ _ _ h]
  by_cases heq : id' = id
  · simp [heq]
  · simp [heq, Ne.symm heq]

theorem isSome_get_set_of (c : Collection δ) (id : String) (d : δ) {id' : String}
    (h : (c.get id').isSome) : ((c.set id d).get id').isSome := by
  by_cases hid : id = ""
  · rwa [set, dif_pos hid]
  · exact (isSome_get_set c d hid id').mpr (.inl h)

theorem get_delete_self (c : Collection δ) (id : String) : (c.delete id).get id = none :=
  AList.lookup_erase _ _

theorem get_delete_ne (c : Collection δ) {id id' : String} (h : id' ≠ id) :
    (c.delete id).get id' = c.get id' := AList.lookup_erase_ne h

/-- What holds of every document holds after a document like that is written. -/
theorem forall_set {c : Collection δ} {P : String → δ → Prop} (h : ∀ id d, c.get id = some d → P id d)
    {id : String} {d : δ} (hd : P id d) : ∀ id' d', (c.set id d).get id' = some d' → P id' d' := by
  intro id' d' hget
  by_cases hid : id = ""
  · rw [set, dif_pos hid] at hget
    exact h id' d' hget
  · rw [get_set c id' d hid] at hget
    split at hget
    · rename_i heq
      rw [heq, ← Option.some.inj hget]
      exact hd
    · exact h id' d' hget

theorem forall_delete {c : Collection δ} {P : String → δ → Prop} (h : ∀ id d, c.get id = some d → P id d)
    (id : String) : ∀ id' d', (c.delete id).get id' = some d' → P id' d' := by
  intro id' d' hget
  by_cases hid : id' = id
  · rw [hid, get_delete_self] at hget
    cases hget
  · rw [get_delete_ne c hid] at hget
    exact h id' d' hget

/-- What an update does, where it succeeds. -/
theorem update_eq_some {c c' : Collection δ} {id : String} {f : δ → δ} (h : c.update id f = some c') :
    ∃ d, c.get id = some d ∧ c' = c.set id (f d) := by
  obtain ⟨d, hd, rfl⟩ := Option.map_eq_some_iff.mp h
  exact ⟨d, hd, rfl⟩

theorem get_update_self {c c' : Collection δ} {id : String} {f : δ → δ}
    (h : c.update id f = some c') : c'.get id = (c.get id).map f := by
  obtain ⟨d, hd, rfl⟩ := update_eq_some h
  rw [get_set_self c _ (ne_of_get hd), hd]
  rfl

theorem get_update_ne {c c' : Collection δ} {id id' : String} {f : δ → δ}
    (h : c.update id f = some c') (hi : id' ≠ id) : c'.get id' = c.get id' := by
  obtain ⟨d, hd, rfl⟩ := update_eq_some h
  exact get_set_ne c _ hi

theorem update_isSome {c : Collection δ} {id : String} {d : δ} (h : c.get id = some d) (f : δ → δ) :
    c.update id f = some (c.set id (f d)) := by
  simp [update, h]

theorem nodup_ids (c : Collection δ) : (c.toList.map Prod.fst).Nodup := by
  have h := c.docs.nodupKeys
  rw [List.NodupKeys, List.keys] at h
  simpa [toList, List.map_map, Function.comp_def] using h

/-- A query lists exactly the documents that are there. -/
theorem mem_toList {c : Collection δ} {id : String} {d : δ} :
    (id, d) ∈ c.toList ↔ c.get id = some d := by
  have h : (⟨id, d⟩ : Σ _ : String, δ) ∈ c.docs.entries ↔ c.get id = some d :=
    AList.mem_lookup_iff.symm
  rw [← h]
  simp only [toList, List.mem_map]
  constructor
  · rintro ⟨⟨id', d'⟩, he, heq⟩
    obtain ⟨rfl, rfl⟩ := Prod.mk.inj heq
    exact he
  · exact fun he => ⟨_, he, rfl⟩

/-! ### Counting documents and joining with them -/

theorem toList_delete (c : Collection δ) (id : String) :
    (c.delete id).toList = (c.docs.entries.kerase id).map fun e => (e.1, e.2) := rfl

theorem toList_set (c : Collection δ) {id : String} (d : δ) (h : id ≠ "") :
    (c.set id d).toList = (id, d) :: (c.delete id).toList := by
  rw [toList_delete]
  simp [set, h, toList, AList.insert, List.kinsert]

theorem toList_perm {c : Collection δ} {id : String} {d : δ} (h : c.get id = some d) :
    c.toList.Perm ((id, d) :: (c.delete id).toList) := by
  have hk : id ∈ c.docs.entries.keys := by
    by_contra hn
    have h0 : c.docs.lookup id = none := AList.lookup_eq_none.mpr hn
    rw [get, h0] at h
    cases h
  obtain ⟨d', l₁, l₂, -, hl, he⟩ := List.exists_of_kerase hk
  have hd : (⟨id, d'⟩ : Σ _ : String, δ) ∈ c.docs.entries := by rw [hl]; simp
  have hd' : c.get id = some d' := AList.mem_lookup_iff.mpr hd
  obtain rfl : d' = d := Option.some.inj (hd'.symm.trans h)
  have hdel : (c.delete id).toList = (l₁ ++ l₂).map fun e => (e.1, e.2) := by
    rw [toList_delete, he]
  rw [hdel, toList, hl]
  simp only [List.map_append, List.map_cons]
  exact List.perm_middle

theorem delete_of_none {c : Collection δ} {id : String} (h : c.get id = none) :
    (c.delete id).toList = c.toList := by
  have hk : id ∉ c.docs.entries.keys := AList.lookup_eq_none.mp h
  rw [toList_delete, List.kerase_of_notMem_keys hk]
  rfl

/-- Looking for an id in a query's result finds its document. -/
theorem filter_toList (c : Collection δ) (id : String) :
    (c.toList.filter fun e => id = e.1) = (c.get id).toList.map fun d => (id, d) := by
  have hdel : ∀ c' : Collection δ, c'.get id = none → (c'.toList.filter fun e => id = e.1) = [] := by
    intro c' h
    rw [List.filter_eq_nil_iff]
    rintro ⟨id', d⟩ hmem heq
    obtain rfl := of_decide_eq_true heq
    rw [mem_toList, h] at hmem
    cases hmem
  cases hg : c.get id with
  | none => exact hdel c hg
  | some d =>
    have hp := (toList_perm hg).filter fun e => id = e.1
    rw [List.filter_cons_of_pos (by simp), hdel _ (get_delete_self c id)] at hp
    exact List.perm_singleton.mp hp

/-- A nested-loop join with a collection is a lookup of every key. -/
theorem flatMap_filter_toList {β : Type*} (c : Collection δ) (f : String × δ → β) (ids : List String) :
    (ids.flatMap fun id => (c.toList.filter fun e => id = e.1).map f) =
      ids.filterMap fun id => (c.get id).map fun d => f (id, d) := by
  induction ids with
  | nil => rfl
  | cons id ids ih =>
    rw [List.flatMap_cons, ih, filter_toList, List.filterMap_cons]
    cases c.get id <;> rfl

/-- Replacing a document moves it in or out of a count. -/
theorem count_set (p : δ → Bool) {c : Collection δ} {id : String} {d : δ} (h : c.get id = some d)
    (d' : δ) : (c.set id d').count p + (if p d then 1 else 0) = c.count p + (if p d' then 1 else 0) := by
  have h1 := (toList_perm h).countP_eq fun e => p e.2
  simp only [count, h1, toList_set c d' (ne_of_get h), List.countP_cons]
  omega

theorem size_set_new {c : Collection δ} {id : String} (hid : id ≠ "") (h : c.get id = none) (d : δ) :
    (c.set id d).size = c.size + 1 := by
  simp [size, toList_set c d hid, delete_of_none h]

theorem size_set_old {c : Collection δ} {id : String} {d : δ} (h : c.get id = some d) (d' : δ) :
    (c.set id d').size = c.size := by
  simp [size, toList_set c d' (ne_of_get h), (toList_perm h).length_eq]

end Collection
end DocStore
