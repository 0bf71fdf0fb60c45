/-
# Who has reacted

A user's reactions are in the arrays of the user's document; the number of
reactions to a post or a comment is the number of users whose array has its
id. `arrayUnion` and `arrayRemove` change at most the count they are about, by
one, and not at all where the user had reacted already, or had not.

Key definitions: `reactors`.
Key theorems: `reactors_union`, `reactors_union_again`, `reactors_remove`,
`reactors_other`.
-/
import FootballGallery.DBUtil

namespace FootballGallery

open DocStore

theorem ArrayOp.mem_apply {op : ArrayOp} {v x : String} {l : List String} :
    x ∈ op.apply v l ↔ if x = v then op = .union else x ∈ l := by
  cases op with
  | union =>
    unfold ArrayOp.apply
    by_cases hx : x = v
    · rw [if_pos hx, hx]
      by_cases hv : v ∈ l
      · simp [hv]
      · simp [hv]
    · rw [if_neg hx]
      by_cases hv : v ∈ l
      · simp [hv]
      · simp [hv, hx]
  | remove =>
    unfold ArrayOp.apply
    by_cases hx : x = v
    · simp [hx]
    · simp [hx]

theorem UserDoc.array_updateArray (d : UserDoc) (f g : UserArray) (op : ArrayOp) (v : String) :
    (d.updateArray f op v).array g = if g = f then op.apply v (d.array f) else d.array g := by
  cases f <;> cases g <;> rfl

/-- The number of users whose array `f` has the id `k`. -/
def reactors (db : Database) (f : UserArray) (k : String) : ℕ :=
  db.users.count fun u => decide (k ∈ u.array f)

theorem reactors_eq_zero {db : Database} {f : UserArray} (h : ∀ e ∈ db.users.toList, e.2.array f = [])
    (k : String) : reactors db f k = 0 := by
  refine List.countP_eq_zero.mpr fun e he => ?_
  simp [h e he]

section Update

variable {db : Database} {us : Collection UserDoc} {id v k : String} {f g : UserArray} {op : ArrayOp}

/-- The user's document before and after the update, and what it changes of a count. -/
theorem reactors_update (hu : db.users.update id (·.updateArray f op v) = some us) :
    ∃ d, db.users.get id = some d ∧ us.get id = some (d.updateArray f op v) ∧ ∀ g k,
      reactors { db with users := us } g k + (if k ∈ d.array g then 1 else 0) =
        reactors db g k + (if k ∈ (d.updateArray f op v).array g then 1 else 0) := by
  obtain ⟨d, hd, rfl⟩ := Collection.update_eq_some hu
  refine ⟨d, hd, Collection.get_set_self _ _ (Collection.ne_of_get hd), fun g k => ?_⟩
  have hcount := Collection.count_set (fun u => decide (k ∈ u.array g)) hd (d.updateArray f op v)
  simp only [decide_eq_true_eq] at hcount
  exact hcount

theorem reactors_other (hu : db.users.update id (·.updateArray f op v) = some us) (h : g ≠ f ∨ k ≠ v) :
    reactors { db with users := us } g k = reactors db g k := by
  obtain ⟨d, -, -, hcount⟩ := reactors_update hu
  have hsame : k ∈ (d.updateArray f op v).array g ↔ k ∈ d.array g := by
    rw [UserDoc.array_updateArray]
    by_cases hg : g = f
    · rw [if_pos hg, ArrayOp.mem_apply, if_neg (h.resolve_left (not_not_intro hg)), hg]
    · rw [if_neg hg]
  have hk := hcount g k
  simp only [hsame] at hk
  omega

/-- A user who had not reacted is one more. -/
theorem reactors_union (hu : db.users.update id (·.updateArray f .union v) = some us)
    (hnot : ∀ d, db.users.get id = some d → v ∉ d.array f) :
    reactors { db with users := us } f v = reactors db f v + 1 := by
  obtain ⟨d, hd, -, hcount⟩ := reactors_update hu
  have hin : v ∈ (d.updateArray f .union v).array f := by
    rw [UserDoc.array_updateArray, if_pos rfl, ArrayOp.mem_apply, if_pos rfl]
  have hv := hcount f v
  rw [if_neg (hnot d hd), if_pos hin] at hv
  omega

/-- A user who had reacted is counted already. -/
theorem reactors_union_again (hu : db.users.update id (·.updateArray f .union v) = some us)
    (hin : ∀ d, db.users.get id = some d → v ∈ d.array f) :
    reactors { db with users := us } f v = reactors db f v := by
  obtain ⟨d, hd, -, hcount⟩ := reactors_update hu
  have hin' : v ∈ (d.updateArray f .union v).array f := by
    rw [UserDoc.array_updateArray, if_pos rfl, ArrayOp.mem_apply, if_pos rfl]
  have hv := hcount f v
  rw [if_pos (hin d hd), if_pos hin'] at hv
  omega

/-- A user who takes a reaction back is one less. -/
theorem reactors_remove (hu : db.users.update id (·.updateArray f .remove v) = some us)
    (hin : ∀ d, db.users.get id = some d → v ∈ d.array f) :
    reactors { db with users := us } f v + 1 = reactors db f v := by
  obtain ⟨d, hd, -, hcount⟩ := reactors_update hu
  have hout : v ∉ (d.updateArray f .remove v).array f := by
    rw [UserDoc.array_updateArray, if_pos rfl, ArrayOp.mem_apply, if_pos rfl]
    exact ArrayOp.noConfusion
  have hv := hcount f v
  rw [if_pos (hin d hd), if_neg hout] at hv
  omega

/-- Whether a user has reacted to something else stays as it is. -/
theorem mem_array_update (hu : db.users.update id (·.updateArray f op v) = some us) (hk : k ≠ v)
    {id' : String} {P : Prop → Prop} (h : ∀ d, db.users.get id' = some d → P (k ∈ d.array g)) :
    ∀ d, us.get id' = some d → P (k ∈ d.array g) := by
  obtain ⟨d, hd, hd', -⟩ := reactors_update hu
  intro d₁ hd₁
  by_cases hid : id' = id
  · rw [hid] at h hd₁
    obtain rfl := Option.some.inj (hd'.symm.trans hd₁)
    have hsame : (k ∈ (d.updateArray f op v).array g) = (k ∈ d.array g) := by
      rw [UserDoc.array_updateArray]
      by_cases hg : g = f
      · rw [if_pos hg, ArrayOp.mem_apply, if_neg hk, hg]
      · rw [if_neg hg]
    rw [hsame]
    exact h d hd
  · rw [Collection.get_update_ne hu hid] at hd₁
    exact h d₁ hd₁

end Update
end FootballGallery
