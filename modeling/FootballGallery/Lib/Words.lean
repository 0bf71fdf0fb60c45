/-
# Words

A text is split at a separator, and the empty words at its end are dropped. What
is left is the text without the separators at its end, and the first words with
a separator after each are, but for the last separator, a prefix of the text.

Another split leaves all empty words out; it finds no word in a text of separators
only.

Key definitions: `words`, `ended`, `pieces`.
Key theorems: `intercalate_words`, `ended_eq`, `words_getElem_zero`, `ended_take_words`,
`pieces_eq_nil_iff`.
-/
import Mathlib.Data.List.DropRight
import Mathlib.Data.List.TakeWhile
import Mathlib.Tactic.Common

namespace Words

variable {α : Type*} {sep : α} {us vs ws : List (List α)}

/-- The words with a separator after each. -/
def ended (sep : α) (ws : List (List α)) : List α := ws.flatMap (· ++ [sep])

theorem intercalate_append (h : vs ≠ []) :
    [sep].intercalate (us ++ vs) = ended sep us ++ [sep].intercalate vs := by
  induction us with
  | nil => rfl
  | cons u us ih =>
    have hne : us ++ vs ≠ [] := fun hnil => h (List.append_eq_nil_iff.mp hnil).2
    rw [List.cons_append, List.intercalate_cons_of_ne_nil hne, ih]
    simp [ended]

theorem ended_eq (h : ws ≠ []) : ended sep ws = [sep].intercalate ws ++ [sep] := by
  obtain ⟨vs, w, rfl⟩ := (List.eq_nil_or_concat' ws).resolve_left h
  have hw : [w] ≠ [] := List.cons_ne_nil w []
  rw [intercalate_append hw, List.intercalate_singleton]
  unfold ended
  rw [List.flatMap_append, List.flatMap_singleton, List.append_assoc]

/-- The first words are where the text starts. -/
theorem intercalate_isPrefix (h : us ≠ []) : [sep].intercalate us <+: [sep].intercalate (us ++ vs) := by
  by_cases hvs : vs = []
  · refine ⟨[], ?_⟩
    rw [hvs, List.append_nil, List.append_nil]
  · rw [intercalate_append hvs, ended_eq h, List.append_assoc]
    exact List.prefix_append _ _

section Split

variable [DecidableEq α] {xs : List α}

/-- The words of a text that is split at `sep`, without the empty ones at its end; a
text without a separator is one word. -/
def words (sep : α) (xs : List α) : List (List α) :=
  if sep ∈ xs then (xs.splitOn sep).rdropWhile (·.isEmpty) else [xs]

/-- To drop the empty words at the end is to drop the separators at the end. -/
theorem intercalate_rdropWhile (h : ∀ w ∈ ws, sep ∉ w) :
    [sep].intercalate (ws.rdropWhile (·.isEmpty)) = ([sep].intercalate ws).rdropWhile (· = sep) := by
  induction ws using List.reverseRecOn with
  | nil => rfl
  | append_singleton ws w ih =>
    have hws := ih fun v hv => h v (List.mem_append_left _ hv)
    rcases List.eq_nil_or_concat' w with rfl | ⟨v, c, rfl⟩
    · rw [List.rdropWhile_concat_pos (fun w => w.isEmpty) ws [] rfl, hws]
      cases ws with
      | nil => rfl
      | cons v ws =>
        rw [intercalate_append (by simp), ended_eq (by simp), List.intercalate_singleton, List.append_nil,
          List.rdropWhile_concat_pos (fun c => decide (c = sep)) _ sep (decide_eq_true rfl)]
    · have hc : c ≠ sep := fun hc => h _ (List.mem_append_right _ (List.mem_singleton_self _)) (by simp [hc])
      rw [List.rdropWhile_concat_neg _ _ _ (by simp), intercalate_append (by simp), List.intercalate_singleton,
        ← List.append_assoc, List.rdropWhile_concat_neg _ _ _ (by simp [hc])]

theorem not_mem_of_mem_splitOn {w : List α} (h : w ∈ xs.splitOn sep) : sep ∉ w := by
  induction xs generalizing w with
  | nil =>
    rw [List.splitOn_nil, List.mem_singleton] at h
    simp [h]
  | cons x xs ih =>
    rw [List.splitOn_cons_eq_if_modifyHead] at h
    split at h
    · rcases List.mem_cons.mp h with rfl | h
      · simp
      · exact ih h
    · rename_i hx
      obtain ⟨v, vs, hv⟩ := List.exists_cons_of_ne_nil (List.splitOn_ne_nil sep xs)
      rw [hv, List.modifyHead_cons] at h
      rcases List.mem_cons.mp h with rfl | h
      · have hv := ih (hv ▸ List.mem_cons_self)
        simpa [hv] using fun h : sep = x => hx (beq_iff_eq.mpr h.symm)
      · exact ih (hv ▸ List.mem_cons_of_mem v h)

/-- **The words are the text without the separators at its end.** -/
theorem intercalate_words : [sep].intercalate (words sep xs) = xs.rdropWhile (· = sep) := by
  unfold words
  split
  · rw [intercalate_rdropWhile fun w hw => not_mem_of_mem_splitOn hw, List.intercalate_splitOn]
  · rename_i hsep
    rw [List.intercalate_singleton, List.rdropWhile_eq_self_iff.mpr]
    intro hne hlast
    exact hsep (of_decide_eq_true hlast ▸ List.getLast_mem hne)

theorem splitOn_getElem_zero (sep : α) (xs : List α) :
    (xs.splitOn sep)[0]? = some (xs.takeWhile (· ≠ sep)) := by
  induction xs with
  | nil => rw [List.splitOn_nil]; rfl
  | cons x xs ih =>
    rw [List.splitOn_cons_eq_if_modifyHead]
    obtain ⟨v, vs, hv⟩ := List.exists_cons_of_ne_nil (List.splitOn_ne_nil sep xs)
    rw [hv] at ih ⊢
    by_cases hx : x = sep
    · rw [if_pos (beq_iff_eq.mpr hx), List.takeWhile_cons_of_neg (by simp [hx])]
      rfl
    · rw [if_neg (by simp [hx]), List.takeWhile_cons_of_pos (by simp [hx]), List.modifyHead_cons]
      exact congrArg (fun w => some (x :: w)) (Option.some.inj ih)

/-- All words are empty when there are only separators. -/
theorem splitOn_all_nil_iff : (∀ w ∈ xs.splitOn sep, w = []) ↔ ∀ c ∈ xs, c = sep := by
  induction xs with
  | nil => simp
  | cons x xs ih =>
    rw [List.splitOn_cons_eq_if_modifyHead]
    by_cases hx : x = sep
    · rw [if_pos (beq_iff_eq.mpr hx), List.forall_mem_cons, List.forall_mem_cons, ih]
      exact and_congr_left fun _ => iff_of_true rfl hx
    · obtain ⟨v, vs, hv⟩ := List.exists_cons_of_ne_nil (List.splitOn_ne_nil sep xs)
      rw [if_neg (by simp [hx]), hv, List.modifyHead_cons]
      refine iff_of_false (fun h => ?_) fun h => hx (h x List.mem_cons_self)
      exact absurd (h _ List.mem_cons_self) (List.cons_ne_nil x v)

/-- **The first word** is what is before the first separator; a text of separators only
has no words. -/
theorem words_getElem_zero (sep : α) (xs : List α) : (words sep xs)[0]? =
    if xs = [] ∨ ∃ c ∈ xs, c ≠ sep then some (xs.takeWhile (· ≠ sep)) else none := by
  unfold words
  by_cases hsep : sep ∈ xs
  · have hne : xs ≠ [] := List.ne_nil_of_mem hsep
    have hnil : (xs.splitOn sep).rdropWhile (·.isEmpty) = [] ↔ ∀ c ∈ xs, c = sep := by
      rw [List.rdropWhile_eq_nil_iff, ← splitOn_all_nil_iff]
      simp only [List.isEmpty_iff]
    rw [if_pos hsep]
    cases hws : (xs.splitOn sep).rdropWhile (·.isEmpty) with
    | nil =>
      have hall := hnil.mp hws
      rw [if_neg]
      · rfl
      · rintro (h | ⟨c, hc, hcsep⟩)
        · exact hne h
        · exact hcsep (hall c hc)
    | cons w ws =>
      have hsome : ∃ c ∈ xs, c ≠ sep := by
        by_contra hno
        have hall : ∀ c ∈ xs, c = sep := fun c hc => by
          by_contra hcsep
          exact hno ⟨c, hc, hcsep⟩
        rw [hnil.mpr hall] at hws
        cases hws
      obtain ⟨rest, hrest⟩ := List.rdropWhile_prefix (·.isEmpty) (xs.splitOn sep)
      rw [if_pos (.inr hsome), ← splitOn_getElem_zero, ← hrest, hws]
      rfl
  · have htake : xs.takeWhile (· ≠ sep) = xs := by
      rw [List.takeWhile_eq_self_iff]
      intro c hc
      refine decide_eq_true fun h => hsep ?_
      rwa [← h]
    have hcond : xs = [] ∨ ∃ c ∈ xs, c ≠ sep := by
      cases xs with
      | nil => exact .inl rfl
      | cons x xs => exact .inr ⟨x, List.mem_cons_self, fun h => hsep (h ▸ List.mem_cons_self)⟩
    rw [if_neg hsep, if_pos hcond, htake]
    rfl

/-- **The first words are where the text starts**, but for the last separator. -/
theorem ended_take_words {k : ℕ} (hk : 0 < k) (hlen : k ≤ (words sep xs).length) :
    (ended sep ((words sep xs).take k)).dropLast <+: xs := by
  have hne : (words sep xs).take k ≠ [] := List.ne_nil_of_length_pos (by rw [List.length_take]; omega)
  have hprefix : [sep].intercalate ((words sep xs).take k) <+: [sep].intercalate (words sep xs) := by
    have happend := @intercalate_isPrefix α sep _ ((words sep xs).drop k) hne
    rwa [List.take_append_drop] at happend
  rw [ended_eq hne, List.dropLast_concat]
  rw [intercalate_words] at hprefix
  exact hprefix.trans (List.rdropWhile_prefix _ _)

/-- The words of a text without the empty ones. -/
def pieces (sep : α) (xs : List α) : List (List α) := (xs.splitOn sep).filter (!·.isEmpty)

/-- There are none exactly when there are only separators. -/
theorem pieces_eq_nil_iff : pieces sep xs = [] ↔ ∀ c ∈ xs, c = sep := by
  unfold pieces
  rw [List.filter_eq_nil_iff, ← splitOn_all_nil_iff]
  simp

end Split

end Words
