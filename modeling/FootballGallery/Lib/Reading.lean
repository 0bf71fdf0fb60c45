/-
# Reading items until one fails

A loop that reads the items of a list one after the other, under a handler that
catches some failures: what was read before the failure is kept, and a failure
that is not caught ends everything. The result is the entries of the longest
prefix of items that can be read, unless the first other item fails in the wrong
way.

Key definitions: `collect`, `Longest`, `UpToFirst`.
Key theorems: `longest_of_collect`, `collect_isOk_iff`, `collect_longest_iff`.
-/
import Mathlib.Tactic.Common

namespace Reading

variable {α β ε : Type*}

/-- The entries of the items before the first one that fails, unless it fails with
something that is not caught. -/
def collect (read : α → Except ε β) (caught : ε → Bool) : List α → Except ε (List β)
  | [] => .ok []
  | a :: items =>
    match read a with
    | .ok b => (collect read caught items).map (b :: ·)
    | .error e => if caught e then .ok [] else .error e

/-- The entries of the longest prefix of items that have one. -/
inductive Longest (R : α → β → Prop) : List α → List β → Prop
  | nil : Longest R [] []
  | stop {a : α} (items : List α) (h : ∀ b, ¬ R a b) : Longest R (a :: items) []
  | cons {a : α} {b : β} {items : List α} {l : List β} (h : R a b) (hl : Longest R items l) :
    Longest R (a :: items) (b :: l)

/-- Every item before the first one without `P` has `Q`, and that one, if there is one,
has `S`. -/
def UpToFirst (P Q S : α → Prop) : List α → Prop
  | [] => True
  | a :: items => (P a → Q a ∧ UpToFirst P Q S items) ∧ (¬ P a → S a)

theorem upToFirst_congr {P Q S P' Q' S' : α → Prop} {items : List α} (hP : ∀ a, P a ↔ P' a)
    (hQ : ∀ a, P a → (Q a ↔ Q' a)) (hS : ∀ a, ¬ P a → (S a ↔ S' a)) :
    UpToFirst P Q S items ↔ UpToFirst P' Q' S' items := by
  induction items with
  | nil => exact Iff.rfl
  | cons a items ih =>
    unfold UpToFirst
    rw [← hP a]
    refine and_congr (forall_congr' fun hp => ?_) (forall_congr' fun hp => hS a hp)
    rw [hQ a hp, ih]

theorem upToFirst_of_forall {P Q S : α → Prop} (hQ : ∀ a, Q a) (hS : ∀ a, S a) (items : List α) :
    UpToFirst P Q S items := by
  induction items with
  | nil => trivial
  | cons a items ih => exact ⟨fun _ => ⟨hQ a, ih⟩, fun _ => hS a⟩

/-- What the loop returns is never anything else. -/
theorem longest_of_collect {read : α → Except ε β} {caught : ε → Bool} {R : α → β → Prop}
    (hread : ∀ a b, read a = .ok b ↔ R a b) {items : List α} {l : List β} (h : collect read caught items = .ok l) :
    Longest R items l := by
  induction items generalizing l with
  | nil =>
    obtain rfl := Except.ok.inj h
    exact .nil
  | cons a items ih =>
    unfold collect at h
    cases hb : read a with
    | ok b =>
      rw [hb] at h
      cases hl : collect read caught items with
      | error e =>
        rw [hl] at h
        cases h
      | ok l' =>
        rw [hl] at h
        obtain rfl := Except.ok.inj h
        exact .cons ((hread a b).mp hb) (ih hl)
    | error e =>
      rw [hb] at h
      have hl : (if caught e then Except.ok [] else .error e) = .ok l := h
      split at hl
      · obtain rfl := Except.ok.inj hl
        exact .stop items fun b hR => nomatch hb.symm.trans ((hread a b).mpr hR)
      · cases hl

/-- Whether the loop returns, and entries in `D` only. -/
theorem collect_isOk_iff {read : α → Except ε β} {caught : ε → Bool} {R : α → β → Prop}
    (hread : ∀ a b, read a = .ok b ↔ R a b) (D : β → Prop) (items : List α) :
    (∃ l, collect read caught items = .ok l ∧ ∀ b ∈ l, D b) ↔
      UpToFirst (fun a => ∃ b, R a b) (fun a => ∀ b, R a b → D b)
        (fun a => ∀ e, read a = .error e → caught e = true) items := by
  induction items with
  | nil => exact iff_of_true ⟨[], rfl, by simp⟩ trivial
  | cons a items ih =>
    unfold UpToFirst collect
    cases hb : read a with
    | ok b =>
      have hR := (hread a b).mp hb
      have honly : ∀ b', R a b' ↔ b = b' := fun b' => by
        rw [← hread, hb]
        exact ⟨Except.ok.inj, congrArg _⟩
      simp only [honly, exists_eq', forall_eq', true_implies, not_true_eq_false, false_implies, and_true, ← ih]
      cases hl : collect read caught items with
      | error e => exact iff_of_false nofun fun ⟨_, _, h, _⟩ => nomatch h
      | ok l =>
        constructor
        · rintro ⟨l', hl', hD⟩
          obtain rfl := Except.ok.inj hl'
          exact ⟨hD b List.mem_cons_self, l, rfl, fun c hc => hD c (List.mem_cons_of_mem _ hc)⟩
        · rintro ⟨hDb, l', hl', hD⟩
          obtain rfl := Except.ok.inj hl'
          exact ⟨b :: l, rfl, List.forall_mem_cons.mpr ⟨hDb, hD⟩⟩
    | error e =>
      have hno : ¬ ∃ b, R a b := by
        rintro ⟨b, hR⟩
        exact nomatch hb.symm.trans ((hread a b).mpr hR)
      simp only [hno, false_implies, not_false_eq_true, true_implies, true_and, Except.error.injEq, forall_eq']
      cases caught e with
      | true => exact iff_of_true ⟨[], rfl, by simp⟩ rfl
      | false => exact iff_of_false nofun nofun

/-- **The loop returns the entries of the longest prefix, all of them in `D`, exactly
when** those of the prefix are in `D` and the first other item fails with something that
is caught. -/
theorem collect_longest_iff {read : α → Except ε β} {caught : ε → Bool} {R : α → β → Prop}
    (hread : ∀ a b, read a = .ok b ↔ R a b) (D : β → Prop) (items : List α) :
    (∃ l, collect read caught items = .ok l ∧ Longest R items l ∧ ∀ b ∈ l, D b) ↔
      UpToFirst (fun a => ∃ b, R a b) (fun a => ∀ b, R a b → D b)
        (fun a => ∀ e, read a = .error e → caught e = true) items := by
  rw [← collect_isOk_iff hread]
  exact exists_congr fun l => and_congr_right fun hl => and_iff_right (longest_of_collect hread hl)

end Reading
