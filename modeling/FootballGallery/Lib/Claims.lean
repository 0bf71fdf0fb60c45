/-
# Labels, claims and journals

A message carries the label that its client had when it was sent. While a
client's label, or the part of it that matters, changes only when none of its
messages is under way, every message has the label that its client has now.

A flow that has been told that a name is free, and goes on to take it, claims
the name until it has written. Claims of different owners keep apart as long
as nothing makes a claim that another owner's claim disputes.

A journal beside the store has what the backend has answered.

Key definitions: `steady`, `OneOwner`, `Undisputed`, `App.journaling`.
Key theorems: `Reach.knowing`, `Reach.labelled`, `OneOwner.more`.
-/
import FootballGallery.Lib.Views

namespace Async

variable {σ C Q R A τ : Type*} {app : App σ C Q R A τ}

/-- A run may use what holds in all its states. -/
theorem Reach.knowing {ok : Conf σ C Q R τ → Ev A → Prop} {s₀ s : Conf σ C Q R τ}
    {P : Conf σ C Q R τ → Prop} (hP : ∀ s, Reach app ok s₀ s → P s) (h : Reach app ok s₀ s) :
    Reach app (fun s e => ok s e ∧ P s) s₀ s := by
  induction h with
  | init => exact .init
  | step h ho hs ih => exact .step ih ⟨ho, hP _ h⟩ hs

/-! ### Labels -/

section Labels

variable {κ : Type*} [DecidableEq κ]

/-- No message of client `i` is under way. -/
def idle (s : Conf σ C Q R τ) (i : ℕ) : Bool := s.net.all (·.client != i)

/-- The user changes the part `part` of the client's label only when nothing is under way. -/
def steady (app : App σ C Q R A τ) (part : τ → κ) (s : Conf σ C Q R τ) : Ev A → Bool
  | .act i a =>
    (s.client i).all fun c => (app.act c a).all fun r => part (app.tag r.1) == part (app.tag c) || idle s i
  | _ => true

theorem ne_of_idle {s : Conf σ C Q R τ} {i : ℕ} (h : idle s i = true) {m : Msg Q R τ} (hm : m ∈ s.net) :
    m.client ≠ i := by
  simpa using List.all_eq_true.mp h m hm

theorem views_labelled {part : τ → κ}
    (hrecv : ∀ c r c' qs, app.recv c r = some (c', qs) → part (app.tag c') = part (app.tag c)) :
    Views app (fun s e => steady app part s e = true) (fun _ => True) (fun _ _ => True) (fun _ _ => True)
      (fun c m => part m.tag = part (app.tag c)) where
  act s i a c c' qs ho hc ha _ _ := by
    refine ⟨trivial, fun q _ => ⟨trivial, rfl⟩, fun m hm hi hlabel => ?_⟩
    simp only [steady, hc, ha, Option.all_some, Bool.or_eq_true, beq_iff_eq] at ho
    rcases ho with hsame | hidle
    · exact hlabel.trans hsame.symm
    · exact absurd hi (ne_of_idle hidle hm)
  exec s n b i t q st out _ _ _ _ _ :=
    ⟨trivial, fun _ _ => trivial, fun _ _ _ => trivial, fun _ _ => ⟨trivial, fun _ => id⟩⟩
  recv s n i t r c c' qs _ _ _ hr _ _ _ _ := by
    have hsame := hrecv c r c' qs hr
    exact ⟨trivial, fun q _ => ⟨trivial, rfl⟩, fun m _ _ hlabel => hlabel.trans hsame.symm⟩

/-- Every message has the label that its client has. -/
theorem Reach.labelled {part : τ → κ} {ok : Conf σ C Q R τ → Ev A → Prop} {s₀ s : Conf σ C Q R τ}
    (hrecv : ∀ c r c' qs, app.recv c r = some (c', qs) → part (app.tag c') = part (app.tag c))
    (hok : ∀ s e, ok s e → steady app part s e = true)
    (h0 : Fit (fun c m => part m.tag = part (app.tag c)) s₀.client s₀.net) (h : Reach app ok s₀ s) :
    Fit (fun c m => part m.tag = part (app.tag c)) s.client s.net :=
  ((views_labelled hrecv).reach ⟨trivial, fun _ _ _ => trivial, fun _ _ => trivial, h0⟩ (h.mono hok)).fits

end Labels

/-! ### Claims -/

section Claims

variable {μ ν κ : Type*} {claim : μ → Option (ν × κ)} {net net' : List μ} {o : Option (ν × κ)}

/-- No message of `net` claims the name of `x` for another owner. -/
def Undisputed (claim : μ → Option (ν × κ)) (net : List μ) (x : ν × κ) : Prop :=
  ∀ m ∈ net, ∀ y ∈ claim m, y.1 = x.1 → y.2 = x.2

/-- No two messages claim one name for two owners. -/
def OneOwner (claim : μ → Option (ν × κ)) (net : List μ) : Prop :=
  ∀ m ∈ net, ∀ x ∈ claim m, Undisputed claim net x

theorem OneOwner.nil : OneOwner claim [] := fun m hm => by cases hm

/-- What is new claims at most one name, and nobody disputes it. -/
theorem OneOwner.more (h : OneOwner claim net)
    (hnet : ∀ m ∈ net', m ∈ net ∨ ∀ y ∈ claim m, o = some y ∧ Undisputed claim net y) :
    OneOwner claim net' := by
  intro m hm y hy m' hm' y' hy' hname
  rcases hnet m hm with hold | hnew
  · rcases hnet m' hm' with hold' | hnew'
    · exact h m hold y hy m' hold' y' hy' hname
    · exact ((hnew' y' hy').2 m hold y hy hname.symm).symm
  · rcases hnet m' hm' with hold' | hnew'
    · exact (hnew y hy).2 m' hold' y' hy' hname
    · have hsame := (hnew' y' hy').1.symm.trans (hnew y hy).1
      rw [Option.some.inj hsame]

theorem OneOwner.sub (h : OneOwner claim net) (hnet : ∀ m ∈ net', m ∈ net) : OneOwner claim net' :=
  fun m hm x hx m' hm' => h m (hnet m hm) x hx m' (hnet m' hm')

end Claims

/-! ### Journals -/

section Journals

variable {ε : Type*}

/-- The app with a journal beside its store, of what `entry` says of a request and
of what its listener does. No function reads it. -/
def App.journaling (app : App σ C Q R A τ) (entry : Q → List (Q ⊕ R) → Option ε) :
    App (σ × List ε) C Q R A τ where
  act := app.act
  exec ok s q := (app.exec ok s.1 q).map fun r => ((r.1, (entry q r.2).toList ++ s.2), r.2)
  recv := app.recv
  tag := app.tag

theorem App.exec_journaling {entry : Q → List (Q ⊕ R) → Option ε} {ok : Bool} {s s' : σ × List ε} {q : Q}
    {out : List (Q ⊕ R)} (h : (app.journaling entry).exec ok s q = some (s', out)) :
    app.exec ok s.1 q = some (s'.1, out) ∧ s'.2 = (entry q out).toList ++ s.2 := by
  obtain ⟨x, hx, heq⟩ := Option.map_eq_some_iff.mp h
  obtain ⟨rfl, rfl⟩ := Prod.mk.inj heq
  exact ⟨hx, rfl⟩

end Journals
end Async
