/-
# Views that a list gives out again

A list on screen shows its items in views. It makes a view when it has none to
spare, and otherwise binds one that it has made before to another item. What a bind
does not overwrite is left from the items before, and a tap changes a view and what
is bound.

A list whose binds overwrite everything shows each item as a new view would, and two
binds of one view are enough to see whether it does. A flag that a bind only ever
clears stays cleared with the view. Where taps change the world, a note beside each
view can say what the world was when the view was bound.

Key definitions: `Adapter`, `View`, `Event`, `step`, `run`, `Keeps`, `Adapter.noting`, `Shows`, `Clears`.
Key theorems: `Keeps.run`, `run_noting`, `shows_iff_twice`, `shows_of_overwrites`, `Clears.right_iff`.
-/
import Mathlib.Data.List.Basic
import Mathlib.Tactic.Common

namespace Recycling

/-- Views `ρ` of items `ι` of a world `ω`, with taps `τ`; `none`: it throws. -/
structure Adapter (ω ι τ ρ : Type*) where
  inflate : ρ
  bind : ω → ι → ρ → Option ρ
  tap : ω → τ → ρ → Option (ω × ρ)

/-- A view and what it has been bound to, the last item first. -/
structure View (ι ρ : Type*) where
  row : ρ
  items : List ι

structure Screen (ω ι ρ : Type*) where
  world : ω
  views : List (View ι ρ)

/-- The list asks for a view of `x`, with a view to convert if it has one to spare; the
user taps on a view. -/
inductive Event (ι τ : Type*) where
  | getView (x : ι) (convertView : Option ℕ)
  | tap (k : ℕ) (t : τ)

variable {ω ι τ ρ α : Type*} (A : Adapter ω ι τ ρ)

/-- With a view that is not there nothing happens. -/
def step (s : Screen ω ι ρ) : Event ι τ → Option (Screen ω ι ρ)
  | .getView x none => (A.bind s.world x A.inflate).map fun r => { s with views := s.views ++ [⟨r, [x]⟩] }
  | .getView x (some k) =>
    match s.views[k]? with
    | none => some s
    | some v => (A.bind s.world x v.row).map fun r => { s with views := s.views.set k ⟨r, x :: v.items⟩ }
  | .tap k t =>
    match s.views[k]? with
    | none => some s
    | some v => (A.tap s.world t v.row).map fun p => ⟨p.1, s.views.set k { v with row := p.2 }⟩

def run (es : List (Event ι τ)) (s : Screen ω ι ρ) : Option (Screen ω ι ρ) := es.foldlM (step A) s

/-- The world satisfies `D` and every view `P`, whatever is bound and tapped. -/
structure Keeps (D : ω → Prop) (P : ω → View ι ρ → Prop) : Prop where
  inflate : ∀ w x r, D w → A.bind w x A.inflate = some r → P w ⟨r, [x]⟩
  bind : ∀ w x v r, D w → P w v → A.bind w x v.row = some r → P w ⟨r, x :: v.items⟩
  tap : ∀ w t v w' r, D w → P w v → A.tap w t v.row = some (w', r) →
    D w' ∧ P w' { v with row := r } ∧ ∀ u, P w u → P w' u

variable {A} {D : ω → Prop} {P : ω → View ι ρ → Prop} {s s' : Screen ω ι ρ}

theorem Keeps.step (hk : Keeps A D P) (hD : D s.world) (hP : ∀ v ∈ s.views, P s.world v) {e : Event ι τ}
    (h : step A s e = some s') : D s'.world ∧ ∀ v ∈ s'.views, P s'.world v := by
  cases e with
  | getView x convertView =>
    cases convertView with
    | none =>
      obtain ⟨r, hr, rfl⟩ := Option.map_eq_some_iff.mp h
      refine ⟨hD, fun v hv => ?_⟩
      rcases List.mem_append.mp hv with hv | hv
      · exact hP v hv
      · obtain rfl := List.mem_singleton.mp hv
        exact hk.inflate _ _ _ hD hr
    | some k =>
      unfold Recycling.step at h
      dsimp only at h
      split at h
      · obtain rfl := Option.some.inj h
        exact ⟨hD, hP⟩
      · rename_i v hv
        obtain ⟨r, hr, rfl⟩ := Option.map_eq_some_iff.mp h
        refine ⟨hD, fun u hu => ?_⟩
        rcases List.mem_or_eq_of_mem_set hu with hu | rfl
        · exact hP u hu
        · exact hk.bind _ _ _ _ hD (hP v (List.mem_of_getElem? hv)) hr
  | tap k t =>
    unfold Recycling.step at h
    dsimp only at h
    split at h
    · obtain rfl := Option.some.inj h
      exact ⟨hD, hP⟩
    · rename_i v hv
      obtain ⟨⟨w', r⟩, hr, rfl⟩ := Option.map_eq_some_iff.mp h
      obtain ⟨hD', hown, hothers⟩ := hk.tap _ _ _ _ _ hD (hP v (List.mem_of_getElem? hv)) hr
      refine ⟨hD', fun u hu => ?_⟩
      rcases List.mem_or_eq_of_mem_set hu with hu | rfl
      · exact hothers u (hP u hu)
      · exact hown

/-- What every step keeps holds at the end of a run. -/
theorem Keeps.run (hk : Keeps A D P) (hD : D s.world) (hP : ∀ v ∈ s.views, P s.world v) {es : List (Event ι τ)}
    (h : run A es s = some s') : D s'.world ∧ ∀ v ∈ s'.views, P s'.world v := by
  induction es generalizing s with
  | nil =>
    obtain rfl := Option.some.inj h
    exact ⟨hD, hP⟩
  | cons e es ih =>
    obtain ⟨s₁, hs₁, h⟩ := Option.bind_eq_some_iff.mp h
    obtain ⟨hD₁, hP₁⟩ := hk.step hD hP hs₁
    exact ih hD₁ hP₁ h

/-! ### Notes -/

section Notes

variable {γ : Type*} (A) (new : γ) (bound : ω → ι → γ) (tapped : τ → γ → γ)

/-- The list with a note beside each view, made when the view is bound and kept up when
it is tapped, which no function reads. -/
def Adapter.noting : Adapter ω ι τ (ρ × γ) where
  inflate := (A.inflate, new)
  bind w x r := (A.bind w x r.1).map fun r' => (r', bound w x)
  tap w t r := (A.tap w t r.1).map fun p => (p.1, p.2, tapped t r.2)

/-- The views without their notes. -/
def Screen.unnoted (s : Screen ω ι (ρ × γ)) : Screen ω ι ρ := ⟨s.world, s.views.map fun v => ⟨v.row.1, v.items⟩⟩

theorem step_noting (s : Screen ω ι (ρ × γ)) (e : Event ι τ) :
    (step (A.noting new bound tapped) s e).map Screen.unnoted = step A s.unnoted e := by
  obtain ⟨w, views⟩ := s
  cases e with
  | getView x convertView =>
    cases convertView with
    | none =>
      simp only [step, Adapter.noting, Screen.unnoted, Option.map_map]
      refine congrArg (fun f => Option.map f _) (funext fun r => ?_)
      simp only [Function.comp_apply, Screen.unnoted, List.map_append, List.map_cons, List.map_nil]
    | some k =>
      simp only [step, Screen.unnoted, List.getElem?_map]
      cases views[k]? with
      | none => rfl
      | some v =>
        simp only [Option.map_some, Adapter.noting, Option.map_map]
        refine congrArg (fun f => Option.map f _) (funext fun r => ?_)
        simp only [Function.comp_apply, Screen.unnoted, List.map_set]
  | tap k t =>
    simp only [step, Screen.unnoted, List.getElem?_map]
    cases views[k]? with
    | none => rfl
    | some v =>
      simp only [Option.map_some, Adapter.noting, Option.map_map]
      refine congrArg (fun f => Option.map f _) (funext fun p => ?_)
      simp only [Function.comp_apply, Screen.unnoted, List.map_set]

/-- **The notes change nothing.** -/
theorem run_noting (es : List (Event ι τ)) (s : Screen ω ι (ρ × γ)) :
    (run (A.noting new bound tapped) es s).map Screen.unnoted = run A es s.unnoted := by
  induction es generalizing s with
  | nil => rfl
  | cons e es ih =>
    simp only [run, List.foldlM_cons] at ih ⊢
    rw [← step_noting A new bound tapped s e]
    cases step (A.noting new bound tapped) s e with
    | none => rfl
    | some s₁ => exact ih s₁

end Notes

/-! ### Lists without taps -/

section Untapped

variable (A) [IsEmpty τ] (w : ω)

/-- Whatever is asked for, every view shows its item as a new view does. -/
def Shows : Prop :=
  ∀ es s, run A es ⟨w, []⟩ = some s → ∀ v ∈ s.views, ∃ x xs, v.items = x :: xs ∧
    A.bind w x A.inflate = some v.row

variable {A} {w}

/-- To keep a property of the views it is enough to keep it when a view is bound. -/
theorem keeps_of_binds {P : View ι ρ → Prop}
    (hinflate : ∀ x r, A.bind w x A.inflate = some r → P ⟨r, [x]⟩)
    (hbind : ∀ x v r, P v → A.bind w x v.row = some r → P ⟨r, x :: v.items⟩) :
    Keeps A (fun w' => w' = w) fun _ v => P v where
  inflate := by
    rintro _ x r rfl h
    exact hinflate x r h
  bind := by
    rintro _ x v r rfl hP h
    exact hbind x v r hP h
  tap _ t := isEmptyElim t

theorem views_of_binds {P : View ι ρ → Prop}
    (hinflate : ∀ x r, A.bind w x A.inflate = some r → P ⟨r, [x]⟩)
    (hbind : ∀ x v r, P v → A.bind w x v.row = some r → P ⟨r, x :: v.items⟩)
    {es : List (Event ι τ)} (h : run A es ⟨w, []⟩ = some s) : ∀ v ∈ s.views, P v :=
  ((keeps_of_binds hinflate hbind).run rfl (fun _ hv => absurd hv List.not_mem_nil) h).2

/-- **Two binds tell**: views are right in every run exactly when a view that was
bound once shows the next item as a new one does. -/
theorem shows_iff_twice : Shows A w ↔
    ∀ x y r r', A.bind w y A.inflate = some r → A.bind w x r = some r' → A.bind w x A.inflate = some r' := by
  constructor
  · intro h x y r r' hr hr'
    have hrun : run A [.getView y none, .getView x (some 0)] ⟨w, []⟩ = some ⟨w, [⟨r', [x, y]⟩]⟩ := by
      simp [run, step, hr, hr']
    obtain ⟨x', xs, hitems, hrow⟩ := h _ _ hrun ⟨r', [x, y]⟩ List.mem_cons_self
    obtain ⟨rfl, -⟩ := List.cons.inj hitems
    exact hrow
  · intro htwice es s h
    refine views_of_binds (fun x r hr => ⟨x, [], rfl, hr⟩) (fun x v r hv hr => ?_) h
    obtain ⟨y, ys, -, hy⟩ := hv
    exact ⟨x, v.items, rfl, htwice x y v.row r hy hr⟩

/-- A bind that does not look at the view overwrites it. -/
theorem shows_of_overwrites (h : ∀ x r, A.bind w x r = A.bind w x A.inflate) : Shows A w :=
  shows_iff_twice.mpr fun x _ r _ _ hr' => (h x r).symm.trans hr'

variable (A) (w) in
/-- A bind overwrites the `face` of a view and clears its `flag` for some items; nothing
sets the flag again. -/
structure Clears (face : ρ → α) (flag : ρ → Bool) (clears : ι → Prop) : Prop where
  inflated : flag A.inflate = true
  overwrites : ∀ x r r', A.bind w x r = some r' → ∃ r₀, A.bind w x A.inflate = some r₀ ∧ face r' = face r₀
  clears_iff : ∀ x r r', A.bind w x r = some r' → (flag r' = true ↔ flag r = true ∧ ¬ clears x)
  ext : ∀ r r', face r = face r' → (flag r = true ↔ flag r' = true) → r = r'

namespace Clears

variable {face : ρ → α} {flag : ρ → Bool} {clears : ι → Prop} {es : List (Event ι τ)}

/-- The flag is set as long as the view was bound to nothing that clears it. -/
theorem flag_iff (hc : Clears A w face flag clears) (h : run A es ⟨w, []⟩ = some s) :
    ∀ v ∈ s.views, flag v.row = true ↔ ∀ x ∈ v.items, ¬ clears x := by
  refine views_of_binds (fun x r hr => ?_) (fun x v r hv hr => ?_) h
  · rw [hc.clears_iff x _ r hr, hc.inflated]
    simp
  · rw [hc.clears_iff x _ r hr, hv, List.forall_mem_cons]
    exact and_comm

/-- **A view is right exactly when** its item clears the flag, or nothing before it did;
all but the flag is right in any case. -/
theorem right_iff (hc : Clears A w face flag clears) (h : run A es ⟨w, []⟩ = some s) :
    ∀ v ∈ s.views, ∃ x xs r₀, v.items = x :: xs ∧ A.bind w x A.inflate = some r₀ ∧ face v.row = face r₀ ∧
      (v.row = r₀ ↔ clears x ∨ ∀ y ∈ xs, ¬ clears y) := by
  intro v hv
  have hflag := hc.flag_iff h v hv
  have hface := views_of_binds (P := fun v => ∃ x xs r₀, v.items = x :: xs ∧ A.bind w x A.inflate = some r₀ ∧
      face v.row = face r₀) (fun x r hr => ⟨x, [], r, rfl, hr, rfl⟩) (fun x v r _ hr => by
    obtain ⟨r₀, hr₀, heq⟩ := hc.overwrites x v.row r hr
    exact ⟨x, v.items, r₀, rfl, hr₀, heq⟩) h v hv
  obtain ⟨x, xs, r₀, hitems, hr₀, heq⟩ := hface
  refine ⟨x, xs, r₀, hitems, hr₀, heq, ?_⟩
  have hnew := hc.clears_iff x _ r₀ hr₀
  rw [hitems, List.forall_mem_cons] at hflag
  have hright : v.row = r₀ ↔ (flag v.row = true ↔ flag r₀ = true) := by
    constructor
    · intro hrow
      rw [hrow]
    · exact hc.ext _ _ heq
  rw [hright, hflag, hnew, hc.inflated]
  tauto

end Clears

end Untapped

end Recycling
