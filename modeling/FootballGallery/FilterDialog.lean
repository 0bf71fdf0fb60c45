/-
# `b_core/ForumFragment`: the filter dialog

The dialog that chooses the flags of the forum, with `CoreActivity.replaceForumFragment`,
which it hands the flags to. The flags are an array, and whoever has them has a
reference to it: the activity, the fragment it makes with them, and the dialog,
which keeps the array from before it was opened to put it back.

All these references are to one array. What is checked in the dialog is checked
in the activity at once, and `Cancel` puts back the array that has been checked.
The counters of the dialog count the boxes and not the checked ones, so no choice
is too small for it.

Key definitions: `Screen`, `displayFilterDialog`, `onCheck`, `onApply`, `onSelectAll`, `onCancel`,
`session`, `Right`, `Clean`.
Key theorems: `session_flags`, `right_iff`, `sessions_right_iff`, `session_simulates`,
`sessions_simulate`.
-/
import Mathlib.Data.List.Count
import FootballGallery.CoreForum
import FootballGallery.Lib.Arrays

namespace FootballGallery
namespace FilterDialog

open Arrays

/-- `R.array.filter_options_forum`: five leagues and four categories -/
def filterOptionsForum : List String :=
  ["EPL", "La Liga", "Bundesliga", "Serie A", "Ligue 1", "News", "Analysis", "Discussion", "Question"]

/-- The fragment on screen, without the sort dialog's choices. -/
structure Fragment where
  mCollection : Option (List Post)
  mUser : Option User
  mCheckedFilterItems : Ref
  mCheckedSortItem : ℤ

/-- The activity with its fragment, and the arrays of both. -/
structure Screen where
  arrays : Store Bool
  mUser : Option User
  mForumCollection : Option (List Post)
  mFilteredForum : Option (List Post)
  mForumFilterSelection : Ref
  mForumSortSelection : ℤ
  mFilterTag : String
  mSortTag : String
  fragment : Fragment

/-- What a dialog does to the outside: a message on the screen, and a call of
`OnOptionSelectedListener` with the flags as they are then. -/
inductive Output where
  | toast (text : String)
  | replaceForumFragment (filterOptions : List Bool) (sortOption : ℤ)

/-! ### The activity -/

/-- The flags of the activity. -/
def Screen.selection (s : Screen) : List Bool := s.arrays.get s.mForumFilterSelection

/-- The flags of the fragment. -/
def Screen.checked (s : Screen) : List Bool := s.arrays.get s.fragment.mCheckedFilterItems

def getFilterTagText (text : String) : String := " filter: " ++ text ++ " "

def getSortTagText (text : String) : String := " sort: " ++ text ++ " "

/-- `editOptionTags(R.id.bnv_forum)` -/
def editOptionTags (s : Screen) : Screen :=
  { s with
    mFilterTag := getFilterTagText (if s.selection.count false > 0 then "custom" else "all")
    mSortTag := getSortTagText (if s.mForumSortSelection = 0 then "newest" else "popular") }

def filterForumCollection (s : Screen) : Screen :=
  { s with
    mFilteredForum := s.mForumCollection.map fun ps =>
      CoreForum.categoryFiltered s.selection (CoreForum.leagueFiltered s.selection ps) }

/-- `ForumFragment.newInstance`, and the fragment's `onCreateView` and `onViewCreated`: the
array that the first makes is given up for the one of the arguments by the second. -/
def newFragment (filterOptions : Ref) (sortOption : ℤ) (s : Screen) : Screen :=
  { s with
    arrays := (s.arrays.alloc (List.replicate filterOptionsForum.length false)).1
    fragment := ⟨s.mFilteredForum, s.mUser, filterOptions, sortOption⟩ }

def replaceForumFragment (filterOptions : Ref) (sortOptions : ℤ) (s : Screen) : Screen :=
  newFragment filterOptions sortOptions (filterForumCollection (editOptionTags
    { s with mForumFilterSelection := filterOptions, mForumSortSelection := sortOptions }))

/-! ### The dialog -/

/-- What the listeners of a dialog share: `original`, and the boxes of its list. -/
structure Dialog where
  original : Ref
  boxes : List Bool

def displayFilterDialog (s : Screen) : Dialog :=
  ⟨s.fragment.mCheckedFilterItems, s.arrays.get s.fragment.mCheckedFilterItems⟩

/-- `for (int i = 0; i < mCheckedFilterItems.length-4; i++) checkedCounter1++;` -/
def checkedCounter1 (checked : List Bool) : ℕ := (List.range (checked.length - 4)).foldl (fun n _ => n + 1) 0

/-- `for (int i = 5; i < mCheckedFilterItems.length; i++) checkedCounter2++;` -/
def checkedCounter2 (checked : List Bool) : ℕ := (List.range' 5 (checked.length - 5)).foldl (fun n _ => n + 1) 0

/-- The listener of the boxes. -/
def onCheck (pos : ℕ) (isChecked : Bool) (s : Screen) : Screen × List Output :=
  let r := s.fragment.mCheckedFilterItems
  let s' := { s with arrays := s.arrays.set r ((s.arrays.get r).set pos isChecked) }
  (s', if checkedCounter1 s'.checked = 0 ∨ checkedCounter2 s'.checked = 0 then
      [.toast "No post will display without any selection."] else [])

/-- A tap on a box turns it over and tells the listener. -/
def toggle (p : Screen × Dialog) (pos : ℕ) : (Screen × Dialog) × List Output :=
  let isChecked := !(p.2.boxes[pos]?.getD false)
  let (s', out) := onCheck pos isChecked p.1
  ((s', { p.2 with boxes := p.2.boxes.set pos isChecked }), out)

/-- The positive button -/
def onApply (s : Screen) : Screen × List Output :=
  if checkedCounter1 s.checked = 0 ∨ checkedCounter2 s.checked = 0 then
    (s, [.toast "minimum selection required. one each from league/category"])
  else
    (replaceForumFragment s.fragment.mCheckedFilterItems s.fragment.mCheckedSortItem s,
      [.replaceForumFragment s.checked s.fragment.mCheckedSortItem])

/-- The neutral button -/
def onSelectAll (s : Screen) : Screen × List Output :=
  let r := s.fragment.mCheckedFilterItems
  let s' := { s with arrays := s.arrays.set r ((s.arrays.get r).map fun _ => true) }
  (replaceForumFragment r s'.fragment.mCheckedSortItem s',
    [.replaceForumFragment s'.checked s'.fragment.mCheckedSortItem])

/-- The negative button -/
def onCancel (d : Dialog) (s : Screen) : Screen × List Output :=
  ({ s with fragment := { s.fragment with mCheckedFilterItems := d.original } }, [])

inductive Button where
  | cancel
  | apply
  | selectAll

/-- A dialog from when it is opened: the boxes that are tapped, and the button that
closes it. -/
structure Session where
  toggles : List (Fin filterOptionsForum.length)
  button : Button

/-- The taps on the boxes, one after the other. -/
def taps : Screen × Dialog → List ℕ → (Screen × Dialog) × List Output
  | p, [] => (p, [])
  | p, pos :: toggles =>
    let (p', out) := toggle p pos
    let (p'', out') := taps p' toggles
    (p'', out ++ out')

def press (button : Button) (p : Screen × Dialog) : Screen × List Output :=
  match button with
  | .cancel => onCancel p.2 p.1
  | .apply => onApply p.1
  | .selectAll => onSelectAll p.1

def session (x : Session) (s : Screen) : Screen × List Output :=
  let (p, out) := taps (s, displayFilterDialog s) (x.toggles.map Fin.val)
  let (s', out') := press x.button p
  (s', out ++ out')

/-! ### The one array -/

/-- The activity and the fragment have one array, of the right length. -/
structure Shared (s : Screen) : Prop where
  same : s.fragment.mCheckedFilterItems = s.mForumFilterSelection
  has : s.arrays.Has s.mForumFilterSelection
  length : s.selection.length = filterOptionsForum.length

/-- The screen with other flags in the activity's array. -/
def Screen.withFlags (s : Screen) (flags : List Bool) : Screen :=
  { s with arrays := s.arrays.set s.mForumFilterSelection flags }

section Shared

variable {s : Screen} {flags flags' : List Bool} {x : Session}

theorem Shared.checked_eq (h : Shared s) : s.checked = s.selection := by
  unfold Screen.checked Screen.selection
  rw [h.same]

@[simp] theorem withFlags_withFlags : (s.withFlags flags).withFlags flags' = s.withFlags flags' := by
  simp [Screen.withFlags]

theorem withFlags_selection : s.withFlags s.selection = s := by
  simp [Screen.withFlags, Screen.selection]

theorem Shared.selection_withFlags (h : Shared s) : (s.withFlags flags).selection = flags :=
  Store.get_set_self h.has

theorem Shared.withFlags (h : Shared s) (hlen : flags.length = filterOptionsForum.length) :
    Shared (s.withFlags flags) where
  same := h.same
  has := Store.has_set.mpr h.has
  length := by
    rw [h.selection_withFlags]
    exact hlen

/-- The counters are the numbers of leagues and categories, whatever is checked. -/
theorem counters_eq (h : flags.length = filterOptionsForum.length) :
    checkedCounter1 flags = 5 ∧ checkedCounter2 flags = 4 := by
  have hlen : flags.length = 9 := h
  unfold checkedCounter1 checkedCounter2
  rw [hlen]
  decide

theorem not_tooFew (h : flags.length = filterOptionsForum.length) :
    ¬ (checkedCounter1 flags = 0 ∨ checkedCounter2 flags = 0) := by
  obtain ⟨h1, h2⟩ := counters_eq h
  omega

theorem Shared.length_modify (h : Shared s) (pos : ℕ) :
    (s.selection.modify pos not).length = filterOptionsForum.length := by
  rw [List.length_modify]
  exact h.length

/-- A tap turns over a flag of the activity. -/
theorem Shared.toggle (h : Shared s) (original : Ref) (pos : ℕ) :
    toggle (s, ⟨original, s.selection⟩) pos =
      ((s.withFlags (s.selection.modify pos not), ⟨original, s.selection.modify pos not⟩), []) := by
  have hlen := h.length_modify pos
  have hcheck : onCheck pos (!(s.selection[pos]?.getD false)) s = (s.withFlags (s.selection.modify pos not), []) := by
    have hchecked := (h.withFlags hlen).checked_eq.trans h.selection_withFlags
    unfold onCheck
    rw [h.same]
    change (s.withFlags (s.selection.set pos _), _) = _
    rw [set_not_eq_modify]
    refine congrArg (Prod.mk _) (if_neg ?_)
    change ¬ (checkedCounter1 (s.withFlags (s.selection.set pos _)).checked = 0 ∨
      checkedCounter2 (s.withFlags (s.selection.set pos _)).checked = 0)
    rw [set_not_eq_modify, hchecked]
    exact not_tooFew hlen
  unfold FilterDialog.toggle
  dsimp only
  rw [hcheck, set_not_eq_modify]

theorem Shared.taps (h : Shared s) (original : Ref) (toggles : List ℕ) :
    taps (s, ⟨original, s.selection⟩) toggles =
      ((s.withFlags (flipped s.selection toggles), ⟨original, flipped s.selection toggles⟩), []) := by
  induction toggles generalizing s with
  | nil =>
    show ((s, _), _) = ((s.withFlags s.selection, _), _)
    rw [withFlags_selection]
    rfl
  | cons pos toggles ih =>
    have hlen := h.length_modify pos
    have hih := ih (h.withFlags hlen)
    rw [h.selection_withFlags, withFlags_withFlags] at hih
    unfold FilterDialog.taps
    rw [h.toggle]
    dsimp only
    rw [hih]
    rfl

/-- The flags of the dialog when its button is pressed. -/
def toggled (x : Session) (s : Screen) : List Bool := flipped s.checked (x.toggles.map Fin.val)

theorem session_eq (h : Shared s) (x : Session) : session x s =
    press x.button (s.withFlags (toggled x s), ⟨s.mForumFilterSelection, toggled x s⟩) := by
  have hopen : displayFilterDialog s = ⟨s.mForumFilterSelection, s.selection⟩ := by
    unfold displayFilterDialog
    rw [h.same]
    rfl
  unfold session toggled
  rw [hopen, h.taps, h.checked_eq]
  rfl

/-- To hand the fragment's array to the activity leaves the flags as they are. -/
theorem Shared.replaceForumFragment (h : Shared s) (sortOptions : ℤ) :
    Shared (replaceForumFragment s.mForumFilterSelection sortOptions s) ∧
      (FilterDialog.replaceForumFragment s.mForumFilterSelection sortOptions s).selection = s.selection := by
  have hget : (FilterDialog.replaceForumFragment s.mForumFilterSelection sortOptions s).selection = s.selection :=
    Store.get_alloc h.has
  refine ⟨⟨rfl, Store.has_alloc h.has, ?_⟩, hget⟩
  rw [hget]
  exact h.length

/-- `Apply` never finds too little checked. -/
theorem Shared.onApply (h : Shared s) : onApply s =
    (FilterDialog.replaceForumFragment s.mForumFilterSelection s.fragment.mCheckedSortItem s,
      [.replaceForumFragment s.selection s.fragment.mCheckedSortItem]) := by
  unfold FilterDialog.onApply
  rw [h.checked_eq, if_neg (not_tooFew h.length), h.same]

/-- All boxes checked. -/
def allFlags : List Bool := List.replicate filterOptionsForum.length true

theorem Shared.map_true (h : Shared s) : s.selection.map (fun _ => true) = allFlags := by
  rw [List.map_const', h.length]
  rfl

theorem Shared.onSelectAll (h : Shared s) : onSelectAll s =
    (FilterDialog.replaceForumFragment s.mForumFilterSelection s.fragment.mCheckedSortItem (s.withFlags allFlags),
      [.replaceForumFragment allFlags s.fragment.mCheckedSortItem]) := by
  have hchecked : (s.withFlags allFlags).checked = allFlags :=
    (h.withFlags List.length_replicate).checked_eq.trans h.selection_withFlags
  unfold FilterDialog.onSelectAll
  rw [h.same]
  change (FilterDialog.replaceForumFragment _ _ (s.withFlags (s.selection.map fun _ => true)),
    [Output.replaceForumFragment (s.withFlags (s.selection.map fun _ => true)).checked _]) = _
  rw [h.map_true, hchecked]

/-! ### Sessions -/

/-- The calls of the listener. -/
def handed (out : List Output) : List (List Bool × ℤ) :=
  out.filterMap fun
    | .replaceForumFragment filterOptions sortOption => some (filterOptions, sortOption)
    | .toast _ => none

/-- A league and a category are checked. -/
def enough (flags : List Bool) : Bool := (flags.take 5).any id && (flags.drop 5).any id

/-- The flags of the activity after the dialog. -/
def flagsAfter (x : Session) (s : Screen) : List Bool :=
  match x.button with
  | .cancel | .apply => toggled x s
  | .selectAll => allFlags

theorem length_toggled (h : Shared s) (x : Session) : (toggled x s).length = filterOptionsForum.length := by
  unfold toggled
  rw [length_flipped, h.checked_eq]
  exact h.length

/-- **What a dialog does**, whichever button closes it: the activity has the flags that
were on the boxes at the end, or all; it is handed them except by `Cancel`. -/
theorem session_flags (h : Shared s) (x : Session) :
    Shared (session x s).1 ∧ (session x s).1.selection = flagsAfter x s ∧
      handed (session x s).2 =
        match x.button with
        | .cancel => []
        | .apply | .selectAll => [(flagsAfter x s, s.fragment.mCheckedSortItem)] := by
  have hs := h.withFlags (length_toggled h x)
  have hsel : (s.withFlags (toggled x s)).selection = toggled x s := h.selection_withFlags
  obtain ⟨toggles, button⟩ := x
  rw [session_eq h]
  cases button with
  | cancel => exact ⟨⟨rfl, hs.has, hs.length⟩, hsel, rfl⟩
  | apply =>
    obtain ⟨hshared, hget⟩ := hs.replaceForumFragment s.fragment.mCheckedSortItem
    show Shared (onApply _).1 ∧ (onApply _).1.selection = _ ∧ handed (onApply _).2 = _
    rw [hs.onApply, hsel]
    exact ⟨hshared, hget.trans hsel, rfl⟩
  | selectAll =>
    have hall : Shared (_ : Screen) := hs.withFlags (List.length_replicate : allFlags.length = _)
    obtain ⟨hshared, hget⟩ := hall.replaceForumFragment s.fragment.mCheckedSortItem
    show Shared (onSelectAll _).1 ∧ (onSelectAll _).1.selection = _ ∧ handed (onSelectAll _).2 = _
    rw [hs.onSelectAll]
    exact ⟨hshared, hget.trans hs.selection_withFlags, rfl⟩

/-- What a session should do: `Cancel` keeps the flags from before it, `Apply` hands
over what is checked if that is enough and nothing otherwise, `Select All` hands over all. -/
def Right (s : Screen) (x : Session) : Prop :=
  match x.button with
  | .cancel => (session x s).1.checked = s.checked ∧ (session x s).1.selection = s.selection
  | .apply =>
    if enough (toggled x s) then handed (session x s).2 = [(toggled x s, s.fragment.mCheckedSortItem)]
    else handed (session x s).2 = [] ∧ (session x s).1.selection = s.selection
  | .selectAll => handed (session x s).2 = [(allFlags, s.fragment.mCheckedSortItem)]

/-- The session ends with `Cancel` after every box was tapped an even number of times, or
with `Apply` and enough checked, or with `Select All`. -/
def Clean (s : Screen) (x : Session) : Prop :=
  match x.button with
  | .cancel => ∀ pos, Even (x.toggles.count pos)
  | .apply => enough (toggled x s) = true
  | .selectAll => True

/-- What is tapped an even number of times is as before. -/
theorem toggled_eq_iff (h : Shared s) (x : Session) :
    toggled x s = s.selection ↔ ∀ pos, Even (x.toggles.count pos) := by
  unfold toggled
  rw [h.checked_eq, flipped_eq_self_iff, h.length]
  have hcount : ∀ pos : Fin filterOptionsForum.length,
      (x.toggles.map Fin.val).count pos.val = x.toggles.count pos := fun pos =>
    List.count_map_of_injective _ _ Fin.val_injective pos
  constructor
  · intro heven pos
    rw [← hcount]
    exact heven pos pos.isLt
  · intro heven i hi
    have hpos := heven ⟨i, hi⟩
    rwa [← hcount] at hpos

theorem right_iff (h : Shared s) (x : Session) : Right s x ↔ Clean s x := by
  obtain ⟨hshared, hflags, hhanded⟩ := session_flags h x
  obtain ⟨toggles, button⟩ := x
  unfold Right Clean
  cases button with
  | cancel =>
    show (session _ s).1.checked = s.checked ∧ (session _ s).1.selection = s.selection ↔ _
    rw [hshared.checked_eq, h.checked_eq, hflags, and_self_iff]
    exact toggled_eq_iff h _
  | apply =>
    show (if enough _ = true then handed _ = _ else handed _ = [] ∧ _) ↔ _
    rw [hhanded]
    by_cases henough : enough (toggled ⟨toggles, .apply⟩ s) = true
    · rw [if_pos henough]
      exact iff_of_true rfl henough
    · rw [if_neg henough]
      exact iff_of_false nofun henough
  | selectAll => exact iff_of_true hhanded trivial

/-! ### All sessions -/

/-- The sessions of a run, each with the screen it begins on. -/
def run : Screen → List Session → List (Screen × Session)
  | _, [] => []
  | s, x :: xs => (s, x) :: run (session x s).1 xs

theorem Shared.run (h : Shared s) (xs : List Session) : ∀ p ∈ run s xs, Shared p.1 := by
  induction xs generalizing s with
  | nil => simp [FilterDialog.run]
  | cons x xs ih =>
    unfold FilterDialog.run
    exact List.forall_mem_cons.mpr ⟨h, ih (session_flags h x).1⟩

end Shared

/-- The activity with any flags, and the forum just opened. -/
def opened (flags : Vector Bool filterOptionsForum.length) (mUser : Option User)
    (mForumCollection mFilteredForum : Option (List Post)) (mForumSortSelection : ℤ) : Screen :=
  editOptionTags (newFragment 0 mForumSortSelection
    { arrays := ⟨[flags.toList]⟩
      mUser := mUser
      mForumCollection := mForumCollection
      mFilteredForum := mFilteredForum
      mForumFilterSelection := 0
      mForumSortSelection := mForumSortSelection
      mFilterTag := ""
      mSortTag := ""
      fragment := ⟨none, none, 0, 0⟩ })

theorem shared_opened (flags : Vector Bool filterOptionsForum.length) (mUser : Option User)
    (mForumCollection mFilteredForum : Option (List Post)) (mForumSortSelection : ℤ) :
    Shared (opened flags mUser mForumCollection mFilteredForum mForumSortSelection) where
  same := rfl
  has := Nat.zero_lt_succ 1
  length := flags.size_toArray

/-- **Every session of a run is right exactly when** every session is clean. -/
theorem sessions_right_iff (flags : Vector Bool filterOptionsForum.length) (mUser : Option User)
    (mForumCollection mFilteredForum : Option (List Post)) (mForumSortSelection : ℤ) (xs : List Session) :
    (∀ p ∈ run (opened flags mUser mForumCollection mFilteredForum mForumSortSelection) xs, Right p.1 p.2) ↔
      ∀ p ∈ run (opened flags mUser mForumCollection mFilteredForum mForumSortSelection) xs, Clean p.1 p.2 := by
  have hshared := (shared_opened flags mUser mForumCollection mFilteredForum mForumSortSelection).run xs
  exact forall₂_congr fun p hp => right_iff (hshared p hp) p.2

/-- The EPL is unchecked, and the dialog is cancelled. -/
def uncheckedEPL : Session := ⟨[⟨0, by decide⟩], .cancel⟩

/-- All leagues are unchecked, and that is applied. -/
def noLeague : Session := ⟨(List.finRange _).take 5, .apply⟩

/-- Neither `Cancel` nor the minimum of a choice works. -/
theorem dialog_wrong :
    (¬ ∀ p ∈ run (opened (Vector.replicate _ true) none none none 0) [uncheckedEPL], Right p.1 p.2) ∧
      ¬ ∀ p ∈ run (opened (Vector.replicate _ true) none none none 0) [noLeague], Right p.1 p.2 := by
  constructor
  · intro h
    have hkept : (session uncheckedEPL (opened (Vector.replicate _ true) none none none 0)).1.selection =
        (opened (Vector.replicate _ true) none none none 0).selection := (h _ List.mem_cons_self).2
    revert hkept
    decide
  · intro h
    have hnothing : handed (session noLeague (opened (Vector.replicate _ true) none none none 0)).2 = [] :=
      (h _ List.mem_cons_self).1
    revert hnothing
    decide

/-! ### Without references

`CoreForum` has the flags once, in the activity. A session is a run of it. -/

/-- The activity without the arrays. -/
def toCoreForum (me : String) (s : Screen) : CoreForum where
  me := me
  mUser := s.mUser
  mForumCollection := s.mForumCollection
  mFilteredForum := s.mFilteredForum
  mForumFilterSelection := s.selection
  mForumSortSelection := s.mForumSortSelection
  mBNV := .forum
  isLoading := false
  fragment := some ⟨s.fragment.mCollection, s.fragment.mUser, s.fragment.mCheckedSortItem, s.fragment.mCheckedSortItem⟩

/-- The taps on the boxes of a dialog with `flags`. -/
def checks : List Bool → List ℕ → List CoreForum.Action
  | _, [] => []
  | flags, pos :: toggles =>
    .checkFilter pos (!(flags[pos]?.getD false)) :: checks (flags.modify pos not) toggles

def actions (flags : List Bool) (x : Session) : List CoreForum.Action :=
  checks flags (x.toggles.map Fin.val) ++
    match x.button with
    | .cancel => []
    | .apply => [.applyFilter]
    | .selectAll => [.selectAll]

section Simulation

variable (toInstant : ℤ → ℤ) (me : String) {s : Screen}

/-- The activity after the actions; an exception ends it. -/
def acts (c : CoreForum) (as : List CoreForum.Action) : Option CoreForum :=
  as.foldlM (fun c a => (c.act toInstant a).map Prod.fst) c

theorem acts_append (c : CoreForum) (as bs : List CoreForum.Action) :
    acts toInstant c (as ++ bs) = (acts toInstant c as).bind fun c' => acts toInstant c' bs :=
  List.foldlM_append

theorem acts_singleton (c : CoreForum) (a : CoreForum.Action) :
    acts toInstant c [a] = (c.act toInstant a).map Prod.fst := by
  unfold acts
  rw [List.foldlM_cons]
  simp

theorem toCoreForum_replaceForumFragment (h : Shared s) (sortOptions : ℤ) :
    toCoreForum me (replaceForumFragment s.mForumFilterSelection sortOptions s) =
      CoreForum.replaceForumFragment s.selection sortOptions (toCoreForum me s) := by
  unfold toCoreForum
  rw [(h.replaceForumFragment sortOptions).2]
  rfl

theorem acts_checks (h : Shared s) (toggles : List ℕ) :
    acts toInstant (toCoreForum me s) (checks s.selection toggles) =
      some (toCoreForum me (s.withFlags (flipped s.selection toggles))) := by
  induction toggles generalizing s with
  | nil =>
    show some (toCoreForum me s) = some (toCoreForum me (s.withFlags s.selection))
    rw [withFlags_selection]
  | cons pos toggles ih =>
    have hlen := h.length_modify pos
    have hih := ih (h.withFlags hlen)
    have hact : toCoreForum me (s.withFlags (s.selection.modify pos not)) =
        { toCoreForum me s with
          mForumFilterSelection := s.selection.set pos (!(s.selection[pos]?.getD false)) } := by
      rw [set_not_eq_modify]
      unfold toCoreForum
      rw [h.selection_withFlags]
      rfl
    rw [h.selection_withFlags, withFlags_withFlags, hact] at hih
    unfold acts at hih ⊢
    rw [checks, List.foldlM_cons]
    exact hih

theorem act_applyFilter (h : Shared s) :
    ((toCoreForum me s).act toInstant .applyFilter).map Prod.fst = some (toCoreForum me (onApply s).1) := by
  have hlen : s.selection.length = 9 := h.length
  have hminimum : CoreForum.minimumSelection s.selection = true := by
    unfold CoreForum.minimumSelection
    rw [hlen]
    rfl
  rw [h.onApply, toCoreForum_replaceForumFragment me h]
  show some (if CoreForum.minimumSelection s.selection = true then _ else _) = _
  rw [if_pos hminimum]
  rfl

theorem act_selectAll (h : Shared s) :
    ((toCoreForum me s).act toInstant .selectAll).map Prod.fst = some (toCoreForum me (onSelectAll s).1) := by
  have hs : Shared (s.withFlags allFlags) := h.withFlags List.length_replicate
  have hreplace := toCoreForum_replaceForumFragment me hs s.fragment.mCheckedSortItem
  rw [h.selection_withFlags, ← h.map_true] at hreplace
  rw [h.onSelectAll, ← h.map_true]
  exact congrArg some hreplace.symm

/-- **A session is a run of the activity whose dialog shares its flags.** -/
theorem session_simulates (h : Shared s) (x : Session) :
    acts toInstant (toCoreForum me s) (actions s.selection x) = some (toCoreForum me (session x s).1) := by
  have hs := h.withFlags (length_toggled h x)
  have hchecks : acts toInstant (toCoreForum me s) (checks s.selection (x.toggles.map Fin.val)) =
      some (toCoreForum me (s.withFlags (toggled x s))) := by
    unfold toggled
    rw [acts_checks toInstant me h, h.checked_eq]
  obtain ⟨toggles, button⟩ := x
  rw [session_eq h]
  rw [actions, acts_append, hchecks, Option.bind_some]
  cases button with
  | cancel => rfl
  | apply => exact (acts_singleton toInstant _ _).trans (act_applyFilter toInstant me hs)
  | selectAll => exact (acts_singleton toInstant _ _).trans (act_selectAll toInstant me hs)

/-- The screen after the sessions. -/
def after (s : Screen) (xs : List Session) : Screen := xs.foldl (fun s x => (session x s).1) s

theorem Shared.simulates (h : Shared s) (xs : List Session) :
    acts toInstant (toCoreForum me s) ((FilterDialog.run s xs).flatMap fun p => actions p.1.selection p.2) =
      some (toCoreForum me (after s xs)) := by
  induction xs generalizing s with
  | nil => rfl
  | cons x xs ih =>
    have hnext := ih (session_flags h x).1
    rw [FilterDialog.run, List.flatMap_cons, acts_append, session_simulates toInstant me h, Option.bind_some, hnext]
    rfl

/-- **Any sessions of the dialog**, with the array of flags that the activity, the fragment
and the dialog refer to, are a run of the activity that has the flags by itself: it has the
same flags, order, posts and fragment after them. -/
theorem sessions_simulate (flags : Vector Bool filterOptionsForum.length) (mUser : Option User)
    (mForumCollection mFilteredForum : Option (List Post)) (mForumSortSelection : ℤ) (xs : List Session) :
    acts toInstant (toCoreForum me (opened flags mUser mForumCollection mFilteredForum mForumSortSelection))
        ((run (opened flags mUser mForumCollection mFilteredForum mForumSortSelection) xs).flatMap fun p =>
          actions p.1.selection p.2) =
      some (toCoreForum me (after (opened flags mUser mForumCollection mFilteredForum mForumSortSelection) xs)) :=
  (shared_opened flags mUser mForumCollection mFilteredForum mForumSortSelection).simulates toInstant me xs

end Simulation

end FilterDialog
end FootballGallery
