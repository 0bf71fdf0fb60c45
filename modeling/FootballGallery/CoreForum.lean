/-
# `b_core/CoreActivity`: the forum

The forum of the app's main activity: the posts it has loaded, the flags and the
order that choose what is on screen, and the two ways of making the
`ForumFragment` that shows them. With it the fragment's two dialogs, the replies
that the activity handles, and the chain of tasks it starts with.

The array of flags is one object that the activity and its fragment share, so a
box that is checked in the dialog is checked in the activity at once. The news,
the matches and the standings are left out, and with them what the other tabs
show.

Key definitions: `CoreForum`, `filterForumCollection`, `sortForumCollection`,
`replaceFragment`, `replaceForumFragment`, `onReceive`, `act`, `recv`.
Key theorem: `toCore_onReceive`.
-/
import Mathlib.Data.List.Sort
import FootballGallery.Navigation
import FootballGallery.Lib.Buckets

namespace FootballGallery

open DBUtil Buckets

/-- The items of the bottom navigation view. -/
inductive Tab where
  | news | forum | matches | standings
deriving DecidableEq

/-- `b_core/ForumFragment`: what it was made with, and the choice of its sort dialog,
with the choice from before the dialog was opened. -/
structure ForumFragment where
  mCollection : Option (List Post)
  mUser : Option User
  mCheckedSortItem : ℤ
  original : ℤ

structure CoreForum where
  me : String
  mUser : Option User
  mForumCollection : Option (List Post)
  mFilteredForum : Option (List Post)
  mForumFilterSelection : List Bool
  mForumSortSelection : ℤ
  mBNV : Tab
  /-- the progress view covers the screen -/
  isLoading : Bool
  /-- the last `ForumFragment` -/
  fragment : Option ForumFragment

/-- The tasks of the activity: backend calls and the three tasks of `API`. -/
inductive CoreTask where
  | call (q : Request)
  | newsAsyncTask
  | matchesAsyncTask
  | standingsAsyncTask

namespace CoreForum

/-! ### What is on screen -/

/-- The first loop of `filterForumCollection`, over the league flags. -/
def leagueFiltered (flags : List Bool) (ps : List Post) : List Post :=
  buckets (List.range (flags.length - 4)) (fun i p => flags[i]?.getD false && p.mFilter == (i : ℤ)) ps

/-- The second loop, over the category flags. -/
def categoryFiltered (flags : List Bool) (ps : List Post) : List Post :=
  buckets (List.range' 5 (flags.length - 5)) (fun i p => flags[i]?.getD false && p.mCategory == (i : ℤ) - 5) ps

def filterForumCollection (c : CoreForum) : CoreForum :=
  { c with
    mFilteredForum := c.mForumCollection.map fun ps =>
      categoryFiltered c.mForumFilterSelection (leagueFiltered c.mForumFilterSelection ps) }

section TimeZone

-- the time zone of the client
variable (toInstant : ℤ → ℤ)

/-- `ArrayList.sort` with the comparator of the sort selection. To compare with a date
that is `null` throws; a list of less than two posts is not compared at all. -/
def sortPosts (selection : ℤ) (ps : List Post) : Option (List Post) :=
  if selection = 0 then
    if ps.length < 2 || ps.all fun p => (p.getDateDate toInstant).isSome then
      some (ps.insertionSort fun o1 o2 => (o2.getDateDate toInstant).getD 0 ≤ (o1.getDateDate toInstant).getD 0)
    else none
  else some (ps.insertionSort fun o1 o2 => o2.getPopularity ≤ o1.getPopularity)

def sortForumCollection (c : CoreForum) : Option CoreForum :=
  match c.mFilteredForum with
  | none => some c
  | some ps => (sortPosts toInstant c.mForumSortSelection ps).map fun l => { c with mFilteredForum := some l }

/-- `ForumFragment.newInstance` with what the activity has. -/
def newFragment (c : CoreForum) : CoreForum :=
  { c with fragment := some ⟨c.mFilteredForum, c.mUser, c.mForumSortSelection, c.mForumSortSelection⟩ }

def toggleProgressDialog (isLoading : Bool) (c : CoreForum) : CoreForum := { c with isLoading := isLoading }

def replaceFragment (selectedId : Tab) (c : CoreForum) : Option CoreForum :=
  match selectedId with
  | .forum =>
    (sortForumCollection toInstant (filterForumCollection c)).map fun c' =>
      (newFragment c').toggleProgressDialog false
  | _ => some (c.toggleProgressDialog false)

/-- Unlike `replaceFragment`, it does not sort. -/
def replaceForumFragment (filterOptions : List Bool) (sortOptions : ℤ) (c : CoreForum) : CoreForum :=
  newFragment (filterForumCollection
    { c with mForumFilterSelection := filterOptions, mForumSortSelection := sortOptions })

/-! ### Events -/

def onCreate (me : String) : CoreForum × List CoreTask :=
  ({ me := me
     mUser := none
     mForumCollection := none
     mFilteredForum := none
     mForumFilterSelection := List.replicate 9 true
     mForumSortSelection := 0
     mBNV := .news
     isLoading := true
     fragment := none }, (userGetUserInfo me CoreActivity.getUserInfo).map .call)

inductive Action where
  | onBnvClick (tab : Tab)
  | onResume
  /-- the filter dialog of the `ForumFragment` -/
  | checkFilter (pos : ℕ) (isChecked : Bool)
  | applyFilter
  | selectAll
  /-- its sort dialog -/
  | displaySortDialog
  | checkSort (pos : ℤ)
  | applySort
  | cancelSort

/-- The counters of the filter dialog count the boxes, not the checked ones. -/
def minimumSelection (flags : List Bool) : Bool := !(flags.length - 4 == 0 || flags.length - 5 == 0)

/-- What the fragment on screen does. -/
def onFragment (c : CoreForum) (f : ForumFragment → CoreForum) : CoreForum :=
  if c.mBNV = .forum then (c.fragment.map f).getD c else c

def act (c : CoreForum) : Action → Option (CoreForum × List CoreTask)
  | .onBnvClick tab => (replaceFragment toInstant tab { c with mBNV := tab }).map fun c' => (c', [])
  | .onResume =>
    some (c, if c.mBNV = .forum then (forumGetPosts CoreActivity.repopulateForum).map .call else [])
  | .checkFilter pos isChecked =>
    some (c.onFragment fun _ =>
      { c with mForumFilterSelection := c.mForumFilterSelection.set pos isChecked }, [])
  | .applyFilter =>
    some (if minimumSelection c.mForumFilterSelection then
        c.onFragment fun f => replaceForumFragment c.mForumFilterSelection f.mCheckedSortItem c
      else c, [])
  | .selectAll =>
    some (c.onFragment fun f =>
      replaceForumFragment (c.mForumFilterSelection.map fun _ => true) f.mCheckedSortItem c, [])
  | .displaySortDialog =>
    some (c.onFragment fun f => { c with fragment := some { f with original := f.mCheckedSortItem } }, [])
  | .checkSort pos => some (c.onFragment fun f => { c with fragment := some { f with mCheckedSortItem := pos } }, [])
  | .applySort =>
    some (c.onFragment fun f => replaceForumFragment c.mForumFilterSelection f.mCheckedSortItem c, [])
  | .cancelSort =>
    some (c.onFragment fun f => { c with fragment := some { f with mCheckedSortItem := f.original } }, [])

/-- `RefreshReceiver.onReceive`; `EXTRA_SERIALIZABLE` is there if it is not `null`. -/
def onReceive (c : CoreForum) (intent : Intent) : Option (CoreForum × List CoreTask) :=
  if intent.action = CoreActivity.getUserInfo then
    match intent.result, intent.extra with
    | true, some (.user u) => some ({ c with mUser := some u }, [.newsAsyncTask])
    | true, some _ => none
    | _, _ => some (c, [])
  else if intent.action = CoreActivity.populateForum then
    match intent.result, intent.extra with
    | true, some (.posts ps) => some ({ c with mForumCollection := some ps }, [.matchesAsyncTask])
    | true, some _ => none
    | _, _ => some (c, [])
  else if intent.action = CoreActivity.updateForum then
    some (c, (forumGetPosts CoreActivity.repopulateForum).map .call)
  else if intent.action = CoreActivity.repopulateForum then
    match intent.result, intent.extra with
    | true, some (.posts ps) =>
      (replaceFragment toInstant c.mBNV { c with mForumCollection := some ps }).map fun c' => (c', [])
    | true, some _ => none
    | _, _ => some (c, [])
  else if intent.action = CoreActivity.checkForumCount then
    some (c, if intent.result then (forumGetPosts CoreActivity.repopulateForum).map .call else [])
  else some (c, [])

/-- The ends of the three tasks of `API`. -/
def onPostNewsAsync (c : CoreForum) : CoreForum × List CoreTask :=
  (c, (forumGetPosts CoreActivity.populateForum).map .call)

def onPostFixturesAsync (c : CoreForum) : CoreForum × List CoreTask := (c, [.standingsAsyncTask])

/-- `setSelectedItemId(0)` names no item and leaves the tab as it is. -/
def onPostStandingsAsync (c : CoreForum) : Option (CoreForum × List CoreTask) :=
  (replaceFragment toInstant c.mBNV c).map fun c' => (c', [])

/-- What the activity receives. -/
inductive Reply where
  | broadcast (intent : Intent)
  | onPostNewsAsync
  | onPostFixturesAsync
  | onPostStandingsAsync

def recv (c : CoreForum) : Reply → Option (CoreForum × List CoreTask)
  | .broadcast intent => onReceive toInstant c intent
  | .onPostNewsAsync => some c.onPostNewsAsync
  | .onPostFixturesAsync => some c.onPostFixturesAsync
  | .onPostStandingsAsync => onPostStandingsAsync toInstant c

/-! ### What it knows of users -/

/-- The activity as the session has it: without its posts. -/
def toCore (c : CoreForum) : Core where
  me := c.me
  mUser := c.mUser
  forumTab := c.mBNV == .forum
  fragmentUser := c.fragment.bind (·.mUser)

/-- The backend calls among the tasks. -/
def calls (ts : List CoreTask) : List Request :=
  ts.filterMap fun t =>
    match t with
    | .call q => some q
    | _ => none

theorem calls_map (qs : List Request) : calls (qs.map .call) = qs := by
  unfold calls
  rw [List.filterMap_map]
  exact List.filterMap_some

variable {toInstant} {c c' : CoreForum}

theorem sortForumCollection_toCore (h : sortForumCollection toInstant c = some c') :
    c'.mUser = c.mUser ∧ c'.toCore = c.toCore := by
  unfold sortForumCollection at h
  split at h
  · obtain rfl := Option.some.inj h
    exact ⟨rfl, rfl⟩
  · obtain ⟨l, -, rfl⟩ := Option.map_eq_some_iff.mp h
    exact ⟨rfl, rfl⟩

theorem replaceFragment_toCore (h : replaceFragment toInstant c.mBNV c = some c') :
    c'.toCore = CoreActivity.replaceFragment c.toCore.forumTab c.toCore := by
  unfold replaceFragment at h
  unfold CoreActivity.replaceFragment
  cases htab : c.mBNV with
  | forum =>
    rw [htab] at h
    obtain ⟨c₁, hc₁, rfl⟩ := Option.map_eq_some_iff.mp h
    obtain ⟨huser, hcore⟩ := sortForumCollection_toCore hc₁
    have hme : c₁.me = c.me := congrArg Core.me hcore
    have hbnv : (c₁.mBNV == .forum) = (c.mBNV == .forum) := congrArg Core.forumTab hcore
    simp only [toCore, newFragment, toggleProgressDialog, huser, hme, hbnv, htab]
    rfl
  | _ =>
    rw [htab] at h
    obtain rfl := Option.some.inj h
    simp only [toCore, toggleProgressDialog, htab]
    rfl

/-- **The session's activity does what this one does**, as long as it does not throw. -/
theorem toCore_onReceive {i : Intent} {ts : List CoreTask} (h : onReceive toInstant c i = some (c', ts)) :
    CoreActivity.onReceive c.toCore i = some (c'.toCore, calls ts) := by
  obtain ⟨a, b, x⟩ := i
  have hnone : ∀ {c₁ : CoreForum} {ts₁ : List CoreTask}, some (c₁, ts₁) = some (c', ts) →
      c' = c₁ ∧ ts = ts₁ := by
    intro c₁ ts₁ heq
    obtain ⟨rfl, rfl⟩ := Prod.mk.inj (Option.some.inj heq)
    exact ⟨rfl, rfl⟩
  unfold onReceive at h
  unfold CoreActivity.onReceive
  simp only at h ⊢
  split at h
  · rename_i ha
    rw [if_pos ha]
    split at h
    · obtain ⟨rfl, rfl⟩ := hnone h
      rfl
    · cases h
    · rename_i hno₁ hno₂
      obtain ⟨rfl, rfl⟩ := hnone h
      cases b with
      | false => rfl
      | true =>
        cases x with
        | none => rfl
        | some y => exact absurd rfl (hno₂ y rfl)
  · rename_i ha
    rw [if_neg ha]
    split at h
    · rename_i hpop
      have hne₁ : a ≠ CoreActivity.updateForum := by rw [hpop]; decide
      have hne₂ : a ≠ CoreActivity.repopulateForum := by rw [hpop]; decide
      have hne₃ : a ≠ CoreActivity.checkForumCount := by rw [hpop]; decide
      rw [if_neg hne₁, if_neg hne₂, if_neg hne₃]
      split at h
      · obtain ⟨rfl, rfl⟩ := hnone h
        rfl
      · cases h
      · obtain ⟨rfl, rfl⟩ := hnone h
        rfl
    · split at h
      · rename_i hup
        rw [if_pos hup]
        obtain ⟨rfl, rfl⟩ := hnone h
        rw [calls_map]
      · rename_i hup
        rw [if_neg hup]
        split at h
        · rename_i hrep
          rw [if_pos hrep]
          split at h
          · obtain ⟨c₁, hc₁, heq⟩ := Option.map_eq_some_iff.mp h
            obtain ⟨rfl, rfl⟩ := Prod.mk.inj heq
            have hcore := replaceFragment_toCore (c := { c with mForumCollection := some _ }) hc₁
            rw [hcore]
            rfl
          · cases h
          · rename_i hno₁ hno₂
            obtain ⟨rfl, rfl⟩ := hnone h
            cases b with
            | false => rfl
            | true =>
              cases x with
              | none => rfl
              | some y => exact absurd rfl (hno₂ y rfl)
        · rename_i hrep
          rw [if_neg hrep]
          split at h
          · rename_i hcount
            rw [if_pos hcount]
            obtain ⟨rfl, rfl⟩ := hnone h
            cases b with
            | true => rfl
            | false => rfl
          · rename_i hcount
            rw [if_neg hcount]
            obtain ⟨rfl, rfl⟩ := hnone h
            rfl

end TimeZone

end CoreForum
end FootballGallery
