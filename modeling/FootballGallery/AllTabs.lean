/-
# `b_core/CoreActivity`: all its tabs

The main activity with the news, the forum, the matches and the standings: the
collections it loads one after the other, the fragment it makes for a tab, the texts
over it, and the dialogs of the four fragments. A dialog is about the fragment that
opened it, also when the activity has made another one since.

The array of flags of the news and of the forum is one object that the activity shares
with its fragments and their dialogs (as in `CoreForum`), so `Cancel` has nothing to put
back. A dialog with a single choice has put the choice aside before.

A fragment is brought on screen by a transaction, which the library refuses after
`onStop`. Broadcasts reach the activity between `onResume` and `onPause`; the ends of
its tasks reach it always.

Key definitions: `AllTabs`, `replaceFragment`, `act`, `onReceive`, `recv`, `Running`, `next`.
Key theorems: `acted_act`, `received_recv`, `happened_next`.
-/
import FootballGallery.FilterDialog
import FootballGallery.LeagueTabs
import FootballGallery.Lib.Runs

namespace FootballGallery

open DBUtil APIUtil

/-- `R.array.filter_options_default` -/
def filterOptionsDefault : List String := ["EPL", "La Liga", "Bundesliga", "Serie A", "Ligue 1"]

/-- `R.array.sort_options_forum` -/
def sortOptionsForum : List String := ["newest", "popular"]

/-- `b_core/MatchesFragment` and `b_core/StandingsFragment`: what it was made with, the
choice of its dialog, and the choice from before the dialog was opened. -/
structure LeagueFragment (β : Type) where
  mCollection : Option (List β)
  mCheckedFilterItem : ℕ
  original : ℕ

/-- The fragment of a tab. -/
inductive TabFragment where
  | news (mNewsArr : Option (List News))
  | forum (f : ForumFragment)
  | matches (f : LeagueFragment Fixture)
  | standings (f : LeagueFragment Team)

def TabFragment.tab : TabFragment → Tab
  | .news _ => .news
  | .forum _ => .forum
  | .matches _ => .matches
  | .standings _ => .standings

namespace TabFragment

/-- The fragment's single choice, if it has one: of the order or of the league. -/
def setChoice (pos : ℕ) : TabFragment → TabFragment
  | .news a => .news a
  | .forum f => .forum { f with mCheckedSortItem := pos }
  | .matches f => .matches { f with mCheckedFilterItem := pos }
  | .standings f => .standings { f with mCheckedFilterItem := pos }

/-- `int original = mCheckedFilterItem` -/
def putAside : TabFragment → TabFragment
  | .news a => .news a
  | .forum f => .forum { f with original := f.mCheckedSortItem }
  | .matches f => .matches { f with original := f.mCheckedFilterItem }
  | .standings f => .standings { f with original := f.mCheckedFilterItem }

/-- `mCheckedFilterItem = original` -/
def takeBack : TabFragment → TabFragment
  | .news a => .news a
  | .forum f => .forum { f with mCheckedSortItem := f.original }
  | .matches f => .matches { f with mCheckedFilterItem := f.original }
  | .standings f => .standings { f with mCheckedFilterItem := f.original }

/-- What can be chosen. -/
def options : TabFragment → List String
  | .news _ => []
  | .forum _ => sortOptionsForum
  | .matches _ | .standings _ => filterOptionsDefault

end TabFragment

/-- An open dialog, the sort dialog or the filter dialog, of the fragment at place `opener`. -/
structure Dialog where
  sort : Bool
  opener : ℕ
deriving DecidableEq

/-- The dialog has one choice, and not boxes. -/
def Dialog.single (d : Dialog) : TabFragment → Bool
  | .news _ => false
  | .forum _ => d.sort
  | .matches _ | .standings _ => true

inductive Life where
  | resumed
  | paused
  | stopped
deriving DecidableEq

/-- The activity; `fragments` are those it has made, the last one on screen. -/
structure AllTabs where
  mUser : Option User
  mNewsCollection : Option (List News)
  mForumCollection : Option (List Post)
  mMatchesCollection : Option (List (List Fixture))
  mStandingCollection : Option (List (List Team))
  mFilteredNews : Option (List News)
  mFilteredForum : Option (List Post)
  mFilteredMatches : Option (List Fixture)
  mFilteredStandings : Option (List Team)
  mNewsFilterSelection : List Bool
  mForumFilterSelection : List Bool
  mForumSortSelection : ℤ
  mMatchesFilterSelection : ℕ
  mStandingsFilterSelection : ℕ
  mBNV : Tab
  title : String
  mFilterTag : String
  mSortTag : String
  /-- which of the views are shown: the sort tag, the floating button, the progress view
  (in place of all others) -/
  sortVisible : Bool
  fabVisible : Bool
  isLoading : Bool
  fragments : List TabFragment
  dialog : Option Dialog
  life : Life

namespace AllTabs

/-! ### What is on screen -/

def toggleProgressDialog (isLoading : Bool) (c : AllTabs) : AllTabs :=
  if isLoading then { c with isLoading := true, title := "The Football Gallery" } else { c with isLoading := false }

def flagsText (flags : List Bool) : String := if flags.count false > 0 then "custom" else "all"

def sortText (selection : ℤ) : String := if selection = 0 then "newest" else "popular"

def leagueText : ℕ → String
  | 0 => "EPL"
  | 1 => "La Liga"
  | 2 => "Bundesliga"
  | 3 => "Serie A"
  | 4 => "Ligue 1"
  | _ => ""

def editOptionTags (bnvIndex : Tab) (c : AllTabs) : AllTabs :=
  let filterText :=
    match bnvIndex with
    | .news => flagsText c.mNewsFilterSelection
    | .forum => flagsText c.mForumFilterSelection
    | .matches => leagueText c.mMatchesFilterSelection
    | .standings => leagueText c.mStandingsFilterSelection
  let sortText := if bnvIndex = .forum then sortText c.mForumSortSelection else ""
  { c with
    mFilterTag := FilterDialog.getFilterTagText filterText
    mSortTag := FilterDialog.getSortTagText sortText
    sortVisible := bnvIndex == .forum }

def filterNewsCollection (c : AllTabs) : AllTabs := { c with mFilteredNews := c.mNewsCollection }

def filterForumCollection (c : AllTabs) : AllTabs :=
  { c with
    mFilteredForum := c.mForumCollection.map fun ps =>
      CoreForum.categoryFiltered c.mForumFilterSelection (CoreForum.leagueFiltered c.mForumFilterSelection ps) }

/-- `get` of a list that is `null`, or out of its bounds, throws. -/
def filterMatchesCollection (c : AllTabs) : Option AllTabs :=
  (c.mMatchesCollection.bind (·[c.mMatchesFilterSelection]?)).map fun shown =>
    { c with mFilteredMatches := some shown }

def filterStandingsCollection (c : AllTabs) : Option AllTabs :=
  (c.mStandingCollection.bind (·[c.mStandingsFilterSelection]?)).map fun shown =>
    { c with mFilteredStandings := some shown }

/-- `replace(R.id.fragment_container, fragment).commit()` -/
def commit (fragment : TabFragment) (c : AllTabs) : Option AllTabs :=
  if c.life = .stopped then none else some { c with fragments := c.fragments ++ [fragment] }

/-- `newInstance` of the four fragments, with what the activity has. -/
def newInstance (tab : Tab) (c : AllTabs) : TabFragment :=
  match tab with
  | .news => .news c.mFilteredNews
  | .forum => .forum ⟨c.mFilteredForum, c.mUser, c.mForumSortSelection, c.mForumSortSelection⟩
  | .matches => .matches ⟨c.mFilteredMatches, c.mMatchesFilterSelection, c.mMatchesFilterSelection⟩
  | .standings => .standings ⟨c.mFilteredStandings, c.mStandingsFilterSelection, c.mStandingsFilterSelection⟩

/-- The four `replace..Fragment` that the dialogs call. -/
def replaceNewsFragment (filterOptions : List Bool) (c : AllTabs) : Option AllTabs :=
  let c := filterNewsCollection (editOptionTags .news { c with mNewsFilterSelection := filterOptions })
  commit (newInstance .news c) c

def replaceForumFragment (filterOptions : List Bool) (sortOptions : ℤ) (c : AllTabs) : Option AllTabs :=
  let c := filterForumCollection (editOptionTags .forum
    { c with mForumFilterSelection := filterOptions, mForumSortSelection := sortOptions })
  commit (newInstance .forum c) c

def replaceMatchesFragment (filterOption : ℕ) (c : AllTabs) : Option AllTabs :=
  (filterMatchesCollection (editOptionTags .matches { c with mMatchesFilterSelection := filterOption })).bind fun c =>
    commit (newInstance .matches c) c

def replaceStandingsFragment (filterOption : ℕ) (c : AllTabs) : Option AllTabs :=
  (filterStandingsCollection
    (editOptionTags .standings { c with mStandingsFilterSelection := filterOption })).bind fun c =>
    commit (newInstance .standings c) c

section TimeZone

-- the time zone of the client
variable (toInstant : ℤ → ℤ)

def sortForumCollection (c : AllTabs) : Option AllTabs :=
  match c.mFilteredForum with
  | none => some c
  | some ps => (CoreForum.sortPosts toInstant c.mForumSortSelection ps).map fun l => { c with mFilteredForum := some l }

/-- The `switch` of `replaceFragment`: the title and the list of the tab. -/
def switch (selectedId : Tab) (c : AllTabs) : Option AllTabs :=
  match selectedId with
  | .news => some (filterNewsCollection { c with title := "News" })
  | .forum => sortForumCollection toInstant (filterForumCollection { c with title := "Forum", fabVisible := true })
  | .matches => filterMatchesCollection { c with title := "Matches" }
  | .standings => filterStandingsCollection { c with title := "Standings" }

def replaceFragment (selectedId : Tab) (c : AllTabs) : Option AllTabs :=
  (switch toInstant selectedId { c with fabVisible := false }).bind fun c =>
    commit (newInstance selectedId c) ((editOptionTags selectedId c).toggleProgressDialog false)

/-! ### The user -/

inductive Action where
  | onBnvClick (tab : Tab)
  /-- the menu of the fragment on screen -/
  | displayFilterDialog
  | displaySortDialog
  /-- a row of the open dialog, its buttons, and the back key -/
  | onCheck (pos : ℕ) (isChecked : Bool)
  | onPositive
  | onNeutral
  | onNegative
  | onDismiss
  | onPause
  | onStop
  | onResume

/-- The buttons and menus can be tapped: they are shown, and no dialog is over them. -/
def tappable (c : AllTabs) : Bool := c.life == .resumed && !c.isLoading && c.dialog.isNone

/-- The place of the fragment on screen. -/
def last (c : AllTabs) : ℕ := c.fragments.length - 1

/-- The fragment changes its own choice. -/
def setFragment (n : ℕ) (fragment : TabFragment) (c : AllTabs) : AllTabs :=
  { c with fragments := c.fragments.set n fragment }

def close (c : AllTabs) : AllTabs := { c with dialog := none }

/-- `displayFilterDialog` and `displaySortDialog`; a single choice is put aside. -/
def display (sort : Bool) (c : AllTabs) : AllTabs :=
  match c.fragments[c.last]? with
  | some f =>
    let d : Dialog := ⟨sort, c.last⟩
    { c with dialog := some d }.setFragment c.last (if d.single f then f.putAside else f)
  | none => c

/-- The menu of the forum alone has the sort dialog. -/
def sortable (c : AllTabs) : Bool := c.fragments[c.last]?.any fun f => f.tab == .forum

/-- The listener of the rows of a dialog of `fragment`. -/
def onCheck (d : Dialog) (fragment : TabFragment) (pos : ℕ) (isChecked : Bool) (c : AllTabs) : AllTabs :=
  if d.single fragment then
    if pos < fragment.options.length then c.setFragment d.opener (fragment.setChoice pos) else c
  else
    match fragment with
    | .news _ => { c with mNewsFilterSelection := c.mNewsFilterSelection.set pos isChecked }
    | _ => { c with mForumFilterSelection := c.mForumFilterSelection.set pos isChecked }

/-- `Apply`. The counters of the dialogs with boxes count the boxes, not the checked ones. -/
def onPositive (d : Dialog) (fragment : TabFragment) (c : AllTabs) : Option AllTabs :=
  match fragment with
  | .news _ =>
    if c.mNewsFilterSelection.length == 0 then some c else replaceNewsFragment c.mNewsFilterSelection c
  | .forum f =>
    if d.sort || CoreForum.minimumSelection c.mForumFilterSelection then
      replaceForumFragment c.mForumFilterSelection f.mCheckedSortItem c
    else some c
  | .matches f => replaceMatchesFragment f.mCheckedFilterItem c
  | .standings f => replaceStandingsFragment f.mCheckedFilterItem c

/-- `Select All`, a button of the dialogs with boxes; that of the news does not tell the
activity. -/
def onNeutral (d : Dialog) (fragment : TabFragment) (c : AllTabs) : Option AllTabs :=
  if d.single fragment then some c
  else
    match fragment with
    | .news _ => some { c.close with mNewsFilterSelection := c.mNewsFilterSelection.map fun _ => true }
    | .forum f => replaceForumFragment (c.mForumFilterSelection.map fun _ => true) f.mCheckedSortItem c.close
    | _ => some c

/-- `Cancel` -/
def onNegative (d : Dialog) (fragment : TabFragment) (c : AllTabs) : AllTabs :=
  if d.single fragment then c.setFragment d.opener fragment.takeBack else c

/-- What the open dialog does, with the fragment that opened it. -/
def onDialog (c : AllTabs) (g : Dialog → TabFragment → Option AllTabs) : Option AllTabs :=
  match c.life, c.dialog with
  | .resumed, some d => (c.fragments[d.opener]?.map (g d)).getD (some c)
  | _, _ => some c

def act (c : AllTabs) : Action → Option (AllTabs × List CoreTask)
  | .onBnvClick tab =>
    if c.tappable then (replaceFragment toInstant tab { c with mBNV := tab }).map fun c' => (c', []) else some (c, [])
  | .displayFilterDialog => some (if c.tappable then c.display false else c, [])
  | .displaySortDialog => some (if c.tappable && c.sortable then c.display true else c, [])
  | .onCheck pos isChecked => (c.onDialog fun d f => some (onCheck d f pos isChecked c)).map fun c' => (c', [])
  | .onPositive => (c.onDialog fun d f => onPositive d f c.close).map fun c' => (c', [])
  | .onNeutral => (c.onDialog fun d f => onNeutral d f c).map fun c' => (c', [])
  | .onNegative => (c.onDialog fun d f => some (onNegative d f c.close)).map fun c' => (c', [])
  | .onDismiss => (c.onDialog fun _ _ => some c.close).map fun c' => (c', [])
  | .onPause => some (if c.life = .resumed then { c with life := .paused } else c, [])
  | .onStop => some (if c.life = .paused then { c with life := .stopped } else c, [])
  | .onResume =>
    if c.life = .resumed then some (c, [])
    else some ({ c with life := .resumed },
      if c.mBNV = .forum then (forumGetPosts CoreActivity.repopulateForum).map .call else [])

/-! ### Replies -/

def onCreate (me : String) : AllTabs × List CoreTask :=
  ({ mUser := none
     mNewsCollection := none
     mForumCollection := none
     mMatchesCollection := none
     mStandingCollection := none
     mFilteredNews := none
     mFilteredForum := none
     mFilteredMatches := none
     mFilteredStandings := none
     mNewsFilterSelection := List.replicate 5 true
     mForumFilterSelection := List.replicate 9 true
     mForumSortSelection := 0
     mMatchesFilterSelection := 0
     mStandingsFilterSelection := 0
     mBNV := .news
     title := "The Football Gallery"
     mFilterTag := " filter:  "
     mSortTag := " sort: Popular "
     sortVisible := true
     fabVisible := false
     isLoading := true
     fragments := []
     dialog := none
     life := .resumed }, (userGetUserInfo me CoreActivity.getUserInfo).map .call)

/-- `RefreshReceiver.onReceive`; `EXTRA_SERIALIZABLE` is there if it is not `null`. -/
def onReceive (c : AllTabs) (intent : Intent) : Option (AllTabs × List CoreTask) :=
  if intent.action = CoreActivity.getUserInfo then
    match intent.result, intent.extra with
    | true, some (.user u) => some ({ c with mUser := some u }, [.newsAsyncTask])
    | true, some _ => none
    | _, _ => some (c, [])
  else if intent.action = CoreActivity.populateForum then
    match intent.result, intent.extra with
    | true, some (.posts ps) => some ({ c with mForumCollection := some ps }, [.matchesAsyncTask])
    | true, some _ => none
    | _, _ => some (c, [])
  else if intent.action = CoreActivity.updateForum then
    some (c, (forumGetPosts CoreActivity.repopulateForum).map .call)
  else if intent.action = CoreActivity.repopulateForum then
    match intent.result, intent.extra with
    | true, some (.posts ps) =>
      (replaceFragment toInstant c.mBNV { c with mForumCollection := some ps }).map fun c' => (c', [])
    | true, some _ => none
    | _, _ => some (c, [])
  else if intent.action = CoreActivity.checkForumCount then
    some (c, if intent.result then (forumGetPosts CoreActivity.repopulateForum).map .call else [])
  else some (c, [])

-- the code outside of the app that the parsers rely on
variable (env : Platform)

/-- The ends of the three tasks of `API`; the parsers' exceptions that they do not catch
are not caught here. -/
def onPostNewsAsync (result : String) (c : AllTabs) : Option (AllTabs × List CoreTask) :=
  (getLSNewsJSON env result).toOption.map fun news =>
    ({ c with mNewsCollection := some news }, (forumGetPosts CoreActivity.populateForum).map .call)

def onPostFixturesAsync (results : List String) (c : AllTabs) : Option (AllTabs × List CoreTask) :=
  (results.mapM fun result => (getMatchesJSON env result).toOption).map fun lists =>
    ({ c with mMatchesCollection := some lists }, [.standingsAsyncTask])

/-- `setSelectedItemId(0)` names no item and leaves the tab as it is. -/
def onPostStandingsAsync (results : List String) (c : AllTabs) : Option (AllTabs × List CoreTask) :=
  (results.mapM fun result => (getStandingsJSON env result).toOption).bind fun lists =>
    (replaceFragment toInstant c.mBNV { c with mStandingCollection := some lists }).map fun c' => (c', [])

/-- What the activity receives: a broadcast, and what the servers have answered to its
tasks (nothing for a league whose request failed). -/
inductive Reply where
  | broadcast (intent : Intent)
  | onPostNewsAsync (result : String)
  | onPostFixturesAsync (execute : String → Option String)
  | onPostStandingsAsync (execute : String → Option String)

def recv (c : AllTabs) : Reply → Option (AllTabs × List CoreTask)
  | .broadcast intent => if c.life = .resumed then onReceive toInstant c intent else some (c, [])
  | .onPostNewsAsync result => onPostNewsAsync env result c
  | .onPostFixturesAsync execute => onPostFixturesAsync env (MatchesAsyncTask.doInBackground execute) c
  | .onPostStandingsAsync execute => onPostStandingsAsync toInstant env (StandingsAsyncTask.doInBackground execute) c

/-- The reply is one to the task. -/
def answers : CoreTask → Reply → Bool
  | .call q, .broadcast i => i.action == q.action
  | .newsAsyncTask, .onPostNewsAsync _ => true
  | .matchesAsyncTask, .onPostFixturesAsync _ => true
  | .standingsAsyncTask, .onPostStandingsAsync _ => true
  | _, _ => false

end TimeZone

/-! ### Runs -/

/-- The activity with its tasks under way. -/
structure Running where
  core : AllTabs
  tasks : List CoreTask

inductive Event where
  | act (a : Action)
  /-- the task at place `n` ends -/
  | ends (n : ℕ) (r : Reply)
  /-- a broadcast for an activity that is open over this one -/
  | hears (i : Intent)

/-- The actions of other activities' broadcasts that this activity listens to. -/
def ofOthers (a : String) : Bool := a == CoreActivity.getUserInfo || a == CoreActivity.updateForum

/-- One event; an event that cannot happen changes nothing, and `none` is an exception.
Other activities are opened from the fragments. -/
def next (toInstant : ℤ → ℤ) (env : Platform) (s : Running) : Event → Option Running
  | .act a => (s.core.act toInstant a).map fun x => ⟨x.1, s.tasks ++ x.2⟩
  | .ends n r =>
    match s.tasks[n]? with
    | some t =>
      if answers t r then (s.core.recv toInstant env r).map fun x => ⟨x.1, s.tasks.eraseIdx n ++ x.2⟩ else some s
    | none => some s
  | .hears i =>
    if !s.core.isLoading && ofOthers i.action then
      (s.core.recv toInstant env (.broadcast i)).map fun x => ⟨x.1, s.tasks ++ x.2⟩
    else some s

/-- The app is started by the user `me`. -/
def launch (me : String) : Running := ⟨(onCreate me).1, (onCreate me).2⟩

/-! ### What can happen -/

def titleOf : Tab → String
  | .news => "News"
  | .forum => "Forum"
  | .matches => "Matches"
  | .standings => "Standings"

/-- What the activity has loaded and what is chosen stays. -/
structure Kept (c c' : AllTabs) : Prop where
  mUser : c'.mUser = c.mUser
  mNewsCollection : c'.mNewsCollection = c.mNewsCollection
  mForumCollection : c'.mForumCollection = c.mForumCollection
  mMatchesCollection : c'.mMatchesCollection = c.mMatchesCollection
  mStandingCollection : c'.mStandingCollection = c.mStandingCollection
  mNewsFilterSelection : c'.mNewsFilterSelection = c.mNewsFilterSelection
  mForumFilterSelection : c'.mForumFilterSelection = c.mForumFilterSelection
  mForumSortSelection : c'.mForumSortSelection = c.mForumSortSelection
  mMatchesFilterSelection : c'.mMatchesFilterSelection = c.mMatchesFilterSelection
  mStandingsFilterSelection : c'.mStandingsFilterSelection = c.mStandingsFilterSelection
  mBNV : c'.mBNV = c.mBNV
  dialog : c'.dialog = c.dialog
  life : c'.life = c.life

/-- A fragment of the tab is brought on screen, with the lists and the choices of the
activity, and the tags are written. -/
structure Replaced (tab : Tab) (c c' : AllTabs) : Prop where
  running : c.life ≠ .stopped
  kept : Kept c c'
  fragments : c'.fragments = c.fragments ++ [newInstance tab c']
  tagged : editOptionTags tab c' = c'

/-- A dialog does nothing else to what is on screen. -/
structure Applied (tab : Tab) (c c' : AllTabs) : Prop where
  replaced : Replaced tab c c'
  title : c'.title = c.title
  fab : c'.fabVisible = c.fabVisible
  isLoading : c'.isLoading = c.isLoading

/-- The dialog `d` of the fragment `f` is open, and can be tapped. -/
structure Open (c : AllTabs) (d : Dialog) (f : TabFragment) : Prop where
  life : c.life = .resumed
  dialog : c.dialog = some d
  opener : c.fragments[d.opener]? = some f

/-- What an action of the user can do. -/
inductive Acted (toInstant : ℤ → ℤ) (c : AllTabs) : Action → AllTabs → List CoreTask → Prop
  | stays {a} : Acted toInstant c a c []
  | selects {tab c'} (ht : c.tappable = true) (h : replaceFragment toInstant tab { c with mBNV := tab } = some c') :
      Acted toInstant c (.onBnvClick tab) c' []
  | displays {a d f} (ht : c.tappable = true) (hf : c.fragments[c.last]? = some f) (hd : d.opener = c.last)
      (hs : d.sort = true → f.tab = .forum ∧ a = .displaySortDialog) :
      Acted toInstant c a ({ c with dialog := some d }.setFragment d.opener (if d.single f then f.putAside else f)) []
  | checks {d f pos isChecked} (ho : c.Open d f) :
      Acted toInstant c (.onCheck pos isChecked) (onCheck d f pos isChecked c) []
  | applies {d f c'} (ho : c.Open d f) (h : onPositive d f c.close = some c') : Acted toInstant c .onPositive c' []
  | selectsAll {d f c'} (ho : c.Open d f) (h : onNeutral d f c = some c') : Acted toInstant c .onNeutral c' []
  | cancels {d f} (ho : c.Open d f) : Acted toInstant c .onNegative (onNegative d f c.close) []
  | dismisses {d f} (ho : c.Open d f) : Acted toInstant c .onDismiss c.close []
  | pauses (hl : c.life = .resumed) : Acted toInstant c .onPause { c with life := .paused } []
  | stops (hl : c.life = .paused) : Acted toInstant c .onStop { c with life := .stopped } []
  | resumes (hl : c.life ≠ .resumed) : Acted toInstant c .onResume { c with life := .resumed }
      (if c.mBNV = .forum then (forumGetPosts CoreActivity.repopulateForum).map .call else [])

/-- The broadcast says nothing to the activity. -/
def Ignored (c : AllTabs) (i : Intent) : Prop :=
  c.life ≠ .resumed ∨ i.result = false ∨ i.extra = none ∨
    i.action ≠ CoreActivity.getUserInfo ∧ i.action ≠ CoreActivity.populateForum ∧
      i.action ≠ CoreActivity.repopulateForum

/-- What a reply can do. -/
inductive Received (toInstant : ℤ → ℤ) (env : Platform) (c : AllTabs) : Reply → AllTabs → List CoreTask → Prop
  | stays {i} (hi : Ignored c i) : Received toInstant env c (.broadcast i) c []
  | told {x u} (hl : c.life = .resumed) (hx : x = some (.user u)) :
      Received toInstant env c (.broadcast ⟨CoreActivity.getUserInfo, true, x⟩) { c with mUser := some u }
        [.newsAsyncTask]
  | populated {x ps} (hl : c.life = .resumed) (hx : x = some (.posts ps)) :
      Received toInstant env c (.broadcast ⟨CoreActivity.populateForum, true, x⟩)
        { c with mForumCollection := some ps } [.matchesAsyncTask]
  | asks {i} (hl : c.life = .resumed)
      (ha : i.action = CoreActivity.updateForum ∨ i.action = CoreActivity.checkForumCount ∧ i.result = true) :
      Received toInstant env c (.broadcast i) c ((forumGetPosts CoreActivity.repopulateForum).map .call)
  | repopulated {x ps c'} (hl : c.life = .resumed) (hx : x = some (.posts ps))
      (h : replaceFragment toInstant c.mBNV { c with mForumCollection := some ps } = some c') :
      Received toInstant env c (.broadcast ⟨CoreActivity.repopulateForum, true, x⟩) c' []
  | news {result news} (hn : getLSNewsJSON env result = .ok news) :
      Received toInstant env c (.onPostNewsAsync result) { c with mNewsCollection := some news }
        ((forumGetPosts CoreActivity.populateForum).map .call)
  | fixtures {execute lists}
      (hf : (MatchesAsyncTask.doInBackground execute).mapM (fun result => (getMatchesJSON env result).toOption)
        = some lists) :
      Received toInstant env c (.onPostFixturesAsync execute) { c with mMatchesCollection := some lists }
        [.standingsAsyncTask]
  | teams {execute lists c'}
      (ht : (StandingsAsyncTask.doInBackground execute).mapM (fun result => (getStandingsJSON env result).toOption)
        = some lists)
      (h : replaceFragment toInstant c.mBNV { c with mStandingCollection := some lists } = some c') :
      Received toInstant env c (.onPostStandingsAsync execute) c' []

/-- An event is nothing, an action of the user, the end of a task or a broadcast for
another activity. -/
inductive Happened (toInstant : ℤ → ℤ) (env : Platform) (s : Running) : Event → Running → Prop
  | nothing {e} : Happened toInstant env s e s
  | acts {a c' ts} (h : Acted toInstant s.core a c' ts) : Happened toInstant env s (.act a) ⟨c', s.tasks ++ ts⟩
  | ends {n t r c' ts} (ht : s.tasks[n]? = some t) (hr : answers t r = true)
      (h : Received toInstant env s.core r c' ts) : Happened toInstant env s (.ends n r) ⟨c', s.tasks.eraseIdx n ++ ts⟩
  | hears {i c' ts} (hl : s.core.isLoading = false) (hi : ofOthers i.action = true)
      (h : Received toInstant env s.core (.broadcast i) c' ts) : Happened toInstant env s (.hears i) ⟨c', s.tasks ++ ts⟩

section Steps

variable {toInstant : ℤ → ℤ} {env : Platform} {c c' : AllTabs} {tab : Tab}

theorem commit_eq_some {f : TabFragment} :
    commit f c = some c' ↔ c.life ≠ .stopped ∧ c' = { c with fragments := c.fragments ++ [f] } := by
  unfold commit
  by_cases h : c.life = .stopped
  · rw [if_pos h]
    exact iff_of_false nofun fun hne => hne.1 h
  · rw [if_neg h]
    exact ⟨fun heq => ⟨h, (Option.some.inj heq).symm⟩, fun heq => congrArg some heq.2.symm⟩

theorem sortForumCollection_eq_some (h : sortForumCollection toInstant c = some c') :
    c' = { c with mFilteredForum := c'.mFilteredForum } := by
  unfold sortForumCollection at h
  split at h
  · obtain rfl := Option.some.inj h
    rfl
  · obtain ⟨l, -, rfl⟩ := Option.map_eq_some_iff.mp h
    rfl

/-- **A tab is brought on screen** with its title and its button, and the progress view
goes. -/
theorem replaced_replaceFragment (h : replaceFragment toInstant tab c = some c') :
    Replaced tab c c' ∧ c'.title = titleOf tab ∧ c'.fabVisible = (tab == .forum) ∧ c'.isLoading = false := by
  obtain ⟨c₁, h₁, h⟩ := Option.bind_eq_some_iff.mp h
  obtain ⟨hlife, rfl⟩ := commit_eq_some.mp h
  cases tab with
  | news =>
    obtain rfl := Option.some.inj h₁
    exact ⟨⟨hlife, by constructor <;> rfl, rfl, rfl⟩, rfl, rfl, rfl⟩
  | forum =>
    have hsort := sortForumCollection_eq_some h₁
    rw [hsort]
    rw [hsort] at hlife
    exact ⟨⟨hlife, by constructor <;> rfl, rfl, rfl⟩, rfl, rfl, rfl⟩
  | «matches» =>
    obtain ⟨shown, -, rfl⟩ := Option.map_eq_some_iff.mp h₁
    exact ⟨⟨hlife, by constructor <;> rfl, rfl, rfl⟩, rfl, rfl, rfl⟩
  | standings =>
    obtain ⟨shown, -, rfl⟩ := Option.map_eq_some_iff.mp h₁
    exact ⟨⟨hlife, by constructor <;> rfl, rfl, rfl⟩, rfl, rfl, rfl⟩

theorem applied_replaceNewsFragment {flags : List Bool} (h : replaceNewsFragment flags c = some c') :
    Applied .news { c with mNewsFilterSelection := flags } c' := by
  obtain ⟨hlife, rfl⟩ := commit_eq_some.mp h
  exact ⟨⟨hlife, by constructor <;> rfl, rfl, rfl⟩, rfl, rfl, rfl⟩

theorem applied_replaceForumFragment {flags : List Bool} {selection : ℤ}
    (h : replaceForumFragment flags selection c = some c') :
    Applied .forum { c with mForumFilterSelection := flags, mForumSortSelection := selection } c' := by
  obtain ⟨hlife, rfl⟩ := commit_eq_some.mp h
  exact ⟨⟨hlife, by constructor <;> rfl, rfl, rfl⟩, rfl, rfl, rfl⟩

theorem applied_replaceMatchesFragment {i : ℕ} (h : replaceMatchesFragment i c = some c') :
    Applied .matches { c with mMatchesFilterSelection := i } c' := by
  obtain ⟨c₁, h₁, h⟩ := Option.bind_eq_some_iff.mp h
  obtain ⟨shown, -, rfl⟩ := Option.map_eq_some_iff.mp h₁
  obtain ⟨hlife, rfl⟩ := commit_eq_some.mp h
  exact ⟨⟨hlife, by constructor <;> rfl, rfl, rfl⟩, rfl, rfl, rfl⟩

theorem applied_replaceStandingsFragment {i : ℕ} (h : replaceStandingsFragment i c = some c') :
    Applied .standings { c with mStandingsFilterSelection := i } c' := by
  obtain ⟨c₁, h₁, h⟩ := Option.bind_eq_some_iff.mp h
  obtain ⟨shown, -, rfl⟩ := Option.map_eq_some_iff.mp h₁
  obtain ⟨hlife, rfl⟩ := commit_eq_some.mp h
  exact ⟨⟨hlife, by constructor <;> rfl, rfl, rfl⟩, rfl, rfl, rfl⟩

theorem onDialog_eq_some {g : Dialog → TabFragment → Option AllTabs} (h : c.onDialog g = some c') :
    c' = c ∨ ∃ d f, c.Open d f ∧ g d f = some c' := by
  unfold onDialog at h
  split at h
  · rename_i d hlife hdialog
    cases hf : c.fragments[d.opener]? with
    | none =>
      rw [hf] at h
      exact .inl (Option.some.inj h).symm
    | some f =>
      rw [hf] at h
      exact .inr ⟨d, f, ⟨hlife, hdialog, hf⟩, h⟩
  · exact .inl (Option.some.inj h).symm

theorem acted_display {a : Action} {sort : Bool} (ht : c.tappable = true)
    (hs : sort = true → c.sortable = true ∧ a = .displaySortDialog) :
    Acted toInstant c a (c.display sort) [] := by
  unfold display
  cases hf : c.fragments[c.last]? with
  | none => exact .stays
  | some f =>
    refine @Acted.displays _ _ _ ⟨sort, c.last⟩ _ ht hf rfl fun hsort => ?_
    obtain ⟨hforum, ha⟩ := hs hsort
    unfold sortable at hforum
    rw [hf] at hforum
    exact ⟨beq_iff_eq.mp hforum, ha⟩

theorem acted_act {a : Action} {ts : List CoreTask} (h : c.act toInstant a = some (c', ts)) :
    Acted toInstant c a c' ts := by
  have hdialog : ∀ {g}, (c.onDialog g).map (fun c' => (c', ([] : List CoreTask))) = some (c', ts) →
      ts = [] ∧ (c' = c ∨ ∃ d f, c.Open d f ∧ g d f = some c') := by
    intro g hg
    obtain ⟨c₁, h₁, heq⟩ := Option.map_eq_some_iff.mp hg
    obtain ⟨rfl, rfl⟩ := Prod.mk.inj heq
    exact ⟨rfl, onDialog_eq_some h₁⟩
  cases a with
  | onBnvClick tab =>
    simp only [act] at h
    split at h
    · rename_i ht
      obtain ⟨c₁, h₁, heq⟩ := Option.map_eq_some_iff.mp h
      obtain ⟨rfl, rfl⟩ := Prod.mk.inj heq
      exact .selects ht h₁
    · obtain ⟨rfl, rfl⟩ := Prod.mk.inj (Option.some.inj h)
      exact .stays
  | displayFilterDialog =>
    obtain ⟨rfl, rfl⟩ := Prod.mk.inj (Option.some.inj h)
    split
    · rename_i ht
      exact acted_display ht nofun
    · exact .stays
  | displaySortDialog =>
    obtain ⟨rfl, rfl⟩ := Prod.mk.inj (Option.some.inj h)
    split
    · rename_i ht
      obtain ⟨ht, hs⟩ := Bool.and_eq_true_iff.mp ht
      exact acted_display ht fun _ => ⟨hs, rfl⟩
    · exact .stays
  | onCheck pos isChecked =>
    obtain ⟨rfl, rfl | ⟨d, f, ho, hg⟩⟩ := hdialog h
    · exact .stays
    · exact Option.some.inj hg ▸ .checks ho
  | onPositive =>
    obtain ⟨rfl, rfl | ⟨d, f, ho, hg⟩⟩ := hdialog h
    · exact .stays
    · exact .applies ho hg
  | onNeutral =>
    obtain ⟨rfl, rfl | ⟨d, f, ho, hg⟩⟩ := hdialog h
    · exact .stays
    · exact .selectsAll ho hg
  | onNegative =>
    obtain ⟨rfl, rfl | ⟨d, f, ho, hg⟩⟩ := hdialog h
    · exact .stays
    · exact Option.some.inj hg ▸ .cancels ho
  | onDismiss =>
    obtain ⟨rfl, rfl | ⟨d, f, ho, hg⟩⟩ := hdialog h
    · exact .stays
    · exact Option.some.inj hg ▸ .dismisses ho
  | onPause =>
    obtain ⟨rfl, rfl⟩ := Prod.mk.inj (Option.some.inj h)
    split
    · rename_i hl
      exact .pauses hl
    · exact .stays
  | onStop =>
    obtain ⟨rfl, rfl⟩ := Prod.mk.inj (Option.some.inj h)
    split
    · rename_i hl
      exact .stops hl
    · exact .stays
  | onResume =>
    simp only [act] at h
    split at h
    · obtain ⟨rfl, rfl⟩ := Prod.mk.inj (Option.some.inj h)
      exact .stays
    · rename_i hl
      obtain ⟨rfl, rfl⟩ := Prod.mk.inj (Option.some.inj h)
      exact .resumes hl

theorem received_recv {r : Reply} {ts : List CoreTask} (h : c.recv toInstant env r = some (c', ts)) :
    Received toInstant env c r c' ts := by
  have hstays : ∀ {i} {ts₁ : List CoreTask}, some (c, ts₁) = some (c', ts) → ts₁ = [] → Ignored c i →
      Received toInstant env c (.broadcast i) c' ts := by
    intro i ts₁ heq hts hi
    obtain ⟨rfl, rfl⟩ := Prod.mk.inj (Option.some.inj heq)
    exact hts ▸ .stays hi
  -- a positive broadcast with an extra is not among the last branches of a handler
  have hnone : ∀ {a b x}, (∀ y, b = true → x = some y → False) → Ignored c ⟨a, b, x⟩ := by
    intro a b x hno
    cases b with
    | false => exact .inr (.inl rfl)
    | true =>
      cases x with
      | none => exact .inr (.inr (.inl rfl))
      | some y => exact (hno y rfl rfl).elim
  cases r with
  | broadcast i =>
    obtain ⟨a, b, x⟩ := i
    simp only [recv] at h
    split at h
    · rename_i hl
      unfold onReceive at h
      simp only at h
      split at h
      · rename_i ha
        subst ha
        split at h
        · obtain ⟨rfl, rfl⟩ := Prod.mk.inj (Option.some.inj h)
          exact .told hl rfl
        · cases h
        · rename_i hno
          exact hstays h rfl (hnone hno)
      · rename_i hinfo
        split at h
        · rename_i ha
          subst ha
          split at h
          · obtain ⟨rfl, rfl⟩ := Prod.mk.inj (Option.some.inj h)
            exact .populated hl rfl
          · cases h
          · rename_i hno
            exact hstays h rfl (hnone hno)
        · rename_i hpopulate
          split at h
          · rename_i ha
            obtain ⟨rfl, rfl⟩ := Prod.mk.inj (Option.some.inj h)
            exact .asks hl (.inl ha)
          · split at h
            · rename_i ha
              subst ha
              split at h
              · obtain ⟨c₁, h₁, heq⟩ := Option.map_eq_some_iff.mp h
                obtain ⟨rfl, rfl⟩ := Prod.mk.inj heq
                exact .repopulated hl rfl h₁
              · cases h
              · rename_i hno
                exact hstays h rfl (hnone hno)
            · rename_i hrepopulate
              have hother : Ignored c ⟨a, b, x⟩ := .inr (.inr (.inr ⟨hinfo, hpopulate, hrepopulate⟩))
              split at h
              · rename_i ha
                obtain ⟨rfl, rfl⟩ := Prod.mk.inj (Option.some.inj h)
                split
                · rename_i hr
                  exact .asks hl (.inr ⟨ha, hr⟩)
                · exact .stays hother
              · exact hstays h rfl hother
    · rename_i hl
      exact hstays h rfl (.inl hl)
  | onPostNewsAsync result =>
    obtain ⟨news, hn, heq⟩ := Option.map_eq_some_iff.mp h
    obtain ⟨rfl, rfl⟩ := Prod.mk.inj heq
    exact .news (toOption_eq_some_iff.mp hn)
  | onPostFixturesAsync execute =>
    obtain ⟨lists, hf, heq⟩ := Option.map_eq_some_iff.mp h
    obtain ⟨rfl, rfl⟩ := Prod.mk.inj heq
    exact .fixtures hf
  | onPostStandingsAsync execute =>
    obtain ⟨lists, ht, h⟩ := Option.bind_eq_some_iff.mp h
    obtain ⟨c₁, h₁, heq⟩ := Option.map_eq_some_iff.mp h
    obtain ⟨rfl, rfl⟩ := Prod.mk.inj heq
    exact .teams ht h₁

theorem happened_next {s s' : Running} {e : Event} (h : next toInstant env s e = some s') :
    Happened toInstant env s e s' := by
  cases e with
  | act a =>
    obtain ⟨x, hx, rfl⟩ := Option.map_eq_some_iff.mp h
    exact .acts (acted_act hx)
  | ends n r =>
    simp only [next] at h
    split at h
    · rename_i ht
      split at h
      · rename_i hr
        obtain ⟨x, hx, rfl⟩ := Option.map_eq_some_iff.mp h
        exact .ends ht hr (received_recv hx)
      · exact Option.some.inj h ▸ .nothing
    · exact Option.some.inj h ▸ .nothing
  | hears i =>
    simp only [next] at h
    split at h
    · rename_i hi
      obtain ⟨hl, hi⟩ := Bool.and_eq_true_iff.mp hi
      obtain ⟨x, hx, rfl⟩ := Option.map_eq_some_iff.mp h
      exact .hears ((Bool.not_eq_true' _).mp hl) hi (received_recv hx)
    · exact Option.some.inj h ▸ .nothing

end Steps

end AllTabs
end FootballGallery
