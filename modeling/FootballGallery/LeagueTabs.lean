/-
# The tabs of the leagues

`MatchesAsyncTask` and `StandingsAsyncTask` request one response a league and keep
those that arrive; `CoreActivity` parses what they kept and takes the list of a
league from it by the league's position. So a league's list is its own when no
request before it, nor its own, has failed; otherwise the list is that of a later
league, or there is none.

Key definitions: `MatchesAsyncTask.doInBackground`, `StandingsAsyncTask.doInBackground`,
`Tabs`, `populateMatchesCollection`, `ShowsLeague`, `InPlace`.
Key theorems: `shown_iff`, `tabs_iff`.
-/
import FootballGallery.Feeds
import FootballGallery.Lib.Gaps

namespace FootballGallery

open APIUtil Gaps

/-- The ids the requests are made for, in the order of the filter dialog. -/
def leagueIds : List String := ["39", "140", "78", "135", "61"]

/-- `f_utils/MatchesAsyncTask`; `execute` is the body of the response to the request
for a league, nothing where there was an `IOException`. -/
def MatchesAsyncTask.doInBackground (execute : String → Option String) : List String := gather execute leagueIds []

/-- `f_utils/StandingsAsyncTask`, which differs in the url only -/
def StandingsAsyncTask.doInBackground (execute : String → Option String) : List String := gather execute leagueIds []

/-- What `b_core/CoreActivity` keeps for the two tabs. -/
structure Tabs where
  mMatchesCollection : List (List Fixture)
  mStandingCollection : List (List Team)
  mMatchesFilterSelection : ℕ
  mStandingsFilterSelection : ℕ
  mFilteredMatches : List Fixture
  mFilteredStandings : List Team

namespace Tabs

variable (env : Platform)

/-- The steps of the page; `none`: an exception that is not caught. -/
def onPostFixturesAsync (results : List String) (c : Tabs) : Option Tabs := do
  let mMatchesCollection ← results.mapM fun result => (getMatchesJSON env result).toOption
  return { c with mMatchesCollection }

def onPostStandingsAsync (results : List String) (c : Tabs) : Option Tabs := do
  let mStandingCollection ← results.mapM fun result => (getStandingsJSON env result).toOption
  return { c with mStandingCollection }

/-- One task after the other: the second is started when the results of the first have
been parsed. -/
def populateMatchesCollection (fixtures standings : String → Option String) (c : Tabs) : Option Tabs := do
  let c ← onPostFixturesAsync env (MatchesAsyncTask.doInBackground fixtures) c
  onPostStandingsAsync env (StandingsAsyncTask.doInBackground standings) c

def filterMatchesCollection (c : Tabs) : Option Tabs := do
  let mFilteredMatches ← c.mMatchesCollection[c.mMatchesFilterSelection]?
  return { c with mFilteredMatches }

def filterStandingsCollection (c : Tabs) : Option Tabs := do
  let mFilteredStandings ← c.mStandingCollection[c.mStandingsFilterSelection]?
  return { c with mFilteredStandings }

/-- `filterOption` is the position of the league in the dialog. -/
def replaceMatchesFragment (filterOption : ℕ) (c : Tabs) : Option Tabs :=
  filterMatchesCollection { c with mMatchesFilterSelection := filterOption }

def replaceStandingsFragment (filterOption : ℕ) (c : Tabs) : Option Tabs :=
  filterStandingsCollection { c with mStandingsFilterSelection := filterOption }

end Tabs

/-! ### What they should show -/

section Specification

/-- The response to the `i`-th request. -/
def responseOf (execute : String → Option String) (i : ℕ) : Option String := leagueIds[i]?.bind execute

variable {β : Type} (parse : String → Except Failure (List β)) (execute : String → Option String)

/-- The parse of the league's response, empty when its request failed. -/
def ShowsLeague (i : ℕ) (shown : List β) : Prop :=
  match responseOf execute i with
  | some result => parse result = .ok shown
  | none => shown = []

/-- The league's list is where it is looked up: no request up to its own failed, or
what stands there instead, the response to a later request, is parsed to the same. -/
def InPlace (i : ℕ) : Prop :=
  (∀ k ≤ i, (responseOf execute k).isSome) ∨
    ∃ j result shown, i < j ∧ answered execute leagueIds j = i ∧ responseOf execute j = some result ∧
      parse result = .ok shown ∧ ShowsLeague parse execute i shown

end Specification

/-- Both lists are read, and each is that of the league that has been selected. -/
def TabsRight (env : Platform) (fixtures standings : String → Option String) (i j : ℕ) (c : Tabs) : Prop :=
  ∃ read, c.populateMatchesCollection env fixtures standings = some read ∧
    (∃ c', read.replaceMatchesFragment i = some c' ∧
      ShowsLeague (getMatchesJSON env) fixtures i c'.mFilteredMatches) ∧
    ∃ c', read.replaceStandingsFragment j = some c' ∧
      ShowsLeague (getStandingsJSON env) standings j c'.mFilteredStandings

/-! ### What they show -/

section Shown

variable {β : Type} {parse : String → Except Failure (List β)} {execute : String → Option String}

theorem toOption_eq_some_iff {result : String} {l : List β} : (parse result).toOption = some l ↔ parse result = .ok l := by
  cases parse result with
  | error e => exact iff_of_false nofun nofun
  | ok l' => exact ⟨fun h => congrArg _ (Option.some.inj h), fun h => congrArg _ (Except.ok.inj h)⟩

/-- The parses all return when those of the responses do. -/
theorem mapM_gather_isSome_iff :
    ((gather execute leagueIds []).mapM fun result => (parse result).toOption).isSome ↔
      ∀ k result, responseOf execute k = some result → ∃ l, parse result = .ok l := by
  rw [mapM_isSome_iff, gather_eq, List.nil_append]
  simp only [Option.isSome_iff_exists, toOption_eq_some_iff, List.mem_filterMap]
  constructor
  · intro h k result hk
    obtain ⟨id, hid, hresult⟩ := Option.bind_eq_some_iff.mp hk
    exact h result ⟨id, List.mem_of_getElem? hid, hresult⟩
  · rintro h result ⟨id, hid, hresult⟩
    obtain ⟨k, hk⟩ := List.mem_iff_getElem?.mp hid
    exact h k result (Option.bind_eq_some_iff.mpr ⟨id, hk, hresult⟩)

/-- **A league's list is shown exactly when** it is where it is looked up. -/
theorem shown_iff {collection : List (List β)}
    (hread : ((gather execute leagueIds []).mapM fun result => (parse result).toOption) = some collection) (i : ℕ) :
    (∃ shown, collection[i]? = some shown ∧ ShowsLeague parse execute i shown) ↔ InPlace parse execute i := by
  have hall := mapM_gather_isSome_iff.mp (Option.isSome_of_eq_some hread)
  have hlookup : ∀ shown, collection[i]? = some shown ↔
      ∃ result, (leagueIds.filterMap execute)[i]? = some result ∧ parse result = .ok shown := fun shown => by
    rw [getElem?_of_mapM hread, gather_eq, List.nil_append, Option.bind_eq_some_iff]
    simp only [toOption_eq_some_iff]
  -- the property of a response that its parse is what should be shown
  have hown : ∀ result, leagueIds[i]?.bind execute = some result →
      ∃ shown, parse result = .ok shown ∧ ShowsLeague parse execute i shown := by
    intro result hresult
    obtain ⟨l, hl⟩ := hall i result hresult
    refine ⟨l, hl, ?_⟩
    unfold ShowsLeague responseOf
    rw [hresult]
    exact hl
  calc (∃ shown, collection[i]? = some shown ∧ ShowsLeague parse execute i shown)
      ↔ ∃ result, (leagueIds.filterMap execute)[i]? = some result ∧
          ∃ shown, parse result = .ok shown ∧ ShowsLeague parse execute i shown := by
        simp only [hlookup]
        constructor
        · rintro ⟨shown, ⟨result, hresult, hparse⟩, hshows⟩
          exact ⟨result, hresult, shown, hparse, hshows⟩
        · rintro ⟨result, hresult, shown, hparse, hshows⟩
          exact ⟨shown, ⟨result, hresult, hparse⟩, hshows⟩
    _ ↔ InPlace parse execute i := by
        rw [found_iff hown]
        refine or_congr Iff.rfl (exists_congr fun j => exists_congr fun result => ?_)
        constructor
        · rintro ⟨hj, hcount, hresult, shown, hparse, hshows⟩
          exact ⟨shown, hj, hcount, hresult, hparse, hshows⟩
        · rintro ⟨shown, hj, hcount, hresult, hparse, hshows⟩
          exact ⟨hj, hcount, hresult, shown, hparse, hshows⟩

end Shown

/-! ### The page -/

namespace Tabs

variable {env : Platform} {c c' : Tabs}

theorem populateMatchesCollection_eq_some_iff {fixtures standings : String → Option String} :
    c.populateMatchesCollection env fixtures standings = some c' ↔ ∃ lists teams,
      ((MatchesAsyncTask.doInBackground fixtures).mapM fun result => (getMatchesJSON env result).toOption) = some lists ∧
      ((StandingsAsyncTask.doInBackground standings).mapM fun result => (getStandingsJSON env result).toOption)
        = some teams ∧
      c' = { c with mMatchesCollection := lists, mStandingCollection := teams } := by
  constructor
  · intro h
    obtain ⟨c₁, h₁, h₂⟩ := Option.bind_eq_some_iff.mp h
    obtain ⟨lists, hlists, h₁⟩ := Option.bind_eq_some_iff.mp h₁
    obtain rfl := Option.some.inj h₁
    obtain ⟨teams, hteams, h₂⟩ := Option.bind_eq_some_iff.mp h₂
    exact ⟨lists, teams, hlists, hteams, (Option.some.inj h₂).symm⟩
  · rintro ⟨lists, teams, hlists, hteams, rfl⟩
    have hfixtures : onPostFixturesAsync env (MatchesAsyncTask.doInBackground fixtures) c =
        some { c with mMatchesCollection := lists } := Option.bind_eq_some_iff.mpr ⟨lists, hlists, rfl⟩
    exact Option.bind_eq_some_iff.mpr ⟨_, hfixtures, Option.bind_eq_some_iff.mpr ⟨teams, hteams, rfl⟩⟩

theorem replaceMatchesFragment_eq_some_iff {i : ℕ} : c.replaceMatchesFragment i = some c' ↔
    ∃ shown, c.mMatchesCollection[i]? = some shown ∧
      c' = { c with mMatchesFilterSelection := i, mFilteredMatches := shown } :=
  Option.bind_eq_some_iff.trans (exists_congr fun _ => and_congr_right fun _ => Option.some_inj.trans eq_comm)

theorem replaceStandingsFragment_eq_some_iff {j : ℕ} : c.replaceStandingsFragment j = some c' ↔
    ∃ shown, c.mStandingCollection[j]? = some shown ∧
      c' = { c with mStandingsFilterSelection := j, mFilteredStandings := shown } :=
  Option.bind_eq_some_iff.trans (exists_congr fun _ => and_congr_right fun _ => Option.some_inj.trans eq_comm)

end Tabs

open Tabs

/-- **Both tabs show the leagues that are selected exactly when** every response for the
matches can be read and each of the two lists is where it is looked up. -/
theorem tabs_iff (env : Platform) (fixtures standings : String → Option String) (i j : ℕ) (c : Tabs) :
    TabsRight env fixtures standings i j c ↔
      (∀ k result, responseOf fixtures k = some result → MatchesReadable env result) ∧
        InPlace (getMatchesJSON env) fixtures i ∧ InPlace (getStandingsJSON env) standings j := by
  have hfixtures := @mapM_gather_isSome_iff Fixture (getMatchesJSON env) fixtures
  simp only [getMatchesJSON_isOk_iff] at hfixtures
  -- the standings are read whatever the responses are
  have hstandings := (@mapM_gather_isSome_iff Team (getStandingsJSON env) standings).mpr fun k result _ => by
    obtain ⟨l, hl, -⟩ := @standings_right env result
    exact ⟨l, hl⟩
  obtain ⟨teams, hteams⟩ := Option.isSome_iff_exists.mp hstandings
  rw [← hfixtures, ← shown_iff hteams]
  constructor
  · rintro ⟨read, hread, ⟨c₁, h₁, hshows₁⟩, c₂, h₂, hshows₂⟩
    obtain ⟨lists, teams', hlists, hteams', rfl⟩ := populateMatchesCollection_eq_some_iff.mp hread
    obtain rfl := Option.some.inj (hteams.symm.trans hteams')
    obtain ⟨shown₁, hshown₁, rfl⟩ := replaceMatchesFragment_eq_some_iff.mp h₁
    obtain ⟨shown₂, hshown₂, rfl⟩ := replaceStandingsFragment_eq_some_iff.mp h₂
    have hplace := (shown_iff hlists i).mp ⟨shown₁, hshown₁, hshows₁⟩
    exact ⟨Option.isSome_of_eq_some hlists, hplace, shown₂, hshown₂, hshows₂⟩
  · rintro ⟨hsome, hplace, shown₂, hshown₂, hshows₂⟩
    obtain ⟨lists, hlists⟩ := Option.isSome_iff_exists.mp hsome
    obtain ⟨shown₁, hshown₁, hshows₁⟩ := (shown_iff hlists i).mpr hplace
    refine ⟨_, populateMatchesCollection_eq_some_iff.mpr ⟨lists, teams, hlists, hteams, rfl⟩, ?_, ?_⟩
    · exact ⟨_, replaceMatchesFragment_eq_some_iff.mpr ⟨shown₁, hshown₁, rfl⟩, hshows₁⟩
    · exact ⟨_, replaceStandingsFragment_eq_some_iff.mpr ⟨shown₂, hshown₂, rfl⟩, hshows₂⟩

/-! The request for the first league fails; every tab shows the next league's list, and
the last one none. -/

def noFirst (id : String) : Option String := if id = "39" then none else some id

def blankTabs : Tabs := ⟨[], [], 0, 0, [], []⟩

theorem last_tab_missing : MatchesAsyncTask.doInBackground noFirst = ["140", "78", "135", "61"] ∧
    (∃ read, blankTabs.populateMatchesCollection sample noFirst noFirst = some read ∧
      read.replaceMatchesFragment 4 = none) ∧
    ¬ TabsRight sample noFirst noFirst 4 4 blankTabs := by
  have hread : blankTabs.populateMatchesCollection sample noFirst noFirst =
      some { blankTabs with mMatchesCollection := [[], [], [], []], mStandingCollection := [[], [], [], []] } := rfl
  refine ⟨rfl, ⟨_, hread, rfl⟩, ?_⟩
  rintro ⟨read, h, ⟨c', hc', _⟩, _⟩
  obtain rfl := Option.some.inj (hread.symm.trans h)
  cases hc'

end FootballGallery
