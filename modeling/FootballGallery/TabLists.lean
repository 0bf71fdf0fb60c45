/-
# What the tabs of the leagues show, over the runs of the main activity

The lists of the matches and of the standings are read once a start, from what the
servers have answered to one task, and may be read anew while one of them is on screen.
What a tab shows is at the place of the selected league among the lists of one reply;
and it is the list of the league that the tag names exactly when this league's list is
where it is looked up (`leagues_shown`). No choice that is cancelled, and nothing that
arrives, puts the list of another league on screen.

Key definitions: `readLists`, `LeagueShown`, `Listing`, `Listed`, `Filtered`.
Key theorems: `listed_acted`, `listed_received`, `leagues_shown`.
-/
import FootballGallery.TabRuns

namespace FootballGallery
namespace AllTabs

open DBUtil APIUtil Gaps Runs

/-- The list of a league that a fragment shows. -/
inductive Listing where
  | fixtures (l : Option (List Fixture))
  | teams (l : Option (List Team))
  | other

def listing : TabFragment → Listing
  | .matches f => .fixtures f.mCollection
  | .standings f => .teams f.mCollection
  | _ => .other

/-- What is on screen. -/
def listed (c : AllTabs) : Option Listing := (c.fragments.map listing).getLast?

section Replies

variable {β : Type} (parse : String → Except Failure (List β)) (execute : String → Option String)

/-- What the activity reads from the answers to a task: a list for each that has arrived. -/
def readLists : Option (List (List β)) := (gather execute leagueIds []).mapM fun result => (parse result).toOption

/-- On the tab is, under the tag of the league `i`, the list at its place among those of
the reply; and this is the list of the league exactly when it is where it is looked up. -/
structure LeagueShown (i : ℕ) (tag : String) (shown : List β) : Prop where
  tag : tag = FilterDialog.getFilterTagText (leagueText i)
  stands : (readLists parse execute).bind (·[i]?) = some shown
  right_iff : ShowsLeague parse execute i shown ↔ InPlace parse execute i

variable {parse execute}

theorem right_iff_of_stands {i : ℕ} {shown : List β} (h : (readLists parse execute).bind (·[i]?) = some shown) :
    ShowsLeague parse execute i shown ↔ InPlace parse execute i := by
  obtain ⟨lists, hread, hshown⟩ := Option.bind_eq_some_iff.mp h
  rw [← shown_iff hread i]
  refine ⟨fun hright => ⟨shown, hshown, hright⟩, ?_⟩
  rintro ⟨shown', hshown', hright⟩
  obtain rfl := Option.some.inj (hshown.symm.trans hshown')
  exact hright

end Replies

section Invariant

-- what the tasks have been answered with
variable (env : Platform) (fixtures teams : (String → Option String) → Prop)

/-- What is loaded comes from the replies. -/
structure Loaded (c : AllTabs) : Prop where
  fixtures : ∀ lists, c.mMatchesCollection = some lists →
    ∃ execute, fixtures execute ∧ readLists (getMatchesJSON env) execute = some lists
  teams : ∀ lists, c.mStandingCollection = some lists →
    ∃ execute, teams execute ∧ readLists (getStandingsJSON env) execute = some lists

/-- So does what is on screen, and it is the selected league's. -/
structure Listed (c : AllTabs) : Prop where
  loaded : Loaded env fixtures teams c
  fixtures : ∀ l, c.listed = some (.fixtures l) → ∃ execute shown, fixtures execute ∧ l = some shown ∧
    (readLists (getMatchesJSON env) execute).bind (·[c.mMatchesFilterSelection]?) = some shown
  teams : ∀ l, c.listed = some (.teams l) → ∃ execute shown, teams execute ∧ l = some shown ∧
    (readLists (getStandingsJSON env) execute).bind (·[c.mStandingsFilterSelection]?) = some shown

end Invariant

/-- The list for the fragment of the tab has been read. -/
structure Filtered (tab : Tab) (c : AllTabs) : Prop where
  fixtures : tab = .matches → ∃ lists shown, c.mMatchesCollection = some lists ∧
    lists[c.mMatchesFilterSelection]? = some shown ∧ c.mFilteredMatches = some shown
  teams : tab = .standings → ∃ lists shown, c.mStandingCollection = some lists ∧
    lists[c.mStandingsFilterSelection]? = some shown ∧ c.mFilteredStandings = some shown

section Steps

variable {toInstant : ℤ → ℤ} {env : Platform} {fixtures teams : (String → Option String) → Prop} {c c' : AllTabs}
  {tab : Tab} {d : Dialog} {f f' : TabFragment} {n : ℕ} {ts : List CoreTask}

/-! ### The lists that are read -/

theorem filtered_matches (h : filterMatchesCollection c = some c') : Filtered .matches c' := by
  obtain ⟨shown, hshown, rfl⟩ := Option.map_eq_some_iff.mp h
  obtain ⟨lists, hlists, hshown⟩ := Option.bind_eq_some_iff.mp hshown
  exact ⟨fun _ => ⟨lists, shown, hlists, hshown, rfl⟩, fun h => Tab.noConfusion h⟩

theorem filtered_standings (h : filterStandingsCollection c = some c') : Filtered .standings c' := by
  obtain ⟨shown, hshown, rfl⟩ := Option.map_eq_some_iff.mp h
  obtain ⟨lists, hlists, hshown⟩ := Option.bind_eq_some_iff.mp hshown
  exact ⟨fun h => Tab.noConfusion h, fun _ => ⟨lists, shown, hlists, hshown, rfl⟩⟩

theorem filtered_other (hm : tab ≠ .matches) (hs : tab ≠ .standings) : Filtered tab c :=
  ⟨fun h => absurd h hm, fun h => absurd h hs⟩

theorem filtered_replaceFragment (h : replaceFragment toInstant tab c = some c') : Filtered tab c' := by
  obtain ⟨c₁, h₁, hcommit⟩ := Option.bind_eq_some_iff.mp h
  obtain ⟨-, rfl⟩ := commit_eq_some.mp hcommit
  cases tab with
  | news | forum => exact filtered_other (by decide) (by decide)
  | «matches» =>
    have hf := filtered_matches h₁
    exact ⟨hf.fixtures, hf.teams⟩
  | standings =>
    have hf := filtered_standings h₁
    exact ⟨hf.fixtures, hf.teams⟩

theorem filtered_replaceMatchesFragment {i : ℕ} (h : replaceMatchesFragment i c = some c') : Filtered .matches c' := by
  obtain ⟨c₁, h₁, hcommit⟩ := Option.bind_eq_some_iff.mp h
  obtain ⟨-, rfl⟩ := commit_eq_some.mp hcommit
  have hf := filtered_matches h₁
  exact ⟨hf.fixtures, hf.teams⟩

theorem filtered_replaceStandingsFragment {i : ℕ} (h : replaceStandingsFragment i c = some c') :
    Filtered .standings c' := by
  obtain ⟨c₁, h₁, hcommit⟩ := Option.bind_eq_some_iff.mp h
  obtain ⟨-, rfl⟩ := commit_eq_some.mp hcommit
  have hf := filtered_standings h₁
  exact ⟨hf.fixtures, hf.teams⟩

/-! ### What is on screen -/

theorem listed_replaced (h : Replaced tab c c') : c'.listed = some (listing (newInstance tab c')) := by
  unfold listed
  rw [h.fragments, List.map_append]
  exact List.getLast?_concat

/-- **A fragment is brought on screen** with the list of the selected league. -/
theorem Replaced.listed (hr : Replaced tab c c') (h : Loaded env fixtures teams c) (hf : Filtered tab c') :
    Listed env fixtures teams c' := by
  have hloaded : Loaded env fixtures teams c' :=
    ⟨hr.kept.mMatchesCollection ▸ h.fixtures, hr.kept.mStandingCollection ▸ h.teams⟩
  refine ⟨hloaded, fun l hl => ?_, fun l hl => ?_⟩
  · have heq := Option.some.inj ((listed_replaced hr).symm.trans hl)
    cases tab with
    | «matches» =>
      obtain ⟨lists, shown, hlists, hshown, hfiltered⟩ := hf.fixtures rfl
      obtain ⟨execute, hasked, hread⟩ := hloaded.fixtures lists hlists
      exact ⟨execute, shown, hasked, (Listing.fixtures.inj heq).symm.trans hfiltered,
        Option.bind_eq_some_iff.mpr ⟨lists, hread, hshown⟩⟩
    | _ => cases heq
  · have heq := Option.some.inj ((listed_replaced hr).symm.trans hl)
    cases tab with
    | standings =>
      obtain ⟨lists, shown, hlists, hshown, hfiltered⟩ := hf.teams rfl
      obtain ⟨execute, hasked, hread⟩ := hloaded.teams lists hlists
      exact ⟨execute, shown, hasked, (Listing.teams.inj heq).symm.trans hfiltered,
        Option.bind_eq_some_iff.mpr ⟨lists, hread, hshown⟩⟩
    | _ => cases heq

/-- What `Listed` is about. -/
def lists (c : AllTabs) :=
  (c.mMatchesCollection, c.mStandingCollection, c.mMatchesFilterSelection, c.mStandingsFilterSelection, c.listed)

theorem Listed.congr (h : Listed env fixtures teams c) (hlists : c'.lists = c.lists) :
    Listed env fixtures teams c' := by
  simp only [lists, Prod.mk.injEq] at hlists
  obtain ⟨hfixtures, hteams, hselection, hselection', hlisted⟩ := hlists
  exact ⟨⟨hfixtures ▸ h.loaded.fixtures, hteams ▸ h.loaded.teams⟩, hlisted ▸ hselection ▸ h.fixtures,
    hlisted ▸ hselection' ▸ h.teams⟩

/-- A fragment that changes its own choice shows what it has shown. -/
theorem lists_setFragment (hf : c.fragments[n]? = some f) (heq : listing f' = listing f) :
    (c.setFragment n f').lists = c.lists := by
  unfold lists listed setFragment
  simp only
  rw [Arrays.map_set_eq hf heq]

@[simp] theorem listing_setChoice (f : TabFragment) (pos : ℕ) : listing (f.setChoice pos) = listing f := by
  cases f <;> rfl

@[simp] theorem listing_putAside (f : TabFragment) : listing f.putAside = listing f := by
  cases f <;> rfl

@[simp] theorem listing_takeBack (f : TabFragment) : listing f.takeBack = listing f := by
  cases f <;> rfl

theorem listed_onPositive (h : Listed env fixtures teams c) (hp : onPositive d f c = some c') :
    Listed env fixtures teams c' := by
  obtain ⟨hfixtures, hteams⟩ := h.loaded
  unfold onPositive at hp
  split at hp
  · split at hp
    · exact Option.some.inj hp ▸ h
    · exact (applied_replaceNewsFragment hp).replaced.listed ⟨hfixtures, hteams⟩
        (filtered_other (by decide) (by decide))
  · split at hp
    · exact (applied_replaceForumFragment hp).replaced.listed ⟨hfixtures, hteams⟩
        (filtered_other (by decide) (by decide))
    · exact Option.some.inj hp ▸ h
  · exact (applied_replaceMatchesFragment hp).replaced.listed ⟨hfixtures, hteams⟩
      (filtered_replaceMatchesFragment hp)
  · exact (applied_replaceStandingsFragment hp).replaced.listed ⟨hfixtures, hteams⟩
      (filtered_replaceStandingsFragment hp)

theorem listed_onNeutral (h : Listed env fixtures teams c) (hp : onNeutral d f c = some c') :
    Listed env fixtures teams c' := by
  obtain ⟨hfixtures, hteams⟩ := h.loaded
  unfold onNeutral at hp
  split at hp
  · exact Option.some.inj hp ▸ h
  · split at hp
    · exact Option.some.inj hp ▸ h.congr rfl
    · exact (applied_replaceForumFragment hp).replaced.listed ⟨hfixtures, hteams⟩
        (filtered_other (by decide) (by decide))
    · exact Option.some.inj hp ▸ h

/-- **No action of the user** mixes up the leagues. -/
theorem listed_acted {a : Action} (h : Listed env fixtures teams c) (ha : Acted toInstant c a c' ts) :
    Listed env fixtures teams c' := by
  cases ha with
  | stays => exact h
  | selects _ hr =>
    exact (replaced_replaceFragment hr).1.listed ⟨h.loaded.fixtures, h.loaded.teams⟩ (filtered_replaceFragment hr)
  | @displays a d f _ hf hd =>
    refine h.congr (lists_setFragment (c := { c with dialog := some d }) (f := f) (hd ▸ hf) ?_)
    split
    · exact listing_putAside f
    · rfl
  | @checks d f pos isChecked ho =>
    unfold onCheck
    split
    · split
      · exact h.congr (lists_setFragment ho.opener (listing_setChoice f pos))
      · exact h
    · split <;> exact h.congr rfl
  | applies _ hp => exact listed_onPositive (c := c.close) (h.congr rfl) hp
  | selectsAll _ hp => exact listed_onNeutral h hp
  | @cancels d f ho =>
    unfold onNegative
    split
    · exact h.congr (lists_setFragment (c := c.close) ho.opener (listing_takeBack f))
    · exact h.congr rfl
  | dismisses | pauses | stops | resumes => exact h.congr rfl

/-- **No reply** does. -/
theorem listed_received {r : Reply} (h : Listed env fixtures teams c)
    (hfixtures : ∀ execute, r = .onPostFixturesAsync execute → fixtures execute)
    (hteams : ∀ execute, r = .onPostStandingsAsync execute → teams execute) (hr : Received toInstant env c r c' ts) :
    Listed env fixtures teams c' := by
  cases hr with
  | stays | asks => exact h
  | told | populated | news => exact h.congr rfl
  | repopulated _ _ hr =>
    exact (replaced_replaceFragment hr).1.listed ⟨h.loaded.fixtures, h.loaded.teams⟩ (filtered_replaceFragment hr)
  | @fixtures execute lists hread =>
    refine ⟨⟨fun l hl => ?_, h.loaded.teams⟩, h.fixtures, h.teams⟩
    obtain rfl := Option.some.inj hl
    exact ⟨execute, hfixtures execute rfl, hread⟩
  | @teams execute lists c' hread hr =>
    have hloaded : Loaded env fixtures teams { c with mStandingCollection := some lists } := by
      refine ⟨h.loaded.fixtures, fun l hl => ?_⟩
      obtain rfl := Option.some.inj hl
      exact ⟨execute, hteams execute rfl, hread⟩
    exact (replaced_replaceFragment hr).1.listed hloaded (filtered_replaceFragment hr)

end Steps

/-! ### Runs -/

section Runs

variable {toInstant : ℤ → ℤ} {env : Platform} {fixtures teams : (String → Option String) → Prop} {s s' : Running}
  {e : Event}

/-- What the tasks of the leagues are answered with. -/
def Asked (fixtures teams : (String → Option String) → Prop) : Event → Prop
  | .ends _ (.onPostFixturesAsync execute) => fixtures execute
  | .ends _ (.onPostStandingsAsync execute) => teams execute
  | _ => True

theorem listed_happened (h : Listed env fixtures teams s.core) (hasked : Asked fixtures teams e)
    (hs : Happened toInstant env s e s') : Listed env fixtures teams s'.core := by
  cases hs with
  | nothing => exact h
  | acts ha => exact listed_acted h ha
  | ends _ _ hr =>
    refine listed_received h ?_ ?_ hr
    · rintro execute rfl
      exact hasked
    · rintro execute rfl
      exact hasked
  | hears _ _ hr =>
    refine listed_received h ?_ ?_ hr
    · rintro execute heq
      cases heq
    · rintro execute heq
      cases heq

theorem listed_launch (me : String) : Listed env fixtures teams (launch me).core where
  loaded := ⟨fun _ h => (nomatch h), fun _ h => (nomatch h)⟩
  fixtures _ h := nomatch h
  teams _ h := nomatch h

/-- The last fragment, when it is of the tab. -/
theorem OnScreen.last {c : AllTabs} (h : OnScreen c.view) : ∃ f, c.fragments.getLast? = some f ∧ f.tab = c.mBNV := by
  have hlast : (c.fragments.map (·.tab)).getLast? = some c.mBNV := h.fragment
  rw [List.getLast?_map] at hlast
  exact Option.map_eq_some_iff.mp hlast

/-- **A league's tab shows what has been read for this league, after every run**: once the
progress view has gone, the tab of the matches has the list that stands at the place of
the league on its tag, among the lists read from the answers to one task of the run; and
so has the tab of the standings. -/
theorem leagues_shown (toInstant : ℤ → ℤ) (env : Platform) (me : String) (es : List Event) (s : Running)
    (h : run (next toInstant env) (launch me) es = some s) (hshown : s.core.isLoading = false) :
    (s.core.mBNV = .matches → ∃ n execute f shown, Event.ends n (.onPostFixturesAsync execute) ∈ es ∧
      s.core.fragments.getLast? = some (.matches f) ∧ f.mCollection = some shown ∧
      LeagueShown (getMatchesJSON env) execute s.core.mMatchesFilterSelection s.core.mFilterTag shown) ∧
      (s.core.mBNV = .standings → ∃ n execute f shown, Event.ends n (.onPostStandingsAsync execute) ∈ es ∧
        s.core.fragments.getLast? = some (.standings f) ∧ f.mCollection = some shown ∧
        LeagueShown (getStandingsJSON env) execute s.core.mStandingsFilterSelection s.core.mFilterTag shown) := by
  let fixtures execute := ∃ n, Event.ends n (.onPostFixturesAsync execute) ∈ es
  let teams execute := ∃ n, Event.ends n (.onPostStandingsAsync execute) ∈ es
  have hasked : Along (next toInstant env) (fun _ e => Asked fixtures teams e) (launch me) es := by
    refine along_of_forall fun e he _ => ?_
    unfold Asked
    split
    · exact ⟨_, he⟩
    · exact ⟨_, he⟩
    · trivial
  have hinv : Coherent s.core.view ∧ Listed env fixtures teams s.core :=
    hasked.keeps (I := fun s => Coherent s.core.view ∧ Listed env fixtures teams s.core)
      (fun _ _ _ hi hP hs =>
        ⟨coherent_happened hi.1 (happened_next hs), listed_happened hi.2 hP (happened_next hs)⟩)
      ⟨coherent_launch me, listed_launch me⟩ h
  obtain ⟨hcoherent, hlisted⟩ := hinv
  have hscreen := hcoherent.shown hshown
  obtain ⟨f, hlast, htab⟩ := hscreen.last
  have hlisting : s.core.listed = some (listing f) := by
    unfold listed
    rw [List.getLast?_map, hlast]
    rfl
  refine ⟨fun hm => ?_, fun hs => ?_⟩
  · cases f with
    | «matches» f =>
      obtain ⟨execute, shown, ⟨n, hn⟩, hcollection, hstands⟩ := hlisted.fixtures _ hlisting
      exact ⟨n, execute, f, shown, hn, hlast, hcollection, hscreen.fixturesTag hm, hstands, right_iff_of_stands hstands⟩
    | _ => exact Tab.noConfusion (htab.trans hm)
  · cases f with
    | standings f =>
      obtain ⟨execute, shown, ⟨n, hn⟩, hcollection, hstands⟩ := hlisted.teams _ hlisting
      exact ⟨n, execute, f, shown, hn, hlast, hcollection, hscreen.teamsTag hs, hstands, right_iff_of_stands hstands⟩
    | _ => exact Tab.noConfusion (htab.trans hs)

end Runs

theorem leagues_shown_choosing : ∃ s, run (next id sample) (launch "ann@mail.com") choosing = some s ∧
    ∃ n execute f shown, Event.ends n (.onPostFixturesAsync execute) ∈ choosing ∧
      s.core.fragments.getLast? = some (.matches f) ∧ f.mCollection = some shown ∧
      LeagueShown (getMatchesJSON sample) execute 2 " filter: Bundesliga " shown :=
  ⟨_, rfl, (leagues_shown id sample "ann@mail.com" choosing _ rfl rfl).1 rfl⟩

end AllTabs
end FootballGallery
