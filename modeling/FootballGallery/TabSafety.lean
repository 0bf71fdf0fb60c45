/-
# When the main activity throws

The handlers of the main activity read lists that may not be there yet or be too short,
sort by dates that may be `null`, cast the extras of the broadcasts, and bring fragments
on screen when the activity may have been stopped. None of this throws in a run where
the servers answer for every league with what can be parsed, the posts have dates, and
the standings do not arrive while the activity is stopped (`never_throws`).

That the lists are there rests on the start: until the last task of the chain has ended,
nothing but the progress view can be tapped, and no other task is under way.

Key definitions: `Good`, `Sound`, `Safe`.
Key theorems: `replaceFragment_goes`, `never_throws`.
-/
import FootballGallery.ForumList
import FootballGallery.TabRuns

namespace FootballGallery
namespace AllTabs

open DBUtil APIUtil Gaps Runs

/-! ### What comes from outside -/

section Outside

variable (toInstant : ℤ → ℤ) (env : Platform)

/-- The ids of the posts have dates. -/
def Dated (ps : List Post) : Prop := ∀ p ∈ ps, (p.getDateDate toInstant).isSome

/-- The extra is of the type that the receiver casts it to. -/
structure GoodIntent (i : Intent) : Prop where
  user : i.action = CoreActivity.getUserInfo → ∀ x, i.extra = some x → ∃ u, x = .user u
  posts : i.action = CoreActivity.populateForum ∨ i.action = CoreActivity.repopulateForum → ∀ x, i.extra = some x →
    ∃ ps, x = .posts ps ∧ Dated toInstant ps

/-- The servers answer for every league. -/
def GoodReply (c : AllTabs) : Reply → Prop
  | .broadcast i => GoodIntent toInstant i
  | .onPostNewsAsync result => ∃ news, getLSNewsJSON env result = .ok news
  | .onPostFixturesAsync execute => ∀ id ∈ leagueIds, ∃ result, execute id = some result ∧ MatchesReadable env result
  | .onPostStandingsAsync execute => (∀ id ∈ leagueIds, (execute id).isSome) ∧ c.life ≠ .stopped

def Good (s : Running) : Event → Prop
  | .act _ => True
  | .ends _ r => GoodReply toInstant env s.core r
  | .hears i => GoodIntent toInstant i

end Outside

/-! ### What the activity has -/

/-- The choice of a league is one of those offered. -/
def InRange : TabFragment → Prop
  | .matches f => f.mCheckedFilterItem < leagueIds.length ∧ f.original < leagueIds.length
  | .standings f => f.mCheckedFilterItem < leagueIds.length ∧ f.original < leagueIds.length
  | _ => True

/-- The lists that are there have all leagues, the posts have dates, and what is chosen
is offered. -/
structure Sound (toInstant : ℤ → ℤ) (c : AllTabs) : Prop where
  fixtures : ∀ lists, c.mMatchesCollection = some lists → lists.length = leagueIds.length
  teams : ∀ lists, c.mStandingCollection = some lists → lists.length = leagueIds.length
  dated : ∀ ps, c.mForumCollection = some ps → Dated toInstant ps
  fixturesSelection : c.mMatchesFilterSelection < leagueIds.length
  teamsSelection : c.mStandingsFilterSelection < leagueIds.length
  choices : ∀ f ∈ c.fragments, InRange f

/-- Besides, the lists are there once the progress view has gone; before that, one task
of the chain is under way at most. -/
structure Safe (toInstant : ℤ → ℤ) (s : Running) : Prop where
  coherent : Coherent s.core.view
  sound : Sound toInstant s.core
  loaded : s.core.isLoading = false → s.core.mMatchesCollection.isSome ∧ s.core.mStandingCollection.isSome
  loading : s.core.isLoading = true → s.tasks = [] ∨ ∃ t, s.tasks = [t] ∧ Stage t ∧
    (t = .standingsAsyncTask → s.core.mMatchesCollection.isSome)

section Steps

variable {toInstant : ℤ → ℤ} {env : Platform} {c c' : AllTabs} {tab : Tab} {d : Dialog} {f : TabFragment}
  {ts : List CoreTask}

/-- What `Sound` is about. -/
def data (c : AllTabs) :=
  (c.mForumCollection, c.mMatchesCollection, c.mStandingCollection, c.mMatchesFilterSelection,
    c.mStandingsFilterSelection, c.fragments)

theorem Sound.congr (h : Sound toInstant c) (hdata : c'.data = c.data) : Sound toInstant c' := by
  simp only [data, Prod.mk.injEq] at hdata
  obtain ⟨hforum, hfixtures, hteams, hselection, hselection', hfragments⟩ := hdata
  exact ⟨hfixtures ▸ h.fixtures, hteams ▸ h.teams, hforum ▸ h.dated, hselection ▸ h.fixturesSelection,
    hselection' ▸ h.teamsSelection, hfragments ▸ h.choices⟩

/-! ### Nothing throws -/

theorem found {α : Type} {o : Option (List α)} {i : ℕ} (ho : o.isSome)
    (hlen : ∀ l, o = some l → l.length = leagueIds.length) (hi : i < leagueIds.length) :
    ∃ a, o.bind (·[i]?) = some a := by
  obtain ⟨l, rfl⟩ := Option.isSome_iff_exists.mp ho
  exact ⟨_, List.getElem?_eq_getElem (by rw [hlen l rfl]; exact hi)⟩

theorem sortForumCollection_goes (h : Sound toInstant c) :
    ∃ c', sortForumCollection toInstant (filterForumCollection c) = some c' := by
  unfold sortForumCollection filterForumCollection
  cases hps : c.mForumCollection with
  | none => exact ⟨_, rfl⟩
  | some ps =>
    have hsorts : (CoreForum.sortPosts toInstant c.mForumSortSelection
        (CoreForum.filtered c.mForumFilterSelection ps)).isSome :=
      CoreForum.sortPosts_isSome.mpr fun _ => .inr fun p hp => h.dated ps hps p (CoreForum.mem_filtered.mp hp).1
    obtain ⟨l, hl⟩ := Option.isSome_iff_exists.mp hsorts
    exact ⟨_, Option.map_eq_some_iff.mpr ⟨l, hl, rfl⟩⟩

theorem filterMatchesCollection_goes (h : Sound toInstant c) (hc : c.mMatchesCollection.isSome) :
    ∃ c', filterMatchesCollection c = some c' ∧ c'.life = c.life := by
  obtain ⟨shown, hshown⟩ := found hc h.fixtures h.fixturesSelection
  exact ⟨_, Option.map_eq_some_iff.mpr ⟨shown, hshown, rfl⟩, rfl⟩

theorem filterStandingsCollection_goes (h : Sound toInstant c) (hc : c.mStandingCollection.isSome) :
    ∃ c', filterStandingsCollection c = some c' ∧ c'.life = c.life := by
  obtain ⟨shown, hshown⟩ := found hc h.teams h.teamsSelection
  exact ⟨_, Option.map_eq_some_iff.mpr ⟨shown, hshown, rfl⟩, rfl⟩

theorem commit_goes (f : TabFragment) (h : c.life ≠ .stopped) : ∃ c', commit f c = some c' :=
  ⟨_, commit_eq_some.mpr ⟨h, rfl⟩⟩

/-- **A tab can be brought on screen** when its list is there and the activity has not
been stopped. -/
theorem replaceFragment_goes (tab : Tab) (h : Sound toInstant c) (hlife : c.life ≠ .stopped)
    (hfixtures : tab = .matches → c.mMatchesCollection.isSome)
    (hteams : tab = .standings → c.mStandingCollection.isSome) : ∃ c', replaceFragment toInstant tab c = some c' := by
  have hswitch : ∃ c₁, switch toInstant tab { c with fabVisible := false } = some c₁ ∧ c₁.life = c.life := by
    cases tab with
    | news => exact ⟨_, rfl, rfl⟩
    | forum =>
      obtain ⟨c₁, h₁⟩ := sortForumCollection_goes (c := { c with title := "Forum", fabVisible := true })
        (h.congr rfl)
      refine ⟨c₁, h₁, ?_⟩
      rw [sortForumCollection_eq_some h₁]
      rfl
    | «matches» =>
      exact filterMatchesCollection_goes (c := { c with title := "Matches", fabVisible := false })
        (h.congr rfl) (hfixtures rfl)
    | standings =>
      exact filterStandingsCollection_goes (c := { c with title := "Standings", fabVisible := false })
        (h.congr rfl) (hteams rfl)
  obtain ⟨c₁, h₁, hold⟩ := hswitch
  obtain ⟨c', h'⟩ := commit_goes (c := (editOptionTags tab c₁).toggleProgressDialog false) (newInstance tab c₁)
    (by rw [← hold] at hlife; exact hlife)
  exact ⟨c', Option.bind_eq_some_iff.mpr ⟨c₁, h₁, h'⟩⟩

/-- What is chosen in a dialog can be applied. -/
theorem onPositive_goes (h : Sound toInstant c) (hlife : c.life ≠ .stopped) (hf : InRange f)
    (hfixtures : c.mMatchesCollection.isSome) (hteams : c.mStandingCollection.isSome) :
    ∃ c', onPositive d f c = some c' := by
  unfold onPositive
  split
  · split
    · exact ⟨_, rfl⟩
    · exact commit_goes _ hlife
  · split
    · exact commit_goes _ hlife
    · exact ⟨_, rfl⟩
  · rename_i f
    obtain ⟨c₁, h₁, hold⟩ := filterMatchesCollection_goes
      (c := editOptionTags .matches { c with mMatchesFilterSelection := f.mCheckedFilterItem })
      ⟨h.fixtures, h.teams, h.dated, hf.1, h.teamsSelection, h.choices⟩ hfixtures
    obtain ⟨c', h'⟩ := commit_goes (c := c₁) (newInstance .matches c₁) (by rw [hold]; exact hlife)
    exact ⟨c', Option.bind_eq_some_iff.mpr ⟨c₁, h₁, h'⟩⟩
  · rename_i f
    obtain ⟨c₁, h₁, hold⟩ := filterStandingsCollection_goes
      (c := editOptionTags .standings { c with mStandingsFilterSelection := f.mCheckedFilterItem })
      ⟨h.fixtures, h.teams, h.dated, h.fixturesSelection, hf.1, h.choices⟩ hteams
    obtain ⟨c', h'⟩ := commit_goes (c := c₁) (newInstance .standings c₁) (by rw [hold]; exact hlife)
    exact ⟨c', Option.bind_eq_some_iff.mpr ⟨c₁, h₁, h'⟩⟩

theorem onNeutral_goes (hlife : c.life ≠ .stopped) : ∃ c', onNeutral d f c = some c' := by
  unfold onNeutral
  split
  · exact ⟨_, rfl⟩
  · split
    · exact ⟨_, rfl⟩
    · exact commit_goes _ hlife
    · exact ⟨_, rfl⟩

theorem onDialog_goes {g : Dialog → TabFragment → Option AllTabs}
    (h : ∀ d f, c.Open d f → ∃ c', g d f = some c') :
    ∃ x, (c.onDialog g).map (fun c' => (c', ([] : List CoreTask))) = some x := by
  have hsome : ∃ c', c.onDialog g = some c' := by
    unfold onDialog
    split
    · rename_i d hlife hdialog
      cases hf : c.fragments[d.opener]? with
      | none => exact ⟨c, rfl⟩
      | some f => exact h d f ⟨hlife, hdialog, hf⟩
    · exact ⟨c, rfl⟩
  obtain ⟨c', h'⟩ := hsome
  exact ⟨_, Option.map_eq_some_iff.mpr ⟨c', h', rfl⟩⟩

theorem Open.running (ho : c.Open d f) : c.life ≠ .stopped := fun hl => Life.noConfusion (ho.life.symm.trans hl)

/-- **No action of the user throws.** -/
theorem act_goes {s : Running} (h : Safe toInstant s) (a : Action) : ∃ x, s.core.act toInstant a = some x := by
  cases a with
  | onBnvClick tab =>
    simp only [act]
    split
    · rename_i ht
      obtain ⟨hlife, hshown, -⟩ := tappable_iff.mp ht
      obtain ⟨hfixtures, hteams⟩ := h.loaded hshown
      have hsound := h.sound
      obtain ⟨c', h'⟩ := replaceFragment_goes (c := { s.core with mBNV := tab }) tab
        (hsound.congr rfl)
        (fun hl => Life.noConfusion (hlife.symm.trans hl)) (fun _ => hfixtures) fun _ => hteams
      exact ⟨_, Option.map_eq_some_iff.mpr ⟨c', h', rfl⟩⟩
    · exact ⟨_, rfl⟩
  | onPositive =>
    refine onDialog_goes fun d f ho => ?_
    obtain ⟨-, hshown, -⟩ := h.coherent.tab_of_open ho
    obtain ⟨hfixtures, hteams⟩ := h.loaded hshown
    have hsound := h.sound
    exact onPositive_goes (c := s.core.close)
      (hsound.congr rfl)
      ho.running (hsound.choices f (List.mem_of_getElem? ho.opener)) hfixtures hteams
  | onNeutral => exact onDialog_goes fun d f ho => onNeutral_goes ho.running
  | onCheck | onNegative | onDismiss => exact onDialog_goes fun d f _ => ⟨_, rfl⟩
  | onResume =>
    simp only [act]
    split
    · exact ⟨_, rfl⟩
    · exact ⟨_, rfl⟩
  | displayFilterDialog | displaySortDialog | onPause | onStop => exact ⟨_, rfl⟩

/-- **No good broadcast throws**, when the list of the tab on screen is there. -/
theorem onReceive_goes {i : Intent} (h : Sound toInstant c) (hi : GoodIntent toInstant i) (hlife : c.life = .resumed)
    (hready : i.action = CoreActivity.repopulateForum → c.mMatchesCollection.isSome ∧ c.mStandingCollection.isSome) :
    ∃ x, onReceive toInstant c i = some x := by
  obtain ⟨a, b, x⟩ := i
  unfold onReceive
  simp only
  split
  · rename_i ha
    split
    · exact ⟨_, rfl⟩
    · rename_i y hno
      obtain ⟨u, rfl⟩ := hi.user ha y rfl
      exact (hno u rfl).elim
    · exact ⟨_, rfl⟩
  · split
    · rename_i ha
      split
      · exact ⟨_, rfl⟩
      · rename_i y hno
        obtain ⟨ps, rfl, -⟩ := hi.posts (.inl ha) y rfl
        exact (hno ps rfl).elim
      · exact ⟨_, rfl⟩
    · split
      · exact ⟨_, rfl⟩
      · split
        · rename_i ha
          split
          · rename_i ps
            obtain ⟨ps', heq, hdated⟩ := hi.posts (.inr ha) _ rfl
            obtain rfl := Extra.posts.inj heq
            obtain ⟨hfixtures, hteams⟩ := hready ha
            obtain ⟨c', h'⟩ := replaceFragment_goes (c := { c with mForumCollection := some ps }) c.mBNV
              ⟨h.fixtures, h.teams, fun l hl => Option.some.inj hl ▸ hdated, h.fixturesSelection, h.teamsSelection,
                h.choices⟩
              (fun hl => Life.noConfusion (hlife.symm.trans hl)) (fun _ => hfixtures) fun _ => hteams
            exact ⟨_, Option.map_eq_some_iff.mpr ⟨c', h', rfl⟩⟩
          · rename_i y hno
            obtain ⟨ps, rfl, -⟩ := hi.posts (.inr ha) y rfl
            exact (hno ps rfl).elim
          · exact ⟨_, rfl⟩
        · split
          · exact ⟨_, rfl⟩
          · exact ⟨_, rfl⟩

theorem hasFixtures {execute : String → Option String}
    (h : ∀ id ∈ leagueIds, ∃ result, execute id = some result ∧ MatchesReadable env result) :
    ∃ lists, (MatchesAsyncTask.doInBackground execute).mapM (fun result => (getMatchesJSON env result).toOption)
      = some lists := by
  refine Option.isSome_iff_exists.mp ((mapM_isSome_iff _).mpr fun result hresult => ?_)
  rw [MatchesAsyncTask.doInBackground, gather_eq, List.nil_append, List.mem_filterMap] at hresult
  obtain ⟨id, hid, hresult⟩ := hresult
  obtain ⟨result', hresult', hreadable⟩ := h id hid
  obtain rfl := Option.some.inj (hresult.symm.trans hresult')
  obtain ⟨l, hl⟩ := (getMatchesJSON_isOk_iff result).mpr hreadable
  exact Option.isSome_iff_exists.mpr ⟨l, toOption_eq_some_iff.mpr hl⟩

theorem hasTeams (execute : String → Option String) :
    ∃ lists, (StandingsAsyncTask.doInBackground execute).mapM (fun result => (getStandingsJSON env result).toOption)
      = some lists := by
  refine Option.isSome_iff_exists.mp ((mapM_isSome_iff _).mpr fun result _ => ?_)
  obtain ⟨l, hl, -⟩ := @standings_right env result
  exact Option.isSome_iff_exists.mpr ⟨l, toOption_eq_some_iff.mpr hl⟩

/-- During the start, no reply asks for a list that is not there. -/
theorem Safe.ready {s : Running} (h : Safe toInstant s) {n : ℕ} {t : CoreTask} {r : Reply} (ht : s.tasks[n]? = some t)
    (ha : answers t r = true) :
    (∀ i, r = .broadcast i → i.action = CoreActivity.repopulateForum →
      s.core.mMatchesCollection.isSome ∧ s.core.mStandingCollection.isSome) ∧
      ∀ execute, r = .onPostStandingsAsync execute → s.core.mMatchesCollection.isSome := by
  cases hl : s.core.isLoading with
  | false =>
    obtain ⟨hfixtures, hteams⟩ := h.loaded hl
    exact ⟨fun _ _ _ => ⟨hfixtures, hteams⟩, fun _ _ => hfixtures⟩
  | true =>
    rcases h.loading hl with htasks | ⟨t', htasks, hstage, hlast⟩
    · rw [htasks] at ht
      cases ht
    · obtain ⟨-, rfl⟩ := eraseIdx_singleton (htasks ▸ ht)
      refine ⟨?_, ?_⟩
      · rintro i rfl haction
        rcases stage_action hstage ha with h₁ | h₁ <;> exact absurd (h₁.symm.trans haction) (by decide)
      · rintro execute rfl
        refine hlast ?_
        rcases hstage with ⟨me, rfl⟩ | rfl | rfl | rfl | rfl
        · cases ha
        · cases ha
        · cases ha
        · cases ha
        · rfl

/-- **No good event throws.** -/
theorem next_goes {s : Running} {e : Event} (h : Safe toInstant s) (hgood : Good toInstant env s e) :
    ∃ s', next toInstant env s e = some s' := by
  have hsound := h.sound
  cases e with
  | act a =>
    obtain ⟨x, hx⟩ := act_goes h a
    exact ⟨_, Option.map_eq_some_iff.mpr ⟨x, hx, rfl⟩⟩
  | ends n r =>
    simp only [next]
    split
    · rename_i t ht
      split
      · rename_i ha
        obtain ⟨hrepopulates, hstandings⟩ := h.ready ht ha
        have hrecv : ∃ x, s.core.recv toInstant env r = some x := by
          cases r with
          | broadcast i =>
            simp only [recv]
            split
            · rename_i hlife
              exact onReceive_goes hsound hgood hlife (hrepopulates i rfl)
            · exact ⟨_, rfl⟩
          | onPostNewsAsync result =>
            obtain ⟨news, hnews⟩ := hgood
            exact ⟨_, Option.map_eq_some_iff.mpr ⟨news, toOption_eq_some_iff.mpr hnews, rfl⟩⟩
          | onPostFixturesAsync execute =>
            obtain ⟨lists, hlists⟩ := hasFixtures hgood
            exact ⟨_, Option.map_eq_some_iff.mpr ⟨lists, hlists, rfl⟩⟩
          | onPostStandingsAsync execute =>
            obtain ⟨hall, hlife⟩ := hgood
            obtain ⟨lists, hlists⟩ := @hasTeams env execute
            obtain ⟨c', h'⟩ := replaceFragment_goes (c := { s.core with mStandingCollection := some lists })
              s.core.mBNV
              ⟨hsound.fixtures, fun l hl => Option.some.inj hl ▸ (length_of_mapM hlists).trans (length_gather hall),
                hsound.dated, hsound.fixturesSelection, hsound.teamsSelection, hsound.choices⟩
              hlife (fun _ => hstandings execute rfl) fun _ => rfl
            exact ⟨_, Option.bind_eq_some_iff.mpr ⟨lists, hlists, Option.map_eq_some_iff.mpr ⟨c', h', rfl⟩⟩⟩
        obtain ⟨x, hx⟩ := hrecv
        exact ⟨_, Option.map_eq_some_iff.mpr ⟨x, hx, rfl⟩⟩
      · exact ⟨_, rfl⟩
    · exact ⟨_, rfl⟩
  | hears i =>
    simp only [next]
    split
    · rename_i hi
      obtain ⟨hl, -⟩ := Bool.and_eq_true_iff.mp hi
      have hloaded := h.loaded ((Bool.not_eq_true' _).mp hl)
      have hrecv : ∃ x, s.core.recv toInstant env (.broadcast i) = some x := by
        simp only [recv]
        split
        · rename_i hlife
          exact onReceive_goes hsound hgood hlife fun _ => hloaded
        · exact ⟨_, rfl⟩
      obtain ⟨x, hx⟩ := hrecv
      exact ⟨_, Option.map_eq_some_iff.mpr ⟨x, hx, rfl⟩⟩
    · exact ⟨_, rfl⟩

/-! ### What the activity has stays so -/

theorem inRange_takeBack (h : InRange f) : InRange f.takeBack := by
  cases f with
  | news | forum => trivial
  | «matches» | standings => exact ⟨h.2, h.2⟩

theorem inRange_putAside (h : InRange f) : InRange f.putAside := by
  cases f with
  | news | forum => trivial
  | «matches» | standings => exact ⟨h.1, h.1⟩

theorem inRange_setChoice {pos : ℕ} (h : InRange f) (hpos : pos < f.options.length) : InRange (f.setChoice pos) := by
  cases f with
  | news | forum => trivial
  | «matches» | standings => exact ⟨hpos, h.2⟩

theorem Sound.setFragment {n : ℕ} (h : Sound toInstant c) (hf : InRange f) : Sound toInstant (c.setFragment n f) where
  fixtures := h.fixtures
  teams := h.teams
  dated := h.dated
  fixturesSelection := h.fixturesSelection
  teamsSelection := h.teamsSelection
  choices g hg := by
    rcases List.mem_or_eq_of_mem_set hg with hg | rfl
    · exact h.choices g hg
    · exact hf

theorem Sound.replaced (h : Sound toInstant c) (hr : Replaced tab c c') : Sound toInstant c' where
  fixtures := hr.kept.mMatchesCollection ▸ h.fixtures
  teams := hr.kept.mStandingCollection ▸ h.teams
  dated := hr.kept.mForumCollection ▸ h.dated
  fixturesSelection := hr.kept.mMatchesFilterSelection ▸ h.fixturesSelection
  teamsSelection := hr.kept.mStandingsFilterSelection ▸ h.teamsSelection
  choices g hg := by
    rw [hr.fragments, List.mem_append, List.mem_singleton] at hg
    rcases hg with hg | rfl
    · exact h.choices g hg
    · have hfixtures : c'.mMatchesFilterSelection < leagueIds.length :=
        hr.kept.mMatchesFilterSelection ▸ h.fixturesSelection
      have hteams : c'.mStandingsFilterSelection < leagueIds.length :=
        hr.kept.mStandingsFilterSelection ▸ h.teamsSelection
      cases tab with
      | news | forum => trivial
      | «matches» => exact ⟨hfixtures, hfixtures⟩
      | standings => exact ⟨hteams, hteams⟩

theorem sound_onPositive (h : Sound toInstant c) (hf : InRange f) (hp : onPositive d f c = some c') :
    Sound toInstant c' := by
  unfold onPositive at hp
  split at hp
  · split at hp
    · exact Option.some.inj hp ▸ h
    · refine Sound.replaced ?_ (applied_replaceNewsFragment hp).replaced
      exact h.congr rfl
  · split at hp
    · refine Sound.replaced ?_ (applied_replaceForumFragment hp).replaced
      exact h.congr rfl
    · exact Option.some.inj hp ▸ h
  · refine Sound.replaced ?_ (applied_replaceMatchesFragment hp).replaced
    exact ⟨h.fixtures, h.teams, h.dated, hf.1, h.teamsSelection, h.choices⟩
  · refine Sound.replaced ?_ (applied_replaceStandingsFragment hp).replaced
    exact ⟨h.fixtures, h.teams, h.dated, h.fixturesSelection, hf.1, h.choices⟩

theorem sound_acted {a : Action} (h : Sound toInstant c) (ha : Acted toInstant c a c' ts) : Sound toInstant c' := by
  have hin : ∀ {d f}, c.Open d f → InRange f := fun ho => h.choices _ (List.mem_of_getElem? ho.opener)
  have hclosed : Sound toInstant c.close :=
    (h.congr rfl)
  cases ha with
  | stays => exact h
  | @selects tab c' _ hr =>
    exact Sound.replaced (c := { c with mBNV := tab })
      (h.congr rfl) (replaced_replaceFragment hr).1
  | @displays a d f _ hf =>
    have hin := h.choices f (List.mem_of_getElem? hf)
    refine Sound.setFragment (c := { c with dialog := some d })
      (h.congr rfl) ?_
    split
    · exact inRange_putAside hin
    · exact hin
  | @checks d f pos isChecked ho =>
    unfold onCheck
    split
    · split
      · rename_i hpos
        exact h.setFragment (inRange_setChoice (hin ho) hpos)
      · exact h
    · split
      · exact h.congr rfl
      · exact h.congr rfl
  | applies ho hr => exact sound_onPositive hclosed (hin ho) hr
  | selectsAll ho hr =>
    unfold onNeutral at hr
    split at hr
    · exact Option.some.inj hr ▸ h
    · split at hr
      · obtain rfl := Option.some.inj hr
        exact h.congr rfl
      · refine Sound.replaced ?_ (applied_replaceForumFragment hr).replaced
        exact h.congr rfl
      · exact Option.some.inj hr ▸ h
  | cancels ho =>
    unfold onNegative
    split
    · exact hclosed.setFragment (inRange_takeBack (hin ho))
    · exact hclosed
  | dismisses => exact hclosed
  | pauses | stops | resumes =>
    exact h.congr rfl

theorem sound_received {r : Reply} (h : Sound toInstant c) (hgood : GoodReply toInstant env c r)
    (hr : Received toInstant env c r c' ts) : Sound toInstant c' := by
  cases hr with
  | stays | asks => exact h
  | told | news => exact h.congr rfl
  | @populated x ps _ hx =>
    obtain ⟨ps', heq, hdated⟩ := hgood.posts (.inl rfl) _ hx
    obtain rfl := Extra.posts.inj heq
    exact ⟨h.fixtures, h.teams, fun l hl => Option.some.inj hl ▸ hdated, h.fixturesSelection, h.teamsSelection,
      h.choices⟩
  | @repopulated x ps c' _ hx hr =>
    obtain ⟨ps', heq, hdated⟩ := hgood.posts (.inr rfl) _ hx
    obtain rfl := Extra.posts.inj heq
    exact Sound.replaced (c := { c with mForumCollection := some ps })
      ⟨h.fixtures, h.teams, fun l hl => Option.some.inj hl ▸ hdated, h.fixturesSelection, h.teamsSelection, h.choices⟩
      (replaced_replaceFragment hr).1
  | fixtures hf =>
    have hall : ∀ id ∈ leagueIds, (_ : Option String).isSome := fun id hid => by
      obtain ⟨result, hresult, -⟩ := hgood id hid
      exact Option.isSome_of_eq_some hresult
    exact ⟨fun l hl => Option.some.inj hl ▸ (length_of_mapM hf).trans (length_gather hall), h.teams, h.dated,
      h.fixturesSelection, h.teamsSelection, h.choices⟩
  | @teams execute lists c' ht hr =>
    exact Sound.replaced (c := { c with mStandingCollection := some lists })
      ⟨h.fixtures, fun l hl => Option.some.inj hl ▸ (length_of_mapM ht).trans (length_gather hgood.1), h.dated,
        h.fixturesSelection, h.teamsSelection, h.choices⟩ (replaced_replaceFragment hr).1

/-- A list that is there is not lost. -/
theorem loaded_received {r : Reply} (hr : Received toInstant env c r c' ts) :
    (c.mMatchesCollection.isSome → c'.mMatchesCollection.isSome) ∧
      (c.mStandingCollection.isSome → c'.mStandingCollection.isSome) := by
  have hreplaced : ∀ {tab c₁}, Replaced tab c₁ c' →
      c'.mMatchesCollection = c₁.mMatchesCollection ∧ c'.mStandingCollection = c₁.mStandingCollection := fun h =>
    ⟨h.kept.mMatchesCollection, h.kept.mStandingCollection⟩
  cases hr with
  | stays | told | populated | asks | news => exact ⟨id, id⟩
  | fixtures => exact ⟨fun _ => rfl, id⟩
  | repopulated _ _ hr =>
    obtain ⟨hfixtures, hteams⟩ := hreplaced (replaced_replaceFragment hr).1
    rw [hfixtures, hteams]
    exact ⟨id, id⟩
  | teams _ hr =>
    obtain ⟨hfixtures, hteams⟩ := hreplaced (replaced_replaceFragment hr).1
    rw [hfixtures, hteams]
    exact ⟨id, fun _ => rfl⟩

/-- A reply during the start: the next task of the chain, or none, or the progress view
has gone and both lists are there. -/
theorem started_received {t : CoreTask} {r : Reply} (hl : c.isLoading = true) (hstage : Stage t)
    (hlast : t = .standingsAsyncTask → c.mMatchesCollection.isSome) (ha : answers t r = true)
    (hr : Received toInstant env c r c' ts) :
    c'.isLoading = true ∧ (ts = [] ∨ ∃ t', ts = [t'] ∧ Stage t' ∧
        (t' = .standingsAsyncTask → c'.mMatchesCollection.isSome)) ∨
      c'.isLoading = false ∧ c'.mMatchesCollection.isSome ∧ c'.mStandingCollection.isSome := by
  cases hr with
  | stays => exact .inl ⟨hl, .inl rfl⟩
  | told => exact .inl ⟨hl, .inr ⟨_, rfl, .inr (.inl rfl), nofun⟩⟩
  | populated => exact .inl ⟨hl, .inr ⟨_, rfl, .inr (.inr (.inr (.inl rfl))), nofun⟩⟩
  | asks _ hi =>
    rcases stage_action hstage ha with h₁ | h₁ <;> rcases hi with h₂ | ⟨h₂, -⟩ <;>
      exact absurd (h₁.symm.trans h₂) (by decide)
  | repopulated =>
    have hother : CoreActivity.repopulateForum ≠ CoreActivity.getUserInfo ∧
        CoreActivity.repopulateForum ≠ CoreActivity.populateForum := by decide
    exact ((stage_action hstage ha).elim hother.1 hother.2).elim
  | news => exact .inl ⟨hl, .inr ⟨_, rfl, .inr (.inr (.inl rfl)), nofun⟩⟩
  | fixtures => exact .inl ⟨hl, .inr ⟨_, rfl, .inr (.inr (.inr (.inr rfl))), fun _ => rfl⟩⟩
  | teams _ hr =>
    obtain ⟨hreplaced, -, -, hshown⟩ := replaced_replaceFragment hr
    have hstandings : t = .standingsAsyncTask := by
      rcases hstage with ⟨me, rfl⟩ | rfl | rfl | rfl | rfl
      · cases ha
      · cases ha
      · cases ha
      · cases ha
      · rfl
    refine .inr ⟨hshown, ?_, ?_⟩
    · rw [hreplaced.kept.mMatchesCollection]
      exact hlast hstandings
    · rw [hreplaced.kept.mStandingCollection]
      rfl

/-- **A good event keeps the activity safe.** -/
theorem Safe.keep {s s' : Running} {e : Event} (h : Safe toInstant s) (hgood : Good toInstant env s e)
    (hs : Happened toInstant env s e s') : Safe toInstant s' := by
  have hcoherent := coherent_happened h.coherent hs
  cases hs with
  | nothing => exact h
  | @acts a c' ts ha =>
    have hloaded := loaded_acted ha
    simp only [AllTabs.loaded, Prod.mk.injEq] at hloaded
    obtain ⟨-, -, -, hfixtures, hteams⟩ := hloaded
    refine ⟨hcoherent, sound_acted h.sound ha, ?_, ?_⟩
    · intro hl'
      show c'.mMatchesCollection.isSome ∧ c'.mStandingCollection.isSome
      rw [hfixtures, hteams]
      refine h.loaded (Bool.eq_false_iff.mpr fun hl => ?_)
      exact Bool.noConfusion (hl'.symm.trans (acted_loading h.coherent hl ha).1)
    · intro hl'
      have hl : s.core.isLoading = true := by
        by_contra hl
        exact Bool.noConfusion ((acted_shown h.coherent (Bool.eq_false_iff.mpr hl) ha).symm.trans hl')
      obtain ⟨-, rfl⟩ := acted_loading h.coherent hl ha
      show s.tasks ++ [] = [] ∨ _
      rw [List.append_nil]
      simp only [hfixtures]
      exact h.loading hl
  | @ends n t r c' ts ht ha hr =>
    have hsound := sound_received h.sound hgood hr
    cases hl : s.core.isLoading with
    | false =>
      have hshown := received_shown hl hr
      obtain ⟨hfixtures, hteams⟩ := h.loaded hl
      refine ⟨hcoherent, hsound, fun _ => ?_, fun hl' => Bool.noConfusion (hshown.symm.trans hl')⟩
      exact ⟨(loaded_received hr).1 hfixtures, (loaded_received hr).2 hteams⟩
    | true =>
      rcases h.loading hl with htasks | ⟨t₁, htasks, hstage, hlast⟩
      · rw [htasks] at ht
        cases ht
      obtain ⟨herase, rfl⟩ := eraseIdx_singleton (htasks ▸ ht)
      rcases started_received hl hstage hlast ha hr with ⟨hl', hts⟩ | ⟨hshown, hlists⟩
      · refine ⟨hcoherent, hsound, fun hshown => Bool.noConfusion (hshown.symm.trans hl'), fun _ => ?_⟩
        show s.tasks.eraseIdx n ++ ts = [] ∨ _
        rw [htasks, herase, List.nil_append]
        exact hts
      · exact ⟨hcoherent, hsound, fun _ => hlists, fun hl' => Bool.noConfusion (hshown.symm.trans hl')⟩
  | @hears i c' ts hl _ hr =>
    have hshown := received_shown hl hr
    obtain ⟨hfixtures, hteams⟩ := h.loaded hl
    have hsound := sound_received h.sound (show GoodReply toInstant env s.core (.broadcast i) from hgood) hr
    refine ⟨hcoherent, hsound, fun _ => ?_, fun hl' => Bool.noConfusion (hshown.symm.trans hl')⟩
    exact ⟨(loaded_received hr).1 hfixtures, (loaded_received hr).2 hteams⟩

theorem safe_launch (me : String) : Safe toInstant (launch me) where
  coherent := coherent_launch me
  sound := ⟨nofun, nofun, nofun, Nat.zero_lt_succ 4, Nat.zero_lt_succ 4, nofun⟩
  loaded := nofun
  loading _ := .inr ⟨_, rfl, .inl ⟨me, rfl⟩, nofun⟩

end Steps

end AllTabs
end FootballGallery
