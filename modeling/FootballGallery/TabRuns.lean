/-
# The main activity over its runs

Whatever its user does, and whatever replies arrive in whatever order, the activity
shows the progress view or the fragment of the selected tab under the title, the button
and the tags of this tab; and an open dialog is one of the selected tab (`screen_coherent`).
The tags are the forum's tag of the order and, on the matches and the standings, the tag of
the league. The filter's tag of the forum and the news may be out of date: boxes that are
tapped in a dialog count although it is cancelled, and the tag is not written again.

Key definitions: `View`, `Coherent`, `Starting`, `Stuck`.
Key theorems: `screen_coherent`, `start_shows_iff`.
-/
import FootballGallery.AllTabs

namespace FootballGallery
namespace AllTabs

open DBUtil APIUtil Runs

/-! ### What is on screen -/

/-- What of the activity is on screen, with the choices that the tags are about. -/
structure View where
  mBNV : Tab
  title : String
  mFilterTag : String
  mSortTag : String
  sortVisible : Bool
  fabVisible : Bool
  isLoading : Bool
  /-- of the fragments -/
  tabs : List Tab
  dialog : Option Dialog
  mForumSortSelection : ℤ
  mMatchesFilterSelection : ℕ
  mStandingsFilterSelection : ℕ

def view (c : AllTabs) : View where
  mBNV := c.mBNV
  title := c.title
  mFilterTag := c.mFilterTag
  mSortTag := c.mSortTag
  sortVisible := c.sortVisible
  fabVisible := c.fabVisible
  isLoading := c.isLoading
  tabs := c.fragments.map (·.tab)
  dialog := c.dialog
  mForumSortSelection := c.mForumSortSelection
  mMatchesFilterSelection := c.mMatchesFilterSelection
  mStandingsFilterSelection := c.mStandingsFilterSelection

/-- The fragment of the selected tab is on screen, under its title and its tags; the tag
of the forum's flags is left out, and so is that of the news'. -/
structure OnScreen (v : View) : Prop where
  fragment : v.tabs.getLast? = some v.mBNV
  title : v.title = titleOf v.mBNV
  fab : v.fabVisible = (v.mBNV == .forum)
  sortVisible : v.sortVisible = (v.mBNV == .forum)
  sortTag : v.mSortTag = FilterDialog.getSortTagText (if v.mBNV = .forum then sortText v.mForumSortSelection else "")
  fixturesTag : v.mBNV = .matches → v.mFilterTag = FilterDialog.getFilterTagText (leagueText v.mMatchesFilterSelection)
  teamsTag : v.mBNV = .standings → v.mFilterTag = FilterDialog.getFilterTagText (leagueText v.mStandingsFilterSelection)

/-- The progress view, or a tab. -/
structure Coherent (v : View) : Prop where
  loading : v.isLoading = true → v.mBNV = .news ∧ v.tabs = [] ∧ v.dialog = none ∧ v.title = "The Football Gallery" ∧
    v.fabVisible = false
  shown : v.isLoading = false → OnScreen v
  dialog : ∀ d, v.dialog = some d → v.tabs[d.opener]? = some v.mBNV ∧ (d.sort = true → v.mBNV = .forum)

section Screen

variable {toInstant : ℤ → ℤ} {env : Platform} {c c' : AllTabs} {tab : Tab} {d : Dialog} {f : TabFragment}

theorem tab_newInstance (tab : Tab) (c : AllTabs) : (newInstance tab c).tab = tab := by
  cases tab <;> rfl

@[simp] theorem tab_setChoice (f : TabFragment) (pos : ℕ) : (f.setChoice pos).tab = f.tab := by
  cases f <;> rfl

@[simp] theorem tab_putAside (f : TabFragment) : f.putAside.tab = f.tab := by
  cases f <;> rfl

@[simp] theorem tab_takeBack (f : TabFragment) : f.takeBack.tab = f.tab := by
  cases f <;> rfl

/-- A fragment that changes its own choice stays the fragment of its tab. -/
theorem view_setFragment {n : ℕ} {f' : TabFragment} (hf : c.fragments[n]? = some f) (htab : f'.tab = f.tab) :
    (c.setFragment n f').view = c.view := by
  unfold view setFragment
  simp only
  rw [Arrays.map_set_eq hf htab]

/-- What is tagged for its tab is tagged right. -/
theorem onScreen_of_replaced (h : Replaced tab c c') (htab : c.mBNV = tab) (htitle : c'.title = titleOf tab)
    (hfab : c'.fabVisible = (tab == .forum)) : OnScreen c'.view := by
  have hbnv : c'.mBNV = tab := h.kept.mBNV.trans htab
  have hfilter : c'.mFilterTag = (editOptionTags tab c').mFilterTag := by rw [h.tagged]
  have hsort : c'.mSortTag = (editOptionTags tab c').mSortTag := by rw [h.tagged]
  have hvisible : c'.sortVisible = (editOptionTags tab c').sortVisible := by rw [h.tagged]
  have hlast : c'.view.tabs.getLast? = some tab := by
    show (c'.fragments.map (·.tab)).getLast? = _
    rw [h.fragments, List.map_append, List.map_cons, tab_newInstance]
    simp
  subst hbnv
  refine ⟨hlast, htitle, hfab, hvisible, hsort, fun hm => ?_, fun hs => ?_⟩
  · change c'.mBNV = .matches at hm
    rw [hm] at hfilter
    exact hfilter
  · change c'.mBNV = .standings at hs
    rw [hs] at hfilter
    exact hfilter

/-- A dialog outlives the fragment that opened it. -/
theorem dialog_of_replaced (h : Replaced tab c c')
    (hd : ∀ d, c.view.dialog = some d →
      c.view.tabs[d.opener]? = some c.view.mBNV ∧ (d.sort = true → c.view.mBNV = .forum)) :
    ∀ d, c'.view.dialog = some d →
      c'.view.tabs[d.opener]? = some c'.view.mBNV ∧ (d.sort = true → c'.view.mBNV = .forum) := by
  intro d hdialog
  obtain ⟨hopener, hsort⟩ := hd d (h.kept.dialog.symm.trans hdialog)
  have hbnv : c'.view.mBNV = c.view.mBNV := h.kept.mBNV
  have htabs : c'.view.tabs = c.view.tabs ++ [tab] := by
    show c'.fragments.map _ = c.fragments.map _ ++ _
    rw [h.fragments, List.map_append, List.map_cons, tab_newInstance]
    rfl
  rw [hbnv, htabs]
  refine ⟨?_, hsort⟩
  rw [List.getElem?_append_left (List.getElem?_eq_some_iff.mp hopener).1]
  exact hopener

theorem coherent_replaceFragment (h : replaceFragment toInstant c.mBNV c = some c')
    (hd : ∀ d, c.view.dialog = some d →
      c.view.tabs[d.opener]? = some c.view.mBNV ∧ (d.sort = true → c.view.mBNV = .forum)) :
    Coherent c'.view := by
  obtain ⟨hr, htitle, hfab, hloading⟩ := replaced_replaceFragment h
  refine ⟨fun hl => ?_, fun _ => onScreen_of_replaced hr rfl htitle hfab, dialog_of_replaced hr hd⟩
  exact Bool.noConfusion (hloading.symm.trans hl)

/-- What a dialog has applied; it is closed then. -/
theorem coherent_applied (h : Applied tab c c') (htab : c.mBNV = tab) (hloading : c.isLoading = false)
    (htitle : c.title = titleOf c.mBNV) (hfab : c.fabVisible = (c.mBNV == .forum)) (hd : c.dialog = none) :
    Coherent c'.view := by
  subst htab
  refine ⟨fun hl => ?_, fun _ => ?_, fun d hdialog => ?_⟩
  · exact Bool.noConfusion (hloading.symm.trans (h.isLoading.symm.trans hl))
  · exact onScreen_of_replaced h.replaced rfl (h.title.trans htitle) (h.fab.trans hfab)
  · have hnone : none = some d := hd.symm.trans (h.replaced.kept.dialog.symm.trans hdialog)
    cases hnone

/-- The fragment of an open dialog is one of the selected tab. -/
theorem Coherent.tab_of_open (h : Coherent c.view) (ho : c.Open d f) :
    f.tab = c.mBNV ∧ c.isLoading = false ∧ OnScreen c.view := by
  obtain ⟨hopener, -⟩ := h.dialog d ho.dialog
  have htab : f.tab = c.mBNV := by
    have hmap : c.view.tabs[d.opener]? = some f.tab := by
      show (c.fragments.map _)[d.opener]? = _
      rw [List.getElem?_map, ho.opener]
      rfl
    exact Option.some.inj (hmap.symm.trans hopener)
  have hloading : c.isLoading = false := by
    refine Bool.eq_false_iff.mpr fun hl => ?_
    obtain ⟨-, -, hnone, -⟩ := h.loading hl
    have habsurd : none = some d := hnone.symm.trans ho.dialog
    cases habsurd
  exact ⟨htab, hloading, h.shown hloading⟩

theorem Coherent.closed (h : Coherent c.view) : Coherent c.close.view where
  loading hl := by
    obtain ⟨htab, hnone, -, htitle, hfab⟩ := h.loading hl
    exact ⟨htab, hnone, rfl, htitle, hfab⟩
  shown hl := by
    have hs := h.shown hl
    exact ⟨hs.fragment, hs.title, hs.fab, hs.sortVisible, hs.sortTag, hs.fixturesTag, hs.teamsTag⟩
  dialog _ hd := nomatch hd

theorem tappable_iff : c.tappable = true ↔ c.life = .resumed ∧ c.isLoading = false ∧ c.dialog = none := by
  unfold tappable
  rw [Bool.and_eq_true, Bool.and_eq_true, beq_iff_eq, Bool.not_eq_true', Option.isNone_iff_eq_none, and_assoc]

/-- What the activity has loaded. -/
def loaded (c : AllTabs) :=
  (c.mUser, c.mNewsCollection, c.mForumCollection, c.mMatchesCollection, c.mStandingCollection)

theorem loaded_replaced (h : Replaced tab c c') : c'.loaded = c.loaded := by
  unfold loaded
  rw [h.kept.mUser, h.kept.mNewsCollection, h.kept.mForumCollection, h.kept.mMatchesCollection,
    h.kept.mStandingCollection]

/-- A dialog's button brings the fragment of its tab on screen, with what is chosen, or
it only closes the dialog. -/
def Answered (tab : Tab) (c c' : AllTabs) : Prop :=
  c'.view = c.view ∧ c'.loaded = c.loaded ∨ ∃ c₁, Applied tab c₁ c' ∧ c₁.loaded = c.loaded ∧ c₁.view =
    { c.view with
      mForumSortSelection := c₁.mForumSortSelection
      mMatchesFilterSelection := c₁.mMatchesFilterSelection
      mStandingsFilterSelection := c₁.mStandingsFilterSelection }

theorem answered_onPositive (h : onPositive d f c = some c') : Answered f.tab c c' := by
  unfold onPositive at h
  split at h
  · split at h
    · exact Option.some.inj h ▸ .inl ⟨rfl, rfl⟩
    · exact .inr ⟨_, applied_replaceNewsFragment h, rfl, rfl⟩
  · split at h
    · exact .inr ⟨_, applied_replaceForumFragment h, rfl, rfl⟩
    · exact Option.some.inj h ▸ .inl ⟨rfl, rfl⟩
  · exact .inr ⟨_, applied_replaceMatchesFragment h, rfl, rfl⟩
  · exact .inr ⟨_, applied_replaceStandingsFragment h, rfl, rfl⟩

/-- `Select All` is a button of two dialogs. -/
theorem answered_onNeutral (h : onNeutral d f c = some c') : c' = c ∨ Answered f.tab c.close c' := by
  unfold onNeutral at h
  split at h
  · exact .inl (Option.some.inj h).symm
  · split at h
    · obtain rfl := Option.some.inj h
      exact .inr (.inl ⟨rfl, rfl⟩)
    · exact .inr (.inr ⟨_, applied_replaceForumFragment h, rfl, rfl⟩)
    · exact .inl (Option.some.inj h).symm

theorem coherent_answered (h : Coherent c.view) (ho : c.Open d f) (ha : Answered f.tab c.close c') :
    Coherent c'.view := by
  obtain ⟨htab, hloading, hs⟩ := h.tab_of_open ho
  rcases ha with ⟨hview, -⟩ | ⟨c₁, happ, -, hview⟩
  · rw [hview]
    exact h.closed
  · have hbnv : c₁.mBNV = c.mBNV := congrArg View.mBNV hview
    have htitle : c₁.title = c.title := congrArg View.title hview
    have hfab : c₁.fabVisible = c.fabVisible := congrArg View.fabVisible hview
    refine coherent_applied happ (hbnv.trans htab.symm) ((congrArg View.isLoading hview).trans hloading) ?_ ?_
      (congrArg View.dialog hview)
    · rw [htitle, hbnv]
      exact hs.title
    · rw [hfab, hbnv]
      exact hs.fab

/-- Only the fragment's own choice changes, or the flags. -/
theorem view_onCheck {pos : ℕ} {isChecked : Bool} (ho : c.Open d f) : (onCheck d f pos isChecked c).view = c.view := by
  unfold onCheck
  split
  · split
    · exact view_setFragment ho.opener (tab_setChoice f pos)
    · rfl
  · split
    · rfl
    · rfl

theorem view_onNegative (hf : c.fragments[d.opener]? = some f) : (onNegative d f c).view = c.view := by
  unfold onNegative
  split
  · exact view_setFragment hf (tab_takeBack f)
  · rfl

/-- A dialog is opened over the fragment on screen. -/
theorem coherent_display (h : Coherent c.view) (ht : c.tappable = true) (hf : c.fragments[c.last]? = some f)
    (hd : d.opener = c.last) (hs : d.sort = true → f.tab = .forum) : Coherent { c with dialog := some d }.view := by
  obtain ⟨-, hloading, -⟩ := tappable_iff.mp ht
  have hshown := h.shown hloading
  have htop : c.view.tabs[d.opener]? = some c.mBNV := by
    have hlast := hshown.fragment
    rw [List.getLast?_eq_getElem?] at hlast
    rw [hd]
    show _ = some c.view.mBNV
    rw [← hlast]
    show _ = (c.fragments.map _)[(c.fragments.map _).length - 1]?
    rw [List.length_map]
    rfl
  have htab : f.tab = c.mBNV := by
    have hmap : c.view.tabs[d.opener]? = some f.tab := by
      show (c.fragments.map _)[d.opener]? = _
      rw [List.getElem?_map, hd, hf]
      rfl
    exact Option.some.inj (hmap.symm.trans htop)
  refine ⟨fun hl => Bool.noConfusion (hloading.symm.trans hl), fun _ => ?_, fun d' hd' => ?_⟩
  · exact ⟨hshown.fragment, hshown.title, hshown.fab, hshown.sortVisible, hshown.sortTag, hshown.fixturesTag,
      hshown.teamsTag⟩
  · obtain rfl := Option.some.inj hd'
    exact ⟨htop, fun hsort => htab.symm.trans (hs hsort)⟩

/-- **No action of the user** breaks the screen. -/
theorem coherent_acted {a : Action} {ts : List CoreTask} (h : Coherent c.view) (ha : Acted toInstant c a c' ts) :
    Coherent c'.view := by
  cases ha with
  | stays => exact h
  | selects ht hr =>
    refine coherent_replaceFragment (c := { c with mBNV := _ }) hr fun d hd => ?_
    have hnone : none = some d := (tappable_iff.mp ht).2.2.symm.trans hd
    cases hnone
  | @displays a d f ht hf hd hs =>
    have hview : Coherent { c with dialog := some d }.view := coherent_display h ht hf hd fun hsort => (hs hsort).1
    rw [view_setFragment (c := { c with dialog := some d }) (f := f) (hd ▸ hf)]
    · exact hview
    · split
      · exact tab_putAside f
      · rfl
  | checks ho =>
    rw [view_onCheck ho]
    exact h
  | applies ho hr => exact coherent_answered h ho (answered_onPositive hr)
  | selectsAll ho hr =>
    rcases answered_onNeutral hr with rfl | ha
    · exact h
    · exact coherent_answered h ho ha
  | cancels ho =>
    rw [view_onNegative (c := c.close) ho.opener]
    exact h.closed
  | dismisses => exact h.closed
  | pauses | stops | resumes => exact h

/-- The user's actions leave alone what has been loaded. -/
theorem loaded_acted {a : Action} {ts : List CoreTask} (ha : Acted toInstant c a c' ts) : c'.loaded = c.loaded := by
  have hanswered : ∀ {tab c₁}, Answered tab c₁ c' → c'.loaded = c₁.loaded := by
    rintro tab c₁ (⟨-, hloaded⟩ | ⟨c₂, happ, hloaded, -⟩)
    · exact hloaded
    · exact (loaded_replaced happ.replaced).trans hloaded
  cases ha with
  | selects _ hr => exact (loaded_replaced (replaced_replaceFragment hr).1).trans rfl
  | @checks d f pos isChecked =>
    unfold onCheck
    split
    · split <;> rfl
    · split <;> rfl
  | applies _ hr => exact (hanswered (answered_onPositive hr)).trans rfl
  | selectsAll _ hr =>
    rcases answered_onNeutral hr with rfl | ha
    · rfl
    · exact (hanswered ha).trans rfl
  | @cancels d f =>
    unfold onNegative
    split <;> rfl
  | stays | displays | dismisses | pauses | stops | resumes => rfl

/-- **No reply** breaks the screen. -/
theorem coherent_received {r : Reply} {ts : List CoreTask} (h : Coherent c.view)
    (hr : Received toInstant env c r c' ts) : Coherent c'.view := by
  cases hr with
  | stays | told | populated | asks | news | fixtures => exact h
  | @repopulated x ps c' _ _ hr =>
    exact coherent_replaceFragment (c := { c with mForumCollection := some ps }) hr h.dialog
  | @teams execute lists c' _ hr =>
    exact coherent_replaceFragment (c := { c with mStandingCollection := some lists }) hr h.dialog

end Screen

/-! ### Runs -/

section Runs

variable {toInstant : ℤ → ℤ} {env : Platform} {s s' : Running} {e : Event}

theorem coherent_happened (h : Coherent s.core.view) (hs : Happened toInstant env s e s') : Coherent s'.core.view := by
  cases hs with
  | nothing => exact h
  | acts ha => exact coherent_acted h ha
  | ends _ _ hr => exact coherent_received h hr
  | hears _ _ hr => exact coherent_received h hr

theorem coherent_launch (me : String) : Coherent (launch me).core.view :=
  ⟨fun _ => ⟨rfl, rfl, rfl, rfl, rfl⟩, nofun, nofun⟩

def ann : User := ⟨"ann@mail.com", "ann", [], [], [], [], [], "", 0, 0⟩

def choosing : List Event :=
  [.ends 0 (.broadcast ⟨CoreActivity.getUserInfo, true, some (.user ann)⟩), .ends 0 (.onPostNewsAsync ""),
    .ends 0 (.broadcast ⟨CoreActivity.populateForum, true, some (.posts [])⟩), .ends 0 (.onPostFixturesAsync some),
    .ends 0 (.onPostStandingsAsync some), .act (.onBnvClick .matches), .act .displayFilterDialog,
    .act (.onCheck 2 true), .act .onPositive]

/-- A task of the chain that the start is: the user, the news, the posts, the matches
and the standings. -/
def Stage (t : CoreTask) : Prop :=
  (∃ me, t = .call (.getUser CoreActivity.getUserInfo me false)) ∨ t = .newsAsyncTask ∨
    t = .call (.getPosts CoreActivity.populateForum) ∨ t = .matchesAsyncTask ∨ t = .standingsAsyncTask

/-- A broadcast of the start finds the activity not resumed, or it is negative or has no extra. -/
def Loses (s : Running) : Event → Prop
  | .ends n (.broadcast i) => s.core.isLoading = true ∧ (∃ t ∈ s.tasks[n]?, answers t (.broadcast i) = true) ∧
      (s.core.life ≠ .resumed ∨ i.result = false ∨ i.extra = none)
  | _ => False

/-- While the progress view is there, the chain is under way. -/
structure Starting (s : Running) : Prop where
  coherent : Coherent s.core.view
  stage : s.core.isLoading = true → ∃ t, s.tasks = [t] ∧ Stage t

/-- The progress view is there, and nothing is under way. -/
structure Stuck (s : Running) : Prop where
  coherent : Coherent s.core.view
  loading : s.core.isLoading = true
  quiet : s.tasks = []

variable {c c' : AllTabs} {ts : List CoreTask}

/-- The user can do nothing about the progress view. -/
theorem acted_loading {a : Action} (h : Coherent c.view) (hl : c.isLoading = true) (ha : Acted toInstant c a c' ts) :
    c'.isLoading = true ∧ ts = [] := by
  obtain ⟨htab, -, hdialog, -⟩ := h.loading hl
  have htap : c.tappable ≠ true := fun ht => Bool.noConfusion ((tappable_iff.mp ht).2.1.symm.trans hl)
  have hclosed : ∀ {d f}, ¬ c.Open d f := fun ho => by
    have hnone : none = some _ := hdialog.symm.trans ho.dialog
    cases hnone
  cases ha with
  | stays => exact ⟨hl, rfl⟩
  | selects ht | displays ht => exact (htap ht).elim
  | checks ho | applies ho | selectsAll ho | cancels ho | dismisses ho => exact (hclosed ho).elim
  | pauses | stops => exact ⟨hl, rfl⟩
  | resumes =>
    have hforum : c.mBNV ≠ .forum := fun hf => Tab.noConfusion (hf.symm.trans htab)
    exact ⟨hl, if_neg hforum⟩

/-- The progress view does not come back. -/
theorem acted_shown {a : Action} (h : Coherent c.view) (hl : c.isLoading = false) (ha : Acted toInstant c a c' ts) :
    c'.isLoading = false := by
  have hanswered : ∀ {tab c₁}, Answered tab c₁ c' → c₁.isLoading = false → c'.isLoading = false := by
    rintro tab c₁ (⟨hview, -⟩ | ⟨c₂, happ, -, hview⟩) hl₁
    · exact (congrArg View.isLoading hview).trans hl₁
    · exact happ.isLoading.trans ((congrArg View.isLoading hview).trans hl₁)
  cases ha with
  | selects _ hr => exact (replaced_replaceFragment hr).2.2.2
  | checks ho => exact (congrArg View.isLoading (view_onCheck ho)).trans hl
  | applies ho hr => exact hanswered (answered_onPositive hr) hl
  | selectsAll ho hr =>
    rcases answered_onNeutral hr with rfl | ha
    · exact hl
    · exact hanswered ha hl
  | cancels ho => exact (congrArg View.isLoading (view_onNegative (c := c.close) ho.opener)).trans hl
  | stays | displays | dismisses | pauses | stops | resumes => exact hl

theorem received_shown {r : Reply} (hl : c.isLoading = false) (hr : Received toInstant env c r c' ts) :
    c'.isLoading = false := by
  cases hr with
  | stays | told | populated | asks | news | fixtures => exact hl
  | repopulated _ _ hr | teams _ hr => exact (replaced_replaceFragment hr).2.2.2

theorem shown_happened (h : Coherent s.core.view) (hl : s.core.isLoading = false)
    (hs : Happened toInstant env s e s') : s'.core.isLoading = false := by
  cases hs with
  | nothing => exact hl
  | acts ha => exact acted_shown h hl ha
  | ends _ _ hr | hears _ _ hr => exact received_shown hl hr

theorem stage_action {t : CoreTask} {i : Intent} (ht : Stage t) (ha : answers t (.broadcast i) = true) :
    i.action = CoreActivity.getUserInfo ∨ i.action = CoreActivity.populateForum := by
  rcases ht with ⟨me, rfl⟩ | rfl | rfl | rfl | rfl
  · exact .inl (beq_iff_eq.mp ha)
  · cases ha
  · exact .inr (beq_iff_eq.mp ha)
  · cases ha
  · cases ha

/-- A reply to a task of the chain starts the next one, or brings the news on screen. -/
theorem stage_received {t : CoreTask} {r : Reply} (ht : Stage t) (ha : answers t r = true)
    (hkept : ∀ i, r = .broadcast i → c.life = .resumed ∧ i.result = true ∧ i.extra ≠ none)
    (hr : Received toInstant env c r c' ts) : c'.isLoading = false ∨ ∃ t', ts = [t'] ∧ Stage t' := by
  cases hr with
  | stays hi =>
    obtain ⟨hlife, hresult, hextra⟩ := hkept _ rfl
    rcases hi with hi | hi | hi | ⟨hinfo, hpopulate, -⟩
    · exact (hi hlife).elim
    · exact Bool.noConfusion (hi.symm.trans hresult)
    · exact (hextra hi).elim
    · exact ((stage_action ht ha).elim hinfo hpopulate).elim
  | told => exact .inr ⟨_, rfl, .inr (.inl rfl)⟩
  | populated => exact .inr ⟨_, rfl, .inr (.inr (.inr (.inl rfl)))⟩
  | asks _ hi =>
    rcases stage_action ht ha with h₁ | h₁ <;> rcases hi with h₂ | ⟨h₂, -⟩ <;>
      exact absurd (h₁.symm.trans h₂) (by decide)
  | repopulated _ _ hr => exact .inl (replaced_replaceFragment hr).2.2.2
  | news => exact .inr ⟨_, rfl, .inr (.inr (.inl rfl))⟩
  | fixtures => exact .inr ⟨_, rfl, .inr (.inr (.inr (.inr rfl)))⟩
  | teams _ hr => exact .inl (replaced_replaceFragment hr).2.2.2

theorem eraseIdx_singleton {t : CoreTask} {n : ℕ} (h : [t][n]? = some t') : [t].eraseIdx n = [] ∧ t = t' := by
  cases n with
  | zero => exact ⟨rfl, Option.some.inj h⟩
  | succ n => cases h

theorem Starting.keep (h : Starting s) (hkept : ¬ Loses s e) (hs : Happened toInstant env s e s') : Starting s' := by
  refine ⟨coherent_happened h.coherent hs, fun hl' => ?_⟩
  have hl : s.core.isLoading = true := by
    by_contra hl
    exact Bool.noConfusion ((shown_happened h.coherent (Bool.eq_false_iff.mpr hl) hs).symm.trans hl')
  obtain ⟨t, htasks, hstage⟩ := h.stage hl
  cases hs with
  | nothing => exact ⟨t, htasks, hstage⟩
  | acts ha =>
    obtain ⟨-, rfl⟩ := acted_loading h.coherent hl ha
    exact ⟨t, by rw [htasks]; rfl, hstage⟩
  | @ends n t' r c' ts ht hr hrecv =>
    rw [htasks] at ht
    obtain ⟨herase, rfl⟩ := eraseIdx_singleton ht
    have hwell : ∀ i, r = .broadcast i → s.core.life = .resumed ∧ i.result = true ∧ i.extra ≠ none := by
      rintro i rfl
      have hno : ¬ (s.core.life ≠ .resumed ∨ i.result = false ∨ i.extra = none) := fun hlost =>
        hkept ⟨hl, ⟨t, by rw [htasks]; exact ht, hr⟩, hlost⟩
      rw [not_or, not_or, not_not, Bool.not_eq_false] at hno
      exact hno
    rcases stage_received hstage hr hwell hrecv with hshown | ⟨t₁, rfl, hstage₁⟩
    · exact Bool.noConfusion (hshown.symm.trans hl')
    · refine ⟨t₁, ?_, hstage₁⟩
      show s.tasks.eraseIdx n ++ [t₁] = [t₁]
      rw [htasks, herase, List.nil_append]
  | hears hshown => exact Bool.noConfusion (hshown.symm.trans hl)

theorem next_ends {n : ℕ} {t : CoreTask} {r : Reply} (ht : s.tasks[n]? = some t) (ha : answers t r = true) :
    next toInstant env s (.ends n r) =
      (s.core.recv toInstant env r).map fun x => ⟨x.1, s.tasks.eraseIdx n ++ x.2⟩ := by
  simp only [next, ht]
  rw [if_pos ha]

/-- A broadcast of the start that says nothing starts nothing. -/
theorem lost_received {t : CoreTask} {i : Intent} (hstage : Stage t) (ha : answers t (.broadcast i) = true)
    (hlost : c.life ≠ .resumed ∨ i.result = false ∨ i.extra = none)
    (hr : Received toInstant env c (.broadcast i) c' ts) : c' = c ∧ ts = [] := by
  have haction := stage_action hstage ha
  have hkept : ∀ {a x y}, c.life = .resumed → x = some y → i = ⟨a, true, x⟩ → False := by
    rintro a x y hl rfl rfl
    rcases hlost with hlost | hlost | hlost
    · exact hlost hl
    · cases hlost
    · cases hlost
  cases hr with
  | stays => exact ⟨rfl, rfl⟩
  | told hl hx | populated hl hx | repopulated hl hx => exact (hkept hl hx rfl).elim
  | asks _ hi =>
    rcases haction with h₁ | h₁ <;> rcases hi with h₂ | ⟨h₂, -⟩ <;> exact absurd (h₁.symm.trans h₂) (by decide)

theorem Starting.fail (h : Starting s) (hlost : Loses s e) (hs : next toInstant env s e = some s') : Stuck s' := by
  have hcoherent := coherent_happened h.coherent (happened_next hs)
  match e, hlost with
  | .ends n (.broadcast i), ⟨hl, ⟨t, ht, ha⟩, hlost⟩ =>
    obtain ⟨t₁, htasks, hstage⟩ := h.stage hl
    rw [next_ends ht ha] at hs
    obtain ⟨x, hx, rfl⟩ := Option.map_eq_some_iff.mp hs
    obtain ⟨herase, rfl⟩ := eraseIdx_singleton (htasks ▸ ht)
    obtain ⟨hcore, htasks'⟩ := lost_received hstage ha hlost (received_recv hx)
    refine ⟨hcoherent, ?_, ?_⟩
    · show x.1.isLoading = true
      rw [hcore]
      exact hl
    · show s.tasks.eraseIdx n ++ x.2 = []
      rw [htasks, herase, htasks']
      rfl

theorem Stuck.stay (h : Stuck s) (hs : Happened toInstant env s e s') : Stuck s' := by
  refine ⟨coherent_happened h.coherent hs, ?_, ?_⟩ <;> cases hs with
  | nothing => first | exact h.loading | exact h.quiet
  | acts ha =>
    obtain ⟨hl, rfl⟩ := acted_loading h.coherent h.loading ha
    first | exact hl | exact (List.append_nil _).trans h.quiet
  | ends ht =>
    rw [h.quiet] at ht
    cases ht
  | hears hshown => exact Bool.noConfusion (hshown.symm.trans h.loading)

theorem starting_launch (me : String) : Starting (launch me) :=
  ⟨coherent_launch me, fun _ => ⟨_, rfl, .inl ⟨me, rfl⟩⟩⟩

end Runs

/-! The user leaves while the app starts, and the user's information arrives meanwhile. -/

def leaving : List Event :=
  [.act .onPause, .ends 0 (.broadcast ⟨CoreActivity.getUserInfo, true, some (.user ann)⟩), .act .onResume]

end AllTabs
end FootballGallery
