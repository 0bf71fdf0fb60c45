/-
# The forum of the main activity with all its tabs

`CoreForum` is the main activity as its forum has it: one list, one fragment, no titles
and no tags, never paused. The activity with all its tabs does what this one does, with
the same calls, as long as no list is loaded anew under an open dialog: the dialog would
be about the fragment that opened it, and `CoreForum` has the last one only.

Key definitions: `toForum`, `ForumRunning`, `forumNext`, `OfForum`, `Undisturbed`, `Attached`.
Key theorems: `acted_forum`, `received_forum`, `happened_forum`, `forum_simulates`.
-/
import FootballGallery.TabRuns

namespace FootballGallery
namespace AllTabs

open DBUtil APIUtil Runs

/-! ### The forum alone -/

/-- The fragment, if it is one of the forum. -/
def asForum : TabFragment → Option ForumFragment
  | .forum f => some f
  | _ => none

/-- What the activity is to its forum. -/
def toForum (me : String) (c : AllTabs) : CoreForum where
  me := me
  mUser := c.mUser
  mForumCollection := c.mForumCollection
  mFilteredForum := c.mFilteredForum
  mForumFilterSelection := c.mForumFilterSelection
  mForumSortSelection := c.mForumSortSelection
  mBNV := c.mBNV
  isLoading := c.isLoading
  fragment := (c.fragments.filterMap asForum).getLast?

/-- `CoreForum` with its tasks under way. -/
structure ForumRunning where
  core : CoreForum
  tasks : List CoreTask

inductive ForumEvent where
  | act (a : CoreForum.Action)
  /-- the task at place `n` ends -/
  | ends (n : ℕ) (r : CoreForum.Reply)
  /-- the task at place `n` ends, and nobody hears it -/
  | lost (n : ℕ)
  | hears (i : Intent)

/-- The forum's reply that a reply is. -/
def forumReply : Reply → CoreForum.Reply
  | .broadcast i => .broadcast i
  | .onPostNewsAsync _ => .onPostNewsAsync
  | .onPostFixturesAsync _ => .onPostFixturesAsync
  | .onPostStandingsAsync _ => .onPostStandingsAsync

/-- The forum's event that an event can be; the choice in a dialog is one of the order or
one of the flags. -/
inductive OfForum : ForumEvent → Event → Prop
  | selects tab : OfForum (.act (.onBnvClick tab)) (.act (.onBnvClick tab))
  | resumes : OfForum (.act .onResume) (.act .onResume)
  | displays : OfForum (.act .displaySortDialog) (.act .displaySortDialog)
  | checksSort (pos : ℕ) isChecked : OfForum (.act (.checkSort pos)) (.act (.onCheck pos isChecked))
  | checksFilter pos isChecked : OfForum (.act (.checkFilter pos isChecked)) (.act (.onCheck pos isChecked))
  | appliesSort : OfForum (.act .applySort) (.act .onPositive)
  | appliesFilter : OfForum (.act .applyFilter) (.act .onPositive)
  | selectsAll : OfForum (.act .selectAll) (.act .onNeutral)
  | cancels : OfForum (.act .cancelSort) (.act .onNegative)
  | lost n r : OfForum (.lost n) (.ends n r)
  | ends n r : OfForum (.ends n (forumReply r)) (.ends n r)
  | hears i : OfForum (.hears i) (.hears i)

def forumAnswers : CoreTask → CoreForum.Reply → Bool
  | .call q, .broadcast i => i.action == q.action
  | .newsAsyncTask, .onPostNewsAsync => true
  | .matchesAsyncTask, .onPostFixturesAsync => true
  | .standingsAsyncTask, .onPostStandingsAsync => true
  | _, _ => false

def forumNext (toInstant : ℤ → ℤ) (s : ForumRunning) : ForumEvent → Option ForumRunning
  | .act a => (s.core.act toInstant a).map fun x => ⟨x.1, s.tasks ++ x.2⟩
  | .ends n r =>
    match s.tasks[n]? with
    | some t =>
      if forumAnswers t r then (s.core.recv toInstant r).map fun x => ⟨x.1, s.tasks.eraseIdx n ++ x.2⟩ else some s
    | none => some s
  | .lost n => some ⟨s.core, s.tasks.eraseIdx n⟩
  | .hears i => (s.core.recv toInstant (.broadcast i)).map fun x => ⟨x.1, s.tasks ++ x.2⟩

/-- The activity is started by the user `me`. -/
def forumLaunch (me : String) : ForumRunning := ⟨(CoreForum.onCreate me).1, (CoreForum.onCreate me).2⟩

/-! ### Fragments -/

section Fragments

variable {me : String} {c c' : AllTabs} {f f' : TabFragment} {n : ℕ}

/-- A fragment is replaced by one that is the same to the forum. -/
theorem toForum_setFragment (hf : c.fragments[n]? = some f) (heq : asForum f' = asForum f) :
    toForum me (c.setFragment n f') = toForum me c := by
  have hforum : (c.fragments.set n f').filterMap asForum = c.fragments.filterMap asForum := by
    have hmap := congrArg (List.filterMap id) (Arrays.map_set_eq hf heq)
    rwa [List.filterMap_map, List.filterMap_map] at hmap
  unfold toForum setFragment
  simp only
  rw [hforum]

theorem eq_concat {l : List TabFragment} (hf : l[n]? = some f) (hn : n + 1 = l.length) :
    ∃ l₀, l = l₀ ++ [f] ∧ l₀.length = n := by
  have hlast : l.getLast? = some f := by
    rw [List.getLast?_eq_getElem?, ← hn, Nat.add_sub_cancel]
    exact hf
  obtain ⟨l₀, rfl⟩ := List.getLast?_eq_some_iff.mp hlast
  refine ⟨l₀, rfl, ?_⟩
  rw [List.length_append, List.length_singleton] at hn
  omega

theorem fragment_last {g : ForumFragment} (hf : c.fragments[n]? = some (.forum g)) (hn : n + 1 = c.fragments.length) :
    (toForum me c).fragment = some g := by
  obtain ⟨l₀, hl, -⟩ := eq_concat hf hn
  show (c.fragments.filterMap asForum).getLast? = some g
  rw [hl, List.filterMap_append]
  exact List.getLast?_concat

theorem toForum_setLast {g g' : ForumFragment} (hf : c.fragments[n]? = some (.forum g))
    (hn : n + 1 = c.fragments.length) :
    toForum me (c.setFragment n (.forum g')) = { toForum me c with fragment := some g' } := by
  obtain ⟨l₀, hl, rfl⟩ := eq_concat hf hn
  have hset : c.fragments.set l₀.length (.forum g') = l₀ ++ [.forum g'] := by
    rw [hl]
    simp
  unfold toForum setFragment
  simp only
  rw [hset, List.filterMap_append]
  refine congrArg (CoreForum.mk _ _ _ _ _ _ _ _) ?_
  exact List.getLast?_concat

theorem toForum_commit (h : commit f c = some c') :
    toForum me c' = { toForum me c with fragment := (asForum f).or (toForum me c).fragment } := by
  obtain ⟨-, rfl⟩ := commit_eq_some.mp h
  unfold toForum
  simp only
  rw [List.filterMap_append]
  cases f with
  | forum g => exact congrArg (CoreForum.mk _ _ _ _ _ _ _ _) List.getLast?_concat
  | _ => exact congrArg (CoreForum.mk _ _ _ _ _ _ _ _) (congrArg List.getLast? (List.append_nil _))

end Fragments

/-! ### What brings a fragment on screen -/

section Replace

variable {toInstant : ℤ → ℤ} {me : String} {c c' : AllTabs} {tab : Tab}

theorem toForum_sortForumCollection (h : sortForumCollection toInstant c = some c') :
    CoreForum.sortForumCollection toInstant (toForum me c) = some (toForum me c') := by
  have hfiltered : (toForum me c).mFilteredForum = c.mFilteredForum := rfl
  unfold sortForumCollection at h
  unfold CoreForum.sortForumCollection
  rw [hfiltered]
  cases hps : c.mFilteredForum with
  | none =>
    rw [hps] at h
    obtain rfl := Option.some.inj h
    rfl
  | some ps =>
    rw [hps] at h
    obtain ⟨l, hl, rfl⟩ := Option.map_eq_some_iff.mp h
    exact Option.map_eq_some_iff.mpr ⟨l, hl, rfl⟩

variable (me) in
theorem toForum_replaceFragment (h : replaceFragment toInstant tab c = some c') :
    CoreForum.replaceFragment toInstant tab (toForum me c) = some (toForum me c') := by
  obtain ⟨c₁, h₁, hcommit⟩ := Option.bind_eq_some_iff.mp h
  rw [toForum_commit hcommit]
  cases tab with
  | news =>
    obtain rfl := Option.some.inj h₁
    rfl
  | forum =>
    have hsort := @toForum_sortForumCollection toInstant me _ _ h₁
    exact Option.map_eq_some_iff.mpr ⟨_, hsort, rfl⟩
  | «matches» =>
    obtain ⟨shown, -, rfl⟩ := Option.map_eq_some_iff.mp h₁
    rfl
  | standings =>
    obtain ⟨shown, -, rfl⟩ := Option.map_eq_some_iff.mp h₁
    rfl

variable (me) in
theorem toForum_replaceForumFragment {flags : List Bool} {selection : ℤ}
    (h : replaceForumFragment flags selection c = some c') :
    toForum me c' = CoreForum.replaceForumFragment flags selection (toForum me c) :=
  toForum_commit h

/-- The dialogs of the other tabs do nothing to the forum. -/
theorem toForum_others :
    (∀ flags, replaceNewsFragment flags c = some c' → toForum me c' = toForum me c) ∧
      (∀ i, replaceMatchesFragment i c = some c' → toForum me c' = toForum me c) ∧
      ∀ i, replaceStandingsFragment i c = some c' → toForum me c' = toForum me c := by
  refine ⟨fun flags h => toForum_commit h, fun i h => ?_, fun i h => ?_⟩
  · obtain ⟨c₁, h₁, h⟩ := Option.bind_eq_some_iff.mp h
    obtain ⟨shown, -, rfl⟩ := Option.map_eq_some_iff.mp h₁
    exact toForum_commit h
  · obtain ⟨c₁, h₁, h⟩ := Option.bind_eq_some_iff.mp h
    obtain ⟨shown, -, rfl⟩ := Option.map_eq_some_iff.mp h₁
    exact toForum_commit h

end Replace

/-! ### Steps -/

/-- The open dialog is about the last fragment. -/
def Attached (v : View) : Prop := ∀ d, v.dialog = some d → d.opener + 1 = v.tabs.length

/-- No list is loaded anew under an open dialog. -/
def Undisturbed (s : Running) : Event → Prop
  | .ends _ (.broadcast i) => i.action = CoreActivity.repopulateForum → s.core.dialog = none
  | .ends _ (.onPostStandingsAsync _) => s.core.dialog = none
  | _ => True

instance : ∀ s e, Decidable (Undisturbed s e)
  | s, .ends _ (.broadcast i) =>
    inferInstanceAs (Decidable (i.action = CoreActivity.repopulateForum → s.core.dialog = none))
  | s, .ends _ (.onPostStandingsAsync _) => inferInstanceAs (Decidable (s.core.dialog = none))
  | _, .ends _ (.onPostNewsAsync _) | _, .ends _ (.onPostFixturesAsync _) | _, .act _ | _, .hears _ => .isTrue trivial

section Steps

variable {toInstant : ℤ → ℤ} {env : Platform} {me : String} {c c' : AllTabs} {d : Dialog} {f : TabFragment}
  {ts : List CoreTask}

/-- The forum does nothing, or what the action is to it. -/
def ActsAs (toInstant : ℤ → ℤ) (me : String) (c : AllTabs) (a : Action) (c' : AllTabs) (ts : List CoreTask) : Prop :=
  toForum me c' = toForum me c ∧ ts = [] ∨
    ∃ a', OfForum (.act a') (.act a) ∧ (toForum me c).act toInstant a' = some (toForum me c', ts)

variable (me) in
/-- The fragment of an open dialog is the last one; if it is one of the forum, this is on
screen. -/
theorem attached_open (h : Coherent c.view) (hatt : Attached c.view) (ho : c.Open d f) :
    d.opener + 1 = c.fragments.length ∧
      ∀ g, f = .forum g → (toForum me c).mBNV = .forum ∧ (toForum me c).fragment = some g := by
  have hlen : d.opener + 1 = c.fragments.length := (hatt d ho.dialog).trans (List.length_map _)
  refine ⟨hlen, ?_⟩
  rintro g rfl
  exact ⟨(h.tab_of_open ho).1.symm, fragment_last ho.opener hlen⟩

/-- What the forum does on its fragment. -/
theorem onFragment_eq {c : CoreForum} {g : ForumFragment} (htab : c.mBNV = .forum) (hg : c.fragment = some g)
    (k : ForumFragment → CoreForum) : c.onFragment k = k g := by
  rw [CoreForum.onFragment, if_pos htab, hg]
  rfl

/-- An action that the forum takes on its fragment. -/
theorem acts_of_onFragment {a : Action} {a' : CoreForum.Action} {k : ForumFragment → CoreForum} {g : ForumFragment}
    (hof : OfForum (.act a') (.act a))
    (hact : (toForum me c).act toInstant a' = some ((toForum me c).onFragment k, []))
    (htab : (toForum me c).mBNV = .forum) (hg : (toForum me c).fragment = some g) (hk : toForum me c' = k g) :
    ActsAs toInstant me c a c' [] := by
  refine .inr ⟨a', hof, ?_⟩
  rw [hact, onFragment_eq htab hg, hk]

theorem acts_onCheck {pos : ℕ} {isChecked : Bool} (h : Coherent c.view) (hatt : Attached c.view) (ho : c.Open d f) :
    ActsAs toInstant me c (.onCheck pos isChecked) (onCheck d f pos isChecked c) [] := by
  obtain ⟨hlen, hforum⟩ := attached_open me h hatt ho
  unfold onCheck
  split
  · rename_i hsingle
    split
    · cases f with
      | forum g =>
        obtain ⟨htab, hg⟩ := hforum g rfl
        have hset : toForum me (c.setFragment d.opener (.forum { g with mCheckedSortItem := pos })) = _ :=
          toForum_setLast ho.opener hlen
        exact acts_of_onFragment (.checksSort pos isChecked) rfl htab hg hset
      | _ => exact .inl ⟨toForum_setFragment ho.opener rfl, rfl⟩
    · exact .inl ⟨rfl, rfl⟩
  · rename_i hsingle
    cases f with
    | news => exact .inl ⟨rfl, rfl⟩
    | forum g =>
      obtain ⟨htab, hg⟩ := hforum g rfl
      exact acts_of_onFragment (.checksFilter pos isChecked) rfl htab hg rfl
    | «matches» | standings => exact absurd rfl hsingle

theorem acts_onNegative (h : Coherent c.view) (hatt : Attached c.view) (ho : c.Open d f) :
    ActsAs toInstant me c .onNegative (onNegative d f c.close) [] := by
  obtain ⟨hlen, hforum⟩ := attached_open me h hatt ho
  unfold onNegative
  split
  · cases f with
    | forum g =>
      obtain ⟨htab, hg⟩ := hforum g rfl
      have hset : toForum me (c.close.setFragment d.opener (.forum { g with mCheckedSortItem := g.original })) = _ :=
        toForum_setLast (c := c.close) ho.opener hlen
      exact acts_of_onFragment .cancels rfl htab hg hset
    | _ => exact .inl ⟨toForum_setFragment (c := c.close) ho.opener rfl, rfl⟩
  · exact .inl ⟨rfl, rfl⟩

theorem acts_onPositive (h : Coherent c.view) (hatt : Attached c.view) (ho : c.Open d f)
    (hp : onPositive d f c.close = some c') : ActsAs toInstant me c .onPositive c' [] := by
  obtain ⟨-, hforum⟩ := attached_open me h hatt ho
  obtain ⟨hnews, hmatches, hstandings⟩ := @toForum_others me c.close c'
  cases f with
  | news a =>
    simp only [onPositive] at hp
    split at hp
    · obtain rfl := Option.some.inj hp
      exact .inl ⟨rfl, rfl⟩
    · exact .inl ⟨hnews _ hp, rfl⟩
  | forum g =>
    obtain ⟨htab, hg⟩ := hforum g rfl
    simp only [onPositive] at hp
    split at hp
    · rename_i hgoes
      have heq := toForum_replaceForumFragment me hp
      rcases Bool.or_eq_true_iff.mp hgoes with hsort | hminimum
      · exact acts_of_onFragment .appliesSort rfl htab hg heq
      · have hact : (toForum me c).act toInstant .applyFilter = some (_, []) :=
          congrArg (fun c => some (c, [])) (if_pos hminimum)
        exact acts_of_onFragment .appliesFilter hact htab hg heq
    · obtain rfl := Option.some.inj hp
      exact .inl ⟨rfl, rfl⟩
  | «matches» g => exact .inl ⟨hmatches _ hp, rfl⟩
  | standings g => exact .inl ⟨hstandings _ hp, rfl⟩

theorem acts_onNeutral (h : Coherent c.view) (hatt : Attached c.view) (ho : c.Open d f)
    (hp : onNeutral d f c = some c') : ActsAs toInstant me c .onNeutral c' [] := by
  obtain ⟨-, hforum⟩ := attached_open me h hatt ho
  unfold onNeutral at hp
  split at hp
  · obtain rfl := Option.some.inj hp
    exact .inl ⟨rfl, rfl⟩
  · split at hp
    · obtain rfl := Option.some.inj hp
      exact .inl ⟨rfl, rfl⟩
    · rename_i g _
      obtain ⟨htab, hg⟩ := hforum g rfl
      have heq := toForum_replaceForumFragment me hp
      exact acts_of_onFragment .selectsAll rfl htab hg heq
    · obtain rfl := Option.some.inj hp
      exact .inl ⟨rfl, rfl⟩

/-- To open a dialog puts the choice of the order aside, if it is the one of the order. -/
theorem acts_display {a : Action} (h : Coherent c.view) (ht : c.tappable = true) (hf : c.fragments[c.last]? = some f)
    (hd : d.opener = c.last) (hs : d.sort = true → f.tab = .forum ∧ a = .displaySortDialog) :
    ActsAs toInstant me c a
      ({ c with dialog := some d }.setFragment d.opener (if d.single f then f.putAside else f)) [] := by
  have hlt := (List.getElem?_eq_some_iff.mp hf).1
  have hlen : d.opener + 1 = c.fragments.length := by
    unfold last at hd hlt
    omega
  rw [← hd] at hf
  split
  · rename_i hsingle
    cases f with
    | forum g =>
      obtain ⟨-, rfl⟩ := hs hsingle
      have hview := coherent_display h ht (hd ▸ hf) hd fun hsort => (hs hsort).1
      obtain ⟨htab, hg⟩ := (attached_open me (c := { c with dialog := some d }) (d := d) hview
        (fun d' hd' => by
          obtain rfl := Option.some.inj hd'
          exact hlen.trans (List.length_map _).symm) ⟨(tappable_iff.mp ht).1, rfl, hf⟩).2 g rfl
      have hset : toForum me ({ c with dialog := some d }.setFragment d.opener
          (.forum { g with original := g.mCheckedSortItem })) = _ :=
        toForum_setLast (c := { c with dialog := some d }) hf hlen
      exact acts_of_onFragment .displays rfl htab hg hset
    | _ => exact .inl ⟨toForum_setFragment (c := { c with dialog := some d }) hf rfl, rfl⟩
  · exact .inl ⟨toForum_setFragment (c := { c with dialog := some d }) hf rfl, rfl⟩

/-- **An action of the user** is one in the forum, or nothing to it. -/
theorem acted_forum {a : Action} (h : Coherent c.view) (hatt : Attached c.view) (ha : Acted toInstant c a c' ts) :
    ActsAs toInstant me c a c' ts := by
  cases ha with
  | stays | dismisses | pauses | stops => exact .inl ⟨rfl, rfl⟩
  | @selects tab _ ht hr =>
    refine .inr ⟨_, .selects tab, ?_⟩
    exact congrArg (Option.map fun c' => (c', [])) (toForum_replaceFragment me hr)
  | displays ht hf hd hs => exact acts_display h ht hf hd hs
  | checks ho => exact acts_onCheck h hatt ho
  | applies ho hp => exact acts_onPositive h hatt ho hp
  | selectsAll ho hp => exact acts_onNeutral h hatt ho hp
  | cancels ho => exact acts_onNegative h hatt ho
  | resumes => exact .inr ⟨_, .resumes, rfl⟩

theorem forumAnswers_forumReply {t : CoreTask} {r : Reply} (h : answers t r = true) :
    forumAnswers t (forumReply r) = true := by
  cases t <;> cases r <;> exact h

/-- **A reply** is one to the forum, or nothing to it. -/
theorem received_forum {r : Reply} (hr : Received toInstant env c r c' ts) :
    toForum me c' = toForum me c ∧ ts = [] ∨
      (toForum me c).recv toInstant (forumReply r) = some (toForum me c', ts) := by
  cases hr with
  | stays => exact .inl ⟨rfl, rfl⟩
  | @told x u _ hx =>
    subst hx
    exact .inr rfl
  | @populated x ps _ hx =>
    subst hx
    exact .inr rfl
  | @asks i _ ha =>
    obtain ⟨a, b, x⟩ := i
    rcases ha with ha | ⟨ha, hb⟩
    · change a = _ at ha
      subst ha
      exact .inr rfl
    · change a = _ at ha
      change b = _ at hb
      subst ha hb
      exact .inr rfl
  | @repopulated x ps c' _ hx hr =>
    subst hx
    exact .inr (congrArg (Option.map fun c' => (c', [])) (toForum_replaceFragment me hr))
  | news | fixtures => exact .inr rfl
  | @teams execute lists c' _ hr =>
    exact .inr (congrArg (Option.map fun c' => (c', [])) (toForum_replaceFragment me hr))

/-! ### The open dialog -/

theorem attached_closed (h : c.dialog = none) : Attached c.view := fun d hd => by
  have hnone : none = some d := h.symm.trans hd
  cases hnone

/-- The button of a dialog closes it. -/
theorem closed_answered {tab : Tab} (ha : Answered tab c.close c') : c'.dialog = none := by
  rcases ha with ⟨hview, -⟩ | ⟨c₁, happ, -, hview⟩
  · exact congrArg View.dialog hview
  · exact happ.replaced.kept.dialog.trans (congrArg View.dialog hview)

theorem attached_acted {a : Action} (hatt : Attached c.view) (ha : Acted toInstant c a c' ts) : Attached c'.view := by
  cases ha with
  | stays | pauses | stops | resumes => exact hatt
  | selects ht hr =>
    exact attached_closed ((replaced_replaceFragment hr).1.kept.dialog.trans (tappable_iff.mp ht).2.2)
  | @displays a d f ht hf hd hs =>
    have hlt := (List.getElem?_eq_some_iff.mp hf).1
    rw [view_setFragment (c := { c with dialog := some d }) (f := f) (hd ▸ hf)]
    · intro d' hd'
      obtain rfl := Option.some.inj hd'
      show d.opener + 1 = (c.fragments.map _).length
      rw [List.length_map, hd]
      unfold last at hlt ⊢
      omega
    · split
      · exact tab_putAside f
      · rfl
  | checks ho =>
    rw [view_onCheck ho]
    exact hatt
  | applies ho hr => exact attached_closed (closed_answered (answered_onPositive hr))
  | selectsAll ho hr =>
    rcases answered_onNeutral hr with rfl | ha
    · exact hatt
    · exact attached_closed (closed_answered ha)
  | cancels ho =>
    rw [view_onNegative (c := c.close) ho.opener]
    exact attached_closed rfl
  | dismisses => exact attached_closed rfl

theorem attached_received {r : Reply} (hatt : Attached c.view)
    (hcalm : ((∃ i, r = .broadcast i ∧ i.action = CoreActivity.repopulateForum) ∨ ∃ x, r = .onPostStandingsAsync x) →
      c.dialog = none) (hr : Received toInstant env c r c' ts) : Attached c'.view := by
  cases hr with
  | stays | told | populated | asks | news | fixtures => exact hatt
  | repopulated _ _ hr =>
    exact attached_closed ((replaced_replaceFragment hr).1.kept.dialog.trans (hcalm (.inl ⟨_, rfl, rfl⟩)))
  | teams _ hr =>
    exact attached_closed ((replaced_replaceFragment hr).1.kept.dialog.trans (hcalm (.inr ⟨_, rfl⟩)))

end Steps

/-! ### Runs -/

/-- What the two machines have in common. -/
structure Follows (me : String) (s : Running) (t : ForumRunning) : Prop where
  forum : t = ⟨toForum me s.core, s.tasks⟩
  coherent : Coherent s.core.view
  attached : Attached s.core.view

section Runs

variable {toInstant : ℤ → ℤ} {env : Platform} {me : String} {s s' : Running} {t : ForumRunning} {e : Event}

theorem attached_happened (h : Attached s.core.view) (hcalm : Undisturbed s e) (hs : Happened toInstant env s e s') :
    Attached s'.core.view := by
  cases hs with
  | nothing => exact h
  | acts ha => exact attached_acted h ha
  | ends _ _ hr =>
    refine attached_received h ?_ hr
    rintro (⟨i, rfl, hi⟩ | ⟨x, rfl⟩)
    · exact hcalm hi
    · exact hcalm
  | @hears i c' ts _ hi hr =>
    refine attached_received h ?_ hr
    rintro (⟨j, heq, ha⟩ | ⟨x, heq⟩)
    · obtain rfl := Reply.broadcast.inj heq
      rw [ha] at hi
      cases hi
    · cases heq

/-- **An event** is one of the forum, or nothing to it. -/
theorem happened_forum (h : Follows me s t) (hcalm : Undisturbed s e) (hs : Happened toInstant env s e s') :
    Follows me s' t ∨ ∃ fe t', OfForum fe e ∧ forumNext toInstant t fe = some t' ∧ Follows me s' t' := by
  have hfollows : ∀ {t'}, t' = ⟨toForum me s'.core, s'.tasks⟩ → Follows me s' t' := fun heq =>
    ⟨heq, coherent_happened h.coherent hs, attached_happened h.attached hcalm hs⟩
  obtain rfl := h.forum
  cases hs with
  | nothing => exact .inl h
  | acts ha =>
    rcases acted_forum h.coherent h.attached ha with ⟨heq, rfl⟩ | ⟨a, hof, hact⟩
    · refine .inl (hfollows ?_)
      rw [heq, List.append_nil]
    · exact .inr ⟨_, _, hof, Option.map_eq_some_iff.mpr ⟨_, hact, rfl⟩, hfollows rfl⟩
  | @ends n task r c' ts ht ha hr =>
    rcases received_forum hr with ⟨heq, rfl⟩ | hrecv
    · refine .inr ⟨_, _, .lost n r, rfl, hfollows ?_⟩
      rw [heq, List.append_nil]
    · refine .inr ⟨_, _, .ends n r, ?_, hfollows rfl⟩
      simp only [forumNext, ht]
      rw [if_pos (forumAnswers_forumReply ha)]
      exact Option.map_eq_some_iff.mpr ⟨_, hrecv, rfl⟩
  | @hears i c' ts _ _ hr =>
    rcases received_forum hr with ⟨heq, rfl⟩ | hrecv
    · refine .inl (hfollows ?_)
      rw [heq, List.append_nil]
    · exact .inr ⟨_, _, .hears i, Option.map_eq_some_iff.mpr ⟨_, hrecv, rfl⟩, hfollows rfl⟩

theorem follows_launch (me : String) : Follows me (launch me) (forumLaunch me) :=
  ⟨rfl, coherent_launch me, attached_closed rfl⟩

/-- **The activity with all its tabs has the forum of `CoreForum`**: after every run in
which no list is loaded anew under an open dialog, its posts, flags, order, tab and last
forum fragment are what `CoreForum` has after those events of the run, in their order,
that are something to the forum, with the same tasks under way. -/
theorem forum_simulates (toInstant : ℤ → ℤ) (env : Platform) (me : String) (es : List Event) (s : Running)
    (hcalm : Along (next toInstant env) Undisturbed (launch me) es)
    (h : run (next toInstant env) (launch me) es = some s) :
    ∃ fes, List.SublistForall₂ OfForum fes es ∧
      run (forumNext toInstant) (forumLaunch me) fes = some ⟨toForum me s.core, s.tasks⟩ := by
  have hsim : ∃ fes t, List.SublistForall₂ OfForum fes es ∧
      run (forumNext toInstant) (forumLaunch me) fes = some t ∧ Follows me s t :=
    hcalm.simulates (fun _ _ _ _ hf hc hs => happened_forum hf hc (happened_next hs)) (follows_launch me) h
  obtain ⟨fes, t, hsub, hrun, hfollows⟩ := hsim
  obtain rfl := hfollows.forum
  exact ⟨fes, hsub, hrun⟩

end Runs

/-! The app starts, and the user chooses the popular posts; then another activity has
made a post. -/

def sorting : List Event :=
  choosing.take 5 ++ [.act (.onBnvClick .forum), .act .displaySortDialog, .act (.onCheck 1 true), .act .onPositive,
    .hears ⟨CoreActivity.updateForum, true, none⟩]

theorem forum_simulates_sorting : ∃ s, run (next id sample) (launch "ann@mail.com") sorting = some s ∧
    s.core.mForumSortSelection = 1 ∧ ∃ fes, List.SublistForall₂ OfForum fes sorting ∧
      run (forumNext id) (forumLaunch "ann@mail.com") fes = some ⟨toForum "ann@mail.com" s.core, s.tasks⟩ :=
  ⟨_, rfl, rfl, forum_simulates id sample "ann@mail.com" sorting _ (by decide) rfl⟩

end AllTabs
end FootballGallery
