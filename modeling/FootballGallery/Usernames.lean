/-
# Usernames

Both flows that give a user a name ask first whether a document has it, and
write later: the sign-up creates an account in between, and both write the name
that the field has by then. Two users who ask for one name before either has
written are both told that it is free.

Names stay unique in the runs where that does not happen: a user edits the name
only while nothing is under way, asks for a name only while no other user who
has been told that it is free has yet to write it, and keeps a name by an
unchanged save only if it is still free for that user.

Key definitions: `UniqueNames`, `FreeFor`, `claim`, `inTurn`.
Key theorems: `inOrder_of_reach`, `views_free`, `names_unique`.
-/
import FootballGallery.AccountPages
import FootballGallery.Forum

namespace FootballGallery
namespace Usernames

open DBUtil DocStore Async Accounts

/-- No two users have one name. -/
def UniqueNames (db : Database) : Prop :=
  ∀ id id' d d', db.users.get id = some d → db.users.get id' = some d' → d.username = d'.username → id = id'

/-- Nobody but `x.2` has the name `x.1`. -/
def FreeFor (db : Database) (x : String × String) : Prop :=
  ∀ id d, db.users.get id = some d → d.username = x.1 → id = x.2

/-- The name in the field of a page, and whose name it is to be. -/
def nameOf : Label → Option (String × String)
  | .email _ => none
  | .signUp email uname _ _ => some (uname, email)
  | .profileEdit id _ uname => some (uname, id)

/-- The name that a message's flow has found free and not yet written, and for whom. -/
def claim (m : AccountMsg) : Option (String × String) :=
  match m.body with
  | .inl (.createAccount ..) | .inl (.setUser ..) | .inl (.updateUser ..) => nameOf m.tag
  | .inr i => if i.result && goesOn i.action then nameOf m.tag else none
  | _ => none

abbrev AccountConf := Conf Database Page Request Intent Label

/-- No message claims the name of `x` for another user. -/
def undisputed (net : List AccountMsg) (x : String × String) : Bool :=
  net.all fun m => (claim m).all fun y => y.1 != x.1 || y.2 == x.2

def freeFor (db : Database) (x : String × String) : Bool :=
  db.users.toList.all fun e => e.2.username != x.1 || e.1 == x.2

/-- A user changes the name in a field, and the page, only while nothing of the
client is under way; a save that does not ask is made under a free name; and a
name is looked up while no other user claims it. -/
def inTurn (emailAddress : String → Bool) (s : AccountConf) : Ev Action → Bool
  | .act i a => steady (accounts emailAddress) nameOf s (.act i a) &&
      (s.client i).all fun c => (c.act emailAddress a).2.all fun q =>
        match q with
        | .updateUser _ id doc => undisputed s.net (doc.username, id) && freeFor s.store (doc.username, id)
        | _ => true
  | .exec n _ => s.net[n]?.all fun m =>
      match m.body with
      | .inl (.queryUsername ..) => (nameOf m.tag).all (undisputed s.net)
      | _ => true
  | .deliver _ => true

theorem undisputed_iff {net : List AccountMsg} {x : String × String} :
    undisputed net x = true ↔ Undisputed claim net x := by
  unfold undisputed Undisputed
  simp only [List.all_eq_true, Option.all_eq_true, Bool.or_eq_true, bne_iff_ne, beq_iff_eq, Option.mem_def]
  constructor
  · intro h m hm y hy hname
    exact (h m hm y hy).resolve_left fun hne => hne hname
  · intro h m hm y hy
    by_cases hname : y.1 = x.1
    · exact .inr (h m hm y hy hname)
    · exact .inl hname

theorem freeFor_iff {db : Database} {x : String × String} : freeFor db x = true ↔ FreeFor db x := by
  unfold freeFor FreeFor
  simp only [List.all_eq_true, Bool.or_eq_true, bne_iff_ne, beq_iff_eq]
  constructor
  · intro h id d hd hname
    exact (h (id, d) (Collection.mem_toList.mpr hd)).resolve_left fun hne => hne hname
  · intro h e he
    by_cases hname : e.2.username = x.1
    · exact .inr (h e.1 e.2 (Collection.mem_toList.mp he) hname)
    · exact .inl hname

/-! ### Names in the database -/

section Names

variable {db db' : Database} {x : String × String}

theorem FreeFor.set (h : FreeFor db x) {id : String} {doc : UserDoc} (hname : doc.username = x.1 → id = x.2) :
    FreeFor { db with users := db.users.set id doc } x :=
  Collection.forall_set h hname

/-- A user takes a name that is free for it. -/
theorem UniqueNames.set (h : UniqueNames db) {id : String} {doc : UserDoc} (hfree : FreeFor db (doc.username, id)) :
    UniqueNames { db with users := db.users.set id doc } := by
  have hnew : FreeFor { db with users := db.users.set id doc } (doc.username, id) := hfree.set fun _ => rfl
  have hall : ∀ a d, (db.users.set id doc).get a = some d → ∀ b d', (db.users.set id doc).get b = some d' →
      d.username = d'.username → a = b := by
    refine Collection.forall_set (fun a d ha => ?_) fun b d' hb hname => ?_
    · exact Collection.forall_set (fun b d' hb => h a b d d' ha hb) fun hname => hfree a d ha hname
    · exact (hnew b d' hb hname.symm).symm
  exact fun a b d d' ha hb => hall a d ha b d' hb

/-- What a write of the pages does to names: it gives one that is free for the user, or none. -/
theorem names_wrote {q : Request} {m : AccountMsg} (hw : Wrote db q db') (hm : m.body = .inl q)
    (hq : Asks m.tag q) (h : UniqueNames db) (hfree : ∀ y ∈ claim m, FreeFor db y) :
    UniqueNames db' ∧ ∀ x, FreeFor db x → (∀ y ∈ claim m, x.1 = y.1 → x.2 = y.2) → FreeFor db' x := by
  obtain ⟨i, l, b⟩ := m
  obtain rfl : b = .inl q := hm
  have hset : ∀ {id : String} {doc : UserDoc}, claim ⟨i, l, .inl q⟩ = some (doc.username, id) →
      UniqueNames { db with users := db.users.set id doc } ∧ ∀ x, FreeFor db x →
        (∀ y ∈ claim ⟨i, l, .inl q⟩, x.1 = y.1 → x.2 = y.2) →
        FreeFor { db with users := db.users.set id doc } x := by
    intro id doc hclaim
    refine ⟨h.set (hfree _ hclaim), fun x hx hother => hx.set fun hname => ?_⟩
    exact (hother _ hclaim hname.symm).symm
  rcases hq with hq | hq
  · cases hq with
    | verifyEmail | verifyUsername | verifyNewName => cases hw
    | saves hname =>
      cases hw with
      | updateUser hu =>
        obtain ⟨old, -, rfl⟩ := Collection.update_eq_some hu
        exact hset (by rw [hname]; rfl)
  · cases hq with
    | creates =>
      cases hw with
      | createAccount => exact ⟨h, fun x hx _ => hx⟩
    | stores hname =>
      cases hw with
      | setUser => exact hset (by rw [hname]; rfl)
    | saves hname =>
      cases hw with
      | updateUser hu =>
        obtain ⟨old, -, rfl⟩ := Collection.update_eq_some hu
        exact hset (by rw [hname]; rfl)

/-- A name that is not found is free for everybody. -/
theorem freeFor_queryUsername {a n : String} {ok : Bool} {out : List (Request ⊕ Intent)} {i : Intent}
    (he : exec ok db (.queryUsername a n) = some (db', out)) (hi : .inr i ∈ out) (hr : i.result = true)
    (id : String) : FreeFor db' (n, id) := by
  cases ok with
  | false =>
    obtain ⟨rfl, rfl⟩ := Prod.mk.inj (Option.some.inj he)
    simp only [List.mem_append, List.mem_singleton, or_self, Sum.inr.injEq] at hi
    rw [hi] at hr
    cases hr
  | true =>
    obtain ⟨rfl, rfl⟩ := Prod.mk.inj (Option.some.inj he)
    obtain rfl := Sum.inr.inj (List.mem_singleton.mp hi)
    have hnone := List.length_eq_zero_iff.mp (Nat.le_zero.mp (of_decide_eq_true hr))
    intro id' d hd hname
    have hmem : (id', d) ∈ db.users.toList.filter (·.2.username = n) :=
      List.mem_filter.mpr ⟨Collection.mem_toList.mpr hd, decide_eq_true hname⟩
    rw [hnone] at hmem
    cases hmem

end Names

/-! ### Runs -/

section Runs

variable {emailAddress : String → Bool} {s : AccountConf}

theorem nameOf_recv (c : Page) (i : Intent) (c' : Page) (qs : List Request)
    (h : (accounts emailAddress).recv c i = some (c', qs)) :
    nameOf ((accounts emailAddress).tag c') = nameOf ((accounts emailAddress).tag c) := by
  obtain rfl := (Prod.mk.inj (Option.some.inj h)).1
  exact congrArg nameOf (continues_recv c i).1

theorem steady_of_inTurn (s : AccountConf) (e : Ev Action) (h : inTurn emailAddress s e = true) :
    steady (accounts emailAddress) nameOf s e = true := by
  cases e with
  | act i a => exact (Bool.and_eq_true_iff.mp h).1
  | _ => rfl

/-- What is claimed after a request was claimed by it, or is what a lookup has found free. -/
theorem claim_exec {ok : Bool} {db db' : Database} {i : ℕ} {l : Label} {q : Request}
    {out : List (Request ⊕ Intent)} (hq : Asks l q) (he : exec ok db q = some (db', out)) {b : Request ⊕ Intent}
    (hb : b ∈ out) {y : String × String} (hy : y ∈ claim ⟨i, l, b⟩) :
    nameOf l = some y ∧ ((∃ a n, q = .queryUsername a n) ∧ FreeFor db' y ∨ claim ⟨i, l, .inl q⟩ = some y) := by
  obtain ⟨r, rfl⟩ := replies_exec hq he b hb
  simp only [claim, Option.mem_def] at hy
  split at hy
  · rename_i hgo
    refine ⟨hy, ?_⟩
    have hr : r = true := (Bool.and_eq_true_iff.mp hgo).1
    rcases hq with hq | hq
    · cases hq with
      | verifyEmail => cases hy
      | verifyUsername | verifyNewName =>
        obtain rfl := Option.some.inj hy
        exact .inl ⟨⟨_, _, rfl⟩, freeFor_queryUsername he hb hr _⟩
      | saves => exact .inr hy
    · cases hq <;> exact .inr hy
  · cases hy

/-- A tap claims a name only by a save that does not ask. -/
theorem claim_act {i : ℕ} {a : Action} {c : Page} {q : Request} (ho : inTurn emailAddress s (.act i a) = true)
    (hc : s.client i = some c) (hq : q ∈ (c.act emailAddress a).2) {y : String × String}
    (hy : y ∈ claim ⟨i, (c.act emailAddress a).1.label, .inl q⟩) :
    nameOf (c.act emailAddress a).1.label = some y ∧ Undisputed claim s.net y ∧ FreeFor s.store y := by
  have hguard := (Bool.and_eq_true_iff.mp ho).2
  rw [hc, Option.all_some] at hguard
  have hfree := List.all_eq_true.mp hguard q hq
  have hstarts := starts_act c a q hq
  generalize (c.act emailAddress a).1.label = l at hstarts hy
  cases hstarts with
  | verifyEmail | verifyUsername | verifyNewName => cases hy
  | saves hname =>
    obtain rfl := Option.some.inj hy
    simp only [hname, Bool.and_eq_true] at hfree
    exact ⟨rfl, undisputed_iff.mp hfree.1, freeFor_iff.mp hfree.2⟩

/-- A reply continues the flow of its own name. -/
theorem claim_recv {i : ℕ} {t : Label} {r : Intent} {c : Page} {q : Request} (hq : q ∈ (c.recv r).2)
    (ht : nameOf t = nameOf c.label) {y : String × String} (hy : y ∈ claim ⟨i, (c.recv r).1.label, .inl q⟩) :
    nameOf t = some y ∧ claim ⟨i, t, .inr r⟩ = some y := by
  obtain ⟨hlabel, hqs⟩ := continues_recv c r
  obtain ⟨hcont, hres, hgo⟩ := hqs q hq
  rw [hlabel] at hy
  have hname : nameOf t = some y := by
    rw [ht]
    generalize c.label = l at hcont hy
    cases hcont <;> exact hy
  refine ⟨hname, ?_⟩
  have hgoes : (r.result && goesOn r.action) = true := by rw [hres, hgo]; rfl
  exact (if_pos hgoes).trans hname

/-- What the messages under way say of each other and of the clients. -/
structure InOrder (s : AccountConf) : Prop where
  sent : ∀ m ∈ s.net, Sent m.tag m.body
  labels : Fit (fun c m => nameOf m.tag = nameOf c.label) s.client s.net
  apart : OneOwner claim s.net

/-- No name is claimed for two users. -/
theorem inOrder_of_reach {s₀ : AccountConf} (h0 : s₀.net = [])
    (h : Reach (accounts emailAddress) (fun s e => inTurn emailAddress s e = true) s₀ s) : InOrder s := by
  have hfit : Fit (fun c m => nameOf m.tag = nameOf c.label) s₀.client s₀.net := by
    rw [h0]
    exact fun m hm => by cases hm
  refine ⟨sent_of_reach h0 h, h.labelled nameOf_recv steady_of_inTurn hfit, ?_⟩
  have hknown := (h.knowing fun s hs => hs.labelled nameOf_recv steady_of_inTurn hfit).knowing
    fun s hs => sent_of_reach h0 hs
  have hnil : OneOwner claim s₀.net := by
    rw [h0]
    exact .nil
  refine Reach.inv (P := fun s => OneOwner claim s.net) hnil (fun s e s' hone ho hs => ?_) hknown
  obtain ⟨⟨hturn, hlabels⟩, hsent⟩ := ho
  cases hs with
  | @act i a c c' qs hc ha =>
    obtain ⟨rfl, rfl⟩ := Prod.mk.inj (Option.some.inj ha)
    refine hone.more (o := nameOf (c.act emailAddress a).1.label) fun m hm => ?_
    rcases List.mem_append.mp hm with hm | hm
    · exact .inl hm
    · refine .inr fun y hy => ?_
      obtain ⟨q, hq, rfl⟩ := List.mem_map.mp hm
      obtain ⟨hname, hfree, -⟩ := claim_act hturn hc hq hy
      exact ⟨hname, hfree⟩
  | actThrows => exact hone
  | @exec n ok i t q l₁ l₂ st out hn hl he =>
    have hm₀ := List.mem_of_getElem? hn
    refine hone.more (o := nameOf t) fun m hm => ?_
    rcases mem_splice hm with hm | hm
    · exact .inl (hl ▸ hm)
    · refine .inr fun y hy => ?_
      obtain ⟨b, hb, rfl⟩ := List.mem_map.mp hm
      obtain ⟨hname, ⟨hlookup, -⟩ | hclaim⟩ := claim_exec (hsent _ hm₀) he hb hy
      · obtain ⟨a, n, rfl⟩ := hlookup
        simp only [inTurn, hn, Option.all_some, hname] at hturn
        exact ⟨hname, undisputed_iff.mp hturn⟩
      · exact ⟨hname, hone _ hm₀ y hclaim⟩
  | execThrows _ hl => exact hone.sub fun m hm => by rw [hl]; exact forall_drop (fun _ => id) m hm
  | @recv n i t r l₁ l₂ c c' qs hn hl hc hr =>
    have hm₀ := List.mem_of_getElem? hn
    have hlabel : nameOf t = nameOf c.label := hlabels _ hm₀ c hc
    obtain ⟨rfl, rfl⟩ := Prod.mk.inj (Option.some.inj hr)
    refine hone.more (o := nameOf t) fun m hm => ?_
    rcases mem_splice hm with hm | hm
    · exact .inl (hl ▸ hm)
    · refine .inr fun y hy => ?_
      obtain ⟨q, hq, rfl⟩ := List.mem_map.mp hm
      obtain ⟨hname, hclaim⟩ := claim_recv (i := i) (t := t) hq hlabel hy
      exact ⟨hname, hone _ hm₀ y hclaim⟩
  | recvThrows _ hl | drop _ hl =>
    exact hone.sub fun m hm => by rw [hl]; exact forall_drop (fun _ => id) m hm

theorem views_free (emailAddress : String → Bool) :
    Views (accounts emailAddress) (fun s e => inTurn emailAddress s e = true ∧ InOrder s) UniqueNames
      (fun _ _ => True) (fun db m => ∀ y ∈ claim m, FreeFor db y) (fun _ _ => True) where
  act s i a c c' qs ho hc ha _ _ := by
    obtain ⟨rfl, rfl⟩ := Prod.mk.inj (Option.some.inj ha)
    refine ⟨trivial, fun q hq => ⟨fun y hy => ?_, trivial⟩, fun _ _ _ _ => trivial⟩
    exact (claim_act ho.1 hc hq hy).2.2
  exec s n b i t q st out ho hn he hdb hm := by
    have hm₀ := List.mem_of_getElem? hn
    have hasks : Asks t q := ho.2.sent _ hm₀
    have hnames : UniqueNames st ∧ ∀ x, FreeFor s.store x →
        (∀ y ∈ claim ⟨i, t, .inl q⟩, x.1 = y.1 → x.2 = y.2) → FreeFor st x := by
      cases executed_exec he with
      | wrote hw => exact names_wrote (m := ⟨i, t, .inl q⟩) hw rfl hasks hdb hm
      | _ => exact ⟨hdb, fun x hx _ => hx⟩
    have hapart := ho.2.apart _ hm₀
    refine ⟨hnames.1, fun _ _ => trivial, fun m hmem hfree y hy => ?_, fun x hx => ⟨fun y hy => ?_, fun _ => id⟩⟩
    · exact hnames.2 y (hfree y hy) fun z hz => hapart z hz m hmem y hy
    · obtain ⟨-, ⟨-, hfree⟩ | hclaim⟩ := claim_exec hasks he hx hy
      · exact hfree
      · exact hnames.2 y (hm y hclaim) fun z hz _ => by rw [Option.some.inj (hclaim.symm.trans hz)]
  recv s n i t r c c' qs ho hn hc hr _ _ hm _ := by
    have hlabel : nameOf t = nameOf c.label := ho.2.labels _ (List.mem_of_getElem? hn) c hc
    obtain ⟨rfl, rfl⟩ := Prod.mk.inj (Option.some.inj hr)
    refine ⟨trivial, fun q hq => ⟨fun y hy => ?_, trivial⟩, fun _ _ _ _ => trivial⟩
    exact hm y (claim_recv (i := i) hq hlabel hy).2

/-- **Usernames are unique** in every run of sign-ups and profile edits in which users
ask for names in turn. -/
theorem names_unique {db : Database} {pages : List Page} (hdb : UniqueNames db)
    (h : Reach (accounts emailAddress) (fun s e => inTurn emailAddress s e = true)
      ⟨db, fun i => pages[i]?, []⟩ s) : UniqueNames s.store := by
  have hknown := h.knowing fun s hs => inOrder_of_reach rfl hs
  refine ((views_free emailAddress).reach ⟨hdb, fun _ _ _ => trivial, fun m hm => ?_, fun m hm => ?_⟩ hknown).store
  · cases hm
  · cases hm

end Runs

/-! Two visitors sign up, and both want to be "cat". -/

def visitors : AccountConf :=
  ⟨Forum.derbyDb, fun i => [Page.email AuthSignUpEmail.onCreate, .email AuthSignUpEmail.onCreate][i]?, []⟩

theorem unique_derbyDb : UniqueNames Forum.derbyDb := by
  intro id id' d d' hd hd' hname
  have hall : ∀ e ∈ Forum.derbyDb.users.toList, ∀ e' ∈ Forum.derbyDb.users.toList,
      e.2.username = e'.2.username → e.1 = e'.1 := by decide
  exact hall (id, d) (Collection.mem_toList.mpr hd) (id', d') (Collection.mem_toList.mpr hd') hname

/-- One after the other: the second one is told that the name is taken. -/
theorem names_unique_visitors :
    ∃ s, Reach (accounts hasAt) (fun s e => inTurn hasAt s e = true) visitors s ∧
      (s.store.users.get "cat@mail.com").isSome ∧ UniqueNames s.store := by
  obtain ⟨s, hreach, hs⟩ := @reach_of_test _ _ _ _ _ _ (accounts hasAt) (inTurn hasAt) visitors
    (fillsIn 0 0 "cat@mail.com" ++ signsUp 0 ++ [.deliver 0] ++ fillsIn 1 0 "dan@mail.com" ++
      [.exec 0 true, .deliver 0])
    (fun s => (s.store.users.get "cat@mail.com").isSome && s.net.isEmpty) (by decide)
  exact ⟨s, hreach, (Bool.and_eq_true_iff.mp hs).1, names_unique unique_derbyDb hreach⟩

/-- Both ask before either has written. -/
theorem two_cats :
    UniqueNames Forum.derbyDb ∧
      ∃ s, Reach (accounts hasAt) (fun _ _ => true) visitors s ∧ ¬ UniqueNames s.store := by
  refine ⟨unique_derbyDb, ?_⟩
  obtain ⟨s, hreach, hs⟩ := @reach_of_test _ _ _ _ _ _ (accounts hasAt) (fun _ _ => true) visitors
    (fillsIn 0 0 "cat@mail.com" ++ fillsIn 1 1 "dan@mail.com" ++ [.exec 0 true, .exec 1 true] ++
      [.deliver 0, .exec 0 true, .deliver 0, .exec 0 true, .deliver 1, .exec 1 true, .deliver 1, .exec 1 true])
    (fun s => ((s.store.users.get "cat@mail.com").map (·.username) == some "cat") &&
      (s.store.users.get "dan@mail.com").map (·.username) == some "cat") (by decide)
  simp only [Bool.and_eq_true, beq_iff_eq] at hs
  obtain ⟨d, hd, hname⟩ := Option.map_eq_some_iff.mp hs.1
  obtain ⟨d', hd', hname'⟩ := Option.map_eq_some_iff.mp hs.2
  refine ⟨s, hreach, fun hunique => ?_⟩
  have heq := hunique _ _ d d' hd hd' (hname.trans hname'.symm)
  revert heq
  decide

end Usernames
end FootballGallery
