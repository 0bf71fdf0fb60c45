/-
# Loading the forum

`CoreActivity` starts with a chain of tasks, each started by the reply of the one
before it: the user's information, the news, the posts, the matches and the
standings. Later replies of `forum_get_posts` bring the posts again. A reply
without posts carries no extra, and the receiver takes it for no reply at all: the
chain stops, and a collection that is there stays.

A request for the posts carries along which posts were stored when it was read, and
a client keeps that of the last reply that it has handled. The code knows nothing
of it.

Key definitions: `Reader`, `readers`, `Mirrors`, `Loaded`, `refreshes`.
Key theorems: `mirrors_stepTwo`, `recv_collection`, `views`, `ends_loaded`, `ends_stuck`, `load_mirrors`.
-/
import FootballGallery.ForumList
import FootballGallery.Forum
import FootballGallery.PostReaders
import FootballGallery.Lib.Views

namespace FootballGallery
namespace ForumLoad

open DBUtil DocStore Async

/-- The posts that a query has read. -/
abbrev Read := List (String × PostDoc)

/-- The activity, and what was stored when the query of its last list was read. -/
structure Reader where
  core : CoreForum
  read : Option Read

inductive ForumAction where
  | core (a : CoreForum.Action)
  /-- the broadcast of `ForumFormActivity` -/
  | updateForum
  /-- a post is created or deleted, in whichever activity -/
  | create (post : Post)
  | delete (postId : String)

/-- `p` is the post that is stored as `e`. -/
structure Mirror (e : String × PostDoc) (p : Post) : Prop where
  id : p.mId = e.1
  doc : postMap p = e.2

/-- The list has exactly the posts `es`. -/
def Mirrors (es : Read) (ps : List Post) : Prop := List.Forall₂ Mirror es ps

/-- The reply is one of `forum_get_posts`. -/
def ofPosts (a : String) : Bool := a == CoreActivity.populateForum || a == CoreActivity.repopulateForum

namespace Reader

variable (toInstant : ℤ → ℤ)

/-- Tasks as they are started: no posts are read yet. -/
def start (ts : List CoreTask) : List (CoreTask × Option Read) := ts.map fun t => (t, none)

def act (v : Reader) : ForumAction → Option (Reader × List (CoreTask × Option Read))
  | .core a => (CoreForum.act toInstant v.core a).map fun x => ({ v with core := x.1 }, start x.2)
  | .updateForum =>
    (CoreForum.onReceive toInstant v.core ⟨CoreActivity.updateForum, false, none⟩).map fun x =>
      ({ v with core := x.1 }, start x.2)
  | .create post =>
    some (v, start ((forumCreatePost ForumFormActivity.createPostInPosts post).map .call))
  | .delete postId =>
    some (v, start ((forumDeletePost ForumDetailActivity.deletePostInPosts postId).map .call))

/-- Whether the reply brings a list, or would if there were posts. -/
def renews : CoreForum.Reply → Bool
  | .broadcast i => ofPosts i.action
  | _ => false

def recv (v : Reader) (r : CoreForum.Reply × Option Read) : Option (Reader × List (CoreTask × Option Read)) :=
  (CoreForum.recv toInstant v.core r.1).map fun x =>
    (⟨x.1, if renews r.1 then r.2 else v.read⟩, start x.2)

end Reader

/-- What is read once `q` is carried out. -/
def readBy (db : Database) (g : Option Read) : Request → Option Read
  | .getPosts _ => some db.posts.toList
  | _ => g

def exec (ok : Bool) (db : Database) : CoreTask × Option Read →
    Option (Database × List ((CoreTask × Option Read) ⊕ (CoreForum.Reply × Option Read)))
  | (.call q, g) =>
    (DBUtil.exec ok db q).map fun x =>
      (x.1, x.2.map (Sum.map (fun q' => (.call q', readBy db g q)) fun i => (.broadcast i, readBy db g q)))
  | (.newsAsyncTask, g) => some (db, [.inr (.onPostNewsAsync, g)])
  | (.matchesAsyncTask, g) => some (db, [.inr (.onPostFixturesAsync, g)])
  | (.standingsAsyncTask, g) => some (db, [.inr (.onPostStandingsAsync, g)])

def readers (toInstant : ℤ → ℤ) :
    App Database Reader (CoreTask × Option Read) (CoreForum.Reply × Option Read) ForumAction Unit where
  act v a := v.act toInstant a
  exec := exec
  recv v r := v.recv toInstant r
  tag _ := ()

abbrev ReadConf := Conf Database Reader (CoreTask × Option Read) (CoreForum.Reply × Option Read) Unit

/-- The users `users` start the app. -/
def launch (toInstant : ℤ → ℤ) (db : Database) (users : List String) : ReadConf where
  store := db
  client i := users[i]?.map fun me => ⟨(CoreForum.onCreate me).1, none⟩
  net := users.zipIdx.flatMap fun u =>
    issue (readers toInstant) u.2 ⟨(CoreForum.onCreate u.1).1, none⟩ (Reader.start (CoreForum.onCreate u.1).2)

/-- The first client has the stored posts and shows them. -/
def Loaded (s : ReadConf) : Prop :=
  ∃ v, s.client 0 = some v ∧ v.core.isLoading = false ∧
    ∃ ps, v.core.mForumCollection = some ps ∧ Mirrors s.store.posts.toList ps

/-- The posts that a read under way is about to get. -/
def listed (m : Msg (CoreTask × Option Read) (CoreForum.Reply × Option Read) Unit) : List String :=
  match m.body with
  | .inl (.call (.getPostsStepTwo _ postIds _), _) => postIds
  | _ => []

/-- No post is created under an id that a read under way has listed, and a reply
without posts comes to a client that has none. -/
def refreshes (s : ReadConf) : Ev ForumAction → Bool
  | .act .. => true
  | .exec n _ =>
    match requestAt s n with
    | some (.call (.setPost _ id _), _) => s.net.all fun m => decide (id ∉ listed m)
    | _ => true
  | .deliver n =>
    match s.net[n]? with
    | some ⟨i, _, .inr (.broadcast ⟨a, _, none⟩, _)⟩ =>
      !ofPosts a || (s.client i).all fun v => decide (v.core.mForumCollection.getD [] = [])
    | _ => true

/-! ### Reading the posts -/

section Reading

variable {db : Database} {es : Read} {ps : List Post}

/-- Step two finds the posts that step one has listed, if they are as they were. -/
theorem mirrors_stepTwo (h : getPostStepTwo db (es.map (·.1)) (es.map (·.2.userId)) = some ps)
    (hes : ∀ e ∈ es, db.posts.get e.1 = some e.2 ∨ db.posts.get e.1 = none) : Mirrors es ps := by
  rw [getPostStepTwo, List.zip_map', List.mapM_map] at h
  induction es generalizing ps with
  | nil =>
    obtain rfl := Option.some.inj h
    exact .nil
  | cons e es ih =>
    rw [List.mapM_cons] at h
    obtain ⟨p, hp, h⟩ := Option.bind_eq_some_iff.mp h
    obtain ⟨ps', hps', h⟩ := Option.bind_eq_some_iff.mp h
    obtain rfl := Option.some.inj h
    refine .cons ?_ (ih hps' fun e' he' => hes e' (List.mem_cons_of_mem _ he'))
    obtain ⟨doc1, hdoc1, hp⟩ := Option.bind_eq_some_iff.mp hp
    obtain ⟨doc2, -, hp⟩ := Option.bind_eq_some_iff.mp hp
    obtain rfl := Option.some.inj hp
    rcases hes e List.mem_cons_self with hget | hget
    · obtain rfl := Option.some.inj (hget.symm.trans hdoc1)
      exact ⟨rfl, rfl⟩
    · rw [hget] at hdoc1
      cases hdoc1

theorem mirrors_listed (ha : PostsAuthored db) :
    Mirrors db.posts.toList (db.posts.toList.map (listedPost db)) := by
  refine List.forall₂_map_right_iff.mpr (List.forall₂_same.mpr fun e he => ?_)
  have hlisted := listed_listedPost (ha _ _ (Collection.mem_toList.mp he))
  exact ⟨hlisted.id, hlisted.doc⟩

end Reading

/-! ### What the activity does with its collection -/

section Core

variable {toInstant : ℤ → ℤ} {c c' : CoreForum} {ts : List CoreTask}

/-- The tasks of a running activity: none, one of `API`, or the posts again. -/
def Usual (ts : List CoreTask) : Prop :=
  (∀ t ∈ ts, ∀ q, t ≠ .call q) ∨ ∃ a, ofPosts a = true ∧ ts = (forumGetPosts a).map .call

theorem usual_nil : Usual [] := .inl fun t ht => by cases ht

theorem usual_getPosts {a : String} (h : ofPosts a = true) : Usual ((forumGetPosts a).map .call) := .inr ⟨a, h, rfl⟩

theorem onFragment_frame {g : ForumFragment → CoreForum}
    (hg : ∀ f, (g f).mForumCollection = c.mForumCollection) :
    (c.onFragment g).mForumCollection = c.mForumCollection := by
  unfold CoreForum.onFragment
  split
  · cases c.fragment with
    | none => rfl
    | some f => exact hg f
  · rfl

theorem replaceFragment_collection {tab : Tab} (h : CoreForum.replaceFragment toInstant tab c = some c') :
    c'.mForumCollection = c.mForumCollection := by
  unfold CoreForum.replaceFragment at h
  cases tab with
  | forum =>
    obtain ⟨c₁, hc₁, rfl⟩ := Option.map_eq_some_iff.mp h
    unfold CoreForum.sortForumCollection at hc₁
    split at hc₁
    · obtain rfl := Option.some.inj hc₁
      rfl
    · obtain ⟨l, -, rfl⟩ := Option.map_eq_some_iff.mp hc₁
      rfl
  | _ =>
    obtain rfl := Option.some.inj h
    rfl

/-- No user action changes the collection. -/
theorem act_collection {a : CoreForum.Action} (h : CoreForum.act toInstant c a = some (c', ts)) :
    c'.mForumCollection = c.mForumCollection ∧ Usual ts := by
  have hquiet : ∀ {c₁ : CoreForum}, c₁.mForumCollection = c.mForumCollection →
      some (c₁, ([] : List CoreTask)) = some (c', ts) →
      c'.mForumCollection = c.mForumCollection ∧ Usual ts := by
    intro c₁ hc₁ heq
    obtain ⟨rfl, rfl⟩ := Prod.mk.inj (Option.some.inj heq)
    exact ⟨hc₁, usual_nil⟩
  cases a with
  | onBnvClick tab =>
    obtain ⟨c₁, hc₁, heq⟩ := Option.map_eq_some_iff.mp h
    obtain ⟨rfl, rfl⟩ := Prod.mk.inj heq
    exact ⟨replaceFragment_collection (c := { c with mBNV := tab }) hc₁, usual_nil⟩
  | onResume =>
    obtain ⟨rfl, rfl⟩ := Prod.mk.inj (Option.some.inj h)
    refine ⟨rfl, ?_⟩
    split
    · exact usual_getPosts rfl
    · exact usual_nil
  | applyFilter =>
    refine hquiet ?_ h
    split
    · exact onFragment_frame fun f => rfl
    · rfl
  | _ =>
    refine hquiet ?_ h
    exact onFragment_frame fun f => rfl

/-- The posts that a reply brings. -/
def brought : CoreForum.Reply → Option (List Post)
  | .broadcast ⟨a, true, some (.posts ps)⟩ => if ofPosts a then some ps else none
  | _ => none

/-- A list of posts becomes the collection, and nothing else does. -/
theorem recv_collection {r : CoreForum.Reply} (h : CoreForum.recv toInstant c r = some (c', ts)) :
    c'.mForumCollection = (brought r).or c.mForumCollection ∧ Usual ts := by
  have hsome : ∀ {c₁ : CoreForum} {ts₁ : List CoreTask}, some (c₁, ts₁) = some (c', ts) → c' = c₁ ∧ ts = ts₁ := by
    intro c₁ ts₁ heq
    obtain ⟨rfl, rfl⟩ := Prod.mk.inj (Option.some.inj heq)
    exact ⟨rfl, rfl⟩
  have hone : ∀ {t : CoreTask}, (∀ q, t ≠ .call q) → Usual [t] := by
    intro t ht
    refine .inl fun t' ht' => ?_
    obtain rfl := List.mem_singleton.mp ht'
    exact ht
  cases r with
  | onPostNewsAsync =>
    obtain ⟨rfl, rfl⟩ := hsome h
    exact ⟨rfl, usual_getPosts rfl⟩
  | onPostFixturesAsync =>
    obtain ⟨rfl, rfl⟩ := hsome h
    exact ⟨rfl, hone fun q hq => by cases hq⟩
  | onPostStandingsAsync =>
    obtain ⟨c₁, hc₁, heq⟩ := Option.map_eq_some_iff.mp h
    obtain ⟨rfl, rfl⟩ := Prod.mk.inj heq
    exact ⟨replaceFragment_collection hc₁, usual_nil⟩
  | broadcast i =>
    obtain ⟨a, b, x⟩ := i
    -- whatever brings no posts leaves the collection alone
    have hkeep : ∀ {c₁ : CoreForum} {ts₁ : List CoreTask}, brought (.broadcast ⟨a, b, x⟩) = none →
        c₁.mForumCollection = c.mForumCollection → Usual ts₁ → some (c₁, ts₁) = some (c', ts) →
        c'.mForumCollection = (brought (.broadcast ⟨a, b, x⟩)).or c.mForumCollection ∧ Usual ts := by
      intro c₁ ts₁ hnone hc₁ hts₁ heq
      obtain ⟨rfl, rfl⟩ := hsome heq
      rw [hnone, Option.none_or]
      exact ⟨hc₁, hts₁⟩
    have hno : ofPosts a = false → brought (.broadcast ⟨a, b, x⟩) = none := by
      intro hne
      unfold brought
      split
      · rename_i heq
        obtain ⟨rfl, -, -⟩ := Intent.mk.inj (CoreForum.Reply.broadcast.inj heq)
        rw [hne]
        rfl
      · rfl
    have hbare : (∀ y, b = true → x = some y → False) → brought (.broadcast ⟨a, b, x⟩) = none := by
      intro hno
      unfold brought
      split
      · rename_i heq
        obtain ⟨rfl, rfl, rfl⟩ := Intent.mk.inj (CoreForum.Reply.broadcast.inj heq)
        exact absurd rfl (hno _ rfl)
      · rfl
    simp only [CoreForum.recv, CoreForum.onReceive] at h
    by_cases hinfo : a = CoreActivity.getUserInfo
    · rw [if_pos hinfo] at h
      have hna : ofPosts a = false := by rw [hinfo]; decide
      split at h
      · refine hkeep (hno hna) ?_ ?_ h
        · rfl
        · exact hone fun q hq => by cases hq
      · cases h
      · exact hkeep (hno hna) rfl usual_nil h
    rw [if_neg hinfo] at h
    by_cases hpop : a = CoreActivity.populateForum
    · rw [if_pos hpop] at h
      split at h
      · obtain ⟨rfl, rfl⟩ := hsome h
        rw [hpop]
        exact ⟨rfl, hone fun q hq => by cases hq⟩
      · cases h
      · rename_i hno₁ hno₂
        exact hkeep (hbare hno₂) rfl usual_nil h
    rw [if_neg hpop] at h
    by_cases hup : a = CoreActivity.updateForum
    · rw [if_pos hup] at h
      have hna : ofPosts a = false := by rw [hup]; decide
      exact hkeep (hno hna) rfl (usual_getPosts rfl) h
    rw [if_neg hup] at h
    by_cases hrep : a = CoreActivity.repopulateForum
    · rw [if_pos hrep] at h
      split at h
      · obtain ⟨c₁, hc₁, heq⟩ := Option.map_eq_some_iff.mp h
        obtain ⟨rfl, rfl⟩ := Prod.mk.inj heq
        rw [hrep]
        exact ⟨replaceFragment_collection (c := { c with mForumCollection := some _ }) hc₁, usual_nil⟩
      · cases h
      · rename_i hno₁ hno₂
        exact hkeep (hbare hno₂) rfl usual_nil h
    rw [if_neg hrep] at h
    have hna : ofPosts a = false := by
      unfold ofPosts
      rw [beq_false_of_ne hpop, beq_false_of_ne hrep]
      rfl
    split at h
    · refine hkeep (hno hna) rfl ?_ h
      split
      · exact usual_getPosts rfl
      · exact usual_nil
    · exact hkeep (hno hna) rfl usual_nil h

end Core

/-! ### What the messages know -/

abbrev ReadMsg := Msg (CoreTask × Option Read) (CoreForum.Reply × Option Read) Unit

/-- A query that has been read knows what was stored then, and what of it is still
there; its reply brings just that. -/
def Knows (db : Database) (m : ReadMsg) : Prop :=
  match m.body with
  | .inl (.call q, g) =>
    match q with
    | .getUser a .. | .getUserPosts a .. | .setPost a .. | .deletePost a .. => ofPosts a = false
    | .getPosts _ => True
    | .getPostsStepTwo _ postIds uIds => ∃ es : Read, g = some es ∧ es ≠ [] ∧ postIds = es.map (·.1) ∧
        uIds = es.map (·.2.userId) ∧ ∀ e ∈ es, db.posts.get e.1 = some e.2 ∨ db.posts.get e.1 = none
    | _ => False
  | .inr (.broadcast i, g) => ofPosts i.action = true →
      ∃ es : Read, g = some es ∧ i.result = true ∧
        (i.extra = none ∧ es = [] ∨ ∃ ps, i.extra = some (.posts ps) ∧ Mirrors es ps)
  | _ => True

/-- The client's collection is what was stored when its last reply's query was read. -/
def Mirrored (v : Reader) : Prop := ∀ es, v.read = some es → Mirrors es (v.core.mForumCollection.getD [])

section Runs

variable {toInstant : ℤ → ℤ} {db db' : Database}

theorem knows_usual {ts : List CoreTask} (h : Usual ts) (i : ℕ) :
    ∀ x ∈ Reader.start ts, Knows db ⟨i, (), .inl x⟩ := by
  intro x hx
  obtain ⟨t, ht, rfl⟩ := List.mem_map.mp hx
  rcases h with hquiet | ⟨a, -, rfl⟩
  · cases t with
    | call q => exact absurd rfl (hquiet _ ht q)
    | _ => trivial
  · obtain ⟨q, hq, rfl⟩ := List.mem_map.mp ht
    obtain rfl := List.mem_singleton.mp hq
    trivial

/-- Documents that change under ids that no read has listed. -/
theorem Knows.mono {m : ReadMsg} (h : Knows db m)
    (hget : ∀ id ∈ listed m, db'.posts.get id = db.posts.get id ∨ db'.posts.get id = none) : Knows db' m := by
  obtain ⟨i, t, b⟩ := m
  cases b with
  | inr r =>
    obtain ⟨reply, g⟩ := r
    cases reply with
    | _ => exact h
  | inl x =>
    obtain ⟨task, g⟩ := x
    cases task with
    | call q =>
      cases q with
      | getPostsStepTwo a postIds uIds =>
        obtain ⟨es, hg, hne, hids, huIds, hes⟩ := h
        refine ⟨es, hg, hne, hids, huIds, fun e he => ?_⟩
        have hmem : e.1 ∈ postIds := by
          rw [hids]
          exact List.mem_map_of_mem he
        rcases hget e.1 hmem with heq | hnone
        · rw [heq]
          exact hes e he
        · exact .inr hnone
      | _ => exact h
    | _ => exact h

/-- What a task of the first kind sends. -/
theorem knows_out {a : String} {g : Option Read} {out : List (Request ⊕ Intent)} (ha : ofPosts a = false)
    (hout : ∀ b ∈ out, (∃ r x, b = .inr ⟨a, r, x⟩) ∨ ∃ email d, b = .inl (.getUserPosts a email d)) (i : ℕ) :
    ∀ x ∈ out.map (Sum.map (fun q' => (CoreTask.call q', g)) fun i => (CoreForum.Reply.broadcast i, g)),
      Knows db ⟨i, (), x⟩ := by
  intro x hx
  obtain ⟨b, hb, rfl⟩ := List.mem_map.mp hx
  rcases hout b hb with ⟨r, y, rfl⟩ | ⟨email, d, rfl⟩
  · intro hof
    have hof' : ofPosts a = true := hof
    rw [ha] at hof'
    cases hof'
  · exact ha

theorem broadcast_of_write {out : List (Request ⊕ Intent)} {w : Option Database} {ok : Bool}
    {a : String} (h : write db a ok w = some (db', out)) :
    (∀ b ∈ out, (∃ r x, b = .inr ⟨a, r, x⟩) ∨ ∃ email d, b = .inl (.getUserPosts a email d)) ∧
      (db' = db ∨ w = some db') := by
  unfold write at h
  split at h
  · obtain ⟨rfl, rfl⟩ := Prod.mk.inj (Option.some.inj h)
    refine ⟨fun b hb => ?_, .inr rfl⟩
    obtain rfl := List.mem_singleton.mp hb
    exact .inl ⟨_, _, rfl⟩
  · obtain ⟨rfl, rfl⟩ := Prod.mk.inj (Option.some.inj h)
    refine ⟨fun b hb => ?_, .inl rfl⟩
    obtain rfl := List.mem_singleton.mp hb
    exact .inl ⟨_, _, rfl⟩

/-- The query reads the posts, or says that there are none. -/
theorem knows_getPosts {ok : Bool} {a : String} {g : Option Read}
    {out : List ((CoreTask × Option Read) ⊕ (CoreForum.Reply × Option Read))}
    (h : exec ok db (.call (.getPosts a), g) = some (db', out)) (i : ℕ) :
    db' = db ∧ ∀ b ∈ out, Knows db ⟨i, (), b⟩ := by
  obtain ⟨⟨db₁, out₁⟩, hexec, heq⟩ := Option.map_eq_some_iff.mp h
  obtain ⟨rfl, rfl⟩ := Prod.mk.inj heq
  cases ok with
  | false =>
    obtain ⟨rfl, rfl⟩ := Prod.mk.inj (Option.some.inj hexec)
    exact ⟨rfl, fun b hb => by cases hb⟩
  | true =>
    simp only [DBUtil.exec, if_true] at hexec
    split at hexec
    · rename_i hlen
      obtain ⟨rfl, rfl⟩ := Prod.mk.inj (Option.some.inj hexec)
      refine ⟨rfl, List.forall_mem_singleton.mpr ⟨db.posts.toList, rfl, List.length_pos_iff.mp hlen, rfl, rfl, ?_⟩⟩
      exact fun e he => .inl (Collection.mem_toList.mp he)
    · rename_i hlen
      obtain ⟨rfl, rfl⟩ := Prod.mk.inj (Option.some.inj hexec)
      have hnil : db.posts.toList = [] := by
        by_contra hne
        exact hlen (List.length_pos_iff.mpr hne)
      refine ⟨rfl, List.forall_mem_singleton.mpr fun _ => ?_⟩
      exact ⟨db.posts.toList, rfl, rfl, .inl ⟨rfl, hnil⟩⟩

/-- What step two sends mirrors the posts that the query has read. -/
theorem knows_stepTwo {ok : Bool} {a : String} {postIds uIds : List String} {g : Option Read} {i : ℕ}
    {out : List ((CoreTask × Option Read) ⊕ (CoreForum.Reply × Option Read))}
    (h : exec ok db (.call (.getPostsStepTwo a postIds uIds), g) = some (db', out))
    (hx : Knows db ⟨i, (), .inl (.call (.getPostsStepTwo a postIds uIds), g)⟩) :
    db' = db ∧ ∀ b ∈ out, Knows db ⟨i, (), b⟩ := by
  obtain ⟨⟨db₁, out₁⟩, hexec, heq⟩ := Option.map_eq_some_iff.mp h
  obtain ⟨rfl, rfl⟩ := Prod.mk.inj heq
  cases ok with
  | false =>
    obtain ⟨rfl, rfl⟩ := Prod.mk.inj (Option.some.inj hexec)
    exact ⟨rfl, fun b hb => by cases hb⟩
  | true =>
    simp only [DBUtil.exec, if_true] at hexec
    obtain ⟨ps, hps, hexec⟩ := Option.map_eq_some_iff.mp hexec
    obtain ⟨rfl, rfl⟩ := Prod.mk.inj hexec
    obtain ⟨es, hg, -, rfl, rfl, hes⟩ := hx
    refine ⟨rfl, List.forall_mem_singleton.mpr fun _ => ?_⟩
    exact ⟨es, hg, rfl, .inr ⟨ps, rfl, mirrors_stepTwo hps hes⟩⟩

/-- What a task leaves of the posts, and what it sends. -/
theorem knows_exec {ok : Bool} {x : CoreTask × Option Read} {i : ℕ}
    {out : List ((CoreTask × Option Read) ⊕ (CoreForum.Reply × Option Read))}
    (h : exec ok db x = some (db', out)) (hx : Knows db ⟨i, (), .inl x⟩) :
    (∀ id, db'.posts.get id = db.posts.get id ∨ db'.posts.get id = none ∨
        ∃ a doc g, x = (.call (.setPost a id doc), g)) ∧
      ∀ b ∈ out, Knows db' ⟨i, (), b⟩ := by
  obtain ⟨task, g⟩ := x
  cases task with
  | call q =>
    obtain ⟨⟨db₁, out₁⟩, hexec, heq⟩ := Option.map_eq_some_iff.mp h
    obtain ⟨rfl, rfl⟩ := Prod.mk.inj heq
    cases q with
    | getUser a id silent =>
      have hread : db₁ = db ∧ ∀ b ∈ out₁,
          (∃ r x, b = .inr ⟨a, r, x⟩) ∨ ∃ email d, b = .inl (.getUserPosts a email d) := by
        cases executed_exec hexec with
        | fails hall => exact ⟨rfl, fun b hb => .inl ⟨_, _, hall b hb⟩⟩
        | answers => exact ⟨rfl, fun b hb => .inl ⟨_, _, List.mem_singleton.mp hb⟩⟩
        | getUser => exact ⟨rfl, fun b hb => .inr ⟨_, _, List.mem_singleton.mp hb⟩⟩
        | wrote hw => cases hw
      obtain ⟨rfl, hout⟩ := hread
      exact ⟨fun id' => .inl rfl, knows_out hx hout i⟩
    | getUserPosts a email d =>
      have hread : db₁ = db ∧ ∀ b ∈ out₁,
          (∃ r x, b = .inr ⟨a, r, x⟩) ∨ ∃ email d, b = .inl (.getUserPosts a email d) := by
        cases executed_exec hexec with
        | fails hall => exact ⟨rfl, fun b hb => .inl ⟨_, _, hall b hb⟩⟩
        | answers => exact ⟨rfl, fun b hb => .inl ⟨_, _, List.mem_singleton.mp hb⟩⟩
        | getUserPosts => exact ⟨rfl, fun b hb => .inl ⟨_, _, List.mem_singleton.mp hb⟩⟩
        | wrote hw => cases hw
      obtain ⟨rfl, hout⟩ := hread
      exact ⟨fun id' => .inl rfl, knows_out hx hout i⟩
    | setPost a id doc =>
      obtain ⟨hout, hdb⟩ := broadcast_of_write hexec
      refine ⟨fun id' => ?_, knows_out hx hout i⟩
      rcases hdb with rfl | hdb
      · exact .inl rfl
      · obtain rfl := Option.some.inj hdb
        by_cases hid : id' = id
        · exact .inr (.inr ⟨a, doc, g, by rw [hid]⟩)
        · exact .inl (Collection.get_set_ne _ _ hid)
    | deletePost a id =>
      obtain ⟨hout, hdb⟩ := broadcast_of_write hexec
      refine ⟨fun id' => ?_, knows_out hx hout i⟩
      rcases hdb with rfl | hdb
      · exact .inl rfl
      · obtain rfl := Option.some.inj hdb
        by_cases hid : id' = id
        · refine .inr (.inl ?_)
          rw [hid]
          exact Collection.get_delete_self _ _
        · exact .inl (Collection.get_delete_ne _ hid)
    | getPosts a =>
      obtain ⟨rfl, hout⟩ := knows_getPosts h i
      exact ⟨fun id => .inl rfl, hout⟩
    | getPostsStepTwo a postIds uIds =>
      obtain ⟨rfl, hout⟩ := knows_stepTwo h hx
      exact ⟨fun id => .inl rfl, hout⟩
    | _ => exact hx.elim
  | _ =>
    obtain ⟨rfl, rfl⟩ := Prod.mk.inj (Option.some.inj h)
    refine ⟨fun id => .inl rfl, fun b hb => ?_⟩
    obtain rfl := List.mem_singleton.mp hb
    trivial

theorem views : Views (readers toInstant) (fun s e => refreshes s e = true) (fun _ => True) (fun _ v => Mirrored v) Knows
    fun _ _ => True where
  act s i a v v' qs ho hv ha hdb hs := by
    have hstart : ∀ {c' : CoreForum} {ts : List CoreTask}, c'.mForumCollection = v.core.mForumCollection →
        Usual ts → some (({ v with core := c' } : Reader), Reader.start ts) = some (v', qs) →
        Mirrored v' ∧ (∀ q ∈ qs, Knows s.store ⟨i, (), .inl q⟩ ∧ True) ∧
          ∀ m ∈ s.net, m.client = i → True → True := by
      intro c' ts hc' hts heq
      obtain ⟨rfl, rfl⟩ := Prod.mk.inj (Option.some.inj heq)
      refine ⟨fun es hes => ?_, fun q hq => ⟨knows_usual hts i q hq, trivial⟩, fun _ _ _ => id⟩
      show Mirrors es (c'.mForumCollection.getD [])
      rw [hc']
      exact hs es hes
    cases a with
    | core a =>
      obtain ⟨x, hx, heq⟩ := Option.map_eq_some_iff.mp ha
      obtain ⟨hc', hts⟩ := act_collection hx
      exact hstart hc' hts (congrArg some heq)
    | updateForum =>
      have hposts : ofPosts CoreActivity.repopulateForum = true := rfl
      exact hstart rfl (usual_getPosts hposts) ha
    | create post =>
      obtain ⟨rfl, rfl⟩ := Prod.mk.inj (Option.some.inj ha)
      refine ⟨hs, fun q hq => ⟨?_, trivial⟩, fun _ _ _ => id⟩
      obtain rfl := List.mem_singleton.mp hq
      exact rfl
    | delete postId =>
      obtain ⟨rfl, rfl⟩ := Prod.mk.inj (Option.some.inj ha)
      refine ⟨hs, fun q hq => ⟨?_, trivial⟩, fun _ _ _ => id⟩
      obtain rfl := List.mem_singleton.mp hq
      exact rfl
  exec s n b i t x st out ho hn he hdb hm := by
    obtain ⟨hposts, hout⟩ := knows_exec he hm
    refine ⟨trivial, fun _ => id, fun m hmem hm' => hm'.mono fun id hid => ?_, fun y hy => ⟨hout y hy, fun _ => id⟩⟩
    rcases hposts id with h | h | ⟨a, doc, g, rfl⟩
    · exact .inl h
    · exact .inr h
    · have hreq : requestAt s n = some (.call (.setPost a id doc), g) := by
        rw [requestAt, hn]
        rfl
      simp only [refreshes, hreq, List.all_eq_true, decide_eq_true_iff] at ho
      exact absurd hid (ho m hmem)
  recv s n i t r v v' qs ho hn hv hr hdb hs hm hl := by
    obtain ⟨reply, g⟩ := r
    obtain ⟨x, hx, heq⟩ := Option.map_eq_some_iff.mp hr
    obtain ⟨rfl, rfl⟩ := Prod.mk.inj heq
    obtain ⟨hc', hts⟩ := recv_collection hx
    refine ⟨fun es hes => ?_, fun q hq => ⟨knows_usual hts i q hq, trivial⟩, fun _ _ _ => id⟩
    show Mirrors es (x.1.mForumCollection.getD [])
    rw [hc']
    cases hrenews : Reader.renews reply with
    | false =>
      have hbrought : brought reply = none := by
        unfold brought
        split
        · rename_i a ps
          have hof : ofPosts a = false := hrenews
          rw [hof]
          rfl
        · rfl
      rw [hbrought, Option.none_or]
      exact hs es (by simpa [hrenews] using hes)
    | true =>
      have hg : g = some es := by simpa [hrenews] using hes
      cases reply with
      | broadcast intent =>
        obtain ⟨a, b, y⟩ := intent
        have hof : ofPosts a = true := hrenews
        obtain ⟨es', hg', rfl, hcase⟩ := hm hof
        obtain rfl := Option.some.inj (hg.symm.trans hg')
        rcases hcase with ⟨rfl, rfl⟩ | ⟨ps, rfl, hps⟩
        · have hempty : v.core.mForumCollection.getD [] = [] := by
            simpa [refreshes, hn, hof, hv] using ho
          show Mirrors [] (v.core.mForumCollection.getD [])
          rw [hempty]
          exact .nil
        · have hbrought : brought (.broadcast ⟨a, true, some (.posts ps)⟩) = some ps := if_pos hof
          rw [hbrought]
          exact hps
      | _ => cases hrenews

/-! ### The start -/

/-- One client, and one message under way or none. -/
def alone (db : Database) (v : Reader) (net : List ReadMsg) : ReadConf where
  store := db
  client i := if i = 0 then some v else none
  net := net

section Start

variable {P : ReadConf → Prop} {v v' : Reader}

theorem ends_exec {x : CoreTask × Option Read} {b : (CoreTask × Option Read) ⊕ (CoreForum.Reply × Option Read)}
    (he : exec true db x = some (db, [b])) (h : Ends (readers toInstant) P (alone db v [⟨0, (), b⟩])) :
    Ends (readers toInstant) P (alone db v [⟨0, (), .inl x⟩]) :=
  .exec rfl he h

theorem ends_recv {r : CoreForum.Reply × Option Read} {ts : List CoreTask}
    (hr : Reader.recv toInstant v r = some (v', Reader.start ts))
    (h : Ends (readers toInstant) P (alone db v' (ts.map fun t => ⟨0, (), .inl (t, none)⟩))) :
    Ends (readers toInstant) P (alone db v [⟨0, (), .inr r⟩]) := by
  refine .recv rfl rfl hr ?_
  have hclient : Function.update (alone db v [⟨0, (), .inr r⟩]).client 0 (some v') = (alone db v' []).client := by
    funext i
    by_cases hi : i = 0
    · rw [hi, Function.update_self]
      rfl
    · rw [Function.update_of_ne hi]
      simp only [alone, if_neg hi]
  have hnet : issue (readers toInstant) 0 v' (Reader.start ts) = ts.map fun t => ⟨0, (), .inl (t, none)⟩ := by
    unfold issue Reader.start
    rw [List.map_map]
    rfl
  rw [hclient, hnet]
  exact h

/-- The activity once its user is told. -/
def told (me : String) (u : User) : CoreForum := { (CoreForum.onCreate me).1 with mUser := some u }

/-- The chain up to the posts. -/
theorem ends_start {me : String} {u : UserDoc} (hu : db.users.get me = some u)
    (h : Ends (readers toInstant) P (alone db ⟨told me (userOfDoc me u (postsOfUser db me)), none⟩
      [⟨0, (), .inl (.call (.getPosts CoreActivity.populateForum), none)⟩])) :
    Ends (readers toInstant) P (launch toInstant db [me]) := by
  have hlaunch : launch toInstant db [me] = alone db ⟨(CoreForum.onCreate me).1, none⟩
      [⟨0, (), .inl (.call (.getUser CoreActivity.getUserInfo me false), none)⟩] := by
    unfold launch alone
    congr 1
    funext i
    cases i with
    | zero => rfl
    | succ i => rfl
  have huser : exec true db (.call (.getUser CoreActivity.getUserInfo me false), none) =
      some (db, [.inl (.call (.getUserPosts CoreActivity.getUserInfo me u), none)]) := by
    simp only [exec, DBUtil.exec, if_true, hu]
    rfl
  rw [hlaunch]
  refine ends_exec huser (ends_exec rfl ?_)
  refine @ends_recv _ _ _ _ ⟨told me (userOfDoc me u (postsOfUser db me)), none⟩ _ [.newsAsyncTask] rfl ?_
  refine ends_exec rfl ?_
  exact @ends_recv _ _ _ _ ⟨told me (userOfDoc me u (postsOfUser db me)), none⟩ _
    ((forumGetPosts CoreActivity.populateForum).map .call) rfl h

theorem ends_loaded {me : String} {u : UserDoc} (ha : PostsAuthored db) (hu : db.users.get me = some u)
    (hne : db.posts.toList ≠ []) :
    Ends (readers toInstant) (fun f => f.store = db ∧ Loaded f) (launch toInstant db [me]) := by
  have hlen : db.posts.toList.length > 0 := List.length_pos_iff.mpr hne
  have hone : exec true db (.call (.getPosts CoreActivity.populateForum), none) =
      some (db, [.inl (.call (.getPostsStepTwo CoreActivity.populateForum (db.posts.toList.map (·.1))
        (db.posts.toList.map (·.2.userId))), some db.posts.toList)]) := by
    simp only [exec, DBUtil.exec, if_true, hlen]
    rfl
  have htwo : exec true db (.call (.getPostsStepTwo CoreActivity.populateForum (db.posts.toList.map (·.1))
      (db.posts.toList.map (·.2.userId))), some db.posts.toList) =
      some (db, [.inr (.broadcast ⟨CoreActivity.populateForum, true,
        some (.posts (db.posts.toList.map (listedPost db)))⟩, some db.posts.toList)]) := by
    simp only [exec, DBUtil.exec, if_true, getPostStepTwo_eq ha]
    rfl
  let c : CoreForum := { told me (userOfDoc me u (postsOfUser db me)) with
    mForumCollection := some (db.posts.toList.map (listedPost db)) }
  refine ends_start hu (ends_exec hone (ends_exec htwo ?_))
  refine @ends_recv _ _ _ _ ⟨c, some db.posts.toList⟩ _ [.matchesAsyncTask] rfl (ends_exec rfl ?_)
  refine @ends_recv _ _ _ _ ⟨c, some db.posts.toList⟩ _ [.standingsAsyncTask] rfl (ends_exec rfl ?_)
  refine @ends_recv _ _ _ _ ⟨{ c with isLoading := false }, some db.posts.toList⟩ _ [] rfl (.done rfl ⟨rfl, ?_⟩)
  exact ⟨_, rfl, rfl, _, rfl, mirrors_listed ha⟩

/-- Without posts the reply is ignored, and the progress view stays. -/
theorem ends_stuck {me : String} {u : UserDoc} (hu : db.users.get me = some u)
    (hnil : db.posts.toList = []) :
    Ends (readers toInstant) (fun f => f.store = db ∧ ¬ Loaded f) (launch toInstant db [me]) := by
  have hone : exec true db (.call (.getPosts CoreActivity.populateForum), none) =
      some (db, [.inr (.broadcast ⟨CoreActivity.populateForum, true, none⟩, some [])]) := by
    simp only [exec, DBUtil.exec, if_true, readBy, hnil]
    rfl
  refine ends_start hu (ends_exec hone ?_)
  refine @ends_recv _ _ _ _ ⟨told me (userOfDoc me u (postsOfUser db me)), some []⟩ _ [] rfl (.done rfl ⟨rfl, ?_⟩)
  rintro ⟨v, hv, hloading, -⟩
  obtain rfl := Option.some.inj hv
  cases hloading

end Start

/-- **The start loads the forum exactly if there are posts, and a collection mirrors
the posts that its last reply has read**, as long as replies without posts come only
to clients without posts. -/
theorem load_mirrors (toInstant : ℤ → ℤ) (db : Database) :
    (∀ me u, PostsAuthored db → db.users.get me = some u →
      ∀ s, Reach (readers toInstant) Undisturbed (launch toInstant db [me]) s →
        Ends (readers toInstant) (fun f => f.store = db ∧ (Loaded f ↔ db.posts.toList ≠ [])) s) ∧
    ∀ users s, Reach (readers toInstant) (fun s e => refreshes s e = true) (launch toInstant db users) s →
      ∀ i v, s.client i = some v → Mirrored v := by
  refine ⟨fun me u ha hu s hr => ?_, fun users s hr => ?_⟩
  · by_cases hnil : db.posts.toList = []
    · obtain ⟨f, hf, hdb, hstuck⟩ := (@ends_stuck toInstant db me u hu hnil).reach hr
      exact ⟨f, hf, hdb, fun h => absurd h hstuck, fun h => absurd hnil h⟩
    · obtain ⟨f, hf, hdb, hloaded⟩ := (@ends_loaded toInstant db me u ha hu hnil).reach hr
      exact ⟨f, hf, hdb, fun _ => hnil, fun _ => hloaded⟩
  · refine (views.reach ⟨trivial, ?_, ?_, fun m _ c _ => trivial⟩ hr).client
    · intro i v hv es hes
      obtain ⟨me, -, rfl⟩ := Option.map_eq_some_iff.mp hv
      cases hes
    · intro m hm
      obtain ⟨u, -, hm⟩ := List.mem_flatMap.mp hm
      obtain ⟨x, hx, rfl⟩ := List.mem_map.mp hm
      obtain rfl := List.mem_singleton.mp hx
      exact rfl

end Runs

/-! Ann starts the app with her post and Bob's stored, deletes hers and refreshes, and
posts another one and refreshes. Once all posts are deleted, the list stays. -/

open Forum

def onePost : Post := postOfDoc "post_02-01-2022-09-00-00" ⟨0, [], "what a goal", 1, 0, "Clásico", "ann@mail.com", 0⟩

def starting : List (Ev ForumAction) :=
  [carry, carry, arrive, carry, arrive, carry, carry, arrive, carry, arrive, carry, arrive,
    .act 0 (.core (.onBnvClick .forum))]

def refreshing : List (Ev ForumAction) := [carry, arrive, .act 0 (.core .onResume), carry, carry, arrive]

def shownIds (s : ReadConf) : Option (List String) :=
  (s.client 0).map fun v => (v.core.mForumCollection.getD []).map (·.mId)

theorem load_mirrors_twoAuthors :
    Ends (readers CoreForum.utc) (fun f => f.store = twoAuthors ∧ (Loaded f ↔ twoAuthors.posts.toList ≠ []))
        (launch CoreForum.utc twoAuthors ["ann@mail.com"]) ∧
      ∃ s, Reach (readers CoreForum.utc) (fun s e => refreshes s e = true)
          (launch CoreForum.utc twoAuthors ["ann@mail.com"]) s ∧
        shownIds s = some ["post_02-01-2022-09-00-00", bobsPost.mId] ∧
        ∀ i v, s.client i = some v → Mirrored v := by
  obtain ⟨s, hr, hs⟩ := @reach_of_test _ _ _ _ _ _ (readers CoreForum.utc) refreshes
    (launch CoreForum.utc twoAuthors ["ann@mail.com"])
    (starting ++ [.act 0 (.delete annsPost.mId)] ++ refreshing ++ [.act 0 (.create onePost)] ++ refreshing)
    (fun s => decide (shownIds s = some ["post_02-01-2022-09-00-00", bobsPost.mId])) (by decide)
  obtain ⟨hstart, hruns⟩ := load_mirrors CoreForum.utc twoAuthors
  exact ⟨hstart "ann@mail.com" _ (by decide) rfl _ .init, s, hr, of_decide_eq_true hs, hruns _ s hr⟩

theorem empty_forum :
    Ends (readers CoreForum.utc) (fun f => ¬ Loaded f)
        (launch CoreForum.utc { twoAuthors with posts := .empty } ["ann@mail.com"]) ∧
      ∃ s, Reach (readers CoreForum.utc) (fun _ _ => true = true)
          (launch CoreForum.utc twoAuthors ["ann@mail.com"]) s ∧
        ∃ v, s.client 0 = some v ∧ v.read = some [] ∧ ¬ Mirrored v := by
  constructor
  · obtain ⟨f, hf, -, hstuck⟩ := @ends_stuck CoreForum.utc { twoAuthors with posts := .empty } "ann@mail.com" _
      rfl rfl
    exact ⟨f, hf, hstuck⟩
  · obtain ⟨s, hr, hs⟩ := @reach_of_test _ _ _ _ _ _ (readers CoreForum.utc) (fun _ _ => true)
      (launch CoreForum.utc twoAuthors ["ann@mail.com"])
      (starting ++ [.act 0 (.delete annsPost.mId), carry, arrive, .act 0 (.delete bobsPost.mId), carry, arrive,
        .act 0 (.core .onResume), carry, arrive])
      (fun s => (s.client 0).any fun v : Reader =>
        decide (v.read = some [] ∧ v.core.mForumCollection.getD [] ≠ []))
      (by decide)
    obtain ⟨v, hv, hread⟩ := (Option.any_eq_true ..).mp hs
    obtain ⟨hnone, hsome⟩ := of_decide_eq_true hread
    refine ⟨s, hr, v, hv, hnone, fun h => hsome ?_⟩
    exact List.forall₂_nil_left_iff.mp (h [] hnone)

end ForumLoad
end FootballGallery
