/-
# Writing a post and reading it again

Two writers fill one map from a post, and three readers build a post from a
document: `forum_get_posts` with setters, for all posts at once, from two lists
of tasks that it pairs by index; `forum_get_post_with_id` with the same setters;
and the posts query of the user details with the constructor of nine arguments,
which leaves the author's name and emblem out.

Key definitions: `PostWriter`, `StoredBy`, `ReadBack`, `Listed`.
Key theorems: `getPostStepTwo_eq`, `answers_getPosts`, `answers_getPost`, `answers_getUser`,
`read_undoes_write`.
-/
import FootballGallery.GetComments

namespace FootballGallery
namespace DBUtil

open DocStore.Collection

/-- The writers of a post: `forum_create_post`, and `forum_update_post` of `oldPost`. -/
inductive PostWriter where
  | create
  | update (oldPost : Post)

namespace PostWriter

def requests (a : String) (p : Post) : PostWriter → List Request
  | .create => forumCreatePost a p
  | .update oldPost => forumUpdatePost a oldPost p

/-- The id that the post is stored under. -/
def docId (p : Post) : PostWriter → String
  | .create => p.mId
  | .update oldPost => oldPost.mId

end PostWriter

/-- The document `id` is there, and it is the one that `w` left when it wrote the post `p`. -/
structure StoredBy (db : Database) (w : PostWriter) (p : Post) (id : String) : Prop where
  docId : id = w.docId p
  there : (db.posts.get id).isSome
  left : ∃ a db₀ db₁, carryOut db₀ (w.requests a p) = some db₁ ∧ db.posts.get id = db₁.posts.get id

/-- The post `q`, read from the document `id`, is the post `p` that was written there. -/
structure ReadBack (id : String) (p q : Post) : Prop where
  id : q.mId = id
  title : q.mTitle = p.mTitle
  desc : q.mDesc = p.mDesc
  category : q.mCategory = p.mCategory
  filter : q.mFilter = p.mFilter
  likes : q.mLikes = p.mLikes
  ycards : q.mYCards = p.mYCards
  comments : q.mComments = p.mComments
  author : q.mAuthorEmail = p.mAuthorEmail

/-- The post `q` has the name and the emblem of its author's document. -/
def Signed (db : Database) (q : Post) : Prop :=
  ∃ u, db.users.get q.mAuthorEmail = some u ∧ q.mAuthorUName = u.username ∧
    q.mAuthorEmblemLeagueInt = u.emblemLeague ∧ q.mAuthorEmblemTeamInt = u.emblemTeam

/-- The post `q` shows the document `e` and its author. -/
structure Listed (db : Database) (e : String × PostDoc) (q : Post) : Prop where
  id : q.mId = e.1
  doc : postMap q = e.2
  signed : Signed db q

/-- Every stored post has an author among the users. -/
def PostsAuthored (db : Database) : Prop :=
  ∀ id d, db.posts.get id = some d → (db.users.get d.userId).isSome

theorem postsAuthored_iff (db : Database) :
    (∀ e ∈ db.posts.toList, (db.users.get e.2.userId).isSome) ↔ PostsAuthored db :=
  ⟨fun h id d hd => h (id, d) (mem_toList.mpr hd), fun h e he => h e.1 e.2 (mem_toList.mp he)⟩

instance (db : Database) : Decidable (PostsAuthored db) := decidable_of_iff _ (postsAuthored_iff db)

/-- The operation that starts `qs` ends in the broadcast `i` and in no other. -/
def Reads (db : Database) (qs : List Request) (i : Intent) : Prop := ∀ j, Answers db qs j ↔ j = i

variable {db : Database} {w : PostWriter} {p q : Post} {id : String}

theorem Answers.reads {qs : List Request} {i : Intent} (h : Answers db qs i) : Reads db qs i := by
  intro j
  constructor
  · rintro ⟨n, r, hr, hj⟩
    obtain ⟨m, r', hr', hi⟩ := h
    obtain rfl : r' = r := List.singleton_inj.mp (hr'.symm.trans hr)
    have hj' := answer_mono m hj
    have hi' := answer_mono n hi
    rw [Nat.add_comm, hi'] at hj'
    exact (Option.some.inj hj').symm
  · rintro rfl
    exact h

/-! ### The writers -/

/-- Both writers leave the post's map. -/
theorem StoredBy.get (h : StoredBy db w p id) : db.posts.get id = some (postMap p) := by
  obtain ⟨a, db₀, db₁, hw, hget⟩ := h.left
  have hid : id ≠ "" := by
    obtain ⟨d, hd⟩ := Option.isSome_iff_exists.mp h.there
    exact ne_of_get hd
  rw [hget]
  cases w with
  | create =>
    obtain rfl : { db₀ with posts := db₀.posts.set p.mId (postMap p) } = db₁ := Option.some.inj hw
    obtain rfl : id = p.mId := h.docId
    exact get_set_self _ _ hid
  | update oldPost =>
    obtain rfl : id = oldPost.mId := h.docId
    obtain ⟨r, hr, hw⟩ := Option.bind_eq_some_iff.mp hw
    obtain rfl : r.1 = db₁ := Option.some.inj hw
    simp only [exec, write] at hr
    split at hr
    · rename_i db' hu
      obtain ⟨ps, hps, rfl⟩ := Option.map_eq_some_iff.mp hu
      obtain rfl := Option.some.inj hr
      obtain ⟨d, hd, rfl⟩ := update_eq_some hps
      exact get_set_self _ _ hid
    · rename_i hu
      obtain rfl := Option.some.inj hr
      have hsome : (db₀.posts.get oldPost.mId).isSome := hget ▸ h.there
      obtain ⟨d, hd⟩ := Option.isSome_iff_exists.mp hsome
      exact absurd (by rw [update_isSome hd]; rfl) (hu _ rfl)

/-! ### The readers of one document -/

@[simp] theorem postMap_postOfDoc (id : String) (d : PostDoc) : postMap (postOfDoc id d) = d := rfl

@[simp] theorem postMap_postOfUser (id : String) (d : PostDoc) : postMap (postOfUser id d) = d := rfl

@[simp] theorem postMap_withAuthor (p : Post) (u : UserDoc) : postMap (withAuthor p u) = postMap p := rfl

/-- A post with the same map is the same post. -/
theorem readBack_of_postMap (hid : q.mId = id) (h : postMap q = postMap p) : ReadBack id p q where
  id := hid
  title := congrArg PostDoc.title h
  desc := congrArg PostDoc.description h
  category := congrArg PostDoc.category h
  filter := congrArg PostDoc.filter h
  likes := congrArg PostDoc.like h
  ycards := congrArg PostDoc.yellowcard h
  comments := congrArg PostDoc.comments h
  author := congrArg PostDoc.userId h

theorem signed_withAuthor {d : PostDoc} {u : UserDoc} (hu : db.users.get d.userId = some u) :
    Signed db (withAuthor (postOfDoc id d) u) := ⟨u, hu, rfl, rfl, rfl⟩

/-- A post of the list, as step two makes it. -/
def listedPost (db : Database) (e : String × PostDoc) : Post :=
  match db.users.get e.2.userId with
  | some u => withAuthor (postOfDoc e.1 e.2) u
  | none => postOfDoc e.1 e.2

theorem listed_listedPost {e : String × PostDoc} (h : (db.users.get e.2.userId).isSome) :
    Listed db e (listedPost db e) := by
  obtain ⟨u, hu⟩ := Option.isSome_iff_exists.mp h
  have hpost : listedPost db e = withAuthor (postOfDoc e.1 e.2) u := by
    unfold listedPost
    rw [hu]
  rw [hpost]
  exact ⟨rfl, rfl, signed_withAuthor hu⟩

/-! ### The readers -/

/-- The two lists of tasks fit together: step two finds each post and its own author. -/
theorem getPostStepTwo_eq (ha : PostsAuthored db) :
    getPostStepTwo db (db.posts.toList.map (·.1)) (db.posts.toList.map (·.2.userId)) =
      some (db.posts.toList.map (listedPost db)) := by
  rw [getPostStepTwo, List.zip_map', List.mapM_map]
  refine mapM_eq_map fun e he => ?_
  have hget : db.posts.get e.1 = some e.2 := mem_toList.mp he
  obtain ⟨u, hu⟩ := Option.isSome_iff_exists.mp (ha _ _ hget)
  simp [hget, hu, listedPost]

/-- `forum_get_posts` answers with all posts; without posts its answer has no extra. -/
theorem answers_getPosts (ha : PostsAuthored db) (a : String) :
    Answers db (forumGetPosts a) ⟨a, true,
      if db.posts.toList = [] then none else some (.posts (db.posts.toList.map (listedPost db)))⟩ := by
  by_cases hnil : db.posts.toList = []
  · rw [if_pos hnil]
    refine ⟨1, _, rfl, ?_⟩
    have h1 : exec true db (.getPosts a) = some (db, [.inr ⟨a, true, none⟩]) := by
      simp [exec, hnil]
    rw [answer, h1]
  · rw [if_neg hnil]
    refine ⟨2, _, rfl, ?_⟩
    have h1 : exec true db (.getPosts a) = some (db, [.inl (.getPostsStepTwo a
        (db.posts.toList.map (·.1)) (db.posts.toList.map (·.2.userId)))]) := by
      simp [exec, List.length_pos_iff.mpr hnil]
    have h2 : exec true db (.getPostsStepTwo a (db.posts.toList.map (·.1))
        (db.posts.toList.map (·.2.userId))) = some (db, [.inr ⟨a, true,
          some (.posts (db.posts.toList.map (listedPost db)))⟩]) := by
      simp only [exec, if_true, getPostStepTwo_eq ha, Option.map_some]
    simp only [answer, h1, h2]

theorem answers_getPost {d : PostDoc} {u : UserDoc} (hd : db.posts.get id = some d)
    (hu : db.users.get d.userId = some u) (a : String) :
    Answers db (forumGetPostWithId a id) ⟨a, true, some (.post (withAuthor (postOfDoc id d) u))⟩ := by
  refine ⟨2, _, rfl, ?_⟩
  have h1 : exec true db (.getPost a id) = some (db, [.inl (.getPostAuthor a (postOfDoc id d))]) := by
    simp only [exec, if_true, hd]
  have h2 : exec true db (.getPostAuthor a (postOfDoc id d)) =
      some (db, [.inr ⟨a, true, some (.post (withAuthor (postOfDoc id d) u))⟩]) := by
    have hu' : db.users.get (postOfDoc id d).mAuthorEmail = some u := hu
    simp only [exec, if_true, hu']
  simp only [answer, h1, h2]

/-- The posts of the user `email`, as the user details list them. -/
def postsOfUser (db : Database) (email : String) : List Post :=
  (db.posts.toList.filter (·.2.userId = email)).map fun e => postOfUser e.1 e.2

theorem answers_getUser {email : String} {u : UserDoc} (hu : db.users.get email = some u) (silent : Bool)
    (a : String) : Answers db [.getUser a email silent]
      ⟨a, true, some (.user (userOfDoc email u (postsOfUser db email)))⟩ := by
  refine ⟨2, _, rfl, ?_⟩
  have h1 : exec true db (.getUser a email silent) = some (db, [.inl (.getUserPosts a email u)]) := by
    simp only [exec, if_true, hu]
  have h2 : exec true db (.getUserPosts a email u) =
      some (db, [.inr ⟨a, true, some (.user (userOfDoc email u (postsOfUser db email)))⟩]) := rfl
  simp only [answer, h1, h2]

/-- The user details list the post under its id and no other post under it. -/
theorem mem_postsOfUser {d : PostDoc} (hd : db.posts.get id = some d) :
    postOfUser id d ∈ postsOfUser db d.userId ∧
      ∀ q ∈ postsOfUser db d.userId, q.mId = id → q = postOfUser id d := by
  constructor
  · refine List.mem_map.mpr ⟨(id, d), List.mem_filter.mpr ⟨mem_toList.mpr hd, ?_⟩, rfl⟩
    exact decide_eq_true rfl
  · intro q hq hid
    obtain ⟨⟨id', d'⟩, he, rfl⟩ := List.mem_map.mp hq
    obtain rfl : id' = id := hid
    have hd' := mem_toList.mp (List.mem_filter.mp he).1
    rw [Option.some.inj (hd'.symm.trans hd)]

/-- The list has the post under its id and no other post under it. -/
theorem mem_listedPosts {d : PostDoc} (hd : db.posts.get id = some d) :
    listedPost db (id, d) ∈ db.posts.toList.map (listedPost db) ∧
      ∀ q ∈ db.posts.toList.map (listedPost db), q.mId = id → q = listedPost db (id, d) := by
  constructor
  · exact List.mem_map_of_mem (mem_toList.mpr hd)
  · intro q hq hid
    obtain ⟨⟨id', d'⟩, he, rfl⟩ := List.mem_map.mp hq
    have hid' : (listedPost db (id', d')).mId = id' := by
      unfold listedPost
      split <;> rfl
    obtain rfl : id' = id := hid'.symm.trans hid
    rw [Option.some.inj ((mem_toList.mp he).symm.trans hd)]

/-- **Reading a post undoes writing it, for both writers and all readers**, and
the list of all posts shows each stored document once, with its own author. -/
theorem read_undoes_write (ha : PostsAuthored db) (a : String) :
    (∀ w p id, StoredBy db w p id →
      (∃ ps, Reads db (forumGetPosts a) ⟨a, true, some (.posts ps)⟩ ∧
        ∃ q ∈ ps, ReadBack id p q ∧ ∀ q' ∈ ps, q'.mId = id → q' = q) ∧
      (∃ q, Reads db (forumGetPostWithId a id) ⟨a, true, some (.post q)⟩ ∧ ReadBack id p q) ∧
      ∃ u, Reads db (userGetUserInfo p.mAuthorEmail a) ⟨a, true, some (.user u)⟩ ∧
        Reads db (userGetUserDetailWithEmail a p.mAuthorEmail) ⟨a, true, some (.user u)⟩ ∧
        ∃ q ∈ u.mPosts, ReadBack id p q ∧ ∀ q' ∈ u.mPosts, q'.mId = id → q' = q) ∧
    ∃ x : Option (List Post), Reads db (forumGetPosts a) ⟨a, true, x.map .posts⟩ ∧
      List.Forall₂ (Listed db) db.posts.toList (x.getD []) := by
  refine ⟨fun w p id h => ?_, ?_⟩
  · have hd := h.get
    obtain ⟨u, hu⟩ := Option.isSome_iff_exists.mp (ha _ _ hd)
    refine ⟨?_, ?_, ?_⟩
    · obtain ⟨hmem, hone⟩ := mem_listedPosts hd
      have hne : db.posts.toList ≠ [] := List.ne_nil_of_mem (mem_toList.mpr hd)
      have hreads := (answers_getPosts ha a).reads
      rw [if_neg hne] at hreads
      have hlisted : Listed db (id, postMap p) (listedPost db (id, postMap p)) :=
        listed_listedPost (ha _ _ hd)
      exact ⟨_, hreads, _, hmem, readBack_of_postMap hlisted.id hlisted.doc, hone⟩
    · exact ⟨_, (answers_getPost hd hu a).reads, readBack_of_postMap rfl rfl⟩
    · obtain ⟨hmem, hone⟩ := mem_postsOfUser hd
      refine ⟨_, (answers_getUser hu false a).reads, (answers_getUser hu true a).reads, _, hmem, ?_, hone⟩
      exact readBack_of_postMap rfl rfl
  · by_cases hnil : db.posts.toList = []
    · have hreads := (answers_getPosts ha a).reads
      rw [if_pos hnil] at hreads
      refine ⟨none, hreads, ?_⟩
      rw [hnil]
      exact .nil
    · have hreads := (answers_getPosts ha a).reads
      rw [if_neg hnil] at hreads
      refine ⟨some _, hreads, List.forall₂_map_right_iff.mpr ?_⟩
      exact List.forall₂_same.mpr fun e he => listed_listedPost (ha _ _ (mem_toList.mp he))

/-! Ann's post, liked and written back by the page, and Bob's. -/

def annsPost : Post := (postOfDoc "post_01-01-2022-08-00-00"
  ⟨0, ["comment_01-01-2022-09-00-00"], "who was there?", 1, 0, "Derby", "ann@mail.com", 0⟩).setLikes 1

def bobsPost : Post := (Post.new "post_01-01-2022-09-00-00" "Clásico" "what a goal" 2 0).setAuthor "bob@mail.com"

def twoAuthors : Database where
  posts := (DocStore.Collection.empty.set annsPost.mId (postMap annsPost)).set bobsPost.mId (postMap bobsPost)
  comments := .empty
  users := (DocStore.Collection.empty.set "ann@mail.com" ⟨"ann", "", 0, 1, [], [], [], [], []⟩).set
    "bob@mail.com" ⟨"bob", "", 1, 2, [], [], [], [], []⟩
  accounts := .empty

theorem storedBy_annsPost : StoredBy twoAuthors (.update annsPost) annsPost annsPost.mId where
  docId := rfl
  there := by decide
  left := ⟨"UPDATE_POST_AFTER_LIKE", twoAuthors, _, rfl, by decide⟩

theorem read_undoes_write_twoAuthors :
    (∃ ps, Reads twoAuthors (forumGetPosts "POPULATE_FORUM") ⟨"POPULATE_FORUM", true, some (.posts ps)⟩ ∧
      ∃ q ∈ ps, ReadBack annsPost.mId annsPost q ∧ ∀ q' ∈ ps, q'.mId = annsPost.mId → q' = q) ∧
    ∃ x : Option (List Post), Reads twoAuthors (forumGetPosts "POPULATE_FORUM")
        ⟨"POPULATE_FORUM", true, x.map .posts⟩ ∧
      List.Forall₂ (Listed twoAuthors) twoAuthors.posts.toList (x.getD []) := by
  obtain ⟨hall, hlist⟩ := @read_undoes_write twoAuthors (by decide) "POPULATE_FORUM"
  exact ⟨(hall _ _ _ storedBy_annsPost).1, hlist⟩

end DBUtil
end FootballGallery
