/-
# Creating posts and comments

A creation stores a document with `set` under the id that its constructor makes
from the time stamp of the moment. `set` asks nothing, so whatever has this id
is replaced. A sequence of creations keeps all documents if and only if no id
is stored already and no two creations of one kind have the same time stamp:
the same second, or twelve hours apart on the same local date.

Key definitions: `Creation`, `AddsOne`, `Creates`.
Key theorems: `carryOut_requests`, `creates_iff`.
-/
import FootballGallery.ForumDetailActivity
import FootballGallery.ForumFormActivity

namespace FootballGallery

open DBUtil StringUtil

/-- A creation: the moment, and the form or the page with the signed-in user. -/
inductive Creation where
  | post (t : Instant) (f : ForumForm) (author : User)
  | comment (t : Instant) (p : ForumDetail) (author : User)

namespace Creation

def time : Creation → Instant
  | post t _ _ => t
  | comment t _ _ => t

def case : Creation → ℤ
  | post .. => casePost
  | comment .. => caseComment

def id (c : Creation) : String := generateId c.case c.time

/-- The comment that `onCommentTap` makes. -/
def newComment (t : Instant) (p : ForumDetail) (author : User) : Comment :=
  .new (generateId caseComment t) p.mPost.mId author "" p.mEt_comment p.mCurrentParentId
    p.mCurrentMentionId

def requests : Creation → List Request
  | post t f author => forumCreatePost ForumFormActivity.createPostInPosts
      (ForumFormActivity.newPost f author (generateId casePost t))
  | comment t p author => forumUpdateCommentInComments ForumDetailActivity.updateComment
      (newComment t p author) caseAdd

/-- Posting a new post creates it. -/
theorem onPostTap_eq {f : ForumForm} {author : User} (hnew : f.mOldPost = none)
    (hauthor : f.mAuthor = some author) (htitle : isFieldValid [f.mEt_title] = true) (t : Instant) :
    (ForumFormActivity.onPostTap f (generateId casePost t)).map (·.2) = some (post t f author).requests := by
  simp only [ForumFormActivity.onPostTap, hauthor, Option.map_some, htitle, if_true, hnew]
  rfl

/-- Posting a comment creates it. -/
theorem onCommentTap_eq {p : ForumDetail} {author : User} (huser : p.mCurrentUser = some author)
    (htext : isFieldValid [p.mEt_comment] = true) (t : Instant) :
    (ForumDetailActivity.onCommentTap p (generateId caseComment t)).2 = (comment t p author).requests := by
  simp only [ForumDetailActivity.onCommentTap, huser, htext, if_true]
  rfl

/-- A document of the creation's kind has its id. -/
def Stored (db : Database) : Creation → Prop
  | c@(post ..) => (db.posts.get c.id).isSome
  | c@(comment ..) => (db.comments.get c.id).isSome

/-- One kind and one time stamp. -/
def Clash (c c' : Creation) : Prop := c.case = c'.case ∧ SameStamp c.time c'.time

theorem id_eq_iff (c c' : Creation) : c.id = c'.id ↔ c.Clash c' := by
  rw [id, id, generateId_eq_iff, Clash]
  refine and_congr_left fun _ => ?_
  cases c <;> cases c' <;> simp [case, casePost, caseComment]

theorem id_ne_empty (c : Creation) : c.id ≠ "" := generateId_ne_empty _ _

end Creation

/-- From `db` to `db'` there is one document more, and none changes. -/
structure AddsOne (db db' : Database) : Prop where
  size : db'.posts.size + db'.comments.size = db.posts.size + db.comments.size + 1
  posts : ∀ id d, db.posts.get id = some d → db'.posts.get id = some d
  comments : ∀ id d, db.comments.get id = some d → db'.comments.get id = some d

/-- The creations `cs`, one after the other, only ever add documents. -/
def Creates : Database → List Creation → Prop
  | _, [] => True
  | db, c :: cs => ∃ db', carryOut db c.requests = some db' ∧ AddsOne db db' ∧ Creates db' cs

namespace Creation

open DocStore

/-- Setting a document adds one if there is none, and else replaces one. -/
theorem set_adds_iff {δ : Type*} (s : Collection δ) {id : String} (d : δ) (hid : id ≠ "") :
    ((s.set id d).size = s.size + 1 ∧ ∀ id' d', s.get id' = some d' → (s.set id d).get id' = some d') ↔
      ¬ (s.get id).isSome := by
  cases hget : s.get id with
  | none =>
    refine iff_of_true ⟨Collection.size_set_new hid hget d, fun id' d' h => ?_⟩ (by simp)
    have hne : id' ≠ id := by
      rintro rfl
      rw [hget] at h
      cases h
    rw [Collection.get_set_ne _ _ hne, h]
  | some old =>
    refine iff_of_false (fun h => ?_) (by simp)
    have hsize := h.1
    rw [Collection.size_set_old hget] at hsize
    omega

theorem addsOne_posts (db : Database) {id : String} (d : PostDoc) (hid : id ≠ "") :
    AddsOne db { db with posts := db.posts.set id d } ↔ ¬ (db.posts.get id).isSome := by
  rw [← set_adds_iff db.posts d hid]
  constructor
  · intro h
    have hsize : (db.posts.set id d).size + db.comments.size = db.posts.size + db.comments.size + 1 := h.size
    exact ⟨by omega, h.posts⟩
  · rintro ⟨hsize, hposts⟩
    exact ⟨show (db.posts.set id d).size + db.comments.size = _ by omega, hposts, fun _ _ h => h⟩

theorem addsOne_comments (db : Database) {id : String} (d : CommentDoc) (hid : id ≠ "") :
    AddsOne db { db with comments := db.comments.set id d } ↔ ¬ (db.comments.get id).isSome := by
  rw [← set_adds_iff db.comments d hid]
  constructor
  · intro h
    have hsize : db.posts.size + (db.comments.set id d).size = db.posts.size + db.comments.size + 1 := h.size
    exact ⟨by omega, h.comments⟩
  · rintro ⟨hsize, hcomments⟩
    exact ⟨show db.posts.size + (db.comments.set id d).size = _ by omega, fun _ _ h => h, hcomments⟩

/-- Ids of the two kinds differ. -/
theorem post_id_ne (t t' : Instant) (f : ForumForm) (p : ForumDetail) (u u' : User) :
    (post t f u).id ≠ (comment t' p u').id := by
  rw [ne_eq, id_eq_iff]
  exact fun h => absurd h.1 (show casePost ≠ caseComment by decide)

/-- A creation writes its document, whatever is there, and cannot fail. -/
theorem carryOut_requests (db : Database) (c : Creation) :
    ∃ db', carryOut db c.requests = some db' ∧
      (AddsOne db db' ↔ ¬ c.Stored db) ∧
      ∀ c' : Creation, c'.Stored db' ↔ c'.Stored db ∨ c.id = c'.id := by
  have hid := c.id_ne_empty
  cases c with
  | post t f author =>
    have hrun : carryOut db (post t f author).requests = some
      { db with posts := db.posts.set (post t f author).id (postMap (ForumFormActivity.newPost f author _)) } := rfl
    refine ⟨_, hrun, addsOne_posts db _ hid, fun c' => ?_⟩
    cases c' with
    | post t' f' author' => exact Collection.isSome_get_set db.posts _ hid _
    | comment t' p' author' => simp [Stored, post_id_ne]
  | comment t p author =>
    have hrun : carryOut db (comment t p author).requests = some
      { db with comments := db.comments.set (comment t p author).id (commentMap _ _ (newComment t p author)) } := rfl
    refine ⟨_, hrun, addsOne_comments db _ hid, fun c' => ?_⟩
    cases c' with
    | post t' f' author' => simp [Stored, (post_id_ne _ _ _ _ _ _).symm]
    | comment t' p' author' => exact Collection.isSome_get_set db.comments _ hid _

/-- **Creations keep all documents exactly when all their ids are new**: none is
stored before, and no two of one kind share a time stamp. -/
theorem creates_iff : ∀ (cs : List Creation) (db : Database),
    Creates db cs ↔ (∀ c ∈ cs, ¬ c.Stored db) ∧ cs.Pairwise fun c c' => ¬ c.Clash c'
  | [], _ => by simp [Creates]
  | c :: cs, db => by
    obtain ⟨db', hrun, hadds, hstored⟩ := carryOut_requests db c
    have hcons : Creates db (c :: cs) ↔ AddsOne db db' ∧ Creates db' cs := by
      constructor
      · rintro ⟨db'', hrun', h⟩
        obtain rfl := Option.some.inj (hrun.symm.trans hrun')
        exact h
      · exact fun h => ⟨db', hrun, h⟩
    rw [hcons, hadds, creates_iff cs db', List.pairwise_cons]
    simp only [hstored, not_or, List.forall_mem_cons, id_eq_iff]
    constructor
    · rintro ⟨h1, h2, h3⟩
      exact ⟨⟨h1, fun c' hc' => (h2 c' hc').1⟩, fun c' hc' => (h2 c' hc').2, h3⟩
    · rintro ⟨⟨h1, h2⟩, h3, h4⟩
      exact ⟨h1, fun c' hc' => ⟨h2 c' hc', h3 c' hc'⟩, h4⟩

/-! Ann posts at eight in the morning and at eight in the evening. -/

def eightAM : Instant where
  millis := 1641024000000
  offset := 0
  bounded := Instant.bounded_utc

def eightPM : Instant where
  millis := 1641067200000
  offset := 0
  bounded := Instant.bounded_utc

def annsForm (title : String) : ForumForm where
  me := "ann@mail.com"
  mNewPost := none
  mOldPost := none
  mOldPostIds := []
  mAuthor := some (.brief "ann@mail.com" "ann" 0 12)
  mSp_league := 0
  mSp_category := 0
  mEt_title := title
  mEt_content := ""
  updateForum := false
  finished := false

def noDocuments : Database := ⟨.empty, .empty, .empty, .empty⟩

/-- The second post replaces the first one. -/
theorem evening_replaces_morning :
    ¬ Creates noDocuments [post eightAM (annsForm "Lineup") (.brief "ann@mail.com" "ann" 0 12),
      post eightPM (annsForm "Result") (.brief "ann@mail.com" "ann" 0 12)] := by
  rintro ⟨db₁, h₁, -, db₂, h₂, hadds, -⟩
  have hsize₁ : (carryOut noDocuments (post eightAM (annsForm "Lineup")
      (.brief "ann@mail.com" "ann" 0 12)).requests).map (fun db => db.posts.size + db.comments.size) = some 1 := by
    decide
  have hsize₂ : ((carryOut noDocuments (post eightAM (annsForm "Lineup")
      (.brief "ann@mail.com" "ann" 0 12)).requests).bind fun db => carryOut db (post eightPM
        (annsForm "Result") (.brief "ann@mail.com" "ann" 0 12)).requests).map
          (fun db => db.posts.size + db.comments.size) = some 1 := by
    decide
  rw [h₁, Option.map_some] at hsize₁
  rw [h₁, Option.bind_some, h₂, Option.map_some] at hsize₂
  have hone := Option.some.inj hsize₁
  have hstill := Option.some.inj hsize₂
  have htwo := hadds.size
  omega

end Creation
end FootballGallery
