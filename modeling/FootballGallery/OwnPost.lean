/-
# A page and its post

Successive pages listen to the same actions, and a reply does not say who asked
for it. A page that gets the reply to an earlier page's question shows that
page's post or comments from then on, and writes to them. And a page that gets the
reply to an earlier page's first write goes on with its own post in its place.

An id is generated for a comment on one post; `owner` is that post. `ActsOn` is
the law of a page, `About` says the same of what a page asks for and of the
replies, and `ownAnswers` keeps it: what brings a post or comments to the open page,
or makes it write, has been started by a page of the same post. The labels of
`flows` say which page that was.

Key definitions: `ActsOn`, `Consistent`, `Safe`, `About`, `flows`, `ownIds`, `ownAnswers`.
Key theorems: `about_exec`, `actsOn_tapped`, `actsOn_replied`, `acts_on_own_post`,
`acts_on_other_post`.
-/
import FootballGallery.Forum
import FootballGallery.Navigation

namespace FootballGallery
namespace OwnPost

open DBUtil Async DocStore
open Forum (derbyId clasicoId firstId secondId thirdId)

variable (owner : String → String)

/-! ### Pages, messages and the database -/

/-- The post `pid`, with comments of its own. -/
def Own (pid : String) (q : Post) : Prop := q.mId = pid ∧ ∀ c ∈ q.mComments, owner c = pid

/-- A comment on the post `pid`. -/
def OwnComment (pid : String) (c : Comment) : Prop := c.mPostId = pid ∧ owner c.mId = pid

/-- The page shows the post it was opened on and comments on it, and has put aside
nothing else to write. -/
structure ActsOn (p : ForumDetail) : Prop where
  post : Own owner p.extraPost.mId p.mPost
  newPost : ∀ q ∈ p.mNewPost, Own owner p.extraPost.mId q
  comments : ∀ c ∈ p.mComments, OwnComment owner p.extraPost.mId c
  comment : ∀ c ∈ p.mComment, OwnComment owner p.extraPost.mId c

/-- Stored comments name their post, and stored posts list comments of their own. -/
structure Consistent (db : Database) : Prop where
  comments : ∀ id doc, db.comments.get id = some doc → doc.postId = owner id
  posts : ∀ id doc, db.posts.get id = some doc → ∀ c ∈ doc.comments, owner c = id

/-- Carried out, the message keeps the database consistent; a post it brings lists
comments of its own. -/
def Safe (b : Request ⊕ Intent) : Prop :=
  match b with
  | .inl (.setComment _ id doc) | .inl (.updateComment _ id doc) => doc.postId = owner id
  | .inl (.setPost _ id doc) | .inl (.updatePost _ id doc) => ∀ c ∈ doc.comments, owner c = id
  | .inl (.getPostAuthor _ q) => Own owner q.mId q
  | .inr ⟨_, _, some (.post q)⟩ => Own owner q.mId q
  | _ => True

/-- The message reads or writes the post `pid`, its comments and the reactions to
them, or brings them. What a form puts on its author's list of posts is left out. -/
def About (pid : String) (b : Request ⊕ Intent) : Prop :=
  match b with
  | .inl (.setComment _ _ doc) | .inl (.updateComment _ _ doc) => doc.postId = pid
  | .inl (.updatePost _ id _) | .inl (.deletePost _ id) | .inl (.getPost _ id) => id = pid
  | .inl (.updateUserArray a _ f _ v) => a ≠ ForumFormActivity.updatePostInUsers →
      if f = .commentLikes ∨ f = .commentYCards then owner v = pid else v = pid
  | .inl (.getPostAuthor _ q) => q.mId = pid
  | .inl (.getComments _ ids) | .inl (.getCommentsStepTwo _ ids _) => ∀ c ∈ ids, owner c = pid
  | .inl (.getCommentsStepThree _ es ..) | .inl (.getCommentsStepFour _ es ..) =>
      ∀ e ∈ es, e.2.postId = pid ∧ owner e.1 = pid
  | .inr ⟨_, _, some (.post q)⟩ => q.mId = pid
  | .inr ⟨_, _, some (.comments cs)⟩ => ∀ c ∈ cs, OwnComment owner pid c
  | _ => True

/-- The message, labelled `t`, is safe and about the post that the label names. -/
def Fits (t : Option String) (b : Request ⊕ Intent) : Prop := Safe owner b ∧ ∀ pid ∈ t, About owner pid b

/-! ### The backend -/

section Exec

variable {owner} {ok : Bool} {db db' : Database} {a : String} {t : Option String}
  {out : List (Request ⊕ Intent)}

theorem mem_of_mapM {α β : Type} {f : α → Option β} :
    ∀ {l : List α} {l' : List β}, l.mapM f = some l' → ∀ b ∈ l', ∃ a ∈ l, f a = some b
  | [], l', h, b, hb => by
    rw [List.mapM_nil] at h
    obtain rfl := Option.some.inj h
    cases hb
  | x :: l, l', h, b, hb => by
    rw [List.mapM_cons] at h
    obtain ⟨y, hy, h⟩ := Option.bind_eq_some_iff.mp h
    obtain ⟨ys, hys, h⟩ := Option.bind_eq_some_iff.mp h
    obtain rfl := Option.some.inj h
    rcases List.mem_cons.mp hb with rfl | hb
    · exact ⟨x, .head _, hy⟩
    · obtain ⟨a, ha, hfa⟩ := mem_of_mapM hys b hb
      exact ⟨a, .tail _ ha, hfa⟩

/-- What a task goes on with. -/
theorem fits_one {b : Request ⊕ Intent} (hdb : Consistent owner db) (hb : Safe owner b)
    (hp : ∀ pid ∈ t, About owner pid b) : Consistent owner db ∧ ∀ b' ∈ [b], Fits owner t b' :=
  ⟨hdb, List.forall_mem_singleton.mpr ⟨hb, hp⟩⟩

theorem Consistent.setComment {id : String} {doc : CommentDoc} (hdb : Consistent owner db)
    (hdoc : doc.postId = owner id) : Consistent owner { db with comments := db.comments.set id doc } :=
  ⟨Collection.forall_set hdb.comments hdoc, hdb.posts⟩

theorem Consistent.setPost {id : String} {doc : PostDoc} (hdb : Consistent owner db)
    (hdoc : ∀ c ∈ doc.comments, owner c = id) : Consistent owner { db with posts := db.posts.set id doc } :=
  ⟨hdb.comments, Collection.forall_set hdb.posts hdoc⟩

theorem own_postOfDoc {id : String} {doc : PostDoc} (h : ∀ c ∈ doc.comments, owner c = id) :
    Own owner id (postOfDoc id doc) := ⟨rfl, h⟩

theorem about_stepTwo {pid : String} {ids uids : List String} {es : List ((String × CommentDoc) × User)}
    (hdb : Consistent owner db) (h : ∀ c ∈ ids, owner c = pid) (he : stepTwo db ids uids = some es) :
    ∀ e ∈ es.map (·.1), e.2.postId = pid ∧ owner e.1 = pid := by
  intro e hin
  obtain ⟨x, hx, rfl⟩ := List.mem_map.mp hin
  obtain ⟨y, hy, hf⟩ := mem_of_mapM he x hx
  have hown := h y.1 (List.of_mem_zip hy).1
  obtain ⟨doc1, hdoc1, hf⟩ := Option.bind_eq_some_iff.mp hf
  obtain ⟨doc2, -, hf⟩ := Option.bind_eq_some_iff.mp hf
  obtain rfl := Option.some.inj hf
  exact ⟨(hdb.comments _ _ hdoc1).trans hown, hown⟩

theorem about_stepFour {pid : String} {es : List (String × CommentDoc)} {us : List User} {ns : List String}
    {cs : List Comment} (h : ∀ e ∈ es, e.2.postId = pid ∧ owner e.1 = pid)
    (hcs : stepFour db es us ns = some cs) : ∀ c ∈ cs, OwnComment owner pid c := by
  intro c hc
  obtain ⟨names, -, rfl⟩ := Option.map_eq_some_iff.mp hcs
  obtain ⟨x, hx, rfl⟩ := List.mem_map.mp hc
  exact h _ (List.of_mem_zip (List.of_mem_zip hx).1).1

/-- A safe write keeps the database consistent. -/
theorem Consistent.wrote {q : Request} (hdb : Consistent owner db) (hw : Wrote db q db')
    (hs : Safe owner (.inl q)) : Consistent owner db' := by
  cases hw with
  | setPost => exact hdb.setPost hs
  | updatePost hu =>
    obtain ⟨old, -, rfl⟩ := Collection.update_eq_some hu
    exact hdb.setPost hs
  | @deletePost _ id => exact ⟨hdb.comments, Collection.forall_delete hdb.posts id⟩
  | setComment => exact hdb.setComment hs
  | updateComment hu =>
    obtain ⟨old, -, rfl⟩ := Collection.update_eq_some hu
    exact hdb.setComment hs
  | @deleteComment _ id => exact ⟨Collection.forall_delete hdb.comments id, hdb.posts⟩
  | _ => exact ⟨hdb.comments, hdb.posts⟩

/-- What the backend does for a safe message, and what follows is about the same post. -/
theorem about_exec {ok : Bool} {q : Request} (h : exec ok db q = some (db', out)) (hdb : Consistent owner db)
    (hq : Fits owner t (.inl q)) : Consistent owner db' ∧ ∀ b ∈ out, Fits owner t b := by
  obtain ⟨hs, hp⟩ := hq
  cases executed_exec h with
  | wrote hw => exact fits_one (hdb.wrote hw hs) trivial fun _ _ => trivial
  | fails hall =>
    refine ⟨hdb, fun b hb => ?_⟩
    obtain rfl := hall b hb
    exact ⟨trivial, fun _ _ => trivial⟩
  | getPost hget => exact fits_one hdb (own_postOfDoc (hdb.posts _ _ hget)) hp
  | getPostAuthor => exact fits_one hdb hs hp
  | getComments =>
    refine fits_one hdb trivial fun pid ht c hc => ?_
    obtain ⟨e, he, rfl⟩ := List.mem_map.mp hc
    obtain ⟨e', he', rfl⟩ := List.mem_map.mp he
    exact hp pid ht _ (of_decide_eq_true (List.mem_filter.mp he').2)
  | getCommentsStepTwo hes => exact fits_one hdb trivial fun pid ht => about_stepTwo hdb (hp pid ht) hes
  | getCommentsStepThree => exact fits_one hdb trivial hp
  | getCommentsStepFour hcs => exact fits_one hdb trivial fun pid ht => about_stepFour (hp pid ht) hcs
  | _ => exact fits_one hdb trivial fun _ _ => trivial

end Exec

/-! ### The pages -/

section Page

open ForumDetailActivity

variable {owner} {d : Drawables} {p p' : ForumDetail} {qs : List Request}

/-- The requests, labelled `t`, fit. -/
def Asks (owner : String → String) (t : Option String) (qs : List Request) : Prop :=
  ∀ q ∈ qs, Fits owner t (.inl q)

theorem Asks.nil (t : Option String) : Asks owner t [] := fun q hq => by cases hq

theorem Asks.one {t : Option String} {q : Request} (hs : Safe owner (.inl q))
    (hp : ∀ pid ∈ t, About owner pid (.inl q)) : Asks owner t [q] := List.forall_mem_singleton.mpr ⟨hs, hp⟩

/-- A request of a page. -/
theorem Asks.own {pid : String} {q : Request} (hs : Safe owner (.inl q)) (hp : About owner pid (.inl q)) :
    Asks owner (some pid) [q] := by
  refine .one hs fun pid' h => ?_
  rw [← Option.some.inj h]
  exact hp

theorem Own.setLikes {pid : String} {q : Post} (h : Own owner pid q) (n : ℤ) : Own owner pid (q.setLikes n) := h

theorem Own.appendComments {pid id : String} {q : Post} (h : Own owner pid q) (hid : owner id = pid) :
    Own owner pid (q.appendComments [id]) := by
  refine ⟨h.1, fun c hc => ?_⟩
  rcases List.mem_append.mp hc with hc | hc
  · exact h.2 c hc
  · rw [List.mem_singleton.mp hc]
    exact hid

theorem own_likeCase (hp : ActsOn owner p) : Own owner p.extraPost.mId (likeCase d p).1 := by
  unfold likeCase
  split
  · exact hp.post.setLikes _
  · split
    · exact hp.post.setLikes _
    · exact hp.post

/-- The write of a post put aside goes to the page's post. -/
theorem asks_updatePost {a : String} {old new : Post} {pid : String} (hold : Own owner pid old)
    (hnew : Own owner pid new) : Asks owner (some pid) (forumUpdatePost a old new) := by
  refine .own (fun c hc => ?_) hold.1
  rw [hold.1]
  exact hnew.2 c hc

theorem asks_getPost {a pid : String} {q : Post} (hq : Own owner pid q) :
    Asks owner (some pid) (forumGetPostWithId a q.mId) := .own trivial hq.1

theorem asks_getComments {a pid : String} {q : Post} (hq : Own owner pid q) :
    Asks owner (some pid) (forumGetComments a q.mComments) := .own trivial hq.2

/-- A comment of the page is changed in place and put aside. -/
theorem ActsOn.setComment (hp : ActsOn owner p) {pos : ℕ} {c : Comment}
    (hc : OwnComment owner p.extraPost.mId c) :
    ActsOn owner { p with mComments := p.mComments.set pos c, mComment := some c } where
  post := hp.post
  newPost := hp.newPost
  comments := by
    intro c' hc'
    rcases List.mem_or_eq_of_mem_set hc' with hc' | rfl
    · exact hp.comments c' hc'
    · exact hc
  comment := by
    intro c' hc'
    rw [← Option.some.inj hc']
    exact hc

/-- A post of the page is shown and put aside. -/
theorem ActsOn.setPost (hp : ActsOn owner p) {q : Post} (hq : Own owner p.extraPost.mId q) :
    ActsOn owner { p with mPost := q, mNewPost := some q } where
  post := hq
  newPost := by
    intro q' hq'
    rw [← Option.some.inj hq']
    exact hq
  comments := hp.comments
  comment := hp.comment

/-- A tap starts work on the page's post. -/
theorem actsOn_tapped {a : Action} (h : Tapped d p a p' qs) (hp : ActsOn owner p)
    (hid : ∀ id, a = .onCommentTap id → owner id = p.extraPost.mId) :
    (ActsOn owner p' ∧ p'.extraPost = p.extraPost ∧ p'.finished = p.finished) ∧
      Asks owner (some p.extraPost.mId) qs := by
  cases h with
  | quiet hk hpost hs =>
    refine ⟨⟨⟨?_, ?_, ?_, ?_⟩, hk.extraPost, hs.2⟩, .nil _⟩
    · rw [hk.extraPost, hpost]
      exact hp.post
    · rw [hk.extraPost, hk.newPost]
      exact hp.newPost
    · rw [hk.extraPost, hs.1]
      exact hp.comments
    · rw [hk.extraPost, hk.comment]
      exact hp.comment
  | resume => exact ⟨⟨hp, rfl, rfl⟩, asks_getPost hp.post⟩
  | @comment id u =>
    have hown := hid id rfl
    exact ⟨⟨hp.setPost (hp.post.appendComments hown), rfl, rfl⟩, .own (hp.post.1.trans hown.symm) hp.post.1⟩
  | like =>
    refine ⟨⟨hp.setPost (own_likeCase hp), rfl, rfl⟩, fun q hq => ?_⟩
    obtain ⟨op, rfl⟩ := mem_userUpdateValue hq
    refine ⟨trivial, fun pid hpid _ => ?_⟩
    rw [← Option.some.inj hpid]
    simpa using hp.post.1
  | ycard =>
    refine ⟨⟨hp, rfl, rfl⟩, .own trivial fun _ => ?_⟩
    simpa using hp.post.1
  | commentLike hpop hc hop =>
    have hown := hp.comments _ (List.mem_of_getElem? hc)
    refine ⟨⟨hp.setComment hown, rfl, rfl⟩, .own trivial fun _ => ?_⟩
    simpa using hown.2
  | commentYCard hpop hc =>
    have hown := hp.comments _ (List.mem_of_getElem? hc)
    refine ⟨⟨hp.setComment hown, rfl, rfl⟩, .own trivial fun _ => ?_⟩
    simpa using hown.2
  | delete hmine => exact ⟨⟨hp, rfl, rfl⟩, .own trivial hp.post.1⟩

/-- The reply brings a post, or comments. -/
def brings (i : Intent) : Bool :=
  match i.extra with
  | some (.post _) => i.action == updateFields
  | some (.comments cs) => i.action == forumGetCommentsAction && !cs.isEmpty
  | _ => false

/-- A reply leaves the page with its post if what it brings is of this post. -/
theorem actsOn_replied {i : Intent} (h : Replied d p i p' qs) (hp : ActsOn owner p)
    (hown : brings i = true → Fits owner (some p.extraPost.mId) (.inr i)) :
    (ActsOn owner p' ∧ p'.extraPost = p.extraPost) ∧ (p.finished = false → p'.finished = true → qs = []) ∧
      Asks owner (some p.extraPost.mId) qs := by
  have hopen : ∀ {b : Bool} {l : List Request}, b = false → b = true → l = [] := by
    intro b l hf ht
    rw [hf] at ht
    cases ht
  cases h with
  | ignored => exact ⟨⟨hp, rfl⟩, hopen, .nil _⟩
  | currentUser => exact ⟨⟨⟨hp.post, hp.newPost, hp.comments, hp.comment⟩, rfl⟩, hopen, .own trivial trivial⟩
  | author =>
    exact ⟨⟨⟨hp.post, hp.newPost, hp.comments, hp.comment⟩, rfl⟩, hopen, asks_getComments hp.post⟩
  | deletedInPosts ha hr =>
    refine ⟨⟨hp, rfl⟩, hopen, .own trivial fun _ => ?_⟩
    simpa using hp.post.1
  | deletedInUsers =>
    exact ⟨⟨⟨hp.post, hp.newPost, hp.comments, hp.comment⟩, rfl⟩, fun _ _ => rfl, .nil _⟩
  | @fields q ha hr hx =>
    obtain ⟨a, r, x⟩ := i
    obtain rfl : a = updateFields := ha
    obtain rfl : x = some (.post q) := hx
    obtain ⟨hsafe, habout⟩ := hown rfl
    have habout := habout _ rfl
    have hq : Own owner p.extraPost.mId q := ⟨habout, fun c hc => (hsafe.2 c hc).trans habout⟩
    exact ⟨⟨⟨hq, hp.newPost, hp.comments, hp.comment⟩, rfl⟩, hopen, asks_getComments hq⟩
  | @comments x p₁ ha hr hx hpop =>
    obtain ⟨hk, hpost, -⟩ := populateInfo_kept hpop
    obtain ⟨hcomments, hfin⟩ := populateInfo_shows hpop
    refine ⟨⟨⟨?_, ?_, ?_, ?_⟩, hk.extraPost⟩, fun _ _ => rfl, .nil _⟩
    · show Own owner p₁.extraPost.mId p₁.mPost
      rw [hk.extraPost, hpost]
      exact hp.post
    · show ∀ q ∈ p₁.mNewPost, Own owner p₁.extraPost.mId q
      rw [hk.extraPost, hk.newPost]
      exact hp.newPost
    · show ∀ c ∈ p₁.mComments, OwnComment owner p₁.extraPost.mId c
      rw [hk.extraPost, hcomments]
      obtain ⟨a, r, e⟩ := i
      obtain rfl : a = forumGetCommentsAction := ha
      obtain rfl : e = x.map .comments := hx
      cases x with
      | none => exact hp.comments
      | some cs =>
        cases cs with
        | nil => exact fun c hc => by cases hc
        | cons c cs => exact (hown rfl).2 _ rfl
    · show ∀ c ∈ p₁.mComment, OwnComment owner p₁.extraPost.mId c
      rw [hk.extraPost, hk.comment]
      exact hp.comment
  | again => exact ⟨⟨hp, rfl⟩, hopen, asks_getPost hp.post⟩
  | value =>
    exact ⟨⟨⟨hp.post, hp.newPost, hp.comments, hp.comment⟩, rfl⟩, hopen, asks_getPost hp.post⟩
  | post _ _ hnew => exact ⟨⟨hp, rfl⟩, hopen, asks_updatePost hp.post (hp.newPost _ hnew)⟩
  | @ycard _ _ _ newPost hnew =>
    have hq : Own owner p.extraPost.mId newPost := by
      rw [hnew]
      split
      · exact hp.post.setLikes _
      · exact hp.post
    exact ⟨⟨hp.setPost hq, rfl⟩, hopen, asks_updatePost hq hq⟩
  | comment _ _ hc =>
    obtain ⟨hpost, hid⟩ := hp.comment _ hc
    exact ⟨⟨hp, rfl⟩, hopen, .own (hpost.trans hid.symm) hpost⟩

end Page

/-! ### The activities on the device -/

section Session

variable {owner} {d : Drawables} {rest : List Screen} {x y : Screen} {qs : List Request} {t : Option String}

/-- An activity over the activities `rest`: a page acts on its post, and a form
over a page edits the page's post. -/
def Law (owner : String → String) (rest : List Screen) : Screen → Prop
  | .detail p => ActsOn owner p ∧ p.finished = false
  | .form f => ∀ o ∈ f.mOldPost, ∀ p rest', rest = .detail p :: rest' → o.mId = p.extraPost.mId
  | _ => True

/-- Each activity keeps the law over those below it. -/
def Stacked (owner : String → String) : List Screen → Prop
  | [] => True
  | x :: rest => Law owner rest x ∧ Stacked owner rest

theorem asks_getUser (a id : String) (silent : Bool) : Asks owner t [.getUser a id silent] :=
  .one trivial fun _ _ => trivial

theorem asks_getPosts (a : String) : Asks owner t (forumGetPosts a) := .one trivial fun _ _ => trivial

theorem Asks.append {qs qs' : List Request} (h : Asks owner t qs) (h' : Asks owner t qs') :
    Asks owner t (qs ++ qs') := by
  intro q hq
  rcases List.mem_append.mp hq with hq | hq
  · exact h q hq
  · exact h' q hq

/-- What the activity on top asks for when it is shown. -/
theorem asks_onResume {stack : List Screen} (h : Stacked owner stack) :
    Asks owner (Session.pageOf stack) (Session.onResume stack) := by
  cases stack with
  | nil => exact .nil _
  | cons x rest =>
    cases x with
    | core c =>
      show Asks owner _ (if c.forumTab then forumGetPosts CoreActivity.repopulateForum else [])
      split
      · exact asks_getPosts _
      · exact .nil _
    | profile => exact asks_getUser _ _ _
    | form => exact .nil _
    | detail => exact asks_getPost h.1.1.post

/-- A page is opened on a post that lists comments of its own. -/
theorem onCreate_law {me : String} {post : Post} {author : Option User} {p : ForumDetail}
    (h : ForumDetailActivity.onCreate me post author = (p, qs)) (hown : Own owner post.mId post) :
    Law owner rest (.detail p) ∧ Asks owner (Session.pageOf (.detail p :: rest)) qs := by
  obtain ⟨rfl, rfl⟩ := Prod.mk.inj h
  refine ⟨⟨⟨hown, fun q hq => ?_, fun c hc => ?_, fun c hc => ?_⟩, rfl⟩, ?_⟩
  · cases hq
  · cases hc
  · cases hc
  · exact (asks_getUser _ _ _).append (asks_getPost hown)

theorem opens_law {me : String} {a : NavAction} (h : Session.Opens me a x y qs) (hx : Law owner rest x)
    (hown : ∀ post, a = .openPost post → Own owner post.mId post) :
    Law owner (x :: rest) y ∧ Asks owner (Session.pageOf (y :: x :: rest)) qs := by
  cases h with
  | form h =>
    obtain ⟨u, -, heq⟩ := Option.map_eq_some_iff.mp h
    obtain ⟨rfl, rfl⟩ := Prod.mk.inj heq
    refine ⟨fun o ho => ?_, asks_getUser _ _ _⟩
    cases ho
  | @edit p f qs h =>
    obtain ⟨u, -, heq⟩ := Option.map_eq_some_iff.mp h
    obtain ⟨rfl, rfl⟩ := Prod.mk.inj heq
    refine ⟨fun o ho p' rest' hrest => ?_, asks_getUser _ _ _⟩
    obtain rfl := Option.some.inj ho
    obtain ⟨hp, -⟩ := List.cons.inj hrest
    obtain rfl := Screen.detail.inj hp
    exact hx.1.post.1
  | ofForum h => exact onCreate_law h (hown _ rfl)
  | ofProfile h => exact onCreate_law h (hown _ rfl)
  | profile => exact ⟨trivial, asks_getUser _ _ _⟩

/-- A form writes a post without comments; an edit writes it to the post it is of. -/
theorem onPostTap_law {f f' : ForumForm} {id : String} (h : ForumFormActivity.onPostTap f id = some (f', qs))
    (hf : Law owner rest (.form f)) :
    Law owner rest (.form f') ∧ Asks owner (Session.pageOf (.form f' :: rest)) qs := by
  obtain ⟨author, -, heq⟩ := Option.map_eq_some_iff.mp h
  obtain ⟨rfl, rfl⟩ := Prod.mk.inj heq
  have hno : ∀ pid, ∀ c ∈ (postMap (ForumFormActivity.newPost f author id)).comments, owner c = pid := by
    intro pid c hc
    simp [postMap, ForumFormActivity.newPost, Post.new] at hc
  refine ⟨hf, ?_⟩
  split
  · cases hold : f.mOldPost with
    | some old =>
      refine .one (hno _) fun pid hpid => ?_
      obtain ⟨p, rest', hrest, rfl⟩ := Session.of_pageOf_form hpid
      exact hf old hold p rest' hrest
    | none => exact .one (hno _) fun _ _ => trivial
  · exact .nil _

theorem turns_law {a : NavAction} (h : Session.Turns d a x y qs) (hx : Law owner rest x)
    (hid : ∀ p id, x = .detail p → a = .page (.onCommentTap id) → owner id = p.extraPost.mId) :
    Law owner rest y ∧ Asks owner (Session.pageOf (y :: rest)) qs := by
  cases h with
  | replaceFragment => exact ⟨trivial, .nil _⟩
  | fill => exact ⟨hx, .nil _⟩
  | onPostTap h => exact onPostTap_law h hx
  | @page p a p' qs ht =>
    obtain ⟨⟨hp', hextra, hfin⟩, hqs⟩ := actsOn_tapped ht hx.1 fun id ha => hid p id rfl (by rw [ha])
    refine ⟨⟨hp', hfin.trans hx.2⟩, ?_⟩
    show Asks owner (some p'.extraPost.mId) qs
    rw [hextra]
    exact hqs

/-- The label of what `stack` sends on a reply labelled `t`: a write goes on with the
flow of the reply, and who asks again asks for itself. -/
def labelOf (t : Option String) (stack : List Screen) : Send → Option String
  | .call q => if writes q then t else Session.pageOf stack
  | .broadcast _ => Session.pageOf stack

theorem labelOf_read {q : Request} (hq : writes q = false) (t : Option String) (stack : List Screen) :
    labelOf t stack (.call q) = Session.pageOf stack := by
  simp only [labelOf, hq, Bool.false_eq_true, if_false]

theorem labelOf_write {q : Request} (hq : writes q = true) (t : Option String) (stack : List Screen) :
    labelOf t stack (.call q) = t := by
  simp only [labelOf, hq, if_true]

/-- A broadcast, labelled `t`, that brings no other page's post or comments and goes on
with no other page's flow. -/
theorem onReceive_law {i : Intent} (h : x.onReceive d i = some (y, qs)) (hx : Law owner rest x)
    (hi : Fits owner t (.inr i))
    (hown : ∀ p, x = .detail p → (brings i || ForumDetailActivity.continues p i) = true →
      t = some p.extraPost.mId) :
    (y.finished = false → Law owner rest y ∧ ∀ q ∈ qs, Fits owner (labelOf t (y :: rest) (.call q)) (.inl q)) ∧
      (y.finished = true → ∀ t, Asks owner t qs) := by
  cases x with
  | core c =>
    obtain ⟨r, hr, heq⟩ := Option.map_eq_some_iff.mp h
    obtain ⟨rfl, rfl⟩ := Prod.mk.inj heq
    have hqs : ∀ t, Asks owner t r.2 := by
      intro t
      rcases (CoreActivity.onReceive_cases hr).2 with hqs | hqs
      · exact hqs ▸ .nil _
      · exact hqs ▸ asks_getPosts _
    exact ⟨fun _ => ⟨trivial, fun q hq => hqs _ q hq⟩, fun _ => hqs⟩
  | profile p =>
    obtain ⟨r, hr, heq⟩ := Option.map_eq_some_iff.mp h
    obtain ⟨rfl, rfl⟩ := Prod.mk.inj heq
    rw [(ProfileActivity.onReceive_cases hr).2]
    exact ⟨fun _ => ⟨trivial, fun q hq => by cases hq⟩, fun _ _ => .nil _⟩
  | form f =>
    obtain ⟨r, hr, heq⟩ := Option.map_eq_some_iff.mp h
    obtain ⟨rfl, rfl⟩ := Prod.mk.inj heq
    obtain ⟨hold, -, hcases⟩ := ForumFormActivity.onReceive_cases hr
    have hqs : ∀ t, Asks owner t r.2 := by
      intro t
      rcases hcases with hqs | ⟨id, hqs⟩
      · exact hqs ▸ .nil _
      · exact hqs ▸ .one trivial fun pid _ hne => absurd rfl hne
    exact ⟨fun _ => ⟨fun o ho => hx o (hold ▸ ho), fun q hq => hqs _ q hq⟩, fun _ => hqs⟩
  | detail p =>
    obtain ⟨r, hr, heq⟩ := Option.map_eq_some_iff.mp h
    obtain ⟨rfl, rfl⟩ := Prod.mk.inj heq
    have hreplied := ForumDetailActivity.replied_onReceive hr
    have hown' := hown p rfl
    rw [Bool.or_eq_true] at hown'
    obtain ⟨⟨hp', hextra⟩, hfin, hqs⟩ :=
      actsOn_replied hreplied hx.1 fun hb => hown' (.inl hb) ▸ hi
    refine ⟨fun hopen => ⟨⟨hp', hopen⟩, fun q hq => ?_⟩, fun hend t => ?_⟩
    · have hlabel : labelOf t (.detail r.1 :: rest) (.call q) = some p.extraPost.mId := by
        cases hw : writes q with
        | true =>
          rw [labelOf_write hw]
          exact hown' (.inr (ForumDetailActivity.continues_of_writes hreplied hq hw))
        | false =>
          rw [labelOf_read hw]
          exact congrArg (fun post : Post => some post.mId) hextra
      rw [hlabel]
      exact hqs q hq
    · rw [hfin hx.2 hend]
      exact .nil _

/-! ### The session -/

/-- What is under way, labelled `t`, fits. -/
def SendFits (owner : String → String) (t : Option String) : Send ⊕ Intent → Prop
  | .inl (.call q) => Fits owner t (.inl q)
  | .inl (.broadcast i) => Fits owner t (.inr i)
  | .inr i => Fits owner t (.inr i)

variable {s s' : Session} {sends : List Send}

/-- An activity that is shown only reads. -/
theorem onResume_reads : ∀ q ∈ Session.onResume rest, writes q = false := by
  intro q hq
  match rest with
  | [] => cases hq
  | .core c :: _ =>
    have hq : q ∈ if c.forumTab then forumGetPosts CoreActivity.repopulateForum else [] := hq
    split at hq
    · rw [List.mem_singleton.mp hq]
      rfl
    · cases hq
  | .profile _ :: _ | .detail _ :: _ =>
    rw [List.mem_singleton.mp hq]
    rfl
  | .form _ :: _ => cases hq

theorem Asks.calls (h : Asks owner t qs) : ∀ q ∈ qs.map Send.call, SendFits owner t (.inl q) := by
  intro q hq
  obtain ⟨r, hr, rfl⟩ := List.mem_map.mp hq
  exact h r hr

theorem actsOn_of_mem {p : ForumDetail} :
    ∀ {stack : List Screen}, Stacked owner stack → .detail p ∈ stack → ActsOn owner p
  | x :: rest, h, hp => by
    rcases List.mem_cons.mp hp with rfl | hp
    · exact h.1.1
    · exact actsOn_of_mem h.2 hp

/-- The user opens posts that list comments of their own and comments under new ids. -/
theorem stacked_act {a : NavAction} (h : Session.act d s a = some (s', sends)) (hs : Stacked owner s.stack)
    (hown : ∀ post, a = .openPost post → Own owner post.mId post)
    (hid : ∀ p rest id, s.stack = .detail p :: rest → a = .page (.onCommentTap id) →
      owner id = p.extraPost.mId) :
    Stacked owner s'.stack ∧ ∀ q ∈ sends, SendFits owner (Session.pageOf s'.stack) (.inl q) := by
  cases Session.moved_act h with
  | stays => exact ⟨hs, fun q hq => by cases hq⟩
  | news => exact ⟨hs, (asks_getPosts _).calls⟩
  | pauses => exact ⟨hs, fun q hq => by cases hq⟩
  | resumes => exact ⟨hs, (asks_onResume hs).calls⟩
  | back hstack =>
    rw [hstack] at hs
    exact ⟨hs.2, (asks_onResume hs.2).calls⟩
  | opens hstack hopen =>
    rw [hstack] at hs
    obtain ⟨hy, hqs⟩ := opens_law hopen hs.1 hown
    rw [hstack]
    exact ⟨⟨hy, hs⟩, hqs.calls⟩
  | turns hstack hturn =>
    rw [hstack] at hs
    obtain ⟨hy, hqs⟩ := turns_law hturn hs.1 fun p id hx => hid p _ id (by rw [hstack, hx])
    exact ⟨⟨hy, hs.2⟩, hqs.calls⟩

/-- A broadcast, labelled `t`, brings the page on top no other page's post or comments
and goes on with no other page's flow. -/
theorem stacked_recv {i : Intent} (h : Session.recv d s i = some (s', sends)) (hs : Stacked owner s.stack)
    (hi : Fits owner t (.inr i))
    (hown : ∀ p rest, s.resumed = true → s.stack = .detail p :: rest →
      (brings i || ForumDetailActivity.continues p i) = true → t = some p.extraPost.mId) :
    Stacked owner s'.stack ∧ ∀ q ∈ sends, SendFits owner (labelOf t s'.stack q) (.inl q) := by
  cases Session.received_recv h with
  | ignores => exact ⟨hs, fun q hq => by cases hq⟩
  | handles hr hstack hx hf =>
    rw [hstack] at hs
    obtain ⟨hy, hqs⟩ := (onReceive_law hx hs.1 hi fun p hp => hown p _ hr (by rw [hstack, hp])).1 hf
    refine ⟨⟨hy, hs.2⟩, fun q hq => ?_⟩
    obtain ⟨r, hr', rfl⟩ := List.mem_map.mp hq
    exact hqs r hr'
  | @finishes x rest x' qs hr hstack hx hf =>
    rw [hstack] at hs
    have hqs := (onReceive_law hx hs.1 hi fun p hp => hown p _ hr (by rw [hstack, hp])).2 hf
    refine ⟨hs.2, fun q hq => ?_⟩
    simp only [List.mem_append] at hq
    rcases hq with (hq | hq) | hq
    · exact (hqs _).calls q hq
    · split at hq
      · obtain rfl := List.mem_singleton.mp hq
        exact ⟨trivial, fun _ _ => trivial⟩
      · cases hq
    · obtain ⟨r, hr', rfl⟩ := List.mem_map.mp hq
      rw [labelOf_read (onResume_reads r hr')]
      exact asks_onResume hs.2 r hr'

/-- A backend call, or a broadcast, goes on under its label. -/
theorem sendFits_exec {ok : Bool} {db db' : Database} {q : Send} {out : List (Send ⊕ Intent)}
    (h : q.exec ok db = some (db', out)) (hdb : Consistent owner db) (hq : SendFits owner t (.inl q)) :
    Consistent owner db' ∧ ∀ b ∈ out, SendFits owner t b := by
  cases q with
  | call q =>
    obtain ⟨r, hr, heq⟩ := Option.map_eq_some_iff.mp h
    obtain ⟨rfl, rfl⟩ := Prod.mk.inj heq
    obtain ⟨hdb', hout⟩ := about_exec hr hdb hq
    refine ⟨hdb', fun b hb => ?_⟩
    obtain ⟨b', hb', rfl⟩ := List.mem_map.mp hb
    cases b' with
    | inl q' => exact hout _ hb'
    | inr i => exact hout _ hb'
  | broadcast i =>
    obtain ⟨rfl, rfl⟩ := Prod.mk.inj (Option.some.inj h)
    refine ⟨hdb, fun b hb => ?_⟩
    obtain rfl := List.mem_singleton.mp hb
    exact hq

end Session

/-! ### Runs -/

/-- The device, with what is under way labelled with the post of the page that has
started it. -/
def flows (d : Drawables) :
    App Database Session (Option String × Send) (Option String × Intent) NavAction (Option String) :=
  (nav d).labelled (fun s => Session.pageOf s.stack) fun s t q => labelOf t s.stack q

abbrev FlowConf := Conf Database Session (Option String × Send) (Option String × Intent) (Option String)

/-- The user `me` has signed in; no page has started anything. -/
def launchFlows (d : Drawables) (me : String) (db : Database) : FlowConf where
  store := db
  client := (launch d me db).client
  net := (launch d me db).net.map fun m => ⟨m.client, m.tag, m.body.map (none, ·) (none, ·)⟩

theorem unlabelled_launchFlows (d : Drawables) (me : String) (db : Database) :
    (launchFlows d me db).unlabelled = launch d me db := by
  refine congrArg (Conf.mk _ _) ?_
  simp only [launchFlows, List.map_map]
  refine List.map_id'' (fun m => ?_) _
  obtain ⟨i, t, b⟩ := m
  cases b with
  | inl q => rfl
  | inr r => rfl

/-- The message fits its label. -/
def FlowFits (owner : String → String) (b : (Option String × Send) ⊕ (Option String × Intent)) : Prop :=
  match b with
  | .inl q => SendFits owner q.1 (.inl q.2)
  | .inr r => SendFits owner r.1 (.inr r.2)

/-- The user opens a post that lists comments of its own, and comments under an id
of the page's post. -/
def ownIds (s : FlowConf) : Ev NavAction → Bool
  | .act _ (.openPost post) => post.mComments.all (owner · == post.mId)
  | .act i (.page (.onCommentTap id)) => (s.client i).all fun c =>
    match c.stack with
    | .detail p :: _ => owner id == p.extraPost.mId
    | _ => true
  | _ => true

/-- What brings a post or comments to a page, or makes it write, has been started by a
page of the same post. -/
def ownAnswers (s : FlowConf) : Ev NavAction → Bool
  | .deliver n =>
    match s.net[n]? with
    | some ⟨i, _, .inr (t, r)⟩ => (s.client i).all fun c => !c.resumed ||
        match c.stack with
        | .detail p :: _ => !(brings r || ForumDetailActivity.continues p r) || t == some p.extraPost.mId
        | _ => true
    | _ => true
  | _ => true

variable {owner}

theorem parts (d : Drawables) :
    Parts (flows d) (fun s e => (ownIds owner s e && ownAnswers s e) = true) (Consistent owner)
      (fun c => Stacked owner c.stack) fun m => FlowFits owner m.body where
  act s i a c c' qs ho hc ha hs := by
    obtain ⟨sends, hact, rfl⟩ := App.act_labelled ha
    have hpost : ∀ post, a = .openPost post → Own owner post.mId post := by
      rintro post rfl
      refine ⟨rfl, ?_⟩
      simpa [ownIds, ownAnswers] using ho
    have hid : ∀ p rest id, c.stack = .detail p :: rest → a = .page (.onCommentTap id) →
        owner id = p.extraPost.mId := by
      rintro p rest id hstack rfl
      simpa [ownIds, ownAnswers, hc, hstack] using ho
    obtain ⟨hs', hsends⟩ := stacked_act hact hs hpost hid
    refine ⟨hs', fun q hq => ?_⟩
    obtain ⟨x, hx, rfl⟩ := List.mem_map.mp hq
    exact hsends x hx
  exec _ _ _ _ _ q _ _ _ _ he hdb hq := by
    obtain ⟨out, hexec, rfl⟩ := App.exec_labelled he
    obtain ⟨hdb', hout⟩ := sendFits_exec hexec hdb hq
    refine ⟨hdb', fun b hb => ?_⟩
    obtain ⟨x, hx, rfl⟩ := List.mem_map.mp hb
    cases x with
    | inl q' => exact hout _ hx
    | inr r => exact hout _ hx
  recv s n i _ r c c' qs ho hn hc hr hs hm := by
    obtain ⟨t, r⟩ := r
    obtain ⟨sends, hrecv, rfl⟩ := App.recv_labelled hr
    have hown : ∀ p rest, c.resumed = true → c.stack = .detail p :: rest →
        (brings r || ForumDetailActivity.continues p r) = true → t = some p.extraPost.mId := by
      intro p rest hres hstack hb
      simp only [ownIds, ownAnswers, hn, hc, Option.all_some, hres, hstack, hb, Bool.not_true,
        Bool.false_or, Bool.true_and, beq_iff_eq] at ho
      exact ho
    obtain ⟨hs', hsends⟩ := stacked_recv hrecv hs hm hown
    refine ⟨hs', fun q hq => ?_⟩
    obtain ⟨x, hx, rfl⟩ := List.mem_map.mp hq
    exact hsends x hx

/-- **A page acts on the post it was opened on, and what it starts stays with that post,
as long as the answers to earlier pages' questions and the replies to their first
writes come to no page of another post.** -/
theorem acts_on_own_post {d : Drawables} {me : String} {db : Database} {s : FlowConf}
    (hdb : Consistent owner db)
    (h : Reach (flows d) (fun s e => (ownIds owner s e && ownAnswers s e) = true) (launchFlows d me db) s) :
    Reach (nav d) (fun _ _ => True) (launch d me db) s.unlabelled ∧
      (∀ c, s.client 0 = some c → ∀ p, .detail p ∈ c.stack →
        p.mPost.mId = p.extraPost.mId ∧ ∀ k ∈ p.mComments, k.mPostId = p.extraPost.mId) ∧
      ∀ m ∈ s.net, FlowFits owner m.body := by
  have hstacked : ∀ i c, (launchFlows d me db).client i = some c → Stacked owner c.stack := by
    intro i c hc
    simp only [launchFlows, launch] at hc
    split at hc
    · obtain rfl := Option.some.inj hc
      exact ⟨trivial, trivial⟩
    · cases hc
  have hnet : ∀ m ∈ (launchFlows d me db).net, FlowFits owner m.body := by
    intro m hm
    obtain ⟨m₀, hm₀, rfl⟩ := List.mem_map.mp hm
    obtain ⟨q, hq, rfl⟩ := List.mem_map.mp hm₀
    exact ((asks_getUser _ _ _).append (.nil _)).calls q hq
  obtain ⟨-, hS, hM⟩ := (parts d).reach ⟨hdb, hstacked, hnet⟩ h
  refine ⟨?_, fun c hc p hp => ?_, hM⟩
  · rw [← unlabelled_launchFlows]
    exact h.unlabelled fun _ _ _ => trivial
  · have hacts := actsOn_of_mem (hS 0 c hc) hp
    exact ⟨hacts.post.1, fun k hk => (hacts.comments k hk).1⟩

/-! ### The derby and the clásico -/

def derby : PostDoc := { Forum.derby with comments := [firstId] }

def clasico : PostDoc := ⟨0, [secondId], "what a goal", 2, 0, "Clásico", "ann@mail.com", 0⟩

/-- Two posts of Ann's with a comment each. -/
def twoPosts : Database :=
  { Forum.derbyDb with
    posts := (Collection.empty.set derbyId derby).set clasicoId clasico
    comments := (Collection.empty.set firstId ⟨"me", derbyId, "ann@mail.com", 0, 0, "", ""⟩).set secondId
      ⟨"and me", clasicoId, "ann@mail.com", 0, 0, "", ""⟩
    users := Forum.derbyDb.users.set "ann@mail.com" ⟨"ann", "", 0, 1, [derbyId, clasicoId], [], [], [], []⟩ }

/-- The posts that the ids are generated for. -/
def ownerOf (id : String) : String := if id = firstId then derbyId else clasicoId

theorem consistent_twoPosts : Consistent ownerOf twoPosts where
  comments := by
    have h : ∀ e ∈ twoPosts.comments.toList, e.2.postId = ownerOf e.1 := by decide
    exact fun id doc hdoc => h _ (Collection.mem_toList.mpr hdoc)
  posts := by
    have h : ∀ e ∈ twoPosts.posts.toList, ∀ c ∈ e.2.comments, ownerOf c = e.1 := by decide
    exact fun id doc hdoc => h _ (Collection.mem_toList.mpr hdoc)

/-- Bob's device loads its user, shows the forum and opens the derby; the post is
on its way when he goes back and opens the clásico. -/
def bobHurries : List (Ev NavAction) :=
  [.exec 0 true, .exec 0 true, .deliver 0, .act 0 (.replaceFragment true),
    .act 0 (.openPost (postOfDoc derbyId derby)), .exec 1 true, .exec 1 true, .act 0 .back,
    .act 0 (.openPost (postOfDoc clasicoId clasico))]

/-- The page of the post `pid` shows the post `shown` and a comment on it. -/
def shows (pid shown : String) : Screen → Bool
  | .detail p => p.extraPost.mId == pid && p.mPost.mId == shown && p.mComments.any (·.mPostId == shown)
  | _ => false

theorem of_shows {pid shown : String} {x : Screen} (h : shows pid shown x = true) :
    ∃ p, x = .detail p ∧ p.extraPost.mId = pid ∧ p.mPost.mId = shown ∧ ∃ k ∈ p.mComments, k.mPostId = shown := by
  cases x with
  | detail p =>
    simp only [shows, Bool.and_eq_true, beq_iff_eq, List.any_eq_true] at h
    obtain ⟨⟨hpid, hshown⟩, hcomment⟩ := h
    exact ⟨p, rfl, hpid, hshown, hcomment⟩
  | _ => cases h

/-- The derby arrives while the screen is off; Bob comments on the clásico. -/
theorem acts_on_own_post_clasico :
    ∃ s, Reach (flows plainDrawables) (fun s e => (ownIds ownerOf s e && ownAnswers s e) = true)
        (launchFlows plainDrawables "bob@mail.com" twoPosts) s ∧
      (s.store.comments.get thirdId).map (·.postId) = some clasicoId ∧
      Reach (nav plainDrawables) (fun _ _ => True) (launch plainDrawables "bob@mail.com" twoPosts) s.unlabelled ∧
      (∀ c, s.client 0 = some c → ∀ p, .detail p ∈ c.stack →
        p.mPost.mId = p.extraPost.mId ∧ ∀ k ∈ p.mComments, k.mPostId = p.extraPost.mId) ∧
        ∀ m ∈ s.net, FlowFits ownerOf m.body := by
  obtain ⟨s, hr, hs⟩ := @reach_of_test _ _ _ _ _ _ (flows plainDrawables)
    (fun s e => ownIds ownerOf s e && ownAnswers s e) (launchFlows plainDrawables "bob@mail.com" twoPosts)
    (bobHurries ++ [.act 0 .pause, .deliver 1, .act 0 .resume, .exec 3 true, .exec 3 true, .deliver 3,
      .exec 3 true, .exec 3 true, .exec 3 true, .exec 3 true, .exec 0 true, .exec 0 true, .deliver 0,
      .deliver 3, .act 0 (.page (.typeComment "indeed")), .act 0 (.page (.onCommentTap thirdId)), .exec 4 true])
    (fun s => (s.store.comments.get thirdId).map (·.postId) == some clasicoId) (by decide)
  exact ⟨s, hr, beq_iff_eq.mp hs, acts_on_own_post consistent_twoPosts hr⟩

/-- Ann deletes the derby, goes back and opens the clásico; the derby's deletion is
confirmed to the page of the clásico. -/
def annDeletes : List (Ev NavAction) :=
  [.exec 0 true, .exec 0 true, .deliver 0, .act 0 (.replaceFragment true),
    .act 0 (.openPost (postOfDoc derbyId derby)), .act 0 (.page .onDeleteMenu), .exec 2 true, .act 0 .back,
    .act 0 (.openPost (postOfDoc clasicoId clasico)), .deliver 2, .exec 2 true]

/-- The derby arrives at the page of the clásico: the page shows the derby and its
comments, and what Bob says about the clásico is stored as a comment on the derby.
And when Ann deletes the derby, the clásico leaves the list of her posts. -/
theorem acts_on_other_post :
    Consistent ownerOf twoPosts ∧
    (∃ s, Reach (flows plainDrawables) (fun s e => ownIds ownerOf s e = true)
        (launchFlows plainDrawables "bob@mail.com" twoPosts) s ∧
      (∃ c p, s.client 0 = some c ∧ .detail p ∈ c.stack ∧ p.extraPost.mId = clasicoId ∧
        p.mPost.mId = derbyId ∧ ∃ k ∈ p.mComments, k.mPostId = derbyId) ∧
      (s.store.comments.get thirdId).map (·.postId) = some derbyId) ∧
    ∃ s, Reach (flows plainDrawables) (fun s e => ownIds ownerOf s e = true)
        (launchFlows plainDrawables "ann@mail.com" twoPosts) s ∧
      s.store.posts.get derbyId = none ∧ s.store.posts.get clasicoId = some clasico ∧
      (s.store.users.get "ann@mail.com").map (·.posts) = some [derbyId] := by
  refine ⟨consistent_twoPosts, ?_, ?_⟩
  · obtain ⟨s, hr, hs⟩ := @reach_of_test _ _ _ _ _ _ (flows plainDrawables) (ownIds ownerOf)
      (launchFlows plainDrawables "bob@mail.com" twoPosts)
      (bobHurries ++ [.deliver 1, .exec 0 true, .exec 0 true, .deliver 0, .exec 1 true, .exec 1 true,
        .exec 1 true, .exec 1 true, .deliver 1, .act 0 (.page (.typeComment "indeed")),
        .act 0 (.page (.onCommentTap thirdId)), .exec 4 true])
      (fun s => (s.client 0).any (fun c => c.stack.any (shows clasicoId derbyId)) &&
        (s.store.comments.get thirdId).map (·.postId) == some derbyId) (by decide)
    simp only [Bool.and_eq_true, Option.any_eq_true, List.any_eq_true, beq_iff_eq] at hs
    obtain ⟨⟨c, hc, x, hx, hshows⟩, hstored⟩ := hs
    obtain ⟨p, rfl, hp⟩ := of_shows hshows
    exact ⟨s, hr, ⟨c, p, hc, hx, hp⟩, hstored⟩
  · obtain ⟨s, hr, hs⟩ := @reach_of_test _ _ _ _ _ _ (flows plainDrawables) (ownIds ownerOf)
      (launchFlows plainDrawables "ann@mail.com" twoPosts) annDeletes
      (fun s => s.store.posts.get derbyId == none && s.store.posts.get clasicoId == some clasico &&
        (s.store.users.get "ann@mail.com").map (·.posts) == some [derbyId]) (by decide)
    simp only [Bool.and_eq_true, beq_iff_eq] at hs
    exact ⟨s, hr, hs.1.1, hs.1.2, hs.2⟩

end OwnPost
end FootballGallery
