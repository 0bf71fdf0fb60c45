/-
# Comment threads

A reply stands under a top-level comment and mentions one of its thread, since
the page takes the comment above a reply for the thread's head. Stored comments
keep their links, so that a target chosen on any page still fits when the
comment is written.

The visitors of this module load lists of posts, open a post from them and then
stay on its page, so that every reply of the backend comes to the page that has
asked for it. Each id that a page generates is generated once.

Key definitions: `Threaded`, `Visitor`, `visit`, `newId`, `Knows`.
Key theorems: `threaded_topOf`, `unwritten_of_named`, `views`, `threads_linked`.
-/
import FootballGallery.CommentCopies
import FootballGallery.ReplyTarget
import FootballGallery.Lib.Views

namespace FootballGallery
namespace Threads

open DBUtil DocStore Async OwnPost CommentCopies Forum

/-- The links `l` of a comment: both ids or none; the head of its thread is stored,
of the same post and at top level; and what it mentions is stored, of the same
post, and the head or under the same head. -/
structure Threaded (db : Database) (l : Links) : Prop where
  both : l.parentId = "" ↔ l.mentionId = ""
  parent : l.parentId ≠ "" →
    ∃ d, db.comments.get l.parentId = some d ∧ d.postId = l.postId ∧ d.parentId = ""
  mention : l.mentionId ≠ "" → ∃ d, db.comments.get l.mentionId = some d ∧ d.postId = l.postId ∧
    (l.mentionId = l.parentId ∨ d.parentId = l.parentId)

/-- All stored comments are. -/
def AllThreaded (db : Database) : Prop := ∀ id d, db.comments.get id = some d → Threaded db d.links

/-- The links of the comment that the page would post. -/
def target (p : ForumDetail) : Links := ⟨p.extraPost.mId, p.mCurrentParentId, p.mCurrentMentionId⟩

/-! ### Visitors -/

/-- The user `me` with a list of posts, or on the page of one. -/
structure Visitor where
  me : String
  collection : List Post
  page : Option ForumDetail

inductive Visit where
  /-- the list of `CoreActivity` -/
  | load
  /-- the list of `ProfileActivity` -/
  | profile
  | openPost (n : ℕ) (author : Option User)
  | page (a : ForumDetailActivity.Action)

namespace Visitor

def act (d : Drawables) (v : Visitor) : Visit → Visitor × List Request
  | .load => (v, if v.page.isNone then forumGetPosts CoreActivity.repopulateForum else [])
  | .profile => (v, if v.page.isNone then userGetUserInfo v.me ProfileActivity.getUserInfo else [])
  | .openPost n author =>
    match v.page, v.collection[n]? with
    | none, some post =>
      let r := ForumDetailActivity.onCreate v.me post author
      ({ v with page := some r.1 }, r.2)
    | _, _ => (v, [])
  | .page a =>
    match v.page with
    | none => (v, [])
    | some p => ({ v with page := some (ForumDetailActivity.act d p a).1 }, (ForumDetailActivity.act d p a).2)

def recv (d : Drawables) (v : Visitor) (i : Intent) : Option (Visitor × List Request) :=
  match v.page with
  | some p => (ForumDetailActivity.onReceive d p i).map fun r => ({ v with page := some r.1 }, r.2)
  | none =>
    match i.result, i.extra with
    | true, some (.posts ps) => some ({ v with collection := ps }, [])
    | true, some (.user u) => some ({ v with collection := u.mPosts }, [])
    | _, _ => some (v, [])

end Visitor

def visit (d : Drawables) : App Database Visitor Request Intent Visit (Option String) where
  act v a := some (v.act d a)
  exec := exec
  recv v i := v.recv d i
  tag v := v.page.map (·.extraPost.mId)

abbrev VisitConf := Conf Database Visitor Request Intent (Option String)

/-- The users `users` on the database `db`, without posts. -/
def arrivals (db : Database) (users : List String) : VisitConf where
  store := db
  client i := users[i]?.map fun me => ⟨me, [], none⟩
  net := []

/-- The id that a tap generates. -/
def newId : Ev Visit → Option String
  | .act _ (.page (.onCommentTap id)) => some id
  | _ => none

/-- Generated ids are not empty. -/
def named (_ : VisitConf) (e : Ev Visit) : Bool := (newId e).all (· != "")

/-- The post of the page that the tap is on. -/
def tappedPost (s : VisitConf) : Ev Visit → String
  | .act i _ => (((s.client i).bind (·.page)).map (·.extraPost.mId)).getD ""
  | _ => ""

/-- No comment is written over a stored one. -/
def unwritten (s : VisitConf) : Ev Visit → Prop
  | .exec n _ => ∀ q ∈ requestAt s n, NewComment s.store q
  | _ => True

/-! ### Targets -/

section Target

variable {db db' : Database} {pid : String} {c : Comment}

theorem get_of_keepsLinks (hk : KeepsLinks db db') {id : String} {d : CommentDoc}
    (h : db.comments.get id = some d) : ∃ d', db'.comments.get id = some d' ∧ d'.links = d.links :=
  hk id d.links ⟨d, h, rfl⟩

theorem Threaded.mono {l : Links} (h : Threaded db l) (hk : KeepsLinks db db') : Threaded db' l where
  both := h.both
  parent := by
    intro hne
    obtain ⟨d, hd, hpost, htop⟩ := h.parent hne
    obtain ⟨d', hd', hl⟩ := get_of_keepsLinks hk hd
    exact ⟨d', hd', (congrArg Links.postId hl).trans hpost, (congrArg Links.parentId hl).trans htop⟩
  mention := by
    intro hne
    obtain ⟨d, hd, hpost, hhead⟩ := h.mention hne
    obtain ⟨d', hd', hl⟩ := get_of_keepsLinks hk hd
    exact ⟨d', hd', (congrArg Links.postId hl).trans hpost,
      hhead.imp_right (congrArg Links.parentId hl).trans⟩

theorem threaded_none (db : Database) (pid : String) : Threaded db ⟨pid, "", ""⟩ where
  both := by simp
  parent := fun hne => absurd rfl hne
  mention := fun hne => absurd rfl hne

/-- A reply to a comment of a thread belongs to the thread. -/
theorem threaded_topOf (hdb : AllThreaded db) (hc : Copy db c) (hpost : c.mPostId = pid) :
    Threaded db ⟨pid, ForumDetailActivity.topOf c, c.mId⟩ := by
  have hid : c.mId ≠ "" := hc.ne_noId
  obtain ⟨d, hd, hl⟩ := hc
  have hdpost : d.postId = pid := (congrArg Links.postId hl).trans hpost
  have hdparent : d.parentId = c.mParentId := congrArg Links.parentId hl
  have hlen : c.mParentId.length ≤ 0 ↔ c.mParentId = "" := by
    rw [Nat.le_zero, String.length_eq_zero_iff]
  by_cases htop : c.mParentId = ""
  · have heq : ForumDetailActivity.topOf c = c.mId := if_pos (hlen.mpr htop)
    rw [heq]
    exact ⟨Iff.rfl, fun _ => ⟨d, hd, hdpost, hdparent.trans htop⟩, fun _ => ⟨d, hd, hdpost, .inl rfl⟩⟩
  · have heq : ForumDetailActivity.topOf c = c.mParentId := if_neg fun h => htop (hlen.mp h)
    rw [heq]
    refine ⟨⟨fun h => absurd h htop, fun h => absurd h hid⟩, fun _ => ?_, fun _ => ?_⟩
    · obtain ⟨d₀, hd₀, hpost₀, htop₀⟩ := (hdb _ _ hd).parent (by rw [hl]; exact htop)
      rw [hl] at hd₀ hpost₀
      exact ⟨d₀, hd₀, hpost₀.trans hpost, htop₀⟩
    · exact ⟨d, hd, hdpost, .inr hdparent⟩

end Target

/-! ### No comment is written over another one -/

/-- The id of a comment to be stored. -/
def newComment (m : Msg Request Intent (Option String)) : Option String :=
  match m.body with
  | .inl (.setComment _ id _) => some id
  | _ => none

/-- The ids of stored comments and of comments to be stored are `used`, and no two
comments have one id. -/
structure Unwritten (used : List String) (db : Database) (net : List (Msg Request Intent (Option String))) :
    Prop where
  stored : ∀ id, (db.comments.get id).isSome → id ∈ used
  nodup : (net.filterMap newComment).Nodup
  waiting : ∀ id ∈ net.filterMap newComment, id ∈ used ∧ db.comments.get id = none

section Unwritten

variable {used : List String} {db db' : Database} {l₁ l₂ new : List (Msg Request Intent (Option String))}
  {m : Msg Request Intent (Option String)}

/-- A message gives way to messages that store no comment; what is stored meanwhile
is the message's comment at most. -/
theorem Unwritten.splice (h : Unwritten used db (l₁ ++ m :: l₂)) (hnew : ∀ x ∈ new, newComment x = none)
    (hdb : ∀ id, (db'.comments.get id).isSome → (db.comments.get id).isSome ∨ newComment m = some id) :
    Unwritten used db' (l₁ ++ new ++ l₂) := by
  have he : (l₁ ++ new ++ l₂).filterMap newComment = l₁.filterMap newComment ++ l₂.filterMap newComment := by
    simp [List.filterMap_append, Exclusive.filterMap_none hnew]
  have hold : (l₁ ++ m :: l₂).filterMap newComment =
      l₁.filterMap newComment ++ (newComment m).toList ++ l₂.filterMap newComment := by
    rw [List.filterMap_append, List.filterMap_cons, List.append_assoc]
    cases newComment m <;> rfl
  have hnd := h.nodup
  have hwait := h.waiting
  rw [hold] at hnd hwait
  refine ⟨fun id hid => ?_, ?_, fun id hid => ?_⟩
  · rcases hdb id hid with hs | hm
    · exact h.stored id hs
    · exact (hwait id (by simp [hm])).1
  · rw [he]
    exact hnd.sublist ((List.sublist_append_left _ _).append (List.Sublist.refl _))
  · rw [he] at hid
    have hmem : id ∈ l₁.filterMap newComment ++ (newComment m).toList ++ l₂.filterMap newComment := by
      rcases List.mem_append.mp hid with hid | hid <;> simp only [List.mem_append, hid, true_or, or_true]
    refine ⟨(hwait id hmem).1, ?_⟩
    rw [← Option.not_isSome_iff_eq_none]
    intro hs
    rcases hdb id hs with hs | hm
    · rw [(hwait id hmem).2] at hs
      cases hs
    · -- no other message stores a comment under the same id
      rw [hm, Option.toList_some, List.append_assoc] at hnd
      have hone := (List.nodup_middle.mp hnd)
      exact (List.nodup_cons.mp hone).1 hid

theorem Unwritten.drop (h : Unwritten used db (l₁ ++ m :: l₂)) : Unwritten used db (l₁ ++ l₂) := by
  have hsplice := @Unwritten.splice _ _ _ _ _ [] _ h (fun x hx => by cases hx) fun id hid => .inl hid
  rwa [List.append_nil] at hsplice

/-- What a page asks for after a tap. -/
theorem newComment_tapped {d : Drawables} {p p' : ForumDetail} {a : ForumDetailActivity.Action}
    {qs : List Request} (h : ForumDetailActivity.Tapped d p a p' qs) (i : ℕ) (t : Option String) :
    (∃ id doc, a = .onCommentTap id ∧ qs = [.setComment ForumDetailActivity.updateComment id doc]) ∨
      ∀ q ∈ qs, newComment ⟨i, t, .inl q⟩ = none := by
  cases h with
  | quiet => exact .inr fun q hq => by cases hq
  | comment => exact .inl ⟨_, _, rfl, rfl⟩
  | like =>
    refine .inr fun q hq => ?_
    obtain ⟨op, rfl⟩ := mem_userUpdateValue hq
    rfl
  | _ => exact .inr (List.forall_mem_singleton.mpr rfl)

theorem newComment_replied {d : Drawables} {p p' : ForumDetail} {i : Intent} {qs : List Request}
    (h : ForumDetailActivity.Replied d p i p' qs) (n : ℕ) (t : Option String) :
    ∀ q ∈ qs, newComment ⟨n, t, .inl q⟩ = none := by
  cases h with
  | ignored | deletedInUsers | comments => exact fun q hq => by cases hq
  | _ => exact List.forall_mem_singleton.mpr rfl

/-- The backend starts no comment, and stores the one that it is asked to. -/
theorem newComment_exec {ok : Bool} {q : Request} {out : List (Request ⊕ Intent)} (i : ℕ) (t : Option String)
    (h : exec ok db q = some (db', out)) :
    (∀ x ∈ out, newComment ⟨i, t, x⟩ = none) ∧
      ∀ id, (db'.comments.get id).isSome → (db.comments.get id).isSome ∨ newComment ⟨i, t, .inl q⟩ = some id := by
  cases executed_exec h with
  | wrote hw =>
    refine ⟨List.forall_mem_singleton.mpr rfl, fun id hid => ?_⟩
    cases hw with
    | @setComment a id' doc =>
      by_cases heq : id' = id
      · exact .inr (congrArg some heq)
      · refine .inl ?_
        rwa [Collection.get_set_ne _ _ (Ne.symm heq)] at hid
    | @updateComment a id' doc cs hu =>
      obtain ⟨old, hold, rfl⟩ := Collection.update_eq_some hu
      refine .inl ?_
      by_cases heq : id = id'
      · rw [heq, hold]
        rfl
      · rwa [Collection.get_set_ne _ _ heq] at hid
    | @deleteComment a id' =>
      refine .inl ?_
      by_cases heq : id = id'
      · rw [heq, Collection.get_delete_self] at hid
        cases hid
      · rwa [Collection.get_delete_ne _ heq] at hid
    | _ => exact .inl hid
  | fails hall =>
    refine ⟨fun x hx => ?_, fun id hid => .inl hid⟩
    obtain rfl := hall x hx
    rfl
  | _ => exact ⟨List.forall_mem_singleton.mpr rfl, fun id hid => .inl hid⟩

/-- A client asks for something. -/
theorem Unwritten.asks {d : Drawables} (h : Unwritten used db l₁) {i : ℕ} {v : Visitor} {qs : List Request}
    (hqs : ∀ q ∈ qs, newComment ⟨i, (visit d).tag v, .inl q⟩ = none) :
    Unwritten used db (l₁ ++ issue (visit d) i v qs) := by
  have he : (l₁ ++ issue (visit d) i v qs).filterMap newComment = l₁.filterMap newComment := by
    have hnone : (issue (visit d) i v qs).filterMap newComment = [] := by
      refine Exclusive.filterMap_none fun m hm => ?_
      obtain ⟨q, hq, rfl⟩ := List.mem_map.mp hm
      exact hqs q hq
    rw [List.filterMap_append, hnone, List.append_nil]
  exact ⟨h.stored, he ▸ h.nodup, he ▸ h.waiting⟩

/-- A client posts a comment under an id that is not used yet. -/
theorem Unwritten.post {d : Drawables} (h : Unwritten used db l₁) {i : ℕ} {v : Visitor} {a id : String}
    {doc : CommentDoc} (hid : id ∉ used) :
    Unwritten (id :: used) db (l₁ ++ issue (visit d) i v [.setComment a id doc]) := by
  have he : (l₁ ++ issue (visit d) i v [.setComment a id doc]).filterMap newComment =
      l₁.filterMap newComment ++ [id] := by
    rw [List.filterMap_append]
    rfl
  refine ⟨fun id' hs => .tail _ (h.stored id' hs), ?_, fun id' hmem => ?_⟩
  · rw [he]
    refine List.nodup_append.mpr ⟨h.nodup, List.nodup_singleton id, fun x hx y hy hxy => ?_⟩
    rw [hxy, List.mem_singleton.mp hy] at hx
    exact hid (h.waiting id hx).1
  · rw [he] at hmem
    rcases List.mem_append.mp hmem with hmem | hmem
    · exact ⟨.tail _ (h.waiting id' hmem).1, (h.waiting id' hmem).2⟩
    · obtain rfl := List.mem_singleton.mp hmem
      refine ⟨.head _, ?_⟩
      rw [← Option.not_isSome_iff_eq_none]
      exact fun hs => hid (h.stored _ hs)

theorem Unwritten.more (h : Unwritten used db l₁) (more : List String) : Unwritten (more ++ used) db l₁ :=
  ⟨fun id hs => List.mem_append_right _ (h.stored id hs), h.nodup,
    fun id hid => ⟨List.mem_append_right _ (h.waiting id hid).1, (h.waiting id hid).2⟩⟩

/-- What a visitor asks for. -/
theorem newComment_act {d : Drawables} (v : Visitor) (a : Visit) (i : ℕ) (t : Option String) :
    (∃ id doc, a = .page (.onCommentTap id) ∧
        (v.act d a).2 = [.setComment ForumDetailActivity.updateComment id doc]) ∨
      ∀ q ∈ (v.act d a).2, newComment ⟨i, t, .inl q⟩ = none := by
  have hone : ∀ {b : Bool} {q : Request}, newComment ⟨i, t, .inl q⟩ = none →
      ∀ q' ∈ (if b then [q] else []), newComment ⟨i, t, .inl q'⟩ = none := by
    intro b q hq q' hq'
    cases b with
    | true =>
      obtain rfl := List.mem_singleton.mp hq'
      exact hq
    | false => cases hq'
  cases a with
  | load => exact .inr (hone rfl)
  | profile => exact .inr (hone rfl)
  | openPost n author =>
    refine .inr fun q hq => ?_
    simp only [Visitor.act] at hq
    split at hq
    · rcases List.mem_append.mp hq with hq | hq
      · obtain rfl := List.mem_singleton.mp hq
        rfl
      · obtain rfl := List.mem_singleton.mp hq
        rfl
    · cases hq
  | page a =>
    cases hp : v.page with
    | none =>
      refine .inr fun q hq => ?_
      simp only [Visitor.act, hp] at hq
      cases hq
    | some p =>
      simp only [Visitor.act, hp]
      rcases newComment_tapped (ForumDetailActivity.tapped_act d p a) i t with ⟨id, doc, ha, hqs⟩ | hnone
      · exact .inl ⟨id, doc, congrArg Visit.page ha, hqs⟩
      · exact .inr hnone

theorem newComment_recv {d : Drawables} {v v' : Visitor} {i : Intent} {qs : List Request}
    (h : v.recv d i = some (v', qs)) (n : ℕ) (t : Option String) :
    ∀ q ∈ qs, newComment ⟨n, t, .inl q⟩ = none := by
  unfold Visitor.recv at h
  split at h
  · obtain ⟨r, hr, heq⟩ := Option.map_eq_some_iff.mp h
    obtain ⟨rfl, rfl⟩ := Prod.mk.inj heq
    exact newComment_replied (ForumDetailActivity.replied_onReceive hr) n t
  · split at h <;>
    · obtain ⟨rfl, rfl⟩ := Prod.mk.inj (Option.some.inj h)
      exact fun q hq => by cases hq

/-- New ids keep the stored comments from being written over. -/
theorem unwritten_of_named {d : Drawables} {db : Database} {users : List String} {s : VisitConf}
    (hc : db.comments = .empty)
    (h : Named (visit d) (fun s e => named s e = true) newId (arrivals db users) used s) :
    Unwritten used s.store s.net := by
  induction h with
  | init =>
    refine ⟨fun id hid => ?_, List.nodup_nil, fun id hid => by cases hid⟩
    have hnone : db.comments.get id = none := by
      rw [hc]
      exact Collection.get_empty id
    rw [arrivals, hnone] at hid
    cases hid
  | @step used s s' e h ho hn hs ih =>
    cases step_of_next (visit d) hs with
    | @act i a v v' qs hv ha =>
      obtain ⟨rfl, rfl⟩ := Prod.mk.inj (Option.some.inj ha)
      rcases newComment_act (d := d) v a i ((visit d).tag (v.act d a).1) with ⟨id, doc, rfl, hqs⟩ | hnone
      · have hpost := @Unwritten.post used s.store s.net d ih i (v.act d (.page (.onCommentTap id))).1
          ForumDetailActivity.updateComment id doc (hn id rfl)
        rw [← hqs] at hpost
        exact hpost
      · exact (ih.more _).asks hnone
    | actThrows hv ha => cases ha
    | @exec n ok i t q l₁ l₂ st out hn' hl he =>
      obtain ⟨hout, hstored⟩ := newComment_exec i t he
      rw [hl] at ih
      refine ih.splice (fun x hx => ?_) hstored
      obtain ⟨b, hb, rfl⟩ := List.mem_map.mp hx
      exact hout b hb
    | execThrows hn' hl he => exact (hl ▸ ih).drop
    | @recv n i t r l₁ l₂ v v' qs hn' hl hv hr =>
      rw [hl] at ih
      refine ih.splice (fun x hx => ?_) fun id hid => .inl hid
      obtain ⟨q, hq, rfl⟩ := List.mem_map.mp hx
      exact newComment_recv hr i _ q hq
    | recvThrows hn' hl => exact (hl ▸ ih).drop
    | drop hn' hl => exact (hl ▸ ih).drop

end Unwritten

/-! ### What visitors and messages know -/

variable (owner : String → String)

/-- Posts that list comments of their own. -/
def OwnPosts (ps : List Post) : Prop := ∀ q ∈ ps, Own owner q.mId q

/-- The comment to be stored fits its thread, and posts that are brought list comments of their own. -/
def Brings (db : Database) (b : Request ⊕ Intent) : Prop :=
  match b with
  | .inl (.setComment _ _ doc) => Threaded db doc.links
  | .inr ⟨_, _, some (.posts ps)⟩ => OwnPosts owner ps
  | .inr ⟨_, _, some (.user u)⟩ => OwnPosts owner u.mPosts
  | _ => True

/-- The message loads a list of posts. -/
def Loads (b : Request ⊕ Intent) : Prop :=
  match b with
  | .inl (.getPosts ..) | .inl (.getPostsStepTwo ..) | .inl (.getUser ..) | .inl (.getUserPosts ..) => True
  | .inl _ => False
  | .inr i => brings i = false

/-- What a page knows: its post, copies of its comments, and a target that fits. -/
structure KnowsPage (db : Database) (p : ForumDetail) : Prop where
  acts : ActsOn owner p
  copies : Copies db p
  target : Threaded db (target p)

structure Knows (db : Database) (v : Visitor) : Prop where
  collection : OwnPosts owner v.collection
  page : ∀ p ∈ v.page, KnowsPage owner db p

structure MsgKnows (db : Database) (m : Msg Request Intent (Option String)) : Prop where
  fits : Fits owner m.tag m.body
  copies : MsgCopies db m.body
  brings : Brings owner db m.body
  loads : m.tag = none → Loads m.body

structure StoreKnows (db : Database) : Prop where
  consistent : Consistent owner db
  threaded : AllThreaded db

/-- A page's message is of the page's post. -/
def OfPage (v : Visitor) (m : Msg Request Intent (Option String)) : Prop :=
  ∀ pid ∈ m.tag, ∃ p ∈ v.page, p.extraPost.mId = pid

variable {owner} {db db' : Database}

theorem Brings.mono {b : Request ⊕ Intent} (h : Brings owner db b) (hk : KeepsLinks db db') :
    Brings owner db' b := by
  unfold Brings at h ⊢
  split at h
  · exact Threaded.mono h hk
  · exact h
  · exact h
  · trivial

theorem MsgKnows.mono {m : Msg Request Intent (Option String)} (h : MsgKnows owner db m)
    (hk : KeepsLinks db db') : MsgKnows owner db' m :=
  ⟨h.fits, h.copies.mono hk, h.brings.mono hk, h.loads⟩

theorem Knows.mono {v : Visitor} (h : Knows owner db v) (hk : KeepsLinks db db') : Knows owner db' v :=
  ⟨h.collection, fun p hp => ⟨(h.page p hp).acts, (h.page p hp).copies.mono hk, (h.page p hp).target.mono hk⟩⟩

/-- The posts that are read list comments of their own. -/
theorem ownPosts_stepTwo (hdb : Consistent owner db) {ids uids : List String} {ps : List Post}
    (h : getPostStepTwo db ids uids = some ps) : OwnPosts owner ps := by
  intro q hq
  obtain ⟨x, -, hf⟩ := mem_of_mapM h q hq
  obtain ⟨doc1, hdoc1, hf⟩ := Option.bind_eq_some_iff.mp hf
  obtain ⟨doc2, -, hf⟩ := Option.bind_eq_some_iff.mp hf
  obtain rfl := Option.some.inj hf
  exact ⟨rfl, hdb.posts _ _ hdoc1⟩

theorem ownPosts_user (hdb : Consistent owner db) (email : String) :
    OwnPosts owner ((db.posts.toList.filter (·.2.userId = email)).map fun e => postOfUser e.1 e.2) := by
  intro q hq
  obtain ⟨e, he, rfl⟩ := List.mem_map.mp hq
  exact ⟨rfl, hdb.posts _ _ (Collection.mem_toList.mp (List.mem_filter.mp he).1)⟩

section Exec

variable {ok : Bool} {q : Request} {out : List (Request ⊕ Intent)}

theorem brings_exec (h : exec ok db q = some (db', out)) (hdb : Consistent owner db) :
    ∀ b ∈ out, Brings owner db' b := by
  cases executed_exec h with
  | fails hall =>
    intro b hb
    obtain rfl := hall b hb
    trivial
  | getPostsStepTwo hps => exact List.forall_mem_singleton.mpr (ownPosts_stepTwo hdb hps)
  | @getUserPosts a email doc posts =>
    cases ok with
    | true =>
      obtain ⟨-, hout⟩ := Prod.mk.inj (Option.some.inj h)
      rw [← hout]
      exact List.forall_mem_singleton.mpr (ownPosts_user hdb email)
    | false => cases h
  | _ => exact List.forall_mem_singleton.mpr trivial

theorem loads_exec (h : exec ok db q = some (db', out)) (hq : Loads (.inl q)) : ∀ b ∈ out, Loads b := by
  cases executed_exec h with
  | fails hall =>
    intro b hb
    obtain rfl := hall b hb
    rfl
  | getPost | getComments | getCommentsStepTwo | getCommentsStepThree => exact hq.elim
  | getUser | getPosts => exact List.forall_mem_singleton.mpr trivial
  | getPostAuthor | getCommentsStepFour => exact hq.elim
  | _ => exact List.forall_mem_singleton.mpr rfl

theorem threaded_exec (h : exec ok db q = some (db', out)) (hdb : AllThreaded db)
    (hq : MsgCopies db (.inl q)) (hb : Brings owner db (.inl q)) (hk : KeepsLinks db db') :
    AllThreaded db' := by
  have hold : ∀ id d, db.comments.get id = some d → Threaded db' d.links :=
    fun id d hd => (hdb id d hd).mono hk
  cases executed_exec h with
  | wrote hw =>
    cases hw with
    | setComment => exact Collection.forall_set hold (Threaded.mono hb hk)
    | updateComment hu =>
      obtain ⟨old, hold', rfl⟩ := Collection.update_eq_some hu
      refine Collection.forall_set hold ?_
      obtain ⟨d, hd, hl⟩ := hq
      rw [← hl]
      exact hold _ _ hd
    | deleteComment => exact hq.elim
    | _ => exact hold
  | _ => exact hold

end Exec

section Page

open ForumDetailActivity

variable {d : Drawables} {p p' : ForumDetail} {i : ℕ} {t : Option String} {qs : List Request}

theorem threaded_target {q : ForumDetail} (h : Threaded db (target p)) (hs : SameTarget p q)
    (hx : q.extraPost = p.extraPost) : Threaded db (target q) := by
  have heq : target q = target p := by
    unfold target
    rw [hs.parentId, hs.mentionId, hx]
  rw [heq]
  exact h

theorem threaded_noTarget {q : ForumDetail} (hparent : q.mCurrentParentId = "")
    (hmention : q.mCurrentMentionId = "") : Threaded db (target q) := by
  unfold target
  rw [hparent, hmention]
  exact threaded_none db _

/-- What a page asks for. -/
theorem msgKnows_page (hfits : Asks owner (some p.extraPost.mId) qs)
    (hcopies : ∀ q ∈ qs, MsgCopies db (.inl q)) (hbrings : ∀ q ∈ qs, Brings owner db (.inl q)) :
    ∀ q ∈ qs, MsgKnows owner db ⟨i, some p.extraPost.mId, .inl q⟩ :=
  fun q hq => ⟨hfits q hq, hcopies q hq, hbrings q hq, fun h => by cases h⟩

/-- A comment is posted to where the target is. -/
theorem brings_tapped {a : Action} (h : Tapped d p a p' qs) (hpost : p.mPost.mId = p.extraPost.mId)
    (ht : Threaded db (target p)) : ∀ q ∈ qs, Brings owner db (.inl q) := by
  intro q hq
  cases h with
  | comment =>
    obtain rfl := List.mem_singleton.mp hq
    show Threaded db ⟨p.mPost.mId, p.mCurrentParentId, p.mCurrentMentionId⟩
    rw [hpost]
    exact ht
  | quiet => cases hq
  | like =>
    obtain ⟨op, rfl⟩ := mem_userUpdateValue hq
    trivial
  | _ =>
    obtain rfl := List.mem_singleton.mp hq
    trivial

theorem knowsPage_act {a : Action} (hdb : AllThreaded db) (hp : KnowsPage owner db p)
    (hid : ∀ id, a = .onCommentTap id → owner id = p.extraPost.mId) :
    KnowsPage owner db (act d p a).1 ∧ (act d p a).1.extraPost = p.extraPost ∧
      ∀ q ∈ (act d p a).2, MsgKnows owner db ⟨i, some p.extraPost.mId, .inl q⟩ := by
  have ht := tapped_act d p a
  obtain ⟨⟨hacts, hx, -⟩, hasks⟩ := actsOn_tapped ht hp.acts hid
  obtain ⟨hcopies, hqs⟩ := copies_tapped ht hp.copies
  have htarget : Threaded db (target (act d p a).1) := by
    cases aimed_act d p a with
    | keeps _ hs => exact threaded_target hp.target hs hx
    | clears _ hn => exact threaded_noTarget hn.parentId hn.mentionId
    | aims _ hc haim =>
      unfold target
      rw [haim.parentId, haim.mentionId, hx]
      exact threaded_topOf hdb (hp.copies.comments _ hc) (hp.acts.comments _ hc).1
  exact ⟨⟨hacts, hcopies, htarget⟩, hx, msgKnows_page hasks hqs (brings_tapped ht hp.acts.post.1 hp.target)⟩

theorem brings_replied {r : Intent} (h : Replied d p r p' qs) : ∀ q ∈ qs, Brings owner db (.inl q) := by
  intro q hq
  cases h with
  | ignored | deletedInUsers | comments => cases hq
  | _ =>
    obtain rfl := List.mem_singleton.mp hq
    trivial

theorem knowsPage_recv {r : Intent} (h : onReceive d p r = some (p', qs)) (hp : KnowsPage owner db p)
    (hr : MsgKnows owner db ⟨i, t, .inr r⟩) (ht : ∀ pid ∈ t, p.extraPost.mId = pid) :
    KnowsPage owner db p' ∧ p'.extraPost = p.extraPost ∧
      ∀ q ∈ qs, MsgKnows owner db ⟨i, some p.extraPost.mId, .inl q⟩ := by
  have hreplied := replied_onReceive h
  have hown : brings r = true → Fits owner (some p.extraPost.mId) (.inr r) := by
    intro hb
    cases htag : t with
    | none =>
      have hf : brings r = false := hr.loads htag
      rw [hf] at hb
      cases hb
    | some pid =>
      rw [ht pid htag, ← htag]
      exact hr.fits
  obtain ⟨⟨hacts, hx⟩, -, hasks⟩ := actsOn_replied hreplied hp.acts hown
  obtain ⟨hcopies, hqs⟩ := copies_replied hreplied hp.copies hr.copies
  have htarget : Threaded db (target p') := by
    cases retargeted_replied hreplied with
    | keeps hs => exact threaded_target hp.target hs hx
    | clears hn => exact threaded_noTarget hn.parentId hn.mentionId
    | clearsIds _ hparent hmention => exact threaded_noTarget hparent hmention
  exact ⟨⟨hacts, hcopies, htarget⟩, hx, msgKnows_page hasks hqs (brings_replied hreplied)⟩

theorem knowsPage_onCreate {me : String} {post : Post} {author : Option User}
    (hown : Own owner post.mId post) :
    KnowsPage owner db (onCreate me post author).1 ∧
      ∀ q ∈ (onCreate me post author).2, MsgKnows owner db ⟨i, some post.mId, .inl q⟩ := by
  have hlaw : Law owner [] (.detail (onCreate me post author).1) ∧
      Asks owner (some post.mId) (onCreate me post author).2 := onCreate_law rfl hown
  obtain ⟨⟨hacts, -⟩, hasks⟩ := hlaw
  refine ⟨⟨hacts, copies_nothing rfl rfl, threaded_none db _⟩, fun q hq => ?_⟩
  refine ⟨hasks q hq, ?_, ?_, fun h => by cases h⟩
  · rcases List.mem_append.mp hq with hq | hq <;>
    · obtain rfl := List.mem_singleton.mp hq
      trivial
  · rcases List.mem_append.mp hq with hq | hq <;>
    · obtain rfl := List.mem_singleton.mp hq
      trivial

end Page

/-! ### Runs -/

section Runs

variable {d : Drawables} {v v' : Visitor} {i : ℕ} {qs : List Request}

theorem knows_act {a : Visit} (hdb : AllThreaded db) (hv : Knows owner db v)
    (hid : ∀ id p, a = .page (.onCommentTap id) → v.page = some p → owner id = p.extraPost.mId) :
    Knows owner db (v.act d a).1 ∧
      (∀ q ∈ (v.act d a).2, MsgKnows owner db ⟨i, (visit d).tag (v.act d a).1, .inl q⟩) ∧
      ∀ m, OfPage v m → OfPage (v.act d a).1 m := by
  have hasks : ∀ {b : Bool} {q : Request}, (∀ t, Fits owner t (.inl q)) → MsgCopies db (.inl q) →
      Brings owner db (.inl q) → Loads (.inl q) →
      ∀ q' ∈ (if b then [q] else []), MsgKnows owner db ⟨i, (visit d).tag v, .inl q'⟩ := by
    intro b q hf hc hb hl q' hq'
    cases b with
    | true =>
      obtain rfl := List.mem_singleton.mp hq'
      exact ⟨hf _, hc, hb, fun _ => hl⟩
    | false => cases hq'
  cases a with
  | load =>
    exact ⟨hv, hasks (fun _ => ⟨trivial, fun _ _ => trivial⟩) trivial trivial trivial, fun _ => id⟩
  | profile =>
    exact ⟨hv, hasks (fun _ => ⟨trivial, fun _ _ => trivial⟩) trivial trivial trivial, fun _ => id⟩
  | openPost n author =>
    simp only [Visitor.act]
    split
    · rename_i post hpage hpost
      have hown := hv.collection post (List.mem_of_getElem? hpost)
      obtain ⟨hp, hqs⟩ := @knowsPage_onCreate owner db i v.me post author hown
      refine ⟨⟨hv.collection, fun p hp' => ?_⟩, hqs, fun m hm pid ht => ?_⟩
      · obtain rfl := Option.some.inj hp'
        exact hp
      · -- a visitor without a page has no page's message
        obtain ⟨p, hp', -⟩ := hm pid ht
        rw [hpage] at hp'
        cases hp'
    · exact ⟨hv, fun q hq => (by cases hq), fun _ => id⟩
  | page a =>
    cases hpage : v.page with
    | none =>
      simp only [Visitor.act, hpage]
      exact ⟨hv, fun q hq => (by cases hq), fun _ => id⟩
    | some p =>
      obtain ⟨hp, hx, hqs⟩ := knowsPage_act (i := i) (d := d) hdb (hv.page p hpage)
        fun id ha => hid id p (congrArg Visit.page ha) hpage
      simp only [Visitor.act, hpage]
      refine ⟨⟨hv.collection, fun p' hp' => ?_⟩, fun q hq => ?_, fun m hm pid ht => ?_⟩
      · obtain rfl := Option.some.inj hp'
        exact hp
      · show MsgKnows owner db ⟨i, some (ForumDetailActivity.act d p a).1.extraPost.mId, .inl q⟩
        rw [hx]
        exact hqs q hq
      · obtain ⟨p₀, hp₀, hpid⟩ := hm pid ht
        obtain rfl := Option.some.inj (hp₀.symm.trans hpage)
        exact ⟨_, rfl, (congrArg Post.mId hx).trans hpid⟩

theorem knows_recv {r : Intent} {t : Option String} (h : v.recv d r = some (v', qs))
    (hv : Knows owner db v) (hr : MsgKnows owner db ⟨i, t, .inr r⟩) (ht : OfPage v ⟨i, t, .inr r⟩) :
    Knows owner db v' ∧ (∀ q ∈ qs, MsgKnows owner db ⟨i, (visit d).tag v', .inl q⟩) ∧
      ∀ m, OfPage v m → OfPage v' m := by
  unfold Visitor.recv at h
  split at h
  · rename_i p hpage
    obtain ⟨x, hx, heq⟩ := Option.map_eq_some_iff.mp h
    obtain ⟨rfl, rfl⟩ := Prod.mk.inj heq
    have hpid : ∀ pid ∈ t, p.extraPost.mId = pid := by
      intro pid htag
      obtain ⟨p₀, hp₀, heq⟩ := ht pid htag
      obtain rfl := Option.some.inj (hp₀.symm.trans hpage)
      exact heq
    obtain ⟨hp, hextra, hqs⟩ := knowsPage_recv hx (hv.page p hpage) hr hpid
    refine ⟨⟨hv.collection, fun p' hp' => ?_⟩, fun q hq => ?_, fun m hm pid htag => ?_⟩
    · obtain rfl := Option.some.inj hp'
      exact hp
    · show MsgKnows owner db ⟨i, some x.1.extraPost.mId, .inl q⟩
      rw [hextra]
      exact hqs q hq
    · obtain ⟨p₀, hp₀, heq⟩ := hm pid htag
      obtain rfl := Option.some.inj (hp₀.symm.trans hpage)
      exact ⟨_, rfl, (congrArg Post.mId hextra).trans heq⟩
  · rename_i hpage
    have hbrings := hr.brings
    have hnew : ∀ ps, OwnPosts owner ps → Knows owner db { v with collection := ps } :=
      fun ps hps => ⟨hps, hv.page⟩
    obtain ⟨a, b, x⟩ := r
    split at h
    · rename_i ps _ hx
      obtain rfl : x = some (.posts ps) := hx
      obtain ⟨rfl, rfl⟩ := Prod.mk.inj (Option.some.inj h)
      exact ⟨hnew ps hbrings, fun q hq => (by cases hq), fun _ => id⟩
    · rename_i u _ hx
      obtain rfl : x = some (.user u) := hx
      obtain ⟨rfl, rfl⟩ := Prod.mk.inj (Option.some.inj h)
      exact ⟨hnew u.mPosts hbrings, fun q hq => (by cases hq), fun _ => id⟩
    · obtain ⟨rfl, rfl⟩ := Prod.mk.inj (Option.some.inj h)
      exact ⟨hv, fun q hq => (by cases hq), fun _ => id⟩

/-- A visitor's messages are of its page, if it has one. -/
theorem ofPage_tag (d : Drawables) (v : Visitor) (b : Request ⊕ Intent) :
    OfPage v ⟨i, (visit d).tag v, b⟩ := by
  intro pid ht
  obtain ⟨p, hp, rfl⟩ := Option.map_eq_some_iff.mp ht
  exact ⟨p, hp, rfl⟩

theorem views (d : Drawables) :
    Views (visit d) (fun s e => unwritten s e ∧ ∀ id ∈ newId e, owner id = tappedPost s e)
      (StoreKnows owner) (Knows owner) (MsgKnows owner) OfPage where
  act s i a v v' qs ho hv ha hdb hk := by
    obtain ⟨rfl, rfl⟩ := Prod.mk.inj (Option.some.inj ha)
    obtain ⟨hk', hqs, hkeep⟩ := knows_act (d := d) (i := i) (a := a) hdb.threaded hk fun id p htap hpage => by
      have hown := ho.2 id (by rw [htap]; rfl)
      simpa [tappedPost, hv, hpage] using hown
    exact ⟨hk', fun q hq => ⟨hqs q hq, ofPage_tag d _ _⟩, fun m _ _ => hkeep m⟩
  exec s n b i t q st out ho hn he hdb hm := by
    have hnew : NewComment s.store q := ho.1 q (by rw [requestAt, hn]; rfl)
    obtain ⟨hkeep, hcopies⟩ := msgCopies_exec he hm.copies hnew
    obtain ⟨hcons, hfits⟩ := about_exec he hdb.consistent hm.fits
    refine ⟨⟨hcons, threaded_exec he hdb.threaded hm.copies hm.brings hkeep⟩, fun _ hv => hv.mono hkeep,
      fun _ _ hm' => hm'.mono hkeep, fun x hx => ⟨⟨hfits x hx, hcopies x hx, ?_, fun ht => ?_⟩, fun _ => id⟩⟩
    · exact brings_exec he hdb.consistent x hx
    · exact loads_exec he (hm.loads ht) x hx
  recv s n i t r v v' qs ho hn hv hr hdb hk hm hl := by
    obtain ⟨hk', hqs, hkeep⟩ := knows_recv hr hk hm hl
    exact ⟨hk', fun q hq => ⟨hqs q hq, ofPage_tag d _ _⟩, fun m _ _ => hkeep m⟩

/-- **Comment threads are two levels deep and well linked**, whoever posts what and
when, as long as no comment id is generated twice. -/
theorem threads_linked {d : Drawables} {db : Database} {users used : List String} {s : VisitConf}
    (hc : db.comments = .empty) (hp : ∀ id post, db.posts.get id = some post → post.comments = [])
    (h : Named (visit d) (fun s e => named s e = true) newId (arrivals db users) used s) :
    AllThreaded s.store := by
  have hnone : ∀ id d, db.comments.get id = some d → False := by
    intro id d hd
    rw [hc, Collection.get_empty] at hd
    cases hd
  have hunwritten : Named (visit d) unwritten newId (arrivals db users) used s := by
    refine h.mono fun used s e s' hs ho hn hnext => ?_
    have hinv := unwritten_of_named hc hs
    cases e with
    | exec n ok =>
      intro q hq
      cases q with
      | setComment a id doc =>
        obtain ⟨m, hm, hbody⟩ := Option.bind_eq_some_iff.mp hq
        refine (hinv.waiting id (List.mem_filterMap.mpr ⟨m, List.mem_of_getElem? hm, ?_⟩)).2
        rw [newComment, Sum.getLeft?_eq_some_iff.mp hbody]
      | _ => trivial
    | _ => trivial
  obtain ⟨owner, hreach⟩ := hunwritten.owned tappedPost
  refine ((views d).reach ⟨⟨⟨?_, ?_⟩, ?_⟩, ?_, ?_, ?_⟩ hreach).store.threaded
  · exact fun id doc hdoc => (hnone id doc hdoc).elim
  · intro id doc hdoc c hmem
    rw [hp id doc hdoc] at hmem
    cases hmem
  · exact fun id doc hdoc => (hnone id doc hdoc).elim
  · intro i v hv
    obtain ⟨me, -, rfl⟩ := Option.map_eq_some_iff.mp hv
    exact ⟨fun q hq => (by cases hq), fun p hp => (by cases hp)⟩
  · exact fun m hm => by cases hm
  · exact fun m hm => by cases hm

end Runs

/-! Ann comments on the derby, Bob replies to her, and Ann to Bob. -/

def posting (i : ℕ) (id : String) : List (Ev Visit) :=
  [.act i (.page (.typeComment "me too")), .act i (.page (.onCommentTap id)), carry, arrive, carry, arrive,
    carry, carry, arrive, carry, carry, carry, carry, arrive]

def conversation : List (Ev Visit) :=
  [.act 0 .load, carry, carry, arrive, .act 0 (.openPost 0 none), carry, carry, arrive, carry, carry, arrive,
    carry, arrive, carry, carry, arrive, carry, arrive] ++ posting 0 firstId ++
  [.act 1 .load, carry, carry, arrive, .act 1 (.openPost 0 none), carry, carry, arrive, carry, carry, arrive,
    carry, carry, carry, carry, arrive, carry, carry, arrive, carry, carry, carry, carry, arrive,
    .act 1 (.page (.onReplyClick 0))] ++ posting 1 secondId ++
  [.act 0 (.page .onResume), carry, carry, arrive, carry, carry, carry, carry, arrive,
    .act 0 (.page (.onReplyClick 0))] ++ posting 0 thirdId

theorem threads_linked_derby :
    ∃ used s, Named (visit plainDrawables) (fun s e => named s e = true) newId
        (arrivals derbyDb ["ann@mail.com", "bob@mail.com"]) used s ∧
      s.store.comments.toList.map (fun e => (e.1, e.2.links)) =
        [(thirdId, ⟨derbyId, firstId, secondId⟩), (secondId, ⟨derbyId, firstId, firstId⟩), (firstId, ⟨derbyId, "", ""⟩)] ∧
      AllThreaded s.store := by
  obtain ⟨used, s, hn, hs⟩ := @Named.test _ _ _ _ _ _ (visit plainDrawables) _ newId
    (arrivals derbyDb ["ann@mail.com", "bob@mail.com"]) named conversation
    (fun s => decide (s.store.comments.toList.map (fun e => (e.1, e.2.links)) =
      [(thirdId, ⟨derbyId, firstId, secondId⟩), (secondId, ⟨derbyId, firstId, firstId⟩), (firstId, ⟨derbyId, "", ""⟩)]))
    (by decide) (by decide)
  refine ⟨used, s, hn, of_decide_eq_true hs, threads_linked rfl (fun id post hpost => ?_) hn⟩
  have hall : ∀ e ∈ derbyDb.posts.toList, e.2.comments = [] := by decide
  exact hall _ (DocStore.Collection.mem_toList.mpr hpost)

end Threads
end FootballGallery
