/-
# The comments on a page

A page shows copies of stored comments and writes them back whole when they are
liked or get a yellow card. What says where a comment stands, its post, the
comment it answers and the one it mentions, is never changed by that: a stored
comment keeps its links for good, and so a copy has the links of its original,
however old it is.

Key definitions: `Links`, `LinkedAs`, `Copy`, `KeepsLinks`, `Copies`, `MsgCopies`.
Key theorems: `msgCopies_exec`, `copies_tapped`, `copies_replied`.
-/
import FootballGallery.Forum
import FootballGallery.OwnPost

namespace FootballGallery

open DBUtil DocStore Async

/-- Where a comment stands. -/
structure Links where
  postId : String
  parentId : String
  mentionId : String
deriving DecidableEq

def CommentDoc.links (d : CommentDoc) : Links := ⟨d.postId, d.parentId, d.mentionId⟩

def Comment.links (c : Comment) : Links := ⟨c.mPostId, c.mParentId, c.mMentionId⟩

namespace CommentCopies

/-- The comment `id` is stored, with the links `l`. -/
def LinkedAs (db : Database) (id : String) (l : Links) : Prop :=
  ∃ d, db.comments.get id = some d ∧ d.links = l

/-- `c` is a copy of a stored comment. -/
def Copy (db : Database) (c : Comment) : Prop := LinkedAs db c.mId c.links

/-- Stored comments stay, with their links. -/
def KeepsLinks (db db' : Database) : Prop := ∀ id l, LinkedAs db id l → LinkedAs db' id l

/-- The comments that the page shows and the one it has put aside are copies. -/
structure Copies (db : Database) (p : ForumDetail) : Prop where
  comments : ∀ c ∈ p.mComments, Copy db c
  comment : ∀ c ∈ p.mComment, Copy db c

/-- What the message brings are copies, and what it writes over has the links it writes. -/
def MsgCopies (db : Database) (b : Request ⊕ Intent) : Prop :=
  match b with
  | .inl (.updateComment _ id doc) => LinkedAs db id doc.links
  | .inl (.deleteComment ..) => False
  | .inl (.getCommentsStepThree _ es ..) | .inl (.getCommentsStepFour _ es ..) =>
      ∀ e ∈ es, LinkedAs db e.1 e.2.links
  | .inr ⟨_, _, some (.comments cs)⟩ => ∀ c ∈ cs, Copy db c
  | _ => True

/-- The message does not write a comment over a stored one. -/
def NewComment (db : Database) (q : Request) : Prop :=
  match q with
  | .setComment _ id _ => db.comments.get id = none
  | _ => True

variable {db db' : Database}

theorem LinkedAs.unique {id : String} {l l' : Links} (h : LinkedAs db id l) (h' : LinkedAs db id l') :
    l = l' := by
  obtain ⟨d, hd, rfl⟩ := h
  obtain ⟨d', hd', rfl⟩ := h'
  rw [Option.some.inj (hd.symm.trans hd')]

theorem LinkedAs.ne_noId {id : String} {l : Links} (h : LinkedAs db id l) : id ≠ "" := by
  obtain ⟨d, hd, -⟩ := h
  exact Collection.ne_of_get hd

theorem KeepsLinks.refl (db : Database) : KeepsLinks db db := fun _ _ => id

/-- Other collections do not matter. -/
theorem KeepsLinks.of_comments (h : db'.comments = db.comments) : KeepsLinks db db' := by
  rintro id l ⟨d, hd, hl⟩
  exact ⟨d, by rw [h]; exact hd, hl⟩

/-- A comment under a new id leaves the others alone. -/
theorem KeepsLinks.setNew {id : String} (doc : CommentDoc) (h : db.comments.get id = none) :
    KeepsLinks db { db with comments := db.comments.set id doc } := by
  rintro id' l ⟨d, hd, hl⟩
  have hne : id' ≠ id := by
    rintro rfl
    rw [h] at hd
    cases hd
  exact ⟨d, by rw [← hd]; exact Collection.get_set_ne _ _ hne, hl⟩

/-- A comment written over with its own links keeps them. -/
theorem KeepsLinks.setSame {id : String} {doc : CommentDoc} (h : LinkedAs db id doc.links) :
    KeepsLinks db { db with comments := db.comments.set id doc } := by
  intro id' l hl
  by_cases hid : id' = id
  · rw [hid] at hl ⊢
    exact ⟨doc, Collection.get_set_self _ _ h.ne_noId, h.unique hl⟩
  · obtain ⟨d, hd, hl⟩ := hl
    exact ⟨d, by rw [← hd]; exact Collection.get_set_ne _ _ hid, hl⟩

theorem Copies.mono {p : ForumDetail} (h : Copies db p) (hk : KeepsLinks db db') : Copies db' p :=
  ⟨fun c hc => hk _ _ (h.comments c hc), fun c hc => hk _ _ (h.comment c hc)⟩

theorem MsgCopies.mono {b : Request ⊕ Intent} (h : MsgCopies db b) (hk : KeepsLinks db db') :
    MsgCopies db' b := by
  unfold MsgCopies at h ⊢
  split at h
  · exact hk _ _ h
  · exact h
  · exact fun e he => hk _ _ (h e he)
  · exact fun e he => hk _ _ (h e he)
  · exact fun c hc => hk _ _ (h c hc)
  · trivial

/-! ### The backend -/

section Exec

variable {q : Request} {out : List (Request ⊕ Intent)}

/-- What a task goes on with. -/
theorem msgCopies_one {b : Request ⊕ Intent} (hb : MsgCopies db b) :
    KeepsLinks db db ∧ ∀ b' ∈ [b], MsgCopies db b' :=
  ⟨.refl db, List.forall_mem_singleton.mpr hb⟩

theorem KeepsLinks.wrote (hw : Wrote db q db') (hq : MsgCopies db (.inl q)) (hnew : NewComment db q) :
    KeepsLinks db db' := by
  cases hw with
  | setComment => exact .setNew _ hnew
  | updateComment hu =>
    obtain ⟨old, hold, rfl⟩ := Collection.update_eq_some hu
    exact .setSame hq
  | deleteComment => exact hq.elim
  | _ => exact .of_comments rfl

/-- The snapshots that step two takes are copies. -/
theorem linkedAs_stepTwo {ids uids : List String} {es : List ((String × CommentDoc) × User)}
    (he : stepTwo db ids uids = some es) : ∀ e ∈ es.map (·.1), LinkedAs db e.1 e.2.links := by
  intro e hin
  obtain ⟨x, hx, rfl⟩ := List.mem_map.mp hin
  obtain ⟨y, hy, hf⟩ := OwnPost.mem_of_mapM he x hx
  obtain ⟨doc1, hdoc1, hf⟩ := Option.bind_eq_some_iff.mp hf
  obtain ⟨doc2, -, hf⟩ := Option.bind_eq_some_iff.mp hf
  obtain rfl := Option.some.inj hf
  exact ⟨doc1, hdoc1, rfl⟩

/-- Step four makes each comment from a snapshot. -/
theorem mem_stepFour {es : List (String × CommentDoc)} {us : List User} {ns : List String}
    {cs : List Comment} (hcs : stepFour db es us ns = some cs) :
    ∀ c ∈ cs, ∃ e ∈ es, c.mId = e.1 ∧ c.links = e.2.links := by
  intro c hc
  obtain ⟨names, -, rfl⟩ := Option.map_eq_some_iff.mp hcs
  obtain ⟨x, hx, rfl⟩ := List.mem_map.mp hc
  exact ⟨x.1.1, (List.of_mem_zip (List.of_mem_zip hx).1).1, rfl, rfl⟩

/-- Step four makes copies of copies. -/
theorem copy_stepFour {es : List (String × CommentDoc)} {us : List User} {ns : List String}
    {cs : List Comment} (h : ∀ e ∈ es, LinkedAs db e.1 e.2.links) (hcs : stepFour db es us ns = some cs) :
    ∀ c ∈ cs, Copy db c := by
  intro c hc
  obtain ⟨e, he, hid, hlinks⟩ := mem_stepFour hcs c hc
  unfold Copy
  rw [hid, hlinks]
  exact h e he

/-- The backend keeps all links, and what it sends are copies. -/
theorem msgCopies_exec {ok : Bool} (h : exec ok db q = some (db', out)) (hq : MsgCopies db (.inl q))
    (hnew : NewComment db q) : KeepsLinks db db' ∧ ∀ b ∈ out, MsgCopies db' b := by
  cases executed_exec h with
  | wrote hw =>
    exact ⟨.wrote hw hq hnew, List.forall_mem_singleton.mpr trivial⟩
  | fails hall =>
    refine ⟨.refl db, fun b hb => ?_⟩
    obtain rfl := hall b hb
    trivial
  | getCommentsStepTwo hes => exact msgCopies_one (linkedAs_stepTwo hes)
  | getCommentsStepThree => exact msgCopies_one hq
  | getCommentsStepFour hcs => exact msgCopies_one (copy_stepFour hq hcs)
  | _ => exact msgCopies_one trivial

end Exec

/-! ### The page -/

section Page

open ForumDetailActivity

variable {d : Drawables} {p p' : ForumDetail} {qs : List Request}

/-- A page without comments. -/
theorem copies_nothing (hcomments : p.mComments = []) (hcomment : p.mComment = none) : Copies db p := by
  refine ⟨fun c hc => ?_, fun c hc => ?_⟩
  · rw [hcomments] at hc
    cases hc
  · rw [hcomment] at hc
    cases hc

/-- A comment of the page is changed in place and put aside; its links stay. -/
theorem Copies.setComment (hp : Copies db p) {pos : ℕ} {c : Comment} (hc : Copy db c) :
    Copies db { p with mComments := p.mComments.set pos c, mComment := some c } where
  comments := by
    intro c' hc'
    rcases List.mem_or_eq_of_mem_set hc' with hc' | rfl
    · exact hp.comments c' hc'
    · exact hc
  comment := by
    intro c' hc'
    rw [← Option.some.inj hc']
    exact hc

theorem copies_tapped {a : Action} (h : Tapped d p a p' qs) (hp : Copies db p) :
    Copies db p' ∧ ∀ q ∈ qs, MsgCopies db (.inl q) := by
  cases h with
  | quiet hk _ hs =>
    refine ⟨⟨?_, ?_⟩, List.forall_mem_nil _⟩
    · rw [hs.1]
      exact hp.comments
    · rw [hk.comment]
      exact hp.comment
  | resume => exact ⟨hp, List.forall_mem_singleton.mpr trivial⟩
  | comment => exact ⟨⟨hp.comments, hp.comment⟩, List.forall_mem_singleton.mpr trivial⟩
  | like =>
    refine ⟨⟨hp.comments, hp.comment⟩, fun q hq => ?_⟩
    obtain ⟨op, rfl⟩ := mem_userUpdateValue hq
    trivial
  | ycard => exact ⟨hp, List.forall_mem_singleton.mpr trivial⟩
  | commentLike _ hc =>
    have hcopy := hp.comments _ (List.mem_of_getElem? hc)
    exact ⟨hp.setComment hcopy, List.forall_mem_singleton.mpr trivial⟩
  | commentYCard _ hc =>
    have hcopy := hp.comments _ (List.mem_of_getElem? hc)
    exact ⟨hp.setComment hcopy, List.forall_mem_singleton.mpr trivial⟩
  | delete => exact ⟨hp, List.forall_mem_singleton.mpr trivial⟩

theorem copies_replied {i : Intent} (h : Replied d p i p' qs) (hp : Copies db p)
    (hi : MsgCopies db (.inr i)) : Copies db p' ∧ ∀ q ∈ qs, MsgCopies db (.inl q) := by
  cases h with
  | ignored => exact ⟨hp, List.forall_mem_nil _⟩
  | currentUser => exact ⟨⟨hp.comments, hp.comment⟩, List.forall_mem_singleton.mpr trivial⟩
  | author => exact ⟨⟨hp.comments, hp.comment⟩, List.forall_mem_singleton.mpr trivial⟩
  | deletedInPosts => exact ⟨hp, List.forall_mem_singleton.mpr trivial⟩
  | deletedInUsers => exact ⟨⟨hp.comments, hp.comment⟩, List.forall_mem_nil _⟩
  | fields => exact ⟨⟨hp.comments, hp.comment⟩, List.forall_mem_singleton.mpr trivial⟩
  | @comments x p₁ ha _ hx hpop =>
    obtain ⟨hk, -, -⟩ := populateInfo_kept hpop
    obtain ⟨hcomments, -⟩ := populateInfo_shows hpop
    refine ⟨⟨?_, ?_⟩, List.forall_mem_nil _⟩
    · show ∀ c ∈ p₁.mComments, Copy db c
      rw [hcomments]
      obtain ⟨a, r, e⟩ := i
      obtain rfl : e = x.map .comments := hx
      cases x with
      | none => exact hp.comments
      | some cs => exact hi
    · show ∀ c ∈ p₁.mComment, Copy db c
      rw [hk.comment]
      exact hp.comment
  | again => exact ⟨hp, List.forall_mem_singleton.mpr trivial⟩
  | value => exact ⟨⟨hp.comments, hp.comment⟩, List.forall_mem_singleton.mpr trivial⟩
  | post => exact ⟨hp, List.forall_mem_singleton.mpr trivial⟩
  | ycard => exact ⟨⟨hp.comments, hp.comment⟩, List.forall_mem_singleton.mpr trivial⟩
  | comment _ _ hc => exact ⟨hp, List.forall_mem_singleton.mpr (hp.comment _ hc)⟩

end Page

end CommentCopies
end FootballGallery
