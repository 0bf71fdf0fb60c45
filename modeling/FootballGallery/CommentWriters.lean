/-
# Writing a comment and loading it again

`DBUtil` writes a comment in three places and reads it in one. The writers put
all fields; `forum_create_comment` puts the description as it is displayed, and
the reader makes the comment with a constructor that has no likes and no yellow
cards and does not set them.

Key definitions: `Writer`, `Writer.requests`, `Writer.written`, `Reloaded`.
Key theorems: `carryOut_requests`, `mem_reload`, `reload_iff`.
-/
import FootballGallery.GetComments

namespace FootballGallery
namespace DBUtil

open DocStore.Collection

/-- The writers of a comment: `forum_create_comment`, the two cases of
`forum_update_comment_in_comments`, and `forum_update_like_on_comment`. -/
inductive Writer where
  | create | add | update | like (case : ℤ)
deriving DecidableEq

namespace Writer

def requests (fromHtml : String → String) (a : String) (c : Comment) : Writer → List Request
  | .create => forumCreateComment fromHtml a c
  | .add => forumUpdateCommentInComments a c caseAdd
  | .update => forumUpdateCommentInComments a c caseUpdate
  | .like case => forumUpdateLikeOnComment a c case

/-- The like count that a writer is given to write. -/
def likes (c : Comment) : Writer → ℤ
  | .like case => if case = caseAdd then c.mLikes + 1 else c.mLikes - 1
  | _ => c.mLikes

/-- The document that a writer leaves. -/
def written (fromHtml : String → String) (c : Comment) (w : Writer) : CommentDoc :=
  commentMap (if w = .create then c.getDesc fromHtml else c.getRawDesc) (w.likes c) c

/-- A writer that calls `update` needs a document. -/
def Possible (db : Database) (c : Comment) : Writer → Prop
  | .create | .add => True
  | .update | .like _ => (db.comments.get c.mId).isSome

end Writer

/-- What a comment that is loaded again shares with the comment `c` that `w` wrote. -/
structure Reloaded (w : Writer) (c c' : Comment) : Prop where
  id : c'.mId = c.mId
  postId : c'.mPostId = c.mPostId
  author : c'.mAuthor.mId = c.mAuthor.mId
  desc : c'.getRawDesc = c.getRawDesc
  likes : c'.mLikes = w.likes c
  ycards : c'.mYCards = c.mYCards
  parentId : c'.mParentId = c.mParentId
  mentionId : c'.mMentionId = c.mMentionId

section Reload

variable {fromHtml : String → String} {db : Database} {c : Comment} {w : Writer} {ids : List String}

/-- A writer leaves one document and nothing else. -/
theorem carryOut_requests (a : String) (hw : w.Possible db c) :
    carryOut db (w.requests fromHtml a c) =
      some { db with comments := db.comments.set c.mId (w.written fromHtml c) } := by
  have hupdate : ∀ doc, (db.comments.get c.mId).isSome →
      carryOut db [.updateComment a c.mId doc] =
        some { db with comments := db.comments.set c.mId doc } := fun doc h => by
    obtain ⟨d, hd⟩ := Option.isSome_iff_exists.mp h
    simp only [carryOut, exec, update_isSome hd, Option.bind_some]
  cases w with
  | create => rfl
  | add => rfl
  | update => exact hupdate _ hw
  | like case => exact hupdate _ hw

/-- The author that step two finds has the id it looked for. -/
theorem authorOf_mId (db : Database) (userId : String) : (authorOf db userId).mId = userId := by
  unfold authorOf
  split <;> rfl

theorem authored_set (ha : Authored db) (hauthor : (db.users.get c.mAuthor.mId).isSome) :
    Authored { db with comments := db.comments.set c.mId (w.written fromHtml c) } := by
  intro id d hd
  simp only at hd ⊢
  by_cases hid : c.mId = ""
  · exact ha id d (by simpa [DocStore.Collection.set, hid] using hd)
  · rw [get_set _ _ _ hid] at hd
    split at hd
    · obtain rfl := Option.some.inj hd
      exact hauthor
    · exact ha id d hd

/-- Writing a comment takes no mention's target away. -/
theorem mentions_set {d : CommentDoc} (h : Mentions db d) (doc : CommentDoc) (hid : c.mId ≠ "") :
    Mentions { db with comments := db.comments.set c.mId doc } d := by
  rcases h with h | h
  · exact .inl h
  · refine .inr ?_
    simp only [get_set _ _ _ hid]
    split
    · rfl
    · exact h

/-- The displayed description is the raw one only where no name is displayed. -/
theorem getDesc_eq_iff (hhtml : ∀ u, '@' ∈ (fromHtml ("<i>@" ++ u ++ " </i> ")).toList) :
    c.getDesc fromHtml = c.getRawDesc ↔ c.mMentionId = "" := by
  unfold Comment.getDesc Comment.getRawDesc
  by_cases hm : c.mMentionId = ""
  · rw [if_neg (by rw [length_pos_iff]; exact not_not.mpr hm)]
    exact iff_of_true rfl hm
  · rw [if_pos ((length_pos_iff _).mpr hm)]
    refine iff_of_false (fun h => ?_) hm
    have hlist := congrArg String.toList h
    rw [String.toList_append, List.append_left_eq_self] at hlist
    have hat := hhtml c.mMentionUsername
    rw [Comment.getMentionIdFormatted] at hlist
    rw [hlist] at hat
    cases hat

variable (ha : Authored db) (hid : c.mId ≠ "") (hauthor : (db.users.get c.mAuthor.mId).isSome)
  (hmention : c.mMentionId = "" ∨ (db.comments.get c.mMentionId).isSome) (hw : w.Possible db c)
  (hids : c.mId ∈ ids)
  (hothers : ∀ id ∈ ids, id ≠ c.mId → ∀ d, db.comments.get id = some d → Mentions db d)
  (hhtml : ∀ u, '@' ∈ (fromHtml ("<i>@" ++ u ++ " </i> ")).toList)

include ha hid hauthor hmention hids hothers in
/-- The load after the write has one comment with the id of the written one. -/
theorem mem_reload (a : String) (i : Intent) (c' : Comment) :
    let db' : Database := { db with comments := db.comments.set c.mId (w.written fromHtml c) }
    (Answers db' (forumGetComments a ids) i ∧ c' ∈ commentsOf i ∧ c'.mId = c.mId) ↔
      i = loadAnswer db' a ids ∧ c' = loaded db' (c.mId, w.written fromHtml c) := by
  intro db'
  have hm : ∀ e ∈ listed db' ids, Mentions db' e.2 := by
    rintro ⟨id, d⟩ he
    obtain ⟨hget, hmem⟩ := mem_listed.mp he
    refine mentions_set ?_ _ hid
    simp only [db', get_set _ _ _ hid] at hget
    split at hget
    · obtain rfl := Option.some.inj hget
      exact hmention
    · rename_i hne
      exact hothers id hmem hne d hget
  rw [answers_iff (authored_set ha hauthor) hm]
  refine and_congr_right ?_
  rintro rfl
  rw [commentsOf_loadAnswer]
  have hself : (c.mId, w.written fromHtml c) ∈ listed db' ids :=
    mem_listed.mpr ⟨get_set_self _ _ hid, hids⟩
  constructor
  · rintro ⟨hc', heq⟩
    obtain ⟨⟨id, d⟩, he, rfl⟩ := List.mem_map.mp hc'
    obtain rfl : id = c.mId := heq
    have hd : d = w.written fromHtml c :=
      Option.some.inj ((mem_listed.mp he).1.symm.trans (mem_listed.mp hself).1)
    rw [hd]
  · rintro rfl
    exact ⟨List.mem_map_of_mem hself, rfl⟩

include ha hid hauthor hmention hw hids hothers hhtml in
/-- **A written comment is loaded again as it was exactly when there was nothing to
lose**: no like to write, no yellow card, and no mention before the description
that `forum_create_comment` writes. -/
theorem reload_iff (a b : String) :
    (∃ db' i c', carryOut db (w.requests fromHtml a c) = some db' ∧
        Answers db' (forumGetComments b ids) i ∧ c' ∈ commentsOf i ∧ Reloaded w c c') ↔
      w.likes c = 0 ∧ c.mYCards = 0 ∧ (w = .create → c.mMentionId = "") := by
  have hmem := @mem_reload fromHtml db c w ids ha hid hauthor hmention hids hothers b
  have hdesc : (w.written fromHtml c).description = c.getRawDesc ↔ (w = .create → c.mMentionId = "") := by
    unfold Writer.written commentMap
    by_cases hcreate : w = .create
    · rw [if_pos hcreate, getDesc_eq_iff hhtml]
      exact ⟨fun h _ => h, fun h => h hcreate⟩
    · rw [if_neg hcreate]
      exact iff_of_true rfl fun h => absurd h hcreate
  constructor
  · rintro ⟨db', i, c', hrun, hi, hc', hre⟩
    obtain rfl := Option.some.inj ((carryOut_requests a hw).symm.trans hrun)
    obtain ⟨-, rfl⟩ := (hmem i c').mp ⟨hi, hc', hre.id⟩
    exact ⟨hre.likes.symm, hre.ycards.symm, hdesc.mp hre.desc⟩
  · rintro ⟨hlikes, hycards, hcreate⟩
    obtain ⟨hi, hc', -⟩ := (hmem _ _).mpr ⟨rfl, rfl⟩
    refine ⟨_, _, _, carryOut_requests a hw, hi, hc', ?_⟩
    exact ⟨rfl, rfl, authorOf_mId _ _, hdesc.mpr hcreate, hlikes.symm, hycards.symm, rfl, rfl⟩

end Reload

/-! Bob has liked ann's comment, and answers it. -/

def annsDb : Database where
  posts := .empty
  comments := DocStore.Collection.empty.set "comment_01-01-2022-08-00-00"
    ⟨"Well played.", "post_01-01-2022-07-00-00", "ann@mail.com", 0, 0, "", ""⟩
  users := (DocStore.Collection.empty.set "ann@mail.com" ⟨"ann", "", 0, 12, [], [], [], [], []⟩).set
    "bob@mail.com" ⟨"bob", "", 1, 3, [], [], [], ["comment_01-01-2022-08-00-00"], []⟩
  accounts := .empty

def likedComment : Comment :=
  { (Comment.new "comment_01-01-2022-08-00-00" "post_01-01-2022-07-00-00" (.brief "ann@mail.com" "ann" 0 12)
      "" "Well played." "" "") with mLikes := 1 }

def bobsReply : Comment :=
  Comment.new "comment_01-01-2022-09-00-00" "post_01-01-2022-07-00-00" (.brief "bob@mail.com" "bob" 1 3)
    "ann" "Hardly." "comment_01-01-2022-08-00-00" "comment_01-01-2022-08-00-00"

/-- `Html.fromHtml` on bob's reply. -/
def italic (s : String) : String := if s = "<i>@ann </i> " then "@ann " else s

theorem at_mem_italic (u : String) : '@' ∈ (italic ("<i>@" ++ u ++ " </i> ")).toList := by
  unfold italic
  split
  · decide
  · simp

theorem like_not_reloaded :
    ¬ ∃ db' i c', carryOut annsDb (Writer.update.requests italic "COMMENT_UPDATE_LIKE_VALUE" likedComment) =
        some db' ∧ Answers db' (forumGetComments "FORUM_GET_COMMENTS" ["comment_01-01-2022-08-00-00"]) i ∧
      c' ∈ commentsOf i ∧ Reloaded .update likedComment c' := by
  rintro ⟨db', i, c', hrun, hi, hc', hre⟩
  have hpossible : Writer.Possible annsDb likedComment .update :=
    show (annsDb.comments.get likedComment.mId).isSome from by decide
  obtain rfl := Option.some.inj ((carryOut_requests _ hpossible).symm.trans hrun)
  obtain ⟨-, rfl⟩ := (@mem_reload italic annsDb likedComment .update ["comment_01-01-2022-08-00-00"]
    (by decide) (by decide) (by decide) (.inl rfl) (by decide)
    (fun id hid hne => absurd (List.mem_singleton.mp hid) hne) _ i c').mp ⟨hi, hc', hre.id⟩
  exact absurd hre.likes (by decide)

theorem reload_iff_bobsReply :
    (∃ db' i c', carryOut annsDb (Writer.create.requests italic "CREATE_COMMENT" bobsReply) = some db' ∧
        Answers db' (forumGetComments "FORUM_GET_COMMENTS" ["comment_01-01-2022-09-00-00"]) i ∧
        c' ∈ commentsOf i ∧ Reloaded .create bobsReply c') ↔
      Writer.create.likes bobsReply = 0 ∧ bobsReply.mYCards = 0 ∧
        (Writer.create = .create → bobsReply.mMentionId = "") :=
  @reload_iff italic annsDb bobsReply .create ["comment_01-01-2022-09-00-00"]
    (by decide) (by decide) (by decide) (by decide) trivial (by decide)
    (fun id hid hne => absurd (List.mem_singleton.mp hid) hne) at_mem_italic _ _

end DBUtil
end FootballGallery
