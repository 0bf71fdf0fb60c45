/-
# Where a reply goes

The page keeps the target of a reply in two fields, the comment to be mentioned
and the comment it stands under, and shows the name of its author in a banner.
A tap on reply sets all three and the undo button clears them. What the
handlers of the backend's replies do to them is one of three things: nothing,
clear all three, or clear the fields alone. The first comments to arrive are the
first to clear all three, and give the buttons their listeners: until then the
banner is the layout's.

Key definitions: `replyTarget`, `AimsAt`, `Aimed`, `Retargeted`.
Key theorems: `aimed_act`, `retargeted_replied`.
-/
import FootballGallery.ForumSteps

namespace FootballGallery
namespace ForumDetailActivity

/-- The comment that a reply to `c` stands under. -/
def topOf (c : Comment) : String := if c.mParentId.length ≤ 0 then c.mId else c.mParentId

/-- The comment whose reply button the tap `a` hits. -/
def replyTarget (p : ForumDetail) : Action → Option Comment
  | .onReplyClick pos => if p.populated then p.mComments[pos]? else none
  | _ => none

structure SameTarget (p p' : ForumDetail) : Prop where
  parentId : p'.mCurrentParentId = p.mCurrentParentId
  mentionId : p'.mCurrentMentionId = p.mCurrentMentionId
  banner : p'.mTv_reply_desc = p.mTv_reply_desc
  populated : p'.populated = p.populated

/-- The page as its layout has it. -/
structure Untouched (p : ForumDetail) : Prop where
  parentId : p.mCurrentParentId = ""
  mentionId : p.mCurrentMentionId = ""
  banner : p.mTv_reply_desc = some "username"
  populated : p.populated = false

structure NoTarget (p : ForumDetail) : Prop where
  populated : p.populated = true
  parentId : p.mCurrentParentId = ""
  mentionId : p.mCurrentMentionId = ""
  banner : p.mTv_reply_desc = none

/-- The next comment is a reply to `c`. -/
structure AimsAt (c : Comment) (p : ForumDetail) : Prop where
  populated : p.populated = true
  parentId : p.mCurrentParentId = topOf c
  mentionId : p.mCurrentMentionId = c.mId
  banner : p.mTv_reply_desc = some c.mAuthor.mUName

/-- What the tap `a` makes of the target. -/
inductive Aimed (p : ForumDetail) (a : Action) (p' : ForumDetail) : Prop
  | keeps (hr : replyTarget p a = none) (h : SameTarget p p')
  | clears (hr : replyTarget p a = none) (h : NoTarget p')
  | aims {c} (hr : replyTarget p a = some c) (hc : c ∈ p.mComments) (h : AimsAt c p')

/-- What a reply with the action `b` makes of the target. -/
inductive Retargeted (p : ForumDetail) (b : String) (p' : ForumDetail) : Prop
  | keeps (h : SameTarget p p')
  | clears (h : NoTarget p')
  | clearsIds (hb : b = updateValue) (hparent : p'.mCurrentParentId = "") (hmention : p'.mCurrentMentionId = "")
      (hbanner : p'.mTv_reply_desc = p.mTv_reply_desc) (hpop : p'.populated = p.populated)

variable {d : Drawables} {p p' : ForumDetail} {qs : List Request}

theorem SameTarget.noTarget (h : SameTarget p p') (hp : NoTarget p) : NoTarget p' :=
  ⟨h.populated.trans hp.populated, h.parentId.trans hp.parentId, h.mentionId.trans hp.mentionId,
    h.banner.trans hp.banner⟩

theorem SameTarget.aimsAt {c : Comment} (h : SameTarget p p') (hp : AimsAt c p) : AimsAt c p' :=
  ⟨h.populated.trans hp.populated, h.parentId.trans hp.parentId, h.mentionId.trans hp.mentionId,
    h.banner.trans hp.banner⟩

theorem SameTarget.untouched (h : SameTarget p p') (hp : Untouched p) : Untouched p' :=
  ⟨h.parentId.trans hp.parentId, h.mentionId.trans hp.mentionId, h.banner.trans hp.banner,
    h.populated.trans hp.populated⟩

theorem SameTarget.refl (p : ForumDetail) : SameTarget p p := ⟨rfl, rfl, rfl, rfl⟩

theorem noTarget_toggleReplyPopup (hpop : p.populated = true) (uname : String) :
    NoTarget (toggleReplyPopup false uname p) := ⟨hpop, rfl, rfl, rfl⟩

theorem onLikeClick_target (p : ForumDetail) (pos : ℕ) (viewId : ℤ) :
    SameTarget p (onLikeClick d p pos viewId).1 := by
  unfold onLikeClick
  split
  · exact .refl p
  · split
    exact ⟨rfl, rfl, rfl, rfl⟩

theorem onYCardClick_target (p : ForumDetail) (pos : ℕ) : SameTarget p (onYCardClick p pos).1 := by
  unfold onYCardClick
  split
  · exact .refl p
  · exact ⟨rfl, rfl, rfl, rfl⟩

theorem onCommentTap_target (p : ForumDetail) (id : String) : SameTarget p (onCommentTap p id).1 := by
  unfold onCommentTap
  split
  · exact .refl p
  · split
    · exact ⟨rfl, rfl, rfl, rfl⟩
    · exact .refl p

theorem aimed_act (d : Drawables) (p : ForumDetail) (a : Action) : Aimed p a (act d p a).1 := by
  have hif : ∀ {b : Bool} {x : ForumDetail × List Request}, SameTarget p x.1 →
      SameTarget p (if b then x else (p, [])).1 := by
    intro b x hx
    cases b with
    | true => exact hx
    | false => exact .refl p
  cases a with
  | typeComment text => exact .keeps rfl ⟨rfl, rfl, rfl, rfl⟩
  | onCommentTap id => exact .keeps rfl (hif (onCommentTap_target p id))
  | onLikeIconTap =>
    refine .keeps rfl (hif ?_)
    exact ⟨rfl, rfl, rfl, rfl⟩
  | onYCardIconTap =>
    refine .keeps rfl (hif ?_)
    exact .refl p
  | onLikeClick pos viewId => exact .keeps rfl (hif (onLikeClick_target p pos viewId))
  | onYCardClick pos => exact .keeps rfl (hif (onYCardClick_target p pos))
  | onReplyClick pos =>
    by_cases hpop : p.populated = true
    · cases hc : p.mComments[pos]? with
      | none =>
        refine .keeps ?_ ?_
        · simp only [replyTarget, if_pos hpop, hc]
        · simp only [act, if_pos hpop, onReplyClick, hc]
          exact .refl p
      | some c =>
        have hact : (act d p (.onReplyClick pos)).1 = toggleReplyPopup true c.mAuthor.mUName
            { p with mCurrentParentId := topOf c, mCurrentMentionId := c.mId } := by
          simp only [act, if_pos hpop, onReplyClick, hc]
          rfl
        refine .aims (c := c) ?_ (List.mem_of_getElem? hc) ?_
        · simp only [replyTarget, if_pos hpop, hc]
        · rw [hact]
          exact ⟨hpop, rfl, rfl, rfl⟩
    · refine .keeps ?_ ?_
      · simp only [replyTarget, if_neg hpop]
      · simp only [act, if_neg hpop]
        exact .refl p
  | onUndoReplyTap =>
    by_cases hpop : p.populated = true
    · refine .clears rfl ?_
      simp only [act, if_pos hpop]
      exact noTarget_toggleReplyPopup hpop ""
    · refine .keeps rfl ?_
      simp only [act, if_neg hpop]
      exact .refl p
  | onDeleteMenu => exact .keeps rfl (.refl p)
  | onResume => exact .keeps rfl (.refl p)

theorem retargeted_replied {i : Intent} (h : Replied d p i p' qs) : Retargeted p i.action p' := by
  cases h with
  | comments _ _ _ hpop =>
    have hpopulated := populateInfo_populated hpop
    exact .clears ⟨hpopulated, rfl, rfl, rfl⟩
  | value ha => exact .clearsIds ha rfl rfl rfl rfl
  | _ => exact .keeps ⟨rfl, rfl, rfl, rfl⟩

end ForumDetailActivity
end FootballGallery
