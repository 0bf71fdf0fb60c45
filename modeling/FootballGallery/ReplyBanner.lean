/-
# The reply banner

The banner says "Replying to X", and the next comment answers the comment that
the page has in its two target fields. A tap on reply and the undo button set
the three together, and so does a load of the comments. The reply to a post's
update, after a comment, clears the fields and leaves the banner where it is:
from then until the comments are loaded again, a banner put up meanwhile names
somebody whom the next comment will not answer. And before the comments are loaded
for the first time the page shows the banner of its layout, which names nobody.

Each page of this module carries a note of the comment whose reply button was
tapped last.

Key definitions: `replying`, `openNoted`, `bannerDown`, `Aiming`, `Honest`.
Key theorems: `aiming_of_reach`, `honest_of_reach`.
-/
import FootballGallery.CommentCopies
import FootballGallery.CommentReactions
import FootballGallery.ReplyTarget

namespace FootballGallery
namespace ReplyBanner

open DBUtil DocStore Async Forum ForumDetailActivity CommentCopies

/-- The pages, with the comment whose reply button was tapped last. -/
def replying (d : Drawables) : App Database (ForumDetail × Option Comment) Request Intent Action Tag :=
  (forum d).noting fun p a tapped => (replyTarget p a).or tapped

abbrev NotedConf := Conf Database (ForumDetail × Option Comment) Request Intent Tag

/-- The pages `opened` on the database `db`; no reply button has been tapped. -/
def openNoted (d : Drawables) (db : Database) (opened : List Opened) : NotedConf where
  store := db
  client i := opened[i]?.map fun o => (o.page, none)
  net := (openPages d db opened).net

/-- The reply to a post's update arrives on pages without a banner only. -/
def bannerDown (s : NotedConf) : Ev Action → Bool
  | .deliver n => s.net[n]?.all fun m =>
      m.body.elim (fun _ => true) (·.action != updateValue) ||
        (s.client m.client).all (·.1.mTv_reply_desc.isNone)
  | _ => true

/-- A comment posted from the page `p` is stored under `parentId`, with `mentionId` mentioned. -/
def StoredUnder (d : Drawables) (p : ForumDetail) (parentId mentionId : String) : Prop :=
  ∀ id db db' out q, id ≠ "" → q ∈ (act d p (.onCommentTap id)).2 → exec true db q = some (db', out) →
    ∃ doc, db'.comments.get id = some doc ∧ doc.parentId = parentId ∧ doc.mentionId = mentionId

/-- The banner of the page `p` says what the next comment answers: the comment
`tapped`, or none. -/
structure Honest (d : Drawables) (p : ForumDetail) (tapped : Option Comment) : Prop where
  shows : p.mTv_reply_desc.isSome ↔ p.mCurrentParentId ≠ "" ∧ p.mCurrentMentionId ≠ ""
  names : ∀ x ∈ p.mTv_reply_desc, ∃ c ∈ tapped, c.mAuthor.mUName = x ∧ p.mCurrentMentionId = c.mId ∧
    StoredUnder d p (topOf c) c.mId
  hidden : p.mTv_reply_desc = none → StoredUnder d p "" ""

/-! ### Comments have ids -/

/-- The comments that the message brings have ids. -/
def WithIds (b : Request ⊕ Intent) : Prop :=
  match b with
  | .inl (.getCommentsStepThree _ es ..) | .inl (.getCommentsStepFour _ es ..) => ∀ e ∈ es, e.1 ≠ ""
  | .inr ⟨_, _, some (.comments cs)⟩ => ∀ c ∈ cs, c.mId ≠ ""
  | _ => True

section Ids

variable {d : Drawables} {p p' : ForumDetail} {qs : List Request}

theorem withIds_exec {ok : Bool} {db db' : Database} {q : Request} {out : List (Request ⊕ Intent)}
    (h : exec ok db q = some (db', out)) (hq : WithIds (.inl q)) : ∀ b ∈ out, WithIds b := by
  cases executed_exec h with
  | fails hall =>
    intro b hb
    obtain rfl := hall b hb
    trivial
  | getCommentsStepTwo hes =>
    refine List.forall_mem_singleton.mpr fun e he => ?_
    have hlinked := linkedAs_stepTwo hes e he
    exact hlinked.ne_noId
  | getCommentsStepThree => exact List.forall_mem_singleton.mpr hq
  | getCommentsStepFour hcs =>
    refine List.forall_mem_singleton.mpr fun c hc => ?_
    obtain ⟨e, he, hid, -⟩ := mem_stepFour hcs c hc
    rw [hid]
    exact hq e he
  | _ => exact List.forall_mem_singleton.mpr trivial

theorem ids_set {cs : List Comment} (h : ∀ c ∈ cs, c.mId ≠ "") {pos : ℕ} {c : Comment} (hc : c.mId ≠ "") :
    ∀ c' ∈ cs.set pos c, c'.mId ≠ "" := by
  intro c' hc'
  rcases List.mem_or_eq_of_mem_set hc' with hc' | rfl
  · exact h c' hc'
  · exact hc

/-- A page starts a load of comments at its first step. -/
theorem withIds_tapped {a : Action} (h : Tapped d p a p' qs) (hp : ∀ c ∈ p.mComments, c.mId ≠ "") :
    (∀ c ∈ p'.mComments, c.mId ≠ "") ∧ ∀ q ∈ qs, WithIds (.inl q) := by
  cases h with
  | quiet _ _ hs =>
    refine ⟨?_, fun q hq => by cases hq⟩
    rw [hs.1]
    exact hp
  | like =>
    refine ⟨hp, fun q hq => ?_⟩
    obtain ⟨op, rfl⟩ := mem_userUpdateValue hq
    trivial
  | commentLike _ hc =>
    have hid := hp _ (List.mem_of_getElem? hc)
    exact ⟨ids_set hp hid, List.forall_mem_singleton.mpr trivial⟩
  | commentYCard _ hc =>
    have hid := hp _ (List.mem_of_getElem? hc)
    exact ⟨ids_set hp hid, List.forall_mem_singleton.mpr trivial⟩
  | _ => exact ⟨hp, List.forall_mem_singleton.mpr trivial⟩

theorem withIds_replied {i : Intent} (h : Replied d p i p' qs) (hp : ∀ c ∈ p.mComments, c.mId ≠ "")
    (hi : WithIds (.inr i)) : (∀ c ∈ p'.mComments, c.mId ≠ "") ∧ ∀ q ∈ qs, WithIds (.inl q) := by
  cases h with
  | ignored | deletedInUsers => exact ⟨hp, fun q hq => by cases hq⟩
  | @comments x p₁ _ _ hx hpop =>
    refine ⟨?_, fun q hq => by cases hq⟩
    show ∀ c ∈ p₁.mComments, c.mId ≠ ""
    rw [(populateInfo_shows hpop).1]
    obtain ⟨a, r, e⟩ := i
    obtain rfl : e = x.map .comments := hx
    cases x with
    | none => exact hp
    | some cs => exact hi
  | _ => exact ⟨hp, List.forall_mem_singleton.mpr trivial⟩

end Ids

/-! ### Runs -/

/-- The page is as its layout has it, has no target, or aims at the comment tapped last. -/
inductive Aiming (p : ForumDetail) (tapped : Option Comment) : Prop
  | untouched (h : Untouched p)
  | noTarget (h : NoTarget p)
  | aims {c} (hc : c ∈ tapped) (hid : c.mId ≠ "") (h : AimsAt c p)

section Runs

variable {d : Drawables} {p p' : ForumDetail} {tapped : Option Comment}

theorem Aiming.same (h : Aiming p tapped) (hs : SameTarget p p') : Aiming p' tapped := by
  cases h with
  | untouched h => exact .untouched (hs.untouched h)
  | noTarget h => exact .noTarget (hs.noTarget h)
  | aims hc hid h => exact .aims hc hid (hs.aimsAt h)

theorem aiming_act (a : Action) (hp : ∀ c ∈ p.mComments, c.mId ≠ "") (h : Aiming p tapped) :
    Aiming (act d p a).1 ((replyTarget p a).or tapped) := by
  cases aimed_act d p a with
  | keeps hr hs =>
    rw [hr, Option.none_or]
    exact h.same hs
  | clears hr hn =>
    rw [hr, Option.none_or]
    exact .noTarget hn
  | @aims c hr hc haim =>
    rw [hr, Option.some_or]
    exact .aims rfl (hp c hc) haim

theorem aiming_replied {i : Intent} {qs : List Request} (hr : Replied d p i p' qs)
    (hdown : i.action = updateValue → p.mTv_reply_desc = none) (h : Aiming p tapped) :
    Aiming p' tapped := by
  cases retargeted_replied hr with
  | keeps hs => exact h.same hs
  | clears hn => exact .noTarget hn
  | clearsIds hb hparent hmention hbanner hpop =>
    have hnone := hdown hb
    cases h with
    | untouched h => cases hnone.symm.trans h.banner
    | noTarget h => exact .noTarget ⟨hpop.trans h.populated, hparent, hmention, hbanner.trans hnone⟩
    | aims _ _ h => cases hnone.symm.trans h.banner

theorem parts (d : Drawables) :
    Parts (replying d) (fun s e => bannerDown s e = true) (fun _ => True)
      (fun r => (∀ c ∈ r.1.mComments, c.mId ≠ "") ∧ Aiming r.1 r.2) (fun m => WithIds m.body) where
  act s i a r r' qs _ hr ha hp := by
    obtain ⟨p', tapped'⟩ := r'
    obtain ⟨hact, rfl⟩ := App.act_noting ha
    obtain ⟨rfl, rfl⟩ := Prod.mk.inj (Option.some.inj hact)
    obtain ⟨hids, hqs⟩ := withIds_tapped (tapped_act d r.1 a) hp.1
    exact ⟨⟨hids, aiming_act a hp.1 hp.2⟩, hqs⟩
  exec s n b i t q st out _ _ he _ hq := ⟨trivial, withIds_exec he hq⟩
  recv s n i t m r r' qs ho hn hr hrecv hp hm := by
    obtain ⟨p', tapped'⟩ := r'
    obtain ⟨hrecv, rfl⟩ := App.recv_noting hrecv
    have hreplied := replied_onReceive hrecv
    obtain ⟨hids, hqs⟩ := withIds_replied hreplied hp.1 hm
    have hdown : m.action = updateValue → r.1.mTv_reply_desc = none := by
      intro haction
      simp only [bannerDown, hn, Option.all_some, Sum.elim_inr, haction, bne_self_eq_false, Bool.false_or,
        hr] at ho
      exact Option.isNone_iff_eq_none.mp ho
    exact ⟨⟨hids, aiming_replied hreplied hdown hp.2⟩, hqs⟩

/-- Every page is untouched, has no target or has the one tapped last. -/
theorem aiming_of_reach {db : Database} {opened : List Opened} {s : NotedConf}
    (h : Reach (replying d) (fun s e => bannerDown s e = true) (openNoted d db opened) s) {i : ℕ}
    {r : ForumDetail × Option Comment} (hr : s.client i = some r) : Aiming r.1 r.2 := by
  suffices h0 : (∀ i r, (openNoted d db opened).client i = some r →
      (∀ c ∈ r.1.mComments, c.mId ≠ "") ∧ Aiming r.1 r.2) ∧ ∀ m ∈ (openNoted d db opened).net, WithIds m.body from
    (((parts d).reach ⟨trivial, h0⟩ h).2.1 i r hr).2
  refine ⟨fun i r hr => ?_, fun m hm => ?_⟩
  · obtain ⟨o, -, rfl⟩ := Option.map_eq_some_iff.mp hr
    exact ⟨fun c hc => (by cases hc), .untouched ⟨rfl, rfl, rfl, rfl⟩⟩
  · obtain ⟨i, o, q, -, hq, rfl⟩ := @mem_openPages d db opened m hm
    rcases Opened.mem_requests hq with rfl | rfl <;> trivial

/-- A comment is stored where the target fields say. -/
theorem storedUnder_target (d : Drawables) (p : ForumDetail) :
    StoredUnder d p p.mCurrentParentId p.mCurrentMentionId := by
  intro id db db' out q hid hq he
  have ht := tapped_act d p (.onCommentTap id)
  generalize (act d p (.onCommentTap id)).2 = qs at ht hq
  generalize (act d p (.onCommentTap id)).1 = p' at ht
  cases ht with
  | quiet => cases hq
  | comment =>
    obtain rfl := List.mem_singleton.mp hq
    obtain ⟨rfl, -⟩ := Prod.mk.inj (Option.some.inj he)
    exact ⟨_, Collection.get_set_self _ _ hid, rfl, rfl⟩

theorem topOf_ne {c : Comment} (hid : c.mId ≠ "") : topOf c ≠ "" := by
  unfold topOf
  split
  · exact hid
  · rename_i hlen
    rintro heq
    rw [heq] at hlen
    exact hlen (Nat.le_refl _)

theorem NoTarget.honest (h : NoTarget p) : Honest d p tapped := by
  have hstored := storedUnder_target d p
  rw [h.parentId, h.mentionId] at hstored
  refine ⟨?_, fun x hx => ?_, fun _ => hstored⟩
  · rw [h.banner, h.parentId]
    simp
  · rw [h.banner] at hx
    cases hx

theorem AimsAt.honest {c : Comment} (hc : c ∈ tapped) (hid : c.mId ≠ "") (h : AimsAt c p) :
    Honest d p tapped := by
  have hstored := storedUnder_target d p
  rw [h.parentId, h.mentionId] at hstored
  refine ⟨?_, fun x hx => ?_, fun hnone => ?_⟩
  · rw [h.banner, h.parentId, h.mentionId]
    exact iff_of_true rfl ⟨topOf_ne hid, hid⟩
  · rw [h.banner] at hx
    exact ⟨c, hc, Option.some.inj hx, h.mentionId, hstored⟩
  · rw [h.banner] at hnone
    cases hnone

/-- The banner of the layout names nobody. -/
theorem Untouched.not_honest (h : Untouched p) : ¬ Honest d p tapped := by
  intro hhonest
  have hids := hhonest.shows.mp (by rw [h.banner]; rfl)
  exact hids.1 h.parentId

theorem Aiming.honest_iff (h : Aiming p tapped) : Honest d p tapped ↔ p.populated = true := by
  cases h with
  | untouched h =>
    refine iff_of_false (Untouched.not_honest h) ?_
    rw [h.populated]
    exact Bool.false_ne_true
  | noTarget h => exact iff_of_true (NoTarget.honest h) h.populated
  | aims hc hid h => exact iff_of_true (AimsAt.honest hc hid h) h.populated

/-- **The reply banner does not lie** on any page whose comments have arrived, whatever
its user taps and whatever replies arrive in whatever order, as long as none says
that a post has been updated while the banner shows. Before, it does lie. -/
theorem honest_of_reach {db : Database} {opened : List Opened} {s : NotedConf}
    (h : Reach (replying d) (fun s e => bannerDown s e = true) (openNoted d db opened) s) {i : ℕ}
    {r : ForumDetail × Option Comment} (hr : s.client i = some r) :
    Honest d r.1 r.2 ↔ r.1.populated = true :=
  Aiming.honest_iff (aiming_of_reach h hr)

end Runs

/-- Bob answers Ann's comment. -/
theorem honest_of_reach_derby :
    ∃ s r, Reach (replying plainDrawables) (fun s e => bannerDown s e = true)
        (openNoted plainDrawables commentedDb annAndBob) s ∧
      s.client 1 = some r ∧ r.1.populated = true ∧ r.1.mTv_reply_desc = some "ann" ∧
      Honest plainDrawables r.1 r.2 := by
  obtain ⟨s, hreach, hs⟩ := @reach_of_test _ _ _ _ _ _ (replying plainDrawables) bannerDown
    (openNoted plainDrawables commentedDb annAndBob) (loadingComment ++ [.act 1 (.onReplyClick 0)])
    (fun s => (s.client 1).any fun r => r.1.populated && r.1.mTv_reply_desc == some "ann") (by decide)
  obtain ⟨r, hr, htest⟩ := (Option.any_eq_true _ _).mp hs
  simp only [Bool.and_eq_true, beq_iff_eq] at htest
  exact ⟨s, r, hreach, hr, htest.1, htest.2, (honest_of_reach hreach hr).mpr htest.1⟩

/-- Bob comments, and taps reply on Ann's comment before his is listed: the banner
names Ann when the target is gone, and his next comment answers nobody. -/
theorem banner_left_up :
    ∃ s r, Reach (replying plainDrawables) (fun _ _ => true)
        (openNoted plainDrawables commentedDb annAndBob) s ∧
      s.client 1 = some r ∧ r.1.populated = true ∧ r.1.mTv_reply_desc = some "ann" ∧
      ¬ Honest plainDrawables r.1 r.2 ∧ StoredUnder plainDrawables r.1 "" "" := by
  obtain ⟨s, hreach, hs⟩ := @reach_of_test _ _ _ _ _ _ (replying plainDrawables) (fun _ _ => true)
    (openNoted plainDrawables commentedDb annAndBob)
    (loadingComment ++ [.act 1 (.typeComment "me too"), .act 1 (.onCommentTap secondId), carry, arrive,
      .act 1 (.onReplyClick 0), carry, arrive])
    (fun s => (s.client 1).any fun r => r.1.populated && r.1.mTv_reply_desc == some "ann" &&
      r.1.mCurrentParentId == "" && r.1.mCurrentMentionId == "") (by decide)
  obtain ⟨r, hr, htest⟩ := (Option.any_eq_true _ _).mp hs
  simp only [Bool.and_eq_true, beq_iff_eq] at htest
  obtain ⟨⟨⟨hpop, hbanner⟩, hparent⟩, hmention⟩ := htest
  have hstored := storedUnder_target plainDrawables r.1
  rw [hparent, hmention] at hstored
  refine ⟨s, r, hreach, hr, hpop, hbanner, fun hhonest => ?_, hstored⟩
  have hids := hhonest.shows.mp (by rw [hbanner]; rfl)
  exact hids.1 hparent

end ReplyBanner
end FootballGallery
