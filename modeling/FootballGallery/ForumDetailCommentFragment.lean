/-
# `b_core/ForumDetailCommentFragment`

The list of a post's comments as it is displayed: the comments are split into
those of the first layer and the replies, both are sorted by the dates of their
ids, and each comment of the first layer is followed by its replies.

Key definitions: `FlaggedComment`, `sortByDate`, `organizeComments`, `Organized`.
Key theorems: `sortByDate_spec`, `organizeComments_spec`.
-/
import Mathlib.Data.List.Sort
import FootballGallery.Lib.Buckets
import FootballGallery.Objects

namespace FootballGallery

open Buckets

/-- A comment with the flags that `setIsLiked` and `setIsYCarded` set. -/
structure FlaggedComment extends Comment where
  mIsLiked : Bool
  mIsYCarded : Bool
deriving DecidableEq

namespace ForumDetailCommentFragment

/-! ### The list -/

section TimeZone

-- the time zone of the client
variable (toInstant : ℤ → ℤ)

/-- `Comment.getDateDate` -/
def getDateDate (c : FlaggedComment) : Option ℤ := StringUtil.extractDateFromDocumentId toInstant c.mId

/-- `ArrayList.sort`, the oldest first. To compare with a date that is `null` throws; a
list of less than two comments is not compared at all. -/
def sortByDate (cs : List FlaggedComment) : Option (List FlaggedComment) :=
  if cs.length < 2 || cs.all fun c => (getDateDate toInstant c).isSome then
    some (cs.insertionSort fun o1 o2 => (getDateDate toInstant o1).getD 0 ≤ (getDateDate toInstant o2).getD 0)
  else none

def flag (mCurrUser : User) (comment : Comment) : FlaggedComment where
  toComment := comment
  mIsLiked := mCurrUser.mCommentLikes.contains comment.mId
  mIsYCarded := mCurrUser.mCommentYCards.contains comment.mId

/-- A comment of the first layer. -/
def isTop (c : FlaggedComment) : Bool := c.mParentId.length == 0

def isReplyTo (parent child : FlaggedComment) : Bool := child.mParentId == parent.mId

/-- `none`: it throws. -/
def organizeComments (mCurrUser : User) (mComments : List Comment) : Option (List FlaggedComment) :=
  let flagged := mComments.map (flag mCurrUser)
  (sortByDate toInstant (flagged.filter isTop)).bind fun layer1 =>
    (sortByDate toInstant (flagged.filter fun c => !isTop c)).map fun layer2 =>
      nested layer1 isReplyTo layer2

/-! ### What it shows -/

/-- The dates of both comments are there, and the first is not the later one. -/
def NotAfter (c c' : FlaggedComment) : Prop :=
  ∃ d ∈ getDateDate toInstant c, ∃ d' ∈ getDateDate toInstant c', d ≤ d'

/-- `l` has the comments `cs`, thread by thread and in order, with the user's flags. -/
structure Organized (mCurrUser : User) (cs : List Comment) (l : List FlaggedComment) : Prop where
  perm : (l.map (·.toComment)).Perm cs
  /-- each comment of the first layer and, right after it, all its replies -/
  threads : l = (l.filter isTop).flatMap fun p => p :: l.filter (isReplyTo p)
  tops : (l.filter isTop).Pairwise (NotAfter toInstant)
  replies : ∀ p ∈ l.filter isTop, (l.filter (isReplyTo p)).Pairwise (NotAfter toInstant)
  liked : ∀ c ∈ l, c.mIsLiked = true ↔ c.mId ∈ mCurrUser.mCommentLikes
  yCarded : ∀ c ∈ l, c.mIsYCarded = true ↔ c.mId ∈ mCurrUser.mCommentYCards

variable {toInstant} {mCurrUser : User} {cs l : List FlaggedComment}

theorem sortByDate_spec (h : ∀ c ∈ cs, (getDateDate toInstant c).isSome) :
    ∃ l, sortByDate toInstant cs = some l ∧ l.Perm cs ∧ l.Pairwise (NotAfter toInstant) := by
  have hperm := List.perm_insertionSort
    (fun o1 o2 : FlaggedComment => (getDateDate toInstant o1).getD 0 ≤ (getDateDate toInstant o2).getD 0) cs
  have hsorted := List.pairwise_insertionSort
    (fun o1 o2 : FlaggedComment => (getDateDate toInstant o1).getD 0 ≤ (getDateDate toInstant o2).getD 0) cs
  refine ⟨_, if_pos ?_, hperm, hsorted.imp_of_mem fun {c c'} hc hc' hle => ?_⟩
  · rw [Bool.or_eq_true, List.all_eq_true]
    exact .inr h
  · obtain ⟨d, hd⟩ := Option.isSome_iff_exists.mp (h c (hperm.mem_iff.mp hc))
    obtain ⟨d', hd'⟩ := Option.isSome_iff_exists.mp (h c' (hperm.mem_iff.mp hc'))
    rw [hd, hd'] at hle
    exact ⟨d, hd, d', hd', hle⟩

/-- An id with a date is not empty. -/
theorem id_ne_empty {c : FlaggedComment} (h : (getDateDate toInstant c).isSome) : c.mId ≠ "" := by
  intro hid
  unfold getDateDate at h
  rw [hid] at h
  revert h
  exact Bool.false_ne_true

theorem isTop_iff {c : FlaggedComment} : isTop c = true ↔ c.mParentId = "" := by
  unfold isTop
  rw [beq_iff_eq, String.length_eq_zero_iff]

/-! ### The join -/

variable (toInstant mCurrUser) in
/-- The two layers before the join: together the flagged comments, both in order, and
each reply with its parent in the first. -/
structure Layers (cs : List Comment) (layer1 layer2 : List FlaggedComment) : Prop where
  perm : (layer1 ++ layer2).Perm (cs.map (flag mCurrUser))
  top : ∀ p ∈ layer1, isTop p = true
  reply : ∀ c ∈ layer2, isTop c = false
  ids : (layer1.map (·.mId)).Nodup
  nonempty : ∀ p ∈ layer1, p.mId ≠ ""
  parents : ∀ c ∈ layer2, ∃ p ∈ layer1, isReplyTo p c = true
  sorted1 : layer1.Pairwise (NotAfter toInstant)
  sorted2 : layer2.Pairwise (NotAfter toInstant)

namespace Layers

variable {cs : List Comment} {layer1 layer2 : List FlaggedComment}

/-- Nobody replies to two comments. -/
theorem pairwise_isReplyTo (h : Layers toInstant mCurrUser cs layer1 layer2) (c : FlaggedComment) :
    layer1.Pairwise fun p q => isReplyTo p c = true → isReplyTo q c = false := by
  refine (List.pairwise_map.mp h.ids).imp fun hne hp => ?_
  unfold isReplyTo at hp ⊢
  rw [beq_eq_false_iff_ne, beq_iff_eq.mp hp]
  exact hne

/-- The first layer of the joined list. -/
theorem filter_isTop (h : Layers toInstant mCurrUser cs layer1 layer2) :
    (nested layer1 isReplyTo layer2).filter isTop = layer1 := filter_nested_keys h.top h.reply

/-- The replies of a thread. -/
theorem filter_isReplyTo (h : Layers toInstant mCurrUser cs layer1 layer2) {p : FlaggedComment}
    (hp : p ∈ layer1) : (nested layer1 isReplyTo layer2).filter (isReplyTo p) = layer2.filter (isReplyTo p) := by
  refine filter_nested_has hp (fun q hq => ?_) fun c _ => h.pairwise_isReplyTo c
  unfold isReplyTo
  rw [isTop_iff.mp (h.top q hq)]
  exact beq_eq_false_iff_ne.mpr (h.nonempty p hp).symm

/-- The joined list consists of threads. -/
theorem threads (h : Layers toInstant mCurrUser cs layer1 layer2) :
    nested layer1 isReplyTo layer2 = ((nested layer1 isReplyTo layer2).filter isTop).flatMap fun p =>
      p :: (nested layer1 isReplyTo layer2).filter (isReplyTo p) := by
  have hparts : ∀ p ∈ layer1, p :: (nested layer1 isReplyTo layer2).filter (isReplyTo p) =
      p :: layer2.filter (isReplyTo p) := by
    intro p hp
    rw [h.filter_isReplyTo hp]
  rw [h.filter_isTop, List.flatMap_def, List.map_congr_left hparts]
  rfl

/-- Nothing is lost. -/
theorem nested_perm (h : Layers toInstant mCurrUser cs layer1 layer2) :
    (nested layer1 isReplyTo layer2).Perm (cs.map (flag mCurrUser)) := by
  refine (Buckets.nested_perm.trans (List.Perm.append_left layer1 ?_)).trans h.perm
  have hall : layer2.filter (fun c => layer1.any fun p => isReplyTo p c) = layer2 := by
    rw [List.filter_eq_self]
    intro c hc
    exact List.any_eq_true.mpr (h.parents c hc)
  have hbuckets := buckets_perm (l := layer2) fun c _ => h.pairwise_isReplyTo c
  rwa [hall] at hbuckets

theorem organized (h : Layers toInstant mCurrUser cs layer1 layer2) :
    Organized toInstant mCurrUser cs (nested layer1 isReplyTo layer2) := by
  have hflags : ∀ c ∈ nested layer1 isReplyTo layer2, ∃ c' ∈ cs, flag mCurrUser c' = c := fun c hc =>
    List.mem_map.mp (h.nested_perm.mem_iff.mp hc)
  refine ⟨?_, h.threads, ?_, ?_, ?_, ?_⟩
  · have hmap := h.nested_perm.map (·.toComment)
    rw [List.map_map] at hmap
    exact hmap.trans (List.Perm.of_eq (List.map_id cs))
  · rw [h.filter_isTop]
    exact h.sorted1
  · intro p hp
    rw [h.filter_isTop] at hp
    rw [h.filter_isReplyTo hp]
    exact h.sorted2.filter _
  · intro c hc
    obtain ⟨c', -, rfl⟩ := hflags c hc
    exact List.contains_iff_mem
  · intro c hc
    obtain ⟨c', -, rfl⟩ := hflags c hc
    exact List.contains_iff_mem

end Layers

/-- **Organizing comments loses nothing and threads correctly**, when the ids are
distinct and have dates and each reply has its parent in the first layer. -/
theorem organizeComments_spec (toInstant : ℤ → ℤ) (mCurrUser : User) (cs : List Comment)
    (hids : (cs.map (·.mId)).Nodup)
    (hdates : ∀ c ∈ cs, (StringUtil.extractDateFromDocumentId toInstant c.mId).isSome)
    (hparents : ∀ c ∈ cs, c.mParentId ≠ "" → ∃ p ∈ cs, p.mParentId = "" ∧ p.mId = c.mParentId) :
    ∃ l, organizeComments toInstant mCurrUser cs = some l ∧ Organized toInstant mCurrUser cs l := by
  have hdated : ∀ c ∈ cs.map (flag mCurrUser), (getDateDate toInstant c).isSome := by
    intro c hc
    obtain ⟨c', hc', rfl⟩ := List.mem_map.mp hc
    exact hdates c' hc'
  obtain ⟨layer1, hsort1, hperm1, hsorted1⟩ := @sortByDate_spec toInstant
    ((cs.map (flag mCurrUser)).filter isTop) fun c hc => hdated c (List.mem_filter.mp hc).1
  obtain ⟨layer2, hsort2, hperm2, hsorted2⟩ := @sortByDate_spec toInstant
    ((cs.map (flag mCurrUser)).filter fun c => !isTop c) fun c hc => hdated c (List.mem_filter.mp hc).1
  have h1 : ∀ p ∈ layer1, p ∈ cs.map (flag mCurrUser) ∧ isTop p = true := fun p hp =>
    List.mem_filter.mp (hperm1.mem_iff.mp hp)
  have h2 : ∀ c ∈ layer2, c ∈ cs.map (flag mCurrUser) ∧ isTop c = false := by
    intro c hc
    obtain ⟨hmem, htop⟩ := List.mem_filter.mp (hperm2.mem_iff.mp hc)
    exact ⟨hmem, by simpa using htop⟩
  have hlayers : Layers toInstant mCurrUser cs layer1 layer2 := by
    refine ⟨(hperm1.append hperm2).trans (List.filter_append_perm _ _), fun p hp => (h1 p hp).2,
      fun c hc => (h2 c hc).2, ?_, fun p hp => id_ne_empty (hdated p (h1 p hp).1), ?_, hsorted1, hsorted2⟩
    · rw [(hperm1.map _).nodup_iff]
      refine List.Nodup.sublist (List.Sublist.map _ List.filter_sublist) ?_
      rw [List.map_map]
      exact hids
    · intro c hc
      obtain ⟨hmem, htop⟩ := h2 c hc
      obtain ⟨c', hcs, rfl⟩ := List.mem_map.mp hmem
      have hparent : c'.mParentId ≠ "" := fun h => by
        rw [isTop_iff.mpr h] at htop
        cases htop
      obtain ⟨p, hp, hptop, hpid⟩ := hparents c' hcs hparent
      refine ⟨flag mCurrUser p, hperm1.mem_iff.mpr (List.mem_filter.mpr ⟨List.mem_map_of_mem hp, ?_⟩), ?_⟩
      · exact isTop_iff.mpr hptop
      · exact beq_iff_eq.mpr hpid.symm
  refine ⟨nested layer1 isReplyTo layer2, ?_, hlayers.organized⟩
  unfold organizeComments
  simp only [hsort1, hsort2, Option.bind_some, Option.map_some]

/-! Two comments and a reply to the first, which the collection has before it. -/

def ann : User := { User.brief "ann@mail.com" "Ann" 0 0 with mCommentLikes := ["comment_02-01-2022-09-00-00"] }

def discussed : List Comment :=
  [Comment.new "comment_02-01-2022-09-00-00" "post_01-01-2022-08-00-00" ann "Bob" "so was I"
      "comment_01-01-2022-09-00-00" "",
    Comment.new "comment_01-01-2022-09-00-00" "post_01-01-2022-08-00-00" ann "" "I was there" "" "",
    Comment.new "comment_01-01-2022-10-00-00" "post_01-01-2022-08-00-00" ann "" "what a game" "" ""]

theorem discussed_organized : (∃ l, organizeComments id ann discussed = some l ∧ Organized id ann discussed l) ∧
    (organizeComments id ann discussed).map (·.map fun c => (c.mDesc, c.mIsLiked)) =
      some [("I was there", false), ("so was I", true), ("what a game", false)] :=
  ⟨organizeComments_spec id ann discussed (by decide) (by decide) (by decide), by decide⟩

end TimeZone
end ForumDetailCommentFragment
end FootballGallery
