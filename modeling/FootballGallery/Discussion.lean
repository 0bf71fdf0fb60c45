/-
# A post's comments, from the database to the page

`organizeComments` shows a comment of the first layer once, and a reply once for each
comment that it finds with the reply's parent id: a reply whose parent is not among
the loaded comments, or is a reply itself, is not shown at all, and nothing tells the
reader.

Of a post whose comments array is right, and whose comments are threaded, what
`forum_get_comments` loads and `organizeComments` shows is what is stored.

Key definitions: `Heads`.
Key theorems: `layers_of_organizeComments`, `discussion_shown_iff`, `comments_displayed`.
-/
import Mathlib.Data.List.Count
import FootballGallery.Comments
import FootballGallery.ForumDetailCommentFragment
import FootballGallery.GetComments
import FootballGallery.Threads

namespace FootballGallery
namespace ForumDetailCommentFragment

open Buckets DBUtil

section Display

variable {toInstant : ℤ → ℤ} {mCurrUser : User} {cs : List Comment} {l : List FlaggedComment}

theorem sortByDate_perm {cs l : List FlaggedComment} (h : sortByDate toInstant cs = some l) : l.Perm cs := by
  unfold sortByDate at h
  split at h
  · obtain rfl := Option.some.inj h
    exact List.perm_insertionSort _ cs
  · cases h

/-- Whatever the comments are, the list is the first layer with what has a parent in it. -/
theorem layers_of_organizeComments (h : organizeComments toInstant mCurrUser cs = some l) :
    ∃ layer1 layer2, layer1.Perm ((cs.map (flag mCurrUser)).filter isTop) ∧
      layer2.Perm ((cs.map (flag mCurrUser)).filter fun c => !isTop c) ∧ l = nested layer1 isReplyTo layer2 := by
  obtain ⟨layer1, hlayer1, h⟩ := Option.bind_eq_some_iff.mp h
  obtain ⟨layer2, hlayer2, rfl⟩ := Option.map_eq_some_iff.mp h
  exact ⟨layer1, layer2, sortByDate_perm hlayer1, sortByDate_perm hlayer2, rfl⟩

/-- Every comment that is shown is in a thread, its first comment included. -/
theorem mem_organizeComments (h : organizeComments toInstant mCurrUser cs = some l) {c : FlaggedComment} (hc : c ∈ l) :
    ∃ p ∈ l, isTop p = true ∧ (c = p ∨ isTop c = false ∧ isReplyTo p c = true) := by
  obtain ⟨layer1, layer2, hperm1, hperm2, rfl⟩ := layers_of_organizeComments h
  obtain ⟨p, hp, hc⟩ := List.mem_flatMap.mp hc
  have htop : isTop p = true := (List.mem_filter.mp (hperm1.mem_iff.mp hp)).2
  refine ⟨p, List.mem_flatMap.mpr ⟨p, hp, List.mem_cons_self⟩, htop, ?_⟩
  rcases List.mem_cons.mp hc with rfl | hc
  · exact .inl rfl
  · obtain ⟨hc, hreply⟩ := List.mem_filter.mp hc
    have hnot := (List.mem_filter.mp (hperm2.mem_iff.mp hc)).2
    exact .inr ⟨by simpa using hnot, hreply⟩

/-- The number of threads for a reply. -/
def Heads (cs : List Comment) (c : Comment) : ℕ := cs.countP fun p => p.mParentId == "" && c.mParentId == p.mId

theorem countP_heads (c : FlaggedComment) :
    ((cs.map (flag mCurrUser)).filter isTop).countP (fun p => isReplyTo p c) = Heads cs c.toComment := by
  rw [List.countP_filter, List.countP_map]
  refine List.countP_congr fun p _ => ?_
  have htop : isTop (flag mCurrUser p) = true ↔ p.mParentId = "" := isTop_iff
  rw [Function.comp_apply, Bool.and_eq_true, Bool.and_eq_true, htop, beq_iff_eq, and_comm]
  rfl

theorem count_organizeComments (h : organizeComments toInstant mCurrUser cs = some l) (c : FlaggedComment) :
    l.count c = if c.mParentId = "" then (cs.map (flag mCurrUser)).count c
      else Heads cs c.toComment * (cs.map (flag mCurrUser)).count c := by
  obtain ⟨layer1, layer2, hperm1, hperm2, rfl⟩ := layers_of_organizeComments h
  rw [count_nested, hperm1.count_eq, hperm1.countP_eq, hperm2.count_eq, countP_heads]
  by_cases hc : isTop c = true
  · have hnot : c ∉ (cs.map (flag mCurrUser)).filter fun c => !isTop c := fun hmem => by
      simpa [hc] using (List.mem_filter.mp hmem).2
    rw [if_pos (isTop_iff.mp hc), List.count_filter hc, List.count_eq_zero_of_not_mem hnot, Nat.mul_zero, Nat.add_zero]
  · have hnot : c ∉ (cs.map (flag mCurrUser)).filter isTop := fun hmem => hc (List.mem_filter.mp hmem).2
    have hreply : (fun c => !isTop c) c = true := by simpa using hc
    rw [if_neg fun h => hc (isTop_iff.mpr h), List.count_eq_zero_of_not_mem hnot, List.count_filter (p := fun c => !isTop c)
      hreply, Nat.zero_add]

theorem flag_injective (mCurrUser : User) : Function.Injective (flag mCurrUser) := fun _ _ h =>
  congrArg FlaggedComment.toComment h

/-- Nothing but loaded comments is shown, with the user's flags. -/
theorem map_flag_shown (h : organizeComments toInstant mCurrUser cs = some l) :
    (l.map (·.toComment)).map (flag mCurrUser) = l := by
  obtain ⟨layer1, layer2, hperm1, hperm2, rfl⟩ := layers_of_organizeComments h
  rw [List.map_map]
  refine (List.map_congr_left fun c hc => ?_).trans (List.map_id _)
  have hmem : c ∈ cs.map (flag mCurrUser) := by
    obtain ⟨p, hp, hc⟩ := List.mem_flatMap.mp hc
    rcases List.mem_cons.mp hc with rfl | hc
    · exact (List.mem_filter.mp (hperm1.mem_iff.mp hp)).1
    · exact (List.mem_filter.mp (hperm2.mem_iff.mp (List.mem_filter.mp hc).1)).1
  obtain ⟨c', -, rfl⟩ := List.mem_map.mp hmem
  rfl

/-- A comment is shown as often as it is loaded, if it is of the first layer, and that
many times for each of the heads of its thread if it is a reply. -/
theorem count_shown (h : organizeComments toInstant mCurrUser cs = some l) (c : Comment) :
    (l.map (·.toComment)).count c = if c.mParentId = "" then cs.count c else Heads cs c * cs.count c := by
  have hflagged := count_organizeComments h (flag mCurrUser c)
  rwa [← map_flag_shown h, List.count_map_of_injective _ _ (flag_injective mCurrUser),
    List.count_map_of_injective _ _ (flag_injective mCurrUser)] at hflagged

theorem shown_perm_iff (h : organizeComments toInstant mCurrUser cs = some l) :
    (l.map (·.toComment)).Perm cs ↔ ∀ c ∈ cs, c.mParentId ≠ "" → Heads cs c = 1 := by
  refine ⟨fun hperm c hc hreply => ?_, fun hheads => List.perm_iff_count.mpr fun c => ?_⟩
  · have hcount := hperm.count_eq c
    rw [count_shown h, if_neg hreply] at hcount
    exact Nat.eq_of_mul_eq_mul_right (List.count_pos_iff.mpr hc) (hcount.trans (Nat.one_mul _).symm)
  · rw [count_shown h]
    split
    · rfl
    · rename_i hreply
      by_cases hc : c ∈ cs
      · rw [hheads c hc hreply, Nat.one_mul]
      · rw [List.count_eq_zero_of_not_mem hc, Nat.mul_zero]

/-- **What is not shown**: comments are shown once for each thread they belong to, so
all of them are, and once, exactly when every reply has one head among the comments. -/
theorem discussion_shown_iff (toInstant : ℤ → ℤ) (mCurrUser : User) (cs : List Comment) (l : List FlaggedComment)
    (h : organizeComments toInstant mCurrUser cs = some l) :
    (∀ c, (l.map (·.toComment)).count c = if c.mParentId = "" then cs.count c else Heads cs c * cs.count c) ∧
      ((l.map (·.toComment)).Perm cs ↔ ∀ c ∈ cs, c.mParentId ≠ "" → Heads cs c = 1) :=
  ⟨count_shown h, shown_perm_iff h⟩

/-- The first of `discussed` is a reply, and its parent comes after it. -/
theorem discussed_shown : ∃ l, organizeComments id ann discussed = some l ∧
    (∀ c, (l.map (·.toComment)).count c =
      if c.mParentId = "" then discussed.count c else Heads discussed c * discussed.count c) ∧
      ((l.map (·.toComment)).Perm discussed ↔ ∀ c ∈ discussed, c.mParentId ≠ "" → Heads discussed c = 1) := by
  have hsome : (organizeComments id ann discussed).isSome := by decide
  exact ⟨_, (Option.some_get hsome).symm, discussion_shown_iff id ann discussed _ (Option.some_get hsome).symm⟩

/-! ### From the database -/

theorem sortByDate_isSome {cs : List FlaggedComment} (h : ∀ c ∈ cs, (getDateDate toInstant c).isSome) :
    (sortByDate toInstant cs).isSome := by
  obtain ⟨l, hl, -⟩ := sortByDate_spec h
  rw [hl]
  rfl

/-- With a date in each id nothing throws. -/
theorem organizeComments_isSome (hdates : ∀ c ∈ cs, (StringUtil.extractDateFromDocumentId toInstant c.mId).isSome) :
    (organizeComments toInstant mCurrUser cs).isSome := by
  have hflagged : ∀ p : FlaggedComment → Bool, ∀ c ∈ (cs.map (flag mCurrUser)).filter p,
      (getDateDate toInstant c).isSome := by
    intro p c hc
    obtain ⟨c', hc', rfl⟩ := List.mem_map.mp (List.mem_filter.mp hc).1
    exact hdates c' hc'
  obtain ⟨layer1, hlayer1⟩ := Option.isSome_iff_exists.mp (sortByDate_isSome (hflagged isTop))
  obtain ⟨layer2, hlayer2⟩ := Option.isSome_iff_exists.mp (sortByDate_isSome (hflagged fun c => !isTop c))
  simp only [organizeComments, hlayer1, hlayer2, Option.bind_some, Option.map_some, Option.isSome_some]

/-- No two comments have one id. -/
theorem heads_eq_one (hids : (cs.map (·.mId)).Nodup) {c p : Comment} (hp : p ∈ cs) (htop : p.mParentId = "")
    (hid : p.mId = c.mParentId) : Heads cs c = 1 := by
  refine Nat.le_antisymm ?_ (List.countP_pos_iff.mpr ⟨p, hp, ?_⟩)
  · calc Heads cs c ≤ cs.countP fun p => p.mId == c.mParentId := by
          refine List.countP_mono_left fun q _ hq => ?_
          rw [beq_iff_eq, beq_iff_eq.mp (Bool.and_eq_true_iff.mp hq).2]
      _ = (cs.map (·.mId)).count c.mParentId := by
          rw [List.count, List.countP_map]
          rfl
      _ ≤ 1 := List.nodup_iff_count_le_one.mp hids _
  · rw [Bool.and_eq_true_iff, beq_iff_eq, beq_iff_eq]
    exact ⟨htop, hid.symm⟩

/-- The stored comments on the post `k`. -/
def commentsOn (db : Database) (k : String) : List (String × CommentDoc) :=
  db.comments.toList.filter fun e => e.2.postId == k

variable {db : Database} {k : String}

theorem mem_commentsOn {e : String × CommentDoc} :
    e ∈ commentsOn db k ↔ db.comments.get e.1 = some e.2 ∧ e.2.postId = k := by
  obtain ⟨id, d⟩ := e
  rw [commentsOn, List.mem_filter, DocStore.Collection.mem_toList, beq_iff_eq]

/-- A comments array that is right lists the comments on its post. -/
theorem listed_eq_commentsOn {post : PostDoc} (hpost : db.posts.get k = some post) (h : Forum.Listed db k) :
    listed db post.comments = commentsOn db k := by
  unfold listed commentsOn
  refine List.filter_congr fun e he => ?_
  have hget := DocStore.Collection.mem_toList.mp he
  rw [Bool.eq_iff_iff, decide_eq_true_eq, beq_iff_eq, (h post hpost).2]
  constructor
  · rintro ⟨d, hd, hk⟩
    obtain rfl := Option.some.inj (hget.symm.trans hd)
    exact hk
  · exact fun hk => ⟨e.2, hget, hk⟩

theorem nodup_loaded : (((commentsOn db k).map (loaded db)).map (·.mId)).Nodup := by
  rw [List.map_map]
  exact (DocStore.Collection.nodup_ids db.comments).sublist (List.filter_sublist.map _)

/-- Each reply on the post has its head among the comments on it. -/
theorem heads_loaded (hthreaded : Threads.AllThreaded db) {c : Comment} (hc : c ∈ (commentsOn db k).map (loaded db))
    (hreply : c.mParentId ≠ "") : Heads ((commentsOn db k).map (loaded db)) c = 1 := by
  obtain ⟨⟨id, d⟩, he, rfl⟩ := List.mem_map.mp hc
  obtain ⟨hget, hk⟩ := mem_commentsOn.mp he
  obtain ⟨head, hhead, hpost, htop⟩ := (hthreaded id d hget).parent hreply
  have hmem : (d.parentId, head) ∈ commentsOn db k := mem_commentsOn.mpr ⟨hhead, hpost.trans hk⟩
  exact heads_eq_one nodup_loaded (List.mem_map_of_mem hmem) htop rfl

/-- **The page shows the post's comments**: when the post's comments array is right, the
comments are threaded and their authors are stored, the load of the array ends in comments
that are displayed as threads, and these are the stored comments on the post, once each and
with the names of their authors and of the authors they mention. -/
theorem comments_displayed (toInstant : ℤ → ℤ) (mCurrUser : User) (db : Database) (k : String) (post : PostDoc)
    (action : String) (hpost : db.posts.get k = some post) (hlisted : Forum.Listed db k) (hauthored : Authored db)
    (hthreaded : Threads.AllThreaded db)
    (hdates : ∀ id d, db.comments.get id = some d → d.postId = k →
      (StringUtil.extractDateFromDocumentId toInstant id).isSome) :
    ∃ i heads replies, Answers db (forumGetComments action post.comments) i ∧ i.result = true ∧
      organizeComments toInstant mCurrUser (commentsOf i) = some (nested heads isReplyTo replies) ∧
      (∀ p ∈ heads, isTop p = true) ∧ (∀ c ∈ replies, isTop c = false) ∧
      ((nested heads isReplyTo replies).map (·.toComment)).Perm ((commentsOn db k).map (loaded db)) := by
  have hmentions : ∀ e ∈ listed db post.comments, Mentions db e.2 := by
    intro e he
    by_cases hm : e.2.mentionId = ""
    · exact .inl hm
    · obtain ⟨d, hd, -⟩ := (hthreaded e.1 e.2 (mem_listed.mp he).1).mention hm
      exact .inr (Option.isSome_iff_exists.mpr ⟨d, hd⟩)
  have hcomments : commentsOf (loadAnswer db action post.comments) = (commentsOn db k).map (loaded db) := by
    rw [commentsOf_loadAnswer, listed_eq_commentsOn hpost hlisted]
  have hresult : (loadAnswer db action post.comments).result = true := by
    unfold loadAnswer
    split <;> rfl
  have hsome : (organizeComments toInstant mCurrUser ((commentsOn db k).map (loaded db))).isSome := by
    refine organizeComments_isSome fun c hc => ?_
    obtain ⟨e, he, rfl⟩ := List.mem_map.mp hc
    obtain ⟨hget, hk⟩ := mem_commentsOn.mp he
    exact hdates e.1 e.2 hget hk
  obtain ⟨l, hl⟩ := Option.isSome_iff_exists.mp hsome
  obtain ⟨heads, replies, hperm1, hperm2, rfl⟩ := layers_of_organizeComments hl
  refine ⟨loadAnswer db action post.comments, heads, replies,
    (answers_iff hauthored hmentions action _).mpr rfl, hresult, hcomments ▸ hl, ?_, ?_, ?_⟩
  · exact fun p hp => (List.mem_filter.mp (hperm1.mem_iff.mp hp)).2
  · exact fun c hc => by simpa using (List.mem_filter.mp (hperm2.mem_iff.mp hc)).2
  · exact (shown_perm_iff hl).mpr fun c hc hreply => heads_loaded hthreaded hc hreply

/-! A comment, and a reply to it that the collection has before it. -/

def kickoff : PostDoc :=
  ⟨0, ["comment_01-01-2022-08-00-00", "comment_01-01-2022-09-00-00"], "Kick-off", 0, 0, "Derby", "ann@mail.com", 0⟩

def kickoffDb : Database where
  posts := DocStore.Collection.empty.set "post_01-01-2022-07-00-00" kickoff
  comments := (DocStore.Collection.empty.set "comment_01-01-2022-09-00-00"
      ⟨"So was I.", "post_01-01-2022-07-00-00", "ann@mail.com", 0, 0, "comment_01-01-2022-08-00-00",
        "comment_01-01-2022-08-00-00"⟩).set
    "comment_01-01-2022-08-00-00" ⟨"I was there.", "post_01-01-2022-07-00-00", "ann@mail.com", 0, 0, "", ""⟩
  users := DocStore.Collection.empty.set "ann@mail.com" ⟨"ann", "", 0, 12, [], [], [], [], []⟩
  accounts := .empty

/-- What holds of the entries holds of what is stored. -/
theorem forall_stored {P : String → CommentDoc → Prop} (h : ∀ e ∈ db.comments.toList, P e.1 e.2) :
    ∀ id d, db.comments.get id = some d → P id d := fun id d hd => h (id, d) (DocStore.Collection.mem_toList.mpr hd)

theorem listed_kickoff : Forum.Listed kickoffDb "post_01-01-2022-07-00-00" := by
  intro post hpost
  obtain rfl := Option.some.inj ((show kickoffDb.posts.get "post_01-01-2022-07-00-00" = some kickoff by decide).symm.trans
    hpost)
  refine ⟨by decide, fun c => ⟨fun hc => ?_, ?_⟩⟩
  · have hstored : ∀ c ∈ kickoff.comments, ∃ e ∈ kickoffDb.comments.toList,
        e.1 = c ∧ e.2.postId = "post_01-01-2022-07-00-00" := by decide
    obtain ⟨e, he, rfl, hk⟩ := hstored c hc
    exact ⟨e.2, DocStore.Collection.mem_toList.mp he, hk⟩
  · rintro ⟨d, hd, -⟩
    exact forall_stored (P := fun id _ => id ∈ kickoff.comments) (by decide) c d hd

theorem threaded_kickoff : Threads.AllThreaded kickoffDb := by
  have hhead : kickoffDb.comments.get "comment_01-01-2022-08-00-00" =
      some ⟨"I was there.", "post_01-01-2022-07-00-00", "ann@mail.com", 0, 0, "", ""⟩ := by decide
  have hall : ∀ e ∈ kickoffDb.comments.toList, e.2.links = ⟨"post_01-01-2022-07-00-00", "", ""⟩ ∨
      e.2.links = ⟨"post_01-01-2022-07-00-00", "comment_01-01-2022-08-00-00", "comment_01-01-2022-08-00-00"⟩ := by
    decide
  refine forall_stored (P := fun _ d => Threads.Threaded kickoffDb d.links) fun e he => ?_
  rcases hall e he with hlinks | hlinks <;> rw [hlinks]
  · exact Threads.threaded_none kickoffDb _
  · exact ⟨by decide, fun _ => ⟨_, hhead, rfl, rfl⟩, fun _ => ⟨_, hhead, rfl, .inl rfl⟩⟩

theorem kickoff_displayed :
    ∃ i heads replies, Answers kickoffDb (forumGetComments "FORUM_GET_COMMENTS" kickoff.comments) i ∧
      i.result = true ∧
      organizeComments id ann (commentsOf i) = some (nested heads isReplyTo replies) ∧
      (∀ p ∈ heads, isTop p = true) ∧ (∀ c ∈ replies, isTop c = false) ∧
      ((nested heads isReplyTo replies).map (·.toComment)).Perm
        ((commentsOn kickoffDb "post_01-01-2022-07-00-00").map (loaded kickoffDb)) :=
  comments_displayed id ann kickoffDb "post_01-01-2022-07-00-00" kickoff "FORUM_GET_COMMENTS" (by decide)
    listed_kickoff (by decide) threaded_kickoff
    (forall_stored (P := fun id d => d.postId = _ → (StringUtil.extractDateFromDocumentId _ id).isSome) (by decide))

end Display
end ForumDetailCommentFragment
end FootballGallery
