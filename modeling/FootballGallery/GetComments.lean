/-
# Loading comments: `forum_get_comments`

The four steps of `forum_get_comments` pass parallel lists to each other: the
listed comments, their authors, the authors of the comments they mention and
these users' names. The last list is shorter than the others, since a comment
that mentions none has no entry, and step four hands it out by a running index.

The names reach the right comments if every mention names a stored comment. If
one does not, the list is short by one more and the index runs out of it: the
load throws, whatever the other comments are.

Key definitions: `answer`, `listed`, `mentionName`, `loaded`, `Labelled`.
Key theorems: `answer_getComments`, `fillMentions_missing`, `labelled_iff`.
-/
import FootballGallery.DBUtil

namespace FootballGallery
namespace DBUtil

open DocStore.Collection

/-- Follows a chain of tasks, all with success, to the broadcast it ends in;
`none` if a listener throws or there is no such broadcast within `n` tasks. -/
def answer : ℕ → Database → Request → Option Intent
  | 0, _, _ => none
  | n + 1, db, q =>
    match exec true db q with
    | some (db', [.inl q']) => answer n db' q'
    | some (_, [.inr i]) => some i
    | _ => none

/-- The operation that starts `qs` ends in the broadcast `i`. -/
def Answers (db : Database) (qs : List Request) (i : Intent) : Prop :=
  ∃ n q, qs = [q] ∧ answer n db q = some i

theorem answer_mono {i : Intent} : ∀ {n : ℕ} {db : Database} {q : Request} (k : ℕ),
    answer n db q = some i → answer (n + k) db q = some i
  | 0, _, _, _, h => by cases h
  | n + 1, db, q, k, h => by
    rw [Nat.add_right_comm]
    unfold answer at h ⊢
    split at h
    · exact answer_mono k h
    · exact h
    · cases h

/-! ### What the steps compute -/

/-- The listed comments that are stored. -/
def listed (db : Database) (ids : List String) : List (String × CommentDoc) :=
  db.comments.toList.filter fun e => e.1 ∈ ids

/-- The author of a comment, as step two makes it. -/
def authorOf (db : Database) (userId : String) : User :=
  match db.users.get userId with
  | some u => .brief userId u.username u.emblemLeague u.emblemTeam
  | none => .brief userId "" 0 0

/-- The username of the author of the comment `id`. -/
def nameOf (db : Database) (id : String) : Option String :=
  (db.comments.get id).bind fun d => (db.users.get d.userId).map (·.username)

/-- What a comment that mentions the comment `mentionId` should show. -/
def mentionName (db : Database) (mentionId : String) : String := (nameOf db mentionId).getD ""

/-- A comment as it should be loaded. -/
def loaded (db : Database) (e : String × CommentDoc) : Comment :=
  (Comment.new "" e.2.postId (authorOf db e.2.userId) (mentionName db e.2.mentionId) e.2.description
    e.2.parentId e.2.mentionId).setId e.1

/-- Every stored comment has an author among the users. -/
def Authored (db : Database) : Prop :=
  ∀ id d, db.comments.get id = some d → (db.users.get d.userId).isSome

theorem authored_iff (db : Database) :
    (∀ e ∈ db.comments.toList, (db.users.get e.2.userId).isSome) ↔ Authored db :=
  ⟨fun h id d hd => h (id, d) (mem_toList.mpr hd), fun h e he => h e.1 e.2 (mem_toList.mp he)⟩

instance (db : Database) : Decidable (Authored db) := decidable_of_iff _ (authored_iff db)

/-- A comment mentions none or one that is stored. -/
def Mentions (db : Database) (d : CommentDoc) : Prop :=
  d.mentionId = "" ∨ (db.comments.get d.mentionId).isSome

instance (db : Database) (d : CommentDoc) : Decidable (Mentions db d) :=
  inferInstanceAs (Decidable (_ ∨ _))

theorem mem_listed {db : Database} {ids : List String} {e : String × CommentDoc} :
    e ∈ listed db ids ↔ db.comments.get e.1 = some e.2 ∧ e.1 ∈ ids := by
  obtain ⟨id, d⟩ := e
  rw [listed, List.mem_filter, mem_toList, decide_eq_true_eq]

theorem nodup_listed (db : Database) (ids : List String) :
    ((listed db ids).map (·.1)).Nodup :=
  (nodup_ids db.comments).sublist (List.filter_sublist.map _)

theorem mapM_eq_map {α β : Type*} {f : α → Option β} {g : α → β} :
    ∀ {l : List α}, (∀ x ∈ l, f x = some (g x)) → l.mapM f = some (l.map g)
  | [], _ => rfl
  | x :: l, h => by
    have hx := h x (List.mem_cons_self ..)
    have hl := mapM_eq_map fun y hy => h y (List.mem_cons_of_mem x hy)
    simp [List.mapM_cons, hx, hl]

/-- Step two finds each comment and, if there is one, its author again. -/
theorem stepTwo_listed {db : Database} {ids : List String}
    (ha : ∀ e ∈ listed db ids, (db.users.get e.2.userId).isSome) :
    stepTwo db ((stepOne db ids).map (·.1)) ((stepOne db ids).map (·.2)) =
      some ((listed db ids).map fun e => (e, authorOf db e.2.userId)) := by
  have hzip : ((stepOne db ids).map (·.1)).zip ((stepOne db ids).map (·.2)) = stepOne db ids := by
    rw [List.zip_map', List.map_id']
  have hone : stepOne db ids = (listed db ids).map fun e => (e.1, e.2.userId) := rfl
  rw [stepTwo, hzip, hone, List.mapM_map]
  refine mapM_eq_map fun e he => ?_
  obtain ⟨hget, -⟩ := mem_listed.mp he
  obtain ⟨u, hu⟩ := Option.isSome_iff_exists.mp (ha e he)
  simp [hget, hu, authorOf]

theorem stepTwo_eq {db : Database} (ha : Authored db) (ids : List String) :
    stepTwo db ((stepOne db ids).map (·.1)) ((stepOne db ids).map (·.2)) =
      some ((listed db ids).map fun e => (e, authorOf db e.2.userId)) :=
  stepTwo_listed fun e he => ha e.1 e.2 (mem_listed.mp he).1

/-- Steps three and four join to the names of the mentioned comments' authors. -/
theorem usernames_stepThree (db : Database) (mentionIds : List String) :
    usernames db (stepThree db mentionIds) = mentionIds.filterMap (nameOf db) := by
  have h3 : stepThree db mentionIds = mentionIds.filterMap fun m =>
      (db.comments.get m).map fun d => d.userId := flatMap_filter_toList _ _ _
  have h4 : ∀ us, usernames db us = us.filterMap fun u =>
      (db.users.get u).map fun d => d.username := fun us => flatMap_filter_toList _ _ _
  rw [h4, h3, List.filterMap_filterMap]
  refine List.filterMap_congr fun m _ => ?_
  rw [nameOf, Option.bind_map]
  rfl

/-! ### Handing out the names -/

/-- The names that the comments' mentions lead to. -/
def namesOf (db : Database) (ss : List (String × CommentDoc)) : List String :=
  ss.filterMap fun s => nameOf db s.2.mentionId

/-- The number of comments that mention one. -/
def mentionCount (ss : List (String × CommentDoc)) : ℕ := ss.countP fun s => s.2.mentionId ≠ ""

section Cons

variable {db : Database} {s : String × CommentDoc} {ss : List (String × CommentDoc)}

theorem namesOf_cons_none (h : nameOf db s.2.mentionId = none) : namesOf db (s :: ss) = namesOf db ss :=
  List.filterMap_cons_none h

theorem namesOf_cons_some {n : String} (h : nameOf db s.2.mentionId = some n) :
    namesOf db (s :: ss) = n :: namesOf db ss := List.filterMap_cons_some h

theorem mentionCount_cons :
    mentionCount (s :: ss) = mentionCount ss + if s.2.mentionId = "" then 0 else 1 := by
  rw [mentionCount, List.countP_cons]
  by_cases hm : s.2.mentionId = "" <;> simp [hm, mentionCount]

theorem length_pos_iff (m : String) : m.length > 0 ↔ m ≠ "" := by
  rw [gt_iff_lt, Nat.pos_iff_ne_zero, ne_eq, ne_eq, String.length_eq_zero_iff]

theorem fillMentions_cons_parent {names : List String} {x : ℕ} (hm : s.2.mentionId = "") :
    fillMentions names x (s :: ss) = (fillMentions names x ss).map ("" :: ·) := by
  rw [fillMentions, if_neg]
  rw [length_pos_iff]
  exact not_not.mpr hm

theorem fillMentions_cons_child {names : List String} {x : ℕ} (hm : s.2.mentionId ≠ "") :
    fillMentions names x (s :: ss) =
      names[x]?.bind fun n => (fillMentions names (x + 1) ss).map (n :: ·) := by
  rw [fillMentions, if_pos ((length_pos_iff _).mpr hm)]
  cases names[x]? <;> rfl

end Cons

theorem nameOf_noId (db : Database) : nameOf db "" = none := by
  rw [nameOf, get_noId]
  rfl

theorem nameOf_isSome {db : Database} (ha : Authored db) {m : String}
    (h : (db.comments.get m).isSome) : (nameOf db m).isSome := by
  obtain ⟨d, hd⟩ := Option.isSome_iff_exists.mp h
  simpa [nameOf, hd] using ha m d hd

/-- A comment mentions none or one that leads to a name. -/
def Resolves (db : Database) (d : CommentDoc) : Prop :=
  d.mentionId = "" ∨ (nameOf db d.mentionId).isSome

instance (db : Database) (d : CommentDoc) : Decidable (Resolves db d) :=
  inferInstanceAs (Decidable (_ ∨ _))

theorem resolves_iff {db : Database} (ha : Authored db) (d : CommentDoc) : Resolves db d ↔ Mentions db d := by
  refine or_congr_right ⟨fun h => ?_, nameOf_isSome ha⟩
  cases hm : db.comments.get d.mentionId with
  | some d' => rfl
  | none =>
    rw [nameOf, hm] at h
    cases h

/-- If every mention leads to a name, each comment gets its own name: the index stands
behind the names of the comments before it. -/
theorem fillMentions_eq {db : Database} :
    ∀ (ss : List (String × CommentDoc)) (before : List String), (∀ s ∈ ss, Resolves db s.2) →
      fillMentions (before ++ namesOf db ss) before.length ss =
        some (ss.map fun s => mentionName db s.2.mentionId)
  | [], _, _ => rfl
  | s :: ss, before, h => by
    have hss := fun b => fillMentions_eq ss b fun s' hs' => h s' (List.mem_cons_of_mem s hs')
    by_cases hm : s.2.mentionId = ""
    · have hnone : nameOf db s.2.mentionId = none := hm ▸ nameOf_noId db
      rw [fillMentions_cons_parent hm, namesOf_cons_none hnone, hss before]
      simp [mentionName, hnone]
    · obtain ⟨n, hn⟩ := Option.isSome_iff_exists.mp ((h s (List.mem_cons_self ..)).resolve_left hm)
      have hnext := hss (before ++ [n])
      rw [List.append_assoc, List.singleton_append, List.length_append, List.length_singleton] at hnext
      rw [fillMentions_cons_child hm, namesOf_cons_some hn]
      simp [hnext, mentionName, hn]

/-- The index runs over one name for each mention. -/
theorem fillMentions_length {names out : List String} : ∀ {ss : List (String × CommentDoc)} {x : ℕ},
    x ≤ names.length → fillMentions names x ss = some out → x + mentionCount ss ≤ names.length
  | [], _, hx, _ => hx
  | s :: ss, x, hx, h => by
    rw [mentionCount_cons]
    by_cases hm : s.2.mentionId = ""
    · rw [fillMentions_cons_parent hm] at h
      obtain ⟨out', h', -⟩ := Option.map_eq_some_iff.mp h
      have := fillMentions_length hx h'
      rw [if_pos hm]
      omega
    · rw [fillMentions_cons_child hm] at h
      obtain ⟨n, hn, h⟩ := Option.bind_eq_some_iff.mp h
      obtain ⟨hlt, -⟩ := List.getElem?_eq_some_iff.mp hn
      obtain ⟨out', h', -⟩ := Option.map_eq_some_iff.mp h
      have := fillMentions_length hlt h'
      rw [if_neg hm]
      omega

theorem length_namesOf_le (db : Database) : ∀ ss, (namesOf db ss).length ≤ mentionCount ss
  | [] => Nat.le_refl 0
  | s :: ss => by
    have hle := length_namesOf_le db ss
    rw [mentionCount_cons]
    cases hn : nameOf db s.2.mentionId with
    | none =>
      rw [namesOf_cons_none hn]
      omega
    | some n =>
      have hm : s.2.mentionId ≠ "" := fun hm => by
        rw [hm, nameOf_noId] at hn
        cases hn
      rw [namesOf_cons_some hn, List.length_cons, if_neg hm]
      omega

/-- With a mention that leads to no name there are less names than mentions. -/
theorem length_namesOf_lt {db : Database} : ∀ {ss : List (String × CommentDoc)},
    (∃ s ∈ ss, ¬ Resolves db s.2) → (namesOf db ss).length < mentionCount ss
  | [], h => by simp at h
  | s :: ss, ⟨s', hs', hbad⟩ => by
    rw [mentionCount_cons]
    have hle := length_namesOf_le db ss
    rcases List.mem_cons.mp hs' with rfl | hs'
    · have hm : s'.2.mentionId ≠ "" := fun hm => hbad (.inl hm)
      have hn : nameOf db s'.2.mentionId = none := by
        rw [← Option.not_isSome_iff_eq_none]
        exact fun hm => hbad (.inr hm)
      rw [namesOf_cons_none hn, if_neg hm]
      omega
    · have hlt := length_namesOf_lt ⟨s', hs', hbad⟩
      have hcons := length_namesOf_le db [s]
      have happ : namesOf db (s :: ss) = namesOf db [s] ++ namesOf db ss :=
        List.filterMap_append (l := [s])
      rw [happ, List.length_append]
      rw [mentionCount_cons] at hcons
      simp only [mentionCount, List.countP_nil, Nat.zero_add] at hcons hlt ⊢
      omega

/-- With a mention that leads to no name the index runs out of the names. -/
theorem fillMentions_missing {db : Database} {ss : List (String × CommentDoc)}
    (h : ∃ s ∈ ss, ¬ Resolves db s.2) : fillMentions (namesOf db ss) 0 ss = none := by
  cases hf : fillMentions (namesOf db ss) 0 ss with
  | none => rfl
  | some out =>
    have h1 := fillMentions_length (Nat.zero_le _) hf
    have h2 := length_namesOf_lt h
    omega

/-! ### The whole load -/

/-- Steps three and four on the comments `es` and their authors. -/
def labelled (db : Database) (es : List (String × CommentDoc)) : Option (List Comment) :=
  stepFour db es (es.map fun e => authorOf db e.2.userId) (stepThree db (es.map (·.2.mentionId)))

theorem usernames_labelled (db : Database) (es : List (String × CommentDoc)) :
    usernames db (stepThree db (es.map (·.2.mentionId))) = namesOf db es := by
  rw [usernames_stepThree, List.filterMap_map]
  rfl

theorem zip_zip_map {α β γ : Type*} (l : List α) (f : α → β) (g : α → γ) :
    (l.zip (l.map f)).zip (l.map g) = l.map fun x => ((x, f x), g x) := by
  induction l with
  | nil => rfl
  | cons x l ih => simp [ih]

theorem labelled_eq {db : Database} {es : List (String × CommentDoc)}
    (h : ∀ e ∈ es, Resolves db e.2) : labelled db es = some (es.map (loaded db)) := by
  have hfill := fillMentions_eq es [] h
  rw [List.nil_append, List.length_nil] at hfill
  rw [labelled, stepFour, usernames_labelled, hfill, Option.map_some, zip_zip_map, List.map_map]
  rfl

theorem labelled_missing {db : Database} {es : List (String × CommentDoc)}
    (h : ∃ e ∈ es, ¬ Resolves db e.2) : labelled db es = none := by
  rw [labelled, stepFour, usernames_labelled, fillMentions_missing h]
  rfl

/-- The chain of the four steps. -/
theorem answer_getComments {db : Database} (ha : Authored db) (n : ℕ) (a : String) (ids : List String) :
    answer (n + 4) db (.getComments a ids) =
      if listed db ids = [] then some ⟨a, true, none⟩
      else (labelled db (listed db ids)).map fun cs => ⟨a, true, some (.comments cs)⟩ := by
  have hlen : (stepOne db ids).length = (listed db ids).length := List.length_map ..
  by_cases hnil : listed db ids = []
  · rw [if_pos hnil]
    have h1 : exec true db (.getComments a ids) = some (db, [.inr ⟨a, true, none⟩]) := by
      rw [hnil, List.length_nil] at hlen
      simp [exec, hlen]
    rw [answer, h1]
  · rw [if_neg hnil]
    have hpos : (stepOne db ids).length > 0 := hlen ▸ List.length_pos_iff.mpr hnil
    have h1 : exec true db (.getComments a ids) = some (db, [.inl (.getCommentsStepTwo a
        ((stepOne db ids).map (·.1)) ((stepOne db ids).map (·.2)))]) := by
      simp [exec, hpos]
    have h2 : exec true db (.getCommentsStepTwo a ((stepOne db ids).map (·.1))
        ((stepOne db ids).map (·.2))) = some (db, [.inl (.getCommentsStepThree a (listed db ids)
          ((listed db ids).map (·.2.mentionId))
          ((listed db ids).map fun e => authorOf db e.2.userId))]) := by
      simp only [exec, if_true, stepTwo_eq ha, Option.map_some, List.map_map, Function.comp_def,
        List.map_id']
    have h3 : exec true db (.getCommentsStepThree a (listed db ids)
        ((listed db ids).map (·.2.mentionId)) ((listed db ids).map fun e => authorOf db e.2.userId)) =
          some (db, [.inl (.getCommentsStepFour a (listed db ids) ((listed db ids).map (·.2.mentionId))
            ((listed db ids).map fun e => authorOf db e.2.userId)
            (stepThree db ((listed db ids).map (·.2.mentionId))))]) := rfl
    have h4 : exec true db (.getCommentsStepFour a (listed db ids) ((listed db ids).map (·.2.mentionId))
        ((listed db ids).map fun e => authorOf db e.2.userId)
        (stepThree db ((listed db ids).map (·.2.mentionId)))) =
          (labelled db (listed db ids)).map fun cs =>
            (db, [.inr ⟨a, true, some (.comments cs)⟩]) := rfl
    simp only [answer, h1, h2, h3, h4]
    cases labelled db (listed db ids) <;> rfl

/-- The comments of a broadcast; without an extra there are none. -/
def commentsOf (i : Intent) : List Comment :=
  match i.extra with
  | some (.comments cs) => cs
  | _ => []

/-- What a load ends in if every mention names a stored comment. -/
def loadAnswer (db : Database) (a : String) (ids : List String) : Intent :=
  if listed db ids = [] then ⟨a, true, none⟩
  else ⟨a, true, some (.comments ((listed db ids).map (loaded db)))⟩

theorem commentsOf_loadAnswer (db : Database) (a : String) (ids : List String) :
    commentsOf (loadAnswer db a ids) = (listed db ids).map (loaded db) := by
  unfold loadAnswer
  by_cases hnil : listed db ids = []
  · rw [if_pos hnil, hnil]
    rfl
  · rw [if_neg hnil]
    rfl

theorem answers_iff {db : Database} (ha : Authored db) {ids : List String}
    (hm : ∀ e ∈ listed db ids, Mentions db e.2) (a : String) (i : Intent) :
    Answers db (forumGetComments a ids) i ↔ i = loadAnswer db a ids := by
  have h4 : ∀ n, answer (n + 4) db (.getComments a ids) = some (loadAnswer db a ids) := fun n => by
    rw [answer_getComments ha, labelled_eq fun e he => (resolves_iff ha e.2).mpr (hm e he), loadAnswer]
    by_cases hnil : listed db ids = []
    · rw [if_pos hnil, if_pos hnil]
    · rw [if_neg hnil, if_neg hnil]
      rfl
  constructor
  · rintro ⟨n, q, hq, hi⟩
    obtain rfl := (List.singleton_inj.mp hq).symm
    exact Option.some.inj ((answer_mono 4 hi).symm.trans (h4 n))
  · rintro rfl
    exact ⟨4, _, rfl, h4 0⟩

/-- `cs` has one comment for each listed stored comment, with its own author and
with the name of the author of the comment it mentions. -/
structure Labelled (db : Database) (ids : List String) (cs : List Comment) : Prop where
  nodup : (cs.map (·.mId)).Nodup
  listed : ∀ id, id ∈ cs.map (·.mId) ↔ id ∈ ids ∧ (db.comments.get id).isSome
  author : ∀ c ∈ cs, ∀ d, db.comments.get c.mId = some d → c.mAuthor = authorOf db d.userId
  mention : ∀ c ∈ cs, ∀ d, db.comments.get c.mId = some d → c.mMentionUsername = mentionName db d.mentionId

theorem labelled_loaded (db : Database) (ids : List String) :
    Labelled db ids ((listed db ids).map (loaded db)) := by
  have hids : ((listed db ids).map (loaded db)).map (·.mId) = (listed db ids).map (·.1) := by
    rw [List.map_map]
    rfl
  have hdoc : ∀ c ∈ (listed db ids).map (loaded db), ∀ d, db.comments.get c.mId = some d →
      c = loaded db (c.mId, d) := by
    intro c hc d hd
    obtain ⟨⟨id, d'⟩, he, rfl⟩ := List.mem_map.mp hc
    obtain ⟨hget, -⟩ := mem_listed.mp he
    obtain rfl : d' = d := Option.some.inj (hget.symm.trans hd)
    rfl
  refine ⟨hids ▸ nodup_listed db ids, fun id => ?_, fun c hc d hd => ?_, fun c hc d hd => ?_⟩
  · rw [hids, List.mem_map]
    constructor
    · rintro ⟨e, he, rfl⟩
      obtain ⟨hget, hmem⟩ := mem_listed.mp he
      exact ⟨hmem, by rw [hget]; rfl⟩
    · rintro ⟨hmem, hsome⟩
      obtain ⟨d, hd⟩ := Option.isSome_iff_exists.mp hsome
      exact ⟨(id, d), mem_listed.mpr ⟨hd, hmem⟩, rfl⟩
  · rw [hdoc c hc d hd]
    rfl
  · rw [hdoc c hc d hd]
    rfl

/-- **A load labels every comment rightly exactly when every mention in it names a
stored comment**; a missing target does not only lose its own label. -/
theorem labelled_iff {db : Database} (ha : Authored db) (a : String) (ids : List String) :
    (∃ i, Answers db (forumGetComments a ids) i ∧ i.action = a ∧ i.result = true ∧
        Labelled db ids (commentsOf i)) ↔
      ∀ id ∈ ids, ∀ d, db.comments.get id = some d → Mentions db d := by
  have hall : (∀ e ∈ listed db ids, Mentions db e.2) ↔
      ∀ id ∈ ids, ∀ d, db.comments.get id = some d → Mentions db d :=
    ⟨fun h id hid d hd => h (id, d) (mem_listed.mpr ⟨hd, hid⟩), fun h e he =>
      h e.1 (mem_listed.mp he).2 e.2 (mem_listed.mp he).1⟩
  rw [← hall]
  constructor
  · rintro ⟨i, ⟨n, q, hq, hi⟩, -, -, -⟩ e he
    obtain rfl := (List.singleton_inj.mp hq).symm
    by_contra hbad
    have hne : listed db ids ≠ [] := List.ne_nil_of_mem he
    have h4 := answer_mono 4 hi
    have hno : ¬ Resolves db e.2 := fun h => hbad ((resolves_iff ha e.2).mp h)
    rw [answer_getComments ha, if_neg hne, labelled_missing ⟨e, he, hno⟩] at h4
    cases h4
  · intro hm
    refine ⟨loadAnswer db a ids, (answers_iff ha hm a _).mpr rfl, ?_, ?_, ?_⟩
    · unfold loadAnswer
      split <;> rfl
    · unfold loadAnswer
      split <;> rfl
    · rw [commentsOf_loadAnswer]
      exact labelled_loaded db ids

/-! Three comments by ann; the second one answers a comment that is not stored, the third
one the first. -/

def orphanDb : Database where
  posts := .empty
  comments := ((DocStore.Collection.empty.set "comment_01-01-2022-08-00-00"
      ⟨"Well played.", "post_01-01-2022-07-00-00", "ann@mail.com", 0, 0, "", ""⟩).set
    "comment_01-01-2022-09-00-00"
      ⟨"No way.", "post_01-01-2022-07-00-00", "ann@mail.com", 0, 0, "comment_01-01-2022-08-30-00",
        "comment_01-01-2022-08-30-00"⟩).set
    "comment_01-01-2022-10-00-00"
      ⟨"All of us.", "post_01-01-2022-07-00-00", "ann@mail.com", 0, 0, "comment_01-01-2022-08-00-00",
        "comment_01-01-2022-08-00-00"⟩
  users := DocStore.Collection.empty.set "ann@mail.com" ⟨"ann", "", 0, 12, [], [], [], [], []⟩
  accounts := .empty

def orphanIds : List String := ["comment_01-01-2022-08-00-00", "comment_01-01-2022-09-00-00"]

/-- The load of the first two comments throws, so the first one is not shown either. -/
theorem orphan_throws :
    Authored orphanDb ∧
      ¬ ∃ i, Answers orphanDb (forumGetComments "FORUM_GET_COMMENTS" orphanIds) i ∧
        i.action = "FORUM_GET_COMMENTS" ∧ i.result = true ∧ Labelled orphanDb orphanIds (commentsOf i) := by
  have ha : Authored orphanDb := by decide
  refine ⟨ha, ?_⟩
  rintro ⟨i, ⟨n, q, hq, hi⟩, -⟩
  obtain rfl := (List.singleton_inj.mp hq).symm
  have h4 := answer_mono 4 hi
  have hne : listed orphanDb orphanIds ≠ [] := by decide
  have hnone : labelled orphanDb (listed orphanDb orphanIds) = none := by decide
  rw [answer_getComments ha, if_neg hne, hnone] at h4
  cases h4

def answeredIds : List String := ["comment_01-01-2022-08-00-00", "comment_01-01-2022-10-00-00"]

/-- The first comment and the reply to it. -/
theorem labelled_iff_orphanDb :
    ∃ i, Answers orphanDb (forumGetComments "FORUM_GET_COMMENTS" answeredIds) i ∧
      i.action = "FORUM_GET_COMMENTS" ∧ i.result = true ∧ Labelled orphanDb answeredIds (commentsOf i) := by
  have hmentions : ∀ id ∈ answeredIds, ∀ d ∈ orphanDb.comments.get id, Mentions orphanDb d := by decide
  exact (labelled_iff (by decide) "FORUM_GET_COMMENTS" answeredIds).mpr hmentions

end DBUtil
end FootballGallery
