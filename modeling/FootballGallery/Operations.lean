/-
# Which operations answer once

An operation of `DBUtil` starts a task, whose listeners answer or start the next
task, and so on. `replies` follows the listeners through, with any pattern of
success and failure; the tasks of an operation are at most four deep.

Some operations answer once whatever happens. The others have a listener that is
silent, that answers twice, or that reads a result which is not there: for each
`AnswersOnce` says when it is not reached.

Key definitions: `Operation`, `replies`, `started`, `Answered`, `AnswersOnce`.
Key theorems: `depth_exec`, `replies_fuel`, `answered_iff`.
-/
import FootballGallery.GetComments
import FootballGallery.PostReaders
import FootballGallery.TaskSteps

namespace FootballGallery
namespace DBUtil

open DocStore.Collection

/-- The asynchronous operations, with what their callers pass besides the action. -/
inductive Operation where
  | authLogin (email password : String)
  | authVerifyEmail (email : String) (case : ℤ)
  | authSignupCreateAccount (email password : String)
  | userCreateInUsers (user : User)
  | userVerifyUsername (username : String)
  | userUpdateProfile (oldUser newUser : User)
  | userUpdatePostsValue (newValue : String) (case : ℤ)
  | userUpdatePostLikesValue (newValue : String) (case : ℤ)
  | userUpdateCommentLikesValue (newValue : String) (case : ℤ)
  | userUpdatePostYCardValue (newValue : String)
  | userUpdateCommentYCardValue (newValue : String)
  | userGetUserDetailWithEmail (userEmail : String)
  | userGetUserInfo
  | forumCheckUpdate (originalCount : ℕ)
  | forumGetPosts
  | forumCreatePost (newPost : Post)
  | forumUpdatePost (oldPost newPost : Post)
  | forumGetPostWithId (postId : String)
  | forumDeletePost (postId : String)
  | forumCreateComment (comment : Comment)
  | forumGetComments (commentIds : List String)
  | forumUpdateCommentInComments (comment : Comment) (case : ℤ)
  | forumUpdateLikeOnComment (comment : Comment) (case : ℤ)

/-- The tasks that the operation starts; `me` is the signed-in user. -/
def Operation.requests (fromHtml : String → String) (me a : String) : Operation → List Request
  | authLogin email password => DBUtil.authLogin a email password
  | authVerifyEmail email case => DBUtil.authVerifyEmail a email case
  | authSignupCreateAccount email password => DBUtil.authSignupCreateAccount a email password
  | userCreateInUsers user => DBUtil.userCreateInUsers a user
  | userVerifyUsername username => DBUtil.userVerifyUsername a username
  | userUpdateProfile oldUser newUser => DBUtil.userUpdateProfile a oldUser newUser
  | userUpdatePostsValue newValue case => DBUtil.userUpdatePostsValue me a newValue case
  | userUpdatePostLikesValue newValue case => DBUtil.userUpdatePostLikesValue me a newValue case
  | userUpdateCommentLikesValue newValue case => DBUtil.userUpdateCommentLikesValue me a newValue case
  | userUpdatePostYCardValue newValue => DBUtil.userUpdatePostYCardValue me a newValue
  | userUpdateCommentYCardValue newValue => DBUtil.userUpdateCommentYCardValue me a newValue
  | userGetUserDetailWithEmail userEmail => DBUtil.userGetUserDetailWithEmail a userEmail
  | userGetUserInfo => DBUtil.userGetUserInfo me a
  | forumCheckUpdate originalCount => DBUtil.forumCheckUpdate a originalCount
  | forumGetPosts => DBUtil.forumGetPosts a
  | forumCreatePost newPost => DBUtil.forumCreatePost a newPost
  | forumUpdatePost oldPost newPost => DBUtil.forumUpdatePost a oldPost newPost
  | forumGetPostWithId postId => DBUtil.forumGetPostWithId a postId
  | forumDeletePost postId => DBUtil.forumDeletePost a postId
  | forumCreateComment comment => DBUtil.forumCreateComment fromHtml a comment
  | forumGetComments commentIds => DBUtil.forumGetComments a commentIds
  | forumUpdateCommentInComments comment case => DBUtil.forumUpdateCommentInComments a comment case
  | forumUpdateLikeOnComment comment case => DBUtil.forumUpdateLikeOnComment a comment case

/-! ### Following the listeners -/

section Replies

-- which tasks the backend lets succeed
variable (ok : Request → Bool)

/-- The broadcasts that come of the task `q`, with `n` tasks at most one in the other;
`none` if a listener throws. -/
def replies : ℕ → Database → Request → Option (List Intent)
  | 0, _, _ => none
  | n + 1, db, q =>
    (exec (ok q) db q).bind fun r =>
      (r.2.mapM fun b => Sum.elim (fun q' => replies n r.1 q') (fun i => some [i]) b).map List.flatten

/-- The tasks that are started on the way. -/
def started : ℕ → Database → Request → List Request
  | 0, _, _ => []
  | n + 1, db, q =>
    q :: (((exec (ok q) db q).map fun r =>
      r.2.flatMap fun b => Sum.elim (fun q' => started n r.1 q') (fun _ => []) b).getD [])

/-- How many tasks deep the listeners of the task go. -/
def depth : Request → ℕ
  | .getUser .. | .getPosts .. | .getPost .. | .getCommentsStepThree .. => 1
  | .getCommentsStepTwo .. => 2
  | .getComments .. => 3
  | _ => 0

/-- The backend can do what the task asks for. -/
def possible (db : Database) : Request → Bool
  | .signIn _ email pwd => db.accounts.get email == some pwd
  | .createAccount _ email _ => !((db.accounts.get email).isSome || email == "")
  | .updateUser _ id _ | .updateUserArray _ id .. => (db.users.get id).isSome
  | .updatePost _ id _ => (db.posts.get id).isSome
  | .updateComment _ id _ => (db.comments.get id).isSome
  | _ => true

/-- The answer of a verification; a task that verifies nothing has a positive one. -/
def verdict (db : Database) : Request → Bool
  | .fetchSignIn _ email case =>
    if (db.accounts.get email).isSome then case == caseLogin else !(case == caseLogin)
  | .queryUsername _ name => decide ((db.users.toList.filter (·.2.username = name)).length ≤ 0)
  | .countPosts _ n => n != db.posts.size
  | _ => true

/-- The tasks `qs` throw nothing and send one broadcast with the action `a`: positive if
all that they start succeeds and they verify what they verify. -/
def Answered (db : Database) (a : String) (qs : List Request) : Prop :=
  ∃ x, (qs.mapM fun q => replies ok (depth q + 1) db q).map List.flatten =
    some [⟨a, (qs.flatMap fun q => started ok (depth q + 1) db q).all (fun q => ok q && possible db q) &&
      qs.all (verdict db), x⟩]

variable {ok} {db db' : Database} {q q' : Request} {i : Intent} {n : ℕ}

/-- Nested tasks come to an end. -/
theorem depth_exec {b : Bool} {out : List (Request ⊕ Intent)} (h : exec b db q = some (db', out))
    (hq : .inl q' ∈ out) : depth q' < depth q := by
  cases executed_exec h with
  | fails hall => cases hall _ hq
  | wrote | answers | getUserPosts | getPostsStepTwo | getPostAuthor | getCommentsStepFour =>
    cases List.mem_singleton.mp hq
  | _ =>
    obtain rfl := Sum.inl.inj (List.mem_singleton.mp hq)
    exact Nat.lt_succ_self _

theorem mapM_congr {α β : Type*} {f g : α → Option β} {l : List α} (h : ∀ x ∈ l, f x = g x) :
    l.mapM f = l.mapM g := by
  induction l with
  | nil => rfl
  | cons x l ih =>
    rw [List.mapM_cons, List.mapM_cons, h x List.mem_cons_self, ih fun y hy => h y (List.mem_cons_of_mem x hy)]

/-- More room for nested tasks changes nothing. -/
theorem replies_fuel (hn : depth q < n) : replies ok n db q = replies ok (depth q + 1) db q := by
  have hmono : ∀ {k n m : ℕ} {db : Database} {q : Request}, depth q < n → depth q < m → depth q < k →
      replies ok n db q = replies ok m db q := by
    intro k
    induction k with
    | zero => exact fun _ _ h => absurd h (Nat.not_lt_zero _)
    | succ k ih =>
      intro n m db q hn hm hk
      cases n with
      | zero => omega
      | succ n =>
        cases m with
        | zero => omega
        | succ m =>
          simp only [replies]
          cases he : exec (ok q) db q with
          | none => rfl
          | some r =>
            simp only [Option.bind_some]
            refine congrArg _ (mapM_congr fun b hb => ?_)
            cases b with
            | inr i => rfl
            | inl q' =>
              have hd := depth_exec he hb
              exact ih (by omega) (by omega) (by omega)
  exact hmono hn (Nat.lt_succ_self _) hn

/-! ### One task -/

/-- `Answered` of one task. -/
def Answers₁ (ok : Request → Bool) (n : ℕ) (db : Database) (a : String) (v : Bool) (q : Request) : Prop :=
  ∃ x, replies ok n db q =
    some [⟨a, (started ok n db q).all (fun q => ok q && possible db q) && v, x⟩]

theorem answered_one {a : String} :
    Answered ok db a [q] ↔ Answers₁ ok (depth q + 1) db a (verdict db q) q := by
  unfold Answered Answers₁
  simp only [List.mapM_cons, List.mapM_nil, List.flatMap_cons, List.flatMap_nil, List.append_nil,
    List.all_cons, List.all_nil, Bool.and_true]
  cases replies ok (depth q + 1) db q with
  | none => simp
  | some is => simp

theorem not_answered_nil {a : String} : ¬ Answered ok db a [] := by
  rintro ⟨x, h⟩
  cases h

section One

variable {a : String} {v : Bool}

theorem answers_throws (h : exec (ok q) db q = none) : ¬ Answers₁ ok (n + 1) db a v q := by
  rintro ⟨x, hx⟩
  rw [replies, h] at hx
  cases hx

theorem answers_silent (h : exec (ok q) db q = some (db', [])) : ¬ Answers₁ ok (n + 1) db a v q := by
  rintro ⟨x, hx⟩
  rw [replies, h] at hx
  cases hx

theorem answers_twice {i' : Intent} (h : exec (ok q) db q = some (db', [.inr i, .inr i'])) :
    ¬ Answers₁ ok (n + 1) db a v q := by
  rintro ⟨x, hx⟩
  rw [replies, h] at hx
  cases hx

theorem answers_reply {r : Bool} {x : Option Extra} (h : exec (ok q) db q = some (db', [.inr ⟨a, r, x⟩]))
    (hr : r = ((ok q && possible db q) && v)) : Answers₁ ok (n + 1) db a v q := by
  refine ⟨x, ?_⟩
  simp only [replies, started, h, hr, Option.bind_some, List.mapM_cons, List.mapM_nil, Sum.elim_inr,
    Option.map_some, Option.getD_some, List.flatMap_cons, List.flatMap_nil, List.append_nil, List.all_cons,
    List.all_nil, Bool.and_true]
  rfl

/-- A task that goes on with another one has the other one's answer. -/
theorem answers_goOn (h : exec (ok q) db q = some (db', [.inl q'])) (hq : (ok q && possible db q) = true)
    (hdb : db' = db) : Answers₁ ok (n + 1) db a v q ↔ Answers₁ ok n db a v q' := by
  unfold Answers₁
  simp only [replies, started, h, hq, hdb, Option.bind_some, List.mapM_cons, List.mapM_nil, Sum.elim_inl,
    Option.map_some, Option.getD_some, List.flatMap_cons, List.flatMap_nil, List.append_nil, List.all_cons,
    Bool.true_and]
  cases replies ok n db q' with
  | none => simp
  | some is => simp

/-- A task without a failure listener that goes on with another one. -/
theorem answers_silent_or_goOn (hfail : exec false db q = some (db, []))
    (hgo : exec true db q = some (db, [.inl q'])) (hq : possible db q = true) :
    Answers₁ ok (n + 1) db a v q ↔ ok q = true ∧ Answers₁ ok n db a v q' := by
  cases hok : ok q with
  | false =>
    simp only [Bool.false_eq_true, false_and, iff_false]
    exact answers_silent (hok ▸ hfail)
  | true =>
    simp only [true_and]
    exact answers_goOn (hok ▸ hgo) (by rw [hok, hq]; rfl) rfl

/-- A last task without a failure listener, whose listener throws if `o` is not there. -/
theorem answers_silent_or_reply {β : Type*} {o : Option β} {x : β → Extra} (hfail : exec false db q = some (db, []))
    (hlast : exec true db q = o.map fun y => (db, [.inr ⟨a, true, some (x y)⟩])) (hq : possible db q = true)
    (hv : v = true) : Answers₁ ok (n + 1) db a v q ↔ ok q = true ∧ o.isSome := by
  cases hok : ok q with
  | false =>
    simp only [Bool.false_eq_true, false_and, iff_false]
    exact answers_silent (hok ▸ hfail)
  | true =>
    simp only [true_and]
    rw [← hok] at hlast
    cases o with
    | none =>
      simp only [Option.isSome_none, Bool.false_eq_true, iff_false]
      exact answers_throws hlast
    | some y =>
      simp only [Option.isSome_some, iff_true]
      exact answers_reply hlast (by rw [hok, hq, hv]; rfl)

theorem answers_write {w : Option Database} (h : exec (ok q) db q = write db a (ok q) w)
    (hw : possible db q = w.isSome) (hv : v = true) : Answers₁ ok (n + 1) db a v q := by
  have hdone : ∃ db', exec (ok q) db q = some (db', [.inr ⟨a, ok q && w.isSome, none⟩]) := by
    rw [h]
    unfold write
    cases ok q with
    | false => exact ⟨db, rfl⟩
    | true =>
      cases w with
      | none => exact ⟨db, rfl⟩
      | some db' => exact ⟨db', rfl⟩
  obtain ⟨db', hexec⟩ := hdone
  refine answers_reply hexec ?_
  rw [hw, hv, Bool.and_true]

end One

/-! ### When an operation answers once -/

/-- The second to fourth tasks of `forum_get_comments` that found the comments `es`. -/
def commentTasks (db : Database) (a : String) (es : List (String × CommentDoc)) : List Request :=
  let mentionIds := es.map (·.2.mentionId)
  let authors := es.map fun e => authorOf db e.2.userId
  [.getCommentsStepTwo a (es.map (·.1)) (es.map (·.2.userId)), .getCommentsStepThree a es mentionIds authors,
    .getCommentsStepFour a es mentionIds authors (stepThree db mentionIds)]

/-- No listener is reached that is silent, answers twice or throws. -/
def AnswersOnce (ok : Request → Bool) (db : Database) (me a : String) : Operation → Prop
  | .authVerifyEmail email case => ok (.fetchSignIn a email case) = true
  | .userVerifyUsername username => ok (.queryUsername a username) = true
  | .userUpdatePostsValue _ case | .userUpdatePostLikesValue _ case | .userUpdateCommentLikesValue _ case =>
    case = caseAdd ∨ case = caseRemove
  | .userGetUserDetailWithEmail email => ok (.getUser a email true) = true ∧ (db.users.get email).isSome
  | .userGetUserInfo => ok (.getUser a me false) = true → (db.users.get me).isSome
  | .forumGetPosts => ok (.getPosts a) = true ∧
      (db.posts.toList ≠ [] → PostsAuthored db ∧
        ok (.getPostsStepTwo a (db.posts.toList.map (·.1)) (db.posts.toList.map (·.2.userId))) = true)
  | .forumGetPostWithId postId => ok (.getPost a postId) = true → ∃ d, db.posts.get postId = some d ∧
      (db.users.get d.userId).isSome ∧ ok (.getPostAuthor a (postOfDoc postId d)) = true
  | .forumGetComments ids => ok (.getComments a ids) = true → listed db ids ≠ [] →
      (∀ e ∈ listed db ids, (db.users.get e.2.userId).isSome ∧ Resolves db e.2) ∧
        ∀ q ∈ commentTasks db a (listed db ids), ok q = true
  | .forumUpdateCommentInComments c case => case = caseAdd ∨ case = caseRemove ∨ case = caseUpdate ∧
      ok (.updateComment a c.mId (commentMap c.getRawDesc c.mLikes c)) = true ∧ (db.comments.get c.mId).isSome
  | .forumUpdateLikeOnComment c case => ok (.updateComment a c.mId
      (commentMap c.getRawDesc (if case = caseAdd then c.mLikes + 1 else c.mLikes - 1) c)) = true ∧
        (db.comments.get c.mId).isSome
  | _ => True

section Operations

variable {a : String}

theorem isSome_update {δ γ : Type*} (c : DocStore.Collection δ) (id : String) (f : δ → δ)
    (g : DocStore.Collection δ → γ) : (c.get id).isSome = ((c.update id f).map g).isSome := by
  rw [Option.isSome_map]
  unfold DocStore.Collection.update
  rw [Option.isSome_map]

theorem answered_userArray {me v : String} {f : UserArray} {op : ArrayOp} :
    Answered ok db a [.updateUserArray a me f op v] :=
  answered_one.mpr (answers_write rfl (isSome_update ..) rfl)

theorem answered_updateValue {me v : String} {f : UserArray} {case : ℤ} :
    Answered ok db a (userUpdateValue me f a v case) ↔ case = caseAdd ∨ case = caseRemove := by
  unfold userUpdateValue
  split
  · rename_i hadd
    simp only [hadd, true_or, iff_true]
    exact answered_userArray
  · rename_i hadd
    split
    · rename_i hremove
      simp only [hremove, or_true, iff_true]
      exact answered_userArray
    · rename_i hremove
      simp only [hadd, hremove, or_self, iff_false]
      exact not_answered_nil

/-- The update of a comment has no failure listener. -/
theorem answered_updateComment {id : String} {doc : CommentDoc} :
    Answered ok db a [.updateComment a id doc] ↔
      ok (.updateComment a id doc) = true ∧ (db.comments.get id).isSome := by
  rw [answered_one]
  cases hok : ok (.updateComment a id doc) with
  | false =>
    have hsilent : exec (ok (.updateComment a id doc)) db (.updateComment a id doc) = some (db, []) := by
      rw [hok]
      rfl
    simp only [Bool.false_eq_true, false_and, iff_false]
    exact answers_silent hsilent
  | true =>
    cases hget : db.comments.get id with
    | none =>
      have hsilent : exec (ok (.updateComment a id doc)) db (.updateComment a id doc) = some (db, []) := by
        simp only [exec, hok, DocStore.Collection.update, hget, Option.map_none]
      simp only [Option.isSome_none, Bool.false_eq_true, and_false, iff_false]
      exact answers_silent hsilent
    | some d =>
      have hwrite : exec (ok (.updateComment a id doc)) db (.updateComment a id doc) =
          some ({ db with comments := db.comments.set id doc }, [.inr ⟨a, true, none⟩]) := by
        simp only [exec, hok, update_isSome hget]
      simp only [Option.isSome_some, and_self, iff_true]
      refine answers_reply hwrite ?_
      simp only [hok, possible, hget, verdict, Option.isSome_some, Bool.and_self]

theorem answered_getUserPosts {email : String} {d : UserDoc} (h : depth (.getUserPosts a email d) < n) :
    Answers₁ ok n db a true (.getUserPosts a email d) := by
  cases n with
  | zero => exact absurd h (Nat.not_lt_zero _)
  | succ n =>
    cases hok : ok (.getUserPosts a email d) with
    | false =>
      have hreply : exec (ok (.getUserPosts a email d)) db (.getUserPosts a email d) =
          some (db, [.inr ⟨a, false, none⟩]) := by
        rw [hok]
        rfl
      exact answers_reply hreply (by rw [hok]; rfl)
    | true =>
      have hreply : exec (ok (.getUserPosts a email d)) db (.getUserPosts a email d) =
          some (db, [.inr ⟨a, true, some (.user (userOfDoc email d (postsOfUser db email)))⟩]) := by
        rw [hok]
        rfl
      exact answers_reply hreply (by rw [hok]; rfl)

/-- The user details: `silent` says that the first failure listener is empty. -/
theorem answered_getUser {email : String} {silent : Bool} :
    Answered ok db a [.getUser a email silent] ↔
      if ok (.getUser a email silent) then (db.users.get email).isSome = true else silent = false := by
  rw [answered_one]
  cases hok : ok (.getUser a email silent) with
  | false =>
    cases silent with
    | false =>
      have hreply : exec (ok (.getUser a email false)) db (.getUser a email false) =
          some (db, [.inr ⟨a, false, none⟩]) := by
        rw [hok]
        rfl
      simp only [Bool.false_eq_true, if_false, iff_true]
      exact answers_reply hreply (by rw [hok]; rfl)
    | true =>
      have hsilent : exec (ok (.getUser a email true)) db (.getUser a email true) = some (db, []) := by
        rw [hok]
        rfl
      simp only [Bool.false_eq_true, if_false, reduceCtorEq, iff_false]
      exact answers_silent hsilent
  | true =>
    simp only [if_true]
    cases hget : db.users.get email with
    | none =>
      have hthrows : exec (ok (.getUser a email silent)) db (.getUser a email silent) = none := by
        simp only [exec, hok, if_true, hget]
      simp only [Option.isSome_none, Bool.false_eq_true, iff_false]
      exact answers_throws hthrows
    | some d =>
      have hgoOn : exec (ok (.getUser a email silent)) db (.getUser a email silent) =
          some (db, [.inl (.getUserPosts a email d)]) := by
        simp only [exec, hok, if_true, hget]
      simp only [Option.isSome_some, iff_true]
      exact (answers_goOn hgoOn (by rw [hok]; rfl) rfl).mpr (answered_getUserPosts (Nat.lt_succ_self _))

theorem isSome_mapM {α β : Type*} {f : α → Option β} {l : List α} :
    (l.mapM f).isSome ↔ ∀ x ∈ l, (f x).isSome := by
  induction l with
  | nil => simp
  | cons x l ih =>
    rw [List.forall_mem_cons, ← ih, List.mapM_cons]
    cases f x with
    | none => simp
    | some y =>
      cases l.mapM f with
      | none => simp
      | some ys => simp

theorem isSome_getPostStepTwo :
    (getPostStepTwo db (db.posts.toList.map (·.1)) (db.posts.toList.map (·.2.userId))).isSome ↔
      PostsAuthored db := by
  rw [getPostStepTwo, List.zip_map', List.mapM_map, isSome_mapM, ← postsAuthored_iff]
  refine forall₂_congr fun e he => ?_
  have hget : db.posts.get e.1 = some e.2 := mem_toList.mp he
  cases hu : db.users.get e.2.userId <;> simp [hget, hu]

/-- Neither query of `forum_get_posts` has a failure listener. -/
theorem answered_getPosts : Answered ok db a [.getPosts a] ↔ ok (.getPosts a) = true ∧
    (db.posts.toList ≠ [] → PostsAuthored db ∧
      ok (.getPostsStepTwo a (db.posts.toList.map (·.1)) (db.posts.toList.map (·.2.userId))) = true) := by
  rw [answered_one]
  cases hok : ok (.getPosts a) with
  | false =>
    have hsilent : exec (ok (.getPosts a)) db (.getPosts a) = some (db, []) := by
      rw [hok]
      rfl
    simp only [Bool.false_eq_true, false_and, iff_false]
    exact answers_silent hsilent
  | true =>
    simp only [true_and]
    by_cases hnil : db.posts.toList = []
    · have hreply : exec (ok (.getPosts a)) db (.getPosts a) = some (db, [.inr ⟨a, true, none⟩]) := by
        rw [hok]
        simp [exec, hnil]
      simp only [hnil, ne_eq, not_true_eq_false, false_imp_iff, iff_true]
      exact answers_reply hreply (by rw [hok]; rfl)
    · have hgoOn : exec (ok (.getPosts a)) db (.getPosts a) = some (db, [.inl (.getPostsStepTwo a
          (db.posts.toList.map (·.1)) (db.posts.toList.map (·.2.userId)))]) := by
        rw [hok]
        simp [exec, List.length_pos_iff.mpr hnil]
      simp only [hnil, ne_eq, not_false_eq_true, true_imp_iff]
      rw [depth, answers_goOn hgoOn (by rw [hok]; rfl) rfl, ← isSome_getPostStepTwo, and_comm]
      exact answers_silent_or_reply rfl rfl rfl rfl

/-- The post is read with a failure listener, its author with an empty one. -/
theorem answered_getPost {postId : String} : Answered ok db a [.getPost a postId] ↔
    (ok (.getPost a postId) = true → ∃ d, db.posts.get postId = some d ∧
      (db.users.get d.userId).isSome ∧ ok (.getPostAuthor a (postOfDoc postId d)) = true) := by
  rw [answered_one]
  cases hok : ok (.getPost a postId) with
  | false =>
    have hreply : exec (ok (.getPost a postId)) db (.getPost a postId) = some (db, [.inr ⟨a, false, none⟩]) := by
      rw [hok]
      rfl
    simp only [Bool.false_eq_true, false_imp_iff, iff_true]
    exact answers_reply hreply (by rw [hok]; rfl)
  | true =>
    simp only [true_imp_iff]
    cases hget : db.posts.get postId with
    | none =>
      have hthrows : exec (ok (.getPost a postId)) db (.getPost a postId) = none := by
        simp only [exec, hok, if_true, hget]
      simp only [reduceCtorEq, false_and, exists_false, iff_false]
      exact answers_throws hthrows
    | some d =>
      have hgoOn : exec (ok (.getPost a postId)) db (.getPost a postId) =
          some (db, [.inl (.getPostAuthor a (postOfDoc postId d))]) := by
        simp only [exec, hok, if_true, hget]
      have hauthor : exec true db (.getPostAuthor a (postOfDoc postId d)) = (db.users.get d.userId).map fun u =>
          (db, [.inr ⟨a, true, some (.post (withAuthor (postOfDoc postId d) u))⟩]) := by
        have hemail : (postOfDoc postId d).mAuthorEmail = d.userId := rfl
        simp only [exec, if_true, hemail]
        cases db.users.get d.userId <;> rfl
      simp only [Option.some.injEq, exists_eq_left']
      rw [depth, answers_goOn hgoOn (by rw [hok]; rfl) rfl, and_comm]
      exact answers_silent_or_reply rfl hauthor rfl rfl

theorem isSome_stepTwo {ids : List String} :
    (stepTwo db ((stepOne db ids).map (·.1)) ((stepOne db ids).map (·.2))).isSome ↔
      ∀ e ∈ listed db ids, (db.users.get e.2.userId).isSome := by
  have hone : stepOne db ids = (listed db ids).map fun e => (e.1, e.2.userId) := rfl
  rw [stepTwo, List.zip_map', List.map_id', hone, List.mapM_map, isSome_mapM]
  refine forall₂_congr fun e he => ?_
  obtain ⟨hget, -⟩ := mem_listed.mp he
  cases hu : db.users.get e.2.userId <;> simp [hget, hu]

theorem isSome_labelled {es : List (String × CommentDoc)} :
    (labelled db es).isSome ↔ ∀ e ∈ es, Resolves db e.2 := by
  constructor
  · intro h e he
    by_contra hno
    rw [labelled_missing ⟨e, he, hno⟩] at h
    cases h
  · intro h
    rw [labelled_eq h]
    rfl

theorem map_stepOne (db : Database) (ids : List String) :
    (stepOne db ids).map (·.1) = (listed db ids).map (·.1) ∧
      (stepOne db ids).map (·.2) = (listed db ids).map (·.2.userId) := by
  have hone : stepOne db ids = (listed db ids).map fun e => (e.1, e.2.userId) := rfl
  rw [hone, List.map_map, List.map_map]
  exact ⟨rfl, rfl⟩

/-- The second to fourth steps of `forum_get_comments` have no failure listener. -/
theorem answers_commentTasks {ids : List String} {v : Bool} (hv : v = true) :
    Answers₁ ok 3 db a v (.getCommentsStepTwo a ((stepOne db ids).map (·.1)) ((stepOne db ids).map (·.2))) ↔
      (∀ e ∈ listed db ids, (db.users.get e.2.userId).isSome ∧ Resolves db e.2) ∧
        ∀ q ∈ commentTasks db a (listed db ids), ok q = true := by
  obtain ⟨hids, hauthors⟩ := map_stepOne db ids
  simp only [commentTasks, List.forall_mem_cons, List.not_mem_nil, false_imp_iff, implies_true, and_true]
  rw [← hids, ← hauthors]
  cases htwo : stepTwo db ((stepOne db ids).map (·.1)) ((stepOne db ids).map (·.2)) with
  | none =>
    have hno : ¬ ∀ e ∈ listed db ids, (db.users.get e.2.userId).isSome := by
      rw [← isSome_stepTwo, htwo]
      exact Bool.false_ne_true
    refine iff_of_false (fun h => ?_) fun h => hno fun e he => (h.1 e he).1
    cases hok2 : ok (.getCommentsStepTwo a ((stepOne db ids).map (·.1)) ((stepOne db ids).map (·.2))) with
    | false => exact answers_silent (by rw [hok2]; rfl) h
    | true =>
      refine answers_throws ?_ h
      rw [hok2]
      simp only [exec, if_true, htwo, Option.map_none]
  | some es =>
    have hall : ∀ e ∈ listed db ids, (db.users.get e.2.userId).isSome :=
      isSome_stepTwo.mp (by rw [htwo]; rfl)
    obtain rfl : es = (listed db ids).map fun e => (e, authorOf db e.2.userId) :=
      Option.some.inj (htwo.symm.trans (stepTwo_listed hall))
    have hgo2 : exec true db (.getCommentsStepTwo a ((stepOne db ids).map (·.1))
        ((stepOne db ids).map (·.2))) = some (db, [.inl (.getCommentsStepThree a (listed db ids)
          ((listed db ids).map (·.2.mentionId))
          ((listed db ids).map fun e => authorOf db e.2.userId))]) := by
      simp only [exec, if_true, htwo, Option.map_some, List.map_map, Function.comp_def, List.map_id']
    have hresolves : (∀ e ∈ listed db ids, (db.users.get e.2.userId).isSome ∧ Resolves db e.2) ↔
        (labelled db (listed db ids)).isSome := by
      rw [isSome_labelled]
      exact ⟨fun h e he => (h e he).2, fun h e he => ⟨hall e he, h e he⟩⟩
    have hfour : Answers₁ ok 1 db a v (.getCommentsStepFour a (listed db ids) ((listed db ids).map (·.2.mentionId))
        ((listed db ids).map fun e => authorOf db e.2.userId)
        (stepThree db ((listed db ids).map (·.2.mentionId)))) ↔ _ := answers_silent_or_reply rfl rfl rfl hv
    rw [answers_silent_or_goOn rfl hgo2 rfl, answers_silent_or_goOn rfl rfl rfl, hfour, hresolves]
    tauto

/-- Of the four steps of `forum_get_comments` only the first has a failure listener. -/
theorem answered_getComments {ids : List String} : Answered ok db a [.getComments a ids] ↔
    (ok (.getComments a ids) = true → listed db ids ≠ [] →
      (∀ e ∈ listed db ids, (db.users.get e.2.userId).isSome ∧ Resolves db e.2) ∧
        ∀ q ∈ commentTasks db a (listed db ids), ok q = true) := by
  have hlen : (stepOne db ids).length = (listed db ids).length := List.length_map ..
  rw [answered_one]
  cases hok : ok (.getComments a ids) with
  | false =>
    have hreply : exec (ok (.getComments a ids)) db (.getComments a ids) =
        some (db, [.inr ⟨a, false, none⟩]) := by
      rw [hok]
      rfl
    simp only [Bool.false_eq_true, false_imp_iff, iff_true]
    exact answers_reply hreply (by rw [hok]; rfl)
  | true =>
    simp only [true_imp_iff]
    by_cases hnil : listed db ids = []
    · have hreply : exec (ok (.getComments a ids)) db (.getComments a ids) =
          some (db, [.inr ⟨a, true, none⟩]) := by
        rw [hnil, List.length_nil] at hlen
        rw [hok]
        simp [exec, hlen]
      simp only [hnil, ne_eq, not_true_eq_false, false_imp_iff, iff_true]
      exact answers_reply hreply (by rw [hok]; rfl)
    · have hpos : (stepOne db ids).length > 0 := hlen ▸ List.length_pos_iff.mpr hnil
      have hone : exec (ok (.getComments a ids)) db (.getComments a ids) =
          some (db, [.inl (.getCommentsStepTwo a ((stepOne db ids).map (·.1)) ((stepOne db ids).map (·.2)))]) := by
        rw [hok]
        simp [exec, hpos]
      simp only [hnil, ne_eq, not_false_eq_true, true_imp_iff]
      rw [depth, answers_goOn hone (by rw [hok]; rfl) rfl]
      exact answers_commentTasks rfl

end Operations

end Replies

/-! Ann verifies an e-mail and a username and loads the forum, and each first query fails. -/

end DBUtil
end FootballGallery
