/-
# What one backend task does

A task that has been carried out has written one document and answers so, or it
has changed nothing and goes on with the task after it, or it answers.
`Executed` says which; what other modules prove about tasks they prove from its
cases, without the listeners.

Key definitions: `Wrote`, `Executed`.
Key theorems: `executed_exec`.
-/
import FootballGallery.DBUtil

namespace FootballGallery
namespace DBUtil

/-- The task writes a document, or an account. -/
def writes : Request → Bool
  | .createAccount .. | .setUser .. | .updateUser .. | .updateUserArray .. | .setPost .. | .updatePost ..
  | .deletePost .. | .setComment .. | .updateComment .. | .deleteComment .. => true
  | _ => false

/-- What a write that succeeds makes of the database. -/
inductive Wrote (db : Database) : Request → Database → Prop
  | createAccount {a email pwd} (hid : email ≠ "") (hnew : db.accounts.get email = none) :
      Wrote db (.createAccount a email pwd) { db with accounts := db.accounts.set email pwd }
  | setUser {a id doc} : Wrote db (.setUser a id doc) { db with users := db.users.set id doc }
  | updateUser {a id doc us} (hu : db.users.update id (fun _ => doc) = some us) :
      Wrote db (.updateUser a id doc) { db with users := us }
  | updateUserArray {a id f op v us} (hu : db.users.update id (·.updateArray f op v) = some us) :
      Wrote db (.updateUserArray a id f op v) { db with users := us }
  | setPost {a id doc} : Wrote db (.setPost a id doc) { db with posts := db.posts.set id doc }
  | updatePost {a id doc ps} (hu : db.posts.update id (fun _ => doc) = some ps) :
      Wrote db (.updatePost a id doc) { db with posts := ps }
  | deletePost {a id} : Wrote db (.deletePost a id) { db with posts := db.posts.delete id }
  | setComment {a id doc} : Wrote db (.setComment a id doc) { db with comments := db.comments.set id doc }
  | updateComment {a id doc cs} (hu : db.comments.update id (fun _ => doc) = some cs) :
      Wrote db (.updateComment a id doc) { db with comments := cs }
  | deleteComment {a id} : Wrote db (.deleteComment a id) { db with comments := db.comments.delete id }

/-- What the task `q` makes of the database `db`: another database, and what its listeners do. -/
inductive Executed (db : Database) : Request → Database → List (Request ⊕ Intent) → Prop
  | wrote {q db'} (hw : Wrote db q db') : Executed db q db' [.inr ⟨q.action, true, none⟩]
  | fails {q out} (h : ∀ b ∈ out, b = .inr ⟨q.action, false, none⟩) : Executed db q db out
  | answers {q} (hq : writes q = false) (r : Bool) : Executed db q db [.inr ⟨q.action, r, none⟩]
  | getUser {a id silent d} (h : db.users.get id = some d) :
      Executed db (.getUser a id silent) db [.inl (.getUserPosts a id d)]
  | getUserPosts {a email d posts} :
      Executed db (.getUserPosts a email d) db [.inr ⟨a, true, some (.user (userOfDoc email d posts))⟩]
  | getPosts {a postIds uIds} : Executed db (.getPosts a) db [.inl (.getPostsStepTwo a postIds uIds)]
  | getPostsStepTwo {a postIds uIds ps} (h : getPostStepTwo db postIds uIds = some ps) :
      Executed db (.getPostsStepTwo a postIds uIds) db [.inr ⟨a, true, some (.posts ps)⟩]
  | getPost {a id d} (h : db.posts.get id = some d) :
      Executed db (.getPost a id) db [.inl (.getPostAuthor a (postOfDoc id d))]
  | getPostAuthor {a p d} (h : db.users.get p.mAuthorEmail = some d) :
      Executed db (.getPostAuthor a p) db [.inr ⟨a, true, some (.post (withAuthor p d))⟩]
  | getComments {a ids} : Executed db (.getComments a ids) db
      [.inl (.getCommentsStepTwo a ((stepOne db ids).map (·.1)) ((stepOne db ids).map (·.2)))]
  | getCommentsStepTwo {a ids uIds es} (h : stepTwo db ids uIds = some es) :
      Executed db (.getCommentsStepTwo a ids uIds) db
        [.inl (.getCommentsStepThree a (es.map (·.1)) (es.map (·.1.2.mentionId)) (es.map (·.2)))]
  | getCommentsStepThree {a es ms us} : Executed db (.getCommentsStepThree a es ms us) db
      [.inl (.getCommentsStepFour a es ms us (stepThree db ms))]
  | getCommentsStepFour {a es ms us ns cs} (h : stepFour db es us ns = some cs) :
      Executed db (.getCommentsStepFour a es ms us ns) db [.inr ⟨a, true, some (.comments cs)⟩]

/-- What the operations that change an array of the signed-in user ask for. -/
theorem mem_userUpdateValue {me a v : String} {f : UserArray} {case : ℤ} {q : Request}
    (h : q ∈ userUpdateValue me f a v case) : ∃ op, q = .updateUserArray a me f op v := by
  unfold userUpdateValue at h
  split at h
  · exact ⟨.union, List.mem_singleton.mp h⟩
  · split at h
    · exact ⟨.remove, List.mem_singleton.mp h⟩
    · cases h

section Executed

variable {ok : Bool} {db db' : Database} {q : Request} {out : List (Request ⊕ Intent)}

theorem executed_answer {r : Bool} (h : some (db, sendBroadcast q.action r none) = some (db', out))
    (hq : writes q = false) : Executed db q db' out := by
  obtain ⟨rfl, rfl⟩ := Prod.mk.inj (Option.some.inj h)
  exact .answers hq r

theorem executed_failure (h : some (db, sendBroadcast q.action false none) = some (db', out)) :
    Executed db q db' out := by
  obtain ⟨rfl, rfl⟩ := Prod.mk.inj (Option.some.inj h)
  exact .fails fun b hb => List.mem_singleton.mp hb

theorem executed_silent (h : some (db, []) = some (db', out)) : Executed db q db' out := by
  obtain ⟨rfl, rfl⟩ := Prod.mk.inj (Option.some.inj h)
  exact .fails fun b hb => by cases hb

theorem executed_write {w : Option Database} (h : write db q.action ok w = some (db', out))
    (hw : ∀ db₁, w = some db₁ → Wrote db q db₁) : Executed db q db' out := by
  unfold write at h
  split at h
  · obtain ⟨rfl, rfl⟩ := Prod.mk.inj (Option.some.inj h)
    exact .wrote (hw _ rfl)
  · exact executed_failure h

/-- What a task goes on with. -/
theorem executed_one {b : Request ⊕ Intent} (h : some (db, [b]) = some (db', out))
    (hb : Executed db q db [b]) : Executed db q db' out := by
  obtain ⟨rfl, rfl⟩ := Prod.mk.inj (Option.some.inj h)
  exact hb

theorem executed_exec (h : exec ok db q = some (db', out)) : Executed db q db' out := by
  cases q with
  | signIn a email pwd => exact executed_answer h rfl
  | fetchSignIn a email case =>
    cases ok with
    | true => exact executed_answer h rfl
    | false => cases h
  | createAccount a email pwd =>
    refine executed_write h fun db₁ hw => ?_
    split at hw
    · cases hw
    · rename_i hfree
      obtain rfl := Option.some.inj hw
      simp only [Bool.or_eq_true, beq_iff_eq, not_or, Bool.not_eq_true, Option.isSome_eq_false_iff,
        Option.isNone_iff_eq_none] at hfree
      exact .createAccount hfree.2 hfree.1
  | setUser a id doc =>
    refine executed_write h fun db₁ hw => ?_
    obtain rfl := Option.some.inj hw
    exact .setUser
  | queryUsername a name =>
    cases ok with
    | true => exact executed_answer h rfl
    | false =>
      obtain ⟨rfl, rfl⟩ := Prod.mk.inj (Option.some.inj h)
      refine .fails fun b hb => ?_
      show b = .inr ⟨a, false, none⟩
      simpa using hb
  | updateUser a id doc =>
    refine executed_write h fun db₁ hw => ?_
    obtain ⟨us, hu, rfl⟩ := Option.map_eq_some_iff.mp hw
    exact .updateUser hu
  | updateUserArray a id f op v =>
    refine executed_write h fun db₁ hw => ?_
    obtain ⟨us, hu, rfl⟩ := Option.map_eq_some_iff.mp hw
    exact .updateUserArray hu
  | getUser a id silent =>
    cases ok with
    | true =>
      simp only [exec, if_true] at h
      split at h
      · cases h
      · rename_i d hget
        exact executed_one h (.getUser hget)
    | false =>
      cases silent with
      | true => exact executed_silent h
      | false => exact executed_failure h
  | getUserPosts a email d =>
    cases ok with
    | true => exact executed_one h .getUserPosts
    | false => exact executed_failure h
  | countPosts a n => exact executed_answer h rfl
  | getPosts a =>
    cases ok with
    | true =>
      simp only [exec, if_true] at h
      split at h
      · exact executed_one h .getPosts
      · exact executed_answer h rfl
    | false => exact executed_silent h
  | getPostsStepTwo a postIds uIds =>
    cases ok with
    | true =>
      simp only [exec, if_true] at h
      obtain ⟨ps, hps, h⟩ := Option.map_eq_some_iff.mp h
      exact executed_one (congrArg some h) (.getPostsStepTwo hps)
    | false => exact executed_silent h
  | setPost a id doc =>
    refine executed_write h fun db₁ hw => ?_
    obtain rfl := Option.some.inj hw
    exact .setPost
  | updatePost a id doc =>
    refine executed_write h fun db₁ hw => ?_
    obtain ⟨ps, hu, rfl⟩ := Option.map_eq_some_iff.mp hw
    exact .updatePost hu
  | getPost a id =>
    cases ok with
    | true =>
      simp only [exec, if_true] at h
      split at h
      · cases h
      · rename_i d hget
        exact executed_one h (.getPost hget)
    | false => exact executed_failure h
  | getPostAuthor a p =>
    cases ok with
    | true =>
      simp only [exec, if_true] at h
      split at h
      · cases h
      · rename_i d hget
        exact executed_one h (.getPostAuthor hget)
    | false => exact executed_silent h
  | deletePost a id =>
    refine executed_write h fun db₁ hw => ?_
    obtain rfl := Option.some.inj hw
    exact .deletePost
  | setComment a id doc =>
    refine executed_write h fun db₁ hw => ?_
    obtain rfl := Option.some.inj hw
    exact .setComment
  | updateComment a id doc =>
    simp only [exec] at h
    split at h
    · rename_i cs hu
      obtain ⟨rfl, rfl⟩ := Prod.mk.inj (Option.some.inj h)
      exact .wrote (.updateComment hu)
    · exact executed_silent h
  | deleteComment a id =>
    refine executed_write h fun db₁ hw => ?_
    obtain rfl := Option.some.inj hw
    exact .deleteComment
  | getComments a ids =>
    cases ok with
    | true =>
      simp only [exec, if_true] at h
      split at h
      · exact executed_one h .getComments
      · exact executed_answer h rfl
    | false => exact executed_failure h
  | getCommentsStepTwo a ids uIds =>
    cases ok with
    | true =>
      simp only [exec, if_true] at h
      obtain ⟨es, hes, h⟩ := Option.map_eq_some_iff.mp h
      exact executed_one (congrArg some h) (.getCommentsStepTwo hes)
    | false => exact executed_silent h
  | getCommentsStepThree a es ms us =>
    cases ok with
    | true => exact executed_one h .getCommentsStepThree
    | false => exact executed_silent h
  | getCommentsStepFour a es ms us ns =>
    cases ok with
    | true =>
      simp only [exec, if_true] at h
      obtain ⟨cs, hcs, h⟩ := Option.map_eq_some_iff.mp h
      exact executed_one (congrArg some h) (.getCommentsStepFour hcs)
    | false => exact executed_silent h

/-- A write that does not answer with a failure has been made. -/
theorem wrote_of_exec (h : exec ok db q = some (db', out)) (hq : writes q = true) (hne : out ≠ [])
    (hr : ∀ i, Sum.inr i ∈ out → i.result = true) : Wrote db q db' ∧ out = [.inr ⟨q.action, true, none⟩] := by
  cases executed_exec h with
  | wrote hw => exact ⟨hw, rfl⟩
  | fails hall =>
    obtain ⟨b, hb⟩ := List.exists_mem_of_ne_nil out hne
    obtain rfl := hall b hb
    cases hr _ hb
  | answers hread =>
    rw [hread] at hq
    cases hq
  | _ => cases hq

end Executed

end DBUtil
end FootballGallery
