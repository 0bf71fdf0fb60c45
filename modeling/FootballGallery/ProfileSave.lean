/-
# A save of the profile and what the user does elsewhere

The page writes the whole document from the user that it has been opened with,
and with it the five arrays as they were when the profile was loaded. The
user's other sessions, and writes still pending, change these arrays one value
at a time. A save keeps what they leave exactly when that is what the profile
was loaded with: the arrays of the document then, and for the posts the ids of
the stored posts, which the load reads from `posts`.

Key definitions: `Elsewhere`, `left`, `Saves`, `SaveFrame`.
Key theorems: `left_carryOut`, `saves_updateUser`, `save_frame_iff`.
-/
import FootballGallery.Forum
import FootballGallery.ProfileEditActivity
import FootballGallery.TaskSteps

namespace FootballGallery
namespace ProfileSave

open DBUtil DocStore ProfileEditActivity
open Forum (derbyId)

/-- What the user does in other sessions. -/
inductive Elsewhere where
  | createPost (post : Post)
  | deletePost (postId : String)
  | likePost (oldPost newPost : Post) (case : ℤ)
  | ycardPost (oldPost newPost : Post)
  | likeComment (c : Comment) (case : ℤ)
  | ycardComment (c : Comment)

/-- The writes it takes, each with its own action in `a`. -/
def Elsewhere.requests (me a : String) : Elsewhere → List Request
  | .createPost post => forumCreatePost a post ++ userUpdatePostsValue me a post.mId caseAdd
  | .deletePost postId => forumDeletePost a postId ++ userUpdatePostsValue me a postId caseRemove
  | .likePost oldPost newPost case =>
      userUpdatePostLikesValue me a oldPost.mId case ++ forumUpdatePost a oldPost newPost
  | .ycardPost oldPost newPost =>
      userUpdatePostYCardValue me a oldPost.mId ++ forumUpdatePost a oldPost newPost
  | .likeComment c case =>
      userUpdateCommentLikesValue me a c.mId case ++ forumUpdateCommentInComments a c caseUpdate
  | .ycardComment c => userUpdateCommentYCardValue me a c.mId ++ forumUpdateCommentInComments a c caseUpdate

/-- `q` is a write of another session of `me`. -/
def WrittenElsewhere (me : String) (q : Request) : Prop := ∃ (e : Elsewhere) (a : String), q ∈ e.requests me a

/-- What a write of another session leaves of the user's document. -/
def left (doc : UserDoc) : Request → UserDoc
  | .updateUserArray _ _ f op v => doc.updateArray f op v
  | _ => doc

/-- The ids of the stored posts of `me`, as a load of the profile finds them. -/
def storedPostIds (db : Database) (me : String) : List String :=
  (db.posts.toList.filter (·.2.userId = me)).map (·.1)

/-- The arrays that the profile of `u` is written with. -/
def arrayOf (u : User) : UserArray → List String
  | .posts => u.getPostIds
  | .postLikes => u.mPostLikes
  | .postYCards => u.mPostYCards
  | .commentLikes => u.mCommentLikes
  | .commentYCards => u.mCommentYCards

/-- The page opened with `u`, whatever its user and the replies do. -/
inductive Edits (u : User) : ProfileEdit → Prop
  | opened : Edits u (onCreate u)
  | tapped {p} (h : Edits u p) (a : Action) : Edits u (act p a).1
  | replied {p} (h : Edits u p) (i : Intent) : Edits u (onReceive p i).1

/-- `q` is a save of the page opened with `u`. -/
def Saves (u : User) (q : Request) : Prop :=
  writes q = true ∧ ∃ p, Edits u p ∧ ((∃ a, q ∈ (act p a).2) ∨ ∃ i, q ∈ (onReceive p i).2)

/-- From `db` to `db'` nothing changes but the username, the photo and the emblem of `me`. -/
structure SaveFrame (me : String) (db db' : Database) : Prop where
  user : ∃ doc doc', db.users.get me = some doc ∧ db'.users.get me = some doc' ∧
    ∀ f, doc'.array f = doc.array f
  others : ∀ id, id ≠ me → db'.users.get id = db.users.get id
  posts : db'.posts = db.posts
  comments : db'.comments = db.comments
  accounts : db'.accounts = db.accounts

/-! ### Other sessions -/

section Elsewhere

variable {me : String} {db db' : Database} {doc : UserDoc}

/-- A write of another session changes one array of the user's document, or no user at all. -/
theorem writtenElsewhere_cases {q : Request} (h : WrittenElsewhere me q) :
    (∃ a f op v, q = .updateUserArray a me f op v) ∨
      (∀ doc, left doc q = doc) ∧ ∀ db db', Wrote db q db' → db'.users = db.users := by
  have hvalue : ∀ {a v : String} {f : UserArray} {case : ℤ}, q ∈ userUpdateValue me f a v case →
      ∃ a f op v, q = .updateUserArray a me f op v := by
    intro a v f case hq
    obtain ⟨op, rfl⟩ := mem_userUpdateValue hq
    exact ⟨a, f, op, v, rfl⟩
  have hycard : ∀ {a v : String} {f : UserArray}, q ∈ [.updateUserArray a me f .union v] →
      ∃ a f op v, q = .updateUserArray a me f op v :=
    fun hq => ⟨_, _, _, _, List.mem_singleton.mp hq⟩
  obtain ⟨e, a, hq⟩ := h
  -- the other write is of a post or a comment
  cases e with
  | createPost | deletePost =>
    rcases List.mem_append.mp hq with hq | hq
    · obtain rfl := List.mem_singleton.mp hq
      exact .inr ⟨fun _ => rfl, fun _ _ hw => by cases hw; rfl⟩
    · exact .inl (hvalue hq)
  | likePost | likeComment =>
    rcases List.mem_append.mp hq with hq | hq
    · exact .inl (hvalue hq)
    · obtain rfl := List.mem_singleton.mp hq
      exact .inr ⟨fun _ => rfl, fun _ _ hw => by cases hw; rfl⟩
  | ycardPost | ycardComment =>
    rcases List.mem_append.mp hq with hq | hq
    · exact .inl (hycard hq)
    · obtain rfl := List.mem_singleton.mp hq
      exact .inr ⟨fun _ => rfl, fun _ _ hw => by cases hw; rfl⟩

theorem left_exec {q : Request} {out : List (Request ⊕ Intent)} (hq : WrittenElsewhere me q)
    (he : exec true db q = some (db', out)) (hdoc : db.users.get me = some doc) :
    db'.users.get me = some (left doc q) := by
  rcases writtenElsewhere_cases hq with ⟨a, f, op, v, rfl⟩ | ⟨hleft, husers⟩
  · have hid := Collection.ne_of_get hdoc
    simp only [exec, write, Collection.update_isSome hdoc, Option.map_some] at he
    obtain ⟨rfl, -⟩ := Prod.mk.inj (Option.some.inj he)
    exact Collection.get_set_self _ _ hid
  · rw [hleft, ← hdoc]
    cases executed_exec he with
    | wrote hw => rw [husers _ _ hw]
    | _ => rfl

/-- The user's document after the writes of other sessions. -/
theorem left_carryOut {qs : List Request} (hqs : ∀ q ∈ qs, WrittenElsewhere me q)
    (h : carryOut db qs = some db') (hdoc : db.users.get me = some doc) :
    db'.users.get me = some (qs.foldl left doc) := by
  induction qs generalizing db doc with
  | nil =>
    obtain rfl := Option.some.inj h
    exact hdoc
  | cons q qs ih =>
    obtain ⟨⟨db₁, out⟩, he, h⟩ := Option.bind_eq_some_iff.mp h
    have hone := left_exec (hqs q (.head _)) he hdoc
    exact ih (fun q' hq' => hqs q' (.tail _ hq')) h hone

end Elsewhere

/-! ### The save -/

section Save

variable {u : User} {p : ProfileEdit} {q : Request}

theorem Edits.user (h : Edits u p) : p.mUser = u := by
  induction h with
  | opened => rfl
  | @tapped p _ a ih => exact (tapped_act p a).user.trans ih
  | @replied p _ i ih => exact (replied_onReceive p i).user.trans ih

/-- A save writes the arrays that the page has been opened with. -/
theorem saves_updateUser (h : Saves u q) :
    ∃ doc, q = .updateUser updateProfile u.mId doc ∧ ∀ f, doc.array f = arrayOf u f := by
  obtain ⟨hw, p, hp, hq⟩ := h
  obtain rfl := hp.user
  have hmap : ∀ photo f, (profileMap p photo).array f = arrayOf p.mUser f := by
    intro photo f
    cases f <;> rfl
  rcases hq with ⟨a, hq⟩ | ⟨i, hq⟩
  · have ht := tapped_act p a
    generalize (act p a).2 = qs at ht hq
    cases ht with
    | quiet => cases hq
    | verifies =>
      obtain rfl := List.mem_singleton.mp hq
      cases hw
    | saves => exact ⟨_, List.mem_singleton.mp hq, hmap _⟩
  · have hr := replied_onReceive p i
    generalize (onReceive p i).2 = qs at hr hq
    cases hr with
    | quiet => cases hq
    | saves => exact ⟨_, List.mem_singleton.mp hq, hmap _⟩

/-- A save of a stored profile. -/
theorem save_carryOut {db : Database} {doc : UserDoc} (h : Saves u q)
    (hdoc : db.users.get u.mId = some doc) :
    ∃ doc', carryOut db [q] = some { db with users := db.users.set u.mId doc' } ∧
      ∀ f, doc'.array f = arrayOf u f := by
  obtain ⟨doc', rfl, harrays⟩ := saves_updateUser h
  refine ⟨doc', ?_, harrays⟩
  simp only [carryOut, exec, write, Collection.update_isSome hdoc, Option.map_some, Option.bind_some]

end Save

section Frame

variable {me a : String} {db₀ db₁ db₂ : Database} {doc : UserDoc} {u : User}
  {before after : List Request} {q q' : Request}

/-- **A save keeps what other sessions have done exactly when they have done nothing
in the end**: the arrays are again what the load has found, and the listed posts
are the stored ones. -/
theorem save_frame_iff (hdoc : db₀.users.get me = some doc)
    -- the profile is loaded in two steps, with writes between them
    (hget : exec true db₀ (.getUser a me false) = some (db₀, goOn q'))
    (hbefore : ∀ q ∈ before, WrittenElsewhere me q) (h₁ : carryOut db₀ before = some db₁)
    (hposts : exec true db₁ q' = some (db₁, sendBroadcast a true (some (.user u))))
    (hafter : ∀ q ∈ after, WrittenElsewhere me q) (h₂ : carryOut db₁ after = some db₂)
    (hq : Saves u q) :
    (∃ db₃, carryOut db₂ [q] = some db₃ ∧ SaveFrame me db₂ db₃) ↔
      (∀ f, f ≠ .posts → ((before ++ after).foldl left doc).array f = doc.array f) ∧
        ((before ++ after).foldl left doc).posts = storedPostIds db₁ me := by
  have hid := Collection.ne_of_get hdoc
  obtain rfl : .getUserPosts a me doc = q' := by
    simpa [exec, hdoc] using hget
  obtain rfl : userOfDoc me doc ((db₁.posts.toList.filter (·.2.userId = me)).map fun e => postOfUser e.1 e.2) = u := by
    simpa [exec] using hposts
  have hload : ∀ f, f ≠ .posts → arrayOf (userOfDoc me doc ((db₁.posts.toList.filter (·.2.userId = me)).map
      fun e => postOfUser e.1 e.2)) f = doc.array f := by
    intro f hf
    cases f with
    | posts => exact absurd rfl hf
    | _ => rfl
  have hids : arrayOf (userOfDoc me doc ((db₁.posts.toList.filter (·.2.userId = me)).map
      fun e => postOfUser e.1 e.2)) .posts = storedPostIds db₁ me := by
    simp only [arrayOf, User.getPostIds, userOfDoc, List.map_map, storedPostIds]
    rfl
  have hstored : db₂.users.get me = some ((before ++ after).foldl left doc) := by
    rw [List.foldl_append]
    exact left_carryOut hafter h₂ (left_carryOut hbefore h₁ hdoc)
  obtain ⟨doc', hsave, harrays⟩ := save_carryOut hq hstored
  constructor
  · rintro ⟨db₃, h₃, hframe⟩
    obtain rfl := Option.some.inj (hsave.symm.trans h₃)
    obtain ⟨d, d', hd, hd', hsame⟩ := hframe.user
    obtain rfl := Option.some.inj (hstored.symm.trans hd)
    obtain rfl : doc' = d' := Option.some.inj ((Collection.get_set_self _ _ hid).symm.trans hd')
    refine ⟨fun f hf => ?_, ?_⟩
    · rw [← hsame, harrays, hload f hf]
    · show UserDoc.array _ .posts = _
      rw [← hsame, harrays, hids]
  · rintro ⟨hsame, hlisted⟩
    refine ⟨_, hsave, ⟨_, doc', hstored, Collection.get_set_self _ _ hid, fun f => ?_⟩, ?_, rfl, rfl, rfl⟩
    · rw [harrays]
      by_cases hf : f = .posts
      · rw [hf, hids, ← hlisted]
        rfl
      · rw [hload f hf, hsame f hf]
    · exact fun id hne => Collection.get_set_ne _ _ hne

end Frame

/-! Ann has loaded her profile; on another device she likes her post, and on this one
she becomes "anna". -/

def annDoc : UserDoc := ⟨"ann", "", 0, 1, [derbyId], [], [], [], []⟩

def ann : User := userOfDoc "ann@mail.com" annDoc [postOfUser derbyId Forum.derby]

/-- The profile is loaded as `ann`. -/
theorem loaded_ann : exec true Forum.derbyDb (.getUserPosts "GET_USER_INFO" "ann@mail.com" annDoc) =
    some (Forum.derbyDb, sendBroadcast "GET_USER_INFO" true (some (.user ann))) := rfl

def rename : Request :=
  .updateUser updateProfile "ann@mail.com" ⟨"anna", "", 0, 1, [derbyId], [], [], [], []⟩

def like (op : ArrayOp) : Request := .updateUserArray "LIKE" "ann@mail.com" .postLikes op derbyId

theorem writtenElsewhere_like (op : ArrayOp) : WrittenElsewhere "ann@mail.com" (like op) := by
  have hpost : ∀ case, userUpdatePostLikesValue "ann@mail.com" "LIKE" derbyId case = [like op] →
      WrittenElsewhere "ann@mail.com" (like op) := by
    intro case hcase
    refine ⟨.likePost (postOfDoc derbyId Forum.derby) (postOfDoc derbyId Forum.derby) case, "LIKE", ?_⟩
    refine List.mem_append_left _ ?_
    show like op ∈ userUpdatePostLikesValue "ann@mail.com" "LIKE" derbyId case
    rw [hcase]
    exact .head _
  cases op with
  | union => exact hpost caseAdd rfl
  | remove => exact hpost caseRemove rfl

theorem saves_rename : Saves ann rename := by
  refine ⟨rfl, _, .tapped (.tapped .opened (.typeUName "anna")) .onSaveTap, .inr ⟨⟨verifyUsername, true, none⟩, ?_⟩⟩
  decide

/-- The like is taken back before the save. -/
theorem save_frame_iff_unliked :
    ∃ db₂ db₃, carryOut Forum.derbyDb [like .union, like .remove] = some db₂ ∧
      carryOut db₂ [rename] = some db₃ ∧ SaveFrame "ann@mail.com" db₂ db₃ := by
  have hrun : ∃ db₂, carryOut Forum.derbyDb [like .union, like .remove] = some db₂ := ⟨_, rfl⟩
  obtain ⟨db₂, h₂⟩ := hrun
  have hafter : ∀ q ∈ [like .union, like .remove], WrittenElsewhere "ann@mail.com" q := by
    intro q hq
    rcases List.mem_cons.mp hq with rfl | hq
    · exact writtenElsewhere_like .union
    · obtain rfl := List.mem_singleton.mp hq
      exact writtenElsewhere_like .remove
  have hiff := @save_frame_iff "ann@mail.com" "GET_USER_INFO" Forum.derbyDb Forum.derbyDb db₂ annDoc ann []
    [like .union, like .remove] rename (.getUserPosts "GET_USER_INFO" "ann@mail.com" annDoc) (by decide) rfl
    (fun q hq => by cases hq) rfl loaded_ann hafter h₂ saves_rename
  obtain ⟨db₃, h₃, hframe⟩ := hiff.mpr ⟨fun f _ => by cases f <;> decide, by decide⟩
  exact ⟨db₂, db₃, h₂, h₃, hframe⟩

/-- The like is lost. -/
theorem save_loses_like :
    exec true Forum.derbyDb (.getUser "GET_USER_INFO" "ann@mail.com" false) =
        some (Forum.derbyDb, goOn (.getUserPosts "GET_USER_INFO" "ann@mail.com" annDoc)) ∧
      exec true Forum.derbyDb (.getUserPosts "GET_USER_INFO" "ann@mail.com" annDoc) =
        some (Forum.derbyDb, sendBroadcast "GET_USER_INFO" true (some (.user ann))) ∧
      Saves ann rename ∧ WrittenElsewhere "ann@mail.com" (like .union) ∧
      ∃ db₂ db₃, carryOut Forum.derbyDb [like .union] = some db₂ ∧ carryOut db₂ [rename] = some db₃ ∧
        ¬ SaveFrame "ann@mail.com" db₂ db₃ := by
  have hliked : ((carryOut Forum.derbyDb [like .union]).bind (·.users.get "ann@mail.com")).map
      (·.array .postLikes) = some [derbyId] := by decide
  have hsaved : (((carryOut Forum.derbyDb [like .union]).bind (carryOut · [rename])).bind
      (·.users.get "ann@mail.com")).map (·.array .postLikes) = some [] := by decide
  obtain ⟨d, hd, hlikes⟩ := Option.map_eq_some_iff.mp hliked
  obtain ⟨d', hd', hlikes'⟩ := Option.map_eq_some_iff.mp hsaved
  obtain ⟨db₂, h₂, hd⟩ := Option.bind_eq_some_iff.mp hd
  rw [h₂, Option.bind_some] at hd'
  obtain ⟨db₃, h₃, hd'⟩ := Option.bind_eq_some_iff.mp hd'
  refine ⟨rfl, loaded_ann, saves_rename, writtenElsewhere_like .union, db₂, db₃, h₂, h₃, fun hframe => ?_⟩
  obtain ⟨e, e', he, he', hsame⟩ := hframe.user
  obtain rfl := Option.some.inj (hd.symm.trans he)
  obtain rfl := Option.some.inj (hd'.symm.trans he')
  have hlost := hsame .postLikes
  rw [hlikes, hlikes'] at hlost
  cases hlost

end ProfileSave
end FootballGallery
