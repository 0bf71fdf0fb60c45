/-
# `onResume` and `onPause`: the receivers of the activities

Eight activities register a receiver for each action they listen to when they are
resumed, and unregister receivers when they are paused. Two of them unregister
fewer than they have registered: `AuthSignUpProfile` keeps the one for the check of
the username, and `ForumDetailActivity` the nine for the reactions and the reload.

Whether a second registration of a receiver counts is up to the system, and a
parameter.

Key definitions: `Receiver`, `ActivityClass`, `ActivityClass.listens`, `ActivityClass.forgets`.
Key theorems: `complete_iff`, `receivers_balanced_iff`, `device_receivers`.
-/
import FootballGallery.AuthSignUpEmail
import FootballGallery.AuthSignUpProfile
import FootballGallery.ForumDetailActivity
import FootballGallery.ForumFormActivity
import FootballGallery.Lib.Registry
import FootballGallery.Navigation
import FootballGallery.ProfileEditActivity

namespace FootballGallery

open Receivers

/-- The fields of the activities that have a receiver. -/
inductive Receiver where
  | mEmailCheckReceiver | mLoginReceiver
  | mVerificationReceiver
  | mVerifyUnameReceiver | mCreateAccReceiver | mCreateUserReceiver
  | mGetInfoReceiver | mPopulateForumReceiver | mUpdateForumReceiver | mCheckForumReceiver | mRepopForumReceiver
  | mReceiver | mPostDeleteReceiver | mPostDeleteInUserReceiver | mUpdateReceiver | mCurrUserReceiver
  | mCommentResultReceiver | mGetCommentsReceiver | mUpdateValueReceiver
  | mReceiver1 | mReceiver2 | mReceiver3 | mReceiver4 | mReceiver5 | mReceiver6 | mReceiver7 | mReceiver8
  | mReceiver9
  | mUserInfoReceiver | mPostsCreateReceiver | mPostsUpdateReceiver | mUsersUpdateReceiver
  | mVerifyUNameReceiver | mUpdateInfoReceiver
deriving DecidableEq

/-! ### Each activity -/

namespace AuthHome

def authEmailCheck := "AUTH_EMAIL_CHECK"
def authLogin := "AUTH_LOGIN"

def listens : Listens Receiver String where
  registers := [(.mEmailCheckReceiver, authEmailCheck), (.mLoginReceiver, authLogin)]
  unregisters := [.mEmailCheckReceiver, .mLoginReceiver]

end AuthHome

def AuthSignUpEmail.listens : Listens Receiver String where
  registers := [(.mVerificationReceiver, verifyEmail)]
  unregisters := [.mVerificationReceiver]

/-- The receiver for the username is not unregistered. -/
def AuthSignUpProfile.listens : Listens Receiver String where
  registers := [(.mVerifyUnameReceiver, userVerifyUsernameAction), (.mCreateAccReceiver, authCreateAccount),
    (.mCreateUserReceiver, authCreateUserInUsers)]
  unregisters := [.mCreateAccReceiver, .mCreateUserReceiver]

def CoreActivity.listens : Listens Receiver String where
  registers := [(.mGetInfoReceiver, getUserInfo), (.mPopulateForumReceiver, populateForum),
    (.mUpdateForumReceiver, updateForum), (.mCheckForumReceiver, checkForumCount),
    (.mRepopForumReceiver, repopulateForum)]
  unregisters := [.mGetInfoReceiver, .mPopulateForumReceiver, .mUpdateForumReceiver, .mCheckForumReceiver,
    .mRepopForumReceiver]

/-- The numbered receivers are not unregistered. -/
def ForumDetailActivity.listens : Listens Receiver String where
  registers := [(.mCurrUserReceiver, getCurrentUser), (.mReceiver, getAuthorInfo),
    (.mPostDeleteReceiver, deletePostInPosts), (.mPostDeleteInUserReceiver, deletePostInUsers),
    (.mUpdateReceiver, updateFields), (.mCommentResultReceiver, updateComment),
    (.mGetCommentsReceiver, forumGetCommentsAction), (.mUpdateValueReceiver, updateValue),
    (.mReceiver1, updateUserLike), (.mReceiver2, updateUserYCard), (.mReceiver3, updatePostAfterLike),
    (.mReceiver4, updatePostAfterYCard), (.mReceiver5, userUpdateLikeValueComment),
    (.mReceiver6, commentUpdateLikeValue), (.mReceiver7, getUpdatedPost),
    (.mReceiver8, userUpdateYCardValueComment), (.mReceiver9, commentUpdateYCardValue)]
  unregisters := [.mCurrUserReceiver, .mReceiver, .mPostDeleteReceiver, .mUpdateReceiver,
    .mPostDeleteInUserReceiver, .mCommentResultReceiver, .mGetCommentsReceiver, .mUpdateValueReceiver]

def ForumFormActivity.listens : Listens Receiver String where
  registers := [(.mPostsUpdateReceiver, updatePostInPosts), (.mUsersUpdateReceiver, updatePostInUsers),
    (.mPostsCreateReceiver, createPostInPosts), (.mUserInfoReceiver, getUserInfo)]
  unregisters := [.mPostsUpdateReceiver, .mUsersUpdateReceiver, .mPostsCreateReceiver, .mUserInfoReceiver]

def ProfileActivity.listens : Listens Receiver String where
  registers := [(.mGetInfoReceiver, getUserInfo)]
  unregisters := [.mGetInfoReceiver]

def ProfileEditActivity.listens : Listens Receiver String where
  registers := [(.mVerifyUNameReceiver, verifyUsername), (.mUpdateInfoReceiver, updateProfile)]
  unregisters := [.mVerifyUNameReceiver, .mUpdateInfoReceiver]

/-! ### All activities -/

inductive ActivityClass where
  | authHome | authSignUpEmail | authSignUpProfile
  | coreActivity | forumDetailActivity | forumFormActivity
  | profileActivity | profileEditActivity
deriving DecidableEq

namespace ActivityClass

def listens : ActivityClass → Listens Receiver String
  | authHome => AuthHome.listens
  | authSignUpEmail => AuthSignUpEmail.listens
  | authSignUpProfile => AuthSignUpProfile.listens
  | coreActivity => CoreActivity.listens
  | forumDetailActivity => ForumDetailActivity.listens
  | forumFormActivity => ForumFormActivity.listens
  | profileActivity => ProfileActivity.listens
  | profileEditActivity => ProfileEditActivity.listens

theorem complete_iff (a : ActivityClass) : a.listens.Complete ↔ a ≠ authSignUpProfile ∧ a ≠ forumDetailActivity := by
  cases a <;> decide

/-- **The receivers of an activity are balanced over its life exactly when** it is one of
six, or it is never paused. -/
theorem receivers_balanced_iff (once : Bool) (a : ActivityClass) (n : ℕ) :
    Balanced once a.listens [] (lifeCycle .onResume n) ↔
      (a ≠ authSignUpProfile ∧ a ≠ forumDetailActivity) ∨ n ≤ 1 := by
  rw [balanced_iff, complete_iff]

/-- After the first pause two activities still have receivers. -/
theorem left_registered :
    (∀ once, ¬ Balanced once authSignUpProfile.listens [] (lifeCycle .onResume 2)) ∧
      ∀ once, ¬ Balanced once forumDetailActivity.listens [] (lifeCycle .onResume 2) := by
  constructor
  · intro once h
    rw [balanced_iff] at h
    revert h
    decide
  · intro once h
    rw [balanced_iff] at h
    revert h
    decide

/-- The receivers that an activity registers and does not unregister. -/
def forgets : ActivityClass → List Receiver
  | authSignUpProfile => [.mVerifyUnameReceiver]
  | forumDetailActivity => [.mReceiver1, .mReceiver2, .mReceiver3, .mReceiver4, .mReceiver5, .mReceiver6, .mReceiver7,
    .mReceiver8, .mReceiver9]
  | _ => []

theorem mem_forgets (a : ActivityClass) : ∀ p ∈ a.listens.registers, p.1 ∉ a.listens.unregisters ↔ p.1 ∈ a.forgets := by
  cases a <;> decide

/-- **With any activities on one device**, each resumed and paused in turn, there is never
an error; and a receiver of an activity is registered exactly while this is resumed, or
from its first pause on, if the activity forgets it. -/
theorem device_receivers {ι : Type*} [DecidableEq ι] (once : Bool) (kind : ι → ActivityClass) (es : List (ι × Event))
    (hes : ∀ i, eventsOf i es = lifeCycle .onResume (eventsOf i es).length) :
    ∃ reg, run once (fun i => (kind i).listens) [] es = some reg ∧
      ∀ i (p : Receiver × String), ((i, p.1), p.2) ∈ reg ↔ p ∈ (kind i).listens.registers ∧
        ((eventsOf i es).length % 2 = 1 ∨ 2 ≤ (eventsOf i es).length ∧ p.1 ∈ (kind i).forgets) := by
  obtain ⟨reg, hrun, hreg⟩ := run_lifeCycles once (l := fun i => (kind i).listens) hes
  refine ⟨reg, hrun, fun i p => (hreg i p).trans (and_congr_right fun hp => ?_)⟩
  rw [mem_forgets _ p hp]

/-! A post is opened over the main activity, and closed again. -/

def pageOverCore : Bool → ActivityClass
  | true => forumDetailActivity
  | false => coreActivity

def pageLeft : List (Bool × Event) :=
  [(false, .onResume), (false, .onPause), (true, .onResume), (true, .onPause), (false, .onResume)]

theorem device_receivers_pageLeft : ∃ reg, run true (fun i => (pageOverCore i).listens) [] pageLeft = some reg ∧
    ((true, .mReceiver1), ForumDetailActivity.updateUserLike) ∈ reg := by
  obtain ⟨reg, hrun, hreg⟩ := device_receivers true pageOverCore pageLeft (by decide)
  exact ⟨reg, hrun, (hreg true (.mReceiver1, ForumDetailActivity.updateUserLike)).mpr (by decide)⟩

end ActivityClass

end FootballGallery
