/-
# Who is signed in

`CoreActivity`, `ProfileActivity` and the form of a new post ask for the
signed-in user with the action `GET_USER_INFO`, and a post's page asks for its
author with an action of the same text. A reply that arrives after the page is
left is taken for the signed-in user by the activity that is on top by then,
and a post written next is stored in the author's name.

`Knows` is the law, and `ownReplies` what keeps it: no reply about another user
comes to an activity that takes it for the signed-in one.

Key definitions: `Knows`, `ownReplies`.
Key theorems: `knows_of_reach`, `posted_as_ann`.
-/
import FootballGallery.Forum
import FootballGallery.Navigation

namespace FootballGallery
namespace SignedIn

open DBUtil Async DocStore
open Forum (derbyId newPostId)

/-- A record of the user `me`, if it is set. -/
def OfMe (me : String) (u : Option User) : Prop := ∀ v ∈ u, v.mId = me

/-- What the activity takes for the signed-in user is a record of `me`. -/
def Knows (me : String) : Screen → Prop
  | .core c => OfMe me c.mUser ∧ OfMe me c.fragmentUser
  | .profile p => OfMe me p.mUser
  | .form f => f.mOldPost = none → OfMe me f.mAuthor
  | .detail _ => True

/-- A post created by the message is created in the name of `me`. -/
def PostsAs (me : String) (b : Send ⊕ Intent) : Prop :=
  ∀ a id doc, b = .inl (.call (.setPost a id doc)) → doc.userId = me

/-- The activity takes a user it is told of for the signed-in one. -/
def takesForMe : Screen → Bool
  | .core _ | .profile _ => true
  | .form f => f.mOldPost.isNone
  | .detail _ => false

/-- A reply about a user comes to such an activity only if it is about the signed-in one. -/
def ownReplies (s : NavConf) : Ev NavAction → Bool
  | .deliver n =>
    match s.net[n]? with
    | some ⟨i, _, .inr ⟨a, _, some (.user u)⟩⟩ => a != CoreActivity.getUserInfo ||
        (s.client i).all fun c => !(c.resumed && c.stack.head?.any takesForMe) || u.mId == c.me
    | _ => true
  | _ => true

theorem OfMe.none (me : String) : OfMe me none := fun _ h => by cases h

theorem OfMe.some {me : String} {u : User} (h : u.mId = me) : OfMe me (some u) := by
  intro v hv
  rw [← Option.some.inj hv]
  exact h

theorem PostsAs.of_ne {me : String} {q : Request} (h : ∀ a id doc, q ≠ .setPost a id doc) :
    PostsAs me (.inl (.call q)) := by
  intro a id doc heq
  exact absurd (Send.call.inj (Sum.inl.inj heq)) (h a id doc)

/-! ### The backend creates no post by itself -/

theorem exec_ne_setPost {ok : Bool} {db db' : Database} {q : Request} {out : List (Request ⊕ Intent)}
    (h : exec ok db q = some (db', out)) (a id : String) (doc : PostDoc) :
    Sum.inl (.setPost a id doc) ∉ out := by
  intro hb
  cases executed_exec h with
  | fails hall => cases hall _ hb
  | _ => cases List.mem_singleton.mp hb

theorem postsAs_exec {me : String} {ok : Bool} {db db' : Database} {q : Send} {out : List (Send ⊕ Intent)}
    (h : q.exec ok db = some (db', out)) : ∀ b ∈ out, PostsAs me b := by
  intro b hb a id doc heq
  cases q with
  | call q =>
    obtain ⟨r, hr, heq'⟩ := Option.map_eq_some_iff.mp h
    obtain ⟨rfl, rfl⟩ := Prod.mk.inj heq'
    obtain ⟨b', hb', rfl⟩ := List.mem_map.mp hb
    cases b' with
    | inl q' =>
      obtain rfl := Send.call.inj (Sum.inl.inj heq)
      exact absurd hb' (exec_ne_setPost hr a id doc)
    | inr i => cases heq
  | broadcast i =>
    obtain ⟨rfl, rfl⟩ := Prod.mk.inj (Option.some.inj h)
    obtain rfl := List.mem_singleton.mp hb
    cases heq

/-! ### The activities -/

section Screens

variable {d : Drawables} {me : String} {x y : Screen} {a : NavAction} {qs : List Request}

/-- What an activity asks for when it comes to the top creates no post. -/
theorem postsAs_onResume (x : Screen) : ∀ q ∈ x.onResume, PostsAs me (.inl (.call q)) := by
  intro q hq
  refine .of_ne fun a id doc heq => ?_
  cases x with
  | core c =>
    simp only [Screen.onResume, CoreActivity.onResume, forumGetPosts] at hq
    split at hq <;> simp_all
  | profile p => simp [Screen.onResume, ProfileActivity.onResume, userGetUserInfo, heq] at hq
  | form f => cases hq
  | detail p => simp [Screen.onResume, ForumDetailActivity.onResume, forumGetPostWithId, heq] at hq

theorem knows_opens (h : Session.Opens me a x y qs) (hx : Knows me x) :
    Knows me y ∧ ∀ q ∈ qs, PostsAs me (.inl (.call q)) := by
  cases h with
  | form h =>
    obtain ⟨u, hu, heq⟩ := Option.map_eq_some_iff.mp h
    obtain ⟨rfl, rfl⟩ := Prod.mk.inj heq
    refine ⟨fun _ => hu ▸ hx.1, fun q hq => .of_ne fun _ _ _ heq => ?_⟩
    simp [userGetUserDetailWithEmail, heq] at hq
  | edit h =>
    obtain ⟨u, hu, heq⟩ := Option.map_eq_some_iff.mp h
    obtain ⟨rfl, rfl⟩ := Prod.mk.inj heq
    refine ⟨fun hnew => ?_, fun q hq => .of_ne fun _ _ _ heq => ?_⟩
    · cases hnew
    · simp [userGetUserDetailWithEmail, heq] at hq
  | ofForum h =>
    obtain ⟨rfl, rfl⟩ := Prod.mk.inj h
    refine ⟨trivial, fun q hq => .of_ne fun _ _ _ heq => ?_⟩
    simp [userGetUserInfo, ForumDetailActivity.onResume, forumGetPostWithId, heq] at hq
  | ofProfile h =>
    obtain ⟨rfl, rfl⟩ := Prod.mk.inj h
    refine ⟨trivial, fun q hq => .of_ne fun _ _ _ heq => ?_⟩
    simp [userGetUserInfo, ForumDetailActivity.onResume, forumGetPostWithId, heq] at hq
  | profile => exact ⟨OfMe.none me, postsAs_onResume (.profile ⟨me, none⟩)⟩

theorem tapped_ne_setPost {p p' : ForumDetail} {a : ForumDetailActivity.Action}
    (h : ForumDetailActivity.Tapped d p a p' qs) : ∀ q ∈ qs, PostsAs me (.inl (.call q)) := by
  intro q hq
  refine .of_ne fun _ _ _ heq => ?_
  cases h with
  | like =>
    obtain ⟨op, hop⟩ := mem_userUpdateValue hq
    rw [heq] at hop
    cases hop
  | _ => simp [ForumDetailActivity.onResume, forumGetPostWithId, heq] at hq

theorem replied_ne_setPost {p p' : ForumDetail} {i : Intent}
    (h : ForumDetailActivity.Replied d p i p' qs) : ∀ q ∈ qs, PostsAs me (.inl (.call q)) := by
  intro q hq
  refine .of_ne fun _ _ _ heq => ?_
  cases h <;> simp [userGetUserDetailWithEmail, forumGetComments, forumGetPostWithId, forumUpdatePost, heq] at hq

theorem knows_turns (h : Session.Turns d a x y qs) (hx : Knows me x) :
    Knows me y ∧ ∀ q ∈ qs, PostsAs me (.inl (.call q)) := by
  cases h with
  | @replaceFragment c forum =>
    refine ⟨?_, fun q hq => by cases hq⟩
    cases forum with
    | true => exact ⟨hx.1, hx.1⟩
    | false => exact hx
  | fill => exact ⟨hx, fun q hq => by cases hq⟩
  | @onPostTap f id f' qs h =>
    obtain ⟨author, hauthor, heq⟩ := Option.map_eq_some_iff.mp h
    obtain ⟨rfl, rfl⟩ := Prod.mk.inj heq
    refine ⟨hx, fun q hq => ?_⟩
    split at hq
    · cases hold : f.mOldPost with
      | some old =>
        rw [hold] at hq
        obtain rfl := List.mem_singleton.mp hq
        exact .of_ne fun _ _ _ heq => by cases heq
      | none =>
        -- a new post: its author is the form's
        rw [hold] at hq
        obtain rfl := List.mem_singleton.mp hq
        intro a id doc heq
        cases heq
        exact hx hold author hauthor
    · cases hq
  | page ht => exact ⟨trivial, tapped_ne_setPost ht⟩

/-- `RefreshReceiver` is told of `me` only. -/
theorem knows_core {c c' : Core} {i : Intent} (h : CoreActivity.onReceive c i = some (c', qs))
    (hc : Knows me (.core c)) (hown : i.action = CoreActivity.getUserInfo →
      ∀ u, i.extra = some (.user u) → u.mId = me) :
    Knows me (.core c') ∧ ∀ q ∈ qs, PostsAs me (.inl (.call q)) := by
  obtain ⟨hc', hqs⟩ := CoreActivity.onReceive_cases h
  refine ⟨?_, fun q hq => .of_ne fun _ _ _ heq => ?_⟩
  · rcases hc' with rfl | ⟨u, ha, hx, rfl⟩ | rfl
    · exact hc
    · exact ⟨.some (hown ha u hx), hc.2⟩
    · unfold CoreActivity.replaceFragment
      split
      · exact ⟨hc.1, hc.1⟩
      · exact hc
  · rcases hqs with rfl | rfl
    · cases hq
    · simp [forumGetPosts, heq] at hq

theorem knows_profile {p p' : Profile} {i : Intent} (h : ProfileActivity.onReceive p i = some (p', qs))
    (hp : Knows me (.profile p)) (hown : i.action = CoreActivity.getUserInfo →
      ∀ u, i.extra = some (.user u) → u.mId = me) :
    Knows me (.profile p') ∧ ∀ q ∈ qs, PostsAs me (.inl (.call q)) := by
  obtain ⟨hp', rfl⟩ := ProfileActivity.onReceive_cases h
  refine ⟨?_, fun q hq => by cases hq⟩
  rcases hp' with rfl | ⟨u, ha, hx, rfl⟩
  · exact hp
  · exact .some (hown ha u hx)

/-- The form of a new post is told of `me` only; its later replies start no post. -/
theorem knows_form {f f' : ForumForm} {i : Intent} (h : ForumFormActivity.onReceive f i = some (f', qs))
    (hf : Knows me (.form f)) (hown : f.mOldPost.isNone = true → i.action = CoreActivity.getUserInfo →
      ∀ u, i.extra = some (.user u) → u.mId = me) :
    Knows me (.form f') ∧ ∀ q ∈ qs, PostsAs me (.inl (.call q)) := by
  obtain ⟨hold, hauthor, hqs⟩ := ForumFormActivity.onReceive_cases h
  refine ⟨fun hnew => ?_, fun q hq => .of_ne fun _ _ _ heq => ?_⟩
  · have hnew' : f.mOldPost = none := hold.symm.trans hnew
    rcases hauthor with hauthor | hauthor | ⟨u, ha, hx, hauthor⟩
    · exact hauthor ▸ hf hnew'
    · exact hauthor ▸ .none me
    · exact hauthor ▸ .some (hown (by rw [hnew']; rfl) ha u hx)
  · rcases hqs with rfl | ⟨id, rfl⟩
    · cases hq
    · simp [userUpdatePostsValue, userUpdateValue, caseAdd, heq] at hq

/-- A reply about `me`, or one that the activity does not take for its user. -/
theorem knows_onReceive {i : Intent} (h : x.onReceive d i = some (y, qs)) (hx : Knows me x)
    (hown : takesForMe x = true → i.action = CoreActivity.getUserInfo →
      ∀ u, i.extra = some (.user u) → u.mId = me) :
    Knows me y ∧ ∀ q ∈ qs, PostsAs me (.inl (.call q)) := by
  cases x with
  | core c =>
    obtain ⟨r, hr, heq⟩ := Option.map_eq_some_iff.mp h
    obtain ⟨rfl, rfl⟩ := Prod.mk.inj heq
    exact knows_core hr hx (hown rfl)
  | profile p =>
    obtain ⟨r, hr, heq⟩ := Option.map_eq_some_iff.mp h
    obtain ⟨rfl, rfl⟩ := Prod.mk.inj heq
    exact knows_profile hr hx (hown rfl)
  | form f =>
    obtain ⟨r, hr, heq⟩ := Option.map_eq_some_iff.mp h
    obtain ⟨rfl, rfl⟩ := Prod.mk.inj heq
    exact knows_form hr hx hown
  | detail p =>
    obtain ⟨r, hr, heq⟩ := Option.map_eq_some_iff.mp h
    obtain ⟨rfl, rfl⟩ := Prod.mk.inj heq
    exact ⟨trivial, replied_ne_setPost (ForumDetailActivity.replied_onReceive hr)⟩

end Screens

/-! ### The session -/

/-- The user of the session, and what its activities know of that user. -/
def SessionOf (me : String) (c : Session) : Prop := c.me = me ∧ ∀ x ∈ c.stack, Knows me x

section Session

variable {d : Drawables} {me : String} {c c' : Session} {qs : List Send}

theorem postsAs_calls {rs : List Request} (h : ∀ q ∈ rs, PostsAs me (.inl (.call q))) :
    ∀ q ∈ rs.map Send.call, PostsAs me (.inl q) := by
  intro q hq
  obtain ⟨r, hr, rfl⟩ := List.mem_map.mp hq
  exact h r hr

theorem postsAs_resume (stack : List Screen) : ∀ q ∈ Session.onResume stack, PostsAs me (.inl (.call q)) := by
  cases stack with
  | nil => exact fun q hq => by cases hq
  | cons x rest => exact postsAs_onResume x

theorem session_act {a : NavAction} (h : Session.act d c a = some (c', qs)) (hc : SessionOf me c) :
    SessionOf me c' ∧ ∀ q ∈ qs, PostsAs me (.inl q) := by
  obtain ⟨hme, hk⟩ := hc
  cases Session.moved_act h with
  | stays => exact ⟨⟨hme, hk⟩, fun q hq => by cases hq⟩
  | news =>
    refine ⟨⟨hme, hk⟩, postsAs_calls fun q hq => .of_ne fun _ _ _ heq => ?_⟩
    simp [forumGetPosts, heq] at hq
  | pauses => exact ⟨⟨hme, hk⟩, fun q hq => by cases hq⟩
  | resumes => exact ⟨⟨hme, hk⟩, postsAs_calls (postsAs_resume _)⟩
  | back hs =>
    rw [hs] at hk
    exact ⟨⟨hme, fun x hx => hk x (.tail _ hx)⟩, postsAs_calls (postsAs_resume _)⟩
  | opens hs hopen =>
    rw [hme] at hopen
    obtain ⟨hy, hqs⟩ := knows_opens hopen (hk _ (by rw [hs]; exact .head _))
    refine ⟨⟨hme, fun x hx => ?_⟩, postsAs_calls hqs⟩
    rcases List.mem_cons.mp hx with rfl | hx
    · exact hy
    · exact hk x hx
  | turns hs hturn =>
    rw [hs] at hk
    obtain ⟨hy, hqs⟩ := knows_turns hturn (hk _ (.head _))
    refine ⟨⟨hme, fun x hx => ?_⟩, postsAs_calls hqs⟩
    rcases List.mem_cons.mp hx with rfl | hx
    · exact hy
    · exact hk x (.tail _ hx)

theorem session_recv {i : Intent} (h : Session.recv d c i = some (c', qs)) (hc : SessionOf me c)
    (hown : c.resumed = true → c.stack.head?.any takesForMe = true →
      i.action = CoreActivity.getUserInfo → ∀ u, i.extra = some (.user u) → u.mId = me) :
    SessionOf me c' ∧ ∀ q ∈ qs, PostsAs me (.inl q) := by
  obtain ⟨hme, hk⟩ := hc
  cases Session.received_recv h with
  | ignores => exact ⟨⟨hme, hk⟩, fun q hq => by cases hq⟩
  | handles hr hs hx _ =>
    rw [hs] at hk hown
    obtain ⟨hy, hqs⟩ := knows_onReceive hx (hk _ (.head _)) (hown hr)
    refine ⟨⟨hme, fun x hx => ?_⟩, postsAs_calls hqs⟩
    rcases List.mem_cons.mp hx with rfl | hx
    · exact hy
    · exact hk x (.tail _ hx)
  | @finishes x rest x' qs hr hs hx _ =>
    rw [hs] at hk hown
    obtain ⟨-, hqs⟩ := knows_onReceive hx (hk _ (.head _)) (hown hr)
    refine ⟨⟨hme, fun x hx => hk x (.tail _ hx)⟩, fun q hq => ?_⟩
    simp only [List.mem_append] at hq
    rcases hq with (hq | hq) | hq
    · exact postsAs_calls hqs q hq
    · split at hq
      · obtain rfl := List.mem_singleton.mp hq
        intro a id doc heq
        cases heq
      · cases hq
    · exact postsAs_calls (postsAs_resume rest) q hq

end Session

theorem parts (d : Drawables) (me : String) :
    Parts (nav d) (fun s e => ownReplies s e = true) (fun _ => True) (SessionOf me)
      fun m => PostsAs me m.body where
  act _ _ _ _ _ _ _ _ ha hc := session_act ha hc
  exec _ _ _ _ _ _ _ _ _ _ he _ _ := ⟨trivial, postsAs_exec he⟩
  recv s n i t r c c' qs ho hn hc hr hS _ := by
    refine session_recv hr hS fun hres htop ha u hx => ?_
    obtain ⟨a, b, x⟩ := r
    obtain rfl : a = CoreActivity.getUserInfo := ha
    obtain rfl : x = some (.user u) := hx
    simpa [ownReplies, hn, hc, hres, htop, hS.1] using ho

/-- **Another user is never taken for the signed-in one, and no post is created in
another name, while replies about others come to no activity that takes them
for the signed-in user.** -/
theorem knows_of_reach {d : Drawables} {me : String} {db : Database} {s : NavConf}
    (h : Reach (nav d) (fun s e => ownReplies s e = true) (launch d me db) s) :
    (∀ c, s.client 0 = some c → ∀ x ∈ c.stack, Knows me x) ∧ ∀ m ∈ s.net, PostsAs me m.body := by
  have hsession : ∀ i c, (launch d me db).client i = some c → SessionOf me c := by
    intro i c hc
    simp only [launch] at hc
    split at hc
    · obtain rfl := Option.some.inj hc
      refine ⟨rfl, fun x hx => ?_⟩
      obtain rfl := List.mem_singleton.mp hx
      exact ⟨OfMe.none me, OfMe.none me⟩
    · cases hc
  have hposts : ∀ m ∈ (launch d me db).net, PostsAs me m.body := by
    intro m hm
    obtain ⟨q, hq, rfl⟩ := List.mem_map.mp hm
    refine postsAs_calls (fun r hr => .of_ne fun _ _ _ heq => ?_) q hq
    simp [CoreActivity.onCreate, userGetUserInfo, Session.onResume, Screen.onResume, CoreActivity.onResume,
      heq] at hr
  obtain ⟨-, hS, hM⟩ := (parts d me).reach ⟨trivial, hsession, hposts⟩ h
  exact ⟨fun c hc => (hS 0 c hc).2, hM⟩

/-! ### Bob reads Ann's post -/

/-- Bob's device loads its user, shows the forum and opens Ann's post. -/
def bobOpens : List (Ev NavAction) :=
  [.exec 0 true, .exec 0 true, .deliver 0, .act 0 (.replaceFragment true),
    .act 0 (.openPost (postOfDoc derbyId Forum.derby))]

/-- Bob waits for the page to load, goes back and posts. -/
theorem knows_of_reach_bob :
    ∃ s, Reach (nav plainDrawables) (fun s e => ownReplies s e = true)
        (launch plainDrawables "bob@mail.com" Forum.derbyDb) s ∧
      (s.store.posts.get newPostId).map (·.userId) = some "bob@mail.com" ∧
      (∀ c, s.client 0 = some c → ∀ x ∈ c.stack, Knows "bob@mail.com" x) ∧
        ∀ m ∈ s.net, PostsAs "bob@mail.com" m.body := by
  obtain ⟨s, hr, hs⟩ := @reach_of_test _ _ _ _ _ _ (nav plainDrawables) ownReplies
    (launch plainDrawables "bob@mail.com" Forum.derbyDb)
    (bobOpens ++ [.exec 0 true, .exec 0 true, .deliver 0, .exec 0 true, .exec 0 true, .deliver 0, .exec 0 true,
      .deliver 0, .exec 0 true, .exec 0 true, .deliver 0, .exec 0 true, .deliver 0, .act 0 .back,
      .exec 0 true, .exec 0 true, .deliver 0, .act 0 .openForm, .act 0 (.fill "A draw" "at last" 0 0),
      .act 0 (.onPostTap newPostId), .exec 0 true, .exec 0 true, .deliver 0, .exec 0 true])
    (fun s => (s.store.posts.get newPostId).map (·.userId) == some "bob@mail.com") (by decide)
  exact ⟨s, hr, beq_iff_eq.mp hs, knows_of_reach hr⟩

/-- The activity takes somebody else for the user `me`. -/
def mistakes (me : String) : Screen → Bool
  | .core c => c.mUser.any (·.mId != me)
  | _ => false

theorem not_knows {me : String} {x : Screen} (h : mistakes me x = true) : ¬ Knows me x := by
  cases x with
  | core c =>
    intro hk
    obtain ⟨u, hu, hne⟩ := (Option.any_eq_true ..).mp h
    exact bne_iff_ne.mp hne (hk.1 u hu)
  | _ => cases h

/-- Bob leaves Ann's page before the reply about its author arrives: he is taken
for Ann, and what he posts is stored as hers. -/
theorem posted_as_ann :
    ∃ s, Reach (nav plainDrawables) (fun _ _ => true = true)
        (launch plainDrawables "bob@mail.com" Forum.derbyDb) s ∧
      (∃ c, s.client 0 = some c ∧ ∃ x ∈ c.stack, ¬ Knows "bob@mail.com" x) ∧
      (s.store.posts.get newPostId).map (·.userId) = some "ann@mail.com" := by
  obtain ⟨s, hr, hs⟩ := @reach_of_test _ _ _ _ _ _ (nav plainDrawables) (fun _ _ => true)
    (launch plainDrawables "bob@mail.com" Forum.derbyDb)
    (bobOpens ++ [.exec 0 true, .exec 0 true, .deliver 0, .act 0 .back, .exec 0 true, .exec 0 true, .deliver 0,
      .act 0 .openForm, .act 0 (.fill "A draw" "at last" 0 0), .act 0 (.onPostTap newPostId), .exec 3 true])
    (fun s => (s.client 0).any (fun c => c.stack.any (mistakes "bob@mail.com")) &&
      (s.store.posts.get newPostId).map (·.userId) == some "ann@mail.com") (by decide)
  simp only [Bool.and_eq_true, Option.any_eq_true, List.any_eq_true, beq_iff_eq] at hs
  obtain ⟨⟨c, hc, x, hx, hm⟩, hpost⟩ := hs
  exact ⟨s, hr, ⟨c, hc, x, hx, not_knows hm⟩, hpost⟩

end SignedIn
end FootballGallery
