/-
# The activities on a device

The signed-in user's device: `CoreActivity` and, over it, the pages, forms and
profiles that are open. The activity on top is the one between `onResume` and
`onPause`; a broadcast goes to it, whoever asked for it, and to nobody while
the device shows something else. A handler that throws ends the app.

Of `CoreActivity` and `ProfileActivity` this module has what they know of users
and what they open. The list of posts on screen is left out: a post tapped in
it is any post.

Key definitions: `Core`, `Profile`, `Screen`, `Session`, `NavAction`, `act`,
`nav`, `launch`.
Key theorems: `moved_act`, `received_recv`.
-/
import FootballGallery.ForumFormActivity
import FootballGallery.ForumSteps
import FootballGallery.Lib.Async

namespace FootballGallery

open DBUtil Async

/-! ### `b_core/CoreActivity` -/

/-- `forumTab` says that the forum is the selected tab, `fragmentUser` is the user
that the `ForumFragment` was made with. -/
structure Core where
  me : String
  mUser : Option User
  forumTab : Bool
  fragmentUser : Option User
deriving DecidableEq

namespace CoreActivity

def getUserInfo := "GET_USER_INFO"
def populateForum := "POPULATE_FORUM"
def checkForumCount := "CHECK_FORUM_COUNT"
def updateForum := "UPDATE_FORUM"
def repopulateForum := "REPOPULATE_FORUM"

def onCreate (me : String) : Core × List Request :=
  ({ me := me, mUser := none, forumTab := false, fragmentUser := none }, userGetUserInfo me getUserInfo)

def onResume (c : Core) : List Request := if c.forumTab then forumGetPosts repopulateForum else []

/-- `replaceFragment` and, with the forum selected, `replaceForumFragment` -/
def replaceFragment (forum : Bool) (c : Core) : Core :=
  if forum then { c with forumTab := true, fragmentUser := c.mUser } else { c with forumTab := false }

/-- `RefreshReceiver.onReceive`; what it does with the posts is left out. -/
def onReceive (c : Core) (intent : Intent) : Option (Core × List Request) :=
  if intent.action = getUserInfo then
    match intent.result, intent.extra with
    | true, some (.user u) => some ({ c with mUser := some u }, [])
    | true, some _ => none
    | _, _ => some (c, [])
  else if intent.action = updateForum then some (c, forumGetPosts repopulateForum)
  else if intent.action = repopulateForum then
    some (if intent.result && intent.extra.isSome then replaceFragment c.forumTab c else c, [])
  else if intent.action = checkForumCount then
    some (c, if intent.result then forumGetPosts repopulateForum else [])
  else some (c, [])

/-- What a reply makes of the activity: its user is told, the forum is drawn
again, or the posts are asked for. -/
theorem onReceive_cases {c c' : Core} {i : Intent} {qs : List Request}
    (h : onReceive c i = some (c', qs)) :
    (c' = c ∨ (∃ u, i.action = getUserInfo ∧ i.extra = some (.user u) ∧ c' = { c with mUser := some u }) ∨
        c' = replaceFragment c.forumTab c) ∧
      (qs = [] ∨ qs = forumGetPosts repopulateForum) := by
  unfold onReceive at h
  split at h
  · rename_i ha
    split at h
    · rename_i u _ hx
      obtain ⟨rfl, rfl⟩ := Prod.mk.inj (Option.some.inj h)
      exact ⟨.inr (.inl ⟨u, ha, hx, rfl⟩), .inl rfl⟩
    · cases h
    · obtain ⟨rfl, rfl⟩ := Prod.mk.inj (Option.some.inj h)
      exact ⟨.inl rfl, .inl rfl⟩
  · split at h
    · obtain ⟨rfl, rfl⟩ := Prod.mk.inj (Option.some.inj h)
      exact ⟨.inl rfl, .inr rfl⟩
    · split at h
      · obtain ⟨rfl, rfl⟩ := Prod.mk.inj (Option.some.inj h)
        split
        · exact ⟨.inr (.inr rfl), .inl rfl⟩
        · exact ⟨.inl rfl, .inl rfl⟩
      · split at h
        · obtain ⟨rfl, rfl⟩ := Prod.mk.inj (Option.some.inj h)
          split
          · exact ⟨.inl rfl, .inr rfl⟩
          · exact ⟨.inl rfl, .inl rfl⟩
        · obtain ⟨rfl, rfl⟩ := Prod.mk.inj (Option.some.inj h)
          exact ⟨.inl rfl, .inl rfl⟩

end CoreActivity

/-! ### `d_profiles/ProfileActivity` -/

structure Profile where
  me : String
  mUser : Option User
deriving DecidableEq

namespace ProfileActivity

def getUserInfo := "GET_USER_INFO"

def onResume (p : Profile) : List Request := userGetUserInfo p.me getUserInfo

/-- `PostReceiver.onReceive` -/
def onReceive (p : Profile) (intent : Intent) : Option (Profile × List Request) :=
  if intent.action = getUserInfo then
    match intent.result, intent.extra with
    | true, some (.user u) => some ({ p with mUser := some u }, [])
    | true, some _ => none
    | _, _ => some (p, [])
  else some (p, [])

theorem onReceive_cases {p p' : Profile} {i : Intent} {qs : List Request}
    (h : onReceive p i = some (p', qs)) :
    (p' = p ∨ ∃ u, i.action = getUserInfo ∧ i.extra = some (.user u) ∧ p' = { p with mUser := some u }) ∧
      qs = [] := by
  unfold onReceive at h
  split at h
  · rename_i ha
    split at h
    · rename_i u _ hx
      obtain ⟨rfl, rfl⟩ := Prod.mk.inj (Option.some.inj h)
      exact ⟨.inr ⟨u, ha, hx, rfl⟩, rfl⟩
    · cases h
    · obtain ⟨rfl, rfl⟩ := Prod.mk.inj (Option.some.inj h)
      exact ⟨.inl rfl, rfl⟩
  · obtain ⟨rfl, rfl⟩ := Prod.mk.inj (Option.some.inj h)
    exact ⟨.inl rfl, rfl⟩

end ProfileActivity

/-! ### The stack -/

inductive Screen where
  | core (c : Core)
  | profile (p : Profile)
  | form (f : ForumForm)
  | detail (p : ForumDetail)
deriving DecidableEq

namespace Screen

def onResume : Screen → List Request
  | core c => CoreActivity.onResume c
  | profile p => ProfileActivity.onResume p
  | form _ => []
  | detail p => ForumDetailActivity.onResume p

def onReceive (d : Drawables) (i : Intent) : Screen → Option (Screen × List Request)
  | core c => (CoreActivity.onReceive c i).map fun r => (core r.1, r.2)
  | profile p => (ProfileActivity.onReceive p i).map fun r => (profile r.1, r.2)
  | form f => (ForumFormActivity.onReceive f i).map fun r => (form r.1, r.2)
  | detail p => (ForumDetailActivity.onReceive d p i).map fun r => (detail r.1, r.2)

/-- The activity has called `finish()`. -/
def finished : Screen → Bool
  | form f => f.finished
  | detail p => p.finished
  | _ => false

/-- The activity has sent the broadcast `UPDATE_FORUM`. -/
def updatesForum : Screen → Bool
  | form f => f.updateForum
  | _ => false

end Screen

/-- The open activities, the one on top first; `resumed` says that the device shows it. -/
structure Session where
  me : String
  stack : List Screen
  resumed : Bool

/-- What an activity sends: a backend call, or a broadcast of its own. -/
inductive Send where
  | call (q : Request)
  | broadcast (i : Intent)
deriving DecidableEq

inductive NavAction where
  | pause
  | resume
  | back
  /-- the floating button of the forum -/
  | openForm
  /-- a post in the list of the forum or of the profile -/
  | openPost (post : Post)
  | openProfile
  | replaceFragment (forum : Bool)
  /-- the news have arrived -/
  | onPostNewsAsync
  /-- the menu of the user's own post -/
  | openEdit
  | fill (title content : String) (league category : ℤ)
  | onPostTap (id : String)
  | page (a : ForumDetailActivity.Action)
deriving DecidableEq

namespace Session

/-- `onResume` of the activity on top. -/
def onResume (stack : List Screen) : List Request := (stack.head?.map Screen.onResume).getD []

/-- `x` comes on top; `qs` is what its `onCreate` and `onResume` ask for. -/
def push (s : Session) (x : Screen) (qs : List Request) : Session × List Send :=
  ({ s with stack := x :: s.stack }, qs.map .call)

def pushDetail (s : Session) (post : Post) (author : Option User) : Session × List Send :=
  let r := ForumDetailActivity.onCreate s.me post author
  s.push (.detail r.1) r.2

def pushForm (s : Session) (author : Option User) (postToEdit : Option Post) :
    Option (Session × List Send) :=
  (ForumFormActivity.onCreate s.me author postToEdit).map fun f => s.push (.form f.1) f.2

/-- What the user, or the news task, does. -/
def act (d : Drawables) (s : Session) (a : NavAction) : Option (Session × List Send) :=
  if a = .onPostNewsAsync then
    some (s, (forumGetPosts CoreActivity.populateForum).map .call)
  else if s.resumed then
    match a, s.stack with
    | .pause, _ => some ({ s with resumed := false }, [])
    | .back, _ :: rest => some ({ s with stack := rest }, (onResume rest).map .call)
    | .openForm, .core c :: _ => if c.forumTab then s.pushForm c.mUser none else some (s, [])
    | .openPost post, .core c :: _ => some (if c.forumTab then s.pushDetail post c.fragmentUser else (s, []))
    | .openPost post, .profile p :: _ => some (if p.mUser.isSome then s.pushDetail post p.mUser else (s, []))
    | .openProfile, .core c :: _ =>
      some (if c.forumTab then s.push (.profile ⟨s.me, none⟩) (ProfileActivity.onResume ⟨s.me, none⟩)
        else (s, []))
    | .replaceFragment forum, .core c :: rest =>
      some ({ s with stack := .core (CoreActivity.replaceFragment forum c) :: rest }, [])
    | .openEdit, .detail p :: _ => if p.mIsMyPost then s.pushForm p.mAuthor (some p.mPost) else some (s, [])
    | .fill title content league category, .form f :: rest =>
      let f' := { f with mEt_title := title, mEt_content := content, mSp_league := league, mSp_category := category }
      some ({ s with stack := .form f' :: rest }, [])
    | .onPostTap id, .form f :: rest =>
      (ForumFormActivity.onPostTap f id).map fun r => ({ s with stack := .form r.1 :: rest }, r.2.map .call)
    | .page a, .detail p :: rest =>
      let r := ForumDetailActivity.act d p a
      some ({ s with stack := .detail r.1 :: rest }, r.2.map .call)
    | _, _ => some (s, [])
  else if a = .resume then some ({ s with resumed := true }, (onResume s.stack).map .call)
  else some (s, [])

/-- A broadcast arrives. -/
def recv (d : Drawables) (s : Session) (i : Intent) : Option (Session × List Send) :=
  if s.resumed then
    match s.stack with
    | [] => some (s, [])
    | x :: rest => (x.onReceive d i).map fun r =>
      if r.1.finished then
        ({ s with stack := rest }, r.2.map .call ++
          (if r.1.updatesForum then [.broadcast ⟨CoreActivity.updateForum, false, none⟩] else []) ++
            (onResume rest).map .call)
      else ({ s with stack := r.1 :: rest }, r.2.map .call)
  else some (s, [])

/-- The post that the activity on top is about: a page, or the form that edits its post. -/
def pageOf : List Screen → Option String
  | .detail p :: _ => some p.extraPost.mId
  | .form f :: .detail p :: _ => if f.mOldPost.isSome then some p.extraPost.mId else none
  | _ => none

theorem of_pageOf_form {f : ForumForm} {rest : List Screen} {pid : String}
    (h : pid ∈ pageOf (.form f :: rest)) : ∃ p rest', rest = .detail p :: rest' ∧ pid = p.extraPost.mId := by
  match rest with
  | [] => cases h
  | .core _ :: _ => cases h
  | .profile _ :: _ => cases h
  | .form _ :: _ => cases h
  | .detail p :: rest' =>
    refine ⟨p, rest', rfl, ?_⟩
    change (if f.mOldPost.isSome then some p.extraPost.mId else none) = some pid at h
    split at h
    · exact (Option.some.inj h).symm
    · cases h

/-! ### What can happen -/

/-- The activity `y` that the activity `x` opens, and what `y` asks for first. -/
inductive Opens (me : String) : NavAction → Screen → Screen → List Request → Prop
  | form {c f qs} (h : ForumFormActivity.onCreate me c.mUser none = some (f, qs)) :
      Opens me .openForm (.core c) (.form f) qs
  | edit {p f qs} (h : ForumFormActivity.onCreate me p.mAuthor (some p.mPost) = some (f, qs)) :
      Opens me .openEdit (.detail p) (.form f) qs
  | ofForum {c post p qs} (h : ForumDetailActivity.onCreate me post c.fragmentUser = (p, qs)) :
      Opens me (.openPost post) (.core c) (.detail p) qs
  | ofProfile {x post p qs} (h : ForumDetailActivity.onCreate me post x.mUser = (p, qs)) :
      Opens me (.openPost post) (.profile x) (.detail p) qs
  | profile {c} : Opens me .openProfile (.core c) (.profile ⟨me, none⟩) (ProfileActivity.onResume ⟨me, none⟩)

/-- What the activity `x` becomes on the user's action. -/
inductive Turns (d : Drawables) : NavAction → Screen → Screen → List Request → Prop
  | replaceFragment {c forum} :
      Turns d (.replaceFragment forum) (.core c) (.core (CoreActivity.replaceFragment forum c)) []
  | fill {f title content league category} :
      Turns d (.fill title content league category) (.form f)
        (.form { f with mEt_title := title, mEt_content := content, mSp_league := league, mSp_category := category })
        []
  | onPostTap {f id f' qs} (h : ForumFormActivity.onPostTap f id = some (f', qs)) :
      Turns d (.onPostTap id) (.form f) (.form f') qs
  | page {p a p' qs} (ht : ForumDetailActivity.Tapped d p a p' qs) :
      Turns d (.page a) (.detail p) (.detail p') qs

/-- What an action of the user makes of the session. -/
inductive Moved (d : Drawables) (s : Session) : NavAction → Session → List Send → Prop
  | stays {a} : Moved d s a s []
  | news : Moved d s .onPostNewsAsync s ((forumGetPosts CoreActivity.populateForum).map .call)
  | pauses : Moved d s .pause { s with resumed := false } []
  | resumes : Moved d s .resume { s with resumed := true } ((onResume s.stack).map .call)
  | back {x rest} (hs : s.stack = x :: rest) :
      Moved d s .back { s with stack := rest } ((onResume rest).map .call)
  | opens {a x rest y qs} (hs : s.stack = x :: rest) (h : Opens s.me a x y qs) :
      Moved d s a { s with stack := y :: s.stack } (qs.map .call)
  | turns {a x x' rest qs} (hs : s.stack = x :: rest) (h : Turns d a x x' qs) :
      Moved d s a { s with stack := x' :: rest } (qs.map .call)

theorem moved_pushForm {d : Drawables} {s s' : Session} {a : NavAction} {x : Screen} {rest : List Screen}
    {qs : List Send} {author : Option User} {postToEdit : Option Post} (hs : s.stack = x :: rest)
    (hopen : ∀ f qs, ForumFormActivity.onCreate s.me author postToEdit = some (f, qs) →
      Opens s.me a x (.form f) qs)
    (h : s.pushForm author postToEdit = some (s', qs)) : Moved d s a s' qs := by
  obtain ⟨f, hf, heq⟩ := Option.map_eq_some_iff.mp h
  obtain ⟨rfl, rfl⟩ := Prod.mk.inj heq
  exact .opens hs (hopen f.1 f.2 hf)

theorem moved_act {d : Drawables} {s s' : Session} {a : NavAction} {qs : List Send}
    (h : act d s a = some (s', qs)) : Moved d s a s' qs := by
  have hstays : some (s, []) = some (s', qs) → Moved d s a s' qs := by
    intro heq
    obtain ⟨rfl, rfl⟩ := Prod.mk.inj (Option.some.inj heq)
    exact .stays
  unfold act at h
  split at h
  · rename_i ha
    obtain ⟨rfl, rfl⟩ := Prod.mk.inj (Option.some.inj h)
    rw [ha]
    exact .news
  · split at h
    · split at h
      · obtain ⟨rfl, rfl⟩ := Prod.mk.inj (Option.some.inj h)
        exact .pauses
      · rename_i hs _
        obtain ⟨rfl, rfl⟩ := Prod.mk.inj (Option.some.inj h)
        exact .back hs
      · rename_i hs _
        split at h
        · exact moved_pushForm hs (fun _ _ hf => .form hf) h
        · exact hstays h
      · rename_i hs _
        split at h
        · obtain ⟨rfl, rfl⟩ := Prod.mk.inj (Option.some.inj h)
          exact .opens hs (.ofForum rfl)
        · exact hstays h
      · rename_i hs _
        split at h
        · obtain ⟨rfl, rfl⟩ := Prod.mk.inj (Option.some.inj h)
          exact .opens hs (.ofProfile rfl)
        · exact hstays h
      · rename_i hs _
        split at h
        · obtain ⟨rfl, rfl⟩ := Prod.mk.inj (Option.some.inj h)
          exact .opens hs .profile
        · exact hstays h
      · rename_i hs _
        obtain ⟨rfl, rfl⟩ := Prod.mk.inj (Option.some.inj h)
        exact .turns hs .replaceFragment
      · rename_i hs _
        split at h
        · exact moved_pushForm hs (fun _ _ hf => .edit hf) h
        · exact hstays h
      · rename_i hs _
        obtain ⟨rfl, rfl⟩ := Prod.mk.inj (Option.some.inj h)
        exact .turns hs .fill
      · rename_i hs _
        obtain ⟨f, hf, heq⟩ := Option.map_eq_some_iff.mp h
        obtain ⟨rfl, rfl⟩ := Prod.mk.inj heq
        exact .turns hs (.onPostTap hf)
      · rename_i hs _
        obtain ⟨rfl, rfl⟩ := Prod.mk.inj (Option.some.inj h)
        exact .turns hs (.page (ForumDetailActivity.tapped_act d _ _))
      · exact hstays h
    · split at h
      · rename_i ha
        obtain ⟨rfl, rfl⟩ := Prod.mk.inj (Option.some.inj h)
        rw [ha]
        exact .resumes
      · exact hstays h

/-- What a broadcast makes of the session. -/
inductive Received (d : Drawables) (s : Session) (i : Intent) : Session → List Send → Prop
  | ignores : Received d s i s []
  | handles {x rest x' qs} (hr : s.resumed = true) (hs : s.stack = x :: rest)
      (hx : x.onReceive d i = some (x', qs)) (hf : x'.finished = false) :
      Received d s i { s with stack := x' :: rest } (qs.map .call)
  | finishes {x rest x' qs} (hr : s.resumed = true) (hs : s.stack = x :: rest)
      (hx : x.onReceive d i = some (x', qs)) (hf : x'.finished = true) :
      Received d s i { s with stack := rest } (qs.map .call ++
        (if x'.updatesForum then [.broadcast ⟨CoreActivity.updateForum, false, none⟩] else []) ++
          (onResume rest).map .call)

theorem received_recv {d : Drawables} {s s' : Session} {i : Intent} {qs : List Send}
    (h : recv d s i = some (s', qs)) : Received d s i s' qs := by
  unfold recv at h
  split at h
  · rename_i hr
    split at h
    · obtain ⟨rfl, rfl⟩ := Prod.mk.inj (Option.some.inj h)
      exact .ignores
    · rename_i hs
      obtain ⟨r, hx, heq⟩ := Option.map_eq_some_iff.mp h
      split at heq
      · rename_i hf
        obtain ⟨rfl, rfl⟩ := Prod.mk.inj heq
        exact .finishes hr hs hx hf
      · rename_i hf
        obtain ⟨rfl, rfl⟩ := Prod.mk.inj heq
        exact .handles hr hs hx (Bool.eq_false_iff.mpr hf)
  · obtain ⟨rfl, rfl⟩ := Prod.mk.inj (Option.some.inj h)
    exact .ignores

end Session

/-- The backend, and the broadcasts that activities send themselves. -/
def Send.exec (ok : Bool) (db : Database) : Send → Option (Database × List (Send ⊕ Intent))
  | .call q => (DBUtil.exec ok db q).map fun r => (r.1, r.2.map (Sum.map .call id))
  | .broadcast i => some (db, [.inr i])

/-- The device; a message is labelled with the post its sender is about. -/
def nav (d : Drawables) : App Database Session Send Intent NavAction (Option String) where
  act := Session.act d
  exec := Send.exec
  recv := Session.recv d
  tag s := Session.pageOf s.stack

abbrev NavConf := Conf Database Session Send Intent (Option String)

/-- The user `me` has signed in. -/
def launch (d : Drawables) (me : String) (db : Database) : NavConf :=
  let c := CoreActivity.onCreate me
  let s : Session := ⟨me, [.core c.1], true⟩
  { store := db
    client := fun i => if i = 0 then some s else none
    net := issue (nav d) 0 s ((c.2 ++ Session.onResume s.stack).map .call) }

end FootballGallery
