/-
# Emblems over runs

Clients that sign up, load what their screens show and edit their profiles, against
one backend. An emblem comes from a sign-up or an edit, where the two spinners say
what is written, and goes through the users' documents into every user, post and
comment that a screen draws.

The listener of a spinner is called with the selection. The sign-up starts from the
email that its first page hands on, and a screen draws what a reply has brought.

Key definitions: `Device`, `act`, `recv`, `devices`, `overshoots`, `EmblemsRight`.
Key theorems: `goes_act`, `carries_exec`, `goes_recv`, `emblems_right`.
-/
import FootballGallery.Emblems
import FootballGallery.OwnPost

namespace FootballGallery
namespace Emblems

open DBUtil Async DocStore

/-! ### Devices -/

inductive Device where
  | visitor
  | signUp (p : SignUpProfile) (sp : EmblemSpinners)
  /-- the profile of the signed-in user; `shown`: what there is to draw -/
  | profile (h : Profile) (shown : List Extra)
  /-- the edit of the profile, over it -/
  | profileEdit (h : Profile) (shown : List Extra) (p : ProfileEdit) (sp : EmblemSpinners)
  /-- a spinner has asked for a view that is not there, and the app has ended -/
  | outOfBounds
deriving DecidableEq

/-- What the user's screens load. -/
inductive Load where
  | userInfo
  | userDetail (email : String)
  | posts
  | post (postId : String)
  | comments (commentIds : List String)

def Load.requests (me action : String) : Load → List Request
  | .userInfo => userGetUserInfo me action
  | .userDetail email => userGetUserDetailWithEmail action email
  | .posts => forumGetPosts action
  | .post postId => forumGetPostWithId action postId
  | .comments commentIds => forumGetComments action commentIds

/-- What a user does. -/
inductive Action where
  /-- the page of the sign-up is opened with an email -/
  | next (email : String)
  | signIn (me : String)
  | signUp (t : AuthSignUpProfile.Action)
  /-- the signed-up user goes on to the app -/
  | enter
  | load (action : String) (l : Load)
  /-- a write of the forum's pages -/
  | write (q : Request)
  | openEdit
  | profileEdit (t : ProfileEditActivity.Action)
  | onLeagueChange (i : ℕ)
  | onTeamChange (i : ℕ)
  | back

/-- A write of a post, of a comment or of an array of a user. -/
def ofForum : Request → Bool
  | .updateUserArray .. | .setPost .. | .updatePost .. | .deletePost .. | .setComment .. | .updateComment ..
  | .deleteComment .. => true
  | _ => false

namespace Device

/-- The page's emblem is what its spinners show. -/
def ofSignUp (p : SignUpProfile) (sp : EmblemSpinners) : Device :=
  .signUp (AuthSignUpProfile.act p (.selectEmblem sp.league.position sp.team.position)).1 sp

def ofProfileEdit (h : Profile) (shown : List Extra) (p : ProfileEdit) (sp : EmblemSpinners) : Device :=
  .profileEdit h shown (ProfileEditActivity.act p (.selectEmblem sp.league.position sp.team.position)).1 sp

/-- The device with its spinners, unless one of them has thrown. -/
def ofSpinners (f : EmblemSpinners → Device) (sp : Option EmblemSpinners) : Device × List Request :=
  ((sp.map f).getD .outOfBounds, [])

section Steps

variable (getIdentifier : String → String → ℤ)

/-- The edit of a profile that has not been loaded is opened with `null`, and throws. -/
def act : Device → Action → Option (Device × List Request)
  | .visitor, .next email =>
    some (ofSpinners (ofSignUp (AuthSignUpProfile.onCreate email)) (AuthSignUpProfile.setUpSpinner getIdentifier 0 12))
  | .visitor, .signIn me => some (.profile ⟨me, none⟩ [], ProfileActivity.onResume ⟨me, none⟩)
  | .signUp p sp, .signUp t => some (ofSignUp (AuthSignUpProfile.act p t).1 sp, (AuthSignUpProfile.act p t).2)
  | .signUp p sp, .onLeagueChange i =>
    some (ofSpinners (ofSignUp p) (sp.changeLeague (AuthSignUpProfile.updateSpinner getIdentifier) i))
  | .signUp p sp, .onTeamChange i => some (ofSpinners (ofSignUp p) (sp.changeTeam i))
  | .signUp p sp, .enter =>
    some (if p.started then (.profile ⟨p.mEmail, none⟩ [], ProfileActivity.onResume ⟨p.mEmail, none⟩)
      else (.signUp p sp, []))
  | .signUp _ _, .back => some (.visitor, [])
  | .profile h shown, .load action l => some (.profile h shown, l.requests h.me action)
  | .profile h shown, .write q => some (.profile h shown, if ofForum q then [q] else [])
  | .profile h shown, .openEdit => h.mUser.map fun u =>
    ofSpinners (ofProfileEdit h shown (ProfileEditActivity.onCreate u))
      (ProfileEditActivity.createSpinners getIdentifier u)
  | .profileEdit h shown p sp, .profileEdit t =>
    some (ofProfileEdit h shown (ProfileEditActivity.act p t).1 sp, (ProfileEditActivity.act p t).2)
  | .profileEdit h shown p sp, .onLeagueChange i =>
    some (ofSpinners (ofProfileEdit h shown p)
      (sp.changeLeague (ProfileEditActivity.updateSpinner getIdentifier p.mUser) i))
  | .profileEdit h shown p sp, .onTeamChange i => some (ofSpinners (ofProfileEdit h shown p) (sp.changeTeam i))
  | .profileEdit h shown _ _, .back => some (.profile h shown, ProfileActivity.onResume h)
  | c, _ => some (c, [])

/-- A reply comes to the screen on top. -/
def recv : Device → Intent → Option (Device × List Request)
  | .signUp p sp, i => some (ofSignUp (AuthSignUpProfile.onReceive p i).1 sp, (AuthSignUpProfile.onReceive p i).2)
  | .profile h shown, i =>
    (ProfileActivity.onReceive h i).map fun r => (.profile r.1 (i.extra.toList ++ shown), r.2)
  | .profileEdit h shown p sp, i =>
    let r := ProfileEditActivity.onReceive p i
    some (if r.1.finished then (.profile h shown, r.2 ++ ProfileActivity.onResume h)
      else (ofProfileEdit h shown r.1 sp, r.2))
  | c, _ => some (c, [])

end Steps

/-- The spinners on the screen. -/
def spinners : Device → Option EmblemSpinners
  | .signUp _ sp | .profileEdit _ _ _ sp => some sp
  | _ => none

/-- What the profile's screens draw. -/
def held (h : Profile) (shown : List Extra) : List Extra := (h.mUser.map Extra.user).toList ++ shown

/-- What the screens draw. -/
def extras : Device → List Extra
  | .profile h shown => held h shown
  | .profileEdit h shown p _ => .user p.mUser :: held h shown
  | _ => []

end Device

/-- `getIdentifier` says which ids the build has given to the drawables. -/
def devices (getIdentifier : String → String → ℤ) : App Database Device Request Intent Action Unit where
  act := Device.act getIdentifier
  exec := exec
  recv := Device.recv
  tag _ := ()

abbrev EmblemConf := Conf Database Device Request Intent Unit

/-! ### What should hold -/

/-- The league that the user changes to, on the edit of the profile, has exactly as many
teams as the position of the profile's team. -/
def overshoots : Device → Action → Bool
  | .profileEdit _ _ p _, .onLeagueChange i =>
    (titlesOf i).any fun titles => p.mUser.mEmblemTeam = titles.length
  | _, _ => false

/-- No user does so. -/
def fits (s : EmblemConf) : Ev Action → Bool
  | .act i a => (s.client i).all fun c => !overshoots c a
  | _ => true

section Right

variable (getIdentifier : String → String → ℤ)

/-- All emblems that are drawn are found. -/
def Draws : Extra → Prop
  | .user u => (u.getEmblemForImageView getIdentifier).isSome ∧
      ∀ p ∈ u.mPosts, (p.getEmblemForImageView getIdentifier).isSome
  | .post p => (p.getEmblemForImageView getIdentifier).isSome
  | .posts ps => ∀ p ∈ ps, (p.getEmblemForImageView getIdentifier).isSome
  | .comments cs => ∀ c ∈ cs, (c.getAuthorEmblem getIdentifier).isSome

/-- Every stored emblem denotes a team, so does every selection, every emblem that a
screen draws is found, and no spinner has gone out of bounds. -/
structure EmblemsRight (s : EmblemConf) : Prop where
  stored : ∀ id doc, s.store.users.get id = some doc → HasTeam doc.emblemLeague doc.emblemTeam
  selected : ∀ i c, s.client i = some c → ∀ sp ∈ c.spinners, HasTeam sp.league.position sp.team.position
  drawn : ∀ i c, s.client i = some c → ∀ x ∈ c.extras, Draws getIdentifier x
  inBounds : ∀ i, s.client i ≠ some .outOfBounds

/-! ### What the parts keep -/

def Stored (db : Database) : Prop := ∀ id doc, db.users.get id = some doc → HasTeam doc.emblemLeague doc.emblemTeam

/-- A device's pages have a team of the league, and its screens find their emblems. -/
def Right : Device → Prop
  | .visitor => True
  | .signUp p sp => Shows getIdentifier sp ∧ HasTeam p.mSp_emblem_league p.mSp_emblem_team
  | .profile h shown => ∀ x ∈ Device.held h shown, Draws getIdentifier x
  | .profileEdit h shown p sp => (∀ x ∈ Device.held h shown, Draws getIdentifier x) ∧
      Draws getIdentifier (.user p.mUser) ∧ Shows getIdentifier sp ∧ HasTeam p.sp_league p.sp_team
  | .outOfBounds => False

/-- The emblems that a message carries. -/
def Carries : Request ⊕ Intent → Prop
  | .inl (.setUser _ _ doc) | .inl (.updateUser _ _ doc) | .inl (.getUserPosts _ _ doc) =>
    HasTeam doc.emblemLeague doc.emblemTeam
  | .inl (.getCommentsStepThree _ _ _ authors) | .inl (.getCommentsStepFour _ _ _ authors _) =>
    ∀ u ∈ authors, (u.getEmblemForImageView getIdentifier).isSome
  | .inl _ => True
  | .inr i => ∀ x ∈ i.extra, Draws getIdentifier x

/-- The device and what it asks for. -/
def Goes (r : Device × List Request) : Prop :=
  Right getIdentifier r.1 ∧ ∀ q ∈ r.2, Carries getIdentifier (.inl q)

end Right

variable {getIdentifier : String → String → ℤ}

/-! ### The pages -/

section Devices

variable {h : Profile} {shown : List Extra} {p : SignUpProfile} {e : ProfileEdit} {sp : EmblemSpinners}
  {c : Device} {a : Action} {i : Intent}

theorem right_ofSignUp (hs : Shows getIdentifier sp) : Right getIdentifier (.ofSignUp p sp) := ⟨hs, hs.hasTeam⟩

theorem right_ofProfileEdit (hd : ∀ x ∈ Device.held h shown, Draws getIdentifier x)
    (hu : Draws getIdentifier (.user e.mUser)) (hs : Shows getIdentifier sp) :
    Right getIdentifier (.ofProfileEdit h shown e sp) := ⟨hd, hu, hs, hs.hasTeam⟩

theorem goes_quiet (hc : Right getIdentifier c) : Goes getIdentifier (c, []) := ⟨hc, List.forall_mem_nil _⟩

theorem right_started {me : String} : Right getIdentifier (.profile ⟨me, none⟩ []) := List.forall_mem_nil _

theorem goes_ofSpinners {f : EmblemSpinners → Device} {o : Option EmblemSpinners}
    (ho : ∃ sp', o = some sp' ∧ Right getIdentifier (f sp')) : Goes getIdentifier (Device.ofSpinners f o) := by
  obtain ⟨sp', rfl, hr⟩ := ho
  exact goes_quiet hr

theorem carries_onResume : ∀ q ∈ ProfileActivity.onResume h, Carries getIdentifier (.inl q) := by
  intro q hq
  obtain rfl := List.mem_singleton.mp hq
  trivial

theorem carries_load {me action : String} {l : Load} :
    ∀ q ∈ l.requests me action, Carries getIdentifier (.inl q) := by
  intro q hq
  cases l <;> obtain rfl := List.mem_singleton.mp hq <;> trivial

theorem carries_ofForum {q : Request} (hq : ofForum q = true) : Carries getIdentifier (.inl q) := by
  cases q <;> trivial

theorem carries_signUp_tapped {p' : SignUpProfile} {t : AuthSignUpProfile.Action} {qs : List Request}
    (ht : AuthSignUpProfile.Tapped p t p' qs) : ∀ q ∈ qs, Carries getIdentifier (.inl q) := by
  intro q hq
  cases ht with
  | quiet => cases hq
  | verifies =>
    obtain rfl := List.mem_singleton.mp hq
    trivial

/-- What the sign-up stores is the page's emblem. -/
theorem carries_signUp_onReceive (hteam : HasTeam p.mSp_emblem_league p.mSp_emblem_team) :
    ∀ q ∈ (AuthSignUpProfile.onReceive p i).2, Carries getIdentifier (.inl q) := by
  intro q hq
  unfold AuthSignUpProfile.onReceive at hq
  split at hq
  · split at hq
    · obtain rfl := List.mem_singleton.mp hq
      trivial
    · cases hq
  · split at hq
    · split at hq
      · obtain rfl := List.mem_singleton.mp hq
        exact hteam
      · cases hq
    · split at hq <;> cases hq

theorem carries_profileEdit_tapped {e' : ProfileEdit} {t : ProfileEditActivity.Action} {qs : List Request}
    (hteam : HasTeam e.sp_league e.sp_team) (ht : ProfileEditActivity.Tapped e t e' qs) :
    ∀ q ∈ qs, Carries getIdentifier (.inl q) := by
  intro q hq
  cases ht with
  | quiet => cases hq
  | verifies =>
    obtain rfl := List.mem_singleton.mp hq
    trivial
  | saves =>
    obtain rfl := List.mem_singleton.mp hq
    exact hteam

theorem carries_profileEdit_replied {e' : ProfileEdit} {qs : List Request}
    (hteam : HasTeam e.sp_league e.sp_team) (hr : ProfileEditActivity.Replied e i e' qs) :
    ∀ q ∈ qs, Carries getIdentifier (.inl q) := by
  intro q hq
  cases hr with
  | quiet => cases hq
  | saves =>
    obtain rfl := List.mem_singleton.mp hq
    exact hteam

/-- Every team's spinner of the sign-up starts with the first team. -/
theorem signUp_first {i : ℕ} (hi : i < 5) : ∃ pos, HasTeam i pos ∧
    AuthSignUpProfile.updateSpinner getIdentifier i = some ⟨teamAdapter getIdentifier i, pos⟩ := by
  have hleague : 0 ≤ (i : ℤ) ∧ (i : ℤ) < 5 := by omega
  have hcount := teamCount_pos hleague
  exact ⟨0, ⟨le_rfl, by exact_mod_cast hcount⟩, AuthSignUpProfile.updateSpinner_eq hleague⟩

/-- The profile's team is set again, or the first one, unless the user overshoots. -/
theorem profileEdit_again {i : ℕ} (hu : Draws getIdentifier (.user e.mUser))
    (hfit : overshoots (.profileEdit h shown e sp) (.onLeagueChange i) = false) (hi : i < 5) :
    ∃ pos, HasTeam i pos ∧
      ProfileEditActivity.updateSpinner getIdentifier e.mUser i = some ⟨teamAdapter getIdentifier i, pos⟩ := by
  have hleague : 0 ≤ (i : ℤ) ∧ (i : ℤ) < 5 := by omega
  have hteam : HasTeam e.mUser.mEmblemLeague e.mUser.mEmblemTeam := emblemUtil_isSome_iff.mp hu.1
  rcases @ProfileEditActivity.updateSpinner_eq getIdentifier i e.mUser hleague hteam.1 with ⟨heq, -⟩ | ⟨-, hpos⟩
  · obtain ⟨titles, htitles⟩ := Option.isSome_iff_exists.mp (isSome_titlesOf_iff.mpr hleague)
    have hlen := titlesOf_eq_some htitles
    simp only [overshoots, htitles, Option.any_some, hlen, heq, decide_true] at hfit
    cases hfit
  · exact hpos

theorem goes_act_visitor {r : Device × List Request} (ha : Device.act getIdentifier .visitor a = some r) :
    Goes getIdentifier r := by
  cases a with
  | next email =>
    obtain rfl := Option.some.inj ha
    have hteam : HasTeam 0 12 := by decide
    refine goes_ofSpinners ⟨_, AuthSignUpProfile.setUpSpinner_eq ⟨le_rfl, by omega⟩ hteam, ?_⟩
    exact right_ofSignUp ⟨rfl, rfl, hteam⟩
  | signIn me =>
    obtain rfl := Option.some.inj ha
    exact ⟨right_started, carries_onResume⟩
  | _ =>
    obtain rfl := Option.some.inj ha
    exact goes_quiet trivial

theorem goes_act_signUp {r : Device × List Request} (hc : Right getIdentifier (.signUp p sp))
    (ha : Device.act getIdentifier (.signUp p sp) a = some r) : Goes getIdentifier r := by
  have hs : Shows getIdentifier sp := hc.1
  cases a with
  | signUp t =>
    obtain rfl := Option.some.inj ha
    exact ⟨right_ofSignUp hs, carries_signUp_tapped (AuthSignUpProfile.tapped_act p t)⟩
  | onLeagueChange i =>
    obtain rfl := Option.some.inj ha
    obtain ⟨sp', hsp, hs'⟩ := hs.changeLeague (i := i) signUp_first
    exact goes_ofSpinners ⟨sp', hsp, right_ofSignUp hs'⟩
  | onTeamChange i =>
    obtain rfl := Option.some.inj ha
    obtain ⟨sp', hsp, hs'⟩ := hs.changeTeam (i := i)
    exact goes_ofSpinners ⟨sp', hsp, right_ofSignUp hs'⟩
  | enter =>
    obtain rfl := Option.some.inj ha
    split
    · exact ⟨right_started, carries_onResume⟩
    · exact goes_quiet hc
  | back =>
    obtain rfl := Option.some.inj ha
    exact goes_quiet trivial
  | _ =>
    obtain rfl := Option.some.inj ha
    exact goes_quiet hc

theorem goes_act_profile {r : Device × List Request} (hc : Right getIdentifier (.profile h shown))
    (ha : Device.act getIdentifier (.profile h shown) a = some r) : Goes getIdentifier r := by
  cases a with
  | load action l =>
    obtain rfl := Option.some.inj ha
    exact ⟨hc, carries_load⟩
  | write q =>
    obtain rfl := Option.some.inj ha
    refine ⟨hc, fun q' hq' => ?_⟩
    simp only at hq'
    split at hq'
    · rename_i hforum
      obtain rfl := List.mem_singleton.mp hq'
      exact carries_ofForum hforum
    · cases hq'
  | openEdit =>
    obtain ⟨u, hu, rfl⟩ := Option.map_eq_some_iff.mp ha
    have hdraws : Draws getIdentifier (.user u) := hc _ (List.mem_append_left _ (by simp [hu]))
    have hteam : HasTeam u.mEmblemLeague u.mEmblemTeam := emblemUtil_isSome_iff.mp hdraws.1
    refine goes_ofSpinners ⟨_, ProfileEditActivity.createSpinners_eq hteam, ?_⟩
    exact right_ofProfileEdit hc hdraws ⟨rfl, rfl, hteam⟩
  | _ =>
    obtain rfl := Option.some.inj ha
    exact goes_quiet hc

theorem goes_act_profileEdit {r : Device × List Request} (hc : Right getIdentifier (.profileEdit h shown e sp))
    (hfit : overshoots (.profileEdit h shown e sp) a = false)
    (ha : Device.act getIdentifier (.profileEdit h shown e sp) a = some r) : Goes getIdentifier r := by
  obtain ⟨hd, hu, hs, hteam⟩ := id hc
  cases a with
  | profileEdit t =>
    obtain rfl := Option.some.inj ha
    have ht := ProfileEditActivity.tapped_act e t
    have hu' : Draws getIdentifier (.user (ProfileEditActivity.act e t).1.mUser) := by
      rw [ht.user]
      exact hu
    exact ⟨right_ofProfileEdit hd hu' hs, carries_profileEdit_tapped hteam ht⟩
  | onLeagueChange i =>
    obtain rfl := Option.some.inj ha
    obtain ⟨sp', hsp, hs'⟩ := hs.changeLeague (i := i) (profileEdit_again hu hfit)
    exact goes_ofSpinners ⟨sp', hsp, right_ofProfileEdit hd hu hs'⟩
  | onTeamChange i =>
    obtain rfl := Option.some.inj ha
    obtain ⟨sp', hsp, hs'⟩ := hs.changeTeam (i := i)
    exact goes_ofSpinners ⟨sp', hsp, right_ofProfileEdit hd hu hs'⟩
  | back =>
    obtain rfl := Option.some.inj ha
    exact ⟨hd, carries_onResume⟩
  | _ =>
    obtain rfl := Option.some.inj ha
    exact goes_quiet hc

/-- **What a user does** keeps the device right, unless he overshoots. -/
theorem goes_act {r : Device × List Request} (hc : Right getIdentifier c) (hfit : overshoots c a = false)
    (ha : c.act getIdentifier a = some r) : Goes getIdentifier r := by
  cases c with
  | visitor => exact goes_act_visitor ha
  | signUp p sp => exact goes_act_signUp hc ha
  | profile h shown => exact goes_act_profile hc ha
  | profileEdit h shown e sp => exact goes_act_profileEdit hc hfit ha
  | outOfBounds => exact hc.elim

/-- What a profile holds comes from its replies. -/
theorem right_received {h' : Profile} {qs : List Request} (hc : Right getIdentifier (.profile h shown))
    (hi : Carries getIdentifier (.inr i)) (hr : ProfileActivity.onReceive h i = some (h', qs)) :
    Right getIdentifier (.profile h' (i.extra.toList ++ shown)) := by
  have hextra : ∀ x ∈ i.extra.toList ++ shown, Draws getIdentifier x := by
    intro x hx
    rcases List.mem_append.mp hx with hx | hx
    · exact hi x (Option.mem_toList.mp hx)
    · exact hc x (List.mem_append_right _ hx)
  intro x hx
  rcases List.mem_append.mp hx with hx | hx
  · rcases (ProfileActivity.onReceive_cases hr).1 with rfl | ⟨u, -, hu, rfl⟩
    · exact hc x (List.mem_append_left _ hx)
    · obtain rfl := List.mem_singleton.mp hx
      exact hi _ hu
  · exact hextra x hx

/-- **What a reply brings** keeps the device right. -/
theorem goes_recv {r : Device × List Request} (hc : Right getIdentifier c) (hi : Carries getIdentifier (.inr i))
    (hr : c.recv i = some r) : Goes getIdentifier r := by
  cases c with
  | visitor =>
    obtain rfl := Option.some.inj hr
    exact goes_quiet trivial
  | signUp p sp =>
    obtain rfl := Option.some.inj hr
    exact ⟨right_ofSignUp hc.1, carries_signUp_onReceive hc.2⟩
  | profile h shown =>
    obtain ⟨⟨h', qs⟩, hh, rfl⟩ := Option.map_eq_some_iff.mp hr
    obtain rfl := (ProfileActivity.onReceive_cases hh).2
    exact goes_quiet (right_received hc hi hh)
  | profileEdit h shown e sp =>
    obtain ⟨hd, hu, hs, hteam⟩ := hc
    obtain rfl := Option.some.inj hr
    have hreplied := ProfileEditActivity.replied_onReceive e i
    have hcarries := @carries_profileEdit_replied getIdentifier _ _ _ _ hteam hreplied
    split
    · refine ⟨hd, fun q hq => ?_⟩
      rcases List.mem_append.mp hq with hq | hq
      · exact hcarries q hq
      · exact carries_onResume q hq
    · have hu' : Draws getIdentifier (.user (ProfileEditActivity.onReceive e i).1.mUser) := by
        rw [hreplied.user]
        exact hu
      exact ⟨right_ofProfileEdit hd hu' hs, hcarries⟩
  | outOfBounds => exact hc.elim

end Devices

/-! ### The backend -/

section Backend

variable {ok : Bool} {db db' : Database} {q : Request} {out : List (Request ⊕ Intent)}

theorem Stored.wrote (hdb : Stored db) (hq : Carries getIdentifier (.inl q)) (hw : Wrote db q db') : Stored db' := by
  cases hw with
  | setUser => exact Collection.forall_set hdb hq
  | updateUser hu =>
    obtain ⟨old, -, rfl⟩ := Collection.update_eq_some hu
    exact Collection.forall_set hdb hq
  | @updateUserArray a id f op v us hu =>
    obtain ⟨old, hold, rfl⟩ := Collection.update_eq_some hu
    have hteam := hdb _ _ hold
    refine Collection.forall_set hdb ?_
    cases f <;> exact hteam
  | _ => exact hdb

/-- A user's posts have the first team of the first league, until their author is read. -/
theorem draws_getUserPosts {a email : String} {doc : UserDoc} {u : User}
    (h : exec ok db (.getUserPosts a email doc) = some (db', sendBroadcast a true (some (.user u))))
    (hdoc : HasTeam doc.emblemLeague doc.emblemTeam) : Draws getIdentifier (.user u) := by
  cases ok with
  | true =>
    obtain ⟨-, hout⟩ := Prod.mk.inj (Option.some.inj h)
    have hextra := congrArg Intent.extra (Sum.inr.inj (List.singleton_inj.mp hout))
    obtain rfl := Extra.user.inj (Option.some.inj hextra)
    refine ⟨emblemUtil_isSome_iff.mpr hdoc, fun p hp => ?_⟩
    obtain ⟨e, -, rfl⟩ := List.mem_map.mp hp
    have hfirst : HasTeam 0 0 := by decide
    exact emblemUtil_isSome_iff.mpr hfirst
  | false =>
    obtain ⟨-, hout⟩ := Prod.mk.inj (Option.some.inj h)
    cases hout

theorem draws_getPostsStepTwo {postIds uIds : List String} {ps : List Post} (hdb : Stored db)
    (h : getPostStepTwo db postIds uIds = some ps) : Draws getIdentifier (.posts ps) := by
  intro p hp
  obtain ⟨x, -, hf⟩ := OwnPost.mem_of_mapM h p hp
  obtain ⟨doc1, -, hf⟩ := Option.bind_eq_some_iff.mp hf
  obtain ⟨doc2, hdoc2, hf⟩ := Option.bind_eq_some_iff.mp hf
  obtain rfl := Option.some.inj hf
  exact emblemUtil_isSome_iff.mpr (hdb _ _ hdoc2)

theorem found_stepTwo {ids authorIds : List String} {es : List ((String × CommentDoc) × User)} (hdb : Stored db)
    (h : stepTwo db ids authorIds = some es) :
    ∀ u ∈ es.map (·.2), (u.getEmblemForImageView getIdentifier).isSome := by
  intro u hu
  obtain ⟨e, he, rfl⟩ := List.mem_map.mp hu
  obtain ⟨x, -, hf⟩ := OwnPost.mem_of_mapM h e he
  obtain ⟨doc1, -, hf⟩ := Option.bind_eq_some_iff.mp hf
  obtain ⟨doc2, hdoc2, hf⟩ := Option.bind_eq_some_iff.mp hf
  obtain rfl := Option.some.inj hf
  exact emblemUtil_isSome_iff.mpr (hdb _ _ hdoc2)

theorem draws_stepFour {es : List (String × CommentDoc)} {authors : List User} {ns : List String}
    {cs : List Comment} (hauthors : ∀ u ∈ authors, (u.getEmblemForImageView getIdentifier).isSome)
    (h : stepFour db es authors ns = some cs) : Draws getIdentifier (.comments cs) := by
  intro c hc
  obtain ⟨names, -, rfl⟩ := Option.map_eq_some_iff.mp h
  obtain ⟨x, hx, rfl⟩ := List.mem_map.mp hc
  exact hauthors _ (List.of_mem_zip (List.of_mem_zip hx).1).2

theorem carries_one {b : Request ⊕ Intent} (hb : Carries getIdentifier b) :
    ∀ b' ∈ [b], Carries getIdentifier b' := List.forall_mem_singleton.mpr hb

theorem carries_reply {a : String} {r : Bool} : Carries getIdentifier (.inr ⟨a, r, none⟩) := fun _ hx => by cases hx

theorem carries_extra {a : String} {x : Extra} (hx : Draws getIdentifier x) :
    Carries getIdentifier (.inr ⟨a, true, some x⟩) := fun _ hy => Option.some.inj hy ▸ hx

/-- **What the backend does** keeps every emblem. -/
theorem carries_exec (hdb : Stored db) (hq : Carries getIdentifier (.inl q)) (he : exec ok db q = some (db', out)) :
    Stored db' ∧ ∀ b ∈ out, Carries getIdentifier b := by
  cases executed_exec he with
  | wrote hw => exact ⟨hdb.wrote hq hw, carries_one carries_reply⟩
  | fails hall =>
    refine ⟨hdb, fun b hb => ?_⟩
    obtain rfl := hall b hb
    exact carries_reply
  | answers => exact ⟨hdb, carries_one carries_reply⟩
  | getUser h => exact ⟨hdb, carries_one (hdb _ _ h)⟩
  | getUserPosts => exact ⟨hdb, carries_one (carries_extra (draws_getUserPosts he hq))⟩
  | getPostsStepTwo h => exact ⟨hdb, carries_one (carries_extra (draws_getPostsStepTwo hdb h))⟩
  | getPostAuthor h => exact ⟨hdb, carries_one (carries_extra (emblemUtil_isSome_iff.mpr (hdb _ _ h)))⟩
  | getCommentsStepTwo h => exact ⟨hdb, carries_one (found_stepTwo hdb h)⟩
  | getCommentsStepThree => exact ⟨hdb, carries_one hq⟩
  | getCommentsStepFour h => exact ⟨hdb, carries_one (carries_extra (draws_stepFour hq h))⟩
  | _ => exact ⟨hdb, carries_one trivial⟩

end Backend

/-! ### Runs -/

/-- Nobody has signed up yet. -/
structure Starts (s : EmblemConf) : Prop where
  users : s.store.users = .empty
  visitors : ∀ i c, s.client i = some c → c = .visitor
  net : s.net = []

theorem parts_fits : Parts (devices getIdentifier) (fun s e => fits s e = true) Stored (Right getIdentifier)
    (fun m => Carries getIdentifier m.body) where
  act _ _ _ _ _ _ hfit hc ha hr := by
    simp only [fits, hc, Option.all_some, Bool.not_eq_true'] at hfit
    exact goes_act hr hfit ha
  exec _ _ _ _ _ _ _ _ _ _ he hdb hq := carries_exec hdb hq he
  recv _ _ _ _ _ _ _ _ _ _ _ hr hc hi := goes_recv hc hi hr

theorem Right.selected {c : Device} (hc : Right getIdentifier c) :
    ∀ sp ∈ c.spinners, HasTeam sp.league.position sp.team.position := by
  intro sp hsp
  cases c with
  | signUp p sp' =>
    obtain rfl := Option.some.inj hsp
    exact hc.1.hasTeam
  | profileEdit h shown p sp' =>
    obtain rfl := Option.some.inj hsp
    exact hc.2.2.1.hasTeam
  | _ => cases hsp

theorem Right.drawn {c : Device} (hc : Right getIdentifier c) : ∀ x ∈ c.extras, Draws getIdentifier x := by
  intro x hx
  cases c with
  | profile h shown => exact hc x hx
  | profileEdit h shown p sp =>
    rcases List.mem_cons.mp hx with rfl | hx
    · exact hc.2.1
    · exact hc.1 x hx
  | _ => cases hx

/-- **Every emblem denotes a team, in every run in which no user overshoots**: wherever
it is stored, selected or drawn, and no spinner goes out of bounds. -/
theorem emblems_right {s₀ s : EmblemConf} (h0 : Starts s₀)
    (h : Reach (devices getIdentifier) (fun s e => fits s e = true) s₀ s) : EmblemsRight getIdentifier s := by
  have hstart : Stored s₀.store ∧ (∀ i c, s₀.client i = some c → Right getIdentifier c) ∧
      ∀ m ∈ s₀.net, Carries getIdentifier m.body := by
    refine ⟨fun id doc hdoc => ?_, fun i c hc => ?_, fun m hm => ?_⟩
    · rw [h0.users, Collection.get_empty] at hdoc
      cases hdoc
    · rw [h0.visitors i c hc]
      trivial
    · rw [h0.net] at hm
      cases hm
  obtain ⟨hstored, hclients, -⟩ := parts_fits.reach hstart h
  exact ⟨hstored, fun i c hc => (hclients i c hc).selected, fun i c hc => (hclients i c hc).drawn,
    fun i hc => hclients i _ hc⟩

/-- A user who overshoots ends the app. -/
theorem act_overshoots {c : Device} {a : Action} (hc : Right getIdentifier c) (ho : overshoots c a = true) :
    c.act getIdentifier a = some (.outOfBounds, []) := by
  unfold overshoots at ho
  split at ho
  · rename_i h shown e sp i
    obtain ⟨-, hu, hs, -⟩ := hc
    obtain ⟨titles, htitles, heq⟩ := (Option.any_eq_true _ _).mp ho
    have hleague := isSome_titlesOf_iff.mp (Option.isSome_of_eq_some htitles)
    have hteam : HasTeam e.mUser.mEmblemLeague e.mUser.mEmblemTeam := emblemUtil_isSome_iff.mp hu.1
    have hcount : e.mUser.mEmblemTeam = teamCount i := by
      rw [← titlesOf_eq_some htitles]
      exact of_decide_eq_true heq
    have hagain := @ProfileEditActivity.updateSpinner_eq getIdentifier i e.mUser hleague hteam.1
    rcases hagain with ⟨-, hnone⟩ | ⟨hne, -⟩
    · have hthrows := hs.changeLeague_throws (by omega) hnone
      show some (Device.ofSpinners _ (sp.changeLeague _ i)) = _
      rw [hthrows]
      rfl
    · exact absurd hcount hne
  · cases ho

/-! A visitor signs up with the team at `team` of the first league, loads her profile and
opens its edit. -/

def drawables (_name _type : String) : ℤ := 0

def firstVisitor : EmblemConf :=
  ⟨⟨.empty, .empty, .empty, .empty⟩, fun i => if i = 0 then some .visitor else none, []⟩

def opensEdit (team : ℕ) : List (Ev Action) :=
  [.act 0 (.next "ann@mail.com"), .act 0 (.signUp (.typeUName "ann")), .act 0 (.signUp (.typePwd "password")),
    .act 0 (.signUp (.typePwdConf "password")), .act 0 (.signUp (.onActivityResult "content://photo")),
    .act 0 (.onTeamChange team), .act 0 (.signUp .onDoneTap), .exec 0 true, .deliver 0, .exec 0 true, .deliver 0,
    .exec 0 true, .deliver 0, .act 0 .enter, .exec 0 true, .exec 0 true, .deliver 0, .act 0 .openEdit]

theorem starts_firstVisitor : Starts firstVisitor := by
  refine ⟨rfl, fun i c hc => ?_, rfl⟩
  change (if i = 0 then some Device.visitor else none) = some c at hc
  split at hc
  · exact (Option.some.inj hc).symm
  · cases hc

/-- Ann changes from the sixth team of the first league to the last one of the third. -/
theorem emblems_right_saved : ∃ s, Reach (devices drawables) (fun s e => fits s e = true) firstVisitor s ∧
    (s.store.users.get "ann@mail.com").map (fun doc => (doc.emblemLeague, doc.emblemTeam)) = some (2, 17) ∧
    EmblemsRight drawables s := by
  obtain ⟨s, hr, hs⟩ := @reach_of_test _ _ _ _ _ _ (devices drawables) fits firstVisitor
    (opensEdit 5 ++ [.act 0 (.onLeagueChange 2), .act 0 (.onTeamChange 17), .act 0 (.profileEdit .onSaveTap),
      .exec 0 true, .deliver 0])
    (fun s => decide ((s.store.users.get "ann@mail.com").map
      (fun doc => (doc.emblemLeague, doc.emblemTeam)) = some (2, 17))) (by decide)
  exact ⟨s, hr, of_decide_eq_true hs, emblems_right starts_firstVisitor hr⟩

/-- Ann's team is the nineteenth of the first league, and the third league has eighteen. -/
theorem nineteenth_team : ∃ s, Reach (devices drawables) (fun _ _ => True) firstVisitor s ∧
    s.client 0 = some .outOfBounds ∧ ¬ EmblemsRight drawables s := by
  obtain ⟨s, hr, hs⟩ := @reach_of_test _ _ _ _ _ _ (devices drawables) (fun _ _ => true) firstVisitor
    (opensEdit 18 ++ [.act 0 (.onLeagueChange 2)]) (fun s => decide (s.client 0 = some .outOfBounds)) (by decide)
  have hgone := of_decide_eq_true hs
  exact ⟨s, hr.mono fun _ _ _ => trivial, hgone, fun h => h.inBounds 0 hgone⟩

end Emblems
end FootballGallery
