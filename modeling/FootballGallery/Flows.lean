/-
# The flows of two writes

Eight of the app's flows write twice: signing up, creating and deleting a post,
commenting, and liking or yellow-carding a post or a comment. The first write
is started by a tap (or by the positive answer about the username), the second
one by the handler of the first one's reply. A failure is shown or ignored;
nothing is taken back. So a flow ends as it began, with its first write alone,
or complete, as its two calls go. All this is about a page that stays on screen: a
reply that finds it paused is lost, and with it the second write.

Key definitions: `Activity`, `app`, `Flow`, `Flow.start`.
Key theorems: `Flow.twoWrites`, `Flow.ends`.
-/
import FootballGallery.Lib.TwoWrites
import FootballGallery.AuthSignUpProfile
import FootballGallery.ForumFormActivity
import FootballGallery.ForumSteps

namespace FootballGallery

open Async DBUtil

/-- The activities that write in two steps. -/
inductive Activity where
  | signUp (a : SignUpProfile)
  | form (f : ForumForm)
  | detail (p : ForumDetail)
deriving DecidableEq

namespace Activity

def onReceive (d : Drawables) (i : Intent) : Activity → Option (Activity × List Request)
  | signUp a => some (signUp (AuthSignUpProfile.onReceive a i).1, (AuthSignUpProfile.onReceive a i).2)
  | form f => (ForumFormActivity.onReceive f i).map fun r => (form r.1, r.2)
  | detail p => (ForumDetailActivity.onReceive d p i).map fun r => (detail r.1, r.2)

end Activity

namespace Flow

/-- One activity and the backend, while the user waits. -/
def app (d : Drawables) : App Database Activity Request Intent Empty Unit where
  act _ a := nomatch a
  exec := exec
  recv c i := c.onReceive d i
  tag _ := ()

end Flow

/-- A flow, with the activity it starts in. -/
inductive Flow where
  | signUp (a : SignUpProfile)
  | createPost (f : ForumForm) (id : String)
  | deletePost (p : ForumDetail)
  | addComment (p : ForumDetail) (id : String)
  | likePost (p : ForumDetail)
  | yellowCardPost (p : ForumDetail)
  | likeComment (p : ForumDetail) (pos : ℕ) (viewId : ℤ)
  | yellowCardComment (p : ForumDetail) (pos : ℕ)

namespace Flow

open ForumDetailActivity (Reading Settled after)

/-- A tap on a post's page. -/
def tap (d : Drawables) (p : ForumDetail) (a : ForumDetailActivity.Action) : Option (Activity × List Request) :=
  some (.detail (ForumDetailActivity.act d p a).1, (ForumDetailActivity.act d p a).2)

/-- The activity and the requests after the tap that starts the flow. -/
def start (d : Drawables) : Flow → Option (Activity × List Request)
  | signUp a => (Activity.signUp a).onReceive d ⟨AuthSignUpProfile.userVerifyUsernameAction, true, none⟩
  | createPost f id =>
    match f.mOldPost with
    | none => (ForumFormActivity.onPostTap f id).map fun r => (.form r.1, r.2)
    | some _ => none
  | deletePost p => tap d p .onDeleteMenu
  | addComment p id => tap d p (.onCommentTap id)
  | likePost p => tap d p .onLikeIconTap
  | yellowCardPost p => tap d p .onYCardIconTap
  | likeComment p pos viewId => tap d p (.onLikeClick pos viewId)
  | yellowCardComment p pos => tap d p (.onYCardClick pos)

/-- What the activity does when the first write has succeeded. -/
def goOn (d : Drawables) (c : Activity) (q : Request) : Option (Activity × List Request) :=
  c.onReceive d ⟨q.action, true, none⟩

/-! ### What a write does -/

/-- A write whose reply says whether it succeeded. -/
def Writes (q : Request) : Prop := ∃ w : Database → Option Database, ∀ ok db,
  exec ok db q = write db q.action ok (w db)

/-- A call that answers at most whether it succeeded, and changes nothing if not. -/
def Answered (d : Drawables) (q : Request) : Prop := ∀ ok db, ∃ out,
  exec ok db q = some (((app d).call Intent.result ok db q).getD db, out) ∧
    ∀ b ∈ out, ∃ r, b = .inr ⟨q.action, r, none⟩

section Writes

variable {d : Drawables} {q : Request} {ok : Bool} {db db' : Database}

theorem write_cases (db : Database) (a : String) (ok : Bool) (w : Option Database) :
    (∃ db', write db a ok w = some (db', [.inr ⟨a, true, none⟩])) ∨
      write db a ok w = some (db, [.inr ⟨a, false, none⟩]) := by
  cases ok with
  | false => exact .inr rfl
  | true =>
    cases w with
    | none => exact .inr rfl
    | some db' => exact .inl ⟨db', rfl⟩

theorem Writes.fails (hq : Writes q) (h : (app d).call Intent.result ok db q = none) :
    exec ok db q = some (db, [.inr ⟨q.action, false, none⟩]) := by
  obtain ⟨w, hw⟩ := hq
  rcases write_cases db q.action ok (w db) with ⟨db', hc⟩ | hc
  · have hx : exec ok db q = _ := (hw ok db).trans hc
    simp only [App.call, app, hx, if_true] at h
    cases h
  · exact (hw ok db).trans hc

theorem Writes.succeeds (hq : Writes q) (h : (app d).call Intent.result ok db q = some db') :
    exec ok db q = some (db', [.inr ⟨q.action, true, none⟩]) := by
  obtain ⟨w, hw⟩ := hq
  rcases write_cases db q.action ok (w db) with ⟨db'', hc⟩ | hc
  · have hx : exec ok db q = _ := (hw ok db).trans hc
    simp only [App.call, app, hx, if_true] at h
    rw [hx, Option.some.inj h]
  · have hx : exec ok db q = _ := (hw ok db).trans hc
    simp only [App.call, app, hx] at h
    cases h

theorem Writes.answered (hq : Writes q) : Answered d q := by
  intro ok db
  cases h : (app d).call Intent.result ok db q with
  | none => exact ⟨_, hq.fails h, fun b hb => ⟨false, List.mem_singleton.mp hb⟩⟩
  | some db' => exact ⟨_, hq.succeeds h, fun b hb => ⟨true, List.mem_singleton.mp hb⟩⟩

theorem answered_updateComment (a id : String) (doc : CommentDoc) : Answered d (.updateComment a id doc) := by
  intro ok db
  cases ok with
  | false => exact ⟨[], rfl, fun b hb => by cases hb⟩
  | true =>
    cases hu : db.comments.update id fun _ => doc with
    | none =>
      have hx : exec true db (.updateComment a id doc) = some (db, []) := by simp only [exec, hu]
      refine ⟨[], ?_, fun b hb => by cases hb⟩
      simp only [App.call, app, hx]
      rfl
    | some cs =>
      have hx : exec true db (.updateComment a id doc) =
          some ({ db with comments := cs }, [.inr ⟨a, true, none⟩]) := by simp only [exec, hu]
      refine ⟨[.inr ⟨a, true, none⟩], ?_, fun b hb => ⟨true, List.mem_singleton.mp hb⟩⟩
      simp only [App.call, app, hx, if_true]
      rfl

end Writes

/-! ### The handlers' part -/

section TwoWrites

variable {d : Drawables} {c₁ c₂ : Activity} {q₁ q₂ : Request}

theorem twoWrites_of {LateMsg : Request ⊕ Intent → Prop} {Idle : Activity → Prop}
    (h₁ : Writes q₁) (hfail : c₁.onReceive d ⟨q₁.action, false, none⟩ = some (c₁, []))
    (h₂ : goOn d c₁ q₁ = some (c₂, [q₂])) (hans : Answered d q₂)
    (hlast : ∀ r, LateMsg (.inr ⟨q₂.action, r, none⟩)) (hidle : Idle c₂)
    (hexec : ∀ ok db q, LateMsg (.inl q) → ∀ db' out, exec ok db q = some (db', out) →
      db' = db ∧ ∀ b ∈ out, LateMsg b)
    (hrecv : ∀ c i, Idle c → LateMsg (.inr i) → ∀ c' qs, c.onReceive d i = some (c', qs) →
      Idle c' ∧ ∀ q ∈ qs, LateMsg (.inl q)) :
    TwoWrites (app d) Intent.result c₁ q₁ c₂ q₂ LateMsg Idle where
  fails ok db hcall := ⟨_, h₁.fails hcall, fun b hb => ⟨_, List.mem_singleton.mp hb, hfail⟩⟩
  goesOn ok db db' hcall := ⟨_, h₁.succeeds hcall, h₂⟩
  ends ok db := by
    obtain ⟨out, hex, hout⟩ := hans ok db
    refine ⟨out, hex, fun b hb => ?_⟩
    obtain ⟨r, rfl⟩ := hout b hb
    exact hlast r
  idle := hidle
  late_exec := hexec
  late_recv := hrecv

/-- After its flow a form or a sign-up page only takes the last reply. -/
theorem twoWrites_plain (h₁ : Writes q₁) (hfail : c₁.onReceive d ⟨q₁.action, false, none⟩ = some (c₁, []))
    (h₂ : goOn d c₁ q₁ = some (c₂, [q₂])) (hans : Answered d q₂) (Idle : Activity → Prop) (hidle : Idle c₂)
    (hlast : ∀ c r, Idle c → ∃ c', c.onReceive d ⟨q₂.action, r, none⟩ = some (c', []) ∧ Idle c') :
    ∃ Late Idle, TwoWrites (app d) Intent.result c₁ q₁ c₂ q₂ Late Idle := by
  refine ⟨fun b => ∃ r, b = .inr ⟨q₂.action, r, none⟩, Idle,
    twoWrites_of h₁ hfail h₂ hans (fun r => ⟨r, rfl⟩) hidle ?_ ?_⟩
  · rintro ok db q ⟨r, hr⟩
    cases hr
  · rintro c i hc ⟨r, hr⟩ c' qs h
    obtain rfl := Sum.inr.inj hr
    obtain ⟨c'', heq, hc''⟩ := hlast c r hc
    obtain ⟨rfl, rfl⟩ := Prod.mk.inj (Option.some.inj (heq.symm.trans h))
    exact ⟨hc'', fun q hq => by cases hq⟩

/-- After its flow a post's page reads, or is finished. -/
theorem twoWrites_page {p₁ p₂ : ForumDetail} (h₁ : Writes q₁)
    (hfail : ForumDetailActivity.onReceive d p₁ ⟨q₁.action, false, none⟩ = some (p₁, []))
    (h₂ : ForumDetailActivity.onReceive d p₁ ⟨q₁.action, true, none⟩ = some (p₂, [q₂])) (hans : Answered d q₂)
    (hlast : q₂.action ∈ after ∨ q₂.action = ForumDetailActivity.deletePostInUsers) :
    ∃ Late Idle, TwoWrites (app d) Intent.result (.detail p₁) q₁ (.detail p₂) q₂ Late Idle := by
  refine ⟨fun b => Reading p₂.mPost.mId b ∨ ∃ r, b = .inr ⟨ForumDetailActivity.deletePostInUsers, r, none⟩,
    fun c => ∃ p, c = .detail p ∧ p.mPost.mId = p₂.mPost.mId,
    twoWrites_of h₁ ?_ ?_ hans (fun r => ?_) ⟨p₂, rfl, rfl⟩ ?_ ?_⟩
  · rw [Activity.onReceive, hfail]
    rfl
  · rw [goOn, Activity.onReceive, h₂]
    rfl
  · rcases hlast with hlast | hlast
    · exact .inl (.reply (.after hlast))
    · exact .inr ⟨r, by rw [hlast]⟩
  · rintro ok db q (hq | ⟨r, hr⟩) db' out h
    · obtain ⟨hdb, hout⟩ := ForumDetailActivity.exec_reading hq h
      exact ⟨hdb, fun b hb => .inl (hout b hb)⟩
    · cases hr
  · rintro c i ⟨p, rfl, hp⟩ hi c' qs h
    obtain ⟨⟨p', qs'⟩, hr, heq⟩ := Option.map_eq_some_iff.mp h
    obtain ⟨rfl, rfl⟩ := Prod.mk.inj heq
    rcases hi with hi | ⟨r, hr'⟩
    · cases hi with
      | reply hi =>
        obtain ⟨hp', -, hqs⟩ := ForumDetailActivity.recv_settled hi hp hr
        exact ⟨⟨p', rfl, hp'⟩, fun q hq => .inl (hqs q hq)⟩
    · obtain rfl := Sum.inr.inj hr'
      obtain ⟨rfl, rfl⟩ := Prod.mk.inj (Option.some.inj hr)
      refine ⟨⟨_, rfl, ?_⟩, fun q hq => by cases hq⟩
      cases r <;> exact hp

end TwoWrites

theorem tap_cases {d : Drawables} {p : ForumDetail} {a : ForumDetailActivity.Action} {c₁ : Activity}
    {q₁ : Request} (h : tap d p a = some (c₁, [q₁])) :
    ∃ p₁, c₁ = .detail p₁ ∧ ForumDetailActivity.Tapped d p a p₁ [q₁] := by
  obtain ⟨rfl, hqs⟩ := Prod.mk.inj (Option.some.inj h)
  exact ⟨_, rfl, hqs ▸ ForumDetailActivity.tapped_act d p a⟩

/-- A flow that a tap on a page starts, from what the tap and the reply can do. -/
theorem twoWrites_tap {d : Drawables} {p : ForumDetail} {a : ForumDetailActivity.Action} {c₁ : Activity}
    {q₁ : Request} (h₁ : tap d p a = some (c₁, [q₁]))
    (H : ∀ p₁, ForumDetailActivity.Tapped d p a p₁ [q₁] → Writes q₁ ∧
      ForumDetailActivity.onReceive d p₁ ⟨q₁.action, false, none⟩ = some (p₁, []) ∧
      ∃ p₂ q₂, ForumDetailActivity.onReceive d p₁ ⟨q₁.action, true, none⟩ = some (p₂, [q₂]) ∧
        Answered d q₂ ∧ (q₂.action ∈ after ∨ q₂.action = ForumDetailActivity.deletePostInUsers) ∧
        ∀ a email pwd, q₂ ≠ .createAccount a email pwd) :
    ∃ c₂ q₂, goOn d c₁ q₁ = some (c₂, [q₂]) ∧ (∀ a email pwd, q₂ ≠ .createAccount a email pwd) ∧
      ∃ Late Idle, TwoWrites (app d) Intent.result c₁ q₁ c₂ q₂ Late Idle := by
  obtain ⟨p₁, rfl, ht⟩ := tap_cases h₁
  obtain ⟨hw, hfail, p₂, q₂, hr, hans, hlast, hne⟩ := H p₁ ht
  refine ⟨.detail p₂, q₂, ?_, hne, twoWrites_page hw hfail hr hans hlast⟩
  rw [goOn, Activity.onReceive, hr]
  rfl

theorem writes_updateUserArray (a id : String) (f : UserArray) (op : ArrayOp) (v : String) :
    Writes (.updateUserArray a id f op v) :=
  ⟨fun db => (db.users.update id (·.updateArray f op v)).map fun us => { db with users := us },
    fun _ _ => rfl⟩

theorem writes_updatePost (a id : String) (doc : PostDoc) : Writes (.updatePost a id doc) :=
  ⟨fun db => (db.posts.update id fun _ => doc).map fun ps => { db with posts := ps }, fun _ _ => rfl⟩

/-- **Each of the eight flows is a flow of two writes**, of which only the first can
make an account. -/
theorem twoWrites {d : Drawables} (f : Flow) {c₁ : Activity} {q₁ : Request}
    (h₁ : f.start d = some (c₁, [q₁])) :
    ∃ c₂ q₂, goOn d c₁ q₁ = some (c₂, [q₂]) ∧ (∀ a email pwd, q₂ ≠ .createAccount a email pwd) ∧
      ∃ Late Idle, TwoWrites (app d) Intent.result c₁ q₁ c₂ q₂ Late Idle := by
  cases f with
  | signUp a =>
    obtain ⟨rfl, hq⟩ := Prod.mk.inj (Option.some.inj h₁)
    obtain rfl := List.singleton_inj.mp hq
    refine ⟨_, _, rfl, nofun, twoWrites_plain ⟨_, fun _ _ => rfl⟩ rfl rfl (Writes.answered ⟨_, fun _ _ => rfl⟩)
      (fun c => ∃ a, c = .signUp a) ⟨_, rfl⟩ ?_⟩
    rintro c r ⟨a, rfl⟩
    exact ⟨_, rfl, _, rfl⟩
  | createPost f id =>
    simp only [start] at h₁
    split at h₁
    · rename_i hnew
      obtain ⟨⟨f₁, qs⟩, htap, heq⟩ := Option.map_eq_some_iff.mp h₁
      obtain ⟨rfl, rfl⟩ := Prod.mk.inj heq
      obtain ⟨author, -, htap⟩ := Option.map_eq_some_iff.mp htap
      obtain ⟨rfl, hqs⟩ := Prod.mk.inj htap
      rw [hnew] at hqs
      by_cases htitle : StringUtil.isFieldValid [f.mEt_title] = true
      · rw [if_pos htitle] at hqs
        obtain rfl := List.singleton_inj.mp hqs
        refine ⟨_, _, rfl, nofun, twoWrites_plain ⟨_, fun _ _ => rfl⟩ rfl rfl (writes_updateUserArray ..).answered
          (fun c => ∃ f, c = .form f) ⟨_, rfl⟩ ?_⟩
        rintro c r ⟨f, rfl⟩
        exact ⟨_, rfl, _, rfl⟩
      · rw [if_neg htitle] at hqs
        cases hqs
    · cases h₁
  | deletePost p =>
    refine twoWrites_tap h₁ fun p₁ ht => ?_
    cases ht with
    | delete => exact ⟨⟨_, fun _ _ => rfl⟩, rfl, _, _, rfl, (writes_updateUserArray ..).answered, .inr rfl, nofun⟩
  | addComment p id =>
    refine twoWrites_tap h₁ fun p₁ ht => ?_
    cases ht with
    | comment =>
      have hlast : ForumDetailActivity.updateValue ∈ after := by decide
      exact ⟨⟨_, fun _ _ => rfl⟩, rfl, _, _, rfl, (writes_updatePost ..).answered, .inl hlast, nofun⟩
  | likePost p =>
    refine twoWrites_tap h₁ fun p₁ ht => ?_
    have hlast : ForumDetailActivity.updatePostAfterLike ∈ after := by decide
    generalize hqs : [q₁] = qs at ht
    cases ht with
    | quiet => cases hqs
    | like =>
      obtain ⟨op, rfl⟩ := mem_userUpdateValue (hqs ▸ List.mem_singleton_self q₁)
      exact ⟨writes_updateUserArray .., rfl, _, _, rfl, (writes_updatePost ..).answered, .inl hlast, nofun⟩
  | yellowCardPost p =>
    refine twoWrites_tap h₁ fun p₁ ht => ?_
    cases ht with
    | ycard hpop =>
      have hlast : ForumDetailActivity.updatePostAfterYCard ∈ after := by decide
      exact ⟨writes_updateUserArray .., rfl, _, _, ForumDetailActivity.onReceive_updateUserYCard hpop none rfl,
        (writes_updatePost ..).answered, .inl hlast, nofun⟩
  | likeComment p pos viewId =>
    refine twoWrites_tap h₁ fun p₁ ht => ?_
    cases ht with
    | commentLike =>
      have hlast : ForumDetailActivity.commentUpdateLikeValue ∈ after := by decide
      exact ⟨writes_updateUserArray .., rfl, _, _, rfl, answered_updateComment _ _ _, .inl hlast, nofun⟩
  | yellowCardComment p pos =>
    refine twoWrites_tap h₁ fun p₁ ht => ?_
    cases ht with
    | commentYCard =>
      have hlast : ForumDetailActivity.commentUpdateYCardValue ∈ after := by decide
      exact ⟨writes_updateUserArray .., rfl, _, _, rfl, answered_updateComment _ _ _, .inl hlast, nofun⟩

/-! ### Accounts and their users -/

/-- Every account has a user's document. -/
def AccountsNamed (db : Database) : Prop :=
  ∀ email pwd, db.accounts.get email = some pwd → (db.users.get email).isSome

/-- Only `createUserWithEmailAndPassword` makes accounts, and no task takes a user's
document away. -/
theorem exec_accounts {ok : Bool} {db db' : Database} {q : Request} {out : List (Request ⊕ Intent)}
    (h : exec ok db q = some (db', out)) (hq : ∀ a email pwd, q ≠ .createAccount a email pwd) :
    db'.accounts = db.accounts ∧ ∀ id, (db.users.get id).isSome → (db'.users.get id).isSome := by
  have hupdate : ∀ {id f us}, db.users.update id f = some us →
      ∀ id', (db.users.get id').isSome → (us.get id').isSome := by
    intro id f us hu id' hsome
    obtain ⟨d, -, rfl⟩ := DocStore.Collection.update_eq_some hu
    exact DocStore.Collection.isSome_get_set_of _ _ _ hsome
  cases executed_exec h with
  | wrote hw =>
    cases hw with
    | createAccount => exact absurd rfl (hq _ _ _)
    | setUser => exact ⟨rfl, fun id' hs => DocStore.Collection.isSome_get_set_of _ _ _ hs⟩
    | updateUser hu => exact ⟨rfl, hupdate hu⟩
    | updateUserArray hu => exact ⟨rfl, hupdate hu⟩
    | _ => exact ⟨rfl, fun _ hs => hs⟩
  | _ => exact ⟨rfl, fun _ hs => hs⟩

theorem call_exec {d : Drawables} {ok : Bool} {db db' : Database} {q : Request}
    (h : (app d).call Intent.result ok db q = some db') : ∃ out, exec ok db q = some (db', out) := by
  unfold App.call at h
  split at h
  · rename_i st r hx
    split at h
    · obtain rfl := Option.some.inj h
      exact ⟨_, hx⟩
    · cases h
  · cases h

theorem call_accounts {d : Drawables} {ok : Bool} {db db' : Database} {q : Request}
    (h : (app d).call Intent.result ok db q = some db') (hq : ∀ a email pwd, q ≠ .createAccount a email pwd)
    (hn : AccountsNamed db) : AccountsNamed db' := by
  obtain ⟨out, hx⟩ := call_exec h
  obtain ⟨hacc, husers⟩ := exec_accounts hx hq
  intro email pwd he
  exact husers email (hn email pwd (hacc ▸ he))

/-- The sign-up's two writes. -/
theorem signUp_requests {d : Drawables} {a : SignUpProfile} {c₁ c₂ : Activity} {q₁ q₂ : Request}
    (h₁ : (signUp a).start d = some (c₁, [q₁])) (h₂ : goOn d c₁ q₁ = some (c₂, [q₂])) :
    q₁ = .createAccount AuthSignUpProfile.authCreateAccount a.mEmail a.mEt_pwd ∧
      ∃ doc, q₂ = .setUser AuthSignUpProfile.authCreateUserInUsers a.mEmail doc := by
  obtain ⟨rfl, hq⟩ := Prod.mk.inj (Option.some.inj h₁)
  obtain rfl := List.singleton_inj.mp hq
  obtain ⟨-, hq⟩ := Prod.mk.inj (Option.some.inj h₂)
  exact ⟨rfl, _, (List.singleton_inj.mp hq).symm⟩

/-- The other flows make no account. -/
theorem start_ne_createAccount {d : Drawables} {f : Flow} {c₁ : Activity} {q₁ : Request}
    (h₁ : f.start d = some (c₁, [q₁])) (hf : ∀ a, f ≠ signUp a) (a email pwd : String) :
    q₁ ≠ .createAccount a email pwd := by
  have htap : ∀ {p act}, tap d p act = some (c₁, [q₁]) → q₁ ≠ .createAccount a email pwd := by
    rintro p act h rfl
    obtain ⟨p₁, -, ht⟩ := tap_cases h
    generalize hqs : [Request.createAccount a email pwd] = qs at ht
    cases ht with
    | like =>
      obtain ⟨op, hop⟩ := mem_userUpdateValue (hqs ▸ List.mem_singleton_self _)
      cases hop
    | _ => cases hqs
  cases f with
  | signUp a => exact absurd rfl (hf a)
  | createPost f id =>
    rintro rfl
    simp only [start] at h₁
    split at h₁
    · rename_i hnew
      obtain ⟨⟨f₁, qs⟩, ht, heq⟩ := Option.map_eq_some_iff.mp h₁
      obtain ⟨author, -, ht⟩ := Option.map_eq_some_iff.mp ht
      obtain ⟨-, hqs⟩ := Prod.mk.inj ht
      obtain ⟨-, rfl⟩ := Prod.mk.inj heq
      rw [hnew] at hqs
      split at hqs <;> cases hqs
    · cases h₁
  | deletePost p => exact htap h₁
  | addComment p id => exact htap h₁
  | likePost p => exact htap h₁
  | yellowCardPost p => exact htap h₁
  | likeComment p pos viewId => exact htap h₁
  | yellowCardComment p pos => exact htap h₁

/-- A sign-up whose two writes succeed gives its account a user. -/
theorem signUp_accounts {d : Drawables} {ok₁ ok₂ : Bool} {db db₁ db₂ : Database} {a b email pwd : String}
    {doc : UserDoc} (h₁ : (app d).call Intent.result ok₁ db (.createAccount a email pwd) = some db₁)
    (h₂ : (app d).call Intent.result ok₂ db₁ (.setUser b email doc) = some db₂) (hn : AccountsNamed db) :
    AccountsNamed db₂ := by
  have hdb₁ : email ≠ "" ∧ db₁ = { db with accounts := db.accounts.set email pwd } := by
    have hx := Writes.succeeds ⟨_, fun _ _ => rfl⟩ h₁
    cases ok₁ with
    | false =>
      obtain ⟨-, hb⟩ := Prod.mk.inj (Option.some.inj hx)
      cases hb
    | true =>
      simp only [exec] at hx
      split at hx
      · obtain ⟨-, hb⟩ := Prod.mk.inj (Option.some.inj hx)
        cases hb
      · rename_i hne
        simp only [Bool.or_eq_true, beq_iff_eq, not_or] at hne
        exact ⟨hne.2, (Prod.mk.inj (Option.some.inj hx)).1.symm⟩
  have hdb₂ : db₂ = { db₁ with users := db₁.users.set email doc } := by
    have hx := Writes.succeeds ⟨_, fun _ _ => rfl⟩ h₂
    cases ok₂ with
    | false =>
      obtain ⟨-, hb⟩ := Prod.mk.inj (Option.some.inj hx)
      cases hb
    | true => exact (Prod.mk.inj (Option.some.inj hx)).1.symm
  obtain ⟨hne, rfl⟩ := hdb₁
  obtain rfl := hdb₂
  intro email' pwd' he
  simp only [DocStore.Collection.get_set _ _ _ hne] at he
  simp only [DocStore.Collection.isSome_get_set _ _ hne]
  by_cases heq : email' = email
  · exact .inr heq.symm
  · rw [if_neg heq] at he
    exact .inl (hn email' pwd' he)

/-- The three ends of a flow from `db`, as its calls `q₁` and `q₂` go. -/
structure Ended (d : Drawables) (q₁ q₂ : Request) (ok₁ ok₂ : Bool) (db db' : Database) : Prop where
  before : (app d).call Intent.result ok₁ db q₁ = none → db' = db
  half : ∀ db₁, (app d).call Intent.result ok₁ db q₁ = some db₁ →
    (app d).call Intent.result ok₂ db₁ q₂ = none → db' = db₁
  full : ∀ db₁ db₂, (app d).call Intent.result ok₁ db q₁ = some db₁ →
    (app d).call Intent.result ok₂ db₁ q₂ = some db₂ → db' = db₂

theorem ended_outcome {d : Drawables} {q₁ q₂ : Request} {ok₁ ok₂ : Bool} {db : Database} :
    Ended d q₁ q₂ ok₁ ok₂ db ((app d).outcome Intent.result q₁ q₂ ok₁ ok₂ db) where
  before h := by rw [App.outcome, h]
  half db₁ h₁ h₂ := by simp only [App.outcome, h₁, h₂, Option.getD_none]
  full db₁ db₂ h₁ h₂ := by simp only [App.outcome, h₁, h₂, Option.getD_some]

/-- **A flow whose page stays on screen ends as it began, after its first write alone, or
complete**, as its two calls go; and accounts keep their users, unless a sign-up stops
half-way. -/
theorem ends {d : Drawables} (f : Flow) {c₁ : Activity} {q₁ : Request}
    (h₁ : f.start d = some (c₁, [q₁])) :
    ∃ c₂ q₂, goOn d c₁ q₁ = some (c₂, [q₂]) ∧ ∀ ok₁ ok₂ db s,
      Reach (app d) (Flags q₁ q₂ ok₁ ok₂)
        ⟨db, fun i => if i = 0 then some c₁ else none, [⟨0, (), .inl q₁⟩]⟩ s → s.net = [] →
      Ended d q₁ q₂ ok₁ ok₂ db s.store ∧
        (AccountsNamed db → (∀ a db₁, f = signUp a → (app d).call Intent.result ok₁ db q₁ = some db₁ →
          (app d).call Intent.result ok₂ db₁ q₂ ≠ none) → AccountsNamed s.store) := by
  obtain ⟨c₂, q₂, h₂, hne, Late, Idle, htwo⟩ := twoWrites f h₁
  refine ⟨c₂, q₂, h₂, fun ok₁ ok₂ db s hr hend => ?_⟩
  have hout := htwo.outcome (if_pos rfl) hr hend
  have hended : Ended d q₁ q₂ ok₁ ok₂ db s.store := hout ▸ ended_outcome
  refine ⟨hended, fun hn hfull => ?_⟩
  cases hcall₁ : (app d).call Intent.result ok₁ db q₁ with
  | none =>
    rw [hended.before hcall₁]
    exact hn
  | some db₁ =>
    by_cases hf : ∃ a, f = signUp a
    · obtain ⟨a, rfl⟩ := hf
      obtain ⟨db₂, hcall₂⟩ := Option.ne_none_iff_exists'.mp (hfull a db₁ rfl hcall₁)
      rw [hended.full db₁ db₂ hcall₁ hcall₂]
      obtain ⟨rfl, doc, rfl⟩ := signUp_requests h₁ h₂
      exact signUp_accounts hcall₁ hcall₂ hn
    · have hn₁ : AccountsNamed db₁ :=
        call_accounts hcall₁ (start_ne_createAccount h₁ fun a ha => hf ⟨a, ha⟩) hn
      cases hcall₂ : (app d).call Intent.result ok₂ db₁ q₂ with
      | none =>
        rw [hended.half db₁ hcall₁ hcall₂]
        exact hn₁
      | some db₂ =>
        rw [hended.full db₁ db₂ hcall₁ hcall₂]
        exact call_accounts hcall₂ hne hn₁

/-! Ann signs up, and the write of her document fails. -/

def annsSignUp : SignUpProfile where
  mEmail := "ann@mail.com"
  mUri := some "content://photo"
  mEt_uname := "ann"
  mEt_pwd := "password"
  mEt_pwd_conf := "password"
  mSp_emblem_league := 0
  mSp_emblem_team := 12
  mTv_err_uname := false
  mTv_err_pwd := false
  mUser := none
  started := false

def emptyDb : Database := ⟨.empty, .empty, .empty, .empty⟩

def createAnn : Request := .createAccount AuthSignUpProfile.authCreateAccount "ann@mail.com" "password"

def setAnn : Request :=
  .setUser AuthSignUpProfile.authCreateUserInUsers "ann@mail.com"
    ⟨"ann", "content://photo", 0, 12, [], [], [], [], []⟩

/-- The account is there and the user is not: neither the state before nor a
complete sign-up, and an account without a user. -/
theorem signUp_half :
    (signUp annsSignUp).start plainDrawables = some (.signUp annsSignUp, [createAnn]) ∧
      ∃ s, Reach (app plainDrawables) (Flags createAnn setAnn true false)
          ⟨emptyDb, fun i => if i = 0 then some (.signUp annsSignUp) else none, [⟨0, (), .inl createAnn⟩]⟩ s ∧
        s.net = [] ∧ s.store ≠ emptyDb ∧
        s.store ≠ (app plainDrawables).outcome Intent.result createAnn setAnn true true emptyDb ∧
        ¬ AccountsNamed s.store := by
  refine ⟨by decide, ?_⟩
  obtain ⟨s, hr, hs⟩ := @reach_of_test _ _ _ _ _ _ (app plainDrawables)
    (fun s e => decide (Flags createAnn setAnn true false s e))
    ⟨emptyDb, fun i => if i = 0 then some (.signUp annsSignUp) else none, [⟨0, (), .inl createAnn⟩]⟩
    [.exec 0 true, .deliver 0, .exec 0 false, .deliver 0]
    (fun s => s.net.length = 0 && s.store.accounts.get "ann@mail.com" = some "password" &&
      s.store.users.get "ann@mail.com" = none) (by decide)
  simp only [Bool.and_eq_true, decide_eq_true_eq] at hs
  obtain ⟨⟨hnet, hacc⟩, husers⟩ := hs
  refine ⟨s, hr.mono fun _ _ h => of_decide_eq_true h, List.length_eq_zero_iff.mp hnet, fun heq => ?_,
    fun heq => ?_, fun hn => ?_⟩
  · rw [heq] at hacc
    exact absurd hacc (by decide)
  · rw [heq] at husers
    exact absurd husers (by decide)
  · have := hn _ _ hacc
    rw [husers] at this
    cases this

/-- Ann's sign-up, however its calls go. -/
theorem ends_annsSignUp :
    ∃ c₂ q₂, goOn plainDrawables (.signUp annsSignUp) createAnn = some (c₂, [q₂]) ∧ ∀ ok₁ ok₂ db s,
      Reach (app plainDrawables) (Flags createAnn q₂ ok₁ ok₂)
        ⟨db, fun i => if i = 0 then some (.signUp annsSignUp) else none, [⟨0, (), .inl createAnn⟩]⟩ s →
      s.net = [] →
      Ended plainDrawables createAnn q₂ ok₁ ok₂ db s.store ∧
        (AccountsNamed db → (∀ a db₁, signUp annsSignUp = signUp a →
          (app plainDrawables).call Intent.result ok₁ db createAnn = some db₁ →
            (app plainDrawables).call Intent.result ok₂ db₁ q₂ ≠ none) → AccountsNamed s.store) :=
  ends (signUp annsSignUp) (by decide)

end Flow
end FootballGallery
