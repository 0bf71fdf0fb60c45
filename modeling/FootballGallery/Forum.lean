/-
# Any number of pages at once

Users with their pages, on any posts, against one backend: what they tap, when
the backend carries a task out and when a reply arrives comes in any order.

A flow of the pages (a comment, a like, a yellow card) writes in several steps
to documents that other flows work on as well. `Flow` names such a family by
the key of the document a message works on, what holds of a document that no
flow works on, and how far a message says its flow is; `Inv` is the invariant
that the runs keep whose flows exclude each other. Reads and the replies that
continue no flow keep it by themselves, so a family of flows only has to look
at the taps that start it, its own writes and its own replies.

Key definitions: `forum`, `openPages`, `backendWorks`, `Flow`, `Inv`.
Key theorems: `Inv.init`, `Inv.step`, `Inv.tapReads`, `Inv.tapStarts`,
`Inv.execGoesOn`, `Inv.execEnds`, `Inv.recvGoesOn`, `Inv.good`.
-/
import FootballGallery.ForumSteps
import FootballGallery.Lib.Async

namespace FootballGallery
namespace Forum

open DBUtil ForumDetailActivity Async DocStore

/-- A page labels its requests with its post and the comment tapped last. -/
abbrev Tag := String × Option String

abbrev ForumConf := Conf Database ForumDetail Request Intent Tag
abbrev ForumMsg := Msg Request Intent Tag

def forum (d : Drawables) : App Database ForumDetail Request Intent Action Tag where
  act p a := some (act d p a)
  exec := exec
  recv := onReceive d
  tag p := (p.extraPost.mId, p.mComment.map (·.mId))

/-- A page to be opened: the signed-in user, the post as the page gets it, and its author. -/
structure Opened where
  me : String
  post : Post
  author : Option User

namespace Opened

def page (o : Opened) : ForumDetail := (onCreate o.me o.post o.author).1

def requests (o : Opened) : List Request := (onCreate o.me o.post o.author).2

theorem mem_requests {o : Opened} {q : Request} (h : q ∈ o.requests) :
    q = .getUser getCurrentUser o.me false ∨ q = .getPost updateFields o.post.mId := by
  simpa [requests, onCreate, userGetUserInfo, onResume, forumGetPostWithId] using h

end Opened

/-- The pages `opened`, each in the hands of a client of its own, on the database `db`. -/
def openPages (d : Drawables) (db : Database) (opened : List Opened) : ForumConf where
  store := db
  client i := opened[i]?.map (·.page)
  net := opened.zipIdx.flatMap fun e => issue (forum d) e.2 e.1.page e.1.requests

/-- What is under way at first is what the pages ask for when they open. -/
theorem mem_openPages {d : Drawables} {db : Database} {opened : List Opened} {m : ForumMsg}
    (h : m ∈ (openPages d db opened).net) :
    ∃ i o q, opened[i]? = some o ∧ q ∈ o.requests ∧ m = ⟨i, (forum d).tag o.page, .inl q⟩ := by
  obtain ⟨⟨o, i⟩, hoi, hm⟩ := List.mem_flatMap.mp h
  obtain ⟨q, hq, rfl⟩ := List.mem_map.mp hm
  exact ⟨i, o, q, List.mem_zipIdx_iff_getElem?.mp hoi, hq, rfl⟩

/-- The post that client `i` has opened. -/
def postOf (opened : List Opened) (i : ℕ) : String := (opened[i]?.map (·.post.mId)).getD ""

/-- The backend call `q` succeeds: its listener goes on or reports a success. -/
def succeeds (db : Database) (q : Request) : Bool :=
  (exec true db q).any fun r => !r.2.isEmpty && r.2.all fun b => b.elim (fun _ => true) (·.result)

/-- Every backend call succeeds. -/
def backendWorks (s : ForumConf) : Ev Action → Bool
  | .exec n ok => ok && (requestAt s n).all (succeeds s.store)
  | _ => true

/-! ### Calls that succeed -/

section Succeeds

variable {db db' : Database} {a id : String} {out : List (Request ⊕ Intent)}

theorem succeeds_out {q : Request} (hs : succeeds db q = true) (he : exec true db q = some (db', out)) :
    out ≠ [] ∧ ∀ i, Sum.inr i ∈ out → i.result = true := by
  simp only [succeeds, he, Option.any_some, Bool.and_eq_true, List.all_eq_true, Bool.not_eq_true',
    List.isEmpty_eq_false_iff] at hs
  exact ⟨hs.1, fun i hi => hs.2 _ hi⟩

/-- A write that succeeds has been made and says so. -/
theorem wrote_of_succeeds {q : Request} (hq : writes q = true) (hs : succeeds db q = true)
    (he : exec true db q = some (db', out)) : Wrote db q db' ∧ out = sendBroadcast q.action true none := by
  obtain ⟨hne, hr⟩ := succeeds_out hs he
  exact wrote_of_exec he hq hne hr

theorem setComment_succeeds {doc : CommentDoc} (hs : succeeds db (.setComment a id doc) = true)
    (he : exec true db (.setComment a id doc) = some (db', out)) :
    db' = { db with comments := db.comments.set id doc } ∧ out = sendBroadcast a true none := by
  obtain ⟨hw, hout⟩ := wrote_of_succeeds rfl hs he
  cases hw with
  | setComment => exact ⟨rfl, hout⟩

theorem updatePost_succeeds {doc : PostDoc} (hs : succeeds db (.updatePost a id doc) = true)
    (he : exec true db (.updatePost a id doc) = some (db', out)) :
    ∃ ps, db.posts.update id (fun _ => doc) = some ps ∧ db' = { db with posts := ps } ∧
      out = sendBroadcast a true none := by
  obtain ⟨hw, hout⟩ := wrote_of_succeeds rfl hs he
  cases hw with
  | updatePost hu => exact ⟨_, hu, rfl, hout⟩

theorem updateUserArray_succeeds {f : UserArray} {op : ArrayOp} {v : String}
    (hs : succeeds db (.updateUserArray a id f op v) = true)
    (he : exec true db (.updateUserArray a id f op v) = some (db', out)) :
    ∃ us, db.users.update id (·.updateArray f op v) = some us ∧ db' = { db with users := us } ∧
      out = sendBroadcast a true none := by
  obtain ⟨hw, hout⟩ := wrote_of_succeeds rfl hs he
  cases hw with
  | updateUserArray hu => exact ⟨_, hu, rfl, hout⟩

theorem updateComment_succeeds {doc : CommentDoc} (hs : succeeds db (.updateComment a id doc) = true)
    (he : exec true db (.updateComment a id doc) = some (db', out)) :
    ∃ cs, db.comments.update id (fun _ => doc) = some cs ∧ db' = { db with comments := cs } ∧
      out = sendBroadcast a true none := by
  obtain ⟨hw, hout⟩ := wrote_of_succeeds rfl hs he
  cases hw with
  | updateComment hu => exact ⟨_, hu, rfl, hout⟩

end Succeeds

/-! ### Flows -/

/-- A family of flows. -/
structure Flow where
  key : ForumMsg → Option String
  Good : Database → String → Prop
  Mid : Database → ForumDetail → Request ⊕ Intent → String → Prop
  key_reading : ∀ m, Reading m.tag.1 m.body → key m = none
  mid_kept : ∀ {db p p' b k}, Kept p p' → Mid db p b k → Mid db p' b k

variable (F : Flow)

/-- The client of a flow's message is there, has its user, and is as far as the message says. -/
def MidAt (s : ForumConf) (m : ForumMsg) (k : String) : Prop :=
  ∃ p, s.client m.client = some p ∧ p.mCurrentUser.isSome ∧ F.Mid s.store p m.body k

/-- A page opened on the post `pid`. -/
structure PageOf (pid : String) (p : ForumDetail) : Prop where
  extraPost : p.extraPost.mId = pid
  mPost : p.mPost.mId = pid
  user : p.populated = true → p.mCurrentUser.isSome

/-- A message of a page of the post `pid`. -/
structure MsgOf (pid : String) (m : ForumMsg) : Prop where
  tag : m.tag.1 = pid
  reads : F.key m = none → Reading pid m.body

structure Inv (post : ℕ → String) (s : ForumConf) : Prop where
  page : ∀ i p, s.client i = some p → PageOf (post i) p
  msg : ∀ m ∈ s.net, MsgOf F (post m.client) m
  flows : Exclusive F.key (F.Good s.store) (MidAt F s) s.net

variable {F} {d : Drawables} {post : ℕ → String} {s s' : ForumConf} {i : ℕ} {p p' : ForumDetail}

/-! ### Pages and messages -/

theorem PageOf.kept {pid : String} (h : PageOf pid p) (hk : Kept p p') (hp : p'.mPost.mId = pid) :
    PageOf pid p' where
  extraPost := by rw [hk.extraPost, h.extraPost]
  mPost := hp
  user := hk.listeners h.user

theorem MsgOf.of_reading {pid : String} {m : ForumMsg} (ht : m.tag.1 = pid) (hr : Reading pid m.body) :
    MsgOf F pid m ∧ F.key m = none := by
  refine ⟨⟨ht, fun _ => hr⟩, F.key_reading m ?_⟩
  rw [ht]
  exact hr

theorem MsgOf.of_key {pid k : String} {m : ForumMsg} (ht : m.tag.1 = pid) (hk : F.key m = some k) :
    MsgOf F pid m := by
  refine ⟨ht, fun hn => ?_⟩
  rw [hk] at hn
  cases hn

/-- The reads that a page issues. -/
theorem issue_reads (hp : PageOf (post i) p) {qs : List Request}
    (hqs : ∀ q ∈ qs, Reading (post i) (.inl q)) :
    ∀ m ∈ issue (forum d) i p qs, m.client = i ∧ MsgOf F (post m.client) m ∧ F.key m = none := by
  intro m hm
  obtain ⟨q, hq, rfl⟩ := List.mem_map.mp hm
  exact ⟨rfl, MsgOf.of_reading hp.extraPost (hqs q hq)⟩

theorem follow_reads {t : Tag} (ht : t.1 = post i) {out : List (Request ⊕ Intent)}
    (hout : ∀ b ∈ out, Reading (post i) b) :
    ∀ m ∈ (follow i t out : List ForumMsg), MsgOf F (post m.client) m ∧ F.key m = none := by
  intro m hm
  obtain ⟨b, hb, rfl⟩ := List.mem_map.mp hm
  exact MsgOf.of_reading ht (hout b hb)

/-- A page that changes without touching what its flows work with, and a
database as it was, leave every flow where it is. -/
theorem MidAt.kept (hc : s.client i = some p) (hk : Kept p p') {net : List ForumMsg} {m : ForumMsg}
    {k : String} (h : MidAt F s m k) :
    MidAt F ⟨s.store, Function.update s.client i (some p'), net⟩ m k := by
  obtain ⟨q, hq, hu, hmid⟩ := h
  by_cases hi : m.client = i
  · rw [hi] at hq
    obtain rfl := Option.some.inj (hq.symm.trans hc)
    exact ⟨p', by rw [hi]; exact Function.update_self .., hk.user hu, F.mid_kept hk hmid⟩
  · exact ⟨q, by rw [← hq]; exact Function.update_of_ne hi .., hu, hmid⟩

theorem MidAt.update (hc : s.client i = some p) (hu' : p'.mCurrentUser.isSome) {net : List ForumMsg}
    {m : ForumMsg} {k : String}
    (hmid : m.client = i → F.Mid s.store p m.body k → F.Mid s.store p' m.body k) (h : MidAt F s m k) :
    MidAt F ⟨s.store, Function.update s.client i (some p'), net⟩ m k := by
  obtain ⟨q, hq, hu, hm⟩ := h
  by_cases hi : m.client = i
  · rw [hi] at hq
    obtain rfl := Option.some.inj (hq.symm.trans hc)
    exact ⟨p', by rw [hi]; exact Function.update_self .., hu', hmid hi hm⟩
  · exact ⟨q, by rw [← hq]; exact Function.update_of_ne hi .., hu, hm⟩

namespace Inv

/-! ### Taps -/

/-- A tap that only asks for something to be read. -/
theorem tapReads (h : Inv F post s) (hc : s.client i = some p) (hk : Kept p p')
    (hp : p'.mPost.mId = p.mPost.mId) {qs : List Request} (hqs : ∀ q ∈ qs, Reading (post i) (.inl q)) :
    Inv F post ⟨s.store, Function.update s.client i (some p'), s.net ++ issue (forum d) i p' qs⟩ := by
  have hpage : PageOf (post i) p' := (h.page i p hc).kept hk (hp.trans (h.page i p hc).mPost)
  have hnew := issue_reads (F := F) (d := d) hpage hqs
  refine ⟨clients_update h.page hpage, fun m hm => ?_, ?_⟩
  · rcases List.mem_append.mp hm with hm | hm
    · exact h.msg m hm
    · exact (hnew m hm).2.1
  · exact h.flows.join (fun m hm => (hnew m hm).2.2) (fun _ => id) fun m _ k _ => MidAt.kept hc hk

/-- A tap that changes only what the page shows. -/
theorem tapQuiet (h : Inv F post s) (hc : s.client i = some p) (hk : Kept p p') (hp : p'.mPost = p.mPost) :
    Inv F post ⟨s.store, Function.update s.client i (some p'), s.net ++ issue (forum d) i p' []⟩ := by
  refine h.tapReads hc hk ?_ fun q hq => ?_
  · rw [hp]
  · cases hq

/-- The page is shown again. -/
theorem tapResume (h : Inv F post s) (hc : s.client i = some p) :
    Inv F post ⟨s.store, Function.update s.client i (some p), s.net ++ issue (forum d) i p (onResume p)⟩ := by
  have hpage := h.page i p hc
  exact h.tapReads hc (.refl p) rfl (reading_getPost hpage.mPost (.inl rfl))

/-- A tap, on a page without a flow, that asks for nothing. -/
theorem tapIdle (h : Inv F post s) (hpage : PageOf (post i) p')
    (hidle : ∀ m ∈ s.net, m.client = i → F.key m = none) :
    Inv F post ⟨s.store, Function.update s.client i (some p'), s.net ++ issue (forum d) i p' []⟩ := by
  refine ⟨clients_update h.page hpage, fun m hm => h.msg m ?_, ?_⟩
  · rw [issue, List.map_nil, List.append_nil] at hm
    exact hm
  · refine h.flows.join (fun m hm => by cases hm) (fun _ => id) fun m hm k hk hmid => ?_
    obtain ⟨q, hq, huq, hmid⟩ := hmid
    have hne : m.client ≠ i := by
      intro hi
      rw [hidle m hm hi] at hk
      cases hk
    exact ⟨q, by rw [← hq]; exact Function.update_of_ne hne .., huq, hmid⟩

/-- A tap that starts a flow on a document that no other flow works on. -/
theorem tapStarts (h : Inv F post s) (hc : s.client i = some p) (hpage : PageOf (post i) p')
    (hu : p'.mCurrentUser.isSome) {q : Request} {k : String}
    (hkey : F.key ⟨i, (forum d).tag p', .inl q⟩ = some k) (hfree : k ∉ s.net.filterMap F.key)
    (hmid : F.Good s.store k → F.Mid s.store p' (.inl q) k)
    (hothers : ∀ m ∈ s.net, m.client = i → ∀ k', k' ≠ k → F.key m = some k' →
      F.Mid s.store p m.body k' → F.Mid s.store p' m.body k') :
    Inv F post ⟨s.store, Function.update s.client i (some p'), s.net ++ issue (forum d) i p' [q]⟩ := by
  refine ⟨clients_update h.page hpage, fun m hm => ?_, ?_⟩
  · rcases List.mem_append.mp hm with hm | hm
    · exact h.msg m hm
    · obtain rfl := List.mem_singleton.mp hm
      exact .of_key hpage.extraPost hkey
  · refine h.flows.start hkey hfree (fun hgood => ?_) (fun _ _ => id) fun m hm k' hne hk' => ?_
    · exact ⟨p', Function.update_self .., hu, hmid hgood⟩
    · exact MidAt.update hc hu fun hi => hothers m hm hi k' hne hk'

/-! ### The backend -/

section Exec

variable {t : Tag} {q : Request} {l₁ l₂ : List ForumMsg} {db' : Database} {out : List (Request ⊕ Intent)}

theorem execReads (h : Inv F post s) (hl : s.net = l₁ ++ ⟨i, t, .inl q⟩ :: l₂)
    (hkey : F.key ⟨i, t, .inl q⟩ = none) {ok : Bool} (he : exec ok s.store q = some (db', out)) :
    Inv F post ⟨db', s.client, l₁ ++ follow i t out ++ l₂⟩ := by
  have hmsg := h.msg ⟨i, t, .inl q⟩ (by rw [hl]; simp)
  obtain ⟨rfl, hout⟩ := exec_reading (hmsg.reads hkey) he
  have hnew := follow_reads (F := F) hmsg.tag hout
  refine ⟨h.page, ?_, ?_⟩
  · exact forall_splice (hl ▸ h.msg) fun m hm => (hnew m hm).1
  · exact (hl ▸ h.flows).quiet hkey (fun m hm => (hnew m hm).2) (fun _ => id) fun _ _ _ => id

variable {k : String} (h : Inv F post s) (hl : s.net = l₁ ++ ⟨i, t, .inl q⟩ :: l₂)
  (hkey : F.key ⟨i, t, .inl q⟩ = some k)
  (hG : ∀ k', k' ≠ k → F.Good s.store k' → F.Good db' k')
  (hM : ∀ k', k' ≠ k → ∀ p b, F.Mid s.store p b k' → F.Mid db' p b k')
include h hl hkey hG hM

/-- A flow's write whose reply continues the flow. -/
theorem execGoesOn {b : Request ⊕ Intent} (hkey' : F.key ⟨i, t, b⟩ = some k)
    (hmid : ∀ p, s.client i = some p → F.Mid s.store p (.inl q) k → F.Mid db' p b k) :
    Inv F post ⟨db', s.client, l₁ ++ follow i t [b] ++ l₂⟩ := by
  have hmsg := h.msg ⟨i, t, .inl q⟩ (by rw [hl]; simp)
  refine ⟨h.page, ?_, ?_⟩
  · refine forall_splice (hl ▸ h.msg) fun m hm => ?_
    obtain rfl := List.mem_singleton.mp hm
    exact .of_key hmsg.tag hkey'
  · refine (hl ▸ h.flows).advance hkey hkey' ?_ hG fun m k' hne _ hm => ?_
    · intro hm
      obtain ⟨p, hp, hu, hm⟩ := hm
      exact ⟨p, hp, hu, hmid p hp hm⟩
    · obtain ⟨p, hp, hu, hm⟩ := hm
      exact ⟨p, hp, hu, hM k' hne p m.body hm⟩

/-- A flow's last write. -/
theorem execEnds (hout : ∀ b ∈ out, Reading (post i) b)
    (hmid : ∀ p, s.client i = some p → F.Mid s.store p (.inl q) k → F.Good db' k) :
    Inv F post ⟨db', s.client, l₁ ++ follow i t out ++ l₂⟩ := by
  have hmsg := h.msg ⟨i, t, .inl q⟩ (by rw [hl]; simp)
  have hnew := follow_reads (F := F) hmsg.tag hout
  refine ⟨h.page, forall_splice (hl ▸ h.msg) fun m hm => (hnew m hm).1, ?_⟩
  refine (hl ▸ h.flows).finish hkey (fun m hm => (hnew m hm).2) ?_ hG fun m k' hne _ hm => ?_
  · intro hm
    obtain ⟨p, hp, hu, hm⟩ := hm
    exact hmid p hp hm
  · obtain ⟨p, hp, hu, hm⟩ := hm
    exact ⟨p, hp, hu, hM k' hne p m.body hm⟩

end Exec

/-! ### Replies -/

section Recv

variable {t : Tag} {r : Intent} {l₁ l₂ : List ForumMsg} {qs : List Request}

theorem recvReads (h : Inv F post s) (hl : s.net = l₁ ++ ⟨i, t, .inr r⟩ :: l₂)
    (hkey : F.key ⟨i, t, .inr r⟩ = none) (hc : s.client i = some p)
    (hr : onReceive d p r = some (p', qs)) :
    Inv F post ⟨s.store, Function.update s.client i (some p'), l₁ ++ issue (forum d) i p' qs ++ l₂⟩ := by
  have hread : Reading (post i) (.inr r) := (h.msg ⟨i, t, .inr r⟩ (by rw [hl]; simp)).reads hkey
  cases hread with
  | reply hi =>
    obtain ⟨hp, hk, hqs⟩ := recv_settled hi (h.page i p hc).mPost hr
    have hpage := (h.page i p hc).kept hk hp
    have hnew := issue_reads (F := F) (d := d) hpage hqs
    refine ⟨clients_update h.page hpage, ?_, ?_⟩
    · exact forall_splice (hl ▸ h.msg) fun m hm => (hnew m hm).2.1
    · exact (hl ▸ h.flows).quiet hkey (fun m hm => (hnew m hm).2.2) (fun _ => id)
        fun m k _ => MidAt.kept hc hk

/-- A page that throws has no flow under way. -/
theorem recvThrows (h : Inv F post s) (hl : s.net = l₁ ++ ⟨i, t, .inr r⟩ :: l₂)
    (hkey : F.key ⟨i, t, .inr r⟩ = none) (hc : s.client i = some p) (hr : onReceive d p r = none) :
    Inv F post ⟨s.store, Function.update s.client i none, l₁ ++ l₂⟩ := by
  have hread : Reading (post i) (.inr r) := (h.msg ⟨i, t, .inr r⟩ (by rw [hl]; simp)).reads hkey
  have hnot : ¬ p.mCurrentUser.isSome := by
    intro hu
    cases hread with
    | reply hi =>
      have hsome := recv_settled_isSome (d := d) hi hu
      rw [hr] at hsome
      cases hsome
  refine ⟨clients_gone h.page, fun m hm => h.msg m ?_, ?_⟩
  · rw [hl]
    rcases List.mem_append.mp hm with hm | hm <;> simp [hm]
  · have hothers : ∀ m k, F.key m = some k → MidAt F s m k →
        MidAt F ⟨s.store, Function.update s.client i none, l₁ ++ l₂⟩ m k := by
      intro m k _ hm
      obtain ⟨q, hq, hu, hmid⟩ := hm
      have hi : m.client ≠ i := by
        intro hi
        rw [hi, hc] at hq
        exact hnot (Option.some.inj hq ▸ hu)
      exact ⟨q, by rw [← hq]; exact Function.update_of_ne hi .., hu, hmid⟩
    have hq := (hl ▸ h.flows).quiet hkey (fun x hx => (List.not_mem_nil hx).elim) (fun _ => id) hothers
    rwa [List.append_nil] at hq

/-- A flow's reply that starts its next write. -/
theorem recvGoesOn (h : Inv F post s) (hl : s.net = l₁ ++ ⟨i, t, .inr r⟩ :: l₂) {k : String}
    (hkey : F.key ⟨i, t, .inr r⟩ = some k) (hc : s.client i = some p) (hpage : PageOf (post i) p')
    (hu : p'.mCurrentUser.isSome) {q : Request}
    (hkey' : F.key ⟨i, (forum d).tag p', .inl q⟩ = some k)
    (hmid : F.Mid s.store p (.inr r) k → F.Mid s.store p' (.inl q) k)
    (hothers : ∀ b k', k' ≠ k → F.Mid s.store p b k' → F.Mid s.store p' b k') :
    Inv F post ⟨s.store, Function.update s.client i (some p'), l₁ ++ issue (forum d) i p' [q] ++ l₂⟩ := by
  refine ⟨clients_update h.page hpage, ?_, ?_⟩
  · refine forall_splice (hl ▸ h.msg) fun m hm => ?_
    obtain rfl := List.mem_singleton.mp hm
    exact .of_key hpage.extraPost hkey'
  · refine (hl ▸ h.flows).advance hkey hkey' ?_ (fun _ _ => id) fun m k' hne hk' => ?_
    · intro hm
      obtain ⟨q', hq', _, hm⟩ := hm
      obtain rfl := Option.some.inj (hq'.symm.trans hc)
      exact ⟨p', Function.update_self .., hu, hmid hm⟩
    · exact MidAt.update hc hu fun _ => hothers m.body k' hne

end Recv

/-! ### Runs -/

theorem init {db : Database} (opened : List Opened) (hgood : ∀ k, F.Good db k) :
    Inv F (postOf opened) (openPages d db opened) := by
  have hpage : ∀ i o, opened[i]? = some o → PageOf (postOf opened i) o.page := by
    intro i o ho
    have hpost : postOf opened i = o.post.mId := by simp [postOf, ho]
    rw [hpost]
    exact ⟨rfl, rfl, fun hpop => by cases hpop⟩
  have hmsg : ∀ m ∈ (openPages d db opened).net,
      MsgOf F (postOf opened m.client) m ∧ F.key m = none := by
    intro m hm
    obtain ⟨i, o, q, ho, hq, rfl⟩ := mem_openPages hm
    have hreads : ∀ q ∈ o.requests, Reading (postOf opened i) (.inl q) := by
      intro q hq
      rcases Opened.mem_requests hq with rfl | rfl
      · exact .getUser (.inl rfl) _ _
      · rw [← (hpage i o ho).mPost]
        exact .getPost (.inl rfl)
    exact (issue_reads (hpage i o ho) hreads _ (List.mem_map_of_mem hq)).2
  refine ⟨fun i p hp => ?_, fun m hm => (hmsg m hm).1, ?_⟩
  · obtain ⟨o, ho, rfl⟩ := Option.map_eq_some_iff.mp hp
    exact hpage i o ho
  · have hnone := Exclusive.filterMap_none fun m hm => (hmsg m hm).2
    refine ⟨by simp [hnone], fun k _ => hgood k, fun m hm k hk => ?_⟩
    rw [(hmsg m hm).2] at hk
    cases hk

/-- A step keeps the invariant if the taps do, and the writes and the replies of the flows. -/
theorem step {e : Ev Action} (h : Inv F post s) (hw : backendWorks s e = true)
    (hs : Step (forum d) s e s')
    (hact : ∀ i a p p' qs, e = .act i a → s.client i = some p → Tapped d p a p' qs →
      Inv F post ⟨s.store, Function.update s.client i (some p'), s.net ++ issue (forum d) i p' qs⟩)
    (hexec : ∀ n i t q k p db' out l₁ l₂, e = .exec n true → requestAt s n = some q →
      s.net = l₁ ++ ⟨i, t, .inl q⟩ :: l₂ → F.key ⟨i, t, .inl q⟩ = some k → s.client i = some p →
      F.Mid s.store p (.inl q) k → exec true s.store q = some (db', out) → succeeds s.store q = true →
      Inv F post ⟨db', s.client, l₁ ++ follow i t out ++ l₂⟩)
    (hrecv : ∀ n i t r k p l₁ l₂, e = .deliver n → s.net[n]? = some ⟨i, t, .inr r⟩ →
      s.net = l₁ ++ ⟨i, t, .inr r⟩ :: l₂ → F.key ⟨i, t, .inr r⟩ = some k → s.client i = some p →
      p.mCurrentUser.isSome → F.Mid s.store p (.inr r) k → ∃ p' qs, onReceive d p r = some (p', qs) ∧
        Inv F post ⟨s.store, Function.update s.client i (some p'), l₁ ++ issue (forum d) i p' qs ++ l₂⟩) :
    Inv F post s' := by
  cases hs with
  | @act i a p p' qs hc ha =>
    obtain ⟨rfl, rfl⟩ := Prod.mk.inj (Option.some.inj ha)
    exact hact i a p _ _ rfl hc (tapped_act d p a)
  | actThrows _ ha => cases ha
  | @exec n ok i t q l₁ l₂ db' out hn hl he =>
    have hq : requestAt s n = some q := by simp [requestAt, hn]
    cases hkey : F.key ⟨i, t, .inl q⟩ with
    | none => exact h.execReads hl hkey he
    | some k =>
      simp only [backendWorks, hq, Option.all_some, Bool.and_eq_true] at hw
      obtain ⟨rfl, hsucc⟩ := hw
      obtain ⟨p, hp, -, hmid⟩ := h.flows.mid _ (by rw [hl]; simp) k hkey
      exact hexec n i t q k p db' out l₁ l₂ rfl hq hl hkey hp hmid he hsucc
  | @execThrows n ok i t q l₁ l₂ hn hl he =>
    have hq : requestAt s n = some q := by simp [requestAt, hn]
    simp only [backendWorks, hq, Option.all_some, Bool.and_eq_true] at hw
    obtain ⟨rfl, hsucc⟩ := hw
    have he' : DBUtil.exec true s.store q = none := he
    rw [succeeds, he'] at hsucc
    cases hsucc
  | @recv n i t r l₁ l₂ p p' qs hn hl hc hr =>
    cases hkey : F.key ⟨i, t, .inr r⟩ with
    | none => exact h.recvReads hl hkey hc hr
    | some k =>
      obtain ⟨p₀, hp₀, hu, hmid⟩ := h.flows.mid _ (by rw [hl]; simp) k hkey
      obtain rfl := Option.some.inj (hp₀.symm.trans hc)
      obtain ⟨p₁, qs₁, hr₁, hinv⟩ := hrecv n i t r k _ l₁ l₂ rfl hn hl hkey hc hu hmid
      obtain ⟨rfl, rfl⟩ := Prod.mk.inj (Option.some.inj (hr.symm.trans hr₁))
      exact hinv
  | @recvThrows n i t r l₁ l₂ p hn hl hc hr =>
    cases hkey : F.key ⟨i, t, .inr r⟩ with
    | none => exact h.recvThrows hl hkey hc hr
    | some k =>
      obtain ⟨p₀, hp₀, hu, hmid⟩ := h.flows.mid _ (by rw [hl]; simp) k hkey
      obtain rfl := Option.some.inj (hp₀.symm.trans hc)
      obtain ⟨p₁, qs₁, hr₁, -⟩ := hrecv n i t r k _ l₁ l₂ rfl hn hl hkey hc hu hmid
      cases hr.symm.trans hr₁
  | @drop n i t r l₁ l₂ hn hl hc =>
    cases hkey : F.key ⟨i, t, .inr r⟩ with
    | none =>
      have hq := (hl ▸ h.flows).quiet hkey (fun x hx => (List.not_mem_nil hx).elim) (fun _ => id)
        fun _ _ _ => id
      rw [List.append_nil] at hq
      refine ⟨h.page, fun m hm => h.msg m ?_, hq⟩
      rw [hl]
      rcases List.mem_append.mp hm with hm | hm <;> simp [hm]
    | some k =>
      obtain ⟨p₀, hp₀, -⟩ := h.flows.mid _ (by rw [hl]; simp) k hkey
      cases hp₀.symm.trans hc

/-- Where no flow is under way, every document is good. -/
theorem good (h : Inv F post s) (hq : ∀ m ∈ s.net, F.key m = none) (k : String) : F.Good s.store k := by
  refine h.flows.good k ?_
  rw [Exclusive.filterMap_none hq]
  exact List.not_mem_nil

end Inv

/-! ### Two users on one post -/

/-- The backend carries out the oldest message under way. -/
abbrev carry {A : Type} : Ev A := .exec 0 true

/-- The oldest message under way arrives. -/
abbrev arrive {A : Type} : Ev A := .deliver 0

/-! Ids of posts and comments, as `generateId` makes them. -/

def derbyId := "post_01-01-2022-08-00-00"
def clasicoId := "post_01-01-2022-10-00-00"
def newPostId := "post_02-01-2022-08-00-00"
def otherPostId := "post_02-01-2022-10-00-00"
def firstId := "comment_01-01-2022-09-00-00"
def secondId := "comment_01-01-2022-11-00-00"
def thirdId := "comment_02-01-2022-09-00-00"

def derby : PostDoc := ⟨0, [], "who was there?", 1, 0, "Derby", "ann@mail.com", 0⟩

/-- Ann has posted, nobody has reacted. -/
def derbyDb : Database where
  posts := Collection.empty.set derbyId derby
  comments := .empty
  users := (Collection.empty.set "ann@mail.com" ⟨"ann", "", 0, 1, [derbyId], [], [], [], []⟩).set
    "bob@mail.com" ⟨"bob", "", 0, 2, [], [], [], [], []⟩
  accounts := .empty

/-- Ann and Bob open the post's page. -/
def annAndBob : List Opened :=
  [⟨"ann@mail.com", postOfDoc derbyId derby, none⟩, ⟨"bob@mail.com", postOfDoc derbyId derby, none⟩]

/-- Both pages load. -/
def loading : List (Ev Action) :=
  [carry, carry, arrive, carry, carry, arrive, carry, arrive, carry, carry, arrive, carry, arrive,
    carry, carry, arrive, carry, carry, arrive, carry, arrive, carry, carry, arrive, carry, arrive]

end Forum
end FootballGallery
