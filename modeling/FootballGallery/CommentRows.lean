/-
# `e_models/adapters/CommentAdapter`: the rows of the comments

A row of the comment list shows a comment and has listeners that know its position.
A tap changes the comment in the list and tells the activity, but of the row itself
only the like icon; its counts are from when it was bound, and an icon that was
tapped is lost when the row is bound again. So that this can be said, a note beside
each row keeps the comment that was bound and whether the icon was tapped since.

The like button is asked for its view id, which is no id of a drawable.

Key definitions: `CommentList`, `Call`, `ViewHolder`, `getView`, `tap`, `adapter`, `Note`, `noted`, `Displays`.
Key theorems: `tap_eq`, `keeps_right`, `comment_rows`, `replies_threaded`.
-/
import FootballGallery.Discussion
import FootballGallery.ForumDetailActivity
import FootballGallery.Rows

namespace FootballGallery

open Recycling

def Comment.getLayer (c : Comment) : ℤ := if c.mParentId.length ≤ 0 then 0 else 1

/-- `curr` is the time of the client's clock; it throws where the id has no date. -/
def Comment.getTimeGap (toInstant : ℤ → ℤ) (curr : ℤ) (c : Comment) : Option String :=
  (StringUtil.extractDateFromDocumentId toInstant c.mId).map (StringUtil.calculateTimeDiff curr)

namespace CommentAdapter

/-- What `CommentAdapter.Callback` is told. -/
inductive Call where
  | onLike (comment : FlaggedComment) (caseUser caseComment : ℤ)
  | onYCard (comment : FlaggedComment)
  | onReply (parentId mentionId tagUname : String)
deriving DecidableEq

/-- The comments, which taps change, and the calls that taps have made. -/
structure CommentList where
  mCollection : List FlaggedComment
  calls : List Call
deriving DecidableEq

/-- `ViewHolder`, with the position that its three listeners were made with. -/
structure ViewHolder where
  child_divider_visible : Bool
  iv_emblem : Image ℤ
  tv_author : String
  tv_timestamp : String
  tv_desc : String
  tv_like : String
  tv_ycard : String
  btn_like : Background
  btn_ycard : Background
  mPos : Option ℕ
deriving DecidableEq

/-- `R.layout.lv_comment_layout` -/
def inflate : ViewHolder where
  child_divider_visible := true
  iv_emblem := .drawable "epl_manchesterunited"
  tv_author := "asdf"
  tv_timestamp := "4h"
  tv_desc := "asdfasdfasdfasf"
  tv_like := "35"
  tv_ycard := "35"
  btn_like := .testGray2
  btn_ycard := .testGray2
  mPos := none

inductive Tap where
  | like
  | ycard
  | reply
deriving DecidableEq

section Adapter

variable (toInstant : ℤ → ℤ) (getIdentifier : String → String → ℤ) (fromHtml : String → String)

/-- `none`: it throws. A color takes the place of the icon that a button had. -/
def getView (w : CommentList) (position : ℕ) (curr : ℤ) (vh : ViewHolder) : Option ViewHolder :=
  match w.mCollection[position]? with
  | none => some vh
  | some mComment => do
    let emblem ← mComment.getAuthorEmblem getIdentifier
    let timeGap ← mComment.getTimeGap toInstant curr
    return { vh with
      child_divider_visible := mComment.getLayer != 0
      iv_emblem := .given emblem
      tv_author := mComment.mAuthor.mUName
      tv_timestamp := timeGap
      tv_desc := mComment.getDesc fromHtml
      tv_like := toString mComment.mLikes
      tv_ycard := toString mComment.mYCards
      btn_like := if mComment.mIsLiked then .icLikeClicked else .testGray3
      btn_ycard := if mComment.mIsYCarded then .icYCardClicked else .testGray3
      mPos := some position }

/-- The listener of the like button, a view with id `viewId`. -/
def OnLikeClickListener (d : Drawables) (viewId : ℤ) (w : CommentList) (pos : ℕ) (vh : ViewHolder) :
    Option (CommentList × ViewHolder) :=
  w.mCollection[pos]?.map fun c =>
    if viewId = d.icLikeClicked then
      let tappedComment := { c with toComment := c.toComment.updateLikeValue (-1) }
      (⟨w.mCollection.set pos tappedComment,
        w.calls ++ [.onLike tappedComment DBUtil.caseRemove DBUtil.caseUpdate]⟩, { vh with btn_like := .icLike })
    else
      let tappedComment := { c with toComment := c.toComment.updateLikeValue 1 }
      (⟨w.mCollection.set pos tappedComment,
        w.calls ++ [.onLike tappedComment DBUtil.caseAdd DBUtil.caseUpdate]⟩, { vh with btn_like := .icLikeClicked })

def OnYCardClickListener (w : CommentList) (pos : ℕ) (vh : ViewHolder) : Option (CommentList × ViewHolder) :=
  w.mCollection[pos]?.map fun c =>
    let tappedComment := { c with toComment := c.toComment.updateYCardValue }
    (⟨w.mCollection.set pos tappedComment, w.calls ++ [.onYCard tappedComment]⟩, vh)

def PosOnClickListener (w : CommentList) (pos : ℕ) (vh : ViewHolder) : Option (CommentList × ViewHolder) :=
  w.mCollection[pos]?.map fun tappedComment =>
    let parentId := if tappedComment.mParentId.length ≤ 0 then tappedComment.mId else tappedComment.mParentId
    ({ w with calls := w.calls ++ [.onReply parentId tappedComment.mId tappedComment.mAuthor.mUName] }, vh)

/-- Before it is bound a row has no listeners. -/
def tap (d : Drawables) (viewId : ℤ) (w : CommentList) (t : Tap) (vh : ViewHolder) : Option (CommentList × ViewHolder) :=
  match vh.mPos with
  | none => some (w, vh)
  | some pos =>
    match t with
    | .like => OnLikeClickListener d viewId w pos vh
    | .ycard => OnYCardClickListener w pos vh
    | .reply => PosOnClickListener w pos vh

/-- The list of `n` comments, which asks for positions below `getCount`. -/
def adapter (d : Drawables) (viewId : ℤ) (n : ℕ) : Adapter CommentList (Ask n) Tap ViewHolder where
  inflate := inflate
  bind w x := getView toInstant getIdentifier fromHtml w x.position x.curr
  tap := tap d viewId

end Adapter

/-! ### What a row shows -/

/-- `c'` is `c` after some taps. -/
def Tapped (c c' : FlaggedComment) : Prop :=
  ∃ likes yCards : ℕ, c' =
    { c with toComment := { c.toComment with mLikes := c.mLikes + likes, mYCards := c.mYCards + yCards } }

theorem Tapped.refl (c : FlaggedComment) : Tapped c c := ⟨0, 0, by simp⟩

theorem Tapped.trans {c c' c'' : FlaggedComment} (h : Tapped c c') (h' : Tapped c' c'') : Tapped c c'' := by
  obtain ⟨likes, yCards, rfl⟩ := h
  obtain ⟨likes', yCards', rfl⟩ := h'
  exact ⟨likes + likes', yCards + yCards', by simp [add_assoc]⟩

/-- Taps count, and leave the rest of a comment alone. -/
theorem Tapped.same {c c' : FlaggedComment} (h : Tapped c c') :
    c'.mId = c.mId ∧ c'.mAuthor = c.mAuthor ∧ c'.mParentId = c.mParentId := by
  obtain ⟨likes, yCards, rfl⟩ := h
  exact ⟨rfl, rfl, rfl⟩

/-- What the activity is told of a tap on the comment. -/
def reported (t : Tap) (c : FlaggedComment) : Call :=
  match t with
  | .like => .onLike { c with toComment := c.toComment.updateLikeValue 1 } DBUtil.caseAdd DBUtil.caseUpdate
  | .ycard => .onYCard { c with toComment := c.toComment.updateYCardValue }
  | .reply => .onReply (if c.mParentId.length ≤ 0 then c.mId else c.mParentId) c.mId c.mAuthor.mUName

/-- The comment that a row was last bound to, as it was then, and whether the row's like
button has been tapped since. -/
structure Note where
  shown : Option FlaggedComment
  liked : Bool
deriving DecidableEq

def Note.tapped (t : Tap) (note : Note) : Note := { note with liked := note.liked || t == .like }

section Rows

variable (toInstant : ℤ → ℤ) (getIdentifier : String → String → ℤ) (fromHtml : String → String)

/-- The list with a note beside each row. -/
def noted (d : Drawables) (viewId : ℤ) (n : ℕ) : Adapter CommentList (Ask n) Tap (ViewHolder × Note) :=
  (adapter toInstant getIdentifier fromHtml d viewId n).noting ⟨none, false⟩
    (fun w x => ⟨w.mCollection[(x.position : ℕ)]?, false⟩) Note.tapped

/-- The row is what a new row for `shown` at this position would be, but for the like icon
if it has been tapped. -/
def Displays {n : ℕ} (l : List FlaggedComment) (x : Ask n) (shown : FlaggedComment) (liked : Bool)
    (vh : ViewHolder) : Prop :=
  ∃ r₀, getView toInstant getIdentifier fromHtml ⟨l.set x.position shown, []⟩ x.position x.curr inflate = some r₀ ∧
    vh = if liked then { r₀ with btn_like := .icLikeClicked } else r₀

variable {toInstant} {getIdentifier} {fromHtml} {w w' : CommentList} {l : List FlaggedComment}

theorem getView_congr {p : ℕ} {curr : ℤ} {c : FlaggedComment} {vh vh' : ViewHolder} (h : w.mCollection[p]? = some c)
    (h' : w'.mCollection[p]? = some c) : getView toInstant getIdentifier fromHtml w p curr vh =
      getView toInstant getIdentifier fromHtml w' p curr vh' := by
  simp only [getView, h, h']

/-- A new row has the author's name and listeners for its position. -/
theorem of_getView {p : ℕ} {curr : ℤ} {c : FlaggedComment} {vh r : ViewHolder} (h : w.mCollection[p]? = some c)
    (hr : getView toInstant getIdentifier fromHtml w p curr vh = some r) :
    r.mPos = some p ∧ r.tv_author = c.mAuthor.mUName := by
  simp only [getView, h, Option.bind_eq_bind, Option.bind_eq_some_iff] at hr
  obtain ⟨emblem, -, timeGap, -, hr⟩ := hr
  obtain rfl := Option.some.inj hr
  exact ⟨rfl, rfl⟩

/-- Every comment of `l` is in `l'` at its position, after some taps. -/
def Grown (l l' : List FlaggedComment) : Prop :=
  ∀ (p : ℕ) c, l[p]? = some c → ∃ c', l'[p]? = some c' ∧ Tapped c c'

theorem Grown.refl (l : List FlaggedComment) : Grown l l := fun _ c hc => ⟨c, hc, .refl c⟩

theorem Grown.trans {l₁ l₂ l₃ : List FlaggedComment} (h : Grown l₁ l₂) (h' : Grown l₂ l₃) : Grown l₁ l₃ := by
  intro p c hc
  obtain ⟨c', hc', ht⟩ := h p c hc
  obtain ⟨c'', hc'', ht'⟩ := h' p c' hc'
  exact ⟨c'', hc'', ht.trans ht'⟩

theorem grown_set {p : ℕ} {c c' : FlaggedComment} (hc : l[p]? = some c) (ht : Tapped c c') : Grown l (l.set p c') := by
  intro q b hb
  by_cases hq : p = q
  · subst hq
    obtain rfl := Option.some.inj (hc.symm.trans hb)
    exact ⟨c', List.getElem?_set_self (List.getElem?_eq_some_iff.mp hc).1, ht⟩
  · exact ⟨b, by rw [List.getElem?_set_ne hq, hb], .refl b⟩

theorem tapped_like (c : FlaggedComment) : Tapped c { c with toComment := c.toComment.updateLikeValue 1 } :=
  ⟨1, 0, by simp⟩

theorem tapped_yCard (c : FlaggedComment) : Tapped c { c with toComment := c.toComment.updateYCardValue } :=
  ⟨0, 1, by simp⟩

/-- **What a tap does**: it reports the comment at the row's position, which it counts,
and changes nothing of the row but its like icon, if that was tapped. -/
theorem tap_eq {d : Drawables} {viewId : ℤ} (hview : viewId ≠ d.icLikeClicked) {vh : ViewHolder} {p : ℕ}
    {c : FlaggedComment} (hpos : vh.mPos = some p) (hc : w.mCollection[p]? = some c) (t : Tap) :
    ∃ w', tap d viewId w t vh = some (w', if t = .like then { vh with btn_like := .icLikeClicked } else vh) ∧
      w'.calls = w.calls ++ [reported t c] ∧ Grown w.mCollection w'.mCollection := by
  unfold tap
  split
  · rename_i hnone
    rw [hpos] at hnone
    cases hnone
  rename_i pos hsome
  obtain rfl := Option.some.inj (hpos.symm.trans hsome)
  cases t with
  | like =>
    simp only [OnLikeClickListener, hc, Option.map_some, if_neg hview]
    exact ⟨_, rfl, rfl, grown_set hc (tapped_like c)⟩
  | ycard =>
    simp only [OnYCardClickListener, hc, Option.map_some]
    exact ⟨_, rfl, rfl, grown_set hc (tapped_yCard c)⟩
  | reply =>
    simp only [PosOnClickListener, hc, Option.map_some]
    exact ⟨_, rfl, rfl, .refl _⟩

/-- `v` was last bound to `x`, when the comment there was `shown`, which is the loaded one
after some taps; it is `current` now, after some more, and the row's like button has been
tapped since if `liked`. -/
structure Right (toInstant : ℤ → ℤ) (getIdentifier : String → String → ℤ) (fromHtml : String → String)
    (l : List FlaggedComment) (w : CommentList) (v : View (Ask l.length) (ViewHolder × Note))
    (x : Ask l.length) (shown current : FlaggedComment) (liked : Bool) : Prop where
  items : ∃ xs, v.items = x :: xs
  note : v.row.2 = ⟨some shown, liked⟩
  now : w.mCollection[(x.position : ℕ)]? = some current
  loaded : Tapped (l.get x.position) shown
  since : Tapped shown current
  displays : Displays toInstant getIdentifier fromHtml l x shown liked v.row.1

namespace Right

variable {v : View (Ask l.length) (ViewHolder × Note)} {x : Ask l.length} {shown current : FlaggedComment} {liked : Bool}

/-- The row has listeners for its position and shows the author's name. -/
theorem row (h : Right toInstant getIdentifier fromHtml l w v x shown current liked) :
    v.row.1.mPos = some ↑x.position ∧ v.row.1.tv_author = shown.mAuthor.mUName := by
  obtain ⟨r₀, hr₀, hrow⟩ := h.displays
  have hset : (l.set x.position shown)[(x.position : ℕ)]? = some shown := List.getElem?_set_self x.position.isLt
  have hnew := of_getView hset hr₀
  rw [hrow]
  split
  · exact hnew
  · exact hnew

/-- The comments go on being tapped. -/
theorem grown (h : Right toInstant getIdentifier fromHtml l w v x shown current liked)
    (hgrown : Grown w.mCollection w'.mCollection) :
    ∃ current', Right toInstant getIdentifier fromHtml l w' v x shown current' liked := by
  obtain ⟨current', hcurrent', ht⟩ := hgrown _ _ h.now
  exact ⟨current', h.items, h.note, hcurrent', h.loaded, h.since.trans ht, h.displays⟩

/-- The row itself is tapped. -/
theorem tapped (h : Right toInstant getIdentifier fromHtml l w v x shown current liked) (t : Tap) :
    Right toInstant getIdentifier fromHtml l w
      ⟨(if t = .like then { v.row.1 with btn_like := .icLikeClicked } else v.row.1, v.row.2.tapped t), v.items⟩
      x shown current (liked || t == .like) := by
  refine ⟨h.items, ?_, h.now, h.loaded, h.since, ?_⟩
  · rw [h.note]
    rfl
  · obtain ⟨r₀, hr₀, hrow⟩ := h.displays
    refine ⟨r₀, hr₀, ?_⟩
    rw [hrow]
    cases t <;> cases liked <;> rfl

end Right

variable {d : Drawables} {viewId : ℤ}

/-- Whatever is bound and tapped, the rows are right. -/
theorem keeps_right (hview : viewId ≠ d.icLikeClicked) (l : List FlaggedComment) :
    Keeps (noted toInstant getIdentifier fromHtml d viewId l.length) (fun w => Grown l w.mCollection) fun w v =>
      ∃ x shown current liked, Right toInstant getIdentifier fromHtml l w v x shown current liked := by
  have hbind : ∀ w x vh r xs, Grown l w.mCollection →
      (noted toInstant getIdentifier fromHtml d viewId l.length).bind w x vh = some r →
      ∃ x' shown current liked, Right toInstant getIdentifier fromHtml l w ⟨r, x :: xs⟩ x' shown current liked := by
    intro w x vh r xs hD hr
    obtain ⟨row, hrow, rfl⟩ := Option.map_eq_some_iff.mp hr
    obtain ⟨c, hc, ht⟩ := hD x.position (l.get x.position) (List.getElem?_eq_getElem x.position.isLt)
    have hset : (l.set x.position c)[(x.position : ℕ)]? = some c := List.getElem?_set_self x.position.isLt
    refine ⟨x, c, c, false, ⟨xs, rfl⟩, congrArg (Note.mk · false) hc, hc, ht, .refl c, row, ?_, rfl⟩
    exact (getView_congr hset hc).trans hrow
  refine ⟨fun w x r hD hr => hbind w x _ r [] hD hr, fun w x v r hD _ hr => hbind w x _ r v.items hD hr, ?_⟩
  intro w t v w' r hD hv hr
  obtain ⟨x, shown, current, liked, hright⟩ := hv
  obtain ⟨⟨w₁, row⟩, hrow, htapped⟩ := Option.map_eq_some_iff.mp hr
  obtain ⟨w₂, htap, -, hgrown⟩ := tap_eq hview hright.row.1 hright.now t
  obtain ⟨rfl, rfl⟩ := Prod.mk.inj (Option.some.inj (htap.symm.trans hrow))
  obtain ⟨rfl, rfl⟩ := Prod.mk.inj htapped
  refine ⟨hD.trans hgrown, ?_, fun u hu => ?_⟩
  · obtain ⟨current', hright'⟩ := (hright.tapped t).grown hgrown
    exact ⟨x, shown, current', _, hright'⟩
  · obtain ⟨y, shown', current', liked', hu⟩ := hu
    obtain ⟨current'', hu'⟩ := hu.grown hgrown
    exact ⟨y, shown', current'', liked', hu'⟩

/-- The run with the notes. -/
theorem right_of_run (hview : viewId ≠ d.icLikeClicked) {es : List (Event (Ask l.length) Tap)}
    {s : Recycling.Screen CommentList (Ask l.length) ViewHolder}
    (h : run (adapter toInstant getIdentifier fromHtml d viewId l.length) es ⟨⟨l, []⟩, []⟩ = some s) :
    ∃ s', run (noted toInstant getIdentifier fromHtml d viewId l.length) es ⟨⟨l, []⟩, []⟩ = some s' ∧ s'.unnoted = s ∧
      ∀ v ∈ s'.views, ∃ x shown current liked,
        Right toInstant getIdentifier fromHtml l s.world v x shown current liked := by
  have hnoted := run_noting (adapter toInstant getIdentifier fromHtml d viewId l.length) ⟨none, false⟩
    (fun w x => ⟨w.mCollection[(x.position : ℕ)]?, false⟩) Note.tapped es ⟨⟨l, []⟩, []⟩
  obtain ⟨s', hs', rfl⟩ := Option.map_eq_some_iff.mp (hnoted.trans h)
  exact ⟨s', hs', rfl, ((keeps_right hview l).run (.refl l) (fun _ hv => absurd hv List.not_mem_nil) hs').2⟩

/-- **Every row of the comments shows the comment that was at its position when the row was
bound**, as a new row would, but for a like icon that was tapped since. A tap on it reports
the comment that is there now, and counts it. -/
theorem comment_rows (toInstant : ℤ → ℤ) (getIdentifier : String → String → ℤ) (fromHtml : String → String)
    (d : Drawables) (viewId : ℤ) (hview : viewId ≠ d.icLikeClicked) (l : List FlaggedComment)
    (es : List (Event (Ask l.length) Tap)) (s : Recycling.Screen CommentList (Ask l.length) ViewHolder)
    (h : run (adapter toInstant getIdentifier fromHtml d viewId l.length) es ⟨⟨l, []⟩, []⟩ = some s) :
    ∃ s', run (noted toInstant getIdentifier fromHtml d viewId l.length) es ⟨⟨l, []⟩, []⟩ = some s' ∧ s'.unnoted = s ∧
      ∀ v ∈ s'.views, ∃ x shown current liked,
        Right toInstant getIdentifier fromHtml l s.world v x shown current liked ∧
        ∀ t, ∃ w' vh', tap d viewId s.world t v.row.1 = some (w', vh') ∧
          w'.calls = s.world.calls ++ [reported t current] := by
  obtain ⟨s', hs', hunnoted, hrows⟩ := right_of_run hview h
  refine ⟨s', hs', hunnoted, fun v hv => ?_⟩
  obtain ⟨x, shown, current, liked, hright⟩ := hrows v hv
  refine ⟨x, shown, current, liked, hright, fun t => ?_⟩
  obtain ⟨w', htap, hcalls, -⟩ := tap_eq hview hright.row.1 hright.now t
  exact ⟨w', _, htap, hcalls⟩

open ForumDetailCommentFragment in
/-- **A tap on reply answers the thread of the row's comment**: the activity is told of the
first comment of its thread, of the comment itself and of the name that the row shows. -/
theorem replies_threaded (toInstant : ℤ → ℤ) (getIdentifier : String → String → ℤ) (fromHtml : String → String)
    (d : Drawables) (viewId : ℤ) (hview : viewId ≠ d.icLikeClicked) (mCurrUser : User) (cs : List Comment)
    (l : List FlaggedComment) (hl : organizeComments toInstant mCurrUser cs = some l)
    (es : List (Event (Ask l.length) Tap)) (s : Recycling.Screen CommentList (Ask l.length) ViewHolder)
    (h : run (adapter toInstant getIdentifier fromHtml d viewId l.length) es ⟨⟨l, []⟩, []⟩ = some s) :
    ∀ v ∈ s.views, ∃ x xs, v.items = x :: xs ∧ ∃ p ∈ l, isTop p = true ∧
      (l.get x.position = p ∨ isReplyTo p (l.get x.position) = true) ∧
      ∃ w' vh', tap d viewId s.world .reply v.row = some (w', vh') ∧
        w'.calls = s.world.calls ++ [.onReply p.mId (l.get x.position).mId v.row.tv_author] := by
  obtain ⟨s', -, rfl, hrows⟩ := right_of_run hview h
  intro v hv
  obtain ⟨u, hu, rfl⟩ := List.mem_map.mp hv
  obtain ⟨x, shown, current, liked, hright⟩ := hrows u hu
  obtain ⟨xs, hitems⟩ := hright.items
  refine ⟨x, xs, hitems, ?_⟩
  obtain ⟨hpos, hname⟩ := hright.row
  obtain ⟨w', htap, hcalls, -⟩ := tap_eq hview hpos hright.now .reply
  obtain ⟨hid, hauthor, hparent⟩ := (hright.loaded.trans hright.since).same
  rw [← hright.since.same.2.1, hauthor] at hname
  have hmem : l.get x.position ∈ l := List.get_mem l x.position
  generalize l.get x.position = c at hmem hid hauthor hparent hname
  rw [reported, hid, hparent, hauthor, ← hname] at hcalls
  -- the thread of a comment of the first layer is its own
  by_cases htop : isTop c = true
  · have hlength : c.mParentId.length ≤ 0 := Nat.le_of_eq (beq_iff_eq.mp htop)
    rw [if_pos hlength] at hcalls
    exact ⟨c, hmem, htop, .inl rfl, w', _, htap, hcalls⟩
  · obtain ⟨p, hp, hptop, hthread⟩ := mem_organizeComments hl hmem
    have hreply : isReplyTo p c = true := by
      rcases hthread with rfl | ⟨-, hreply⟩
      · exact absurd hptop htop
      · exact hreply
    have hlength : ¬ c.mParentId.length ≤ 0 := fun hzero => htop (beq_iff_eq.mpr (Nat.le_zero.mp hzero))
    rw [if_neg hlength, beq_iff_eq.mp hreply] at hcalls
    exact ⟨p, hp, hptop, .inr hreply, w', _, htap, hcalls⟩

/-! The row of the first comment is tapped and then used for the reply to it, which is
tapped as well. -/

open ForumDetailCommentFragment in
def organized : List FlaggedComment := (organizeComments id ann discussed).getD []

def scrolled : List (Event (Ask organized.length) Tap) :=
  [.getView ⟨⟨0, by decide⟩, 0⟩ none, .tap 0 .like, .getView ⟨⟨1, by decide⟩, 0⟩ (some 0), .tap 0 .reply]

theorem scrolled_rows : ∃ s, run (adapter id (fun _ _ => 0) id plainDrawables 1 organized.length) scrolled
      ⟨⟨organized, []⟩, []⟩ = some s ∧ s.views.length = 1 ∧
    ∃ s', run (noted id (fun _ _ => 0) id plainDrawables 1 organized.length) scrolled ⟨⟨organized, []⟩, []⟩ = some s' ∧
      s'.unnoted = s ∧
      ∀ v ∈ s'.views, ∃ x shown current liked, Right id (fun _ _ => 0) id organized s.world v x shown current liked ∧
        ∀ t, ∃ w' vh', tap plainDrawables 1 s.world t v.row.1 = some (w', vh') ∧
          w'.calls = s.world.calls ++ [reported t current] := by
  have hsome : (run (adapter id (fun _ _ => 0) id plainDrawables 1 organized.length) scrolled
      ⟨⟨organized, []⟩, []⟩).isSome := by decide
  exact ⟨_, (Option.some_get hsome).symm, rfl,
    comment_rows id (fun _ _ => 0) id plainDrawables 1 (by decide) organized scrolled _ (Option.some_get hsome).symm⟩

open ForumDetailCommentFragment in
theorem scrolled_replies : ∃ s, run (adapter id (fun _ _ => 0) id plainDrawables 1 organized.length) scrolled
      ⟨⟨organized, []⟩, []⟩ = some s ∧ s.views.length = 1 ∧
    ∀ v ∈ s.views, ∃ x xs, v.items = x :: xs ∧ ∃ p ∈ organized, isTop p = true ∧
      (organized.get x.position = p ∨ isReplyTo p (organized.get x.position) = true) ∧
      ∃ w' vh', tap plainDrawables 1 s.world .reply v.row = some (w', vh') ∧
        w'.calls = s.world.calls ++ [.onReply p.mId (organized.get x.position).mId v.row.tv_author] := by
  have hsome : (run (adapter id (fun _ _ => 0) id plainDrawables 1 organized.length) scrolled
      ⟨⟨organized, []⟩, []⟩).isSome := by decide
  exact ⟨_, (Option.some_get hsome).symm, rfl,
    replies_threaded id (fun _ _ => 0) id plainDrawables 1 (by decide) ann discussed organized (by decide) scrolled _
      (Option.some_get hsome).symm⟩

end Rows

end CommentAdapter
end FootballGallery
