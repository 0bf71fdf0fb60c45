/-
# `e_models/adapters`: the rows of the lists

What the adapters of the lists put into a row. A row that went out of sight is
handed out again for another item, with all that it had, and `getView` overwrites
what it sets. Every list sets everything it has, the two lists of posts all but one
thing: for a post without a description they hide the row's description, and
nothing shows it again. So a row hides the description of every post after that
one as well.

Key definitions: `ForumAdapter.getView`, `ProfilePostAdapter.getView`, `NewsAdapter.getView`,
`MatchesAdapter.getView`, `StandingsAdapter.getView`, `Ios.NewsCell.configCell`, `HidesDescription`.
Key theorems: `post_rows_right_iff`, `rows_shown`.
-/
import FootballGallery.Ages
import FootballGallery.APIUtil
import FootballGallery.Emblems
import FootballGallery.Ios.Article
import FootballGallery.Lib.Recycling

namespace FootballGallery

open Recycling

/-! ### What a row is made of -/

/-- The colors of `res/values/colors.xml` and the drawables that the rows have. -/
inductive Background where
  | testGray1 | testGray2 | testGray3 | gray01 | gray02
  | borderTextview | tagNews | tagEpl | tagLaliga | tagBundes | tagSerie | tagLigue1
  | icLike | icLikeClicked | icYCardClicked
deriving DecidableEq

/-- What an image view shows: the drawable that the layout names, or what it was given. -/
inductive Image (α : Type) where
  | drawable (name : String)
  | given (image : α)
deriving DecidableEq

/-- The color of the rows at even and odd positions. -/
def stripe (position : ℕ) : Background := if position % 2 = 0 then .testGray2 else .testGray1

/-- An item that is asked for, and when. -/
structure Ask (n : ℕ) where
  position : Fin n
  curr : ℤ

namespace Post

def getCategoryStr (p : Post) : String :=
  let ret := match p.mCategory with
    | 1 => "Analysis"
    | 2 => "Discussion"
    | 3 => "Question"
    | 0 => "News"
    | _ => "ERROR"
  " " ++ ret ++ " "

def getLeagueStr (p : Post) : String :=
  let ret := match p.mFilter with
    | 0 => "EPL"
    | 1 => "La Liga"
    | 2 => "Bundesliga"
    | 3 => "Serie A"
    | 4 => "Ligue 1"
    | _ => "ERROR"
  " " ++ ret ++ " "

/-- The tags of the category and of the league, `none` for `null`. -/
def getDrawableTags (p : Post) : Option Background × Option Background :=
  let retCategory := match p.mCategory with
    | 0 | 1 | 2 | 3 => some Background.tagNews
    | _ => none
  let retFilter := match p.mFilter with
    | 0 => some Background.tagEpl
    | 1 => some Background.tagLaliga
    | 2 => some Background.tagBundes
    | 3 => some Background.tagSerie
    | 4 => some Background.tagLigue1
    | _ => none
  (retCategory, retFilter)

/-- `curr` is the time of the client's clock; it throws where the id has no date. -/
def getTimeGap (toInstant : ℤ → ℤ) (curr : ℤ) (p : Post) : Option String :=
  (p.getDateDate toInstant).map (StringUtil.calculateTimeDiff curr)

end Post

def Fixture.getScore (f : Fixture) : String :=
  if f.mHomeGoal = -1 ∨ f.mAwayGoal = -1 then " vs. " else toString f.mHomeGoal ++ " : " ++ toString f.mAwayGoal

/-! ### The lists of posts -/

section Posts

variable (toInstant : ℤ → ℤ) (getIdentifier : String → String → ℤ)

namespace ForumAdapter

/-- `ViewHolder` and the row itself; a background that is `none` is `null`. -/
structure ViewHolder where
  convertView : Background
  btn_like : Background
  btn_ycard : Background
  btn_comment : Background
  tv_filter_league : String
  tag_league : Option Background
  tv_filter_category : String
  tag_category : Option Background
  iv_emblem : Option ℤ
  tv_author : String
  tv_date : String
  tv_title : String
  tv_desc : String
  tv_desc_visible : Bool
  tv_like : String
  tv_ycard : String
  tv_comment : String
deriving DecidableEq

/-- `R.layout.lv_forum_layout` -/
def inflate : ViewHolder where
  convertView := .gray01
  btn_like := .gray02
  btn_ycard := .gray02
  btn_comment := .gray02
  tv_filter_league := " EPL "
  tag_league := some .borderTextview
  tv_filter_category := " Discussion "
  tag_category := some .borderTextview
  iv_emblem := none
  tv_author := "gloryunited1999"
  tv_date := "9h"
  tv_title := "Title comes here"
  tv_desc := "content comes here"
  tv_desc_visible := true
  tv_like := "35"
  tv_ycard := "35"
  tv_comment := "35"

/-- `none`: it throws. -/
def getView (mCollection : List Post) (position : ℕ) (curr : ℤ) (vh : ViewHolder) : Option ViewHolder :=
  match mCollection[position]? with
  | none => some vh
  | some mPost => do
    let emblem ← mPost.getEmblemForImageView getIdentifier
    let timeGap ← mPost.getTimeGap toInstant curr
    let descSummary ← mPost.getDescSummary
    return { vh with
      convertView := stripe position
      btn_like := stripe position
      btn_ycard := stripe position
      btn_comment := stripe position
      tv_filter_league := mPost.getLeagueStr
      tag_league := mPost.getDrawableTags.2
      tv_filter_category := mPost.getCategoryStr
      tag_category := mPost.getDrawableTags.1
      iv_emblem := some emblem
      tv_author := mPost.mAuthorUName
      tv_date := timeGap
      tv_title := mPost.mTitle
      tv_desc_visible := if mPost.mDesc.length ≤ 0 then false else vh.tv_desc_visible
      tv_desc := descSummary
      tv_like := toString mPost.mLikes
      tv_ycard := toString mPost.mYCards
      tv_comment := if mPost.mComments.length = 0 then "0" else toString mPost.mComments.length }

/-- The forum's list, which asks for positions below `getCount`. -/
def adapter (mCollection : List Post) : Adapter Unit (Ask mCollection.length) Empty ViewHolder where
  inflate := inflate
  bind _ x := getView toInstant getIdentifier mCollection x.position x.curr
  tap _ t := t.elim

end ForumAdapter

namespace ProfilePostAdapter

structure ViewHolder where
  convertView : Background
  btn_like : Background
  btn_ycard : Background
  btn_comment : Background
  btn_more : Background
  tv_filter : String
  tv_category : String
  tv_date : String
  tv_title : String
  tv_desc : String
  tv_desc_visible : Bool
  tv_like : String
  tv_ycard : String
  tv_comment : String
deriving DecidableEq

/-- `R.layout.lv_profile_posts_layout` -/
def inflate : ViewHolder where
  convertView := .gray01
  btn_like := .gray01
  btn_ycard := .gray01
  btn_comment := .gray01
  btn_more := .gray01
  tv_filter := " EPL "
  tv_category := " Discussion "
  tv_date := "8h"
  tv_title := "title"
  tv_desc := "desc"
  tv_desc_visible := true
  tv_like := "35"
  tv_ycard := "35"
  tv_comment := "35"

/-- `none`: it throws. -/
def getView (mCollection : List Post) (position : ℕ) (curr : ℤ) (vh : ViewHolder) : Option ViewHolder :=
  match mCollection[position]? with
  | none => some vh
  | some mPost => do
    let timeGap ← mPost.getTimeGap toInstant curr
    let descSummary ← mPost.getDescSummary
    return { vh with
      convertView := stripe position
      btn_like := stripe position
      btn_ycard := stripe position
      btn_comment := stripe position
      btn_more := stripe position
      tv_filter := mPost.getLeagueStr
      tv_category := mPost.getCategoryStr
      tv_date := timeGap
      tv_title := mPost.mTitle
      tv_desc := descSummary
      tv_like := toString mPost.mLikes
      tv_ycard := toString mPost.mYCards
      tv_comment := toString mPost.mComments.length
      tv_desc_visible := if mPost.mDesc.length ≤ 0 then false else vh.tv_desc_visible }

/-- The list of a profile. -/
def adapter (mCollection : List Post) : Adapter Unit (Ask mCollection.length) Empty ViewHolder where
  inflate := inflate
  bind _ x := getView toInstant mCollection x.position x.curr
  tap _ t := t.elim

end ProfilePostAdapter

end Posts

/-! ### The other lists -/

namespace NewsAdapter

structure ViewHolder where
  convertView : Background
  tv_author : String
  tv_date : String
  tv_title : String
  tv_desc : String
deriving DecidableEq

/-- `R.layout.lv_news_layout` -/
def inflate : ViewHolder := ⟨.gray01, "Author", "Date", "Placeholder", "Placeholder"⟩

def getView (env : Platform) (mCollection : List News) (position : ℕ) (vh : ViewHolder) : Option ViewHolder :=
  match mCollection[position]? with
  | none => some vh
  | some mNews => do
    let date ← APIUtil.formatNewsDate env mNews.mDate
    let descSummary ← mNews.getDescSummary
    return { vh with
      convertView := stripe position
      tv_author := mNews.mAuthor
      tv_date := date
      tv_title := mNews.mTitle
      tv_desc := descSummary }

def adapter (env : Platform) (mCollection : List News) :
    Adapter Unit (Fin mCollection.length) Empty ViewHolder where
  inflate := inflate
  bind _ position := getView env mCollection position
  tap _ t := t.elim

end NewsAdapter

section Pictures

-- what `Picasso.load` makes of a url in the end; `none`: it throws
variable {Picture : Type} (load : String → Option Picture)

namespace MatchesAdapter

structure ViewHolder (Picture : Type) where
  convertView : Background
  tv_date : String
  tv_venue : String
  tv_status : String
  tv_score : String
  tv_homeTeam : String
  tv_awayTeam : String
  iv_home_logo : Image Picture
  iv_away_logo : Image Picture

/-- `R.layout.lv_matches_layout` -/
def inflate : ViewHolder Picture :=
  ⟨.gray01, "02/05 19:30", "Emirates Stadium", "FT", "0 : 5", "Angers", "Bayern", .drawable "bundes_arminia",
    .drawable "bundes_bayern"⟩

def getView (mCollection : List Fixture) (position : ℕ) (vh : ViewHolder Picture) : Option (ViewHolder Picture) :=
  match mCollection[position]? with
  | none => some vh
  | some mFixture => do
    let homeLogo ← load mFixture.mHomeLogo
    let awayLogo ← load mFixture.mAwayLogo
    return { vh with
      convertView := stripe position
      tv_date := mFixture.mDate
      tv_venue := mFixture.mVenue
      tv_status := mFixture.mStatus
      tv_score := mFixture.getScore
      tv_homeTeam := mFixture.mHomeTeam
      tv_awayTeam := mFixture.mAwayTeam
      iv_home_logo := .given homeLogo
      iv_away_logo := .given awayLogo }

def adapter (mCollection : List Fixture) : Adapter Unit (Fin mCollection.length) Empty (ViewHolder Picture) where
  inflate := inflate
  bind _ position := getView load mCollection position
  tap _ t := t.elim

end MatchesAdapter

namespace StandingsAdapter

structure ViewHolder (Picture : Type) where
  convertView : Background
  tv_rank : String
  iv_logo : Image Picture
  tv_teamName : String
  tv_mp : String
  tv_pts : String
  tv_w : String
  tv_d : String
  tv_l : String
  tv_gd : String

/-- `R.layout.lv_standings_layout` -/
def inflate : ViewHolder Picture :=
  ⟨.gray01, "10", .drawable "epl_manchesterunited", "Wolverhamton Wander", "MP", "PT", "WW", "DD", "LL", "GD"⟩

def getView (mCollection : List Team) (position : ℕ) (vh : ViewHolder Picture) : Option (ViewHolder Picture) :=
  match mCollection[position]? with
  | none => some vh
  | some mTeam => do
    let logo ← load mTeam.mLogoUrl
    return { vh with
      convertView := stripe position
      iv_logo := .given logo
      tv_rank := toString mTeam.mRank
      tv_teamName := mTeam.mTeamName
      tv_mp := toString mTeam.mMP
      tv_pts := toString mTeam.mPts
      tv_w := toString mTeam.mW
      tv_d := toString mTeam.mD
      tv_l := toString mTeam.mL
      tv_gd := toString mTeam.mGD }

def adapter (mCollection : List Team) : Adapter Unit (Fin mCollection.length) Empty (ViewHolder Picture) where
  inflate := inflate
  bind _ position := getView load mCollection position
  tap _ t := t.elim

end StandingsAdapter

end Pictures

namespace Ios

/-- `models/NewsCell.swift`, with the news it was configured with last -/
structure NewsCell where
  mTimestamp : String
  mTitle : String
  mDescription : String
  mNews : Option News
deriving DecidableEq

/-- The prototype of the storyboard. -/
def NewsCell.prototype : NewsCell := ⟨"date", "Title", "Description", none⟩

def NewsCell.configCell (news : News) (cell : NewsCell) : NewsCell :=
  { cell with
    mNews := some news
    mTitle := news.mTitle
    mTimestamp := news.mTimestamp
    mDescription := news.mSubtitle }

namespace NewsVC

/-- `tableView(_:cellForRowAt:)`, of the cell that is dequeued; `none`: it traps. -/
def cellForRowAt (mCollection : List News) (row : ℕ) (cell : NewsCell) : Option NewsCell :=
  mCollection[row]?.map fun news => cell.configCell news

def table (mCollection : List News) : Adapter Unit (Fin mCollection.length) Empty NewsCell where
  inflate := .prototype
  bind _ row := cellForRowAt mCollection row
  tap _ t := t.elim

end NewsVC
end Ios

/-! ### What the rows show -/

section Posts

variable (toInstant : ℤ → ℤ) (getIdentifier : String → String → ℤ) (mCollection : List Post)

/-- The post that is asked for has no description, and its row hides it. -/
def HidesDescription (x : Ask mCollection.length) : Prop := (mCollection.get x.position).mDesc = ""

theorem getElem?_position (x : Ask mCollection.length) :
    mCollection[(x.position : ℕ)]? = some (mCollection.get x.position) := List.getElem?_eq_getElem x.position.isLt

/-- The visibility that a bind leaves. -/
theorem visible_iff {desc : String} {visible : Bool} :
    (if desc.length ≤ 0 then false else visible) = true ↔ visible = true ∧ ¬ desc = "" := by
  have hempty : desc.length ≤ 0 ↔ desc = "" := by
    rw [Nat.le_zero, String.length_eq_zero_iff]
  by_cases h : desc = ""
  · rw [if_pos (hempty.mpr h)]
    simp [h]
  · rw [if_neg (mt hempty.mp h)]
    simp [h]

section Bound

variable {toInstant} {getIdentifier} {mCollection} {x : Ask mCollection.length}

theorem ForumAdapter.bind_eq_some {r r' : ForumAdapter.ViewHolder}
    (h : (ForumAdapter.adapter toInstant getIdentifier mCollection).bind () x r = some r') :
    (∃ r₀, (ForumAdapter.adapter toInstant getIdentifier mCollection).bind () x inflate = some r₀ ∧
        { r' with tv_desc_visible := true } = { r₀ with tv_desc_visible := true }) ∧
      (r'.tv_desc_visible = true ↔ r.tv_desc_visible = true ∧ ¬ HidesDescription mCollection x) := by
  simp only [adapter, getView, getElem?_position, Option.bind_eq_bind, Option.bind_eq_some_iff] at h ⊢
  obtain ⟨emblem, hemblem, timeGap, hgap, descSummary, hdesc, hr⟩ := h
  obtain rfl := Option.some.inj hr
  exact ⟨⟨_, ⟨emblem, hemblem, timeGap, hgap, descSummary, hdesc, rfl⟩, rfl⟩, visible_iff⟩

theorem ProfilePostAdapter.bind_eq_some {r r' : ProfilePostAdapter.ViewHolder}
    (h : (ProfilePostAdapter.adapter toInstant mCollection).bind () x r = some r') :
    (∃ r₀, (ProfilePostAdapter.adapter toInstant mCollection).bind () x inflate = some r₀ ∧
        { r' with tv_desc_visible := true } = { r₀ with tv_desc_visible := true }) ∧
      (r'.tv_desc_visible = true ↔ r.tv_desc_visible = true ∧ ¬ HidesDescription mCollection x) := by
  simp only [adapter, getView, getElem?_position, Option.bind_eq_bind, Option.bind_eq_some_iff] at h ⊢
  obtain ⟨timeGap, hgap, descSummary, hdesc, hr⟩ := h
  obtain rfl := Option.some.inj hr
  exact ⟨⟨_, ⟨timeGap, hgap, descSummary, hdesc, rfl⟩, rfl⟩, visible_iff⟩

end Bound

theorem ForumAdapter.clears : Clears (ForumAdapter.adapter toInstant getIdentifier mCollection) ()
    (fun vh => { vh with tv_desc_visible := true }) (·.tv_desc_visible) (HidesDescription mCollection) where
  inflated := rfl
  overwrites _ _ _ h := (bind_eq_some h).1
  clears_iff _ _ _ h := (bind_eq_some h).2
  ext r r' hface hflag := by
    cases r
    cases r'
    simp_all

theorem ProfilePostAdapter.clears : Clears (ProfilePostAdapter.adapter toInstant mCollection) ()
    (fun vh => { vh with tv_desc_visible := true }) (·.tv_desc_visible) (HidesDescription mCollection) where
  inflated := rfl
  overwrites _ _ _ h := (bind_eq_some h).1
  clears_iff _ _ _ h := (bind_eq_some h).2
  ext r r' hface hflag := by
    cases r
    cases r'
    simp_all

/-- **A row of the two lists of posts is right exactly when** its post has no
description or no post that it was bound to before was without one. All but the
visibility of the description is right in any case. -/
theorem post_rows_right_iff :
    (∀ es s, run (ForumAdapter.adapter toInstant getIdentifier mCollection) es ⟨(), []⟩ = some s →
      ∀ v ∈ s.views, ∃ x xs r₀, v.items = x :: xs ∧
        ForumAdapter.getView toInstant getIdentifier mCollection x.position x.curr ForumAdapter.inflate = some r₀ ∧
        { v.row with tv_desc_visible := true } = { r₀ with tv_desc_visible := true } ∧
        (v.row = r₀ ↔ HidesDescription mCollection x ∨ ∀ y ∈ xs, ¬ HidesDescription mCollection y)) ∧
    ∀ es s, run (ProfilePostAdapter.adapter toInstant mCollection) es ⟨(), []⟩ = some s →
      ∀ v ∈ s.views, ∃ x xs r₀, v.items = x :: xs ∧
        ProfilePostAdapter.getView toInstant mCollection x.position x.curr ProfilePostAdapter.inflate = some r₀ ∧
        { v.row with tv_desc_visible := true } = { r₀ with tv_desc_visible := true } ∧
        (v.row = r₀ ↔ HidesDescription mCollection x ∨ ∀ y ∈ xs, ¬ HidesDescription mCollection y) :=
  ⟨fun _ _ h => (ForumAdapter.clears toInstant getIdentifier mCollection).right_iff h,
    fun _ _ h => (ProfilePostAdapter.clears toInstant mCollection).right_iff h⟩

end Posts

/-- **The rows of the other lists are right**, whatever they were bound to before. -/
theorem rows_shown {Picture : Type} (env : Platform) (load : String → Option Picture) (news : List News)
    (fixtures : List Fixture) (teams : List Team) (iosNews : List Ios.News) :
    Shows (NewsAdapter.adapter env news) () ∧ Shows (MatchesAdapter.adapter load fixtures) () ∧
      Shows (StandingsAdapter.adapter load teams) () ∧ Shows (Ios.NewsVC.table iosNews) () := by
  refine ⟨shows_of_overwrites fun x r => ?_, shows_of_overwrites fun x r => ?_,
    shows_of_overwrites fun x r => ?_, shows_of_overwrites fun x r => ?_⟩
  · simp only [NewsAdapter.adapter, NewsAdapter.getView, List.getElem?_eq_getElem x.isLt]
  · simp only [MatchesAdapter.adapter, MatchesAdapter.getView, List.getElem?_eq_getElem x.isLt]
  · simp only [StandingsAdapter.adapter, StandingsAdapter.getView, List.getElem?_eq_getElem x.isLt]
  · simp only [Ios.NewsVC.table, Ios.NewsVC.cellForRowAt, List.getElem?_eq_getElem x.isLt, Ios.NewsCell.configCell]

/-! A post without a description and one with it; the row of the first is used for the
second, whose description is hidden. -/

def matchDay : List Post :=
  [{ Post.new "post_01-01-2022-09-00-00" "Derby today" "" 0 0 with mAuthorEmail := "ann@mail.com" },
    { Post.new "post_01-01-2022-10-00-00" "What a match" "Three goals." 0 0 with mAuthorEmail := "ann@mail.com" }]

example :
    ((run (ForumAdapter.adapter id (fun _ _ => 0) matchDay)
        [.getView ⟨⟨0, by decide⟩, 0⟩ none, .getView ⟨⟨1, by decide⟩, 0⟩ (some 0)] ⟨(), []⟩).map fun s =>
      s.views.map fun v => (v.row.tv_desc, v.row.tv_desc_visible)) = some [("Three goals.", false)] ∧
    (ForumAdapter.getView id (fun _ _ => 0) matchDay 1 0 ForumAdapter.inflate).map (fun r₀ =>
      (r₀.tv_desc, r₀.tv_desc_visible)) = some ("Three goals.", true) := by
  decide

end FootballGallery
