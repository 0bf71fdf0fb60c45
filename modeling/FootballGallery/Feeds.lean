/-
# What the feeds return

Each parser should return the entries of the longest prefix of complete items, and
each date of a news item should be shown. The standings do so for every text, as
their items are taken with getters only. The other two do so when the first
incomplete item is an object or nothing, so that the cast of an item does not fail.

Key definitions: `IsNews`, `IsFixture`, `IsTeam`, `NewsRight`, `MatchesRight`,
`StandingsRight`, `NewsReadable`, `MatchesReadable`.
Key theorems: `formatNewsDate_isSome_iff`, `feed_right_iff`, `feeds_iff`.
-/
import FootballGallery.APIUtil

namespace FootballGallery
namespace APIUtil

open Reading

/-! ### What they should return -/

section Specification

variable (env : Platform)

/-- The content without its markup, where there is one. -/
def contentOf (data : Fields) : String :=
  ((data.lookup "content").map fun content => withoutMarkup (env.toText content)).getD ""

/-- The text that an element of a body adds to the description. -/
def IsPart (b : Option Json) (part : String) : Prop :=
  ∃ child data, b = some (.object child) ∧ child.lookup "data" = some (.object data) ∧ part = contentOf env data

/-- The item has all that is read of it, and this is its entry. -/
def IsNews (a : Option Json) (n : News) : Prop :=
  ∃ child title date body parts, a = some (.object child) ∧ child.lookup "title" = some title ∧
    child.lookup "published_at" = some date ∧ child.lookup "body" = some (.array body) ∧
    List.Forall₂ (IsPart env) body parts ∧
    n = ⟨"livescore.com", env.toText date, env.toText title, String.join parts⟩

def IsFixture (a : Option Json) (f : Fixture) : Prop :=
  ∃ item fixture venue status league teams home away goals timestamp,
    a = some (.object item) ∧
    item.lookup "fixture" = some (.object fixture) ∧
    (fixture.lookup "timestamp").bind env.toLong = some timestamp ∧ f.mDate = unixTimeToDateString env timestamp ∧
    fixture.lookup "venue" = some (.object venue) ∧ (venue.lookup "name").map env.toText = some f.mVenue ∧
    fixture.lookup "status" = some (.object status) ∧ (status.lookup "short").map env.toText = some f.mStatus ∧
    item.lookup "league" = some (.object league) ∧ (league.lookup "round").map env.toText = some f.mRound ∧
    item.lookup "teams" = some (.object teams) ∧
    teams.lookup "home" = some (.object home) ∧ (home.lookup "name").map env.toText = some f.mHomeTeam ∧
    (home.lookup "logo").map env.toText = some f.mHomeLogo ∧
    teams.lookup "away" = some (.object away) ∧ (away.lookup "name").map env.toText = some f.mAwayTeam ∧
    (away.lookup "logo").map env.toText = some f.mAwayLogo ∧
    item.lookup "goals" = some (.object goals) ∧ (∃ v ∈ goals.lookup "home", IsGoal env v f.mHomeGoal) ∧
    ∃ v ∈ goals.lookup "away", IsGoal env v f.mAwayGoal

def IsTeam (a : Option Json) (t : Team) : Prop :=
  ∃ team detail record, a = some (.object team) ∧
    (team.lookup "rank").bind env.toInteger = some t.mRank ∧
    team.lookup "team" = some (.object detail) ∧ (detail.lookup "name").map env.toText = some t.mTeamName ∧
    (detail.lookup "logo").map env.toText = some t.mLogoUrl ∧
    (team.lookup "points").bind env.toInteger = some t.mPts ∧
    (team.lookup "goalsDiff").bind env.toInteger = some t.mGD ∧
    (team.lookup "form").map env.toText = some t.mLastFive ∧
    team.lookup "all" = some (.object record) ∧ (record.lookup "played").bind env.toInteger = some t.mMP ∧
    (record.lookup "win").bind env.toInteger = some t.mW ∧ (record.lookup "draw").bind env.toInteger = some t.mD ∧
    (record.lookup "lose").bind env.toInteger = some t.mL

/-- The text is an object with a list under the name. -/
def HasList (name : String) (result : String) (items : List (Option Json)) : Prop :=
  ∃ o, env.nextValue result = some (.object o) ∧ o.lookup name = some (.array items)

/-- The standings' list is nested deeper, and there is a league id beside it. -/
def HasStandings (result : String) (items : List (Option Json)) : Prop :=
  ∃ response item league standings, HasList env "response" result response ∧
    response[0]? = some (some (.object item)) ∧ item.lookup "league" = some (.object league) ∧
    ((league.lookup "id").bind env.toInteger).isSome ∧ league.lookup "standings" = some (.array standings) ∧
    standings[0]? = some (some (.array items))

/-- The entries of the longest prefix of complete items; none when there is no list. -/
def IsFeed {β : Type} (list : List (Option Json) → Prop) (entry : Option Json → β → Prop) (l : List β) : Prop :=
  (∀ items, list items → Longest entry items l) ∧ ((∀ items, ¬ list items) → l = [])

def NewsRight (result : String) : Prop :=
  ∃ l, getLSNewsJSON env result = .ok l ∧ IsFeed (HasList env "data" result) (IsNews env) l ∧
    ∀ n ∈ l, (formatNewsDate env n.mDate).isSome

def MatchesRight (result : String) : Prop :=
  ∃ l, getMatchesJSON env result = .ok l ∧ IsFeed (HasList env "response" result) (IsFixture env) l

def StandingsRight (result : String) : Prop :=
  ∃ l, getStandingsJSON env result = .ok l ∧ IsFeed (HasStandings env result) (IsTeam env) l

/-- What is before the first `+` can be read, and there is something else than `+`. -/
def DateReadable (date : String) : Prop :=
  (date = "" ∨ ∃ c ∈ date.toList, c ≠ '+') ∧
    (env.parseNewsDate (.ofList (date.toList.takeWhile (· ≠ '+')))).isSome

/-- The dates of the complete items before the first incomplete one can be read, and
that one is an object or nothing; and so is the first element without data of its body,
when that is what it lacks. -/
def NewsReadable (result : String) : Prop :=
  ∀ items, HasList env "data" result items →
    UpToFirst (fun a => ∃ n, IsNews env a n)
      (fun a => ∀ child date, a = some (.object child) → child.lookup "published_at" = some date →
        DateReadable env (env.toText date))
      (fun a => Plain a ∧ ∀ child body, a = some (.object child) → (child.lookup "title").isSome →
        (child.lookup "published_at").isSome → child.lookup "body" = some (.array body) →
        UpToFirst (fun b => ∃ part, IsPart env b part) (fun _ => True) Plain body) items

/-- The first incomplete item is an object or nothing. -/
def MatchesReadable (result : String) : Prop :=
  ∀ items, HasList env "response" result items →
    UpToFirst (fun a => ∃ f, IsFixture env a f) (fun _ => True) Plain items

end Specification


/-! ### Items -/

section Items

variable {env : Platform}

/-- One round of the loop over the body. -/
theorem newsDesc_cons (b : Option Json) (body : List (Option Json)) (desc : String) :
    newsDesc env (b :: body) desc = (item b >>= castObject) >>= fun child =>
      getJSONObject child "data" >>= fun data => newsDesc env body (desc ++ contentOf env data) := by
  have hround : ∀ data : Fields, (if (data.lookup "content").isSome then
      getString env data "content" >>= fun content => newsDesc env body (desc ++ withoutMarkup content)
      else newsDesc env body desc) = newsDesc env body (desc ++ contentOf env data) := by
    intro data
    unfold contentOf
    cases hc : data.lookup "content" with
    | none => rw [if_neg (by simp), Option.map_none, Option.getD_none, String.append_empty]
    | some content =>
      have hget : getString env data "content" = .ok (env.toText content) := getString_eq_ok.mpr (by rw [hc]; rfl)
      rw [if_pos (by simp), hget]
      rfl
  rw [newsDesc]
  simp only [hround]
  cases item b with
  | error e => rfl
  | ok v => rfl

theorem newsDesc_eq_ok {body : List (Option Json)} {desc d : String} : newsDesc env body desc = .ok d ↔
    ∃ parts, List.Forall₂ (IsPart env) body parts ∧ d = desc ++ String.join parts := by
  induction body generalizing desc with
  | nil =>
    constructor
    · intro h
      exact ⟨[], .nil, (Except.ok.inj h).symm.trans String.append_empty.symm⟩
    · rintro ⟨parts, hparts, rfl⟩
      cases hparts
      exact congrArg Except.ok String.append_empty.symm
  | cons b body ih =>
    rw [newsDesc_cons]
    simp only [bind_eq_ok, item_eq_ok, castObject_eq_ok, getJSONObject_eq_ok, ih]
    constructor
    · rintro ⟨child, ⟨_, rfl, rfl⟩, data, hdata, parts, hparts, rfl⟩
      refine ⟨contentOf env data :: parts, .cons ⟨child, data, rfl, hdata, rfl⟩ hparts, ?_⟩
      rw [String.join_cons, String.append_assoc]
    · rintro ⟨parts, hparts, rfl⟩
      cases hparts with
      | cons hpart hparts =>
        obtain ⟨child, data, rfl, hdata, rfl⟩ := hpart
        refine ⟨child, ⟨_, rfl, rfl⟩, data, hdata, _, hparts, ?_⟩
        rw [String.join_cons, String.append_assoc]

/-- The body fails with what is caught when its first incomplete element is an object or
nothing. -/
theorem caught_newsDesc_iff {body : List (Option Json)} {desc : String} : Caught (newsDesc env body desc) ↔
    UpToFirst (fun b => ∃ part, IsPart env b part) (fun _ => True) Plain body := by
  induction body generalizing desc with
  | nil => exact iff_of_true (caught_ok desc) trivial
  | cons b body ih =>
    rw [newsDesc_cons]
    unfold UpToFirst
    rw [← caught_cast_iff]
    cases hcast : item b >>= castObject with
    | error e =>
      have hno : ¬ ∃ part, IsPart env b part := by
        rintro ⟨part, child, data, rfl, -⟩
        cases hcast
      simp only [hno, false_implies, not_false_eq_true, true_implies, true_and]
      exact caught_error_iff.trans caught_error_iff.symm
    | ok child =>
      obtain ⟨v, hv, hchild⟩ := bind_eq_ok.mp hcast
      obtain rfl := item_eq_ok.mp hv
      obtain rfl := castObject_eq_ok.mp hchild
      change Caught (getJSONObject child "data" >>= fun data => newsDesc env body (desc ++ contentOf env data)) ↔ _
      cases hdata : getJSONObject child "data" with
      | error e =>
        have hno : ¬ ∃ part, IsPart env (some (.object child)) part := by
          rintro ⟨part, child', data, hchild', hdata', -⟩
          obtain rfl := Json.object.inj (Option.some.inj hchild')
          rw [getJSONObject_eq_ok.mpr hdata'] at hdata
          cases hdata
        have hcaught : Caught (getJSONObject child "data") := caught_getJSONObject
        rw [hdata] at hcaught
        exact iff_of_true (caught_error_iff.mpr (caught_error_iff.mp hcaught))
          ⟨fun h => absurd h hno, fun _ => caught_ok child⟩
      | ok data =>
        have hpart : ∃ part, IsPart env (some (.object child)) part :=
          ⟨_, child, data, rfl, getJSONObject_eq_ok.mp hdata, rfl⟩
        simp only [hpart, true_implies, true_and, not_true_eq_false, false_implies, and_true]
        exact ih

theorem newsItem_eq_ok (a : Option Json) (n : News) : newsItem env a = .ok n ↔ IsNews env a n := by
  unfold newsItem IsNews
  simp only [bind_eq_ok, item_eq_ok, castObject_eq_ok, getString_eq_ok, getJSONArray_eq_ok, newsDesc_eq_ok,
    Option.map_eq_some_iff]
  constructor
  · rintro ⟨_, rfl, child, rfl, _, ⟨title, htitle, rfl⟩, _, ⟨date, hdate, rfl⟩, body, hbody, _,
      ⟨parts, hparts, rfl⟩, h⟩
    refine ⟨child, title, date, body, parts, rfl, htitle, hdate, hbody, hparts, ?_⟩
    rw [String.empty_append] at h
    exact (Except.ok.inj h).symm
  · rintro ⟨child, title, date, body, parts, rfl, htitle, hdate, hbody, hparts, rfl⟩
    refine ⟨_, rfl, child, rfl, _, ⟨title, htitle, rfl⟩, _, ⟨date, hdate, rfl⟩, body, hbody, _,
      ⟨parts, hparts, rfl⟩, ?_⟩
    rw [String.empty_append]
    rfl

theorem matchesItem_eq_ok (a : Option Json) (f : Fixture) : matchesItem env a = .ok f ↔ IsFixture env a f := by
  unfold matchesItem IsFixture
  simp only [bind_eq_ok, item_eq_ok, castObject_eq_ok, getString_eq_ok, getJSONObject_eq_ok, getLong_eq_ok,
    goal_eq_ok]
  constructor
  · rintro ⟨_, rfl, item, rfl, fixture, hfixture, timestamp, htime, venue, hvenue, _, hvn, status, hstatus, _, hsn,
      league, hleague, _, hround, teams, hteams, home, hhome, _, hhn, home', hhome', _, hhl, away, haway, _, han,
      away', haway', _, hal, goals, hgoals, _, hhg, _, hag, h⟩
    obtain rfl := Except.ok.inj h
    obtain rfl := Json.object.inj (Option.some.inj (hhome.symm.trans hhome'))
    obtain rfl := Json.object.inj (Option.some.inj (haway.symm.trans haway'))
    exact ⟨item, fixture, venue, status, league, teams, home, away, goals, timestamp, rfl, hfixture, htime, rfl,
      hvenue, hvn, hstatus, hsn, hleague, hround, hteams, hhome, hhn, hhl, haway, han, hal, hgoals, hhg, hag⟩
  · rintro ⟨item, fixture, venue, status, league, teams, home, away, goals, timestamp, rfl, hfixture, htime, hdate,
      hvenue, hvn, hstatus, hsn, hleague, hround, hteams, hhome, hhn, hhl, haway, han, hal, hgoals, hhg, hag⟩
    refine ⟨_, rfl, item, rfl, fixture, hfixture, timestamp, htime, venue, hvenue, _, hvn, status, hstatus, _, hsn,
      league, hleague, _, hround, teams, hteams, home, hhome, _, hhn, home, hhome, _, hhl, away, haway, _, han,
      away, haway, _, hal, goals, hgoals, _, hhg, _, hag, ?_⟩
    rw [← hdate]
    rfl

theorem standingsItem_eq_ok (a : Option Json) (t : Team) : standingsItem env a = .ok t ↔ IsTeam env a t := by
  unfold standingsItem IsTeam
  simp only [bind_eq_ok, itemObject_eq_ok, getString_eq_ok, getJSONObject_eq_ok, getInt_eq_ok]
  constructor
  · rintro ⟨team, rfl, _, hrank, detail, hdetail, _, hname, _, hlogo, _, hpts, _, hgd, _, hform, record, hrecord, _,
      hmp, _, hw, _, hd, _, hl, h⟩
    obtain rfl := Except.ok.inj h
    exact ⟨team, detail, record, rfl, hrank, hdetail, hname, hlogo, hpts, hgd, hform, hrecord, hmp, hw, hd, hl⟩
  · rintro ⟨team, detail, record, rfl, hrank, hdetail, hname, hlogo, hpts, hgd, hform, hrecord, hmp, hw, hd, hl⟩
    exact ⟨team, rfl, _, hrank, detail, hdetail, _, hname, _, hlogo, _, hpts, _, hgd, _, hform, record, hrecord, _,
      hmp, _, hw, _, hd, _, hl, rfl⟩

/-! ### Feeds -/

theorem hasList_iff {name result : String} {items : List (Option Json)} :
    (newJSONObject env result >>= fun o => getJSONArray o name) = .ok items ↔ HasList env name result items := by
  unfold HasList
  simp only [bind_eq_ok, newJSONObject_eq_ok, getJSONArray_eq_ok]

theorem hasStandings_iff {result : String} {items : List (Option Json)} :
    standingsList env result = .ok items ↔ HasStandings env result items := by
  unfold standingsList HasStandings HasList
  simp only [bind_eq_ok, newJSONObject_eq_ok, getJSONArray_eq_ok, itemObject_eq_ok, itemArray_eq_ok,
    getJSONObject_eq_ok, getInt_eq_ok, Option.join_eq_some_iff, Option.isSome_iff_exists]
  constructor
  · rintro ⟨o, ho, response, hresponse, item, hitem, league, hleague, id, hid, standings, hstandings, hitems⟩
    exact ⟨response, item, league, standings, ⟨o, ho, hresponse⟩, hitem, hleague, ⟨id, hid⟩, hstandings, hitems⟩
  · rintro ⟨response, item, league, standings, ⟨o, ho, hresponse⟩, hitem, hleague, ⟨id, hid⟩, hstandings, hitems⟩
    exact ⟨o, ho, response, hresponse, item, hitem, league, hleague, id, hid, standings, hstandings, hitems⟩

theorem caught_list {name result : String} :
    Caught (newJSONObject env result >>= fun o => getJSONArray o name) :=
  caught_newJSONObject.bind fun _ => caught_getJSONArray

theorem caught_standingsList {result : String} : Caught (standingsList env result) :=
  caught_newJSONObject.bind fun _ => caught_getJSONArray.bind fun _ => caught_itemObject.bind fun _ =>
    caught_getJSONObject.bind fun _ => caught_getInt.bind fun _ => caught_getJSONArray.bind fun _ =>
      caught_itemArray

/-- **A parser returns what it should exactly when** the entries before the first
incomplete item are as required and that item fails with what is caught. -/
theorem feed_right_iff {β : Type} {list : Except Failure (List (Option Json))}
    {outer : List (Option Json) → Prop} {read : Option Json → Except Failure β} {entry : Option Json → β → Prop}
    (houter : ∀ items, list = .ok items ↔ outer items) (hlist : Caught list)
    (hread : ∀ a b, read a = .ok b ↔ entry a b) (D : β → Prop) :
    (∃ l, feed list read = .ok l ∧ IsFeed outer entry l ∧ ∀ b ∈ l, D b) ↔
      ∀ items, outer items → UpToFirst (fun a => ∃ b, entry a b) (fun a => ∀ b, entry a b → D b)
        (fun a => Caught (read a)) items := by
  cases list with
  | error e =>
    obtain rfl := caught_error_iff.mp hlist
    have hno : ∀ items, ¬ outer items := fun items h => nomatch (houter items).mpr h
    exact iff_of_true ⟨[], rfl, ⟨fun items h => absurd h (hno items), fun _ => rfl⟩, by simp⟩
      fun items h => absurd h (hno items)
  | ok items =>
    have hitems : outer items := (houter items).mp rfl
    have honly : ∀ items', outer items' → items' = items := fun items' h =>
      (Except.ok.inj ((houter items').mpr h)).symm
    have hcollect := @collect_longest_iff _ β _ read (· == .jsonException) entry hread D items
    simp only [beq_iff_eq] at hcollect
    constructor
    · rintro ⟨l, hl, hfeed, hD⟩ items' h
      obtain rfl := honly items' h
      exact hcollect.mp ⟨l, hl, hfeed.1 items' h, hD⟩
    · intro h
      obtain ⟨l, hl, hlongest, hD⟩ := hcollect.mpr (h items hitems)
      refine ⟨l, hl, ⟨fun items' h' => ?_, fun hno => absurd hitems (hno items)⟩, hD⟩
      obtain rfl := honly items' h'
      exact hlongest

end Items

/-! ### Dates -/

section Dates

variable {env : Platform}

theorem formatNewsDate_isSome_iff {date : String} : (formatNewsDate env date).isSome ↔ DateReadable env date := by
  unfold formatNewsDate DateReadable StringUtil.split
  rw [List.getElem?_map, Words.words_getElem_zero, ← String.toList_eq_nil_iff]
  split
  · rename_i h
    simp only [Option.map_some, Option.bind_some, Option.isSome_map]
    exact ⟨fun hdate => ⟨h, hdate⟩, fun hdate => hdate.2⟩
  · rename_i h
    exact iff_of_false (by simp) fun hdate => h hdate.1

end Dates

/-! ### The three feeds -/

section Feeds

variable {env : Platform}

theorem caught_newsItem_iff {a : Option Json} : Caught (newsItem env a) ↔
    Plain a ∧ ∀ child body, a = some (.object child) → (child.lookup "title").isSome →
      (child.lookup "published_at").isSome → child.lookup "body" = some (.array body) →
      UpToFirst (fun b => ∃ part, IsPart env b part) (fun _ => True) Plain body := by
  cases a with
  | none => exact iff_of_true caught_json ⟨.inl rfl, nofun⟩
  | some v =>
    cases v with
    | object child =>
      have hbody : ∀ title date body, Caught (newsDesc env body "" >>= fun desc =>
          (pure ⟨"livescore.com", date, title, desc⟩ : Except Failure News)) ↔
          UpToFirst (fun b => ∃ part, IsPart env b part) (fun _ => True) Plain body := by
        intro title date body
        rw [← @caught_newsDesc_iff env body ""]
        cases newsDesc env body "" with
        | error e => exact caught_error_iff.trans caught_error_iff.symm
        | ok desc => exact iff_of_true (caught_ok _) (caught_ok _)
      have hchain : Caught (newsItem env (some (.object child))) ↔
          ∀ title, getString env child "title" = .ok title → ∀ date, getString env child "published_at" = .ok date →
            ∀ body, getJSONArray child "body" = .ok body →
              UpToFirst (fun b => ∃ part, IsPart env b part) (fun _ => True) Plain body := by
        refine (caught_bind_iff caught_getString).trans (forall₂_congr fun title _ => ?_)
        refine (caught_bind_iff caught_getString).trans (forall₂_congr fun date _ => ?_)
        exact (caught_bind_iff caught_getJSONArray).trans (forall₂_congr fun body _ => hbody title date body)
      rw [hchain]
      simp only [getString_eq_ok, getJSONArray_eq_ok, Option.map_eq_some_iff, Option.isSome_iff_exists]
      constructor
      · intro h
        refine ⟨.inr ⟨child, rfl⟩, ?_⟩
        rintro child' body hchild ⟨title, htitle⟩ ⟨date, hdate⟩ hlist
        obtain rfl := Json.object.inj (Option.some.inj hchild)
        exact h _ ⟨title, htitle, rfl⟩ _ ⟨date, hdate, rfl⟩ body hlist
      · rintro ⟨-, h⟩ _ ⟨title, htitle, -⟩ _ ⟨date, hdate, -⟩ body hlist
        exact h child body rfl ⟨title, htitle⟩ ⟨date, hdate⟩ hlist
    | _ => exact iff_of_false (fun h => nomatch h _ rfl) (by simp [Plain])

theorem caught_matchesItem_iff {a : Option Json} : Caught (matchesItem env a) ↔ Plain a := by
  have hrest : ∀ o, Caught (matchesItem env (some (.object o))) := fun o =>
    caught_getJSONObject.bind fun _ => caught_getLong.bind fun _ => caught_getJSONObject.bind fun _ =>
      caught_getString.bind fun _ => caught_getJSONObject.bind fun _ => caught_getString.bind fun _ =>
      caught_getJSONObject.bind fun _ => caught_getString.bind fun _ => caught_getJSONObject.bind fun _ =>
      caught_getJSONObject.bind fun _ => caught_getString.bind fun _ => caught_getJSONObject.bind fun _ =>
      caught_getString.bind fun _ => caught_getJSONObject.bind fun _ => caught_getString.bind fun _ =>
      caught_getJSONObject.bind fun _ => caught_getString.bind fun _ => caught_getJSONObject.bind fun _ =>
      caught_goal.bind fun _ => caught_goal.bind fun _ => caught_ok _
  cases a with
  | none => exact iff_of_true caught_json (.inl rfl)
  | some v =>
    cases v with
    | object o => exact iff_of_true (hrest o) (.inr ⟨o, rfl⟩)
    | _ => exact iff_of_false (fun h => nomatch h _ rfl) (by simp [Plain])

theorem caught_standingsItem {a : Option Json} : Caught (standingsItem env a) :=
  caught_itemObject.bind fun _ => caught_getInt.bind fun _ => caught_getJSONObject.bind fun _ =>
    caught_getString.bind fun _ => caught_getString.bind fun _ => caught_getInt.bind fun _ =>
    caught_getInt.bind fun _ => caught_getString.bind fun _ => caught_getJSONObject.bind fun _ =>
    caught_getInt.bind fun _ => caught_getInt.bind fun _ => caught_getInt.bind fun _ =>
    caught_getInt.bind fun _ => caught_ok _

theorem news_iff (result : String) : NewsRight env result ↔ NewsReadable env result := by
  have hfeed := feed_right_iff (fun _ => hasList_iff) (@caught_list env "data" result) (@newsItem_eq_ok env)
    fun n : News => (formatNewsDate env n.mDate).isSome = true
  refine hfeed.trans (forall₂_congr fun items _ => upToFirst_congr (fun _ => Iff.rfl) ?_ fun _ _ =>
    caught_newsItem_iff)
  rintro a ⟨n, hn⟩
  obtain ⟨child, title, date, body, parts, rfl, htitle, hdate, hbody, hparts, -⟩ := id hn
  constructor
  · intro h child' date' hchild hdate'
    obtain rfl := Json.object.inj (Option.some.inj hchild)
    obtain rfl := Option.some.inj (hdate.symm.trans hdate')
    have hshown := h _ ⟨child, title, date, body, parts, rfl, htitle, hdate, hbody, hparts, rfl⟩
    exact formatNewsDate_isSome_iff.mp hshown
  · rintro h n' ⟨child', title', date', body', parts', hchild, -, hdate', -, -, rfl⟩
    have hreadable := h child' date' hchild hdate'
    exact formatNewsDate_isSome_iff.mpr hreadable

theorem matches_iff (result : String) : MatchesRight env result ↔ MatchesReadable env result := by
  have hfeed := feed_right_iff (fun _ => hasList_iff) (@caught_list env "response" result) (@matchesItem_eq_ok env)
    fun _ : Fixture => True
  simp only [implies_true, and_true] at hfeed
  exact hfeed.trans (forall₂_congr fun items _ => upToFirst_congr (fun _ => Iff.rfl) (fun _ _ => Iff.rfl)
    fun _ _ => caught_matchesItem_iff)

theorem standings_right (result : String) : StandingsRight env result := by
  have hfeed := feed_right_iff (fun _ => hasStandings_iff) (@caught_standingsList env result) (@standingsItem_eq_ok env)
    fun _ : Team => True
  simp only [implies_true, and_true] at hfeed
  exact hfeed.mpr fun items _ => upToFirst_of_forall (fun _ => trivial) (fun _ => caught_standingsItem) items

/-- What is returned is always right; so it is enough that something is. -/
theorem getMatchesJSON_isOk_iff (result : String) : (∃ l, getMatchesJSON env result = .ok l) ↔ MatchesReadable env result := by
  rw [← matches_iff]
  refine ⟨?_, fun ⟨l, hl, _⟩ => ⟨l, hl⟩⟩
  rintro ⟨l, hl⟩
  refine ⟨l, hl, ?_⟩
  unfold getMatchesJSON feed at hl
  split at hl
  · rename_i items hitems
    have hlongest := longest_of_collect matchesItem_eq_ok hl
    refine ⟨fun items' h => ?_, fun hno => absurd (hasList_iff.mp hitems) (hno items)⟩
    obtain rfl := Except.ok.inj (hitems.symm.trans (hasList_iff.mpr h))
    exact hlongest
  · rename_i hlist
    refine ⟨fun items h => ?_, fun _ => (Except.ok.inj hl).symm⟩
    exact nomatch hlist.symm.trans (hasList_iff.mpr h)
  · cases hl

/-- **The parsers return what they should for a response exactly when** the first item
that is not complete fails with what is caught, and the dates of the news before it can
be read; the standings do so for every response. -/
theorem feeds_iff (result : String) :
    (NewsRight env result ∧ MatchesRight env result ∧ StandingsRight env result) ↔
      NewsReadable env result ∧ MatchesReadable env result := by
  rw [news_iff, matches_iff]
  exact and_congr_right fun _ => and_iff_left (standings_right result)

end Feeds

/-! A list with a number for its first item, and a news item whose date is a number. -/

def numberItem := "\x7b\"data\":[1]\x7d"

def numberDate := "\x7b\"data\":[\x7b\"title\":\"Derby\",\"published_at\":5,\"body\":[]\x7d]\x7d"

/-- The two texts as JSON; a date needs a dash after the year. -/
def sample : Platform where
  nextValue s :=
    if s = numberItem then some (.object [("data", .array [some (.number "1")])])
    else if s = numberDate then
      some (.object [("data", .array [some (.object [("title", .string "Derby"), ("published_at", .number "5"),
        ("body", .array [])])])])
    else none
  toText
    | .string s | .number s => s
    | _ => ""
  toInteger _ := none
  toLong _ := none
  parseNewsDate s := if s.toList[4]? = some '-' then some 0 else none
  newsFormat _ := "01/01/1970 00:00"
  unixFormat _ := "Jan 01, 1970"

theorem news_crash : getLSNewsJSON sample numberItem = .error .classCastException ∧
    ¬ NewsRight sample numberItem ∧
    getLSNewsJSON sample numberDate = .ok [⟨"livescore.com", "5", "Derby", ""⟩] ∧
    formatNewsDate sample "5" = none := by
  have hcrash : getLSNewsJSON sample numberItem = .error .classCastException := rfl
  refine ⟨hcrash, ?_, rfl, rfl⟩
  rintro ⟨l, hl, -⟩
  rw [hcrash] at hl
  cases hl

end APIUtil
end FootballGallery
