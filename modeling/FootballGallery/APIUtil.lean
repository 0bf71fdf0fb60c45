/-
# `f_utils/APIUtil`: the feeds

The three parsers of the servers' answers and the date that is shown of a news
item. `org.json` and `SimpleDateFormat` are parameters: what a text is as JSON, how
a value is read as a text or a number, and which dates can be read.

The parsers catch `JSONException`, which the getters throw. Two of them take the
items of a list by `get` and a cast, and a cast that fails is not caught; and a date
that cannot be read is `null` when it is formatted.

Key definitions: `Json`, `Platform`, `getLSNewsJSON`, `getMatchesJSON`,
`getStandingsJSON`, `formatNewsDate`, `Caught`.
Key theorems: `bind_eq_ok`, `Caught.bind`, `caught_cast_iff`.
-/
import FootballGallery.Lib.Reading
import FootballGallery.Markup
import FootballGallery.Summaries

namespace FootballGallery

open Reading

/-! ### org.json -/

/-- A parsed value. A list can have the null reference for an item, which is no value. -/
inductive Json where
  | null
  | bool (b : Bool)
  | number (text : String)
  | string (s : String)
  | array (items : List (Option Json))
  | object (fields : List (String × Json))

abbrev Fields := List (String × Json)

/-- What the parsers throw. -/
inductive Failure where
  | jsonException
  | classCastException
deriving DecidableEq

/-- The code outside of the app that the parsers rely on. -/
structure Platform where
  /-- what `JSONTokener.nextValue` makes of a text, unless it throws -/
  nextValue : String → Option Json
  /-- the coercions of `getString`, `getInt` and `getLong` -/
  toText : Json → String
  toInteger : Json → Option ℤ
  toLong : Json → Option ℤ
  /-- the pattern `yyyy-MM-dd'T'HH:mm:ss`, and `MM/dd/yyyy HH:mm` -/
  parseNewsDate : String → Option ℤ
  newsFormat : ℤ → String
  /-- the pattern `MMM dd, yyyy`, in the zone `GMT-4` -/
  unixFormat : ℤ → String

/-- `e_models/objects/Fixture` -/
structure Fixture where
  mRound : String
  mDate : String
  mVenue : String
  mStatus : String
  mHomeTeam : String
  mAwayTeam : String
  mHomeLogo : String
  mAwayLogo : String
  mHomeGoal : ℤ
  mAwayGoal : ℤ
deriving DecidableEq

/-- `e_models/objects/Team` -/
structure Team where
  mRank : ℤ
  mLogoUrl : String
  mTeamName : String
  mMP : ℤ
  mPts : ℤ
  mW : ℤ
  mD : ℤ
  mL : ℤ
  mGD : ℤ
  mLastFive : String
deriving DecidableEq

namespace APIUtil

section Getters

def get (o : Fields) (name : String) : Except Failure Json :=
  match o.lookup name with
  | some v => .ok v
  | none => .error .jsonException

def getJSONObject (o : Fields) (name : String) : Except Failure Fields := do
  match ← get o name with
  | .object d => return d
  | _ => throw .jsonException

def getJSONArray (o : Fields) (name : String) : Except Failure (List (Option Json)) := do
  match ← get o name with
  | .array items => return items
  | _ => throw .jsonException

/-- `JSONArray.get`, of an item -/
def item (a : Option Json) : Except Failure Json :=
  match a with
  | some v => .ok v
  | none => .error .jsonException

/-- `(JSONObject)` -/
def castObject (v : Json) : Except Failure Fields :=
  match v with
  | .object o => .ok o
  | _ => .error .classCastException

/-- `JSONArray.getJSONObject`, of an item -/
def itemObject (a : Option Json) : Except Failure Fields :=
  match a with
  | some (.object o) => .ok o
  | _ => .error .jsonException

/-- `JSONArray.getJSONArray`, of an item -/
def itemArray (a : Option Json) : Except Failure (List (Option Json)) :=
  match a with
  | some (.array items) => .ok items
  | _ => .error .jsonException

variable (env : Platform)

/-- `new JSONObject` -/
def newJSONObject (result : String) : Except Failure Fields :=
  match env.nextValue result with
  | some (.object o) => .ok o
  | _ => .error .jsonException

def getString (o : Fields) (name : String) : Except Failure String := return env.toText (← get o name)

def getInt (o : Fields) (name : String) : Except Failure ℤ := do
  match env.toInteger (← get o name) with
  | some n => return n
  | none => throw .jsonException

def getLong (o : Fields) (name : String) : Except Failure ℤ := do
  match env.toLong (← get o name) with
  | some n => return n
  | none => throw .jsonException

end Getters

/-! ### The parsers -/

section Parsers

variable (env : Platform)

/-- A parser: the list, and its items one after the other, all in one `try`. -/
def feed {β : Type} (list : Except Failure (List (Option Json))) (read : Option Json → Except Failure β) :
    Except Failure (List β) :=
  match list with
  | .ok items => collect read (· == .jsonException) items
  | .error .jsonException => .ok []
  | .error e => .error e

/-- The loop over the body of a news item. -/
def newsDesc : List (Option Json) → String → Except Failure String
  | [], desc => .ok desc
  | b :: body, desc => do
    let child_body ← castObject (← item b)
    let data_inner ← getJSONObject child_body "data"
    if (data_inner.lookup "content").isSome then
      let content ← getString env data_inner "content"
      newsDesc body (desc ++ withoutMarkup content)
    else newsDesc body desc

def newsItem (a : Option Json) : Except Failure News := do
  let child ← castObject (← item a)
  let author := "livescore.com"
  let title ← getString env child "title"
  let date ← getString env child "published_at"
  let body ← getJSONArray child "body"
  let desc ← newsDesc env body ""
  return ⟨author, date, title, desc⟩

def getLSNewsJSON (result : String) : Except Failure (List News) :=
  feed (do getJSONArray (← newJSONObject env result) "data") (newsItem env)

/-- `StringUtil.unixTimeToDateString`; the product is a `long`. -/
def unixTimeToDateString (unixTimestamp : ℤ) : String := env.unixFormat ((unixTimestamp * 1000).bmod (2 ^ 64))

/-- The goals of a team; `null` when the match has not been played. -/
def goal (goals : Fields) (name : String) : Except Failure ℤ := do
  match ← get goals name with
  | .null => return -1
  | _ => getInt env goals name

def matchesItem (a : Option Json) : Except Failure Fixture := do
  let item ← castObject (← item a)
  let fixture ← getJSONObject item "fixture"
  let date := unixTimeToDateString env (← getLong env fixture "timestamp")
  let venue ← getString env (← getJSONObject fixture "venue") "name"
  let status ← getString env (← getJSONObject fixture "status") "short"
  let league ← getJSONObject item "league"
  let round ← getString env league "round"
  let teams ← getJSONObject item "teams"
  let hometeam ← getString env (← getJSONObject teams "home") "name"
  let homelogo ← getString env (← getJSONObject teams "home") "logo"
  let awayteam ← getString env (← getJSONObject teams "away") "name"
  let awaylogo ← getString env (← getJSONObject teams "away") "logo"
  let goals ← getJSONObject item "goals"
  let homegoal ← goal env goals "home"
  let awaygoal ← goal env goals "away"
  return ⟨round, date, venue, status, hometeam, awayteam, homelogo, awaylogo, homegoal, awaygoal⟩

def getMatchesJSON (result : String) : Except Failure (List Fixture) :=
  feed (do getJSONArray (← newJSONObject env result) "response") (matchesItem env)

def standingsItem (a : Option Json) : Except Failure Team := do
  let team ← itemObject a
  let rank ← getInt env team "rank"
  let teamDetail ← getJSONObject team "team"
  let teamName ← getString env teamDetail "name"
  let logoUrl ← getString env teamDetail "logo"
  let pts ← getInt env team "points"
  let gd ← getInt env team "goalsDiff"
  let lastFive ← getString env team "form"
  let recordDetail ← getJSONObject team "all"
  let mp ← getInt env recordDetail "played"
  let w ← getInt env recordDetail "win"
  let d ← getInt env recordDetail "draw"
  let l ← getInt env recordDetail "lose"
  return ⟨rank, logoUrl, teamName, mp, pts, w, d, l, gd, lastFive⟩

/-- The list of the first group of the first league. -/
def standingsList (result : String) : Except Failure (List (Option Json)) := do
  let response ← getJSONArray (← newJSONObject env result) "response"
  let item ← itemObject response[0]?.join
  let league ← getJSONObject item "league"
  let _leagueId ← getInt env league "id"
  let standings ← getJSONArray league "standings"
  itemArray standings[0]?.join

def getStandingsJSON (result : String) : Except Failure (List Team) := feed (standingsList env result) (standingsItem env)

/-- `StringUtil.formatNewsDate`; `none`: it throws. -/
def formatNewsDate (date : String) : Option String :=
  (StringUtil.split '+' date)[0]?.bind fun plusRemoved => (env.parseNewsDate plusRemoved).map env.newsFormat

end Parsers

/-! ### The getters -/

section GetterLemmas

variable {α β : Type} {o d : Fields} {name : String}

theorem bind_eq_ok {x : Except Failure α} {f : α → Except Failure β} {b : β} :
    (x >>= f) = .ok b ↔ ∃ a, x = .ok a ∧ f a = .ok b := by
  cases x with
  | error e => exact iff_of_false nofun fun ⟨_, h, _⟩ => nomatch h
  | ok a =>
    constructor
    · intro h
      exact ⟨a, rfl, h⟩
    · rintro ⟨a', ha, h⟩
      obtain rfl := Except.ok.inj ha
      exact h

theorem get_eq_ok {v : Json} : get o name = .ok v ↔ o.lookup name = some v := by
  unfold get
  cases o.lookup name with
  | none => simp
  | some v' => simp

theorem getJSONObject_eq_ok : getJSONObject o name = .ok d ↔ o.lookup name = some (.object d) := by
  unfold getJSONObject
  simp only [bind_eq_ok, get_eq_ok]
  constructor
  · rintro ⟨v, hv, h⟩
    cases v with
    | object d' =>
      obtain rfl := Except.ok.inj h
      exact hv
    | _ => cases h
  · intro h
    exact ⟨_, h, rfl⟩

theorem getJSONArray_eq_ok {items : List (Option Json)} :
    getJSONArray o name = .ok items ↔ o.lookup name = some (.array items) := by
  unfold getJSONArray
  simp only [bind_eq_ok, get_eq_ok]
  constructor
  · rintro ⟨v, hv, h⟩
    cases v with
    | array items' =>
      obtain rfl := Except.ok.inj h
      exact hv
    | _ => cases h
  · intro h
    exact ⟨_, h, rfl⟩

theorem item_eq_ok {a : Option Json} {v : Json} : item a = .ok v ↔ a = some v := by
  unfold item
  cases a <;> simp

theorem castObject_eq_ok {v : Json} : castObject v = .ok o ↔ v = .object o := by
  unfold castObject
  cases v <;> simp

theorem itemObject_eq_ok {a : Option Json} : itemObject a = .ok o ↔ a = some (.object o) := by
  unfold itemObject
  split
  · simp
  · rename_i hno
    exact iff_of_false nofun fun h => hno o h

theorem itemArray_eq_ok {a : Option Json} {items : List (Option Json)} :
    itemArray a = .ok items ↔ a = some (.array items) := by
  unfold itemArray
  split
  · simp
  · rename_i hno
    exact iff_of_false nofun fun h => hno items h

variable {env : Platform}

theorem newJSONObject_eq_ok {result : String} :
    newJSONObject env result = .ok o ↔ env.nextValue result = some (.object o) := by
  unfold newJSONObject
  split
  · rename_i o' h
    simp [h]
  · rename_i hno
    exact iff_of_false nofun fun h => hno o h

theorem getString_eq_ok {s : String} : getString env o name = .ok s ↔ (o.lookup name).map env.toText = some s := by
  unfold getString
  simp only [bind_eq_ok, get_eq_ok, Option.map_eq_some_iff]
  exact exists_congr fun v => and_congr_right fun _ => ⟨Except.ok.inj, congrArg Except.ok⟩

theorem getInt_eq_ok {n : ℤ} : getInt env o name = .ok n ↔ (o.lookup name).bind env.toInteger = some n := by
  unfold getInt
  simp only [bind_eq_ok, get_eq_ok, Option.bind_eq_some_iff]
  refine exists_congr fun v => and_congr_right fun _ => ?_
  cases env.toInteger v with
  | none => exact iff_of_false nofun nofun
  | some m => exact ⟨fun h => congrArg some (Except.ok.inj h), fun h => congrArg Except.ok (Option.some.inj h)⟩

theorem getLong_eq_ok {n : ℤ} : getLong env o name = .ok n ↔ (o.lookup name).bind env.toLong = some n := by
  unfold getLong
  simp only [bind_eq_ok, get_eq_ok, Option.bind_eq_some_iff]
  refine exists_congr fun v => and_congr_right fun _ => ?_
  cases env.toLong v with
  | none => exact iff_of_false nofun nofun
  | some m => exact ⟨fun h => congrArg some (Except.ok.inj h), fun h => congrArg Except.ok (Option.some.inj h)⟩

/-- `-1` for no goals yet. -/
def IsGoal (env : Platform) (v : Json) (n : ℤ) : Prop := match v with
  | .null => n = -1
  | v => env.toInteger v = some n

theorem goal_eq_ok {n : ℤ} : goal env o name = .ok n ↔ ∃ v ∈ o.lookup name, IsGoal env v n := by
  unfold goal
  simp only [bind_eq_ok, get_eq_ok, Option.mem_def]
  refine exists_congr fun v => and_congr_right fun hv => ?_
  cases v with
  | null => exact ⟨fun h => (Except.ok.inj h).symm, fun h => congrArg Except.ok h.symm⟩
  | _ =>
    refine getInt_eq_ok.trans ?_
    rw [hv]
    exact Iff.rfl

/-! ### What is caught -/

/-- Nothing is thrown but what the parsers catch. -/
def Caught (x : Except Failure α) : Prop := ∀ e, x = .error e → e = .jsonException

theorem caught_ok (a : α) : Caught (.ok a : Except Failure α) := nofun

theorem caught_error_iff {e : Failure} : Caught (.error e : Except Failure α) ↔ e = .jsonException :=
  ⟨fun h => h e rfl, fun h _ he' => (Except.error.inj he').symm.trans h⟩

theorem caught_json : Caught (.error .jsonException : Except Failure α) := caught_error_iff.mpr rfl

theorem Caught.bind {x : Except Failure α} {f : α → Except Failure β} (hx : Caught x) (hf : ∀ a, Caught (f a)) :
    Caught (x >>= f) := by
  cases x with
  | error e => exact caught_error_iff.mpr (caught_error_iff.mp hx)
  | ok a => exact hf a

theorem caught_bind_iff {x : Except Failure α} {f : α → Except Failure β} (hx : Caught x) :
    Caught (x >>= f) ↔ ∀ a, x = .ok a → Caught (f a) := by
  cases x with
  | error e => exact iff_of_true (caught_error_iff.mpr (caught_error_iff.mp hx)) nofun
  | ok a => exact ⟨fun h a' ha' => Except.ok.inj ha' ▸ h, fun h => h a rfl⟩

theorem caught_get : Caught (get o name) := by
  unfold get
  split
  · exact caught_ok _
  · exact caught_json

theorem caught_getJSONObject : Caught (getJSONObject o name) :=
  caught_get.bind fun v => by
    cases v with
    | object d => exact caught_ok d
    | _ => exact caught_json

theorem caught_getJSONArray : Caught (getJSONArray o name) :=
  caught_get.bind fun v => by
    cases v with
    | array items => exact caught_ok items
    | _ => exact caught_json

theorem caught_itemObject {a : Option Json} : Caught (itemObject a) := by
  unfold itemObject
  split
  · exact caught_ok _
  · exact caught_json

theorem caught_itemArray {a : Option Json} : Caught (itemArray a) := by
  unfold itemArray
  split
  · exact caught_ok _
  · exact caught_json

theorem caught_newJSONObject {result : String} : Caught (newJSONObject env result) := by
  unfold newJSONObject
  split
  · exact caught_ok _
  · exact caught_json

theorem caught_getString : Caught (getString env o name) := caught_get.bind fun _ => caught_ok _

theorem caught_getInt : Caught (getInt env o name) :=
  caught_get.bind fun v => by
    cases env.toInteger v with
    | none => exact caught_json
    | some n => exact caught_ok n

theorem caught_getLong : Caught (getLong env o name) :=
  caught_get.bind fun v => by
    cases env.toLong v with
    | none => exact caught_json
    | some n => exact caught_ok n

theorem caught_goal : Caught (goal env o name) :=
  caught_get.bind fun v => by
    cases v with
    | null => exact caught_ok _
    | _ => exact caught_getInt

/-- The cast does not fail: an object, or nothing, for which `get` throws. -/
def Plain (a : Option Json) : Prop := a = none ∨ ∃ o, a = some (.object o)

/-- The cast of an item fails unless it is an object or nothing. -/
theorem caught_cast_iff {a : Option Json} : Caught (item a >>= castObject) ↔ Plain a := by
  cases a with
  | none => exact iff_of_true caught_json (.inl rfl)
  | some v =>
    cases v with
    | object o => exact iff_of_true (caught_ok o) (.inr ⟨o, rfl⟩)
    | _ => exact iff_of_false (fun h => nomatch h _ rfl) (by simp [Plain])

end GetterLemmas

end APIUtil
end FootballGallery
