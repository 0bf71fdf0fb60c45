/-
# `core/LoadVC.swift`, `core/TabBarController.swift`: the news of a payload

Two view controllers make the news of a server's answer, each with its own copy of
`convertJson`. The copies read the items of the payload alike, into variables that
live outside of the loop: the description of an item is appended to that of the
items before it, and the timestamp of an item is its title. One copy makes a `News`
at each item, the other one after the last.

A cast by `as!` that fails and an index out of bounds stop the program, here `none`.

Key definitions: `Value`, `readItem`, `LoadVC.convertJson`, `TabBarController.convertJson`,
`Convertible`, `OwnNews`.
Key theorems: `readItem_eq`, `carries`, `convertJson_own_iff`, `convertJson_agree_iff`.
-/
import FootballGallery.Lib.Carry
import FootballGallery.Ios.Article

namespace FootballGallery
namespace Ios

/-! ### The payload -/

/-- What `JSONSerialization` makes of a text; a truth value is a number. -/
inductive Value where
  | null
  | number (text : String)
  | string (s : String)
  | array (items : List Value)
  | dictionary (fields : List (String × Value))

abbrev Dictionary := List (String × Value)

namespace Value

/-- The cast to `String` -/
def asString : Value → Option String
  | string s => some s
  | _ => none

/-- The cast to `[String: Any]` -/
def asDictionary : Value → Option Dictionary
  | dictionary fields => some fields
  | _ => none

/-- The cast to `[[String: Any]]` -/
def asDictionaries : Value → Option (List Dictionary)
  | array items => items.mapM asDictionary
  | _ => none

end Value

/-! ### The converters -/

/-- The variables of `convertJson`. -/
structure Vars where
  title : String
  subtitle : String
  timestamp : String
  description : String

def Vars.empty : Vars := ⟨"", "", "", ""⟩

/-- The inner loop, over the bodies of an item. -/
def readBody (description : String) (body : Dictionary) : Option String := do
  let innerData ← (body.lookup "data").bind Value.asDictionary
  match (innerData.lookup "content").bind Value.asString with
  | some content => return description ++ content
  | none => return description

/-- What an item makes of the variables; the same in both copies. -/
def readItem (vars : Vars) (item : Dictionary) : Option Vars := do
  let title ← (item.lookup "title").bind Value.asString
  let subtitle := match item.lookup "subtitle" with
    | some v => v.asString.getD ""
    | none => ""
  let timestamp ← (item.lookup "title").bind Value.asString
  let bodies ← (item.lookup "body").bind Value.asDictionaries
  let description ← bodies.foldlM readBody vars.description
  return ⟨title, subtitle, timestamp, description⟩

variable (lang : Characters)

def newsOf (vars : Vars) : Option News :=
  News.init lang "liverscore.com" vars.timestamp vars.title vars.subtitle vars.description

/-- The news are appended inside of the loop over the items. -/
def LoadVC.convertJson (data : Dictionary) : Option (List News) :=
  match (data.lookup "data").bind Value.asDictionaries with
  | some outerData =>
    (outerData.foldlM (fun (p : Vars × List News) item =>
      (readItem p.1 item).bind fun vars => (newsOf lang vars).map fun news => (vars, p.2 ++ [news]))
      (Vars.empty, [])).map Prod.snd
  | none => some []

/-- The news are appended after the loop over the items. -/
def TabBarController.convertJson (data : Dictionary) : Option (List News) :=
  match (data.lookup "data").bind Value.asDictionaries with
  | some outerData => ((outerData.foldlM readItem Vars.empty).bind (newsOf lang)).map fun news => [news]
  | none => some []

/-! ### What an item says -/

/-- The text at `key`, or the empty one. -/
def text (d : Dictionary) (key : String) : String := ((d.lookup key).bind Value.asString).getD ""

def contentOf (body : Dictionary) : String :=
  (((body.lookup "data").bind Value.asDictionary).map (text · "content")).getD ""

/-- The contents of the item, one after the other. -/
def descriptionOf (item : Dictionary) : String :=
  String.join ((((item.lookup "body").bind Value.asDictionaries).getD []).map contentOf)

/-- The item has a title and a list of bodies, each with a data object. -/
structure Convertible (item : Dictionary) : Prop where
  title : ∃ s, item.lookup "title" = some (.string s)
  body : ∃ bodies, (item.lookup "body").bind Value.asDictionaries = some bodies ∧
    ∀ body ∈ bodies, ∃ innerData, body.lookup "data" = some (.dictionary innerData)

/-- `items` is the data array of the payload. -/
def HasItems (data : Dictionary) (items : List Dictionary) : Prop :=
  (data.lookup "data").bind Value.asDictionaries = some items

/-- The news has what the item says, and nothing else. -/
structure OwnNews (item : Dictionary) (news : News) : Prop where
  title : news.mTitle = text item "title"
  subtitle : news.mSubtitle = text item "subtitle"
  timestamp : timestampToTimeGap lang (text item "published_at") = some news.mTimestamp
  description : news.mDescription = descriptionOf item

theorem readBody_eq {body innerData : Dictionary} (description : String)
    (h : body.lookup "data" = some (.dictionary innerData)) :
    readBody description body = some (description ++ contentOf body) := by
  have hcontent : contentOf body = ((innerData.lookup "content").bind Value.asString).getD "" := by
    unfold contentOf
    rw [h]
    rfl
  unfold readBody
  rw [hcontent, h]
  show (match (innerData.lookup "content").bind Value.asString with
    | some content => some (description ++ content)
    | none => some description) = _
  cases (innerData.lookup "content").bind Value.asString with
  | none => simp
  | some content => rfl

theorem foldlM_readBody {bodies : List Dictionary} (description : String)
    (h : ∀ body ∈ bodies, ∃ innerData, body.lookup "data" = some (.dictionary innerData)) :
    bodies.foldlM readBody description = some (description ++ String.join (bodies.map contentOf)) := by
  induction bodies generalizing description with
  | nil => simp
  | cons body bodies ih =>
    obtain ⟨⟨innerData, hdata⟩, hbodies⟩ := List.forall_mem_cons.mp h
    rw [List.foldlM_cons, readBody_eq description hdata, List.map_cons, String.join_cons, ← String.append_assoc]
    exact ih (description ++ contentOf body) hbodies

/-- An item replaces every variable but the description, which it appends to. -/
theorem readItem_eq {item : Dictionary} (vars : Vars) (h : Convertible item) : readItem vars item =
    some ⟨text item "title", text item "subtitle", text item "title", vars.description ++ descriptionOf item⟩ := by
  obtain ⟨title, htitle⟩ := h.title
  obtain ⟨bodies, hbodies, hdata⟩ := h.body
  have hdescription : descriptionOf item = String.join (bodies.map contentOf) := by
    unfold descriptionOf
    rw [hbodies]
    rfl
  have hsubtitle : (match item.lookup "subtitle" with
      | some v => v.asString.getD ""
      | none => "") = text item "subtitle" := by
    unfold text
    cases item.lookup "subtitle" <;> rfl
  have htext : text item "title" = title := by
    unfold text
    rw [htitle]
    rfl
  unfold readItem
  rw [htitle, hbodies, hsubtitle, htext, hdescription]
  show (bodies.foldlM readBody vars.description).bind _ = _
  rw [foldlM_readBody vars.description hdata]
  rfl

section Loops

variable {lang} {data : Dictionary} {items : List Dictionary}

/-- What is carried from item to item is the description. -/
theorem carries : Carry.Carries readItem (newsOf lang) (fun vars => vars.description = "") Convertible
    (fun item => descriptionOf item = "") fun item => (timestampToTimeGap lang (text item "title")).isSome := by
  intro vars item hitem
  refine ⟨_, readItem_eq vars hitem, ?_, ?_⟩
  · exact String.append_eq_empty_iff
  · unfold newsOf News.init
    rw [Option.isSome_map]

theorem LoadVC.convertJson_eq (h : HasItems data items) :
    LoadVC.convertJson lang data = Carry.outputs readItem (newsOf lang) Vars.empty items := by
  unfold LoadVC.convertJson
  rw [h]
  refine (Carry.foldlM_eq_outputs Vars.empty items []).trans ?_
  cases Carry.outputs readItem (newsOf lang) Vars.empty items <;> rfl

theorem TabBarController.convertJson_eq (h : HasItems data items) : TabBarController.convertJson lang data =
    ((items.foldlM readItem Vars.empty).bind (newsOf lang)).map fun news => [news] := by
  unfold TabBarController.convertJson
  rw [h]

/-! ### Every news from its own item -/

/-- The title has a date, and it is that of the item. -/
def TitleDated (lang : Characters) (item : Dictionary) : Prop :=
  timestampToTimeGap lang (text item "title") = timestampToTimeGap lang (text item "published_at") ∧
    ∃ c ∈ lang.characters (text item "title"), c ≠ "T"

/-- The news of an item is its own when the description was empty before it, and its
title is dated. -/
theorem ownNews_iff {item : Dictionary} {vars vars' : Vars} (hitem : Convertible item)
    (h : readItem vars item = some vars') :
    (∃ news, newsOf lang vars' = some news ∧ OwnNews lang item news) ↔
      vars.description = "" ∧ TitleDated lang item := by
  obtain rfl := Option.some.inj ((readItem_eq vars hitem).symm.trans h)
  unfold newsOf News.init TitleDated
  rw [← timestampToTimeGap_isSome_iff]
  constructor
  · rintro ⟨news, hnews, hown⟩
    obtain ⟨timestamp, htimestamp, rfl⟩ := Option.map_eq_some_iff.mp hnews
    have hdescription : vars.description ++ descriptionOf item = descriptionOf item := hown.description
    have hdate : timestampToTimeGap lang (text item "published_at") = some timestamp := hown.timestamp
    refine ⟨String.append_eq_right_iff.mp hdescription, htimestamp.trans hdate.symm, ?_⟩
    show (timestampToTimeGap lang (text item "title")).isSome
    rw [htimestamp]
    rfl
  · rintro ⟨hempty, hdate, hsome⟩
    obtain ⟨timestamp, htimestamp⟩ := Option.isSome_iff_exists.mp hsome
    refine ⟨_, congrArg _ htimestamp, rfl, rfl, hdate.symm.trans htimestamp, ?_⟩
    show vars.description ++ descriptionOf item = descriptionOf item
    rw [hempty, String.empty_append]

/-- **Two lists of items are converted apart exactly when** some title has no date, the
first list has no content, or there is no second one. -/
theorem LoadVC.convertJson_append_iff {xs ys : List Dictionary} {dx dy : Dictionary}
    (hdata : HasItems data (xs ++ ys)) (hdx : HasItems dx xs) (hdy : HasItems dy ys)
    (hxs : ∀ item ∈ xs, Convertible item) (hys : ∀ item ∈ ys, Convertible item) :
    (LoadVC.convertJson lang data = (LoadVC.convertJson lang dx).bind fun news =>
        (LoadVC.convertJson lang dy).map (news ++ ·)) ↔
      (∃ item ∈ xs ++ ys, ¬ (timestampToTimeGap lang (text item "title")).isSome) ∨
        (∀ item ∈ xs, descriptionOf item = "") ∨ ys = [] := by
  have hempty : Vars.empty.description = "" := rfl
  rw [LoadVC.convertJson_eq hdata, LoadVC.convertJson_eq hdx, LoadVC.convertJson_eq hdy]
  refine carries.outputs_append_iff ?_ ?_ hxs hys hempty
  · intro vars vars' item hvars hvars' hitem
    rw [readItem_eq vars hitem, readItem_eq vars' hitem, hvars, hvars']
  · intro vars vars' item s₀ s₁ hvars hitem hs₀ hs₁ hout hsome
    obtain rfl := Option.some.inj ((readItem_eq vars hitem).symm.trans hs₀)
    obtain rfl := Option.some.inj ((readItem_eq vars' hitem).symm.trans hs₁)
    obtain ⟨timestamp, htimestamp⟩ := Option.isSome_iff_exists.mp hsome
    unfold newsOf News.init at hout
    dsimp only at hout
    rw [htimestamp] at hout
    have hdescription := congrArg News.mDescription (Option.some.inj hout)
    dsimp only at hdescription
    rw [hvars, String.empty_append] at hdescription
    exact String.append_eq_right_iff.mp hdescription

/-- **The news are those of the items, each from its own item, exactly when** every title
is dated and no item but the last has content. -/
theorem convertJson_own_iff (hdata : HasItems data items)
    (hitems : ∀ item ∈ items, Convertible item ∧ ∃ s, item.lookup "published_at" = some (.string s)) :
    ((∃ news, LoadVC.convertJson lang data = some news ∧ List.Forall₂ (OwnNews lang) items news) ∧
        ∀ xs ys dx dy, items = xs ++ ys → HasItems dx xs → HasItems dy ys →
          LoadVC.convertJson lang data = (LoadVC.convertJson lang dx).bind fun news =>
            (LoadVC.convertJson lang dy).map (news ++ ·)) ↔
      (∀ item ∈ items, TitleDated lang item) ∧ ∀ item ∈ items.dropLast, descriptionOf item = "" := by
  have hconv : ∀ item ∈ items, Convertible item := fun item h => (hitems item h).1
  have hempty : Vars.empty.description = "" := rfl
  have hown := carries.forall₂_outputs_iff (R := OwnNews lang) (fun _ _ _ => ownNews_iff) hconv hempty
  rw [LoadVC.convertJson_eq hdata, hown]
  refine and_iff_left_of_imp ?_
  rintro ⟨-, hquiet⟩ xs ys dx dy rfl hdx hdy
  obtain ⟨hxs, hys⟩ := List.forall_mem_append.mp hconv
  rw [← LoadVC.convertJson_eq hdata, LoadVC.convertJson_append_iff hdata hdx hdy hxs hys]
  by_cases hnil : ys = []
  · exact .inr (.inr hnil)
  · refine .inr (.inl fun item hitem => hquiet item ?_)
    rw [List.dropLast_append_of_ne_nil hnil]
    exact List.mem_append_left _ hitem

/-- An item without content. -/
def bare (title publishedAt : String) : Dictionary :=
  [("title", .string title), ("published_at", .string publishedAt), ("body", .array [])]

theorem bare_convertible (title publishedAt : String) : Convertible (bare title publishedAt) where
  title := ⟨title, rfl⟩
  body := ⟨[], rfl, by simp⟩

/-- A payload with the items. -/
def payload (items : List Dictionary) : Dictionary := [("data", .array (items.map .dictionary))]

theorem hasItems_payload (items : List Dictionary) : HasItems (payload items) items := by
  show (items.map Value.dictionary).mapM Value.asDictionary = some items
  induction items with
  | nil => rfl
  | cons item items ih =>
    rw [List.map_cons, List.mapM_cons, ih]
    rfl

/-- Two items whose titles are their dates, without content. -/
def dated : List Dictionary :=
  [bare "2022-02-26" "2022-02-26T18:00:00", bare "2022-02-27" "2022-02-27T10:00:00"]

theorem convertJson_own_dated : ∃ news, LoadVC.convertJson Characters.plain (payload dated) = some news ∧
    List.Forall₂ (OwnNews Characters.plain) dated news := by
  have hitems : ∀ item ∈ dated, Convertible item ∧ ∃ s, item.lookup "published_at" = some (.string s) :=
    List.forall_mem_cons.mpr ⟨⟨bare_convertible _ _, _, rfl⟩,
      List.forall_mem_singleton.mpr ⟨bare_convertible _ _, _, rfl⟩⟩
  have htitles : ∀ item ∈ dated, TitleDated Characters.plain item :=
    List.forall_mem_cons.mpr ⟨⟨by decide, by decide⟩, List.forall_mem_singleton.mpr ⟨by decide, by decide⟩⟩
  have hquiet : ∀ item ∈ dated.dropLast, descriptionOf item = "" := List.forall_mem_singleton.mpr (by decide)
  exact ((convertJson_own_iff (hasItems_payload dated) hitems).mpr ⟨htitles, hquiet⟩).1

/-- The news of an item shows its title for the date. -/
theorem title_for_date : Convertible (bare "Derby" "2022-02-27T10:00:00") ∧
    ¬ ∃ news, LoadVC.convertJson Characters.plain (payload [bare "Derby" "2022-02-27T10:00:00"]) = some news ∧
      List.Forall₂ (OwnNews Characters.plain) [bare "Derby" "2022-02-27T10:00:00"] news := by
  refine ⟨bare_convertible _ _, ?_⟩
  rintro ⟨news, hnews, hown⟩
  have hconverted : LoadVC.convertJson Characters.plain (payload [bare "Derby" "2022-02-27T10:00:00"]) =
      some [⟨"liverscore.com", "Derby", "Derby", "", ""⟩] := by decide
  obtain rfl := Option.some.inj (hconverted.symm.trans hnews)
  have hdate : timestampToTimeGap Characters.plain "2022-02-27T10:00:00" = some "Derby" :=
    (List.forall₂_cons.mp hown).1.timestamp
  revert hdate
  decide

/-! ### One news for all items -/

/-- **The converters agree exactly when** there are no items to convert, or there is one
item, or the title of the last item has no date. -/
theorem convertJson_agree_iff (hitems : ∀ items, HasItems data items → ∀ item ∈ items, Convertible item) :
    LoadVC.convertJson lang data = TabBarController.convertJson lang data ↔
      ∀ items, HasItems data items →
        items.length = 1 ∨ ∃ item, items.getLast? = some item ∧ ∀ c ∈ lang.characters (text item "title"), c = "T" := by
  cases hdata : (data.lookup "data").bind Value.asDictionaries with
  | none =>
    have hno : ∀ items, ¬ HasItems data items := fun items h => nomatch hdata.symm.trans h
    refine iff_of_true ?_ fun items h => absurd h (hno items)
    unfold LoadVC.convertJson TabBarController.convertJson
    rw [hdata]
  | some items =>
    have hconv := hitems items hdata
    have honly : ∀ items', HasItems data items' ↔ items = items' := fun items' => by
      unfold HasItems
      rw [hdata, Option.some.injEq]
    simp only [honly, forall_eq']
    rw [LoadVC.convertJson_eq hdata, TabBarController.convertJson_eq hdata]
    by_cases hnil : items = []
    · subst hnil
      refine iff_of_false ?_ (by simp)
      -- without an item the timestamp is still the empty one
      have hstop : newsOf lang Vars.empty = none := by
        unfold newsOf News.init
        rw [show Vars.empty.timestamp = "" from rfl, timestampToTimeGap_empty]
        rfl
      show some [] ≠ ((some Vars.empty).bind (newsOf lang)).map _
      rw [Option.bind_some, hstop]
      nofun
    · rw [carries.agree_iff hconv hnil]
      simp only [timestampToTimeGap_isSome_iff, ne_eq, not_exists, not_and, not_not]

/-- A payload with one item. -/
theorem convertJson_agree_one :
    LoadVC.convertJson Characters.plain (payload [bare "Derby" "2022-02-27T10:00:00"]) =
      TabBarController.convertJson Characters.plain (payload [bare "Derby" "2022-02-27T10:00:00"]) := by
  have honly : ∀ items, HasItems (payload [bare "Derby" "2022-02-27T10:00:00"]) items →
      items = [bare "Derby" "2022-02-27T10:00:00"] := fun items h =>
    (Option.some.inj ((hasItems_payload _).symm.trans h)).symm
  refine (convertJson_agree_iff fun items h item hitem => ?_).mpr fun items h => ?_
  · obtain rfl := honly items h
    obtain rfl := List.mem_singleton.mp hitem
    exact bare_convertible _ _
  · obtain rfl := honly items h
    exact .inl rfl

/-- Of two items one copy makes two news and the other one; without items one makes none
and the other stops. -/
theorem one_news_for_two :
    LoadVC.convertJson Characters.plain (payload [bare "Derby" "2022-02-27T10:00:00",
        bare "Final" "2022-02-28T10:00:00"]) ≠
      TabBarController.convertJson Characters.plain (payload [bare "Derby" "2022-02-27T10:00:00",
        bare "Final" "2022-02-28T10:00:00"]) ∧
    LoadVC.convertJson Characters.plain (payload []) = some [] ∧
    TabBarController.convertJson Characters.plain (payload []) = none := by
  decide

end Loops

end Ios
end FootballGallery
