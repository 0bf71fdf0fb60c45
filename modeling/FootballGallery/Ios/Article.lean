/-
# `models/Article.swift`

The news of the iOS app. A `News` is made with the part of a timestamp before its
first `T`, the date of a time like `2022-02-27T10:00:00`; a timestamp that has
nothing but `T`s has no such part, and the program stops.

Swift compares the characters of a text, its extended grapheme clusters: a `T` with
an accent is no `T`. How a text falls into characters is a parameter.

Key definitions: `Characters`, `News`, `News.init`, `timestampToTimeGap`.
Key theorem: `timestampToTimeGap_isSome_iff`.
-/
import FootballGallery.Lib.Words

namespace FootballGallery
namespace Ios

/-- The characters of a text. -/
structure Characters where
  characters : String → List String
  flatMap_characters : ∀ s, (characters s).flatMap String.toList = s.toList
  characters_ne_empty : ∀ s, "" ∉ characters s

/-- A text without accents: every code point is a character. -/
def Characters.plain : Characters where
  characters s := s.toList.map String.singleton
  flatMap_characters s := by
    simp only [List.flatMap_map, String.toList_singleton]
    exact List.flatMap_singleton' s.toList
  characters_ne_empty s h := by
    obtain ⟨c, -, hc⟩ := List.mem_map.mp h
    have hlist := congrArg String.toList hc
    simp at hlist

variable (lang : Characters)

/-- `String.split(separator:)`, with its default to leave out empty pieces -/
def split (separator s : String) : List String := (Words.pieces separator (lang.characters s)).map String.join

/-- It stops the program where there is no first piece. -/
def timestampToTimeGap (timestamp : String) : Option String := (split lang "T" timestamp)[0]?

structure News where
  mAuthor : String
  mTimestamp : String
  mTitle : String
  mSubtitle : String
  mDescription : String
deriving DecidableEq

def News.init (author timestamp title subtitle description : String) : Option News :=
  (timestampToTimeGap lang timestamp).map fun mTimestamp => ⟨author, mTimestamp, title, subtitle, description⟩

variable {lang}

theorem characters_empty : lang.characters "" = [] := by
  refine List.eq_nil_iff_forall_not_mem.mpr fun c hc => ?_
  have hnil : c.toList = [] := List.flatMap_eq_nil_iff.mp (lang.flatMap_characters "") c hc
  rw [String.toList_eq_nil_iff.mp hnil] at hc
  exact lang.characters_ne_empty "" hc

/-- A timestamp has a date when a character of it is not `T`. -/
theorem timestampToTimeGap_isSome_iff {timestamp : String} :
    (timestampToTimeGap lang timestamp).isSome ↔ ∃ c ∈ lang.characters timestamp, c ≠ "T" := by
  unfold timestampToTimeGap split
  rw [← List.head?_eq_getElem?, List.isSome_head?, ← not_iff_not, not_not]
  rw [List.map_eq_nil_iff, Words.pieces_eq_nil_iff]
  push Not
  rfl

theorem timestampToTimeGap_empty : timestampToTimeGap lang "" = none := by
  rw [← Option.not_isSome_iff_eq_none, timestampToTimeGap_isSome_iff, characters_empty]
  simp

end Ios
end FootballGallery
