/-
# Summaries

`StringUtil.summarize` takes words of a text as long as they fit, and `Post` and
`News` show such a summary of a description of more than 50 characters. The loop
looks at the length of what it has and never at the number of words, and it
checks the length before it puts the space after a word.

Key definitions: `split`, `summarize`, `Post.getDescSummary`, `News.getDescSummary`,
`WordEndsAt`, `Honest`.
Key theorems: `getDescSummary_isSome_iff`, `summarize_honest_iff`.
-/
import Mathlib.Algebra.GroupWithZero.Nat
import FootballGallery.Lib.Words
import FootballGallery.Objects

namespace FootballGallery

open Words

namespace StringUtil

/-! ### The summary of a text -/

/-- Java's `String.split` at a character: the empty strings at the end are left out. -/
def split (sep : Char) (s : String) : List String := (words sep s.toList).map String.ofList

/-- The loop of `summarize`, on the words from `words[x]` on. It throws when it looks
for a word and none is left. -/
def summarizeLoop (limit : ℤ) : List String → String → Option String
  | [], retval => if utf16Length retval < limit then none else some retval
  | word :: rest, retval =>
    if utf16Length retval < limit then
      if utf16Length (retval ++ word) > limit then some retval
      else summarizeLoop limit rest (retval ++ word ++ " ")
    else some retval

def summarize (toSummarize : String) (letterCount : ℤ) : Option String :=
  (summarizeLoop (letterCount - 3) (split ' ' toSummarize) "").map (· ++ "...")

end StringUtil

/-- `e_models/objects/News` -/
structure News where
  mAuthor : String
  mDate : String
  mTitle : String
  mDescription : String
deriving DecidableEq

open StringUtil

def Post.getDescSummary (p : Post) : Option String :=
  if utf16Length p.mDesc ≤ 50 then some p.mDesc else summarize p.mDesc 60

def News.getDescSummary (n : News) : Option String :=
  if utf16Length n.mDescription ≤ 50 then some n.mDescription else summarize n.mDescription 55

namespace StringUtil

/-! ### Lengths -/

/-- The code units of a character. -/
def units (c : Char) : ℕ := if c.toNat < 0x10000 then 1 else 2

theorem utf16Length_eq (s : String) : utf16Length s = (s.toList.map units).sum := by
  have hfold : ∀ (l : List Char) (n : ℕ),
      l.foldl (fun n c => n + if c.toNat < 0x10000 then 1 else 2) n = n + (l.map units).sum := by
    intro l
    induction l with
    | nil => intro n; rfl
    | cons c l ih =>
      intro n
      rw [List.foldl_cons, ih, List.map_cons, List.sum_cons, ← Nat.add_assoc]
      rfl
  unfold utf16Length
  rw [hfold, Nat.zero_add]

@[simp] theorem utf16Length_append (s t : String) : utf16Length (s ++ t) = utf16Length s + utf16Length t := by
  rw [utf16Length_eq, utf16Length_eq, utf16Length_eq, String.toList_append, List.map_append, List.sum_append]

theorem utf16Length_pos {s : String} (h : s ≠ "") : 0 < utf16Length s := by
  obtain ⟨c, cs, hs⟩ := List.exists_cons_of_ne_nil fun hnil => h (String.toList_eq_nil_iff.mp hnil)
  have hc : 0 < units c := by
    unfold units
    split <;> omega
  rw [utf16Length_eq, hs, List.map_cons, List.sum_cons]
  omega

@[simp] theorem utf16Length_space : utf16Length " " = 1 := by decide

@[simp] theorem utf16Length_empty : utf16Length "" = 0 := by decide

/-- The words with a space after each. -/
def spaced (ws : List String) : String := ws.foldr (fun w s => w ++ " " ++ s) ""

theorem spaced_cons (w : String) (ws : List String) : spaced (w :: ws) = w ++ " " ++ spaced ws := rfl

theorem toList_spaced (ws : List String) : (spaced ws).toList = ended ' ' (ws.map String.toList) := by
  induction ws with
  | nil => rfl
  | cons w ws ih =>
    rw [spaced_cons, String.toList_append, String.toList_append, ih]
    rfl

theorem split_toList (sep : Char) (s : String) : (split sep s).map String.toList = words sep s.toList := by
  unfold split
  rw [List.map_map]
  refine (List.map_congr_left fun w _ => ?_).trans (List.map_id _)
  exact String.toList_ofList

/-- A text without the spaces at its end. -/
def trimEnd (s : String) : String := .ofList (s.toList.rdropWhile (· = ' '))

/-- The words are short exactly when the text is, without the spaces at its end. -/
theorem utf16Length_spaced_lt_iff {s : String} {limit : ℤ} (hlimit : 1 < limit) :
    (utf16Length (spaced (split ' ' s)) : ℤ) < limit ↔ (utf16Length (trimEnd s) : ℤ) + 1 < limit := by
  have htrim : (trimEnd s).toList = [' '].intercalate (words ' ' s.toList) := by
    rw [intercalate_words, trimEnd, String.toList_ofList]
  have hspaced : (spaced (split ' ' s)).toList = ended ' ' (words ' ' s.toList) := by
    rw [toList_spaced, split_toList]
  rw [utf16Length_eq, utf16Length_eq, hspaced, htrim]
  by_cases hnil : words ' ' s.toList = []
  · rw [hnil]
    have hzero : (((ended ' ' []).map units).sum : ℤ) = 0 := rfl
    have hzero' : ((([' '].intercalate []).map units).sum : ℤ) = 0 := rfl
    omega
  · have hspace : ([' '].map units).sum = 1 := rfl
    rw [ended_eq hnil, List.map_append, List.sum_append, hspace]
    omega

/-! ### The loop -/

theorem summarizeLoop_stop {limit : ℤ} {ws : List String} {acc : String} (h : limit ≤ utf16Length acc) :
    summarizeLoop limit ws acc = some acc := by
  cases ws with
  | nil => exact if_neg (by omega)
  | cons w ws => exact if_neg (by omega)

/-- **The loop runs out of words exactly when they are too short.** -/
theorem summarizeLoop_eq_none_iff (limit : ℤ) (ws : List String) (acc : String) :
    summarizeLoop limit ws acc = none ↔ (utf16Length (acc ++ spaced ws) : ℤ) < limit := by
  induction ws generalizing acc with
  | nil =>
    have hspaced : acc ++ spaced [] = acc := String.append_empty
    rw [summarizeLoop, hspaced]
    by_cases h : (utf16Length acc : ℤ) < limit
    · simp [h]
    · simp [h]
  | cons w ws ih =>
    have hassoc : acc ++ spaced (w :: ws) = acc ++ w ++ " " ++ spaced ws := by
      rw [spaced_cons]
      simp only [String.append_assoc]
    rw [summarizeLoop, hassoc]
    by_cases h : (utf16Length acc : ℤ) < limit
    · rw [if_pos h]
      by_cases hbreak : (utf16Length (acc ++ w) : ℤ) > limit
      · rw [if_pos hbreak]
        have hlong : ¬ (utf16Length (acc ++ w ++ " " ++ spaced ws) : ℤ) < limit := by
          rw [utf16Length_append, utf16Length_append]
          omega
        exact iff_of_false nofun hlong
      · rw [if_neg hbreak]
        exact ih _
    · rw [if_neg h]
      have hlong : ¬ (utf16Length (acc ++ w ++ " " ++ spaced ws) : ℤ) < limit := by
        rw [utf16Length_append, utf16Length_append, utf16Length_append]
        omega
      exact iff_of_false nofun hlong

/-- What the loop has taken: some words, and the next one would not fit. -/
theorem summarizeLoop_taken {limit : ℤ} {ws : List String} {acc p : String}
    (h : summarizeLoop limit ws acc = some p) :
    ∃ k ≤ ws.length, p = acc ++ spaced (ws.take k) ∧
      ∀ w ∈ ws[k]?, w ≠ "" → limit < (utf16Length (p ++ w) : ℤ) := by
  have hnone : acc = acc ++ spaced [] := String.append_empty.symm
  induction ws generalizing acc with
  | nil =>
    rw [summarizeLoop] at h
    split at h
    · cases h
    · obtain rfl := Option.some.inj h
      exact ⟨0, Nat.le_refl 0, hnone, fun w hw => by simp at hw⟩
  | cons v ws ih =>
    rw [summarizeLoop] at h
    split at h
    · split at h
      · rename_i hbreak
        obtain rfl := Option.some.inj h
        refine ⟨0, Nat.zero_le _, hnone, fun w hw _ => ?_⟩
        obtain rfl := Option.some.inj hw
        exact hbreak
      · obtain ⟨k, hk, rfl, hnext⟩ := ih h String.append_empty.symm
        refine ⟨k + 1, Nat.succ_le_succ hk, ?_, hnext⟩
        rw [List.take_succ_cons, spaced_cons]
        simp only [String.append_assoc]
    · rename_i hlong
      obtain rfl := Option.some.inj h
      refine ⟨0, Nat.zero_le _, hnone, fun w hw hne => ?_⟩
      have hpos := utf16Length_pos hne
      rw [utf16Length_append]
      omega

/-- Unless a word ends exactly at the limit, what is taken fits. -/
theorem summarizeLoop_le {limit : ℤ} {ws : List String} {acc p : String} (hacc : (utf16Length acc : ℤ) ≤ limit)
    (hends : ∀ k, ∀ w ∈ ws[k]?, w ≠ "" → (utf16Length (acc ++ spaced (ws.take k) ++ w) : ℤ) ≠ limit)
    (h : summarizeLoop limit ws acc = some p) : (utf16Length p : ℤ) ≤ limit := by
  induction ws generalizing acc with
  | nil =>
    rw [summarizeLoop] at h
    split at h
    · cases h
    · obtain rfl := Option.some.inj h
      exact hacc
  | cons v ws ih =>
    rw [summarizeLoop] at h
    split at h
    · rename_i hlt
      split at h
      · obtain rfl := Option.some.inj h
        exact hacc
      · rename_i hfits
        refine ih ?_ (fun k w hw hne => ?_) h
        · have hv : v ≠ "" → (utf16Length (acc ++ v) : ℤ) ≠ limit := fun hne => by
            have hends0 := hends 0 v rfl hne
            rwa [List.take_zero, spaced, List.foldr_nil, String.append_empty] at hends0
          rw [utf16Length_append, utf16Length_space]
          by_cases hne : v = ""
          · rw [hne, String.append_empty]
            omega
          · have hlimit := hv hne
            omega
        · have hends1 := hends (k + 1) w hw hne
          rw [List.take_succ_cons, spaced_cons] at hends1
          simpa only [String.append_assoc] using hends1
    · obtain rfl := Option.some.inj h
      exact hacc

/-- A word that ends exactly at the limit is taken, and the space after it. -/
theorem summarizeLoop_over {limit : ℤ} {ws : List String} {acc w : String} {k : ℕ} (hw : ws[k]? = some w)
    (hne : w ≠ "") (hends : (utf16Length (acc ++ spaced (ws.take k) ++ w) : ℤ) = limit) :
    summarizeLoop limit ws acc = some (acc ++ spaced (ws.take k) ++ w ++ " ") := by
  have hpos := utf16Length_pos hne
  induction ws generalizing acc k with
  | nil => simp at hw
  | cons v ws ih =>
    rw [summarizeLoop]
    cases k with
    | zero =>
      obtain rfl : v = w := Option.some.inj hw
      rw [List.take_zero, spaced, List.foldr_nil, String.append_empty] at hends ⊢
      have hlen := utf16Length_append acc v
      rw [if_pos (by omega), if_neg (by omega)]
      refine summarizeLoop_stop ?_
      rw [utf16Length_append, utf16Length_space]
      omega
    | succ k =>
      have hassoc : acc ++ spaced ((v :: ws).take (k + 1)) ++ w = acc ++ v ++ " " ++ spaced (ws.take k) ++ w := by
        rw [List.take_succ_cons, spaced_cons]
        simp only [String.append_assoc]
      rw [hassoc] at hends ⊢
      have hlen : utf16Length (acc ++ v ++ " " ++ spaced (ws.take k) ++ w) =
          utf16Length acc + utf16Length v + 1 + utf16Length (spaced (ws.take k)) + utf16Length w := by
        simp only [utf16Length_append, utf16Length_space]
      have hlen' := utf16Length_append acc v
      rw [if_pos (by omega), if_neg (by omega)]
      exact ih hw hends

/-! ### Summaries of posts and news -/

theorem summarize_isSome_iff {s : String} {letterCount : ℤ} (h : 4 < letterCount) :
    (summarize s letterCount).isSome ↔ letterCount - 4 ≤ (utf16Length (trimEnd s) : ℤ) := by
  have hnone := summarizeLoop_eq_none_iff (letterCount - 3) (split ' ' s) ""
  rw [String.empty_append, utf16Length_spaced_lt_iff (by omega)] at hnone
  unfold summarize
  rw [Option.isSome_map, ← not_iff_not, Bool.not_eq_true, Option.isSome_eq_false_iff, Option.isNone_iff_eq_none,
    hnone]
  omega

/-- **A description has a summary exactly when it is short or, without the spaces at
its end, long enough**: 56 characters in a post, 51 in news. -/
theorem getDescSummary_isSome_iff (p : Post) (n : News) :
    (p.getDescSummary.isSome ↔ utf16Length p.mDesc ≤ 50 ∨ 56 ≤ utf16Length (trimEnd p.mDesc)) ∧
      (n.getDescSummary.isSome ↔ utf16Length n.mDescription ≤ 50 ∨ 51 ≤ utf16Length (trimEnd n.mDescription)) := by
  constructor
  · unfold Post.getDescSummary
    by_cases h : utf16Length p.mDesc ≤ 50
    · simp [h]
    · rw [if_neg h, summarize_isSome_iff (by omega)]
      omega
  · unfold News.getDescSummary
    by_cases h : utf16Length n.mDescription ≤ 50
    · simp [h]
    · rw [if_neg h, summarize_isSome_iff (by omega)]
      omega

/-- A post whose description has 51 characters, and news with 50 and a space. -/
theorem getDescSummary_throws :
    (Post.new "post_01-01-2022-09-00-00" "Derby" (.ofList (List.replicate 51 'a')) 0 0).getDescSummary = none ∧
      (News.mk "Bob" "2022-01-01T09:00:00+0000" "Derby"
        (.ofList (List.replicate 50 'a' ++ [' ']))).getDescSummary = none := by
  decide

/-- A word of the text ends at the character `m`, when the words have one space between
them as they have in the text. -/
def WordEndsAt (s : String) (m : ℤ) : Prop :=
  ∃ k, ∃ w ∈ (split ' ' s)[k]?, w ≠ "" ∧ (utf16Length (spaced ((split ' ' s).take k) ++ w) : ℤ) = m

/-- `r` is an honest summary that fits: the first words of the text, each with a space,
the next one would not fit, and all of it has at most `letterCount` characters. -/
def Honest (text : String) (letterCount : ℤ) (r : String) : Prop :=
  ∃ k ≤ (split ' ' text).length, ∃ p, r = p ++ "..." ∧ p = spaced ((split ' ' text).take k) ∧
    (0 < k → p.toList.dropLast <+: text.toList) ∧
    (∀ w ∈ (split ' ' text)[k]?, w ≠ "" → letterCount - 3 < (utf16Length (p ++ w) : ℤ)) ∧
    (utf16Length r : ℤ) ≤ letterCount

/-- **A summary is honest and fits exactly when no word ends three characters before
the limit.** -/
theorem summarize_honest_iff {text r : String} {letterCount : ℤ} (hcount : 3 ≤ letterCount)
    (h : summarize text letterCount = some r) :
    Honest text letterCount r ↔ ¬ WordEndsAt text (letterCount - 3) := by
  obtain ⟨p, hp, rfl⟩ := Option.map_eq_some_iff.mp h
  have hdots : utf16Length "..." = 3 := by decide
  have hlen : utf16Length (p ++ "...") = utf16Length p + 3 := by rw [utf16Length_append, hdots]
  constructor
  · rintro ⟨k, -, q, hq, -, -, -, hfits⟩ ⟨k', w, hw, hne, hends⟩
    rw [← String.empty_append (s := spaced _)] at hends
    have hover := summarizeLoop_over hw hne hends
    rw [hp] at hover
    obtain rfl := Option.some.inj hover
    rw [hlen, utf16Length_append _ " ", utf16Length_space] at hfits
    omega
  · intro hends
    obtain ⟨k, hk, hp', hnext⟩ := summarizeLoop_taken hp
    rw [String.empty_append] at hp'
    have hle : (utf16Length p : ℤ) ≤ letterCount - 3 := by
      refine summarizeLoop_le ?_ (fun k' w hw hne hlimit => ?_) hp
      · rw [utf16Length_empty]
        omega
      · rw [String.empty_append] at hlimit
        exact hends ⟨k', w, hw, hne, hlimit⟩
    refine ⟨k, hk, p, rfl, hp', fun hpos => ?_, hnext, by omega⟩
    have hsplit := split_toList ' ' text
    rw [hp', toList_spaced, List.map_take, hsplit]
    refine ended_take_words hpos ?_
    rwa [← hsplit, List.length_map]

/-- A text that fits, with one character to spare, and one that does not. -/
theorem summarize_honest_nine : summarize "goal by goal" 9 = some "goal ..." ∧
    (Honest "goal by goal" 9 "goal ..." ↔ ¬ WordEndsAt "goal by goal" 6) :=
  ⟨by decide, summarize_honest_iff (by decide) (by decide)⟩

/-- With seven characters allowed the summary has eight. -/
theorem summarize_too_long : summarize "goal by goal" 7 = some "goal ..." ∧
    ¬ Honest "goal by goal" 7 "goal ..." := by
  refine ⟨by decide, fun h => ?_⟩
  obtain ⟨k, -, p, -, -, -, -, hfits⟩ := h
  revert hfits
  decide

end StringUtil
end FootballGallery
