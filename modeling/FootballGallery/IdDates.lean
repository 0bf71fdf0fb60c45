/-
# Ids as dates

The id of a post or comment holds its creation time as text, and
`extractDateFromDocumentId` reads it back. The text names neither the half of the
day nor a time zone: what comes back is the creation time when it was a morning
where the id was made and the reader's zone has the same offset, or an afternoon
and the reader's zone is twelve hours behind.

Key definitions: `instantIn`, `wholeOffset`, `Survives`.
Key theorems: `parseTimeStamp_getTimeStamp`, `extractDate_generateId`,
`extractDate_eq_iff`, `creation_times_iff`.
-/
import Mathlib.Data.List.TakeWhile
import FootballGallery.StringUtil

namespace FootballGallery
namespace StringUtil

open Calendar

/-! ### Reading a time stamp -/

/-- The seconds that the half of the day stands for. -/
def halfDay (t : Instant) : ℤ := if t.second < 43200 then 0 else 43200

theorem readNumber_of_digits {s ds : List Char} (h : s.takeWhile (·.isDigit) = ds) (hds : ds ≠ []) :
    readNumber s = some (Nat.ofDigitChars 10 ds 0, s.dropWhile (·.isDigit)) := by
  unfold readNumber
  rw [h]
  cases ds with
  | nil => exact absurd rfl hds
  | cons d ds => rfl

theorem readNumber_padded {w n : ℕ} {c : Char} {rest : List Char} (hc : c.isDigit = false) :
    readNumber (padded w n ++ c :: rest) = some (n, c :: rest) := by
  have hdigits : ∀ d ∈ padded w n, d.isDigit = true := fun d hd => isDigit_of_mem_padded hd
  have htake : (padded w n ++ c :: rest).takeWhile (·.isDigit) = padded w n := by
    rw [List.takeWhile_append_of_pos hdigits, List.takeWhile_cons_of_neg (by simp [hc]), List.append_nil]
  have hdrop : (padded w n ++ c :: rest).dropWhile (·.isDigit) = c :: rest := by
    rw [List.dropWhile_append_of_pos hdigits, List.dropWhile_cons_of_neg (by simp [hc])]
  rw [readNumber_of_digits htake (padded_ne_nil w n), ofDigitChars_padded, hdrop]

theorem readNumber_padded_end (w n : ℕ) : readNumber (padded w n) = some (n, []) := by
  have hdigits : ∀ d ∈ padded w n, d.isDigit = true := fun d hd => isDigit_of_mem_padded hd
  have htake : (padded w n).takeWhile (·.isDigit) = padded w n := List.takeWhile_eq_self_iff.mpr hdigits
  have hdrop : (padded w n).dropWhile (·.isDigit) = [] := List.dropWhile_eq_nil_iff.mpr hdigits
  rw [readNumber_of_digits htake (padded_ne_nil w n), ofDigitChars_padded, hdrop]

theorem readNumbers_padded {k w n : ℕ} {rest : List Char} :
    readNumbers (k + 1) (padded w n ++ '-' :: rest) = (readNumbers k rest).map (n :: ·) := by
  have hdash : Char.isDigit '-' = false := by decide
  rw [readNumbers, readNumber_padded hdash]
  rfl

/-- The six fields of a time stamp come back. -/
theorem readNumbers_getTimeStamp (t : Instant) : readNumbers 5 (getTimeStamp t).toList =
    some [t.date.day, t.date.month, t.date.year, hourOfHalfDay t.second, t.second / 60 % 60,
      t.second % 60] := by
  unfold getTimeStamp
  rw [String.toList_ofList]
  simp only [readNumbers_padded]
  rw [readNumbers, readNumber_padded_end]
  rfl

/-- The clock fields are the local time of the half day. -/
theorem clock_fields (t : Instant) :
    (if hourOfHalfDay t.second = 12 then 0 else hourOfHalfDay t.second) * 3600 + t.second / 60 % 60 * 60 +
      t.second % 60 + halfDay t = t.second := by
  have hday : t.second < 86400 := Nat.mod_lt _ (by omega)
  unfold hourOfHalfDay halfDay
  generalize t.second = s at *
  split <;> split <;> split <;> omega

/-- **A time stamp is read as the local second it shows, in the morning.** -/
theorem parseTimeStamp_getTimeStamp (t : Instant) :
    parseTimeStamp (getTimeStamp t).toList = some ((t.localSecond : ℤ) - halfDay t) := by
  obtain ⟨hm1, hm12⟩ : 1 ≤ t.date.month ∧ t.date.month ≤ 12 := Date.month_ofDays _
  have hd1 : 1 ≤ t.date.day := Date.one_le_day_ofDays _
  have hdays : t.date.toDays = t.localSecond / 86400 := Date.toDays_ofDays _
  rw [Date.toDays_eq_add] at hdays
  have hyear : (t.date.year * 12 + t.date.month - 1) / 12 = t.date.year := by omega
  have hmonth : (t.date.year * 12 + t.date.month - 1) % 12 + 1 = t.date.month := by omega
  have hclock := clock_fields t
  have hsecond : t.second = t.localSecond % 86400 := rfl
  unfold parseTimeStamp
  rw [readNumbers_getTimeStamp]
  simp only [hyear, hmonth]
  refine congrArg some ?_
  generalize (if hourOfHalfDay t.second = 12 then 0 else hourOfHalfDay t.second) = hour at *
  omega

theorem mem_getTimeStamp {t : Instant} {c : Char} (h : c ∈ (getTimeStamp t).toList) : c ≠ '_' := by
  have hdigit : c.isDigit = true ∨ c = '-' := by
    unfold getTimeStamp at h
    rw [String.toList_ofList] at h
    simp only [List.mem_append, List.mem_cons] at h
    grind [isDigit_of_mem_padded]
  rintro rfl
  rcases hdigit with hdigit | hdigit
  · revert hdigit
    decide
  · revert hdigit
    decide

/-- The second part of an id is its time stamp. -/
theorem id_part (c : ℤ) (t : Instant) :
    (((generateId c t).toList.dropWhile (· ≠ '_')).drop 1).takeWhile (· ≠ '_') = (getTimeStamp t).toList := by
  have hstamp : (getTimeStamp t).toList.takeWhile (· ≠ '_') = (getTimeStamp t).toList :=
    List.takeWhile_eq_self_iff.mpr fun c hc => decide_eq_true (mem_getTimeStamp hc)
  unfold generateId
  split
  · rw [String.toList_append]
    exact hstamp
  · rw [String.toList_append]
    exact hstamp

theorem extractDate_generateId (toInstant : ℤ → ℤ) (c : ℤ) (t : Instant) :
    extractDateFromDocumentId toInstant (generateId c t) =
      some (toInstant ((t.localSecond : ℤ) - halfDay t)) := by
  unfold extractDateFromDocumentId
  rw [id_part, parseTimeStamp_getTimeStamp]
  rfl

/-! ### The creation time -/

/-- The instant of a local second, in a zone with the offset `zone s` at the local
second `s`, in milliseconds. -/
def instantIn (zone : ℤ → ℤ) (s : ℤ) : ℤ := (s - 719468 * 86400) * 1000 - zone s

/-- The offset of a moment's zone, as its time in whole seconds shows it. -/
def wholeOffset (t : Instant) : ℤ := ((t.millis + t.offset) / 1000 - (t.millis : ℤ) / 1000) * 1000

/-- The id was made in the morning and is read in a zone of the same offset, or it was
made in the afternoon and is read in a zone twelve hours behind. -/
def Survives (zone : ℤ → ℤ) (t : Instant) : Prop :=
  if t.second < 43200 then zone t.localSecond = wholeOffset t
  else zone (t.localSecond - 43200) = wholeOffset t - 43200000

instance (zone : ℤ → ℤ) (t : Instant) : Decidable (Survives zone t) :=
  inferInstanceAs (Decidable (if t.second < 43200 then zone t.localSecond = wholeOffset t
    else zone (t.localSecond - 43200) = wholeOffset t - 43200000))

theorem localSecond_eq (t : Instant) : (t.localSecond : ℤ) = (t.millis + t.offset) / 1000 + 719468 * 86400 := by
  have hoffset := t.bounded.1
  unfold Instant.localSecond
  omega

/-- **The creation time comes back exactly when the half of the day and the two zones
agree.** -/
theorem extractDate_eq_iff (zone : ℤ → ℤ) (c : ℤ) (t : Instant) :
    extractDateFromDocumentId (instantIn zone) (generateId c t) = some ((t.millis : ℤ) / 1000 * 1000) ↔
      Survives zone t := by
  have hlocal := localSecond_eq t
  rw [extractDate_generateId, Option.some_inj]
  unfold instantIn Survives wholeOffset halfDay
  split
  · rw [Int.sub_zero]
    omega
  · omega

/-- **The creation times survive the ids, and with them the order of creation.** Of two
documents both times come back, and the later one has the later date when a second
lies between them, exactly when each time survives. -/
theorem creation_times_iff (zone : ℤ → ℤ) (c c' : ℤ) (t t' : Instant) :
    (extractDateFromDocumentId (instantIn zone) (generateId c t) = some ((t.millis : ℤ) / 1000 * 1000) ∧
      extractDateFromDocumentId (instantIn zone) (generateId c' t') = some ((t'.millis : ℤ) / 1000 * 1000) ∧
      (t.millis + 1000 ≤ t'.millis →
        ∃ d ∈ extractDateFromDocumentId (instantIn zone) (generateId c t),
          ∃ d' ∈ extractDateFromDocumentId (instantIn zone) (generateId c' t'), d < d')) ↔
      Survives zone t ∧ Survives zone t' := by
  rw [← extractDate_eq_iff zone c, ← extractDate_eq_iff zone c']
  constructor
  · rintro ⟨h, h', -⟩
    exact ⟨h, h'⟩
  · rintro ⟨h, h'⟩
    refine ⟨h, h', fun hlater => ⟨_, h, _, h', ?_⟩⟩
    omega

/-! Eleven and one o'clock of 1 January 2000, in UTC: the afternoon is read as the
night before, so the later document has the earlier date. -/

def eleven : Instant := ⟨946724400000, 0, Instant.bounded_utc⟩

def oneOClock : Instant := ⟨946731600000, 0, Instant.bounded_utc⟩

theorem afternoon_lost : eleven.millis + 1000 ≤ oneOClock.millis ∧
    extractDateFromDocumentId (instantIn fun _ => 0) (generateId casePost oneOClock) ≠
      some ((oneOClock.millis : ℤ) / 1000 * 1000) ∧
    ∃ d ∈ extractDateFromDocumentId (instantIn fun _ => 0) (generateId casePost eleven),
      ∃ d' ∈ extractDateFromDocumentId (instantIn fun _ => 0) (generateId casePost oneOClock), d' < d := by
  refine ⟨by decide, ?_, _, extractDate_generateId _ _ _, _, extractDate_generateId _ _ _, by decide⟩
  rw [extractDate_generateId]
  decide

end StringUtil
end FootballGallery
