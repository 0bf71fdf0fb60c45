/-
# `f_utils/StringUtil`: fields, ids and dates

The check of the text fields, and the ids of new posts and comments, which are
their creation times and are read back as dates. The time stamp is in the client's time zone and has the
hour of the half day (`hh`), so two instants get the same stamp exactly when
their local dates and their local times of the half day agree.

Key definitions: `isFieldValid`, `Instant`, `getTimeStamp`, `generateId`,
`extractDateFromDocumentId`.
Key theorems: `getTimeStamp_eq_iff`, `generateId_eq_iff`.
-/
import Mathlib.Data.Int.Notation
import FootballGallery.Lib.Calendar

namespace FootballGallery

open Calendar

namespace StringUtil

/-! ### Text fields -/

/-- Java's `String.trim`. -/
def trim (s : String) : String :=
  .ofList ((s.toList.dropWhile (· ≤ ' ')).reverse.dropWhile (· ≤ ' ')).reverse

def isFieldValid (fields : List String) : Bool :=
  fields.all fun input => !(decide ((trim input).length ≤ 0) || decide (input.length ≤ 0))

def msgFieldEmpty := "Please fill out the forms."
def msgIncorrectFormat := "Please follow required format."
def msgEmailValid := "Email valid"

/-- `emailAddress`: the platform's `Patterns.EMAIL_ADDRESS` -/
def isEmailValid (emailAddress : String → Bool) (input : String) : String :=
  if input ≠ "" then
    if emailAddress input then msgEmailValid else msgIncorrectFormat
  else msgFieldEmpty

def msgPwdMatch := "Passwords doesn't match."
def msgPwdLength := "Password must be at least 8 characters."
def msgPwdValid := "Pwd valid"

/-- Java's `String.length`: the number of UTF-16 code units. -/
def utf16Length (s : String) : ℕ := s.toList.foldl (fun n c => n + if c.toNat < 0x10000 then 1 else 2) 0

/-- `isPwdValid` of one field, or of two; nobody calls it with none. -/
def isPwdValid : List String → String
  | [f1] => if utf16Length f1 ≥ 8 then msgPwdValid else msgPwdLength
  | f1 :: f2 :: _ =>
    if f1 = f2 then
      if utf16Length f1 ≥ 8 && utf16Length f2 ≥ 8 then msgPwdValid else msgPwdLength
    else msgPwdMatch
  | [] => msgPwdLength

end StringUtil

/-! ### Time stamps -/

/-- A moment on a client's clock: `millis` since 1970 and the offset of its time
zone then, in milliseconds and at most 18 hours. -/
structure Instant where
  millis : ℕ
  offset : ℤ
  bounded : -64800000 ≤ offset ∧ offset ≤ 64800000

namespace Instant

theorem bounded_utc : (-64800000 : ℤ) ≤ 0 ∧ (0 : ℤ) ≤ 64800000 := by decide

/-- The local time in seconds, counted from 1 March 0000. -/
def localSecond (t : Instant) : ℕ := ((t.millis + t.offset + 719468 * 86400000) / 1000).toNat

/-- The local date. -/
def date (t : Instant) : Date := .ofDays (t.localSecond / 86400)

/-- The local time of the day, in seconds. -/
def second (t : Instant) : ℕ := t.localSecond % 86400

end Instant

namespace StringUtil

/-- The field `hh` of a time stamp: `12` stands for `0`. -/
def hourOfHalfDay (s : ℕ) : ℕ := if s / 3600 % 12 = 0 then 12 else s / 3600 % 12

/-- `dd-MM-yyyy-hh-mm-ss` -/
def getTimeStamp (t : Instant) : String :=
  .ofList (padded 2 t.date.day ++ '-' :: (padded 2 t.date.month ++ '-' :: (padded 4 t.date.year ++
    '-' :: (padded 2 (hourOfHalfDay t.second) ++ '-' :: (padded 2 (t.second / 60 % 60) ++
      '-' :: padded 2 (t.second % 60))))))

def casePost : ℤ := 0
def caseComment : ℤ := 1

def generateId (case : ℤ) (t : Instant) : String :=
  if case = casePost then "post_" ++ getTimeStamp t else "comment_" ++ getTimeStamp t

/-- Two moments with one time stamp. -/
def SameStamp (t t' : Instant) : Prop :=
  t.localSecond / 86400 = t'.localSecond / 86400 ∧ t.second % 43200 = t'.second % 43200

instance (t t' : Instant) : Decidable (SameStamp t t') :=
  inferInstanceAs (Decidable (_ ∧ _))

theorem hourOfHalfDay_eq_iff (s s' : ℕ) :
    hourOfHalfDay s = hourOfHalfDay s' ↔ s / 3600 % 12 = s' / 3600 % 12 := by
  unfold hourOfHalfDay
  split <;> split <;> omega

/-- The clock fields show the time of the half day. -/
theorem clock_eq_iff (s s' : ℕ) :
    (s / 3600 % 12 = s' / 3600 % 12 ∧ s / 60 % 60 = s' / 60 % 60 ∧ s % 60 = s' % 60) ↔
      s % 43200 = s' % 43200 := by
  constructor <;> omega

/-- **A time stamp shows the local date and the local time of the half day**, and
nothing that would tell morning from afternoon. -/
theorem getTimeStamp_eq_iff (t t' : Instant) : getTimeStamp t = getTimeStamp t' ↔ SameStamp t t' := by
  have hd : Char.isDigit '-' = false := by decide
  constructor
  · intro h
    obtain ⟨hday, h⟩ := padded_append_inj hd (String.ofList_injective h)
    obtain ⟨hmonth, h⟩ := padded_append_inj hd h
    obtain ⟨hyear, h⟩ := padded_append_inj hd h
    obtain ⟨hhour, h⟩ := padded_append_inj hd h
    obtain ⟨hmin, h⟩ := padded_append_inj hd h
    have hsec := padded_injective 2 h
    have hdate : t.date = t'.date := by
      cases ht : t.date
      cases ht' : t'.date
      simp_all
    exact ⟨Date.ofDays_injective hdate,
      (clock_eq_iff _ _).mp ⟨(hourOfHalfDay_eq_iff _ _).mp hhour, hmin, hsec⟩⟩
  · rintro ⟨hdate, hclock⟩
    obtain ⟨hhour, hmin, hsec⟩ := (clock_eq_iff _ _).mpr hclock
    simp only [getTimeStamp, Instant.date, hdate, (hourOfHalfDay_eq_iff _ _).mpr hhour, hmin, hsec]

theorem generateId_eq_iff (c c' : ℤ) (t t' : Instant) :
    generateId c t = generateId c' t' ↔ (c = casePost ↔ c' = casePost) ∧ SameStamp t t' := by
  have hkind : ∀ s s' : String, "post_" ++ s ≠ "comment_" ++ s' := fun s s' h => by
    have h' := congrArg String.toList h
    simp at h'
  unfold generateId
  rw [← getTimeStamp_eq_iff]
  by_cases hc : c = casePost <;> by_cases hc' : c' = casePost
  · simp [hc, hc']
  · simp [hc, hc', hkind]
  · simp [hc, hc', (hkind _ _).symm]
  · simp [hc, hc']

theorem generateId_ne_empty (c : ℤ) (t : Instant) : generateId c t ≠ "" := by
  intro h
  have h' := congrArg String.toList h
  unfold generateId at h'
  split at h' <;> simp at h'

/-- The first minute of 2000 and the minute twelve hours later, in UTC. -/
example : getTimeStamp ⟨946684800000, 0, by decide⟩ = "01-01-2000-12-00-00" ∧
    getTimeStamp ⟨946684800000 + 43200000, 0, by decide⟩ = "01-01-2000-12-00-00" := by decide

/-! ### Dates of documents -/

/-- The number at the start of a text, and what follows it. -/
def readNumber (s : List Char) : Option (ℕ × List Char) :=
  match s.takeWhile (·.isDigit) with
  | [] => none
  | d :: ds => some (Nat.ofDigitChars 10 (d :: ds) 0, s.dropWhile (·.isDigit))

/-- `n + 1` numbers with a `-` between them; what follows is left unread. -/
def readNumbers : ℕ → List Char → Option (List ℕ)
  | 0, s => (readNumber s).map fun r => [r.1]
  | n + 1, s =>
    match readNumber s with
    | some (x, '-' :: rest) => (readNumbers n rest).map (x :: ·)
    | _ => none

/-- The local second, from 1 March 0000, that `SimpleDateFormat.parse` reads with the
pattern `dd-MM-yyyy-hh-mm-ss`: the half day is the morning, hour `12` is `0`, and a
number that is too large carries over. -/
def parseTimeStamp (s : List Char) : Option ℤ :=
  match readNumbers 5 s with
  | some [day, month, year, hour, minute, second] =>
    let months := year * 12 + month - 1
    let days : ℤ := Date.toDays ⟨months / 12, months % 12 + 1, 1⟩ + day - 1
    some (days * 86400 + (if hour = 12 then 0 else hour) * 3600 + minute * 60 + second)
  | _ => none

section TimeZone

-- the instant of a local second, in the time zone of the client that reads the id
variable (toInstant : ℤ → ℤ)

/-- `none` stands for `null` and, where the id has no second part, for the exception. -/
def extractDateFromDocumentId (docId : String) : Option ℤ :=
  (parseTimeStamp (((docId.toList.dropWhile (· ≠ '_')).drop 1).takeWhile (· ≠ '_'))).map toInstant

end TimeZone

/-- Noon of 1 January 2000 is read as its midnight. -/
example : extractDateFromDocumentId id "post_01-01-2000-12-00-00" = some (730425 * 86400) := by decide

end StringUtil
end FootballGallery
