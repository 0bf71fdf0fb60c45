/-
# Dates and decimal fields

The Gregorian calendar as arithmetic on day numbers, and numbers written in
decimal with leading zeros. Days are counted from the first of March of the
year 0, so that a leap day is the last day of its year: 400 years are 146097
days, and a month's first day is a linear function of the month.

Both writings can be read back: `Date.toDays` is a left inverse of
`Date.ofDays` and `Nat.ofDigitChars` one of `padded`, and fields that a
character separates which occurs in none of them can be told apart.

Key definitions: `Date`, `Date.ofDays`, `Date.toDays`, `padded`.
Key theorems: `Date.toDays_ofDays`, `Date.ofDays_injective`,
`padded_injective`.
-/
import Mathlib.Data.List.Basic
import Mathlib.Tactic.Common

namespace Calendar

structure Date where
  year : ℕ
  month : ℕ
  day : ℕ
deriving DecidableEq

namespace Date

/-! ### From day numbers to dates and back -/

/-- The year of a 400-year era, counted from March, that its day `doe` is in: the
years of its century, of its four years and of what is left. -/
def yearOfEra (doe : ℕ) : ℕ :=
  let c := min 3 (doe / 36524)
  let q := (doe - 36524 * c) / 1461
  let y := min 3 ((doe - 36524 * c - 1461 * q) / 365)
  100 * c + 4 * q + y

/-- The first day of a year of an era. -/
def dayOfYear (yoe : ℕ) : ℕ := 365 * yoe + yoe / 4 - yoe / 100

/-- The first day of the month `mp` after March, in a year that starts in March. -/
def dayOfMonth (mp : ℕ) : ℕ := (153 * mp + 2) / 5

/-- The date of a day, counted from 1 March 0000. -/
def ofDays (z : ℕ) : Date :=
  let doe := z % 146097
  let yoe := yearOfEra doe
  let doy := doe - dayOfYear yoe
  let mp := (5 * doy + 2) / 153
  { year := z / 146097 * 400 + yoe + (if mp < 10 then 0 else 1)
    month := if mp < 10 then mp + 3 else mp - 9
    day := doy - dayOfMonth mp + 1 }

/-- The day of a date. -/
def toDays (d : Date) : ℕ :=
  let y := if d.month ≤ 2 then d.year - 1 else d.year
  let mp := if d.month ≤ 2 then d.month + 9 else d.month - 3
  y / 400 * 146097 + (dayOfYear (y % 400) + (dayOfMonth mp + (d.day - 1)))

/-- A day of an era is in its year: not before the year's first day, and at most
365 days after it. -/
theorem yearOfEra_spec {doe : ℕ} (h : doe < 146097) :
    yearOfEra doe < 400 ∧ dayOfYear (yearOfEra doe) ≤ doe ∧
      doe - dayOfYear (yearOfEra doe) ≤ 365 := by
  obtain ⟨c, hc⟩ : ∃ c, c = min 3 (doe / 36524) := ⟨_, rfl⟩
  obtain ⟨q, hq⟩ : ∃ q, q = (doe - 36524 * c) / 1461 := ⟨_, rfl⟩
  obtain ⟨y, hy⟩ : ∃ y, y = min 3 ((doe - 36524 * c - 1461 * q) / 365) := ⟨_, rfl⟩
  have hc3 : c ≤ 3 ∧ 36524 * c ≤ doe ∧ doe - 36524 * c ≤ 36524 := by omega
  have hq24 : q ≤ 24 ∧ 1461 * q ≤ doe - 36524 * c ∧ doe - 36524 * c - 1461 * q ≤ 1460 := by omega
  have hy3 : y ≤ 3 ∧ 365 * y ≤ doe - 36524 * c - 1461 * q ∧
      doe - 36524 * c - 1461 * q - 365 * y ≤ 365 := by omega
  have hfirst : dayOfYear (100 * c + 4 * q + y) = 36524 * c + 1461 * q + 365 * y := by
    have h4 : (100 * c + 4 * q + y) / 4 = 25 * c + q := by omega
    have h100 : (100 * c + 4 * q + y) / 100 = c := by omega
    rw [dayOfYear, h4, h100]
    omega
  have hyoe : yearOfEra doe = 100 * c + 4 * q + y := by
    rw [hy, hq, hc]
    rfl
  rw [hyoe, hfirst]
  refine ⟨?_, ?_, ?_⟩ <;> omega

theorem dayOfMonth_le (doy : ℕ) : dayOfMonth ((5 * doy + 2) / 153) ≤ doy := by
  unfold dayOfMonth
  omega

/-- The month of a date names the month after March it comes from. -/
theorem month_spec {mp : ℕ} (h : mp < 12) :
    (mp < 10 → 2 < mp + 3 ∧ mp + 3 - 3 = mp) ∧ (¬ mp < 10 → mp - 9 ≤ 2 ∧ mp - 9 + 9 = mp) := by
  omega

/-- **A date names one day.** -/
theorem toDays_ofDays (z : ℕ) : (ofDays z).toDays = z := by
  obtain ⟨hy, hd, h365⟩ := yearOfEra_spec (Nat.mod_lt z (by omega : 0 < 146097))
  have hm := dayOfMonth_le (z % 146097 - dayOfYear (yearOfEra (z % 146097)))
  unfold ofDays toDays
  simp only
  generalize yearOfEra (z % 146097) = yoe at *
  generalize hdoy : z % 146097 - dayOfYear yoe = doy at *
  have h12 : (5 * doy + 2) / 153 < 12 := by omega
  generalize (5 * doy + 2) / 153 = mp at *
  have hera : (z / 146097 * 400 + yoe) / 400 = z / 146097 := by omega
  have hmod : (z / 146097 * 400 + yoe) % 400 = yoe := by omega
  have hz : z / 146097 * 146097 + (dayOfYear yoe + (dayOfMonth mp + (doy - dayOfMonth mp + 1 - 1))) = z := by
    omega
  -- January and February belong to the year that started in March before them
  by_cases h10 : mp < 10
  · obtain ⟨h2, hback⟩ := (month_spec h12).1 h10
    simp only [if_pos h10, if_neg (Nat.not_le.mpr h2)]
    rw [hback, Nat.add_zero, hera, hmod]
    exact hz
  · obtain ⟨h2, hback⟩ := (month_spec h12).2 h10
    simp only [if_neg h10, if_pos h2]
    rw [hback, Nat.add_sub_cancel, hera, hmod]
    exact hz

theorem ofDays_injective : Function.Injective ofDays :=
  Function.LeftInverse.injective toDays_ofDays

theorem month_ofDays (z : ℕ) : 1 ≤ (ofDays z).month ∧ (ofDays z).month ≤ 12 := by
  obtain ⟨-, hd, h365⟩ := yearOfEra_spec (Nat.mod_lt z (by omega : 0 < 146097))
  unfold ofDays
  simp only
  generalize z % 146097 - dayOfYear (yearOfEra (z % 146097)) = doy at *
  split <;> omega

theorem one_le_day_ofDays (z : ℕ) : 1 ≤ (ofDays z).day := Nat.le_add_left 1 _

/-- The days of a month come one after the other. -/
theorem toDays_eq_add (d : Date) : d.toDays = toDays ⟨d.year, d.month, 1⟩ + (d.day - 1) := by
  unfold toDays
  simp only
  omega

example : ofDays 719468 = ⟨1970, 1, 1⟩ := by decide

example : ofDays 730484 = ⟨2000, 2, 29⟩ := by decide

end Date

/-! ### Decimal fields -/

/-- `n` in decimal, filled up with zeros to `w` digits. -/
def padded (w n : ℕ) : List Char :=
  List.replicate (w - (Nat.toDigits 10 n).length) '0' ++ Nat.toDigits 10 n

theorem ofDigitChars_padded (w n : ℕ) : Nat.ofDigitChars 10 (padded w n) 0 = n := by
  rw [padded, Nat.ofDigitChars_append, Nat.ofDigitChars_replicate_zero, Nat.mul_zero,
    Nat.ofDigitChars_ten_toDigits]

theorem padded_injective (w : ℕ) : Function.Injective (padded w) := fun n m h => by
  rw [← ofDigitChars_padded w n, h, ofDigitChars_padded]

theorem isDigit_of_mem_padded {w n : ℕ} {c : Char} (h : c ∈ padded w n) : c.isDigit = true := by
  rcases List.mem_append.mp h with h | h
  · rw [List.eq_of_mem_replicate h]
    decide
  · exact Nat.isDigit_of_mem_toDigits (by omega) (by omega) h

theorem padded_ne_nil (w n : ℕ) : padded w n ≠ [] := by
  unfold padded
  exact fun h => Nat.toDigits_ne_nil (List.append_eq_nil_iff.mp h).2

/-- Two texts that go on after the same separator, which neither contains. -/
theorem append_cons_inj {α : Type*} {c : α} : ∀ {x y l l' : List α}, c ∉ x → c ∉ y →
    x ++ c :: l = y ++ c :: l' → x = y ∧ l = l'
  | [], [], _, _, _, _, h => ⟨rfl, (List.cons.inj h).2⟩
  | [], b :: _, _, _, _, hy, h => absurd (List.mem_cons.mpr (.inl (List.cons.inj h).1)) hy
  | a :: _, [], _, _, hx, _, h => absurd (List.mem_cons.mpr (.inl (List.cons.inj h).1.symm)) hx
  | a :: x, b :: y, _, _, hx, hy, h => by
    obtain ⟨rfl, h'⟩ := List.cons.inj h
    obtain ⟨rfl, hl⟩ := append_cons_inj (List.not_mem_of_not_mem_cons hx)
      (List.not_mem_of_not_mem_cons hy) h'
    exact ⟨rfl, hl⟩

/-- A field before a separator that is no digit can be told apart from the rest. -/
theorem padded_append_inj {w n m : ℕ} {c : Char} {l l' : List Char} (hc : c.isDigit = false)
    (h : padded w n ++ c :: l = padded w m ++ c :: l') : n = m ∧ l = l' := by
  have hn : ∀ k, c ∉ padded w k := fun k hk => by
    rw [isDigit_of_mem_padded hk] at hc
    cases hc
  obtain ⟨h1, h2⟩ := append_cons_inj (hn n) (hn m) h
  exact ⟨padded_injective w h1, h2⟩

end Calendar
