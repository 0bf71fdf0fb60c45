/-
# Ages

`StringUtil.calculateTimeDiff` shows the age of a post or comment in the largest
unit that it exceeds. Its branches compare with `<` on both sides, so an age that
is a unit exactly is in none of them and is shown as nothing.

Key definitions: `calculateTimeDiff`, `AgeUnit`, `ShowsAge`, `Denotes`.
Key theorems: `showsAge_iff`, `denotes_mono`, `ages_iff`.
-/
import Mathlib.Data.Rat.Floor
import Mathlib.Tactic.Ring
import FootballGallery.Lib.Calendar

namespace FootballGallery
namespace StringUtil

/-! ### The label -/

/-- `(int) Math.ceil(x)` -/
def ceilInt (x : ℚ) : ℤ := max (-2147483648) (min 2147483647 ⌈x⌉)

/-- `curr` and `date` in milliseconds; the divisions are exact. -/
def calculateTimeDiff (curr date : ℤ) : String :=
  let diff : ℚ := (curr - date : ℤ)
  let seconds := diff / 1000
  let minutes := seconds / 60
  let hours := minutes / 60
  let days := hours / 24
  let weeks := days / 7
  let months := weeks / 4
  let years := months / 12
  let (unit, value) : String × ℤ :=
    if minutes < 1 then ("just now", 0)
    else if 1 < minutes ∧ hours < 1 then ("min", ceilInt minutes)
    else if 1 < hours ∧ days < 1 then ("h", ceilInt hours)
    else if 1 < days ∧ weeks < 1 then ("d", ceilInt days)
    else if 1 < weeks ∧ months < 1 then ("w", ceilInt weeks)
    else if 1 < months ∧ years < 1 then ("mo", ceilInt months)
    else if 1 < years then ("y", ceilInt years)
    else ("", 0)
  if value = 0 then unit else toString value ++ unit

/-! ### What it should say -/

inductive AgeUnit where
  | minute | hour | day | week | month | year
deriving DecidableEq

namespace AgeUnit

/-- A month is four weeks, and a year twelve such months. -/
def millis : AgeUnit → ℤ
  | minute => 60000
  | hour => 3600000
  | day => 86400000
  | week => 604800000
  | month => 2419200000
  | year => 29030400000

def label : AgeUnit → String
  | minute => "min"
  | hour => "h"
  | day => "d"
  | week => "w"
  | month => "mo"
  | year => "y"

/-- The largest unit that does not exceed the difference. -/
def IsLargest (u : AgeUnit) (diff : ℤ) : Prop := u.millis ≤ diff ∧ ∀ v : AgeUnit, v.millis ≤ diff → v.millis ≤ u.millis

theorem millis_pos (u : AgeUnit) : 0 < u.millis := by
  cases u <;> decide

theorem millis_le_year (u : AgeUnit) : u.millis ≤ year.millis := by
  cases u <;> decide

/-- Between a unit and the next one. -/
theorem isLargest_of_lt {u v : AgeUnit} {diff : ℤ} (hu : u.millis < diff) (hv : diff < v.millis)
    (hnext : ∀ w : AgeUnit, w.millis ≤ u.millis ∨ v.millis ≤ w.millis) : u.IsLargest diff := by
  refine ⟨hu.le, fun w hw => ?_⟩
  rcases hnext w with hle | hle
  · exact hle
  · omega

theorem millis_dvd {u v : AgeUnit} (h : u.millis < v.millis) : u.millis ∣ v.millis := by
  cases u <;> cases v <;> revert h <;> decide

theorem label_injective : Function.Injective label := by
  intro u v h
  cases u <;> cases v <;> first | rfl | exact absurd h (by decide)

theorem label_head (u : AgeUnit) : ∃ c cs, u.label.toList = c :: cs ∧ c.isDigit = false := by
  cases u
  all_goals exact ⟨_, _, rfl, by decide⟩

end AgeUnit

/-- `r` is the label of an age of `diff` milliseconds. -/
def ShowsAge (diff : ℤ) (r : String) : Prop :=
  if diff < 60000 then r = "just now"
  else ∃ u : AgeUnit, u.IsLargest diff ∧ r = toString ⌈(diff : ℚ) / u.millis⌉ ++ u.label

/-- The duration in milliseconds that a label denotes. -/
def Denotes (r : String) (duration : ℤ) : Prop :=
  r = "just now" ∧ duration = 0 ∨ ∃ (n : ℕ) (u : AgeUnit), r = toString n ++ u.label ∧ duration = n * u.millis

/-! ### The branches -/

theorem div_lt_one_iff {diff m : ℤ} (hm : 0 < m) : (diff : ℚ) / m < 1 ↔ diff < m := by
  rw [div_lt_one (by exact_mod_cast hm)]
  exact_mod_cast Iff.rfl

theorem one_lt_div_iff {diff m : ℤ} (hm : 0 < m) : 1 < (diff : ℚ) / m ↔ m < diff := by
  rw [one_lt_div (by exact_mod_cast hm)]
  exact_mod_cast Iff.rfl

/-- The next larger unit. -/
theorem div_millis {u v : AgeUnit} {k : ℚ} (diff : ℤ) (h : (u.millis : ℚ) * k = v.millis) :
    (diff : ℚ) / u.millis / k = diff / v.millis := by
  rw [div_div, h]

/-- **What the branches do**: below a minute, above the largest unit, or at a unit. -/
theorem calculateTimeDiff_cases {curr date diff : ℤ} (hdiff : curr - date = diff) :
    diff < 60000 ∧ calculateTimeDiff curr date = "just now" ∨
    (∃ u : AgeUnit, u.millis < diff ∧ u.IsLargest diff ∧ calculateTimeDiff curr date =
      if ceilInt ((diff : ℚ) / u.millis) = 0 then u.label
      else toString (ceilInt ((diff : ℚ) / u.millis)) ++ u.label) ∨
    ∃ u : AgeUnit, diff = u.millis ∧ calculateTimeDiff curr date = "" := by
  have hminutes : (diff : ℚ) / 1000 / 60 = diff / AgeUnit.minute.millis := by
    rw [div_div]
    norm_num [AgeUnit.millis]
  have hhours := @div_millis .minute .hour 60 diff (by norm_num [AgeUnit.millis])
  have hdays := @div_millis .hour .day 24 diff (by norm_num [AgeUnit.millis])
  have hweeks := @div_millis .day .week 7 diff (by norm_num [AgeUnit.millis])
  have hmonths := @div_millis .week .month 4 diff (by norm_num [AgeUnit.millis])
  have hyears := @div_millis .month .year 12 diff (by norm_num [AgeUnit.millis])
  generalize hage : calculateTimeDiff curr date = age
  unfold calculateTimeDiff at hage
  simp only [hdiff, hminutes, hhours, hdays, hweeks, hmonths, hyears, div_lt_one_iff (AgeUnit.millis_pos _),
    one_lt_div_iff (AgeUnit.millis_pos _)] at hage
  clear hminutes hhours hdays hweeks hmonths hyears
  split at hage
  · rename_i hnow
    exact .inl ⟨hnow, hage.symm⟩
  · refine .inr ?_
    split at hage
    · rename_i hmin
      refine .inl ⟨.minute, hmin.1, AgeUnit.isLargest_of_lt hmin.1 hmin.2 fun w => ?_, hage.symm⟩
      cases w <;> decide
    · split at hage
      · rename_i hhour
        refine .inl ⟨.hour, hhour.1, AgeUnit.isLargest_of_lt hhour.1 hhour.2 fun w => ?_, hage.symm⟩
        cases w <;> decide
      · split at hage
        · rename_i hday
          refine .inl ⟨.day, hday.1, AgeUnit.isLargest_of_lt hday.1 hday.2 fun w => ?_, hage.symm⟩
          cases w <;> decide
        · split at hage
          · rename_i hweek
            refine .inl ⟨.week, hweek.1, AgeUnit.isLargest_of_lt hweek.1 hweek.2 fun w => ?_, hage.symm⟩
            cases w <;> decide
          · split at hage
            · rename_i hmonth
              refine .inl ⟨.month, hmonth.1, AgeUnit.isLargest_of_lt hmonth.1 hmonth.2 fun w => ?_, hage.symm⟩
              cases w <;> decide
            · split at hage
              · rename_i hyear
                exact .inl ⟨.year, hyear, ⟨hyear.le, fun w _ => w.millis_le_year⟩, hage.symm⟩
              · -- each branch excludes its bounds, so the difference is one of them
                have hunit : diff = AgeUnit.minute.millis ∨ diff = AgeUnit.hour.millis ∨
                    diff = AgeUnit.day.millis ∨ diff = AgeUnit.week.millis ∨ diff = AgeUnit.month.millis ∨
                    diff = AgeUnit.year.millis := by
                  simp only [AgeUnit.millis] at *
                  omega
                refine .inr ?_
                rcases hunit with h | h | h | h | h | h
                all_goals exact ⟨_, h, hage.symm⟩

theorem ceil_div_pos {u : AgeUnit} {diff : ℤ} (hu : u.millis ≤ diff) : 0 < ⌈(diff : ℚ) / u.millis⌉ := by
  have hpos : (0 : ℚ) < u.millis := by exact_mod_cast u.millis_pos
  rw [Int.ceil_pos]
  refine div_pos ?_ hpos
  exact_mod_cast u.millis_pos.trans_le hu

/-- The value of a branch is the number of units, rounded up. -/
theorem ceilInt_eq {u : AgeUnit} {diff : ℤ} (hu : u.IsLargest diff) (hlong : diff < 2 ^ 63) :
    ceilInt ((diff : ℚ) / u.millis) = ⌈(diff : ℚ) / u.millis⌉ := by
  have hpos : (0 : ℚ) < u.millis := by exact_mod_cast u.millis_pos
  have hmul : diff ≤ 2147483647 * u.millis := by
    have hyear := hu.2 .year
    have hmonth := hu.2 .month
    have hweek := hu.2 .week
    have hday := hu.2 .day
    have hhour := hu.2 .hour
    cases u <;> simp only [AgeUnit.millis] at * <;> omega
  have hceil : ⌈(diff : ℚ) / u.millis⌉ ≤ 2147483647 := by
    rw [Int.ceil_le, div_le_iff₀ hpos]
    exact_mod_cast hmul
  have hone := ceil_div_pos hu.1
  unfold ceilInt
  omega

theorem ne_empty_of_showsAge {diff : ℤ} {r : String} (h : ShowsAge diff r) : r ≠ "" := by
  rintro rfl
  unfold ShowsAge at h
  split at h
  · revert h
    decide
  · obtain ⟨u, -, hu⟩ := h
    obtain ⟨c, cs, hlabel, -⟩ := u.label_head
    have hnil := congrArg String.toList hu
    rw [String.toList_append, hlabel] at hnil
    simp at hnil

/-- **An age is shown as it should be exactly when it is no unit.** -/
theorem showsAge_iff {curr date diff : ℤ} (hdiff : curr - date = diff) (hlong : diff < 2 ^ 63) :
    ShowsAge diff (calculateTimeDiff curr date) ↔ ∀ u : AgeUnit, diff ≠ u.millis := by
  rcases calculateTimeDiff_cases hdiff with ⟨hlt, hnow⟩ | ⟨u, hlt, hu, hage⟩ | ⟨u, rfl, hempty⟩
  · rw [hnow, ShowsAge, if_pos hlt]
    refine iff_of_true rfl fun u hu => ?_
    cases u <;> simp only [AgeUnit.millis] at * <;> omega
  · have hceil := ceilInt_eq hu hlong
    have hpos := ceil_div_pos hu.1
    have hminute : ¬ diff < 60000 := by
      cases u <;> simp only [AgeUnit.millis] at * <;> omega
    rw [hage, hceil, if_neg hpos.ne', ShowsAge, if_neg hminute]
    refine iff_of_true ⟨u, hu, rfl⟩ fun v hv => ?_
    have hle := hu.2 v hv.ge
    omega
  · rw [hempty]
    exact iff_of_false (fun h => ne_empty_of_showsAge h rfl) fun h => h u rfl

/-! ### What the labels denote -/

theorem toList_toString (n : ℕ) : (toString n).toList = Nat.toDigits 10 n := String.toList_ofList

/-- A number before a label can be told apart from it. -/
theorem age_inj {n m : ℕ} {u v : AgeUnit} (h : toString n ++ u.label = toString m ++ v.label) : n = m ∧ u = v := by
  have hparts : ∀ (n : ℕ) (u : AgeUnit), (toString n ++ u.label).toList.takeWhile Char.isDigit = Nat.toDigits 10 n ∧
      (toString n ++ u.label).toList.dropWhile Char.isDigit = u.label.toList := by
    intro n u
    obtain ⟨c, cs, hlabel, hc⟩ := u.label_head
    have hdigits : ∀ d ∈ Nat.toDigits 10 n, d.isDigit = true := fun d hd =>
      Nat.isDigit_of_mem_toDigits (by omega) (by omega) hd
    rw [String.toList_append, toList_toString, hlabel]
    constructor
    · rw [List.takeWhile_append_of_pos hdigits, List.takeWhile_cons_of_neg (by simp [hc]), List.append_nil]
    · rw [List.dropWhile_append_of_pos hdigits, List.dropWhile_cons_of_neg (by simp [hc])]
  obtain ⟨hn, hu⟩ := hparts n u
  obtain ⟨hm, hv⟩ := hparts m v
  rw [h] at hn hu
  constructor
  · have hdigits := hn.symm.trans hm
    rw [← Nat.ofDigitChars_ten_toDigits (n := n), hdigits, Nat.ofDigitChars_ten_toDigits]
  · exact AgeUnit.label_injective (String.toList_injective (hu.symm.trans hv))

/-- `just now` is no number with a label. -/
theorem age_ne_now (n : ℕ) (u : AgeUnit) : toString n ++ u.label ≠ "just now" := by
  intro h
  obtain ⟨d, ds, hd⟩ := List.exists_cons_of_ne_nil (Nat.toDigits_ne_nil (n := n) (b := 10))
  have hdigit : d.isDigit = true :=
    Nat.isDigit_of_mem_toDigits (by omega) (by omega) (hd ▸ List.mem_cons_self)
  have hlist := congrArg String.toList h
  rw [String.toList_append, toList_toString, hd] at hlist
  obtain rfl : d = 'j' := (List.cons.inj hlist).1
  revert hdigit
  decide

/-- The duration that a right label denotes. -/
theorem denotes_of_showsAge {diff duration : ℤ} {r : String} (h : ShowsAge diff r) (hd : Denotes r duration) :
    diff < 60000 ∧ duration = 0 ∨
      ∃ u : AgeUnit, u.IsLargest diff ∧ duration = ⌈(diff : ℚ) / u.millis⌉ * u.millis := by
  unfold ShowsAge at h
  split at h
  · rename_i hlt
    subst h
    rcases hd with ⟨-, rfl⟩ | ⟨n, u, hn, -⟩
    · exact .inl ⟨hlt, rfl⟩
    · exact absurd hn.symm (age_ne_now n u)
  · obtain ⟨u, hu, rfl⟩ := h
    obtain ⟨n, hn⟩ : ∃ n : ℕ, ⌈(diff : ℚ) / u.millis⌉ = n :=
      ⟨_, (Int.toNat_of_nonneg (ceil_div_pos hu.1).le).symm⟩
    rw [hn] at hd
    rcases hd with ⟨hnow, -⟩ | ⟨m, v, hm, rfl⟩
    · exact absurd hnow (age_ne_now n u)
    · obtain ⟨rfl, rfl⟩ := age_inj hm
      exact .inr ⟨u, hu, by rw [hn]⟩

/-- **A greater age does not denote a shorter duration.** -/
theorem denotes_mono {diff diff' duration duration' : ℤ} {r r' : String} (hr : ShowsAge diff r)
    (hr' : ShowsAge diff' r') (hle : diff ≤ diff') (hd : Denotes r duration) (hd' : Denotes r' duration') :
    duration ≤ duration' := by
  rcases denotes_of_showsAge hr hd with ⟨hlt, rfl⟩ | ⟨u, hu, rfl⟩
  · rcases hd' with ⟨-, rfl⟩ | ⟨n, v, -, rfl⟩
    · exact le_refl 0
    · exact Int.mul_nonneg (Int.natCast_nonneg n) v.millis_pos.le
  · rcases denotes_of_showsAge hr' hd' with ⟨hlt, -⟩ | ⟨u', hu', rfl⟩
    · have hminute : (60000 : ℤ) ≤ u.millis := by
        cases u <;> decide
      have hfirst := hu.1
      omega
    · have hpos : (0 : ℚ) < u.millis := by exact_mod_cast u.millis_pos
      have hunits : u.millis ≤ u'.millis := hu'.2 u (hu.1.trans hle)
      rcases hunits.eq_or_lt with heq | hlt
      · have hceil : ⌈(diff : ℚ) / u.millis⌉ ≤ ⌈(diff' : ℚ) / u.millis⌉ := by
          refine Int.ceil_mono (div_le_div_of_nonneg_right ?_ hpos.le)
          exact_mod_cast hle
        rw [← heq]
        exact Int.mul_le_mul_of_nonneg_right hceil u.millis_pos.le
      · -- the next unit has not been reached, and it is a whole number of these
        obtain ⟨k, hk⟩ := AgeUnit.millis_dvd hlt
        have hbelow : diff < u'.millis := by
          by_contra hge
          have hle' := hu.2 u' (by omega)
          omega
        have hceil : ⌈(diff : ℚ) / u.millis⌉ ≤ k := by
          rw [Int.ceil_le, div_le_iff₀ hpos, mul_comm]
          exact_mod_cast hk ▸ hbelow.le
        have hone := ceil_div_pos hu'.1
        calc ⌈(diff : ℚ) / u.millis⌉ * u.millis ≤ k * u.millis :=
              Int.mul_le_mul_of_nonneg_right hceil u.millis_pos.le
          _ = 1 * u'.millis := by rw [hk, mul_comm, one_mul]
          _ ≤ ⌈(diff' : ℚ) / u'.millis⌉ * u'.millis :=
              Int.mul_le_mul_of_nonneg_right (by omega) u'.millis_pos.le

/-- **Ages are shown as they should be, never empty and never running backwards**, of
two documents exactly when neither age is a unit. -/
theorem ages_iff {curr curr' date date' diff diff' : ℤ} (hdiff : curr - date = diff)
    (hdiff' : curr' - date' = diff') (hlong : 0 ≤ diff ∧ diff < 2 ^ 63) (hlong' : 0 ≤ diff' ∧ diff' < 2 ^ 63) :
    (ShowsAge diff (calculateTimeDiff curr date) ∧ ShowsAge diff' (calculateTimeDiff curr' date') ∧
      calculateTimeDiff curr date ≠ "" ∧ calculateTimeDiff curr' date' ≠ "" ∧
      (diff ≤ diff' → ∀ duration duration', Denotes (calculateTimeDiff curr date) duration →
        Denotes (calculateTimeDiff curr' date') duration' → duration ≤ duration')) ↔
      (∀ u : AgeUnit, diff ≠ u.millis) ∧ ∀ u : AgeUnit, diff' ≠ u.millis := by
  rw [← showsAge_iff hdiff hlong.2, ← showsAge_iff hdiff' hlong'.2]
  constructor
  · rintro ⟨h, h', -⟩
    exact ⟨h, h'⟩
  · rintro ⟨h, h'⟩
    exact ⟨h, h', ne_empty_of_showsAge h, ne_empty_of_showsAge h',
      fun hle _ _ hd hd' => denotes_mono h h' hle hd hd'⟩

/-- An hour and a half, and two days. -/
theorem ages_two : (ShowsAge 5400000 (calculateTimeDiff 5400000 0) ∧ ShowsAge 172800000 (calculateTimeDiff 172800000 0) ∧
      calculateTimeDiff 5400000 0 ≠ "" ∧ calculateTimeDiff 172800000 0 ≠ "" ∧
      (5400000 ≤ (172800000 : ℤ) → ∀ duration duration', Denotes (calculateTimeDiff 5400000 0) duration →
        Denotes (calculateTimeDiff 172800000 0) duration' → duration ≤ duration')) ↔
      (∀ u : AgeUnit, 5400000 ≠ u.millis) ∧ ∀ u : AgeUnit, 172800000 ≠ u.millis :=
  ages_iff (by decide) (by decide) (by decide) (by decide)

/-- A minute exactly is shown as nothing. -/
theorem age_of_minute : calculateTimeDiff 60000 0 = "" ∧ ¬ ShowsAge 60000 (calculateTimeDiff 60000 0) := by
  have hempty : calculateTimeDiff 60000 0 = "" := by decide +kernel
  refine ⟨hempty, fun h => ne_empty_of_showsAge h hempty⟩

end StringUtil
end FootballGallery
