import Mathlib.Algebra.Order.BigOperators.Group.List
import Mathlib.Data.List.Lex
import Mathlib.Data.Nat.Find
import Mathlib.Order.Monotone.Basic
import Mathlib.Tactic.IntervalCases
import Mathlib.Tactic.Tauto

/-! # The calendar and the clock

Microseconds since the beginning of the year 0, as the years, months, days,
hours, minutes, seconds, milliseconds and microseconds of the Gregorian
calendar. The fields determine the number, and are ordered as it is.
-/

namespace Dart

section Segments

/-- The last of the segments up to the bound that begins at the number or before it. -/
def segment (start : ℕ → ℕ) (bound n : ℕ) : ℕ := Nat.findGreatest (fun i => start i ≤ n) bound

variable {start : ℕ → ℕ} {bound i j m n : ℕ}

theorem segment_le (start : ℕ → ℕ) (bound n : ℕ) : segment start bound n ≤ bound :=
  Nat.findGreatest_le bound

theorem start_segment_le (h0 : start 0 ≤ n) : start (segment start bound n) ≤ n :=
  Nat.findGreatest_spec (P := fun i => start i ≤ n) (Nat.zero_le bound) h0

theorem lt_start_segment_succ (h : n < start (bound + 1)) :
    n < start (segment start bound n + 1) := by
  rcases (segment_le start bound n).lt_or_eq with hlt | heq
  · exact Nat.lt_of_not_le
      (Nat.findGreatest_is_greatest (P := fun i => start i ≤ n) (Nat.lt_succ_self _) hlt)
  · rwa [heq]

theorem lt_iff_segment (hstart : Monotone start) (hn : start i ≤ n ∧ n < start (i + 1))
    (hm : start j ≤ m ∧ m < start (j + 1)) :
    n < m ↔ i < j ∨ i = j ∧ n - start i < m - start j := by
  rcases Nat.lt_trichotomy i j with h | rfl | h
  · have hle : start (i + 1) ≤ start j := hstart h
    omega
  · omega
  · have hle : start (j + 1) ≤ start i := hstart h
    omega

theorem lt_iff_div_mod (k : ℕ) : n < m ↔ n / k < m / k ∨ n / k = m / k ∧ n % k < m % k := by
  have hn := Nat.div_add_mod n k
  have hm := Nat.div_add_mod m k
  constructor
  · intro h
    rcases (Nat.div_le_div_right h.le : n / k ≤ m / k).lt_or_eq with hlt | heq
    · exact .inl hlt
    · rw [heq] at hn
      exact .inr ⟨heq, by omega⟩
  · rintro (hlt | ⟨heq, hlt⟩)
    · exact Nat.lt_of_not_le fun hle => absurd (Nat.div_le_div_right hle) (Nat.not_le.mpr hlt)
    · rw [heq] at hn
      omega

end Segments

def daysBeforeYear (year : ℕ) : ℕ :=
  365 * year + (year + 3) / 4 + (year + 399) / 400 - (year + 99) / 100

def isLeapYear (year : ℕ) : Bool := year % 4 = 0 && (year % 100 ≠ 0 || year % 400 = 0)

def monthLengths (leap : Bool) : List ℕ :=
  [31, if leap then 29 else 28, 31, 30, 31, 30, 31, 31, 30, 31, 30, 31]

def daysBeforeMonth (leap : Bool) (month : ℕ) : ℕ := ((monthLengths leap).take month).sum

theorem isLeapYear_iff (year : ℕ) :
    isLeapYear year = true ↔ year % 4 = 0 ∧ (year % 100 ≠ 0 ∨ year % 400 = 0) := by
  simp [isLeapYear]

/-- There is one multiple of `k` more in front of `n + 1` if `n` is one. -/
theorem multiples_succ (n : ℕ) {k : ℕ} (hk : 0 < k) :
    (n + 1 + (k - 1)) / k = (n + (k - 1)) / k + if n % k = 0 then 1 else 0 := by
  have hcomm : n + 1 + (k - 1) = n + (k - 1) + 1 := by omega
  have hround : n + (k - 1) + 1 = n + k := by omega
  have hdvd : k ∣ n + k ↔ n % k = 0 := by
    rw [Nat.dvd_add_self_right, Nat.dvd_iff_mod_eq_zero]
  rw [hcomm, Nat.succ_div, hround]
  simp only [hdvd]

theorem daysBeforeYear_succ (year : ℕ) :
    daysBeforeYear (year + 1) = daysBeforeYear year + daysBeforeMonth (isLeapYear year) 12 := by
  have hdays (leap : Bool) : daysBeforeMonth leap 12 = if leap = true then 366 else 365 := by
    cases leap <;> rfl
  have hfour := multiples_succ year (k := 4) (by decide)
  have hhundred := multiples_succ year (k := 100) (by decide)
  have hfourHundred := multiples_succ year (k := 400) (by decide)
  have hcenturies : (year + 99) / 100 ≤ year := by omega
  simp only [hdays, daysBeforeYear, isLeapYear_iff]
  rw [hfour, hhundred, hfourHundred]
  clear hfour hhundred hfourHundred
  generalize (year + (4 - 1)) / 4 = fours
  generalize (year + 99) / 100 = centuries at hcenturies ⊢
  split_ifs <;> omega

theorem daysBeforeYear_mono : Monotone daysBeforeYear :=
  monotone_nat_of_le_succ fun year => by rw [daysBeforeYear_succ]; omega

theorem le_daysBeforeYear (year : ℕ) : 365 * year ≤ daysBeforeYear year := by
  rw [daysBeforeYear]
  omega

theorem daysBeforeMonth_mono (leap : Bool) : Monotone (daysBeforeMonth leap) := by
  intro i j hij
  exact (List.take_sublist_take_left hij).sum_le_sum fun _ _ => Nat.zero_le _

theorem daysBeforeMonth_succ_le (leap : Bool) {month : ℕ} (h : month ≤ 11) :
    daysBeforeMonth leap (month + 1) ≤ daysBeforeMonth leap month + 31 := by
  interval_cases month <;> cases leap <;> decide

@[ext] structure Fields where
  year : ℕ
  month : ℕ
  day : ℕ
  hour : ℕ
  minute : ℕ
  second : ℕ
  millisecond : ℕ
  microsecond : ℕ
  deriving DecidableEq

namespace Fields

def timeOfDay (f : Fields) : List ℕ :=
  [f.hour, f.minute, f.second, f.millisecond, f.microsecond]

/-- The fields in the order in which they weigh. -/
def toList (f : Fields) : List ℕ := f.year :: f.month :: f.day :: f.timeOfDay

/-- The number of the day, for the months of the year and beyond. -/
def dayNumber (year month day : ℕ) : ℕ :=
  let year := year + (month - 1) / 12
  daysBeforeYear year + daysBeforeMonth (isLeapYear year) ((month - 1) % 12) + (day - 1)

def toMicroseconds (f : Fields) : ℕ :=
  ((((dayNumber f.year f.month f.day * 24 + f.hour) * 60 + f.minute) * 60 + f.second) * 1000 +
    f.millisecond) * 1000 + f.microsecond

end Fields

namespace Calendar

variable (t u : ℕ)

def days : ℕ := t / 86400000000

def year : ℕ := segment daysBeforeYear (days t / 365) (days t)

/-- The day of the year, counted from 0. -/
def dayOfYear : ℕ := days t - daysBeforeYear (year t)

/-- The month, counted from 0. -/
def month : ℕ := segment (daysBeforeMonth (isLeapYear (year t))) 11 (dayOfYear t)

/-- The day of the month, counted from 0. -/
def day : ℕ := dayOfYear t - daysBeforeMonth (isLeapYear (year t)) (month t)

theorem year_spec : daysBeforeYear (year t) ≤ days t ∧ days t < daysBeforeYear (year t + 1) := by
  refine ⟨start_segment_le (Nat.zero_le _), lt_start_segment_succ ?_⟩
  have hle := le_daysBeforeYear (days t / 365 + 1)
  omega

theorem month_spec : daysBeforeMonth (isLeapYear (year t)) (month t) ≤ dayOfYear t ∧
    dayOfYear t < daysBeforeMonth (isLeapYear (year t)) (month t + 1) := by
  refine ⟨start_segment_le (Nat.zero_le _), lt_start_segment_succ ?_⟩
  have hyear := year_spec t
  rw [daysBeforeYear_succ] at hyear
  change days t - daysBeforeYear (year t) < daysBeforeMonth (isLeapYear (year t)) 12
  omega

theorem month_le : month t ≤ 11 := segment_le _ _ _

theorem day_lt : day t < 31 := by
  have hmonth := month_spec t
  have hle := daysBeforeMonth_succ_le (isLeapYear (year t)) (month_le t)
  rw [day]
  omega

theorem days_eq : daysBeforeYear (year t) + daysBeforeMonth (isLeapYear (year t)) (month t) +
    day t = days t := by
  have hyear := (year_spec t).1
  have hmonth := (month_spec t).1
  rw [dayOfYear] at hmonth
  rw [day, dayOfYear]
  omega

theorem days_inj_iff : days t = days u ↔ year t = year u ∧ month t = month u ∧ day t = day u := by
  constructor
  · intro h
    have hyear : year t = year u := by rw [year, year, h]
    have hdays : dayOfYear t = dayOfYear u := by rw [dayOfYear, dayOfYear, h, hyear]
    have hmonth : month t = month u := by rw [month, month, hdays, hyear]
    exact ⟨hyear, hmonth, by rw [day, day, hdays, hyear, hmonth]⟩
  · rintro ⟨hyear, hmonth, hday⟩
    rw [← days_eq t, ← days_eq u, hyear, hmonth, hday]

theorem days_lt_iff : days t < days u ↔ year t < year u ∨ year t = year u ∧
    (month t < month u ∨ month t = month u ∧ day t < day u) := by
  rw [lt_iff_segment daysBeforeYear_mono (year_spec t) (year_spec u)]
  refine or_congr_right (and_congr_right fun hyear => ?_)
  have hmonth := month_spec t
  rw [hyear] at hmonth
  change dayOfYear t < dayOfYear u ↔ _
  rw [lt_iff_segment (daysBeforeMonth_mono _) hmonth (month_spec u), day, day, hyear]

end Calendar

namespace Fields

def ofMicroseconds (t : ℕ) : Fields where
  year := Calendar.year t
  month := Calendar.month t + 1
  day := Calendar.day t + 1
  hour := t % 86400000000 / 3600000000
  minute := t % 3600000000 / 60000000
  second := t % 60000000 / 1000000
  millisecond := t % 1000000 / 1000
  microsecond := t % 1000

/-- Units of `k` smaller ones, and the smaller ones beside them. -/
theorem div_mul_add_mod_div (t n k : ℕ) : t / (n * k) * k + t % (n * k) / n = t / n := by
  rw [Nat.mod_mul_right_div_self, ← Nat.div_div_eq_div_mul, Nat.div_add_mod']

theorem toMicroseconds_ofMicroseconds (t : ℕ) : (ofMicroseconds t).toMicroseconds = t := by
  have hmonth := Calendar.month_le t
  have hday : dayNumber (Calendar.year t) (Calendar.month t + 1) (Calendar.day t + 1) =
      Calendar.days t := by
    have hdiv : (Calendar.month t + 1 - 1) / 12 = 0 := by omega
    have hmod : (Calendar.month t + 1 - 1) % 12 = Calendar.month t := by omega
    rw [dayNumber, hdiv, hmod, Nat.add_zero, Nat.add_sub_cancel, Calendar.days_eq]
  have hhour : t / 86400000000 * 24 + t % 86400000000 / 3600000000 = t / 3600000000 :=
    div_mul_add_mod_div t 3600000000 24
  have hminute : t / 3600000000 * 60 + t % 3600000000 / 60000000 = t / 60000000 :=
    div_mul_add_mod_div t 60000000 60
  have hsecond : t / 60000000 * 60 + t % 60000000 / 1000000 = t / 1000000 :=
    div_mul_add_mod_div t 1000000 60
  have hmillisecond : t / 1000000 * 1000 + t % 1000000 / 1000 = t / 1000 :=
    div_mul_add_mod_div t 1000 1000
  simp only [toMicroseconds, ofMicroseconds, hday, Calendar.days]
  rw [hhour, hminute, hsecond, hmillisecond, Nat.div_add_mod']

theorem timeOfDay_lt_iff (t u : ℕ) :
    (ofMicroseconds t).timeOfDay < (ofMicroseconds u).timeOfDay ↔
      t % 86400000000 < u % 86400000000 := by
  have hmod (k l n : ℕ) (hkl : l ∣ k) : n % k % l = n % l := Nat.mod_mod_of_dvd n hkl
  rw [lt_iff_div_mod 3600000000, hmod _ _ t (by decide), hmod _ _ u (by decide),
    lt_iff_div_mod (n := t % 3600000000) 60000000, hmod _ _ t (by decide), hmod _ _ u (by decide),
    lt_iff_div_mod (n := t % 60000000) 1000000, hmod _ _ t (by decide), hmod _ _ u (by decide),
    lt_iff_div_mod (n := t % 1000000) 1000, hmod _ _ t (by decide), hmod _ _ u (by decide)]
  simp [timeOfDay, ofMicroseconds, List.cons_lt_cons_iff]

theorem toList_lt_iff (t u : ℕ) :
    (ofMicroseconds t).toList < (ofMicroseconds u).toList ↔ t < u := by
  rw [toList, toList, List.cons_lt_cons_iff, List.cons_lt_cons_iff, List.cons_lt_cons_iff,
    timeOfDay_lt_iff, lt_iff_div_mod (n := t) 86400000000]
  change _ ↔ Calendar.days t < Calendar.days u ∨ Calendar.days t = Calendar.days u ∧ _
  rw [Calendar.days_lt_iff, Calendar.days_inj_iff]
  simp only [ofMicroseconds, Nat.add_lt_add_iff_right, Nat.add_right_cancel_iff]
  tauto

end Fields

end Dart
