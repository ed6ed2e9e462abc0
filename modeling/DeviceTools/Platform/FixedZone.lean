/-
Fixed-offset time zones.

The civil dates follow the Gregorian calendar, counted in days from 1969-12-31 on, the
earliest local date of a 32-bit time.  `Tm.days` is the inverse count that `mktime` makes,
and `fixedZone` is the zone whose local time is a fixed number of seconds ahead of or behind
universal time.
-/
import DeviceTools.Platform.Calendar

namespace DeviceTools

/-- A leap year of the Gregorian calendar. -/
def isLeap (y : ℕ) : Bool := y % 4 = 0 && (y % 100 ≠ 0 || y % 400 = 0)

/-- The number of days of month `m`, counted from 0. -/
def daysIn (y m : ℕ) : ℕ :=
  if m = 1 then (if isLeap y then 29 else 28)
  else if m = 3 ∨ m = 5 ∨ m = 8 ∨ m = 10 then 30 else 31

/-- The number of days of the year before month `m`. -/
def daysBeforeMonth (y m : ℕ) : ℕ := ((List.range m).map (daysIn y)).sum

/-- The number of days before year `y`. -/
def daysBeforeYear (y : ℕ) : ℕ := 365 * (y - 1) + (y - 1) / 4 - (y - 1) / 100 + (y - 1) / 400

lemma daysIn_pos (y m : ℕ) : 1 ≤ daysIn y m := by
  simp only [daysIn]
  split_ifs <;> omega

lemma daysIn_le (y m : ℕ) : daysIn y m ≤ 31 := by
  simp only [daysIn]
  split_ifs <;> omega

lemma daysBeforeMonth_succ (y m : ℕ) :
    daysBeforeMonth y (m + 1) = daysBeforeMonth y m + daysIn y m := by
  simp [daysBeforeMonth, List.range_succ]

/-- A year has 365 days, or 366 if it is a leap year. -/
lemma daysBeforeYear_succ {y : ℕ} (hy : 1 ≤ y) :
    daysBeforeYear (y + 1) = daysBeforeYear y + daysBeforeMonth y 12 := by
  have hmonths : daysBeforeMonth y 12 = if isLeap y then 366 else 365 := by
    cases h : isLeap y <;> simp [daysBeforeMonth, daysIn, List.range_succ, h]
  obtain ⟨z, rfl⟩ : ∃ z, y = z + 1 := ⟨y - 1, by omega⟩
  rw [hmonths]
  simp only [daysBeforeYear, Nat.add_sub_cancel]
  have hsub : z / 100 ≤ z / 4 ∧ (z + 1) / 100 ≤ (z + 1) / 4 := by omega
  cases h : isLeap (z + 1) with
  | true =>
      simp only [isLeap, Bool.and_eq_true, Bool.or_eq_true, decide_eq_true_eq] at h
      rw [if_pos rfl]
      rcases h with ⟨h4, h100 | h400⟩
      · have h1 : (z + 1) / 4 = z / 4 + 1 := by omega
        have h2 : (z + 1) / 100 = z / 100 := by omega
        have h3 : (z + 1) / 400 = z / 400 := by omega
        omega
      · have h1 : (z + 1) / 4 = z / 4 + 1 := by omega
        have h2 : (z + 1) / 100 = z / 100 + 1 := by omega
        have h3 : (z + 1) / 400 = z / 400 + 1 := by omega
        omega
  | false =>
      simp only [isLeap, Bool.and_eq_false_iff, Bool.or_eq_false_iff, decide_eq_false_iff_not] at h
      rw [if_neg (by simp)]
      rcases h with h4 | ⟨h100, h400⟩
      · have h1 : (z + 1) / 4 = z / 4 := by omega
        have h2 : (z + 1) / 100 = z / 100 := by omega
        have h3 : (z + 1) / 400 = z / 400 := by omega
        omega
      · have h1 : (z + 1) / 4 = z / 4 + 1 := by omega
        have h2 : (z + 1) / 100 = z / 100 + 1 := by omega
        have h3 : (z + 1) / 400 = z / 400 := by omega
        omega

namespace Tm

/-- The date is one of the calendar. -/
def Real (tm : Tm) : Prop := tm.tm_mday ≤ daysIn (tm.tm_year + 1900) tm.tm_mon

/-- The next date.  The last date that a `Tm` can hold is its own successor. -/
def next (tm : Tm) : Tm :=
  if h : tm.tm_mday < daysIn (tm.tm_year + 1900) tm.tm_mon then
    { tm with
      tm_mday := tm.tm_mday + 1
      mday_pos := by omega
      mday_le := le_trans h (daysIn_le _ _) }
  else if h : tm.tm_mon < 11 then
    { tm with
      tm_mon := tm.tm_mon + 1
      tm_mday := 1
      mon_lt := by omega
      mday_pos := le_rfl
      mday_le := by omega }
  else if h : tm.tm_year < 8099 then ⟨tm.tm_year + 1, 0, 1, h, by omega, le_rfl, by omega⟩
  else tm

/-- The number of days from 1969-12-31 to a date. -/
def days (tm : Tm) : ℕ :=
  daysBeforeYear (tm.tm_year + 1900) + daysBeforeMonth (tm.tm_year + 1900) tm.tm_mon + tm.tm_mday
    - 719162

/-- The date that comes a number of days after 1969-12-31. -/
def ofDays : ℕ → Tm
  | 0 => ⟨69, 11, 31, by decide, by decide, by decide, le_rfl⟩
  | n + 1 => next (ofDays n)

lemma real_next {tm : Tm} (h : tm.Real) : tm.next.Real := by
  rw [next]
  split
  · next hd => exact hd
  · split
    · exact daysIn_pos _ _
    · split
      · exact daysIn_pos _ _
      · exact h

lemma real_ofDays (n : ℕ) : (ofDays n).Real := by
  induction n with
  | zero => simp [ofDays, Real, daysIn]
  | succ n ih => exact real_next ih

/-- The number of the last date of a year with four digits, as `ofDays` counts. -/
def LAST_DAY : ℕ := 2932897

/-- The sum that `days` subtracts from goes up by 1 with each date. -/
lemma daysSum_next {tm : Tm} (h : tm.Real) (hlast : tm.tm_year < 8099 ∨ tm.tm_mon < 11 ∨ tm.tm_mday < 31) :
    daysBeforeYear (tm.next.tm_year + 1900) + daysBeforeMonth (tm.next.tm_year + 1900) tm.next.tm_mon
        + tm.next.tm_mday =
      daysBeforeYear (tm.tm_year + 1900) + daysBeforeMonth (tm.tm_year + 1900) tm.tm_mon
        + tm.tm_mday + 1 := by
  rw [Real] at h
  rw [next]
  split
  · simp only
    omega
  · next hd =>
      split
      · simp only [daysBeforeMonth_succ]
        omega
      · next hm =>
          have hm11 : tm.tm_mon = 11 := by have := tm.mon_lt; omega
          have hd31 : 31 ≤ tm.tm_mday := by rw [hm11] at hd; exact not_lt.1 hd
          have hy : tm.tm_year < 8099 := by omega
          have hyear := daysBeforeYear_succ (show 1 ≤ tm.tm_year + 1900 by omega)
          have hjan : daysBeforeMonth (tm.tm_year + 1 + 1900) 0 = 0 := rfl
          rw [daysBeforeMonth_succ] at hyear
          rw [hm11] at h hd ⊢
          simp only [dif_pos hy, hjan, show tm.tm_year + 1 + 1900 = tm.tm_year + 1900 + 1 by omega, hyear]
          omega

lemma stamp_lt_next {tm : Tm} (hlast : tm.tm_year < 8099 ∨ tm.tm_mon < 11 ∨ tm.tm_mday < 31) :
    tm.stamp < tm.next.stamp := by
  have h1 := tm.mday_le; have h2 := tm.mon_lt
  rw [next]
  split
  · simp only [stamp]; omega
  · next hd =>
      split
      · simp only [stamp]; omega
      · next hm =>
          have hm11 : tm.tm_mon = 11 := by omega
          have hd31 : 31 ≤ tm.tm_mday := by rw [hm11] at hd; exact not_lt.1 hd
          have hy : tm.tm_year < 8099 := by omega
          simp only [dif_pos hy, stamp]
          omega

/-- The dates before the last one are those with a smaller number of days. -/
lemma before_last {tm : Tm}
    (h : daysBeforeYear (tm.tm_year + 1900) + daysBeforeMonth (tm.tm_year + 1900) tm.tm_mon + tm.tm_mday
      < 719162 + LAST_DAY) : tm.tm_year < 8099 ∨ tm.tm_mon < 11 ∨ tm.tm_mday < 31 := by
  by_contra hc
  obtain ⟨hy, hm, hd⟩ : tm.tm_year = 8099 ∧ tm.tm_mon = 11 ∧ tm.tm_mday = 31 := by
    have h1 := tm.year_le; have h2 := tm.mon_lt; have h3 := tm.mday_le
    omega
  rw [hy, hm, hd] at h
  exact absurd h (by decide)

/-- **`days` counts the dates**: up to the last date it is the inverse of `ofDays`. -/
lemma daysSum_ofDays {n : ℕ} (hn : n ≤ LAST_DAY) :
    daysBeforeYear ((ofDays n).tm_year + 1900) +
      daysBeforeMonth ((ofDays n).tm_year + 1900) (ofDays n).tm_mon + (ofDays n).tm_mday = 719162 + n := by
  induction n with
  | zero => simp [ofDays, daysBeforeYear, daysBeforeMonth, daysIn, List.range_succ, isLeap]
  | succ n ih =>
      have hsum := ih (by omega)
      have h := daysSum_next (real_ofDays n) (before_last (by omega))
      rw [hsum] at h
      exact h

lemma days_ofDays {n : ℕ} (hn : n < 10 ^ 6) : (ofDays n).days = n :=
  Nat.sub_eq_of_eq_add' (daysSum_ofDays (hn.le.trans (by decide)))

/-- Later days have larger stamps. -/
lemma stamp_ofDays_lt {m n : ℕ} (hmn : m < n) (hn : n ≤ LAST_DAY) :
    (ofDays m).stamp < (ofDays n).stamp := by
  induction n with
  | zero => omega
  | succ n ih =>
      have hnext : (ofDays n).stamp < (ofDays (n + 1)).stamp :=
        stamp_lt_next (before_last (by have := daysSum_ofDays (n := n) (by omega); omega))
      rcases Nat.lt_succ_iff_lt_or_eq.1 hmn with h | rfl
      · exact (ih h (by omega)).trans hnext
      · exact hnext

end Tm

/-! ### Zones -/

/-- The seconds of a day. -/
def DAY : ℕ := 24 * 60 * 60

/-- A zone whose local time differs from universal time by a fixed number of seconds, less
than a day.  `east` is that number plus the seconds of one day. -/
structure FixedZone where
  east : ℕ
  east_lt : east < 2 * DAY

namespace FixedZone

/-- Universal time. -/
def utc : FixedZone := ⟨DAY, by decide⟩

variable (Z : FixedZone)

/-- The local day of a time, counted from 1969-12-31. -/
def dayOf (t : ℕ) : ℕ := (t + Z.east) / DAY

/-- `localtime_r`. -/
def zone : Zone := ⟨fun t => Tm.ofDays (Z.dayOf t)⟩

/-- `mktime` of a local midnight, as a 32-bit `time_t` stored in an `unsigned int`. -/
def mktime (tm : Tm) : ℕ := (((tm.days * DAY : ℕ) : ℤ) - Z.east).emod (2 ^ 32) |>.toNat

/-- The pair of functions of the zone. -/
def toTimeZone : TimeZone := { Z.zone with mktime := Z.mktime }

instance : Coe FixedZone TimeZone := ⟨toTimeZone⟩

@[simp] lemma toTimeZone_localtime (t : ℕ) : Z.toTimeZone.localtime t = Z.zone.localtime t := rfl

lemma dayOf_lt {t : ℕ} (h : t < 2 ^ 32 + DAY) : Z.dayOf t < 10 ^ 6 := by
  have := Z.east_lt
  simp only [dayOf, DAY] at *
  omega

lemma dayOf_mono {t u : ℕ} (h : t ≤ u) : Z.dayOf t ≤ Z.dayOf u :=
  Nat.div_le_div_right (by omega)

lemma le_dayOf_iff {k t : ℕ} : k ≤ Z.dayOf t ↔ k * DAY ≤ t + Z.east :=
  Nat.le_div_iff_mul_le (by decide)

lemma dayOf_midnight {t k : ℕ} (h : t + Z.east = k * DAY) : Z.dayOf t = k := by
  rw [dayOf, h, Nat.mul_div_cancel _ (by decide)]

/-- Two times of 32 bits compare by day as their stamps do. -/
lemma stamp_le_iff {t u : ℕ} (ht : t < 2 ^ 32) (hu : u < 2 ^ 32) :
    (Z.zone.localtime t).stamp ≤ (Z.zone.localtime u).stamp ↔ Z.dayOf t ≤ Z.dayOf u := by
  have hbt := Z.dayOf_lt (t := t) (by simp only [DAY]; omega)
  have hbu := Z.dayOf_lt (t := u) (by simp only [DAY]; omega)
  constructor
  · intro h
    by_contra hlt
    exact absurd (Tm.stamp_ofDays_lt (not_le.1 hlt) (hbt.le.trans (by decide))) (not_lt.2 h)
  · intro h
    rcases Nat.lt_or_eq_of_le h with hlt | heq
    · exact (Tm.stamp_ofDays_lt hlt (hbu.le.trans (by decide))).le
    · exact le_of_eq (congrArg (fun n => (Tm.ofDays n).stamp) heq)

end FixedZone

end DeviceTools
