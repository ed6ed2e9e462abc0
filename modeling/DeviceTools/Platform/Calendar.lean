/-
Calendar dates.

The libraries file events by calendar day.  They get the day of a time from
`localtime_r`, which belongs to the C library and the configured time zone; here it is a
parameter, a `Zone`.  What is fixed is the date structure it fills and the two ways in
which the code turns a date into a number and into a file name.
-/
import DeviceTools.Lib.Decimal

namespace DeviceTools

/-- The members of `struct tm` that the libraries use.  The bounds are those of the C
library for 32-bit times, whose years have four digits. -/
structure Tm where
  /-- Years since 1900. -/
  tm_year : ℕ
  /-- Months since January. -/
  tm_mon : ℕ
  /-- Day of the month. -/
  tm_mday : ℕ
  year_le : tm_year ≤ 8099
  mon_lt : tm_mon < 12
  mday_pos : 1 ≤ tm_mday
  mday_le : tm_mday ≤ 31
deriving DecidableEq, Repr

/-- A time zone: the broken-down local date of a 32-bit time. -/
structure Zone where
  localtime : ℕ → Tm

/-- A time zone with the inverse function: `mktime` of the midnight with which a date begins. -/
structure TimeZone extends Zone where
  mktime : Tm → ℕ

namespace Tm

/-- The number `curDataDay` that the save threads compare. -/
def dataDay (tm : Tm) : ℕ := tm.tm_year * 10000 + tm.tm_mon * 100 + tm.tm_mday

/-- The date as a number in the form `20120224`. -/
def stamp (tm : Tm) : ℕ := (tm.tm_year + 1900) * 10000 + (tm.tm_mon + 1) * 100 + tm.tm_mday

/-- The date as printed by `%04d%02d%02d`. -/
def name (tm : Tm) : List Char :=
  Decimal.pad 4 (tm.tm_year + 1900) ++ Decimal.pad 2 (tm.tm_mon + 1) ++ Decimal.pad 2 tm.tm_mday

lemma ext_of_fields {a b : Tm} (hy : a.tm_year = b.tm_year) (hm : a.tm_mon = b.tm_mon)
    (hd : a.tm_mday = b.tm_mday) : a = b := by
  cases a; cases b
  simp only at hy hm hd
  subst hy; subst hm; subst hd
  rfl

/-- The number that the save threads compare determines the date. -/
lemma dataDay_inj {a b : Tm} : a.dataDay = b.dataDay ↔ a = b := by
  constructor
  · intro h
    have ha := a.mon_lt; have hb := b.mon_lt
    have ha' := a.mday_le; have hb' := b.mday_le
    simp only [dataDay] at h
    exact ext_of_fields (by omega) (by omega) (by omega)
  · rintro rfl
    rfl

lemma stamp_lt (tm : Tm) : tm.stamp < 10 ^ 8 := by
  have h1 := tm.year_le; have h2 := tm.mon_lt; have h3 := tm.mday_le
  simp only [stamp]
  omega

/-- Printing the stamp with `%08d` gives the same text as printing its parts. -/
lemma pad_stamp (tm : Tm) : Decimal.pad 8 tm.stamp = tm.name := by
  have h1 := tm.year_le; have h2 := tm.mon_lt; have h3 := tm.mday_le
  have hhi : tm.stamp / 10 ^ 4 = tm.tm_year + 1900 := by
    simp only [stamp]; omega
  have hmid : tm.stamp / 10 ^ 2 % 10 ^ 2 = tm.tm_mon + 1 := by
    simp only [stamp]; omega
  have hlo : tm.stamp % 10 ^ 2 = tm.tm_mday := by
    simp only [stamp]; omega
  have hlow : Decimal.pad 4 tm.stamp
      = Decimal.pad 2 (tm.tm_mon + 1) ++ Decimal.pad 2 tm.tm_mday := by
    rw [Decimal.pad_add 2 2, ← Decimal.pad_mod 2 (tm.stamp / 10 ^ 2), hmid,
      ← Decimal.pad_mod 2 tm.stamp, hlo]
  rw [Decimal.pad_add 4 4, hhi, hlow, name, List.append_assoc]

/-- The stamp determines the date. -/
lemma stamp_inj {a b : Tm} : a.stamp = b.stamp ↔ a = b := by
  constructor
  · intro h
    have ha := a.mon_lt; have hb := b.mon_lt
    have ha' := a.mday_le; have hb' := b.mday_le
    simp only [stamp] at h
    exact ext_of_fields (by omega) (by omega) (by omega)
  · rintro rfl
    rfl

/-- The printed date determines the date. -/
lemma name_inj {a b : Tm} : a.name = b.name ↔ a = b := by
  constructor
  · intro h
    rw [← pad_stamp, ← pad_stamp] at h
    exact stamp_inj.1 (Decimal.pad_injective a.stamp_lt b.stamp_lt h)
  · rintro rfl
    rfl

@[simp] lemma length_name (tm : Tm) : tm.name.length = 8 := by
  simp [name]

end Tm

end DeviceTools
