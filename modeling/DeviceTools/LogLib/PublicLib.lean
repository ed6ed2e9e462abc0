/-
The time functions of logLib.

`TimeToNextDay` prints the local date of a time with the time of day 00:00:00, reads the text
back with `DatetimeToTime` and adds the seconds of a day.  In a zone with a fixed offset the
result is the next local midnight, unless this is past the last 32-bit time.
-/
import DeviceTools.Platform.FixedZone

namespace DeviceTools

/-- A character of the format that is no conversion and no blank. -/
def literal (c : Char) : List Char → Option (List Char)
  | [] => none
  | c' :: s => if c' = c then some s else none

/-- `sscanf` with the format `%d-%02d-%02d %02d:%02d:%02d`, on a text that has no blank or sign before
a number. -/
def scanDatetime (s : List Char) : Option (ℕ × ℕ × ℕ × ℕ × ℕ × ℕ) := do
  let (year, s) ← Decimal.scan s.length s
  let (mon, s) ← (literal '-' s).bind (Decimal.scan 2)
  let (mday, s) ← (literal '-' s).bind (Decimal.scan 2)
  let (hour, s) ← Decimal.scan 2 (s.dropWhile Char.isWhitespace)
  let (min, s) ← (literal ':' s).bind (Decimal.scan 2)
  let (sec, _) ← (literal ':' s).bind (Decimal.scan 2)
  some (year, mon, mday, hour, min, sec)

variable (Z : TimeZone)

/-- `DatetimeToTime`, without a result for a text that is no date. -/
def datetimeToTime (pDatetime : List Char) : Option UInt32 :=
  match scanDatetime pDatetime with
  | none => none
  | some (year, mon, mday, hour, min, sec) =>
      if h : 1900 ≤ year ∧ year ≤ 9999 ∧ 1 ≤ mon ∧ mon ≤ 12 ∧ 1 ≤ mday ∧ mday ≤ 31 then
        let midnight := Z.mktime ⟨year - 1900, mon - 1, mday, by omega, by omega, h.2.2.2.2.1, h.2.2.2.2.2⟩
        some (UInt32.ofNat (midnight + (hour * 3600 + min * 60 + sec)))
      else none

/-- The text `timeBuf` of `TimeToNextDay`. -/
def timeBuf (tm : Tm) : List Char :=
  Decimal.print (tm.tm_year + 1900) ++ '-' :: (Decimal.pad 2 (tm.tm_mon + 1) ++
    '-' :: (Decimal.pad 2 tm.tm_mday ++ ' ' :: (Decimal.pad 2 0 ++ ':' :: (Decimal.pad 2 0 ++
      ':' :: Decimal.pad 2 0))))

/-- `TimeToNextDay`. -/
def timeToNextDay (uiInTime : UInt32) : Option UInt32 :=
  (datetimeToTime Z (timeBuf (Z.localtime uiInTime.toNat))).map fun uiRetTime =>
    uiRetTime + UInt32.ofNat (24 * 60 * 60)

/-! ### The text is read back -/

@[simp] lemma literal_cons (c : Char) (s : List Char) : literal c (c :: s) = some s := if_pos rfl

lemma scanDatetime_timeBuf (tm : Tm) :
    scanDatetime (timeBuf tm) = some (tm.tm_year + 1900, tm.tm_mon + 1, tm.tm_mday, 0, 0, 0) := by
  have hmon : tm.tm_mon + 1 < 10 ^ 2 := by have := tm.mon_lt; omega
  have hmday : tm.tm_mday < 10 ^ 2 := by have := tm.mday_le; omega
  have hblank : ∀ rest : List Char,
      (' ' :: (Decimal.pad 2 0 ++ rest)).dropWhile Char.isWhitespace = Decimal.pad 2 0 ++ rest :=
    fun rest => rfl
  have hzero : ∀ rest, Decimal.scan 2 (Decimal.pad 2 0 ++ rest) = some (0, rest) :=
    Decimal.scan_pad (by decide) (by decide)
  have hlast : Decimal.scan 2 (Decimal.pad 2 0) = some (0, []) := by simpa using hzero []
  rw [scanDatetime, timeBuf, Decimal.scan_print _ (by decide)]
  simp only [Option.bind_eq_bind, Option.bind_some, literal_cons,
    Decimal.scan_pad (by decide : 0 < 2) hmon, Decimal.scan_pad (by decide : 0 < 2) hmday, hblank,
    hzero, hlast]

lemma datetimeToTime_timeBuf (tm : Tm) :
    datetimeToTime Z (timeBuf tm) = some (UInt32.ofNat (Z.mktime tm)) := by
  have h1 := tm.year_le; have h2 := tm.mon_lt; have h3 := tm.mday_pos; have h4 := tm.mday_le
  rw [datetimeToTime, scanDatetime_timeBuf]
  dsimp only
  rw [dif_pos (by omega)]
  simp

/-- The time 24 hours behind the midnight that `mktime` gives for the date of a time. -/
def dayLater (t : UInt32) : UInt32 :=
  UInt32.ofNat (Z.mktime (Z.localtime t.toNat)) + UInt32.ofNat (24 * 60 * 60)

lemma timeToNextDay_eq (t : UInt32) : timeToNextDay Z t = some (dayLater Z t) := by
  rw [timeToNextDay, datetimeToTime_timeBuf]
  rfl

/-- **The next local midnight.** -/
lemma toNat_dayLater (Z : FixedZone) {t : UInt32} (h : (Z.dayOf t.toNat + 1) * DAY < 2 ^ 32 + Z.east) :
    (dayLater Z t).toNat + Z.east = (Z.dayOf t.toNat + 1) * DAY := by
  set k := Z.dayOf t.toNat with hk
  have hkdays : k < 10 ^ 6 := Z.dayOf_lt (by have := t.toNat_lt; omega)
  have hge : Z.east < (k + 1) * DAY := by
    have := Nat.lt_div_mul_add (a := t.toNat + Z.east) (b := DAY) (by decide)
    have hkdef : k = (t.toNat + Z.east) / DAY := rfl
    rw [← hkdef] at this
    rw [Nat.add_mul]
    omega
  have hmktime : Z.mktime (Z.zone.localtime t.toNat) =
      ((((k * DAY : ℕ) : ℤ) - Z.east) % 2 ^ 32).toNat := by
    rw [FixedZone.mktime, show Z.zone.localtime t.toNat = Tm.ofDays k from rfl, Tm.days_ofDays hkdays]
    rfl
  show (UInt32.ofNat (Z.mktime (Z.zone.localtime t.toNat)) + UInt32.ofNat (24 * 60 * 60)).toNat + _ = _
  rw [hmktime]
  simp only [UInt32.toNat_add, UInt32.toNat_ofNat']
  simp only [DAY] at *
  omega

end DeviceTools
