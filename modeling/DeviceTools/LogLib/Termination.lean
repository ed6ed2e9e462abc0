/-
Whether the searches of logLib end.

The four functions share the walk over the days, and an empty store does not stop it early.  So they end
for every store exactly if the walk does: if from each day between the two times `TimeToNextDay` leads
to a later one.  It does not on a day of 25 hours, with which a zone leaves its daylight-saving time, nor
on the last day of the 32-bit times.
-/
import DeviceTools.LogLib.Count

namespace DeviceTools

/-- The four functions return, over every store and for every condition with the two times. -/
def LogSearchesEnd (Z : TimeZone) (startTime endTime : UInt32) : Prop :=
  ∀ (indexPath : Path) (d : Disk) (malloc : ℕ → Bool) (LOG_CONDTITION_USERNO searchCondFlag : UInt32)
    (c : ManlogSearchCondition), c.startTime = startTime → c.endTime = endTime →
    ∃ enough, ∀ fuel ≥ enough,
      searchSysLog indexPath Z d malloc fuel c.toSearchCondition ≠ none ∧
      searchManLog indexPath LOG_CONDTITION_USERNO searchCondFlag Z d malloc fuel c ≠ none ∧
      searchSysLogNum indexPath Z d fuel searchCondFlag c.toSearchCondition ≠ none ∧
      searchManLogNum indexPath Z d fuel searchCondFlag c ≠ none

lemma MAX_USER_NAME_LEN_pos : 0 < MAX_USER_NAME_LEN := by decide

lemma zero_notMem_nil : (0 : UInt8) ∉ [] := List.not_mem_nil

/-- A condition for the two times, with nothing else in it. -/
def plainCondition (startTime endTime : UInt32) : ManlogSearchCondition :=
  ⟨⟨startTime, endTime, 0, 0⟩, 0, [], MAX_USER_NAME_LEN_pos, zero_notMem_nil⟩

section
variable {Z : TimeZone} {startTime endTime : UInt32}

/-- Where the walk does not end, no function does. -/
lemma searches_eq_none (htimes : startTime ≤ endTime) {fuel : ℕ}
    (h : (plainCondition startTime endTime).days Z fuel = none) (indexPath : Path) (d : Disk)
    (USERNO flag : UInt32) :
    searchSysLog indexPath Z d (fun _ => true) fuel (plainCondition startTime endTime).toSearchCondition = none ∧
    searchManLog indexPath USERNO flag Z d (fun _ => true) fuel (plainCondition startTime endTime) = none ∧
    searchSysLogNum indexPath Z d fuel flag (plainCondition startTime endTime).toSearchCondition = none ∧
    searchManLogNum indexPath Z d fuel flag (plainCondition startTime endTime) = none := by
  refine ⟨DaySearch.search_eq_none htimes rfl rfl h, ?_, (DaySearch.count_eq_none_iff htimes).2 h, ?_⟩
  · rw [searchManLog, Option.map_eq_none_iff]
    exact DaySearch.search_eq_none htimes rfl rfl h
  · rw [searchManLogNum, Option.map_eq_none_iff]
    exact (DaySearch.count_eq_none_iff htimes).2 h

lemma logSearchesEnd_of_advances (htimes : startTime ≤ endTime) (h : Z.Advances startTime endTime) :
    LogSearchesEnd Z startTime endTime := by
  rintro indexPath d malloc USERNO flag c rfl rfl
  refine ⟨Z.dateOf c.endTime + 2, fun fuel hfuel => ?_⟩
  have hdays : c.days Z fuel ≠ none := SearchCondition.days_ne_none h (by omega) (by omega)
  refine ⟨DaySearch.search_ne_none hdays, ?_, ?_, ?_⟩
  · rw [searchManLog, Ne, Option.map_eq_none_iff]
    exact DaySearch.search_ne_none hdays
  · rw [searchSysLogNum, Ne, DaySearch.count_eq_none_iff htimes]
    exact hdays
  · rw [searchManLogNum, Ne, Option.map_eq_none_iff, DaySearch.count_eq_none_iff htimes]
    exact hdays

end

/-- **When the log searches end.**  For any pair of `localtime_r` and `mktime` and any start time not
behind the end time, the four functions end over every store if on each day from that of the start time
to that of the end time `TimeToNextDay` leads to a later day.  If the pair skips no day, they end only
then. -/
theorem log_searches_end_iff (Z : TimeZone) (startTime endTime : UInt32) (htimes : startTime ≤ endTime) :
    (Z.Advances startTime endTime → LogSearchesEnd Z startTime endTime) ∧
    (Z.SkipsNoDay → (LogSearchesEnd Z startTime endTime ↔ Z.Advances startTime endTime)) := by
  have hsuff := logSearchesEnd_of_advances (Z := Z) htimes
  refine ⟨hsuff, fun hskip => ⟨fun h => ?_, hsuff⟩⟩
  refine (SearchCondition.exists_days_ne_none_iff hskip
    (c := (plainCondition startTime endTime).toSearchCondition)).1 ?_
  obtain ⟨enough, hends⟩ := h [] (fun _ => none) (fun _ => true) 0 0 (plainCondition startTime endTime) rfl rfl
  refine ⟨enough, fun hnone => ?_⟩
  exact (hends enough le_rfl).1 (searches_eq_none htimes hnone [] (fun _ => none) 0 0).1

/-- In universal time the searches from 0 to 100 end, and those up to the last 32-bit time do not. -/
theorem log_searches_end_utc : LogSearchesEnd FixedZone.utc 0 100 ∧
    ¬ LogSearchesEnd FixedZone.utc 0 0xFFFFFFFF := by
  constructor
  · refine (log_searches_end_iff FixedZone.utc 0 100 (by decide)).1 ?_
    exact (FixedZone.utc.advances_iff (by decide)).2 (by decide)
  · intro h
    have hadv := ((log_searches_end_iff FixedZone.utc 0 0xFFFFFFFF (by decide)).2
      FixedZone.utc.skipsNoDay).1 h
    exact absurd ((FixedZone.utc.advances_iff (by decide)).1 hadv) (by decide)

/-! ### A day of 25 hours -/

/-- The time of a change of the clocks: two hours into the eleventh day of 1970. -/
def CLOCK_CHANGE : ℕ := 10 * DAY + 7200

/-- The local day of a time, in a zone that has universal time until the change and is one hour behind
from then on. -/
def autumnDay (t : ℕ) : ℕ := (t + DAY - if t < CLOCK_CHANGE then 0 else 3600) / DAY

/-- The midnight of a day in that zone. -/
def autumnMidnight (k : ℕ) : ℕ := k * DAY - DAY + if k ≤ 11 then 0 else 3600

/-- The zone. -/
def autumnZone : TimeZone where
  localtime t := Tm.ofDays (autumnDay t)
  mktime tm := autumnMidnight tm.days

/-- The two functions fit together: `mktime` of the date of a time is a time of that date. -/
def TimeZone.Consistent (Z : TimeZone) : Prop :=
  ∀ t < 2 ^ 32, Z.localtime (Z.mktime (Z.localtime t)) = Z.localtime t

lemma autumnDay_eq (t : ℕ) : autumnDay t = (t + 86400 - if t < 871200 then 0 else 3600) / 86400 := rfl

lemma autumnDay_midnight {k : ℕ} (hk : 1 ≤ k) : autumnDay (autumnMidnight k) = k := by
  rw [autumnDay_eq, autumnMidnight, show DAY = 86400 from rfl]
  rcases Nat.lt_or_ge 11 k with h | h
  · rw [if_neg (by omega), if_neg (by omega)]
    omega
  · rw [if_pos (by omega), if_pos (by omega)]
    omega

lemma autumnZone_consistent : autumnZone.Consistent := by
  intro t ht
  have hday : 1 ≤ autumnDay t ∧ autumnDay t < 10 ^ 6 := by
    rw [autumnDay_eq]
    split_ifs <;> omega
  show Tm.ofDays (autumnDay (autumnMidnight (Tm.ofDays (autumnDay t)).days)) = Tm.ofDays (autumnDay t)
  rw [Tm.days_ofDays hday.2, autumnDay_midnight hday.1]

/-- 24 hours behind the midnight of the day with the change it is 23 o'clock of the same day. -/
lemma autumnZone_stays {t : UInt32} (h : autumnDay t.toNat = 11) :
    autumnDay (dayLater autumnZone t).toNat = 11 := by
  have hlater : dayLater autumnZone t = 950400 := by
    have hmidnight : autumnZone.mktime (autumnZone.localtime t.toNat) = 864000 := by
      show autumnMidnight (Tm.ofDays (autumnDay t.toNat)).days = 864000
      rw [h]
      decide
    rw [dayLater, hmidnight]
    decide
  rw [hlater]
  decide

/-- **The searches do not end** on the day with which a zone leaves its daylight-saving time. -/
theorem log_searches_endless : autumnZone.Consistent ∧ (864000 : UInt32) ≤ 864000 ∧
    ¬ LogSearchesEnd autumnZone 864000 864000 := by
  refine ⟨autumnZone_consistent, by decide, fun h => ?_⟩
  obtain ⟨enough, hends⟩ := h [] (fun _ => none) (fun _ => true) 0 0 (plainCondition 864000 864000) rfl rfl
  refine (hends enough le_rfl).1 (searches_eq_none (by decide) ?_ [] (fun _ => none) 0 0).1
  refine SearchCondition.days_eq_none (I := fun c => autumnDay c.startTime.toNat = 11 ∧
    autumnDay c.endTime.toNat = 11) (fun c hc => ⟨fun hpast => ?_, ?_, ?_⟩) enough ⟨by decide, by decide⟩
  · have hsame : autumnZone.localtime c.startTime.toNat = autumnZone.localtime c.endTime.toNat :=
      congrArg Tm.ofDays (hc.1.trans hc.2.symm)
    rw [SearchCondition.Past, hsame] at hpast
    exact lt_irrefl _ hpast
  · rw [SearchCondition.nextDay_startTime]
    exact autumnZone_stays hc.1
  · rw [SearchCondition.nextDay_endTime]
    exact hc.2

end DeviceTools
