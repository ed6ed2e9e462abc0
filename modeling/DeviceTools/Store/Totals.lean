/-
A whole store.

`searchSysLogTotal`, `searchManLogTotal` and `searchRecordTotal` count all records of a store.  They take
the first name that `scandir` gives in the directory, read the date in it, and count from the midnight
with which that day begins up to the current time.  `delAllLog` removes the files of both log stores.
-/
import DeviceTools.LogLib.DeleteByTime
import DeviceTools.LogLib.Count
import DeviceTools.RecordLib.Search

namespace DeviceTools

open ByteWord

/-! ### Counting: the code -/

/-- The text `startTime`, from the name of an index file. -/
def startTimeText (d_name : Name) : List Char :=
  d_name.take 4 ++ '-' :: ((d_name.drop 4).take 2 ++ '-' :: ((d_name.drop 6).take 2 ++
    [' ', '0', '0', ':', '0', '0', ':', '0', '0']))

/-- The functions that count a store.  `namelist` is what `scandir` gives, `none` if it fails, and `num` the
count from a start time on.  There is no result for a first name that begins with no date. -/
def searchTotal (Z : TimeZone) (namelist : Option (List Name)) (num : UInt32 → Option ℤ) : Option ℤ :=
  match (namelist.getD []).find? fun d_name => !isDots d_name with
  | none => some 0
  | some d_name => (datetimeToTime Z (startTimeText d_name)).bind fun sTime =>
      (num sTime).map fun total => if total = -1 then 0 else total

section
-- the condition as it is on the stack, before its two times are set
variable (Z : TimeZone) (namelist : Option (List Name)) (d : Disk) (fuel : ℕ) (tCurTime : UInt32)

/-- `searchSysLogTotal`. -/
def searchSysLogTotal (sysLogIndexPath : Path) (searchCondition : SearchCondition) : Option ℤ :=
  searchTotal Z namelist fun sTime => (searchSysLogNum sysLogIndexPath Z d fuel 0
    { searchCondition with startTime := sTime, endTime := tCurTime }).map Prod.fst

/-- `searchManLogTotal`. -/
def searchManLogTotal (manLogIndexPath : Path) (searchCondition : ManlogSearchCondition) : Option ℤ :=
  searchTotal Z namelist fun sTime => (searchManLogNum manLogIndexPath Z d fuel 0
    { searchCondition with startTime := sTime, endTime := tCurTime }).map Prod.fst

/-- `searchRecordTotal`. -/
def searchRecordTotal (char : UInt8 → ℤ) (searchUserById : ℕ → Bool) (recordIndexPath : Path)
    (searchCondition : RecordSearchCondition) : Option ℤ :=
  searchTotal Z namelist fun sTime => (searchRecordsNum char searchUserById recordIndexPath Z d fuel 0
    { searchCondition with startTime := sTime, endTime := tCurTime }).map Prod.fst

end

/-! ### The first day -/

/-- A directory with the index files of days and nothing else, and what `scandir` gives for it: every file
has the name of a day that begins with a 32-bit time, and complete records of that day. -/
structure DayDirectory (offset size : ℕ) (Z : FixedZone) (d : Disk) (path : Path) (namelist : List Name) :
    Prop where
  dated : DatedStore offset Z d path size
  named : ∀ p, InDirectory path p → d p ≠ none →
    ∃ k < dayCount Z, Z.east ≤ k * DAY ∧ p = dayPath path (Tm.ofDays k) dotIndex
  scans : Scans d path namelist

/-- The store has a file of the day. -/
def HasDay (d : Disk) (path : Path) (k : ℕ) : Prop := d (dayPath path (Tm.ofDays k) dotIndex) ≠ none

/-- There are files, and all of them are of days behind that of the time. -/
def OnlyLater (Z : FixedZone) (d : Disk) (path : Path) (now : UInt32) : Prop :=
  (∃ k < dayCount Z, HasDay d path k) ∧ ∀ k < dayCount Z, HasDay d path k → Z.dayOf now.toNat < k

/-- The date in the name of an index file is the text that `TimeToNextDay` prints. -/
lemma startTimeText_name (tm : Tm) : startTimeText (tm.name ++ dotIndex) = timeBuf tm := by
  have hyear : Decimal.print (tm.tm_year + 1900) = Decimal.pad 4 (tm.tm_year + 1900) := by
    have hle := tm.year_le
    have hlog : Nat.log 10 (tm.tm_year + 1900) = 3 := Nat.log_eq_of_pow_le_of_lt_pow (by omega) (by omega)
    rw [Decimal.print, hlog]
  have hname : tm.name ++ dotIndex = Decimal.pad 4 (tm.tm_year + 1900) ++ (Decimal.pad 2 (tm.tm_mon + 1) ++
      (Decimal.pad 2 tm.tm_mday ++ dotIndex)) := by
    rw [Tm.name, List.append_assoc, List.append_assoc]
  have hsix : (tm.name ++ dotIndex).drop 6 = Decimal.pad 2 tm.tm_mday ++ dotIndex := by
    rw [show 6 = 4 + 2 from rfl, ← List.drop_drop, hname, List.drop_left' (Decimal.length_pad _ _),
      List.drop_left' (Decimal.length_pad _ _)]
  rw [startTimeText, timeBuf, hyear, hsix, List.take_left' (Decimal.length_pad _ _), hname,
    List.take_left' (Decimal.length_pad _ _), List.drop_left' (Decimal.length_pad _ _),
    List.take_left' (Decimal.length_pad _ _)]
  rfl

/-- The time that `DatetimeToTime` gives for it is the midnight with which the day begins. -/
lemma startTime_name (Z : FixedZone) {k : ℕ} (hk : k < dayCount Z) (hge : Z.east ≤ k * DAY) :
    ∃ sTime, datetimeToTime Z (startTimeText ((Tm.ofDays k).name ++ dotIndex)) = some sTime ∧
      sTime.toNat + Z.east = k * DAY := by
  refine ⟨_, by rw [startTimeText_name, datetimeToTime_timeBuf], ?_⟩
  have hlast : k * DAY ≤ 2 ^ 32 - 1 + Z.east := Z.le_dayOf_iff.1 (Nat.le_of_lt_succ hk)
  have hmktime : Z.toTimeZone.mktime (Tm.ofDays k) = ((((k * DAY : ℕ) : ℤ) - Z.east) % 2 ^ 32).toNat := by
    show FixedZone.mktime Z (Tm.ofDays k) = _
    rw [FixedZone.mktime, Tm.days_ofDays (hk.trans_le dayCount_le)]
    rfl
  rw [hmktime, UInt32.toNat_ofNat']
  omega

section
variable {offset size : ℕ} {Z : FixedZone} {d : Disk} {path : Path} {namelist : List Name}

lemma DayDirectory.mem_day (h : DayDirectory offset size Z d path namelist) {k : ℕ} (hk : HasDay d path k) :
    (Tm.ofDays k).name ++ dotIndex ∈ namelist := by
  refine (h.scans.mem_iff _).2 (Or.inr ⟨?_, slash_notMem_day _ (by decide), ?_⟩)
  · exact fun hnil => absurd (congrArg List.length hnil) (by simp [dotIndex])
  · rwa [HasDay, dayPath_eq] at hk

/-- **The first name** is that of the first day that has a file. -/
lemma DayDirectory.first_name (h : DayDirectory offset size Z d path namelist) :
    (namelist.find? (fun d_name => !isDots d_name) = none ∧ ∀ k, ¬ HasDay d path k) ∨
    ∃ k < dayCount Z, Z.east ≤ k * DAY ∧ HasDay d path k ∧
      namelist.find? (fun d_name => !isDots d_name) = some ((Tm.ofDays k).name ++ dotIndex) ∧
      ∀ j < dayCount Z, HasDay d path j → k ≤ j := by
  cases hfind : namelist.find? (fun d_name => !isDots d_name) with
  | none =>
      refine Or.inl ⟨rfl, fun k hk => ?_⟩
      have hnot := List.find?_eq_none.1 hfind _ (h.mem_day hk)
      rw [isDots_day] at hnot
      exact hnot rfl
  | some d_name =>
      obtain ⟨hdots, front, back, rfl, hfront⟩ := List.find?_eq_some_iff_append.1 hfind
      rw [Bool.not_eq_true'] at hdots
      -- the name is one of a file, and so that of a day
      obtain ⟨hne, hslash, hfile⟩ := ((h.scans.mem_iff d_name).1 (by simp)).resolve_left (by simp [hdots])
      obtain ⟨k, hk, hge, hpath⟩ := h.named _ ⟨d_name, hne, hslash, hdots, rfl⟩ hfile
      have hname : d_name = (Tm.ofDays k).name ++ dotIndex := by
        rw [dayPath_eq, path_inj hslash (slash_notMem_day _ (by decide))] at hpath
        exact hpath.2
      subst hname
      refine Or.inr ⟨k, hk, hge, by rwa [HasDay, dayPath_eq], rfl, fun j hj hday => ?_⟩
      by_contra hlt
      have hstamp : (Tm.ofDays j).stamp < (Tm.ofDays k).stamp :=
        Tm.stamp_ofDays_lt (not_le.1 hlt) ((hk.trans_le dayCount_le).le.trans (by decide))
      have hless : (Tm.ofDays j).name ++ dotIndex < (Tm.ofDays k).name ++ dotIndex :=
        (name_append_lt_iff _ _ _ _).2 (Or.inl ((name_lt_iff _ _).2 hstamp))
      have hsorted := List.pairwise_append.1 h.scans.sorted
      rcases List.mem_append.1 (h.mem_day hday) with hmem | hmem
      · have hnot := hfront _ hmem
        rw [isDots_day] at hnot
        exact absurd hnot (by decide)
      · rcases List.mem_cons.1 hmem with heq | hback
        · exact absurd (heq ▸ hless) (lt_irrefl _)
        · exact lt_asymm hless ((List.pairwise_cons.1 hsorted.2.1).1 _ hback)

lemma dayRecords_eq_nil {k : ℕ} (h : ¬ HasDay d path k) : dayRecords d path size k = [] := by
  rw [HasDay, not_not] at h
  rw [dayRecords, Disk.contents, h]
  simp [records]

lemma exists_day_of_mem {b : List UInt8} (hb : b ∈ allRecords Z d path size) :
    ∃ k < dayCount Z, HasDay d path k ∧ b ∈ dayRecords d path size k := by
  obtain ⟨k, hk, hb⟩ := List.mem_flatMap.1 hb
  refine ⟨k, by have := (List.mem_range'_1.1 hk).2; omega, fun hnone => ?_, hb⟩
  rw [dayRecords_eq_nil (not_not.2 hnone)] at hb
  exact absurd hb List.not_mem_nil

end

/-! ### The number -/

namespace DaySearch

variable {S : DaySearch}

/-- A count reads every file from its beginning. -/
lemma count_fst_startAddr {Z : TimeZone} {d : Disk} (fuel : ℕ) {c : SearchCondition}
    (htimes : c.startTime ≤ c.endTime) (addr : UInt32) (num : ℤ) :
    (S.count Z d fuel { c with startAddr := addr, searchNum := num }).map Prod.fst =
      (S.count Z d fuel { c with startAddr := 0, searchNum := 0 }).map Prod.fst := by
  cases fuel with
  | zero =>
      rw [count_eq (c := { c with startAddr := addr, searchNum := num }) 0 htimes,
        count_eq (c := { c with startAddr := 0, searchNum := 0 }) 0 htimes]
      rfl
  | succ fuel =>
      rw [count_eq (c := { c with startAddr := addr, searchNum := num }) _ htimes,
        count_eq (c := { c with startAddr := 0, searchNum := 0 }) _ htimes]
      by_cases hpast : c.Past Z
      · rw [SearchCondition.days_past (c := { c with startAddr := addr, searchNum := num }) hpast,
          SearchCondition.days_past (c := { c with startAddr := 0, searchNum := 0 }) hpast]
        rfl
      · have hnext : SearchCondition.nextDay Z { c with startAddr := addr, searchNum := num } =
            { SearchCondition.nextDay Z { c with startAddr := 0, searchNum := 0 } with searchNum := num } := rfl
        rw [SearchCondition.days_next (c := { c with startAddr := addr, searchNum := num }) hpast,
          SearchCondition.days_next (c := { c with startAddr := 0, searchNum := 0 }) hpast, hnext,
          SearchCondition.days_searchNum, Option.map_map, Option.map_map, Option.map_map, Option.map_map,
          Option.map_map]
        refine congrArg (fun f => Option.map f _) (funext fun r => ?_)
        simp only [Function.comp_apply, List.flatMap_cons, List.flatMap_map, found_searchNum]
        rfl

/-- **A count from the first day on** has all records that are wanted and not later than the end time. -/
lemma count_from_first {Z : FixedZone} {d : Disk} (hstore : DatedStore S.timeOffset Z d S.indexPath S.size)
    {c : SearchCondition} (htimes : c.startTime ≤ c.endTime)
    (hlast : (Z.dayOf c.endTime.toNat + 1) * DAY < 2 ^ 32 + Z.east)
    (hfirst : ∀ k < dayCount Z, HasDay d S.indexPath k → c.startTime.toNat + Z.east ≤ k * DAY) :
    ∃ enough, ∀ fuel ≥ enough, ∀ addr num,
      (S.count Z d fuel { c with startAddr := addr, searchNum := num }).map Prod.fst =
        some (((allRecords Z d S.indexPath S.size).filter fun b =>
          S.wanted b && timeAt S.timeOffset b ≤ c.endTime.toNat).length : ℤ) := by
  have hmatching : ∀ b ∈ allRecords Z d S.indexPath S.size,
      S.matching { c with startAddr := 0, searchNum := 0 } b =
        (S.wanted b && decide (timeAt S.timeOffset b ≤ c.endTime.toNat)) := by
    intro b hb
    obtain ⟨k, hk, hday, hb⟩ := exists_day_of_mem hb
    have hge : c.startTime.toNat ≤ timeAt S.timeOffset b := by
      have hmid := hfirst k hk hday
      have hbegin := (Z.le_dayOf_iff (k := k)).1 (hstore.dayOf_eq S.size_pos hk hb).ge
      omega
    rw [Bool.eq_iff_iff, matching_iff, Bool.and_eq_true, decide_eq_true_iff]
    exact ⟨fun h => ⟨h.2, h.1.2⟩, fun h => ⟨⟨hge, h.2⟩, h.1⟩⟩
  obtain ⟨enough, hrun⟩ := (search_all_iff (S := S) (c := { c with startAddr := 0, searchNum := 0 }) hstore
    htimes rfl rfl).2 ⟨hlast, rfl⟩
  refine ⟨enough, fun fuel hfuel addr num => ?_⟩
  obtain ⟨c', infos, hsearch, hinfos⟩ := hrun fuel hfuel
  rw [count_fst_startAddr fuel htimes,
    count_search (c := { c with startAddr := 0, searchNum := 0 }) fuel htimes rfl, hsearch, Option.map_some,
    Option.map_some, ← List.filter_congr hmatching, ← hinfos, List.length_map]

/-- **The total**, for any of the searches. -/
lemma total_spec {Z : FixedZone} {d : Disk} {namelist : List Name}
    (h : DayDirectory S.timeOffset S.size Z d S.indexPath namelist) (now : UInt32)
    (hlast : (Z.dayOf now.toNat + 1) * DAY < 2 ^ 32 + Z.east) :
    ∃ enough, ∀ fuel ≥ enough, ∀ addr num,
      let total := searchTotal Z (some namelist) fun sTime =>
        (S.count Z d fuel ⟨sTime, now, addr, num⟩).map Prod.fst
      (OnlyLater Z d S.indexPath now → total = some (-2)) ∧
      (¬ OnlyLater Z d S.indexPath now → total =
        some (((allRecords Z d S.indexPath S.size).filter fun b =>
          S.wanted b && timeAt S.timeOffset b ≤ now.toNat).length : ℤ)) := by
  rcases h.first_name with ⟨hfind, hnone⟩ | ⟨k, hk, hge, hday, hfind, hfirst⟩
  · -- without a file there are no records
    have hall : allRecords Z d S.indexPath S.size = [] := by
      refine List.eq_nil_iff_forall_not_mem.2 fun b hb => ?_
      obtain ⟨j, -, hj, -⟩ := exists_day_of_mem hb
      exact hnone j hj
    refine ⟨0, fun fuel _ addr num => ⟨fun hlater => ?_, fun _ => ?_⟩⟩
    · obtain ⟨⟨j, -, hj⟩, -⟩ := hlater
      exact absurd hj (hnone j)
    · dsimp only [searchTotal, Option.getD_some]
      rw [hfind, hall]
      rfl
  · obtain ⟨sTime, hread, hmid⟩ := startTime_name Z hk hge
    have htotal : ∀ num : UInt32 → Option ℤ, searchTotal Z (some namelist) num =
        (num sTime).map fun total => if total = -1 then 0 else total := by
      intro num
      rw [searchTotal, Option.getD_some, hfind]
      dsimp only
      rw [hread, Option.bind_some]
    have hday_iff : k ≤ Z.dayOf now.toNat ↔ sTime ≤ now := by
      rw [Z.le_dayOf_iff, ← hmid, UInt32.le_iff_toNat_le]
      omega
    by_cases htimes : sTime ≤ now
    · obtain ⟨enough, hcount⟩ := count_from_first (S := S) (c := ⟨sTime, now, 0, 0⟩) h.dated htimes hlast
        fun j hj hjday => by
          rw [hmid]
          exact Nat.mul_le_mul_right _ (hfirst j hj hjday)
      refine ⟨enough, fun fuel hfuel addr num => ⟨fun hlater => ?_, fun _ => ?_⟩⟩
      · exact absurd (hlater.2 k hk hday) (not_lt.2 (hday_iff.2 htimes))
      · rw [htotal, hcount fuel hfuel addr num, Option.map_some, if_neg (by omega)]
    · refine ⟨0, fun fuel _ addr num => ⟨fun _ => ?_, fun hnot => ?_⟩⟩
      · rw [htotal, count, if_pos (UInt32.not_le.1 htimes), Option.map_some, Option.map_some,
          if_neg (by simp)]
      · refine absurd ⟨⟨k, hk, hday⟩, fun j hj hjday => ?_⟩ hnot
        have hlt : Z.dayOf now.toNat < k := not_le.1 fun hle => htimes (hday_iff.1 hle)
        exact hlt.trans_le (hfirst j hj hjday)

end DaySearch

/-! ### The three totals -/

/-- What a total is for: the number of the records that are counted, or -2 if there are files, all of them
of days behind the current one. -/
def IsTotal (Z : FixedZone) (d : Disk) (path : Path) (size : ℕ) (now : UInt32) (counted : List UInt8 → Bool)
    (total : Option ℤ) : Prop :=
  (OnlyLater Z d path now → total = some (-2)) ∧
    (¬ OnlyLater Z d path now → total = some (((allRecords Z d path size).filter counted).length : ℤ))

section
variable {Z : TimeZone} {namelist : Option (List Name)} {d : Disk} {fuel : ℕ} {now : UInt32} {path : Path}

lemma searchSysLogTotal_eq (c : SearchCondition) : searchSysLogTotal Z namelist d fuel now path c =
    searchTotal Z namelist fun sTime =>
      ((sysLogSearch path).count Z d fuel ⟨sTime, now, c.startAddr, c.searchNum⟩).map Prod.fst := rfl

lemma searchManLogTotal_eq (c : ManlogSearchCondition) : searchManLogTotal Z namelist d fuel now path c =
    searchTotal Z namelist fun sTime =>
      ((manLogCount path).count Z d fuel ⟨sTime, now, c.startAddr, c.searchNum⟩).map Prod.fst := by
  refine congrArg (searchTotal Z namelist) (funext fun sTime => ?_)
  rw [searchManLogNum, Option.map_map]
  rfl

lemma searchRecordTotal_eq (char : UInt8 → ℤ) (searchUserById : ℕ → Bool) (c : RecordSearchCondition) :
    searchRecordTotal Z namelist d fuel now char searchUserById path c =
      searchTotal Z namelist fun sTime => ((recordSearch char searchUserById path 0 c).count Z d fuel
        ⟨sTime, now, c.startAddr, c.searchNum⟩).map Prod.fst := by
  refine congrArg (searchTotal Z namelist) (funext fun sTime => ?_)
  rw [searchRecordsNum, Option.map_map]
  rfl

end

lemma isTotal_of_wanted {S : DaySearch} {Z : FixedZone} {d : Disk} {now : UInt32} {counted : List UInt8 → Bool}
    {total : Option ℤ}
    (h : IsTotal Z d S.indexPath S.size now (fun b => S.wanted b && timeAt S.timeOffset b ≤ now.toNat) total)
    (hcounted : ∀ b, (S.wanted b && decide (timeAt S.timeOffset b ≤ now.toNat)) = counted b) :
    IsTotal Z d S.indexPath S.size now counted total := by
  rwa [show counted = _ from funext fun b => (hcounted b).symm]

/-- **The totals are exact.**  In a zone with a fixed offset, let the directories of the three stores have
only index files of days, with complete records of their days, and let the current day end before the
last 32-bit time.  Then `searchSysLogTotal`, `searchManLogTotal` and `searchRecordTotal` end, and each
returns the number of the records of its store that are not marked deleted and not later than the
current time, of the right type or with a known user; but -2 if there are files and all of them are of
later days. -/
theorem store_totals_exact (Z : FixedZone) (d : Disk) (now : UInt32) (char : UInt8 → ℤ)
    (searchUserById : ℕ → Bool) (sysLogIndexPath manLogIndexPath recordIndexPath : Path)
    (sysNames manNames recordNames : List Name) (sysCondition : SearchCondition)
    (manCondition : ManlogSearchCondition) (recordCondition : RecordSearchCondition)
    (hsys : DayDirectory 20 SYSLOG_INDEX_SIZE Z d sysLogIndexPath sysNames)
    (hman : DayDirectory 20 MANLOG_INDEX_SIZE Z d manLogIndexPath manNames)
    (hrecord : DayDirectory 24 FileIndex.SIZE Z d recordIndexPath recordNames)
    (hlast : (Z.dayOf now.toNat + 1) * DAY < 2 ^ 32 + Z.east) :
    ∃ enough, ∀ fuel ≥ enough,
      IsTotal Z d sysLogIndexPath SYSLOG_INDEX_SIZE now
        (fun b => logTypeAt b = LogType.eSysLog.code && logFileStatusAt b ≠ 1 && logTimeAt b ≤ now.toNat)
        (searchSysLogTotal Z (some sysNames) d fuel now sysLogIndexPath sysCondition) ∧
      IsTotal Z d manLogIndexPath MANLOG_INDEX_SIZE now
        (fun b => logTypeAt b = LogType.eManLog.code && logFileStatusAt b ≠ 1 && logTimeAt b ≤ now.toNat)
        (searchManLogTotal Z (some manNames) d fuel now manLogIndexPath manCondition) ∧
      IsTotal Z d recordIndexPath FileIndex.SIZE now
        (fun b => (FileIndex.idAt b = 0 || searchUserById (FileIndex.idAt b)) &&
          FileIndex.fileStatusAt b ≠ 1 && FileIndex.recordTimeAt b ≤ now.toNat)
        (searchRecordTotal Z (some recordNames) d fuel now char searchUserById recordIndexPath
          recordCondition) := by
  obtain ⟨m₁, h₁⟩ := DaySearch.total_spec (S := sysLogSearch sysLogIndexPath) hsys now hlast
  obtain ⟨m₂, h₂⟩ := DaySearch.total_spec (S := manLogCount manLogIndexPath) hman now hlast
  obtain ⟨m₃, h₃⟩ := DaySearch.total_spec
    (S := recordSearch char searchUserById recordIndexPath 0 recordCondition) hrecord now hlast
  refine ⟨m₁ + m₂ + m₃, fun fuel hfuel => ⟨?_, ?_, ?_⟩⟩
  · rw [searchSysLogTotal_eq]
    exact isTotal_of_wanted (S := sysLogSearch sysLogIndexPath) (h₁ fuel (by omega) _ _) fun b => rfl
  · rw [searchManLogTotal_eq]
    exact isTotal_of_wanted (S := manLogCount manLogIndexPath) (h₂ fuel (by omega) _ _) fun b => rfl
  · rw [searchRecordTotal_eq]
    refine isTotal_of_wanted (S := recordSearch char searchUserById recordIndexPath 0 recordCondition)
      (h₃ fuel (by omega) _ _) fun b => ?_
    have hzero : ∀ x : UInt32, (0 : UInt32) &&& x = 0 := fun x => UInt32.zero_and
    have htime : timeAt (recordSearch char searchUserById recordIndexPath 0 recordCondition).timeOffset b =
      FileIndex.recordTimeAt b := rfl
    rw [htime]
    simp [recordSearch, hzero]

/-- The records of a store that has the file of one day only. -/
lemma allRecords_of_one {Z : FixedZone} {d : Disk} {path : Path} {size k : ℕ} (hk : k < dayCount Z)
    (hone : ∀ j < dayCount Z, HasDay d path j → j = k) :
    allRecords Z d path size = dayRecords d path size k := by
  have hnil : ∀ s n, (∀ j ∈ List.range' s n, j < dayCount Z ∧ j ≠ k) →
      (List.range' s n).flatMap (dayRecords d path size) = [] := by
    intro s n h
    refine List.flatMap_eq_nil_iff.2 fun j hj => dayRecords_eq_nil fun hday => ?_
    exact (h j hj).2 (hone j (h j hj).1 hday)
  have hsplit : List.range' 0 (dayCount Z) =
      List.range' 0 k ++ k :: List.range' (k + 1) (dayCount Z - (k + 1)) := by
    rw [← List.range'_succ, show dayCount Z - (k + 1) + 1 = dayCount Z - k by omega]
    have happend := @List.range'_append_1 0 k (dayCount Z - k)
    rw [Nat.zero_add, Nat.add_sub_cancel' hk.le] at happend
    exact happend.symm
  rw [allRecords, recordsFrom, Nat.sub_zero, hsplit, List.flatMap_append, List.flatMap_cons, hnil, hnil,
    List.nil_append, List.append_nil]
  · intro j hj
    have := List.mem_range'_1.1 hj
    omega
  · intro j hj
    have := List.mem_range'_1.1 hj
    omega

lemma sampleSysDisk_named (p : Path) (h : sampleSysDisk p ≠ none) :
    p = dayPath ['/', 's'] (Tm.ofDays 1) dotIndex := by
  obtain ⟨bs, hbs⟩ := Option.ne_none_iff_exists'.1 h
  exact (sampleSysDisk_eq_some hbs).1

/-- A directory of the sample store without files. -/
lemma sample_empty_directory (offset size : ℕ) {c : Char} (hc : c ≠ 's') :
    DayDirectory offset size FixedZone.utc sampleSysDisk ['/', c] [['.'], ['.', '.']] := by
  have hnone : ∀ name : Name, '/' ∉ name → sampleSysDisk (['/', c] ++ '/' :: name) = none := by
    intro name hname
    by_contra hfile
    have hpath := sampleSysDisk_named _ hfile
    rw [dayPath_eq, path_inj hname (slash_notMem_day _ (by decide))] at hpath
    simp [hc] at hpath
  refine ⟨fun tm bs hbs => ?_, ?_, ?_⟩
  · rw [dayPath_eq, hnone _ (slash_notMem_day tm (by decide))] at hbs
    exact absurd hbs.symm (Option.some_ne_none _)
  · rintro p ⟨name, -, hname, -, rfl⟩ hp
    exact absurd (hnone name hname) hp
  · refine ⟨by decide, fun name => ⟨fun h => ?_, ?_⟩⟩
    · simp only [List.mem_cons, List.not_mem_nil, or_false] at h
      rcases h with rfl | rfl
      · exact Or.inl rfl
      · exact Or.inl rfl
    · rintro (hdots | ⟨-, hname, hfile⟩)
      · simp only [isDots, Bool.or_eq_true, decide_eq_true_eq] at hdots
        rcases hdots with rfl | rfl <;> simp
      · exact absurd (hnone name hname) hfile

/-- A store with two system log records, of the first day, and nothing else: at the time 100 the total is 2,
and the other totals are 0. -/
theorem store_totals_two : ∃ enough, ∀ fuel ≥ enough,
    searchSysLogTotal FixedZone.utc (some [['.'], ['.', '.'], (Tm.ofDays 1).name ++ dotIndex]) sampleSysDisk fuel
      100 ['/', 's'] ⟨0, 0, 7, 7⟩ = some 2 ∧
    searchManLogTotal FixedZone.utc (some [['.'], ['.', '.']]) sampleSysDisk fuel 100 ['/', 'm']
      sampleCondition = some 0 ∧
    searchRecordTotal FixedZone.utc (some [['.'], ['.', '.']]) sampleSysDisk fuel 100 (fun x => x.toNat)
      (fun _ => true) ['/', 'r'] scoreCondition = some 0 := by
  have hscan : Scans sampleSysDisk ['/', 's'] [['.'], ['.', '.'], (Tm.ofDays 1).name ++ dotIndex] := by
    rw [sampleSysDisk, dayPath_eq]
    exact scans_single (by decide) (by decide) (by decide)
  have hsys : DayDirectory 20 SYSLOG_INDEX_SIZE FixedZone.utc sampleSysDisk ['/', 's']
      [['.'], ['.', '.'], (Tm.ofDays 1).name ++ dotIndex] :=
    ⟨sampleSysDisk_store.dated, fun p _ hp => ⟨1, by decide, by decide, sampleSysDisk_named p hp⟩, hscan⟩
  have hman := sample_empty_directory 20 MANLOG_INDEX_SIZE (c := 'm') (by decide)
  have hrecord := sample_empty_directory 24 FileIndex.SIZE (c := 'r') (by decide)
  obtain ⟨enough, h⟩ := store_totals_exact FixedZone.utc sampleSysDisk 100 (fun x => x.toNat) (fun _ => true)
    ['/', 's'] ['/', 'm'] ['/', 'r'] _ _ _ ⟨0, 0, 7, 7⟩ sampleCondition scoreCondition hsys hman hrecord (by decide)
  have hfile : sampleSysDisk (dayPath ['/', 's'] (Tm.ofDays 1) dotIndex) =
      some [sampleSysRecord 5, sampleSysRecord 6].flatten := Function.update_self _ _ _
  have hday : HasDay sampleSysDisk ['/', 's'] 1 := by
    rw [HasDay, hfile]
    exact Option.some_ne_none _
  have hempty : ∀ {offset size : ℕ} {path : Path},
      DayDirectory offset size FixedZone.utc sampleSysDisk path [['.'], ['.', '.']] →
        (¬ OnlyLater FixedZone.utc sampleSysDisk path 100) ∧
          allRecords FixedZone.utc sampleSysDisk path size = [] := by
    intro offset size path hdir
    have hnone : ∀ k, ¬ HasDay sampleSysDisk path k := by
      intro k hk
      have hmem := hdir.mem_day hk
      have hlen : ((Tm.ofDays k).name ++ dotIndex).length = 14 := by
        rw [List.length_append, Tm.length_name]
        rfl
      simp only [List.mem_cons, List.not_mem_nil, or_false] at hmem
      rcases hmem with heq | heq
      · rw [heq] at hlen
        exact absurd hlen (by decide)
      · rw [heq] at hlen
        exact absurd hlen (by decide)
    refine ⟨fun hlater => ?_, List.eq_nil_iff_forall_not_mem.2 fun b hb => ?_⟩
    · obtain ⟨⟨k, -, hk⟩, -⟩ := hlater
      exact hnone k hk
    · obtain ⟨k, -, hk, -⟩ := exists_day_of_mem hb
      exact hnone k hk
  refine ⟨enough, fun fuel hfuel => ?_⟩
  obtain ⟨h₁, h₂, h₃⟩ := h fuel hfuel
  refine ⟨?_, ?_, ?_⟩
  · rw [h₁.2 fun hlater => absurd (hlater.2 1 (by decide) hday) (by decide),
      allRecords_of_one (k := 1) (by decide) fun j hj hjday => ?_, dayRecords, Disk.contents, hfile,
      Option.getD_some, records_flatten SYSLOG_INDEX_SIZE_pos fun _ => length_sampleSysRecord]
    · decide
    · have hsame := dayPath_inj.1 (sampleSysDisk_named _ hjday)
      rw [← Tm.days_ofDays (hj.trans_le dayCount_le), hsame, Tm.days_ofDays (by decide)]
  · rw [h₂.2 (hempty hman).1, (hempty hman).2]
    rfl
  · rw [h₃.2 (hempty hrecord).1, (hempty hrecord).2]
    rfl

/-! ### Deleting a store -/

/-- What the functions that empty a directory meet: whether `opendir` succeeds, the names that `readdir`
gives, for which of them `stat` succeeds, and for which `unlink` does. -/
structure DelAllEnv where
  opendir : Bool
  names : List Name
  stat : Name → Bool
  unlink : Name → Bool

/-- The loop over the names, on `iRet` and the disk. -/
def delAllLoop (env : DelAllEnv) (acLogPath : Path) : List Name → ℤ × Disk → ℤ × Disk
  | [], r => r
  | d_name :: names, (iRet, d) =>
      if isDots d_name then delAllLoop env acLogPath names (iRet, d)
      else if env.stat d_name then
        let d := if env.unlink d_name then Function.update d (acLogPath ++ '/' :: d_name) none else d
        delAllLoop env acLogPath names (0, d)
      else delAllLoop env acLogPath names (iRet, d)

/-- The functions that empty the directory of a store. -/
def delAllFiles (env : DelAllEnv) (acLogPath : Path) (d : Disk) : ℤ × Disk :=
  if env.opendir then delAllLoop env acLogPath env.names (-1, d) else (-1, d)

/-- `delAllSysLog`. -/
def delAllSysLog (env : DelAllEnv) (sysLogIndexPath : Path) (d : Disk) : ℤ × Disk :=
  delAllFiles env sysLogIndexPath d

/-- `delAllManLog`. -/
def delAllManLog (env : DelAllEnv) (manLogIndexPath : Path) (d : Disk) : ℤ × Disk :=
  delAllFiles env manLogIndexPath d

/-- `delAllLog`.  The second function is called only if the first returns 0. -/
def delAllLog (sys man : DelAllEnv) (sysLogIndexPath manLogIndexPath : Path) (d : Disk) : ℤ × Disk :=
  let r := delAllSysLog sys sysLogIndexPath d
  if r.1 = 0 then
    let r := delAllManLog man manLogIndexPath r.2
    (if r.1 = 0 then 0 else -1, r.2)
  else (-1, r.2)

/-- There is a file in the directory. -/
def HasFiles (d : Disk) (path : Path) : Prop := ∃ p, InDirectory path p ∧ d p ≠ none

/-- Nothing fails in the directory, and `readdir` gives the names of its files, in any order. -/
structure DelAllEnv.Works (env : DelAllEnv) (d : Disk) (path : Path) : Prop where
  opendir : env.opendir = true
  names : ∀ name, isDots name = false →
    (name ∈ env.names ↔ name ≠ [] ∧ '/' ∉ name ∧ d (path ++ '/' :: name) ≠ none)
  stat : ∀ name ∈ env.names, isDots name = false → env.stat name = true
  unlink : ∀ name ∈ env.names, isDots name = false → env.unlink name = true

section
variable {env : DelAllEnv} {path : Path} {d d' : Disk}

lemma delAllLoop_ret {names : List Name} (r : ℤ × Disk) : (delAllLoop env path names r).1 = 0 ↔
    r.1 = 0 ∨ ∃ name ∈ names, isDots name = false ∧ env.stat name = true := by
  induction names generalizing r with
  | nil => simp [delAllLoop]
  | cons name names ih =>
      obtain ⟨iRet, d⟩ := r
      rw [delAllLoop]
      cases hdots : isDots name with
      | true => simp [ih, hdots]
      | false =>
          cases hstat : env.stat name with
          | true => simp [ih, hdots, hstat]
          | false => simp [ih, hstat]

/-- A file that none of the names stands for stays. -/
lemma delAllLoop_other {names : List Name} {p : Path} (r : ℤ × Disk)
    (h : ∀ name ∈ names, isDots name = false → p ≠ path ++ '/' :: name) :
    (delAllLoop env path names r).2 p = r.2 p := by
  induction names generalizing r with
  | nil => rfl
  | cons name names ih =>
      obtain ⟨iRet, d⟩ := r
      have hrest := fun r => ih r fun n hn => h n (List.mem_cons_of_mem _ hn)
      rw [delAllLoop]
      by_cases hdots : isDots name = true
      · rw [if_pos hdots, hrest]
      · rw [if_neg hdots]
        have hne := h name List.mem_cons_self (Bool.eq_false_iff.2 hdots)
        by_cases hstat : env.stat name = true
        · rw [if_pos hstat, hrest]
          dsimp only
          split
          · rw [Function.update_of_ne hne]
          · rfl
        · rw [if_neg hstat, hrest]

/-- A file that is not there does not come back, and one that is removed is not there. -/
lemma delAllLoop_none {names : List Name} {p : Path} (r : ℤ × Disk)
    (h : r.2 p = none ∨ ∃ name ∈ names, isDots name = false ∧ env.stat name = true ∧
      env.unlink name = true ∧ p = path ++ '/' :: name) : (delAllLoop env path names r).2 p = none := by
  induction names generalizing r with
  | nil => simpa [delAllLoop] using h
  | cons name names ih =>
      obtain ⟨iRet, d⟩ := r
      have hrest : (d p = none ∨ p = path ++ '/' :: name ∧ isDots name = false ∧ env.stat name = true ∧
          env.unlink name = true) ∨ ∃ n ∈ names, isDots n = false ∧ env.stat n = true ∧
            env.unlink n = true ∧ p = path ++ '/' :: n := by
        rcases h with h | ⟨n, hn, h₁, h₂, h₃, h₄⟩
        · exact Or.inl (Or.inl h)
        · rcases List.mem_cons.1 hn with rfl | hn
          · exact Or.inl (Or.inr ⟨h₄, h₁, h₂, h₃⟩)
          · exact Or.inr ⟨n, hn, h₁, h₂, h₃, h₄⟩
      rw [delAllLoop]
      by_cases hdots : isDots name = true
      · rw [if_pos hdots]
        exact ih _ (hrest.imp_left fun h => h.resolve_right fun hc => by simp [hdots] at hc)
      · rw [if_neg hdots]
        by_cases hstat : env.stat name = true
        · rw [if_pos hstat]
          refine ih _ (hrest.imp_left fun h => ?_)
          rcases h with h | ⟨rfl, -, -, hunlink⟩
          · dsimp only
            split
            · rw [Function.update_apply]
              split
              · rfl
              · exact h
            · exact h
          · dsimp only
            rw [if_pos hunlink, Function.update_self]
        · rw [if_neg hstat]
          exact ih _ (hrest.imp_left fun h => h.resolve_right fun hc => hstat hc.2.2.1)

/-- **What one of the functions does** when nothing fails. -/
lemma DelAllEnv.Works.empties (h : env.Works d path) :
    ((delAllFiles env path d).1 = 0 ↔ HasFiles d path) ∧
      (∀ p, InDirectory path p → (delAllFiles env path d).2 p = none) ∧
      ∀ p, ¬ InDirectory path p → (delAllFiles env path d).2 p = d p := by
  have hfile : ∀ name ∈ env.names, isDots name = false → InDirectory path (path ++ '/' :: name) ∧
      d (path ++ '/' :: name) ≠ none := by
    intro name hname hdots
    obtain ⟨hne, hslash, hthere⟩ := (h.names name hdots).1 hname
    exact ⟨⟨name, hne, hslash, hdots, rfl⟩, hthere⟩
  rw [delAllFiles, if_pos h.opendir]
  refine ⟨?_, fun p hp => delAllLoop_none _ ?_, fun p hp => delAllLoop_other _ fun name hname hdots heq => ?_⟩
  · rw [delAllLoop_ret]
    constructor
    · rintro (hret | ⟨name, hname, hdots, -⟩)
      · exact absurd hret (by simp)
      · exact ⟨_, hfile name hname hdots⟩
    · rintro ⟨_, ⟨name, hne, hslash, hdots, rfl⟩, hthere⟩
      have hname := (h.names name hdots).2 ⟨hne, hslash, hthere⟩
      exact Or.inr ⟨name, hname, hdots, h.stat name hname hdots⟩
  · obtain ⟨name, hne, hslash, hdots, rfl⟩ := hp
    by_cases hthere : d (path ++ '/' :: name) = none
    · exact Or.inl hthere
    · have hname := (h.names name hdots).2 ⟨hne, hslash, hthere⟩
      exact Or.inr ⟨name, hname, hdots, h.stat name hname hdots, h.unlink name hname hdots, rfl⟩
  · rw [heq] at hp
    exact hp (hfile name hname hdots).1

lemma DelAllEnv.Works.congr (h : env.Works d path) (hsame : ∀ p, InDirectory path p → d' p = d p) :
    env.Works d' path where
  opendir := h.opendir
  names name hdots := by
    rw [h.names name hdots]
    refine and_congr_right fun hne => and_congr_right fun hslash => ?_
    rw [hsame _ ⟨name, hne, hslash, hdots, rfl⟩]
  stat := h.stat
  unlink := h.unlink

lemma InDirectory.path_eq {path' p : Path} (h : InDirectory path p) (h' : InDirectory path' p) : path = path' := by
  obtain ⟨m, -, hm, -, rfl⟩ := h
  obtain ⟨n, -, hn, -, heq⟩ := h'
  exact ((path_inj hm hn).1 heq).1

lemma hasFiles_congr (hsame : ∀ p, InDirectory path p → d' p = d p) : HasFiles d' path ↔ HasFiles d path :=
  exists_congr fun p => and_congr_right fun hp => by rw [hsame p hp]

end

/-- **What `delAllLog` deletes.**  Let the two stores be in different directories, in which nothing fails.
It touches no file elsewhere, and it returns 0 exactly if both directories had files.  Both are empty
behind it exactly if that of the system log had a file or that of the management log had none: without a
system log file every file stays as it is. -/
theorem del_all_log_iff (sys man : DelAllEnv) (sysLogIndexPath manLogIndexPath : Path) (d : Disk)
    (hsys : sys.Works d sysLogIndexPath) (hman : man.Works d manLogIndexPath)
    (hne : sysLogIndexPath ≠ manLogIndexPath) :
    (∀ p, ¬ InDirectory sysLogIndexPath p → ¬ InDirectory manLogIndexPath p →
      (delAllLog sys man sysLogIndexPath manLogIndexPath d).2 p = d p) ∧
    ((delAllLog sys man sysLogIndexPath manLogIndexPath d).1 = 0 ↔
      HasFiles d sysLogIndexPath ∧ HasFiles d manLogIndexPath) ∧
    ((∀ p, InDirectory sysLogIndexPath p ∨ InDirectory manLogIndexPath p →
        (delAllLog sys man sysLogIndexPath manLogIndexPath d).2 p = none) ↔
      HasFiles d sysLogIndexPath ∨ ¬ HasFiles d manLogIndexPath) ∧
    (¬ HasFiles d sysLogIndexPath → (delAllLog sys man sysLogIndexPath manLogIndexPath d).2 = d) := by
  obtain ⟨hret, hin, hout⟩ := hsys.empties
  by_cases hfiles : HasFiles d sysLogIndexPath
  · have hsame : ∀ p, InDirectory manLogIndexPath p → (delAllFiles sys sysLogIndexPath d).2 p = d p :=
      fun p hp => hout p fun hp' => hne (hp'.path_eq hp)
    obtain ⟨hret', hin', hout'⟩ := (hman.congr hsame).empties
    rw [hasFiles_congr hsame] at hret'
    have hrun : delAllLog sys man sysLogIndexPath manLogIndexPath d =
        (if (delAllFiles man manLogIndexPath (delAllFiles sys sysLogIndexPath d).2).1 = 0 then 0 else -1,
          (delAllFiles man manLogIndexPath (delAllFiles sys sysLogIndexPath d).2).2) := if_pos (hret.2 hfiles)
    rw [hrun]
    refine ⟨fun p hp hp' => ?_, ?_, ?_, fun h => absurd hfiles h⟩
    · rw [hout' p hp', hout p hp]
    · rw [← hret', and_iff_right hfiles]
      dsimp only
      split
      · next h => exact iff_of_true rfl h
      · next h => exact iff_of_false (by decide) h
    · refine iff_of_true (fun p hp => ?_) (Or.inl hfiles)
      by_cases hp' : InDirectory manLogIndexPath p
      · exact hin' p hp'
      · rw [hout' p hp', hin p (hp.resolve_right hp')]
  · have hsame : (delAllFiles sys sysLogIndexPath d).2 = d := by
      funext p
      by_cases hp : InDirectory sysLogIndexPath p
      · rw [hin p hp]
        by_contra hthere
        exact hfiles ⟨p, hp, Ne.symm hthere⟩
      · exact hout p hp
    have hrun : delAllLog sys man sysLogIndexPath manLogIndexPath d = (-1, d) :=
      (if_neg fun h => hfiles (hret.1 h)).trans (congrArg (Prod.mk (-1)) hsame)
    rw [hrun]
    refine ⟨fun p _ _ => rfl, iff_of_false (by simp) fun h => hfiles h.1, ?_, fun _ => rfl⟩
    rw [or_iff_right hfiles]
    constructor
    · rintro h ⟨p, hp, hthere⟩
      exact hthere (h p (Or.inr hp))
    · rintro hnone p (hp | hp)
      · by_contra hthere
        exact hfiles ⟨p, hp, hthere⟩
      · by_contra hthere
        exact hnone ⟨p, hp, hthere⟩

/-- The sample store has a file of management logs and no system log: `delAllLog` deletes nothing. -/
theorem del_all_log_none :
    (delAllLog ⟨true, [['.'], ['.', '.']], fun _ => true, fun _ => true⟩
      ⟨true, [['.'], ['.', '.'], sampleName], fun _ => true, fun _ => true⟩ ['/', 's'] ['/', 'm']
      sampleLogDisk).2 = sampleLogDisk := by
  have hthere : ∀ {p}, sampleLogDisk p ≠ none → p = ['/', 'm'] ++ '/' :: sampleName := by
    intro p hp
    obtain ⟨bs, hbs⟩ := Option.ne_none_iff_exists'.1 hp
    exact (sampleLogDisk_eq_some hbs).1
  have hnosys : ∀ name : Name, '/' ∉ name → sampleLogDisk (['/', 's'] ++ '/' :: name) = none := by
    intro name hname
    by_contra hfile
    have hpath := hthere hfile
    rw [path_inj hname (show '/' ∉ sampleName from slash_notMem_day _ (by decide))] at hpath
    exact absurd hpath.1 (by decide)
  refine (del_all_log_iff _ _ ['/', 's'] ['/', 'm'] sampleLogDisk ⟨rfl, fun name hdots => ?_, fun _ _ _ => rfl,
    fun _ _ _ => rfl⟩ ⟨rfl, fun name hdots => ?_, fun _ _ _ => rfl, fun _ _ _ => rfl⟩ (by decide)).2.2.2 ?_
  · constructor
    · intro hname
      simp only [List.mem_cons, List.not_mem_nil, or_false] at hname
      rcases hname with rfl | rfl
      · exact absurd hdots (by decide)
      · exact absurd hdots (by decide)
    · rintro ⟨-, hslash, hfile⟩
      exact absurd (hnosys name hslash) hfile
  · rw [sample_scans.mem_iff, hdots]
    simp
  · rintro ⟨p, ⟨name, -, hslash, -, rfl⟩, hfile⟩
    exact hfile (hnosys name hslash)

end DeviceTools
