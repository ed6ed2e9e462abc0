/-
The searches of logLib.

`searchSysLog` and `searchManLog` are searches over the index files of days; they differ in the index
structure and in the tests that a structure has to pass.
-/
import DeviceTools.LogLib.Log
import DeviceTools.Store.PagedSearch

namespace DeviceTools

open ByteWord

/-! ### The code -/

/-- `manlog_search_condition_t`.  The member `userName` holds a text with its terminating zero. -/
structure ManlogSearchCondition extends SearchCondition where
  userNo : UInt32
  userName : List UInt8
  length_userName : userName.length < MAX_USER_NAME_LEN
  zero_notMem_userName : 0 ∉ userName

/-- The member `logTime` of an index structure in memory. -/
def logTimeAt (b : List UInt8) : ℕ := leNat (field b 20 4)

/-- The member `logFileStatus`. -/
def logFileStatusAt (b : List UInt8) : UInt8 := b.getD 4 0

/-- The member `logType`. -/
def logTypeAt (b : List UInt8) : UInt8 := b.getD 16 0

/-- The text in the member `logUserName` of a `manlog_index_t`. -/
def logUserNameAt (b : List UInt8) : List UInt8 := (field b 24 MAX_USER_NAME_LEN).takeWhile (· ≠ 0)

/-- The member `logUserNo` of a `manlog_index_t`. -/
def logUserNoAt (b : List UInt8) : ℕ := leNat (field b 40 4)

/-- The parameters of `searchSysLog`. -/
def sysLogSearch (sysLogIndexPath : Path) : DaySearch where
  indexPath := sysLogIndexPath
  size := SYSLOG_INDEX_SIZE
  timeOffset := 20
  wanted b := logTypeAt b = LogType.eSysLog.code && logFileStatusAt b ≠ 1
  size_pos := SYSLOG_INDEX_SIZE_pos

/-- `LOG_CONDTITION_USERNAME`. -/
def LOG_CONDTITION_USERNAME : UInt32 := 0x08

/-- The parameters of `searchManLog`.  The value of `LOG_CONDTITION_USERNO` is not in the sources. -/
def manLogSearch (manLogIndexPath : Path) (LOG_CONDTITION_USERNO searchCondFlag : UInt32)
    (c : ManlogSearchCondition) : DaySearch where
  indexPath := manLogIndexPath
  size := MANLOG_INDEX_SIZE
  timeOffset := 20
  wanted b := logTypeAt b = LogType.eManLog.code &&
    !(searchCondFlag &&& LOG_CONDTITION_USERNAME ≠ 0 && c.userName ≠ logUserNameAt b) &&
    !(searchCondFlag &&& LOG_CONDTITION_USERNO ≠ 0 && c.userNo.toNat ≠ logUserNoAt b) &&
    logFileStatusAt b ≠ 1
  size_pos := MANLOG_INDEX_SIZE_pos

/-- `searchSysLog`. -/
def searchSysLog (sysLogIndexPath : Path) (Z : TimeZone) (d : Disk) (malloc : ℕ → Bool) (fuel : ℕ)
    (c : SearchCondition) : Option (ℤ × SearchCondition × List LogInfo) :=
  (sysLogSearch sysLogIndexPath).search Z d malloc fuel c

/-- `searchManLog`. -/
def searchManLog (manLogIndexPath : Path) (LOG_CONDTITION_USERNO searchCondFlag : UInt32) (Z : TimeZone)
    (d : Disk) (malloc : ℕ → Bool) (fuel : ℕ) (c : ManlogSearchCondition) :
    Option (ℤ × ManlogSearchCondition × List LogInfo) :=
  ((manLogSearch manLogIndexPath LOG_CONDTITION_USERNO searchCondFlag c).search Z d malloc fuel
    c.toSearchCondition).map fun r => (r.1, { c with toSearchCondition := r.2.1 }, r.2.2)

/-! ### Searching in pages -/

/-- Every index file has complete records, all of the file's day. -/
def DayStore (Z : FixedZone) (d : Disk) (indexPath : Path) (size : ℕ) : Prop :=
  ∀ tm bs, d (dayPath indexPath tm dotIndex) = some bs → bs.length ≤ OFF_MAX ∧
    ∃ blocks : List (List UInt8), bs = blocks.flatten ∧
      ∀ b ∈ blocks, b.length = size ∧ Z.zone.localtime (logTimeAt b) = tm

/-- What a search of the system log is for: the records of the right type in the interval that are
not marked deleted. -/
def SysLogMatches (c : SearchCondition) (b : List UInt8) : Prop :=
  c.startTime.toNat ≤ logTimeAt b ∧ logTimeAt b ≤ c.endTime.toNat ∧
    logTypeAt b = LogType.eSysLog.code ∧ logFileStatusAt b ≠ 1

/-- What a search of the management log is for: also the name and the number of the user are as in the
condition, where the flags say so. -/
def ManLogMatches (LOG_CONDTITION_USERNO searchCondFlag : UInt32) (c : ManlogSearchCondition)
    (b : List UInt8) : Prop :=
  c.startTime.toNat ≤ logTimeAt b ∧ logTimeAt b ≤ c.endTime.toNat ∧
    logTypeAt b = LogType.eManLog.code ∧ logFileStatusAt b ≠ 1 ∧
    (searchCondFlag &&& LOG_CONDTITION_USERNAME ≠ 0 → logUserNameAt b = c.userName) ∧
    (searchCondFlag &&& LOG_CONDTITION_USERNO ≠ 0 → logUserNoAt b = c.userNo.toNat)

instance (c : SearchCondition) : DecidablePred (SysLogMatches c) := fun _ =>
  inferInstanceAs (Decidable (_ ∧ _))

instance (LOG_CONDTITION_USERNO searchCondFlag : UInt32) (c : ManlogSearchCondition) :
    DecidablePred (ManLogMatches LOG_CONDTITION_USERNO searchCondFlag c) := fun _ =>
  inferInstanceAs (Decidable (_ ∧ _))

lemma sysLogSearch_matching (path : Path) (c : SearchCondition) (b : List UInt8) :
    (sysLogSearch path).matching c b = decide (SysLogMatches c b) := by
  rw [Bool.eq_iff_iff, decide_eq_true_iff, DaySearch.matching_iff, SysLogMatches, ← and_assoc]
  simp [sysLogSearch, logTimeAt, timeAt]

lemma manLogSearch_matching (path : Path) (USERNO flag : UInt32) (c : ManlogSearchCondition)
    (b : List UInt8) : (manLogSearch path USERNO flag c).matching c.toSearchCondition b =
      decide (ManLogMatches USERNO flag c b) := by
  rw [Bool.eq_iff_iff, decide_eq_true_iff, DaySearch.matching_iff, ManLogMatches, ← and_assoc]
  simp only [manLogSearch, timeAt, logTimeAt, Bool.and_eq_true, Bool.not_eq_true', Bool.and_eq_false_iff,
    decide_eq_true_eq, decide_eq_false_iff_not, not_not]
  rw [@eq_comm _ c.userName, @eq_comm _ c.userNo.toNat]
  tauto

/-- **Paged search loses and duplicates nothing.**  In a zone with a fixed offset, over index files that
have complete records of their days, take a condition with a start time not behind the end time, the
start address 0, and an end time whose day ends before the last 32-bit time.  One search without a
limit gives exactly the records of the store that match, in the order of the days and of the files,
and so do the pages of any size `n` put together, up to the first with fewer entries. -/
theorem paged_search_complete (Z : FixedZone) (d : Disk) (n : ℕ) (hn : 0 < n) :
    (∀ (manLogIndexPath : Path) (LOG_CONDTITION_USERNO searchCondFlag : UInt32) (c : ManlogSearchCondition),
      DayStore Z d manLogIndexPath MANLOG_INDEX_SIZE → c.startTime ≤ c.endTime → c.startAddr = 0 →
      (Z.dayOf c.endTime.toNat + 1) * DAY < 2 ^ 32 + Z.east →
      ∃ enough, ∀ fuel ≥ enough, ∃ c' infos,
        searchManLog manLogIndexPath LOG_CONDTITION_USERNO searchCondFlag Z d (fun _ => true) fuel
          { c with searchNum := 0 } = some (0, c', infos) ∧
        infos.map LogInfo.logIndex = (allRecords Z d manLogIndexPath MANLOG_INDEX_SIZE).filter
          (fun b => ManLogMatches LOG_CONDTITION_USERNO searchCondFlag c b) ∧
        Paging.readAll (fun c => pageOf (searchManLog manLogIndexPath LOG_CONDTITION_USERNO searchCondFlag
          Z d (fun _ => true) fuel c)) n fuel { c with searchNum := n } =
            some (infos.map LogInfo.logIndex)) ∧
    (∀ (sysLogIndexPath : Path) (c : SearchCondition),
      DayStore Z d sysLogIndexPath SYSLOG_INDEX_SIZE → c.startTime ≤ c.endTime → c.startAddr = 0 →
      (Z.dayOf c.endTime.toNat + 1) * DAY < 2 ^ 32 + Z.east →
      ∃ enough, ∀ fuel ≥ enough, ∃ c' infos,
        searchSysLog sysLogIndexPath Z d (fun _ => true) fuel { c with searchNum := 0 } =
          some (0, c', infos) ∧
        infos.map LogInfo.logIndex = (allRecords Z d sysLogIndexPath SYSLOG_INDEX_SIZE).filter
          (fun b => SysLogMatches c b) ∧
        Paging.readAll (fun c => pageOf (searchSysLog sysLogIndexPath Z d (fun _ => true) fuel c)) n fuel
          { c with searchNum := n } = some (infos.map LogInfo.logIndex)) := by
  constructor
  · intro path USERNO flag c hstore htimes haddr hlast
    set S := manLogSearch path USERNO flag c with hS
    obtain ⟨enough, h⟩ := DaySearch.search_complete (S := S) hn hstore htimes haddr hlast
    have hmatches : S.matching c.toSearchCondition = fun b => decide (ManLogMatches USERNO flag c b) :=
      funext (manLogSearch_matching path USERNO flag c)
    refine ⟨enough, fun fuel hfuel => ?_⟩
    obtain ⟨⟨c', infos, hrun, hinfos⟩, hpages⟩ := h fuel hfuel
    refine ⟨{ c with toSearchCondition := c' }, infos, ?_, ?_, ?_⟩
    · show (S.search Z d (fun _ => true) fuel _).map _ = _
      rw [hrun]
      rfl
    · rw [hinfos, hmatches]
      rfl
    · -- the other members of the condition stay as they are
      let g : SearchCondition → ManlogSearchCondition := fun x => { c with toSearchCondition := x }
      have hcall : ∀ x : SearchCondition,
          (fun c => pageOf (searchManLog path USERNO flag Z d (fun _ => true) fuel c)) (g x) =
            (pageOf (S.search Z d (fun _ => true) fuel x)).map fun r => (r.1, g r.2) := by
        intro x
        show pageOf ((S.search Z d (fun _ => true) fuel x).map _) = _
        cases S.search Z d (fun _ => true) fuel x with
        | none => rfl
        | some r =>
            simp only [pageOf, Option.map_some, Option.bind_some]
            split <;> rfl
      rw [hinfos, ← hpages]
      exact Paging.readAll_comp (g := g) hcall fuel { c.toSearchCondition with searchNum := n }
  · intro path c hstore htimes haddr hlast
    obtain ⟨enough, h⟩ := DaySearch.search_complete (S := sysLogSearch path) hn hstore htimes haddr hlast
    have hmatches : (sysLogSearch path).matching c = fun b => decide (SysLogMatches c b) :=
      funext (sysLogSearch_matching path c)
    refine ⟨enough, fun fuel hfuel => ?_⟩
    obtain ⟨⟨c', infos, hrun, hinfos⟩, hpages⟩ := h fuel hfuel
    refine ⟨c', infos, hrun, ?_, ?_⟩
    · rw [hinfos, hmatches]
      rfl
    · rw [hinfos]
      exact hpages

/-- A record of the management log. -/
def sampleManLog (t : UInt32) : List UInt8 :=
  ManlogEvent.logIndex ⟨LogType.eManLog.code, 0, t, List.replicate 16 0, 7, 1, 1, 0, List.replicate 64 0,
    rfl, rfl⟩ 1

/-- A store with one index file, of two records. -/
def sampleLogDisk : Disk :=
  Function.update (fun _ => none) (dayPath ['/', 'm'] (Tm.ofDays 1) dotIndex)
    (some (sampleManLog 5 ++ sampleManLog 6))

/-- A condition for the first hundred seconds. -/
def sampleCondition : ManlogSearchCondition :=
  ⟨⟨0, 100, 0, 0⟩, 7, [], by decide, by simp⟩

lemma sample_dayStore : DayStore FixedZone.utc sampleLogDisk ['/', 'm'] MANLOG_INDEX_SIZE := by
  have hflatten : [sampleManLog 5, sampleManLog 6].flatten = sampleManLog 5 ++ sampleManLog 6 := by simp
  have hlen : [sampleManLog 5, sampleManLog 6].flatten.length ≤ OFF_MAX := by
    rw [hflatten, List.length_append, sampleManLog, sampleManLog, ManlogEvent.length_logIndex,
      ManlogEvent.length_logIndex]
    decide
  rw [sampleLogDisk, ← hflatten]
  refine datedStore_single hlen fun b hb => ?_
  rcases List.mem_pair.1 hb with rfl | rfl
  · exact ⟨ManlogEvent.length_logIndex _ _, by decide⟩
  · exact ⟨ManlogEvent.length_logIndex _ _, by decide⟩

/-- The conditions of `paged_search_complete` are met by a search for two records in pages of one, which
finds both. -/
theorem paged_search_two : ∃ enough, ∀ fuel ≥ enough, ∃ found,
    Paging.readAll (fun c => pageOf (searchManLog ['/', 'm'] 0x10 0x10 FixedZone.utc sampleLogDisk
      (fun _ => true) fuel c)) 1 fuel { sampleCondition with searchNum := 1 } = some found ∧
    sampleManLog 5 ∈ found ∧ sampleManLog 6 ∈ found := by
  obtain ⟨enough, h⟩ := (paged_search_complete FixedZone.utc sampleLogDisk 1 (by decide)).1 ['/', 'm'] 0x10
    0x10 sampleCondition sample_dayStore (by decide) rfl (by decide)
  refine ⟨enough, fun fuel hfuel => ?_⟩
  obtain ⟨c', infos, -, hinfos, hpages⟩ := h fuel hfuel
  have hday : 1 ∈ List.range' 0 (dayCount FixedZone.utc - 0) := by
    rw [List.mem_range'_1]
    decide
  have hmem : ∀ b ∈ dayRecords sampleLogDisk ['/', 'm'] MANLOG_INDEX_SIZE 1,
      ManLogMatches 0x10 0x10 sampleCondition b → b ∈ infos.map LogInfo.logIndex := by
    intro b hb hmatch
    rw [hinfos, List.mem_filter]
    exact ⟨List.mem_flatMap.2 ⟨1, hday, hb⟩, by simpa using hmatch⟩
  refine ⟨_, hpages, hmem _ ?_ ?_, hmem _ ?_ ?_⟩
  all_goals decide +kernel

end DeviceTools
