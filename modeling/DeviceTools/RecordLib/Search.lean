/-
The searches of recordLib.

`searchRecord` goes over the index files of the days as the searches of logLib do.  A record in the
interval has to pass up to six tests that the flags select, its user has to be known, and it must not be
marked deleted.  `searchRecordsNum` makes the same tests and counts.  The test on the score takes the
records outside of the interval of the condition.
-/
import DeviceTools.RecordLib.Record
import DeviceTools.Store.PagedSearch

namespace DeviceTools

open ByteWord

/-! ### The code -/

def RECORD_CONDITION_ID : UInt32 := 0x01
def RECORD_CONDITION_USER_TYPE : UInt32 := 0x02
def RECORD_CONDITION_RECOG_TYPE : UInt32 := 0x04
def RECORD_CONDITION_RECOG_STATUS : UInt32 := 0x08
def RECORD_CONDITION_RECOG_SCORES : UInt32 := 0x10
def RECORD_CONDITION_RECOG_REASON : UInt32 := 0x20

/-- `search_condition_t`. -/
structure RecordSearchCondition extends SearchCondition where
  userId : UInt32
  userType : ℤ
  recogType : ℤ
  recogStatus : ℤ
  recogMinScores : ℤ
  recogMaxScores : ℤ
  recogReason : ℤ

namespace FileIndex

/-- The members of a structure in memory that the searches look at. -/
def fileStatusAt (b : List UInt8) : UInt8 := b.getD 6 0
def userTypeAt (b : List UInt8) : UInt8 := b.getD 7 0
def idAt (b : List UInt8) : ℕ := word b 8
def recogTypeAt (b : List UInt8) : UInt8 := b.getD 20 0
def recogStatusAt (b : List UInt8) : UInt8 := b.getD 21 0
def recogScoresAt (b : List UInt8) : UInt8 := b.getD 22 0
def recogReasonAt (b : List UInt8) : UInt8 := b.getD 23 0

lemma SIZE_pos : 0 < SIZE := by decide

end FileIndex

open FileIndex

section
-- the value of a `char` as an `int`, which the compiler decides, and `searchUserById` finds the user
variable (char : UInt8 → ℤ) (searchUserById : ℕ → Bool)

/-- The parameters of `searchRecord` and of `searchRecordsNum`, with the tests in the order of the source.
Each line is a `continue`. -/
def recordSearch (recordIndexPath : Path) (searchConditionFlag : UInt32) (c : RecordSearchCondition) :
    DaySearch where
  indexPath := recordIndexPath
  size := FileIndex.SIZE
  timeOffset := 24
  wanted b :=
    !(0 < searchConditionFlag &&& RECORD_CONDITION_ID && idAt b ≠ c.userId.toNat) &&
    !(0 < searchConditionFlag &&& RECORD_CONDITION_USER_TYPE && char (userTypeAt b) ≠ c.userType) &&
    !(0 < searchConditionFlag &&& RECORD_CONDITION_RECOG_TYPE && char (recogTypeAt b) ≠ c.recogType) &&
    !(0 < searchConditionFlag &&& RECORD_CONDITION_RECOG_STATUS && char (recogStatusAt b) ≠ c.recogStatus) &&
    !(0 < searchConditionFlag &&& RECORD_CONDITION_RECOG_SCORES &&
      c.recogMinScores ≤ char (recogScoresAt b) && char (recogScoresAt b) ≤ c.recogMaxScores) &&
    !(0 < searchConditionFlag &&& RECORD_CONDITION_RECOG_REASON && char (recogReasonAt b) ≠ c.recogReason) &&
    !(idAt b ≠ 0 && !searchUserById (idAt b)) &&
    fileStatusAt b ≠ 1
  size_pos := FileIndex.SIZE_pos

/-- `searchRecord`: the return value, the condition behind it, and the entries of the list. -/
def searchRecord (recordIndexPath : Path) (Z : TimeZone) (d : Disk) (malloc : ℕ → Bool) (fuel : ℕ)
    (searchConditionFlag : UInt32) (c : RecordSearchCondition) :
    Option (ℤ × RecordSearchCondition × List LogInfo) :=
  ((recordSearch char searchUserById recordIndexPath searchConditionFlag c).search Z d malloc fuel
    c.toSearchCondition).map fun r => (r.1, { c with toSearchCondition := r.2.1 }, r.2.2)

/-- `searchRecordsNum`: the return value and the condition behind it. -/
def searchRecordsNum (recordIndexPath : Path) (Z : TimeZone) (d : Disk) (fuel : ℕ)
    (searchConditionFlag : UInt32) (c : RecordSearchCondition) : Option (ℤ × RecordSearchCondition) :=
  ((recordSearch char searchUserById recordIndexPath searchConditionFlag c).count Z d fuel
    c.toSearchCondition).map fun r => (r.1, { c with toSearchCondition := r.2 })

/-! ### What a search is for -/

/-- A record that is not marked deleted, has a time in the interval and a known user or none, and meets
the selected conditions other than that on the score. -/
def RecordMatchesApart (flag : UInt32) (c : RecordSearchCondition) (b : List UInt8) : Prop :=
  c.startTime.toNat ≤ recordTimeAt b ∧ recordTimeAt b ≤ c.endTime.toNat ∧ fileStatusAt b ≠ 1 ∧
    (idAt b = 0 ∨ searchUserById (idAt b) = true) ∧
    (flag &&& RECORD_CONDITION_ID ≠ 0 → idAt b = c.userId.toNat) ∧
    (flag &&& RECORD_CONDITION_USER_TYPE ≠ 0 → char (userTypeAt b) = c.userType) ∧
    (flag &&& RECORD_CONDITION_RECOG_TYPE ≠ 0 → char (recogTypeAt b) = c.recogType) ∧
    (flag &&& RECORD_CONDITION_RECOG_STATUS ≠ 0 → char (recogStatusAt b) = c.recogStatus) ∧
    (flag &&& RECORD_CONDITION_RECOG_REASON ≠ 0 → char (recogReasonAt b) = c.recogReason)

/-- The score of a record is between the two of the condition. -/
def ScoreBetween (c : RecordSearchCondition) (b : List UInt8) : Prop :=
  c.recogMinScores ≤ char (recogScoresAt b) ∧ char (recogScoresAt b) ≤ c.recogMaxScores

/-- A record that a search is for: it also has such a score, where the flag says so. -/
def RecordMatches (flag : UInt32) (c : RecordSearchCondition) (b : List UInt8) : Prop :=
  RecordMatchesApart char searchUserById flag c b ∧
    (flag &&& RECORD_CONDITION_RECOG_SCORES ≠ 0 → ScoreBetween char c b)

instance (flag : UInt32) (c : RecordSearchCondition) :
    DecidablePred (RecordMatchesApart char searchUserById flag c) := fun _ =>
  inferInstanceAs (Decidable (_ ∧ _))

instance (c : RecordSearchCondition) : DecidablePred (ScoreBetween char c) := fun _ =>
  inferInstanceAs (Decidable (_ ∧ _))

instance (flag : UInt32) (c : RecordSearchCondition) :
    DecidablePred (RecordMatches char searchUserById flag c) := fun _ =>
  inferInstanceAs (Decidable (_ ∧ _))

end

section
variable {char : UInt8 → ℤ} {searchUserById : ℕ → Bool} {path : Path} {flag : UInt32}
  {c : RecordSearchCondition} {b : List UInt8}

lemma flag_pos {x : UInt32} : 0 < x ↔ x ≠ 0 := by
  rw [UInt32.lt_iff_toNat_lt, UInt32.toNat_zero, Nat.pos_iff_ne_zero]
  exact not_congr (UInt32.toNat_inj (b := 0))

/-- A test of the source that says `continue`. -/
lemma continue_iff {p q : Prop} [Decidable p] [Decidable q] :
    (!(decide p && decide q)) = true ↔ (p → ¬ q) := by
  rw [Bool.not_eq_true', Bool.and_eq_false_iff, decide_eq_false_iff_not, decide_eq_false_iff_not,
    imp_iff_not_or]

/-- **What `searchRecord` takes**: where the flag for the score is set, the records outside. -/
lemma recordSearch_matching : (recordSearch char searchUserById path flag c).matching c.toSearchCondition b = true ↔
    RecordMatchesApart char searchUserById flag c b ∧
      (flag &&& RECORD_CONDITION_RECOG_SCORES ≠ 0 → ¬ ScoreBetween char c b) := by
  have hscore : (!(decide (0 < flag &&& RECORD_CONDITION_RECOG_SCORES) &&
      decide (c.recogMinScores ≤ char (recogScoresAt b)) &&
        decide (char (recogScoresAt b) ≤ c.recogMaxScores))) = true ↔
      (flag &&& RECORD_CONDITION_RECOG_SCORES ≠ 0 → ¬ ScoreBetween char c b) := by
    rw [Bool.and_assoc, ← Bool.decide_and, continue_iff, flag_pos]
    rfl
  have huser : (!(decide (idAt b ≠ 0) && !searchUserById (idAt b))) = true ↔
      idAt b = 0 ∨ searchUserById (idAt b) = true := by
    simp
  rw [DaySearch.matching_iff, RecordMatchesApart]
  simp only [recordSearch, Bool.and_eq_true, hscore, huser]
  simp only [continue_iff, flag_pos, decide_eq_true_eq, not_not, ne_eq]
  constructor
  · rintro ⟨⟨hstart, hend⟩, ⟨⟨⟨⟨⟨⟨hid, htype⟩, hrecog⟩, hstatus⟩, hscore⟩, hreason⟩, huser⟩, hdel⟩
    exact ⟨⟨hstart, hend, hdel, huser, hid, htype, hrecog, hstatus, hreason⟩, hscore⟩
  · rintro ⟨⟨hstart, hend, hdel, huser, hid, htype, hrecog, hstatus, hreason⟩, hscore⟩
    exact ⟨⟨hstart, hend⟩, ⟨⟨⟨⟨⟨⟨hid, htype⟩, hrecog⟩, hstatus⟩, hscore⟩, hreason⟩, huser⟩, hdel⟩

lemma filter_eq_filter_iff {α : Type} {p q : α → Bool} {l : List α} :
    l.filter p = l.filter q ↔ ∀ x ∈ l, (p x = true ↔ q x = true) := by
  constructor
  · intro h x hx
    have hmem : x ∈ l.filter p ↔ x ∈ l.filter q := by rw [h]
    rw [List.mem_filter, List.mem_filter] at hmem
    exact ⟨fun hp => (hmem.1 ⟨hx, hp⟩).2, fun hq => (hmem.2 ⟨hx, hq⟩).2⟩
  · intro h
    exact List.filter_congr fun x hx => Bool.eq_iff_iff.2 (h x hx)

/-- A record of which the score decides is taken exactly if it should not be. -/
lemma recordSearch_matching_iff_matches :
    ((recordSearch char searchUserById path flag c).matching c.toSearchCondition b = true ↔
        RecordMatches char searchUserById flag c b) ↔
      (flag &&& RECORD_CONDITION_RECOG_SCORES = 0 ∨ ¬ RecordMatchesApart char searchUserById flag c b) := by
  rw [recordSearch_matching, RecordMatches]
  by_cases hflag : flag &&& RECORD_CONDITION_RECOG_SCORES = 0
  · simp [hflag]
  · by_cases hapart : RecordMatchesApart char searchUserById flag c b
    · by_cases hscore : ScoreBetween char c b
      · simp [hflag, hapart, hscore]
      · simp [hflag, hapart, hscore]
    · simp [hapart]

/-- The list of `searchRecord` is that of the search. -/
lemma searchRecord_lists_iff {Z : TimeZone} {d : Disk} {fuel : ℕ} {want : List (List UInt8)} :
    (∃ c' infos, searchRecord char searchUserById path Z d (fun _ => true) fuel flag c = some (0, c', infos) ∧
        infos.map LogInfo.logIndex = want) ↔
      ∃ c' infos, (recordSearch char searchUserById path flag c).search Z d (fun _ => true) fuel
          c.toSearchCondition = some (0, c', infos) ∧ infos.map LogInfo.logIndex = want := by
  rw [searchRecord]
  cases (recordSearch char searchUserById path flag c).search Z d (fun _ => true) fuel
    c.toSearchCondition with
  | none => simp
  | some r =>
      constructor
      · rintro ⟨c', infos, heq, hinfos⟩
        rw [Option.map_some, Option.some.injEq, Prod.mk.injEq, Prod.mk.injEq] at heq
        exact ⟨r.2.1, infos, by rw [← heq.1, ← heq.2.2], hinfos⟩
      · rintro ⟨c', infos, heq, hinfos⟩
        rw [Option.some.injEq] at heq
        exact ⟨_, infos, by rw [heq]; rfl, hinfos⟩

end

/-! ### The results -/

/-- **When `searchRecord` implements its filter.**  In a zone with a fixed offset, over index files that
have complete records of their days, take a condition with a start time not behind the end time, the
start address 0 and no limit.  The search returns exactly the records of the store that it is for, in
the order of the days and of the files, if and only if the day of the end time ends before the last
32-bit time, and the flag for the score is not set or no record meets the other conditions. -/
theorem record_search_exact_iff (char : UInt8 → ℤ) (searchUserById : ℕ → Bool) (recordIndexPath : Path)
    (Z : FixedZone) (d : Disk) (searchConditionFlag : UInt32) (c : RecordSearchCondition)
    (hstore : DatedStore 24 Z d recordIndexPath FileIndex.SIZE) (htimes : c.startTime ≤ c.endTime)
    (haddr : c.startAddr = 0) (hnum : c.searchNum = 0) :
    (∃ enough, ∀ fuel ≥ enough, ∃ c' infos,
        searchRecord char searchUserById recordIndexPath Z d (fun _ => true) fuel searchConditionFlag c =
          some (0, c', infos) ∧
        infos.map LogInfo.logIndex = (allRecords Z d recordIndexPath FileIndex.SIZE).filter
          (fun b => RecordMatches char searchUserById searchConditionFlag c b)) ↔
      (Z.dayOf c.endTime.toNat + 1) * DAY < 2 ^ 32 + Z.east ∧
        (searchConditionFlag &&& RECORD_CONDITION_RECOG_SCORES = 0 ∨
          ∀ b ∈ allRecords Z d recordIndexPath FileIndex.SIZE,
            ¬ RecordMatchesApart char searchUserById searchConditionFlag c b) := by
  have hall := DaySearch.search_all_iff
    (S := recordSearch char searchUserById recordIndexPath searchConditionFlag c) hstore htimes haddr hnum
    (w := (allRecords Z d recordIndexPath FileIndex.SIZE).filter
      fun b => RecordMatches char searchUserById searchConditionFlag c b)
  simp only [searchRecord_lists_iff]
  rw [hall]
  refine and_congr_right fun _ => ?_
  refine (filter_eq_filter_iff (l := allRecords Z d recordIndexPath FileIndex.SIZE)).trans ?_
  simp only [decide_eq_true_iff, recordSearch_matching_iff_matches]
  constructor
  · intro h
    by_cases hflag : searchConditionFlag &&& RECORD_CONDITION_RECOG_SCORES = 0
    · exact Or.inl hflag
    · exact Or.inr fun b hb => (h b hb).resolve_left hflag
  · rintro (hflag | h) b hb
    · exact Or.inl hflag
    · exact Or.inr (h b hb)

/-- A record with a score of 50. -/
def sampleRecord : List UInt8 := FileIndex.encode ⟨1, 0, 1, 0, 0, 7, 0, 0, 0, 0, 50, 0, 5, 0, 0, 0⟩

/-- A store with one index file, of this record. -/
def sampleRecordDisk : Disk :=
  Function.update (fun _ => none) (dayPath ['/', 'r'] (Tm.ofDays 1) dotIndex) (some [sampleRecord].flatten)

/-- A condition for the first hundred seconds and the scores from 40 to 60. -/
def scoreCondition : RecordSearchCondition := ⟨⟨0, 100, 0, 0⟩, 0, 0, 0, 0, 40, 60, 0⟩

lemma sampleRecordDisk_dated : DatedStore 24 FixedZone.utc sampleRecordDisk ['/', 'r'] FileIndex.SIZE := by
  refine datedStore_single (by decide) fun b hb => ?_
  rw [List.mem_singleton.1 hb]
  exact ⟨FileIndex.length_encode _, by decide⟩

/-- A record with a score of 50, of the given user, type of the user, status and time. -/
def recordOf (id : UInt32) (userType fileStatus : UInt8) (recordTime : UInt32) : List UInt8 :=
  FileIndex.encode ⟨1, 0, 1, fileStatus, userType, id, 0, 0, 0, 0, 50, 0, recordTime, 0, 0, 0⟩

def firstDay : List (List UInt8) := [recordOf 7 0 0 5, recordOf 8 0 0 6, recordOf 7 2 0 7]

def secondDay : List (List UInt8) := [recordOf 7 0 1 86405, recordOf 7 0 0 86406]

/-- A store with the records of two days. -/
def twoDaysDisk : Disk :=
  Function.update (Function.update (fun _ => none) (dayPath ['/', 'r'] (Tm.ofDays 1) dotIndex)
    (some firstDay.flatten)) (dayPath ['/', 'r'] (Tm.ofDays 2) dotIndex) (some secondDay.flatten)

/-- The records of two days of the user 7, of the user type 0, with a score that is not from 60 to 70. -/
def userCondition : RecordSearchCondition := ⟨⟨0, 172799, 0, 0⟩, 7, 0, 0, 0, 60, 70, 0⟩

lemma twoDaysDisk_dated : DatedStore 24 FixedZone.utc twoDaysDisk ['/', 'r'] FileIndex.SIZE := by
  have hfirst : ∀ b ∈ firstDay, b.length = FileIndex.SIZE ∧
      FixedZone.utc.zone.localtime (timeAt 24 b) = Tm.ofDays 1 := by decide +kernel
  have hsecond : ∀ b ∈ secondDay, b.length = FileIndex.SIZE ∧
      FixedZone.utc.zone.localtime (timeAt 24 b) = Tm.ofDays 2 := by decide +kernel
  exact (datedStore_single (by decide +kernel) hfirst).update (by decide +kernel) hsecond

/-- With the flags for the user and for the type of the user, the search gives the two records of the store
of two days that it is for; the deleted one is not among them. -/
theorem record_search_exact_unscored :
    (∃ enough, ∀ fuel ≥ enough, ∃ c' infos,
      searchRecord (fun x => x.toNat) (fun _ => true) ['/', 'r'] FixedZone.utc twoDaysDisk (fun _ => true)
        fuel (RECORD_CONDITION_ID ||| RECORD_CONDITION_USER_TYPE) userCondition = some (0, c', infos) ∧
      infos.map LogInfo.logIndex = (allRecords FixedZone.utc twoDaysDisk ['/', 'r'] FileIndex.SIZE).filter
        (fun b => RecordMatches (fun x => x.toNat) (fun _ => true)
          (RECORD_CONDITION_ID ||| RECORD_CONDITION_USER_TYPE) userCondition b)) ∧
    (searchRecord (fun x => x.toNat) (fun _ => true) ['/', 'r'] FixedZone.utc twoDaysDisk (fun _ => true) 4
      (RECORD_CONDITION_ID ||| RECORD_CONDITION_USER_TYPE) userCondition).map
        (fun r => r.2.2.map LogInfo.logIndex) = some [recordOf 7 0 0 5, recordOf 7 0 0 86406] :=
  ⟨(record_search_exact_iff (fun x => x.toNat) (fun _ => true) ['/', 'r'] FixedZone.utc twoDaysDisk
    (RECORD_CONDITION_ID ||| RECORD_CONDITION_USER_TYPE) userCondition twoDaysDisk_dated (by decide) rfl
    rfl).2 ⟨by decide, Or.inl (by decide)⟩, by decide +kernel⟩

/-- With the flag for the score, the record of the sample store, which has a score between the two, is not
in the list. -/
theorem record_search_complement :
    DatedStore 24 FixedZone.utc sampleRecordDisk ['/', 'r'] FileIndex.SIZE ∧
    scoreCondition.startTime ≤ scoreCondition.endTime ∧ scoreCondition.startAddr = 0 ∧
    scoreCondition.searchNum = 0 ∧
    (searchRecord (fun x => x.toNat) (fun _ => true) ['/', 'r'] FixedZone.utc sampleRecordDisk (fun _ => true)
      3 RECORD_CONDITION_RECOG_SCORES scoreCondition).map (fun r => (r.1, r.2.2.map LogInfo.logIndex)) =
        some (0, []) ∧
    sampleRecord ∈ (allRecords FixedZone.utc sampleRecordDisk ['/', 'r'] FileIndex.SIZE).filter
      (fun b => RecordMatches (fun x => x.toNat) (fun _ => true) RECORD_CONDITION_RECOG_SCORES
        scoreCondition b) := by
  refine ⟨sampleRecordDisk_dated, by decide, rfl, rfl, by decide +kernel, ?_⟩
  rw [List.mem_filter]
  refine ⟨mem_allRecords (k := 1) (by decide) ?_, by decide +kernel⟩
  decide +kernel

/-! ### Counting -/

/-- **Counting and listing records agree.**  In any zone and over any store, take a condition with a start
time not behind the end time and the start address 0.  For every number of iterations of the day loops,
`searchRecordsNum` gives the number of entries in the list of `searchRecord` without a limit and leaves
the same condition, or both do not end.  They end if from each day up to that of the end time
`TimeToNextDay` leads to a later one. -/
theorem record_count_eq_list (char : UInt8 → ℤ) (searchUserById : ℕ → Bool) (recordIndexPath : Path)
    (Z : TimeZone) (d : Disk) (searchConditionFlag : UInt32) (c : RecordSearchCondition)
    (htimes : c.startTime ≤ c.endTime) (haddr : c.startAddr = 0) :
    (∀ fuel, searchRecordsNum char searchUserById recordIndexPath Z d fuel searchConditionFlag c =
      (searchRecord char searchUserById recordIndexPath Z d (fun _ => true) fuel searchConditionFlag
        { c with searchNum := 0 }).map fun r =>
          ((r.2.2.length : ℤ), { r.2.1 with searchNum := c.searchNum })) ∧
    (Z.Advances c.startTime c.endTime → ∃ enough, ∀ fuel ≥ enough,
      searchRecordsNum char searchUserById recordIndexPath Z d fuel searchConditionFlag c ≠ none) := by
  constructor
  · intro fuel
    rw [searchRecordsNum, searchRecord, DaySearch.count_search fuel htimes haddr, Option.map_map,
      Option.map_map]
    rfl
  · intro hadv
    refine ⟨Z.dateOf c.endTime + 2, fun fuel hfuel => ?_⟩
    rw [searchRecordsNum, Ne, Option.map_eq_none_iff, DaySearch.count_eq_none_iff htimes]
    exact SearchCondition.days_ne_none hadv (by omega) (by omega)

/-- For the user 7 and the scores that are not from 60 to 70 the store of two days has three records. -/
theorem record_count_sample :
    (∀ fuel, searchRecordsNum (fun x => x.toNat) (fun _ => true) ['/', 'r'] FixedZone.utc twoDaysDisk fuel
        (RECORD_CONDITION_ID ||| RECORD_CONDITION_RECOG_SCORES) userCondition =
      (searchRecord (fun x => x.toNat) (fun _ => true) ['/', 'r'] FixedZone.utc twoDaysDisk (fun _ => true)
        fuel (RECORD_CONDITION_ID ||| RECORD_CONDITION_RECOG_SCORES) { userCondition with searchNum := 0 }).map
          fun r => ((r.2.2.length : ℤ), { r.2.1 with searchNum := userCondition.searchNum })) ∧
    (∃ enough, ∀ fuel ≥ enough, searchRecordsNum (fun x => x.toNat) (fun _ => true) ['/', 'r'] FixedZone.utc
      twoDaysDisk fuel (RECORD_CONDITION_ID ||| RECORD_CONDITION_RECOG_SCORES) userCondition ≠ none) ∧
    (searchRecordsNum (fun x => x.toNat) (fun _ => true) ['/', 'r'] FixedZone.utc twoDaysDisk 4
      (RECORD_CONDITION_ID ||| RECORD_CONDITION_RECOG_SCORES) userCondition).map Prod.fst = some 3 := by
  have h := record_count_eq_list (fun x => x.toNat) (fun _ => true) ['/', 'r'] FixedZone.utc twoDaysDisk
    (RECORD_CONDITION_ID ||| RECORD_CONDITION_RECOG_SCORES) userCondition (by decide) rfl
  exact ⟨h.1, h.2 ((FixedZone.utc.advances_iff (by decide)).2 (by decide)), by decide +kernel⟩

end DeviceTools
