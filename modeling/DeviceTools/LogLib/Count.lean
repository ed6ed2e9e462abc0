/-
The functions of logLib that count.

`searchSysLogNum` and `searchManLogNum` go over the days as the searches do and count the records.
`searchSysLogNum` makes the tests of `searchSysLog`.  `searchManLogNum` takes the flags and the
condition of `searchManLog`, but it looks neither at the name nor at the number of the user.
-/
import DeviceTools.LogLib.Search

namespace DeviceTools

open ByteWord

/-! ### The code -/

/-- `searchSysLogNum`. -/
def searchSysLogNum (sysLogIndexPath : Path) (Z : TimeZone) (d : Disk) (fuel : ℕ)
    (_searchCondFlag : UInt32) (c : SearchCondition) : Option (ℤ × SearchCondition) :=
  (sysLogSearch sysLogIndexPath).count Z d fuel c

/-- The parameters of `searchManLogNum`. -/
def manLogCount (manLogIndexPath : Path) : DaySearch where
  indexPath := manLogIndexPath
  size := MANLOG_INDEX_SIZE
  timeOffset := 20
  wanted b := logTypeAt b = LogType.eManLog.code && logFileStatusAt b ≠ 1
  size_pos := MANLOG_INDEX_SIZE_pos

/-- `searchManLogNum`. -/
def searchManLogNum (manLogIndexPath : Path) (Z : TimeZone) (d : Disk) (fuel : ℕ)
    (_searchCondFlag : UInt32) (c : ManlogSearchCondition) : Option (ℤ × ManlogSearchCondition) :=
  ((manLogCount manLogIndexPath).count Z d fuel c.toSearchCondition).map fun r =>
    (r.1, { c with toSearchCondition := r.2 })

/-! ### Counting and listing -/

/-- A record of the management log passes the tests on the user that the flags select. -/
def ManLogUserMatches (LOG_CONDTITION_USERNO searchCondFlag : UInt32) (c : ManlogSearchCondition)
    (b : List UInt8) : Prop :=
  (searchCondFlag &&& LOG_CONDTITION_USERNAME ≠ 0 → logUserNameAt b = c.userName) ∧
    (searchCondFlag &&& LOG_CONDTITION_USERNO ≠ 0 → logUserNoAt b = c.userNo.toNat)

lemma manLogSearch_wanted {path : Path} {USERNO flag : UInt32} {c : ManlogSearchCondition}
    {b : List UInt8} : (manLogSearch path USERNO flag c).wanted b = true ↔
      (manLogCount path).wanted b = true ∧ ManLogUserMatches USERNO flag c b := by
  simp only [manLogSearch, manLogCount, ManLogUserMatches, Bool.and_eq_true, Bool.not_eq_true',
    Bool.and_eq_false_iff, decide_eq_true_eq, decide_eq_false_iff_not, not_not]
  rw [@eq_comm _ c.userName, @eq_comm _ c.userNo.toNat]
  tauto

instance (USERNO flag : UInt32) (c : ManlogSearchCondition) :
    DecidablePred (ManLogUserMatches USERNO flag c) := fun _ => inferInstanceAs (Decidable (_ ∧ _))

/-- A record that `searchManLogNum` counts: it is in the index file of a day of the walk and in the
interval from the start time of that day on, of the right type and not marked deleted. -/
def ManLogCounted (manLogIndexPath : Path) (Z : TimeZone) (d : Disk) (c : SearchCondition) (b : List UInt8) :
    Prop :=
  ∃ fuel ds last, c.days Z fuel = some (ds, last) ∧ ∃ x ∈ ds,
    b ∈ (manLogCount manLogIndexPath).dayFile Z d x ∧
    x.startTime.toNat ≤ logTimeAt b ∧ logTimeAt b ≤ c.endTime.toNat ∧
    logTypeAt b = LogType.eManLog.code ∧ logFileStatusAt b ≠ 1

section
variable {path : Path} {USERNO flag : UInt32} {Z : TimeZone} {d : Disk} {c : ManlogSearchCondition}

lemma manLogSearch_found (x : SearchCondition) : (manLogSearch path USERNO flag c).found Z d x =
    ((manLogCount path).found Z d x).filter fun b => ManLogUserMatches USERNO flag c b := by
  have hfile : (manLogSearch path USERNO flag c).dayFile Z d x = (manLogCount path).dayFile Z d x := rfl
  rw [DaySearch.found, DaySearch.found, List.filter_filter, hfile]
  refine List.filter_congr fun b _ => ?_
  have htime : (manLogSearch path USERNO flag c).timeOffset = (manLogCount path).timeOffset := rfl
  rw [Bool.eq_iff_iff, Bool.and_eq_true, DaySearch.matching_iff, DaySearch.matching_iff,
    manLogSearch_wanted, decide_eq_true_iff, htime]
  tauto

lemma manLogCounted_of_found {fuel : ℕ} {c last x : SearchCondition} {ds : List SearchCondition}
    {b : List UInt8} (hds : c.days Z fuel = some (ds, last)) (hx : x ∈ ds) :
    b ∈ (manLogCount path).found Z d x ↔ b ∈ (manLogCount path).dayFile Z d x ∧
      x.startTime.toNat ≤ logTimeAt b ∧ logTimeAt b ≤ c.endTime.toNat ∧
      logTypeAt b = LogType.eManLog.code ∧ logFileStatusAt b ≠ 1 := by
  have hwanted : (manLogCount path).wanted b = true ↔
      logTypeAt b = LogType.eManLog.code ∧ logFileStatusAt b ≠ 1 := by
    simp [manLogCount]
  rw [DaySearch.found, List.mem_filter, DaySearch.matching_iff, hwanted,
    SearchCondition.endTime_of_mem_days hds hx, and_assoc]
  rfl

/-- What `searchManLog` puts in the list without a limit, as a count. -/
lemma length_searchManLog (htimes : c.startTime ≤ c.endTime) (haddr : c.startAddr = 0) (fuel : ℕ) :
    (searchManLog path USERNO flag Z d (fun _ => true) fuel { c with searchNum := 0 }).map
        (fun r => (r.2.2.length : ℤ)) =
      (c.days Z fuel).map fun r =>
        ((((r.1.flatMap ((manLogCount path).found Z d)).filter
          fun b => ManLogUserMatches USERNO flag c b).length : ℕ) : ℤ) := by
  have hcount := DaySearch.count_search (S := manLogSearch path USERNO flag c) (Z := Z) (d := d) fuel htimes haddr
  rw [DaySearch.count_eq fuel htimes] at hcount
  have hfst := congrArg (Option.map Prod.fst) hcount
  rw [Option.map_map, Option.map_map] at hfst
  rw [searchManLog, Option.map_map]
  refine Eq.trans hfst.symm ?_
  refine congrArg (fun f => Option.map f _) (funext fun r => ?_)
  have hfound : (manLogSearch path USERNO flag c).found Z d = fun x =>
      ((manLogCount path).found Z d x).filter fun b => ManLogUserMatches USERNO flag c b :=
    funext manLogSearch_found
  rw [List.filter_flatMap, Function.comp_apply, hfound]

/-- The two functions agree on a number of iterations exactly if the records counted pass the tests. -/
lemma manLogNum_eq_iff (htimes : c.startTime ≤ c.endTime) (haddr : c.startAddr = 0) (fuel : ℕ) :
    (searchManLogNum path Z d fuel flag c).map Prod.fst =
        (searchManLog path USERNO flag Z d (fun _ => true) fuel { c with searchNum := 0 }).map
          (fun r => (r.2.2.length : ℤ)) ↔
      ∀ ds last, c.days Z fuel = some (ds, last) →
        ∀ x ∈ ds, ∀ b ∈ (manLogCount path).found Z d x, ManLogUserMatches USERNO flag c b := by
  rw [length_searchManLog htimes haddr, searchManLogNum, DaySearch.count_eq fuel htimes, Option.map_map,
    Option.map_map]
  cases hdays : c.days Z fuel with
  | none => simp
  | some r =>
      obtain ⟨ds, last⟩ := r
      rw [Option.map_some, Option.map_some, Option.some.injEq]
      dsimp only [Function.comp_apply]
      rw [Nat.cast_inj, eq_comm, List.length_filter_eq_length_iff]
      constructor
      · rintro h ds' last' heq x hx b hb
        rw [Option.some.injEq, Prod.mk.injEq] at heq
        rw [← heq.1] at hx
        exact of_decide_eq_true (h b (List.mem_flatMap.2 ⟨x, hx, hb⟩))
      · intro h b hb
        obtain ⟨x, hx, hb⟩ := List.mem_flatMap.1 hb
        exact decide_eq_true (h ds last rfl x hx b hb)

end

/-- **When counting and listing management logs agree.**  In any zone and over any store, take a condition
with a start time not behind the end time and the start address 0.  For every number of iterations of
the day loops, `searchManLogNum` and `searchManLog` without a limit give the same number, or both do not
end, exactly if every record counted passes the tests on the user that the flags select.  Both end if
from each day up to that of the end time `TimeToNextDay` leads to a later one. -/
theorem man_log_count_iff (manLogIndexPath : Path) (LOG_CONDTITION_USERNO searchCondFlag : UInt32)
    (Z : TimeZone) (d : Disk) (c : ManlogSearchCondition) (htimes : c.startTime ≤ c.endTime)
    (haddr : c.startAddr = 0) :
    ((∀ fuel, (searchManLogNum manLogIndexPath Z d fuel searchCondFlag c).map Prod.fst =
        (searchManLog manLogIndexPath LOG_CONDTITION_USERNO searchCondFlag Z d (fun _ => true) fuel
          { c with searchNum := 0 }).map fun r => (r.2.2.length : ℤ)) ↔
      ∀ b, ManLogCounted manLogIndexPath Z d c.toSearchCondition b →
        ManLogUserMatches LOG_CONDTITION_USERNO searchCondFlag c b) ∧
    (Z.Advances c.startTime c.endTime → ∃ enough, ∀ fuel ≥ enough,
      searchManLogNum manLogIndexPath Z d fuel searchCondFlag c ≠ none ∧
      searchManLog manLogIndexPath LOG_CONDTITION_USERNO searchCondFlag Z d (fun _ => true) fuel
        { c with searchNum := 0 } ≠ none) := by
  constructor
  · constructor
    · rintro h b ⟨fuel, ds, last, hds, x, hx, hb⟩
      exact (manLogNum_eq_iff htimes haddr fuel).1 (h fuel) ds last hds x hx b
        ((manLogCounted_of_found hds hx).2 hb)
    · intro h fuel
      refine (manLogNum_eq_iff htimes haddr fuel).2 fun ds last hds x hx b hb => h b ?_
      exact ⟨fuel, ds, last, hds, x, hx, (manLogCounted_of_found hds hx).1 hb⟩
  · intro hadv
    refine ⟨Z.dateOf c.endTime + 2, fun fuel hfuel => ?_⟩
    have hdays : c.days Z fuel ≠ none := SearchCondition.days_ne_none hadv (by omega) (by omega)
    constructor
    · rw [searchManLogNum, Ne, Option.map_eq_none_iff, DaySearch.count_eq_none_iff htimes]
      exact hdays
    · rw [searchManLog, Ne, Option.map_eq_none_iff]
      refine DaySearch.search_ne_none ?_
      rw [SearchCondition.days_searchNum, Ne, Option.map_eq_none_iff]
      exact hdays

/-- Without a flag the two records of the sample store are counted and listed. -/
theorem man_log_count_unfiltered :
    (∀ fuel, (searchManLogNum ['/', 'm'] FixedZone.utc sampleLogDisk fuel 0 sampleCondition).map Prod.fst =
      (searchManLog ['/', 'm'] 0x10 0 FixedZone.utc sampleLogDisk (fun _ => true) fuel
        { sampleCondition with searchNum := 0 }).map fun r => (r.2.2.length : ℤ)) ∧
    ∃ enough, ∀ fuel ≥ enough,
      searchManLogNum ['/', 'm'] FixedZone.utc sampleLogDisk fuel 0 sampleCondition ≠ none := by
  have h := man_log_count_iff ['/', 'm'] 0x10 0 FixedZone.utc sampleLogDisk sampleCondition (by decide) rfl
  refine ⟨h.1.2 fun b _ => ⟨fun hflag => absurd rfl hflag, fun hflag => absurd rfl hflag⟩, ?_⟩
  obtain ⟨enough, hends⟩ := h.2 ((FixedZone.utc.advances_iff (by decide)).2 (by decide))
  exact ⟨enough, fun fuel hfuel => (hends fuel hfuel).1⟩

/-- The condition of the sample with a name that no record has. -/
def namedCondition : ManlogSearchCondition := ⟨⟨0, 100, 0, 0⟩, 7, [97], by decide, by simp⟩

/-- With the flag for the user name, `searchManLogNum` still counts both records of the sample store, and
`searchManLog` lists none. -/
theorem man_log_count_ignores_name : namedCondition.startTime ≤ namedCondition.endTime ∧
    namedCondition.startAddr = 0 ∧
    (searchManLogNum ['/', 'm'] FixedZone.utc sampleLogDisk 3 LOG_CONDTITION_USERNAME namedCondition).map
      Prod.fst = some 2 ∧
    (searchManLog ['/', 'm'] 0x10 LOG_CONDTITION_USERNAME FixedZone.utc sampleLogDisk (fun _ => true) 3
      { namedCondition with searchNum := 0 }).map (fun r => (r.2.2.length : ℤ)) = some 0 := by
  decide +kernel

end DeviceTools
