/-
Deletion by time.

`delSysLogsByTime` stops at the first file name behind that of the day of the time.  In a store whose
files have the names of days and the records of their days this leaves nothing out: the names are
compared as the dates are, and the records of later days have later times.
-/
import DeviceTools.LogLib.Delete

namespace DeviceTools

open ByteWord

/-- A store of the system log: the directory has only index files with the names of days, each with
complete records of its day, and every record is normal or deleted, the two values of `logFileStatus`
that the library writes. -/
structure SysLogStore (Z : FixedZone) (d : Disk) (path : Path) : Prop where
  dated : DayStore Z d path SYSLOG_INDEX_SIZE
  named : ∀ p, InDirectory path p → d p ≠ none → ∃ tm : Tm, p = dayPath path tm dotIndex
  status : ∀ tm bs, d (dayPath path tm dotIndex) = some bs → ∀ b ∈ records SYSLOG_INDEX_SIZE bs,
    logFileStatusAt b = 0 ∨ logFileStatusAt b = 1

/-- A system log record with a time up to the given one. -/
def sysLogBefore (t : UInt32) (b : List UInt8) : Bool :=
  logTypeAt b = LogType.eSysLog.code && logTimeAt b ≤ t.toNat

/-! ### Which files are gone over -/

lemma upToDay_of_lt {zone : Zone} {t : UInt32} {a b : Name} (hab : a < b) (hb : upToDay zone t b = true) :
    upToDay zone t a = true := by
  rw [upToDay, decide_eq_true_iff] at hb ⊢
  exact hab.le.trans hb

lemma upToDay_iff {zone : Zone} {t : UInt32} {tm : Tm} :
    upToDay zone t (tm.name ++ dotIndex) = true ↔ tm.stamp ≤ (zone.localtime t.toNat).stamp := by
  rw [upToDay, decide_eq_true_iff, Tm.pad_stamp, ← not_lt, name_append_lt_iff, name_lt_iff, ← not_lt]
  refine not_congr ⟨fun h => h.resolve_right fun hc => absurd hc.2 (lt_irrefl _), Or.inl⟩

lemma length_day (tm : Tm) : (tm.name ++ dotIndex).length = 14 := by
  rw [List.length_append, Tm.length_name]
  rfl

lemma isDots_day (tm : Tm) : isDots (tm.name ++ dotIndex) = false := by
  have hlen := length_day tm
  rw [isDots, Bool.or_eq_false_iff, decide_eq_false_iff_not, decide_eq_false_iff_not]
  constructor
  · intro h
    rw [h] at hlen
    exact absurd hlen (by decide)
  · intro h
    rw [h] at hlen
    exact absurd hlen (by decide)

lemma inDirectory_dayPath (path : Path) (tm : Tm) : InDirectory path (dayPath path tm dotIndex) := by
  refine ⟨tm.name ++ dotIndex, fun h => ?_, slash_notMem_day tm (by decide), isDots_day tm, dayPath_eq _ _ _⟩
  have hlen := length_day tm
  rw [h] at hlen
  exact absurd hlen (by decide)

section
variable {Z : FixedZone} {d d' : Disk} {path : Path} {t : UInt32}

lemma DayStore.records (h : DayStore Z d path SYSLOG_INDEX_SIZE) {tm : Tm} {bs : List UInt8}
    (hbs : d (dayPath path tm dotIndex) = some bs) :
    bs.length ≤ OFF_MAX ∧ ∀ b ∈ records SYSLOG_INDEX_SIZE bs, Z.zone.localtime (logTimeAt b) = tm := by
  obtain ⟨hlen, blocks, rfl, hblocks⟩ := h tm bs hbs
  refine ⟨hlen, fun b hb => ?_⟩
  rw [records_flatten SYSLOG_INDEX_SIZE_pos fun b hb => (hblocks b hb).1] at hb
  exact (hblocks b hb).2

/-- In the file of a day up to that of the time, the test of the code marks the records up to the time. -/
lemma SysLogStore.markDeleted_upTo (h : SysLogStore Z d path) {tm : Tm} {bs : List UInt8}
    (hbs : d (dayPath path tm dotIndex) = some bs) :
    markDeleted SYSLOG_INDEX_SIZE (sysLogUpTo t) bs = markDeleted SYSLOG_INDEX_SIZE (sysLogBefore t) bs := by
  rw [markDeleted_eq_iff SYSLOG_INDEX_SIZE_pos]
  intro b hb
  have hlen : 4 < b.length := by
    rw [length_of_mem_records hb]
    decide
  rcases h.status tm bs hbs b hb with hstatus | hstatus
  · simp [sysLogUpTo, sysLogBefore, hstatus]
  · rw [set_eq_self hlen hstatus]
    simp

/-- In the file of a later day there is nothing to mark. -/
lemma SysLogStore.markDeleted_later (h : SysLogStore Z d path) {tm : Tm} {bs : List UInt8}
    (hbs : d (dayPath path tm dotIndex) = some bs) (hlater : (Z.zone.localtime t.toNat).stamp < tm.stamp) :
    markDeleted SYSLOG_INDEX_SIZE (sysLogBefore t) bs = bs := by
  refine markDeleted_eq_self SYSLOG_INDEX_SIZE_pos fun b hb => ?_
  have hday := (h.dated.records hbs).2 b hb
  have htime : ¬ logTimeAt b ≤ t.toNat := by
    intro hle
    have hmono := (Z.stamp_le_iff (timeAt_lt 20 b) t.toNat_lt).2 (Z.dayOf_mono hle)
    have hstamp : (Z.zone.localtime (timeAt 20 b)).stamp = tm.stamp := congrArg Tm.stamp hday
    omega
  simp [sysLogBefore, htime]

/-- **What `delSysLogsByTime` does.** -/
lemma SysLogStore.delSysLogsByTime_eq (h : SysLogStore Z d path) {namelist : List Name}
    (hscan : Scans d path namelist) {write : Path → ℕ → ℕ} (hwrite : ∀ p pos, SYSLOG_INDEX_SIZE ≤ write p pos)
    {fuel : ℕ} (hfuel : OFF_MAX < fuel) (t : UInt32) :
    ∃ d', delSysLogsByTime path Z.zone (some namelist) write fuel t d = some (0, d') ∧
      DeletesExactly SYSLOG_INDEX_SIZE (sysLogBefore t) path d d' := by
  have hlen : ∀ p bs, InDirectory path p → d p = some bs → bs.length ≤ OFF_MAX := by
    intro p bs hp hbs
    obtain ⟨tm, rfl⟩ := h.named p hp (by rw [hbs]; exact Option.some_ne_none _)
    exact (h.dated.records hbs).1
  obtain ⟨d', hd', hin, hout⟩ := delLogs_eq (sysLogUpTo t) SYSLOG_INDEX_SIZE_pos hwrite hfuel
    (upToDay Z.zone t) (fun _ _ => upToDay_of_lt) hscan hlen
  refine ⟨d', hd', fun p => ⟨?_, fun hp => hout p fun n hne hslash hdots _ heq => ?_⟩⟩
  · rintro ⟨n, hne, hslash, hdots, rfl⟩
    -- whether the loop comes to the name or not, only the names of files matter
    have hother : upToDay Z.zone t n = false → d' (path ++ '/' :: n) = d (path ++ '/' :: n) := by
      intro hn
      refine hout _ fun m _ hmslash _ hm heq => ?_
      rw [path_inj hslash hmslash] at heq
      rw [heq.2, hm] at hn
      exact Bool.false_ne_true hn.symm
    cases hbs : d (path ++ '/' :: n) with
    | none =>
        cases hn : upToDay Z.zone t n with
        | true => rw [hin n hne hslash hdots hn, hbs, Option.map_none, Option.map_none]
        | false => rw [hother hn, hbs, Option.map_none]
    | some bs =>
        obtain ⟨tm, htm⟩ := h.named _ ⟨n, hne, hslash, hdots, rfl⟩ (by rw [hbs]; exact Option.some_ne_none _)
        have hname : n = tm.name ++ dotIndex := by
          rw [dayPath_eq, path_inj hslash (slash_notMem_day tm (by decide))] at htm
          exact htm.2
        have hfile : d (dayPath path tm dotIndex) = some bs := by rw [← htm, hbs]
        cases hn : upToDay Z.zone t n with
        | true =>
            rw [hin n hne hslash hdots hn, hbs, Option.map_some, Option.map_some, h.markDeleted_upTo hfile]
        | false =>
            have hlater : (Z.zone.localtime t.toNat).stamp < tm.stamp := by
              by_contra hle
              rw [hname, upToDay_iff.2 (not_lt.1 hle)] at hn
              exact Bool.false_ne_true hn.symm
            rw [hother hn, hbs, Option.map_some, h.markDeleted_later hfile hlater]
  · exact hp ⟨n, hne, hslash, hdots, heq⟩

/-! ### The store behind -/

lemma sysLogBefore_set (b : List UInt8) : sysLogBefore t (b.set 4 1) = sysLogBefore t b := by
  rw [sysLogBefore, sysLogBefore, logTypeAt_set, logTimeAt_set]

lemma logTimeAt_mark (b : List UInt8) : logTimeAt (if sysLogBefore t b then b.set 4 1 else b) = logTimeAt b := by
  split
  · exact logTimeAt_set b
  · rfl

/-- The deletion leaves a store of the system log. -/
lemma SysLogStore.of_deletes (h : SysLogStore Z d path)
    (hdel : DeletesExactly SYSLOG_INDEX_SIZE (sysLogBefore t) path d d') : SysLogStore Z d' path := by
  have hfile : ∀ tm bs', d' (dayPath path tm dotIndex) = some bs' → ∃ bs, d (dayPath path tm dotIndex) = some bs ∧
      bs' = markDeleted SYSLOG_INDEX_SIZE (sysLogBefore t) bs := by
    intro tm bs' hbs'
    rw [(hdel _).1 (inDirectory_dayPath path tm), Option.map_eq_some_iff] at hbs'
    obtain ⟨bs, hbs, rfl⟩ := hbs'
    exact ⟨bs, hbs, rfl⟩
  refine ⟨fun tm bs' hbs' => ?_, fun p hp hne => ?_, fun tm bs' hbs' b' hb' => ?_⟩
  · obtain ⟨bs, hbs, rfl⟩ := hfile tm bs' hbs'
    obtain ⟨hlen, blocks, rfl, hblocks⟩ := h.dated tm bs hbs
    have hsize : ∀ b ∈ blocks, b.length = SYSLOG_INDEX_SIZE := fun b hb => (hblocks b hb).1
    refine ⟨by rwa [length_markDeleted], blocks.map fun b => if sysLogBefore t b then b.set 4 1 else b, ?_, ?_⟩
    · rw [markDeleted, records_flatten SYSLOG_INDEX_SIZE_pos hsize, length_flatten_blocks hsize,
        Nat.mul_div_cancel _ SYSLOG_INDEX_SIZE_pos, ← length_flatten_blocks hsize, List.drop_length,
        List.append_nil]
    · rintro b' hb'
      obtain ⟨b, hb, rfl⟩ := List.mem_map.1 hb'
      rw [length_mark, logTimeAt_mark]
      exact hblocks b hb
  · rw [(hdel p).1 hp, Ne, Option.map_eq_none_iff] at hne
    exact h.named p hp hne
  · obtain ⟨bs, hbs, rfl⟩ := hfile tm bs' hbs'
    rw [records_markDeleted SYSLOG_INDEX_SIZE_pos] at hb'
    obtain ⟨b, hb, rfl⟩ := List.mem_map.1 hb'
    split
    · refine Or.inr (logFileStatusAt_set ?_)
      rw [length_of_mem_records hb]
      decide
    · exact h.status tm bs hbs b hb

lemma DeletesExactly.again {d'' : Disk} (h : DeletesExactly SYSLOG_INDEX_SIZE (sysLogBefore t) path d d')
    (h' : DeletesExactly SYSLOG_INDEX_SIZE (sysLogBefore t) path d' d'') : d'' = d' := by
  funext p
  by_cases hp : InDirectory path p
  · rw [(h' p).1 hp, (h p).1 hp, Option.map_map]
    refine congrArg (fun f => Option.map f (d p)) (funext fun bs => ?_)
    exact markDeleted_markDeleted SYSLOG_INDEX_SIZE_pos sysLogBefore_set bs
  · exact (h' p).2 hp

/-! ### Searching behind -/

/-- A record is found behind the deletion if it was before and is behind the time. -/
lemma matching_mark {x : SearchCondition} {b : List UInt8} (hlen : 4 < b.length) :
    (sysLogSearch path).matching x (if sysLogBefore t b then b.set 4 1 else b) =
      (decide (t.toNat < logTimeAt b) && (sysLogSearch path).matching x b) := by
  rw [sysLogSearch_matching, sysLogSearch_matching, ← Bool.decide_and, decide_eq_decide]
  cases hb : sysLogBefore t b with
  | true =>
      rw [sysLogBefore, Bool.and_eq_true, decide_eq_true_iff, decide_eq_true_iff] at hb
      rw [if_pos rfl]
      constructor
      · intro h
        exact absurd (logFileStatusAt_set hlen) h.2.2.2
      · intro h
        exact absurd hb.2 (not_le.2 h.1)
  | false =>
      rw [sysLogBefore, Bool.and_eq_false_iff, decide_eq_false_iff_not, decide_eq_false_iff_not] at hb
      rw [if_neg Bool.false_ne_true]
      refine ⟨fun h => ⟨?_, h⟩, fun h => h.2⟩
      exact not_le.1 (hb.resolve_left fun hne => hne h.2.2.1)

/-- A search finds of the records of a day those that are behind the time. -/
lemma DeletesExactly.found (h : DeletesExactly SYSLOG_INDEX_SIZE (sysLogBefore t) path d d') (Z' : TimeZone)
    (x : SearchCondition) : (sysLogSearch path).found Z' d' x =
      ((sysLogSearch path).found Z' d x).filter fun b => t.toNat < logTimeAt b := by
  have hopen : d'.openRead (dayPath path (Z'.localtime x.startTime.toNat) dotIndex) =
      (d.openRead (dayPath path (Z'.localtime x.startTime.toNat) dotIndex)).map
        (markDeleted SYSLOG_INDEX_SIZE (sysLogBefore t)) := by
    rw [Disk.openRead, Disk.openRead, (h _).1 (inDirectory_dayPath path _)]
    cases d (dayPath path (Z'.localtime x.startTime.toNat) dotIndex) with
    | none => rfl
    | some bs =>
        simp only [Option.map_some, length_markDeleted]
        split <;> rfl
  have hfile : (sysLogSearch path).dayFile Z' d' x = ((sysLogSearch path).dayFile Z' d x).map
      fun b => if sysLogBefore t b then b.set 4 1 else b := by
    show records SYSLOG_INDEX_SIZE ((d'.openRead (dayPath path _ dotIndex)).getD []) = _
    rw [hopen, DaySearch.dayFile]
    show _ = (records SYSLOG_INDEX_SIZE ((d.openRead (dayPath path _ dotIndex)).getD [])).map _
    cases d.openRead (dayPath path (Z'.localtime x.startTime.toNat) dotIndex) with
    | none => simp [records]
    | some bs => exact records_markDeleted SYSLOG_INDEX_SIZE_pos _ bs
  rw [DaySearch.found, DaySearch.found, hfile, List.filter_map, List.filter_filter]
  have hsame : ∀ b ∈ (sysLogSearch path).dayFile Z' d x,
      ((sysLogSearch path).matching x ∘ fun b => if sysLogBefore t b then b.set 4 1 else b) b =
        (decide (t.toNat < logTimeAt b) && (sysLogSearch path).matching x b) := by
    intro b hb
    have hlen : 4 < b.length := by
      rw [length_of_mem_records hb]
      exact (by decide : 4 < SYSLOG_INDEX_SIZE)
    rw [Function.comp_apply]
    exact matching_mark hlen
  rw [List.filter_congr hsame]
  -- what is left of the records of the day has no mark
  refine (List.map_congr_left fun b hb => ?_).trans (List.map_id _)
  have hlate := (List.mem_filter.1 hb).2
  rw [Bool.and_eq_true, decide_eq_true_iff] at hlate
  have hno : sysLogBefore t b = false := by
    rw [sysLogBefore, Bool.and_eq_false_iff, decide_eq_false_iff_not, decide_eq_false_iff_not]
    exact Or.inr (not_le.2 hlate.1)
  rw [hno, if_neg Bool.false_ne_true, id]

/-- A search without a limit gives the records that it gave before and that are behind the time. -/
lemma DeletesExactly.search (h : DeletesExactly SYSLOG_INDEX_SIZE (sysLogBefore t) path d d') (Z' : TimeZone)
    (c : SearchCondition) (haddr : c.startAddr = 0) (hnum : c.searchNum = 0) (n : ℕ) :
    (searchSysLog path Z' d' (fun _ => true) n c).map (fun r => (r.1, r.2.1, r.2.2.map LogInfo.logIndex)) =
      (searchSysLog path Z' d (fun _ => true) n c).map
        (fun r => (r.1, r.2.1, (r.2.2.map LogInfo.logIndex).filter fun b => t.toNat < logTimeAt b)) := by
  rw [searchSysLog, searchSysLog]
  by_cases htimes : c.startTime ≤ c.endTime
  · have hbefore := congrArg (Option.map fun r : ℤ × SearchCondition × List (List UInt8) =>
      (r.1, r.2.1, r.2.2.filter fun b => t.toNat < logTimeAt b))
      (DaySearch.search_unlimited (S := sysLogSearch path) (Z := Z') (d := d) n htimes haddr hnum)
    rw [Option.map_map, Option.map_map] at hbefore
    rw [DaySearch.search_unlimited n htimes haddr hnum]
    refine Eq.trans ?_ hbefore.symm
    refine congrArg (fun f => Option.map f _) (funext fun r => ?_)
    have hfound : (sysLogSearch path).found Z' d' = fun x =>
        ((sysLogSearch path).found Z' d x).filter fun b => t.toNat < logTimeAt b := funext (h.found Z')
    rw [hfound, Function.comp_apply, List.filter_flatMap]
  · rw [DaySearch.search, DaySearch.search, if_pos (UInt32.not_le.1 htimes), if_pos (UInt32.not_le.1 htimes)]
    rfl

end

/-! ### The result -/

/-- **Deletion by time is exact and idempotent.**  Over a store of the system log in a zone with a fixed
offset, with the names that `scandir` gives and without a short `write`, `delSysLogsByTime` marks exactly
the system log records with a time up to the given one deleted.  A search without a limit then gives
exactly the records that it gave before and that have a later time, and a second call changes
nothing. -/
theorem del_sys_logs_by_time_exact (Z : FixedZone) (sysLogIndexPath : Path) (namelist : List Name)
    (write : Path → ℕ → ℕ) (t : UInt32) (d : Disk) (hstore : SysLogStore Z d sysLogIndexPath)
    (hscan : Scans d sysLogIndexPath namelist) (hwrite : ∀ p pos, SYSLOG_INDEX_SIZE ≤ write p pos) :
    ∃ enough, ∀ fuel ≥ enough, ∃ d',
      delSysLogsByTime sysLogIndexPath Z.zone (some namelist) write fuel t d = some (0, d') ∧
      DeletesExactly SYSLOG_INDEX_SIZE
        (fun b => logTypeAt b = LogType.eSysLog.code && logTimeAt b ≤ t.toNat) sysLogIndexPath d d' ∧
      (∀ c : SearchCondition, c.startAddr = 0 → c.searchNum = 0 →
        (∀ n, (searchSysLog sysLogIndexPath Z d' (fun _ => true) n c).map
            (fun r => (r.1, r.2.1, r.2.2.map LogInfo.logIndex)) =
          (searchSysLog sysLogIndexPath Z d (fun _ => true) n c).map
            (fun r => (r.1, r.2.1, (r.2.2.map LogInfo.logIndex).filter fun b => t.toNat < logTimeAt b))) ∧
        ((Z.dayOf c.endTime.toNat + 1) * DAY < 2 ^ 32 + Z.east →
          ∃ enough, ∀ n ≥ enough, searchSysLog sysLogIndexPath Z d' (fun _ => true) n c ≠ none)) ∧
      ∀ namelist', Scans d' sysLogIndexPath namelist' →
        delSysLogsByTime sysLogIndexPath Z.zone (some namelist') write fuel t d' = some (0, d') := by
  refine ⟨OFF_MAX + 1, fun fuel hfuel => ?_⟩
  have hmore : OFF_MAX < fuel := hfuel
  obtain ⟨d', hrun, hdel⟩ := hstore.delSysLogsByTime_eq hscan hwrite hmore t
  refine ⟨d', hrun, hdel, fun c haddr hnum => ⟨fun n => ?_, fun hlast => ?_⟩, fun namelist' hscan' => ?_⟩
  · exact hdel.search Z c haddr hnum n
  · refine ⟨(Z : TimeZone).dateOf c.endTime + 2, fun n hn => ?_⟩
    by_cases htimes : c.startTime ≤ c.endTime
    · refine DaySearch.search_ne_none (SearchCondition.days_ne_none ((Z.advances_iff htimes).2 hlast) ?_ ?_)
      · omega
      · omega
    · rw [searchSysLog, DaySearch.search, if_pos (UInt32.not_le.1 htimes)]
      exact Option.some_ne_none _
  · obtain ⟨d'', hrun', hdel'⟩ := (hstore.of_deletes hdel).delSysLogsByTime_eq hscan' hwrite hmore t
    rw [hrun', hdel.again hdel']

/-- The records that `saveSysLogThread` stores are not deleted. -/
lemma logFileStatusAt_logIndex (e : SyslogEvent) (no : ℕ) : logFileStatusAt (e.logIndex no) = 0 := by
  have hlen : (leBytes 4 (UInt32.ofNat no).toNat).length = 4 := leBytes_length 4 _
  rw [logFileStatusAt, SyslogEvent.logIndex, LogHead.encode, List.getD_eq_getElem?_getD]
  simp only [List.append_assoc]
  rw [List.getElem?_append_right (by rw [hlen]), hlen]
  rfl

/-- A record of the system log. -/
def sampleSysRecord (t : UInt32) : List UInt8 :=
  SyslogEvent.logIndex ⟨LogType.eSysLog.code, 0, t, 0, 0, List.replicate 64 0, List.length_replicate⟩ 1

/-- A store with one index file, of two records. -/
def sampleSysDisk : Disk :=
  Function.update (fun _ => none) (dayPath ['/', 's'] (Tm.ofDays 1) dotIndex)
    (some [sampleSysRecord 5, sampleSysRecord 6].flatten)

lemma sampleSysDisk_eq_some {p : Path} {bs : List UInt8} (h : sampleSysDisk p = some bs) :
    p = dayPath ['/', 's'] (Tm.ofDays 1) dotIndex ∧ bs = [sampleSysRecord 5, sampleSysRecord 6].flatten := by
  rw [sampleSysDisk, Function.update_apply] at h
  split at h
  · next hp => exact ⟨hp, (Option.some.inj h).symm⟩
  · exact absurd h.symm (Option.some_ne_none _)

lemma length_sampleSysRecord {b : List UInt8} (hb : b ∈ [sampleSysRecord 5, sampleSysRecord 6]) :
    b.length = SYSLOG_INDEX_SIZE := by
  rcases List.mem_cons.1 hb with rfl | hb
  · exact SyslogEvent.length_logIndex _ _
  · rw [List.mem_singleton.1 hb]
    exact SyslogEvent.length_logIndex _ _

lemma sampleSysDisk_store : SysLogStore FixedZone.utc sampleSysDisk ['/', 's'] := by
  refine ⟨?_, fun p _ hp => ?_, fun tm bs hbs b hb => ?_⟩
  · show DatedStore 20 FixedZone.utc sampleSysDisk ['/', 's'] SYSLOG_INDEX_SIZE
    refine datedStore_single (by decide +kernel) fun b hb => ⟨length_sampleSysRecord hb, ?_⟩
    rcases List.mem_cons.1 hb with rfl | hb
    · decide
    · rw [List.mem_singleton.1 hb]
      decide
  · obtain ⟨bs, hbs⟩ := Option.ne_none_iff_exists'.1 hp
    exact ⟨_, (sampleSysDisk_eq_some hbs).1⟩
  · rw [(sampleSysDisk_eq_some hbs).2, records_flatten SYSLOG_INDEX_SIZE_pos fun _ => length_sampleSysRecord] at hb
    left
    rcases List.mem_cons.1 hb with rfl | hb
    · exact logFileStatusAt_logIndex _ _
    · rw [List.mem_singleton.1 hb]
      exact logFileStatusAt_logIndex _ _

/-- Of the two records of the sample store, with the times 5 and 6, a deletion up to the time 5 marks the
first. -/
theorem del_sys_logs_by_time_sample : ∃ enough, ∀ fuel ≥ enough, ∃ d',
    delSysLogsByTime ['/', 's'] FixedZone.utc.zone (some [['.'], ['.', '.'], (Tm.ofDays 1).name ++ dotIndex])
      (fun _ _ => SYSLOG_INDEX_SIZE) fuel 5 sampleSysDisk = some (0, d') ∧
    records SYSLOG_INDEX_SIZE (d'.contents (dayPath ['/', 's'] (Tm.ofDays 1) dotIndex)) =
      [(sampleSysRecord 5).set 4 1, sampleSysRecord 6] := by
  have hscan : Scans sampleSysDisk ['/', 's'] [['.'], ['.', '.'], (Tm.ofDays 1).name ++ dotIndex] := by
    rw [sampleSysDisk, dayPath_eq]
    exact scans_single (by decide) (by decide) (by decide)
  obtain ⟨enough, h⟩ := del_sys_logs_by_time_exact FixedZone.utc ['/', 's'] _ (fun _ _ => SYSLOG_INDEX_SIZE) 5
    sampleSysDisk sampleSysDisk_store hscan fun _ _ => le_rfl
  refine ⟨enough, fun fuel hfuel => ?_⟩
  obtain ⟨d', hrun, hdel, -, -⟩ := h fuel hfuel
  refine ⟨d', hrun, ?_⟩
  have hfile : sampleSysDisk (dayPath ['/', 's'] (Tm.ofDays 1) dotIndex) =
      some [sampleSysRecord 5, sampleSysRecord 6].flatten := Function.update_self _ _ _
  rw [Disk.contents, (hdel _).1 (inDirectory_dayPath _ _), hfile, Option.map_some, Option.getD_some,
    records_markDeleted SYSLOG_INDEX_SIZE_pos,
    records_flatten SYSLOG_INDEX_SIZE_pos fun _ => length_sampleSysRecord]
  decide +kernel

end DeviceTools
