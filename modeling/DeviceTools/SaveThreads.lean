/-
The three save threads: the bounds of their buffers, the truth of their counters, and the
numbers of their records.

The results of `Store` are instantiated at `saveSysLogThread`, `saveManLogThread` and
`saveRecordThread`.  Each is followed by runs in which the threads go wrong.
-/
import DeviceTools.LogLib.Log
import DeviceTools.RecordLib.Runs
import DeviceTools.Store.IndexNumbers

namespace DeviceTools

/-- A system log event of the given time, with an empty message. -/
def sampleSyslog (t : UInt32) : SyslogEvent :=
  ⟨0, 0, t, 0, 0, List.replicate MAX_MSG_LEN 0, by simp⟩

/-- A management log event of the given time, with an empty message and an empty name. -/
def sampleManlog (t : UInt32) : ManlogEvent :=
  ⟨1, 0, t, List.replicate MAX_USER_NAME_LEN 0, 0, 0, 0, 0, List.replicate MAX_MSG_LEN 0,
    by simp, by simp⟩

/-- Two saves, of the events of the given times. -/
def twoSaves {ε : Type} (event : UInt32 → ε) (first second : List UInt32) : List (Action ε) :=
  first.map (fun t => .add (event t)) ++ .iterate RecordLib.sampleTick RecordLib.sampleIo ::
    (second.map (fun t => .add (event t)) ++ [.iterate RecordLib.sampleTick RecordLib.sampleIo])

/-! ### The staging buffers -/

/-- **The saves stay inside their buffers.**  In every run in which each saved batch stays
within the slots and the index buffers along the slot walk (and each photo fits its buffer),
no thread accesses memory outside a buffer: the run goes through. -/
theorem saves_in_bounds (zone : Zone) (sysPath manPath : Path) (L : RecordLib) (d : Disk)
    (total : ℕ) :
    (∀ acts, (saveSysLogThread sysPath).Along zone ((saveSysLogThread sysPath).SavesInBounds zone)
        (SaveThread.init d total) acts →
      ∃ s, (saveSysLogThread sysPath).run zone (SaveThread.init d total) acts = some s) ∧
    (∀ acts, (saveManLogThread manPath).Along zone ((saveManLogThread manPath).SavesInBounds zone)
        (SaveThread.init d total) acts →
      ∃ s, (saveManLogThread manPath).run zone (SaveThread.init d total) acts = some s) ∧
    (∀ acts, L.saveRecordThread.Along zone (L.saveRecordThread.SavesInBounds zone)
        (SaveThread.init d total) acts →
      ∃ s, L.saveRecordThread.run zone (SaveThread.init d total) acts = some s) :=
  ⟨fun _ h => SaveThread.run_of_inBounds (SaveThread.inv_init d total) h,
    fun _ h => SaveThread.run_of_inBounds (SaveThread.inv_init d total) h,
    fun _ h => SaveThread.run_of_inBounds (SaveThread.inv_init d total) h⟩

/-- Two saves of events of three days stay within the buffers of each thread. -/
theorem saves_in_bounds_days :
    (∃ s, (saveSysLogThread ['s']).run FixedZone.utc.zone (SaveThread.init RecordLib.emptyDisk 0)
      (twoSaves sampleSyslog [5, 86405, 6] [7, 172805]) = some s) ∧
    (∃ s, (saveManLogThread ['m']).run FixedZone.utc.zone (SaveThread.init RecordLib.emptyDisk 0)
      (twoSaves sampleManlog [5, 86405, 6] [7, 172805]) = some s) ∧
    (∃ s, RecordLib.sampleLib.saveRecordThread.run FixedZone.utc.zone (SaveThread.init RecordLib.emptyDisk 0)
      (twoSaves (fun t => RecordLib.sampleEvent t 0xAA) [5, 86405, 6] [7, 172805]) = some s) := by
  obtain ⟨hsys, hman, hrecord⟩ := saves_in_bounds FixedZone.utc.zone ['s'] ['m'] RecordLib.sampleLib
    RecordLib.emptyDisk 0
  exact ⟨hsys _ (by decide +kernel), hman _ (by decide +kernel), hrecord _ (by decide +kernel)⟩

/-- **Bursts leave the buffers.**  17 system log events, 14 management log events or 41
records of one day are more than the index buffer of a slot holds, and 11 system log events
of different days are more than there are slots. -/
theorem bursts_out_of_bounds :
    ((saveSysLogThread ['s']).run FixedZone.utc.zone (SaveThread.init RecordLib.emptyDisk 0)
      (List.replicate 17 (.add (sampleSyslog 5)) ++
        [.iterate RecordLib.sampleTick RecordLib.sampleIo])).isNone = true ∧
    ((saveManLogThread ['m']).run FixedZone.utc.zone (SaveThread.init RecordLib.emptyDisk 0)
      (List.replicate 14 (.add (sampleManlog 5)) ++
        [.iterate RecordLib.sampleTick RecordLib.sampleIo])).isNone = true ∧
    (RecordLib.sampleLib.saveRecordThread.run FixedZone.utc.zone
      (SaveThread.init RecordLib.emptyDisk 0)
      (List.replicate 41 (.add (RecordLib.sampleEvent 5 0xAA)) ++
        [.iterate RecordLib.sampleTick RecordLib.sampleIo])).isNone = true ∧
    ((saveSysLogThread ['s']).run FixedZone.utc.zone (SaveThread.init RecordLib.emptyDisk 0)
      ((List.range 11).map (fun i => .add (sampleSyslog (UInt32.ofNat (86400 * i + 5)))) ++
        [.iterate RecordLib.sampleTick RecordLib.sampleIo])).isNone = true := by
  refine ⟨?_, ?_, ?_, ?_⟩ <;> decide +kernel

/-! ### The counters -/

/-- **When the counters are truthful.**  The files after a save are the files before it with
the appends of the trace.  The change of the counter is the number of complete index records
among them exactly when no `realloc`, `open` or `write` of the save fails and the slot walk
over the times of the batch leaves no slot marked free, or when the first `realloc` fails
and nothing was staged. -/
theorem counters_truthful_iff (zone : Zone) (sysPath manPath : Path) (L : RecordLib) :
    (∀ io d total batch r, (saveSysLogThread sysPath).flush zone io d total batch = some r →
      (∀ q, r.disk.contents q = d.contents q ++ addedTo q r.trace) ∧
      (r.total = total + completeRecords SYSLOG_INDEX_SIZE r.trace ↔
        (saveSysLogThread sysPath).CountsRight zone io d total batch)) ∧
    (∀ io d total batch r, (saveManLogThread manPath).flush zone io d total batch = some r →
      (∀ q, r.disk.contents q = d.contents q ++ addedTo q r.trace) ∧
      (r.total = total + completeRecords MANLOG_INDEX_SIZE r.trace ↔
        (saveManLogThread manPath).CountsRight zone io d total batch)) ∧
    (∀ io d total batch r, L.saveRecordThread.flush zone io d total batch = some r →
      (∀ q, r.disk.contents q = d.contents q ++ addedTo q r.trace) ∧
      (r.total = total + completeRecords FileIndex.SIZE r.trace ↔
        L.saveRecordThread.CountsRight zone io d total batch)) :=
  ⟨fun _ _ _ _ _ h => ⟨SaveThread.flush_contents h, SaveThread.flush_total_eq_iff h⟩,
    fun _ _ _ _ _ h => ⟨SaveThread.flush_contents h, SaveThread.flush_total_eq_iff h⟩,
    fun _ _ _ _ _ h => ⟨SaveThread.flush_contents h, SaveThread.flush_total_eq_iff h⟩⟩

/-- Two saves of system log events of three days, without a failure: the counter goes from 0 to 3 and to
5. -/
theorem counters_truthful_days : ∃ r₁ r₂,
    (saveSysLogThread ['s']).flush FixedZone.utc.zone RecordLib.sampleIo RecordLib.emptyDisk 0
      ([5, 86405, 6].map sampleSyslog) = some r₁ ∧
    (saveSysLogThread ['s']).flush FixedZone.utc.zone RecordLib.sampleIo r₁.disk 3
      ([7, 172805].map sampleSyslog) = some r₂ ∧
    r₁.total = 3 ∧ r₂.total = 5 ∧
    (saveSysLogThread ['s']).CountsRight FixedZone.utc.zone RecordLib.sampleIo RecordLib.emptyDisk 0
      ([5, 86405, 6].map sampleSyslog) ∧
    (saveSysLogThread ['s']).CountsRight FixedZone.utc.zone RecordLib.sampleIo r₁.disk 3
      ([7, 172805].map sampleSyslog) := by
  have hany : (((saveSysLogThread ['s']).flush FixedZone.utc.zone RecordLib.sampleIo RecordLib.emptyDisk 0
      ([5, 86405, 6].map sampleSyslog)).any fun r₁ =>
        decide (r₁.total = 3 ∧ completeRecords SYSLOG_INDEX_SIZE r₁.trace = 3) &&
          ((saveSysLogThread ['s']).flush FixedZone.utc.zone RecordLib.sampleIo r₁.disk 3
            ([7, 172805].map sampleSyslog)).any fun r₂ =>
              decide (r₂.total = 5 ∧ completeRecords SYSLOG_INDEX_SIZE r₂.trace = 2)) = true := by
    decide +kernel
  obtain ⟨r₁, hr₁, hany⟩ := (Option.any_eq_true _ _).1 hany
  obtain ⟨hfirst, hany⟩ := Bool.and_eq_true_iff.1 hany
  obtain ⟨r₂, hr₂, hsecond⟩ := (Option.any_eq_true _ _).1 hany
  obtain ⟨htotal₁, hrecords₁⟩ := of_decide_eq_true hfirst
  obtain ⟨htotal₂, hrecords₂⟩ := of_decide_eq_true hsecond
  have hiff := (counters_truthful_iff FixedZone.utc.zone ['s'] ['m'] RecordLib.sampleLib).1
  exact ⟨r₁, r₂, hr₁, hr₂, htotal₁, htotal₂, (hiff _ _ _ _ _ hr₁).2.1 (by rw [htotal₁, hrecords₁]),
    (hiff _ _ _ _ _ hr₂).2.1 (by rw [htotal₂, hrecords₂])⟩

/-- **A failed `open` leaves the counter too high**: the event is counted when it is staged,
and nothing is written. -/
theorem counter_after_failed_open :
    (((saveSysLogThread ['s']).flush FixedZone.utc.zone ⟨fun _ => true, fun _ => .openFails⟩
      RecordLib.emptyDisk 0 [sampleSyslog 5]).any fun r =>
        decide (r.total = 1 ∧ completeRecords SYSLOG_INDEX_SIZE r.trace = 0)) = true ∧
    (((saveManLogThread ['m']).flush FixedZone.utc.zone ⟨fun _ => true, fun _ => .openFails⟩
      RecordLib.emptyDisk 0 [sampleManlog 5]).any fun r =>
        decide (r.total = 1 ∧ completeRecords MANLOG_INDEX_SIZE r.trace = 0)) = true ∧
    ((RecordLib.sampleLib.saveRecordThread.flush FixedZone.utc.zone
      ⟨fun _ => true, fun _ => .openFails⟩ RecordLib.emptyDisk 0
        [RecordLib.sampleEvent 5 0xAA]).any fun r =>
        decide (r.total = 1 ∧ completeRecords FileIndex.SIZE r.trace = 0)) = true := by
  refine ⟨?_, ?_, ?_⟩ <;> decide +kernel

/-! ### The numbers -/

open ByteWord

lemma length_read_behind (bs : List UInt8) (size : ℕ) : ((bs.drop (bs.length + size)).take size).length = 0 := by
  rw [List.drop_eq_nil_of_le (by omega), List.take_nil, List.length_nil]

lemma getLastLogIndexNo_eq_zero (cLogType : LogType) {size : ℕ} (hpos : 0 < size) (d : Disk) (p : Path) :
    getLastLogIndexNo cLogType size d p = 0 := by
  rw [getLastLogIndexNo]
  split_ifs
  · rfl
  · cases d.openRead p with
    | none => rfl
    | some bs => exact if_neg (by rw [length_read_behind]; exact hpos.ne)

lemma RecordLib.getLastFileIndexNo_eq_zero (d : Disk) (p : Path) : RecordLib.getLastFileIndexNo d p = 0 := by
  rw [RecordLib.getLastFileIndexNo]
  cases d.openRead p with
  | none => rfl
  | some bs => exact if_neg (by rw [length_read_behind]; decide)

lemma numbersOne_saveLogThread {ε : Type} (indexPath : Path) (cLogType : LogType) {size : ℕ}
    (time : ε → ℕ) {logIndex : ε → ℕ → List UInt8} (hlen : ∀ e no, (logIndex e no).length = size)
    (hpos : 0 < size) (hnumber : ∀ e, indexNo (logIndex e 1) = 1) :
    (saveLogThread indexPath cLogType size time logIndex hlen hpos).NumbersOne where
  last := getLastLogIndexNo_eq_zero cLogType hpos
  number e _ := hnumber e
  openPic _ _ _ _ ha := absurd ha List.not_mem_nil
  stagePic _ _ _ _ _ ha := absurd ha List.not_mem_nil

lemma indexNo_append {no : ℕ} (rest : List UInt8) (h : no < 256 ^ 4) : indexNo (leBytes 4 no ++ rest) = no := by
  rw [indexNo, field_zero_append _ (leBytes_length 4 no), leNat_leBytes_of_lt h]

lemma numbersOne_saveSysLogThread (path : Path) : (saveSysLogThread path).NumbersOne := by
  refine numbersOne_saveLogThread path .eSysLog _ _ _ fun e => ?_
  simp only [SyslogEvent.logIndex, LogHead.encode, List.append_assoc]
  exact indexNo_append _ (by decide)

lemma numbersOne_saveManLogThread (path : Path) : (saveManLogThread path).NumbersOne := by
  refine numbersOne_saveLogThread path .eManLog _ _ _ fun e => ?_
  simp only [ManlogEvent.logIndex, LogHead.encode, List.append_assoc]
  exact indexNo_append _ (by decide)

lemma numbersOne_saveRecordThread (L : RecordLib) : L.saveRecordThread.NumbersOne where
  last := RecordLib.getLastFileIndexNo_eq_zero
  number e p := by
    show indexNo (RecordLib.fileIndex e 1 p).encode = 1
    simp only [FileIndex.encode, FileIndex.headBytes, List.append_assoc]
    exact indexNo_append _ (show 1 < 256 ^ 4 by decide)
  openPic d tm p a ha k := by
    rw [List.mem_singleton.1 ha]
    exact RecordLib.dataFile_ne_indexFile tm k
  stagePic e idx p hp a ha := by
    rw [List.mem_singleton.1 ha]
    exact hp ⟨false, p.picFileName, p.pPicBuffer⟩ (List.mem_singleton_self _)

/-- **When the numbers identify the records.**  Take any run of saves in which nothing fails, from
empty index files.  In its last state the numbers in each index file are strictly increasing if
and only if in each save of the run, for every day, the records already in the day's index file
and the events that the slot walk files under the day are at most one together. -/
theorem index_numbers_increase_iff (zone : Zone) (sysPath manPath : Path) (L : RecordLib) (d : Disk)
    (total : ℕ) :
    ((∀ k, d.contents ((saveSysLogThread sysPath).indexFile k) = []) → ∀ acts s,
      (saveSysLogThread sysPath).Along zone ((saveSysLogThread sysPath).SaveSucceeds zone)
        (SaveThread.init d total) acts →
      (saveSysLogThread sysPath).run zone (SaveThread.init d total) acts = some s →
      ((∀ k, Increasing SYSLOG_INDEX_SIZE (s.disk.contents ((saveSysLogThread sysPath).indexFile k))) ↔
        (saveSysLogThread sysPath).Along zone ((saveSysLogThread sysPath).OneRecordPerDay zone)
          (SaveThread.init d total) acts)) ∧
    ((∀ k, d.contents ((saveManLogThread manPath).indexFile k) = []) → ∀ acts s,
      (saveManLogThread manPath).Along zone ((saveManLogThread manPath).SaveSucceeds zone)
        (SaveThread.init d total) acts →
      (saveManLogThread manPath).run zone (SaveThread.init d total) acts = some s →
      ((∀ k, Increasing MANLOG_INDEX_SIZE (s.disk.contents ((saveManLogThread manPath).indexFile k))) ↔
        (saveManLogThread manPath).Along zone ((saveManLogThread manPath).OneRecordPerDay zone)
          (SaveThread.init d total) acts)) ∧
    ((∀ k, d.contents (L.saveRecordThread.indexFile k) = []) → ∀ acts s,
      L.saveRecordThread.Along zone (L.saveRecordThread.SaveSucceeds zone) (SaveThread.init d total) acts →
      L.saveRecordThread.run zone (SaveThread.init d total) acts = some s →
      ((∀ k, Increasing FileIndex.SIZE (s.disk.contents (L.saveRecordThread.indexFile k))) ↔
        L.saveRecordThread.Along zone (L.saveRecordThread.OneRecordPerDay zone)
          (SaveThread.init d total) acts)) :=
  ⟨fun hd _ _ halong hr =>
      SaveThread.run_increasing_iff (numbersOne_saveSysLogThread sysPath) hd halong hr,
    fun hd _ _ halong hr =>
      SaveThread.run_increasing_iff (numbersOne_saveManLogThread manPath) hd halong hr,
    fun hd _ _ halong hr =>
      SaveThread.run_increasing_iff (numbersOne_saveRecordThread L) hd halong hr⟩

lemma saveSucceeds_of_withoutError {ε π : Type} {T : SaveThread ε π} {zone : Zone} {s : ThreadState ε}
    {a : Action ε} (hok : T.SavesWithoutError zone s a) : T.SaveSucceeds zone s a := by
  cases a with
  | add e => trivial
  | iterate tick io => exact fun hsaving => SaveThread.ioOk_of_flush (hok hsaving)

/-- Two saves of system log events of four days, one of each, keep the numbers. -/
theorem index_numbers_increase_days : ∃ s,
    (saveSysLogThread ['s']).run FixedZone.utc.zone (SaveThread.init RecordLib.emptyDisk 0)
      (twoSaves sampleSyslog [5, 86405] [172805, 259205]) = some s ∧
    ∀ k, Increasing SYSLOG_INDEX_SIZE (s.disk.contents ((saveSysLogThread ['s']).indexFile k)) := by
  have htest : (saveSysLogThread ['s']).Along FixedZone.utc.zone
      ((saveSysLogThread ['s']).SavesWithoutError FixedZone.utc.zone) (SaveThread.init RecordLib.emptyDisk 0)
      (twoSaves sampleSyslog [5, 86405] [172805, 259205]) := by
    decide +kernel
  have hsucc : (saveSysLogThread ['s']).Along FixedZone.utc.zone
      ((saveSysLogThread ['s']).SaveSucceeds FixedZone.utc.zone) (SaveThread.init RecordLib.emptyDisk 0)
      (twoSaves sampleSyslog [5, 86405] [172805, 259205]) :=
    Runs.Along.imp (fun _ _ => saveSucceeds_of_withoutError) htest
  have hsome : ((saveSysLogThread ['s']).run FixedZone.utc.zone (SaveThread.init RecordLib.emptyDisk 0)
      (twoSaves sampleSyslog [5, 86405] [172805, 259205])).isSome = true := by
    decide +kernel
  obtain ⟨s, hs⟩ := Option.isSome_iff_exists.1 hsome
  have hdays : ∀ k, SaveThread.filed k (walk FixedZone.utc.zone [5, 86405]) +
      SaveThread.filed k (walk FixedZone.utc.zone [172805, 259205]) ≤ 1 :=
    SaveThread.filed_add_le (by decide +kernel)
  have hempty : (records SYSLOG_INDEX_SIZE []).length = 0 := by decide
  refine ⟨s, hs, ((index_numbers_increase_iff FixedZone.utc.zone ['s'] ['m'] RecordLib.sampleLib
    RecordLib.emptyDisk 0).1 (fun _ => rfl) _ s hsucc hs).2 ?_⟩
  refine ⟨trivial, fun s₁ hs₁ => ⟨trivial, fun s₂ hs₂ => ⟨fun _ k => ?_, fun s₃ hs₃ =>
    ⟨trivial, fun s₄ hs₄ => ⟨trivial, fun s₅ hs₅ => ⟨fun _ k => ?_, fun _ _ => trivial⟩⟩⟩⟩⟩⟩
  · -- the files are empty
    rw [← Option.some.inj hs₂, ← Option.some.inj hs₁]
    show (records SYSLOG_INDEX_SIZE []).length +
      SaveThread.filed k (walk FixedZone.utc.zone [5, 86405]) ≤ 1
    rw [hempty, Nat.zero_add]
    exact (Nat.le_add_right _ _).trans (hdays k)
  · -- the files have the records of the first save
    have hI := SaveThread.step_inv (SaveThread.step_inv (SaveThread.inv_init RecordLib.emptyDisk 0) hs₁) hs₂
    have hqueue : ((saveSysLogThread ['s']).step FixedZone.utc.zone s₂ (.iterate RecordLib.sampleTick
        RecordLib.sampleIo)).any (fun s => decide ((saveSysLogThread ['s']).savedTimes
          ((s.queue.enQueue (sampleSyslog 172805)).enQueue (sampleSyslog 259205)).nodes =
            [172805, 259205])) = true := by
      rw [← Option.some.inj hs₂, ← Option.some.inj hs₁]
      decide +kernel
    have hlen : (records SYSLOG_INDEX_SIZE (s₃.disk.contents ((saveSysLogThread ['s']).indexFile k))).length =
        (records SYSLOG_INDEX_SIZE []).length + SaveThread.filed k (walk FixedZone.utc.zone [5, 86405]) := by
      rw [← Option.some.inj hs₂, ← Option.some.inj hs₁] at hs₃ hI
      exact SaveThread.length_records_step (numbersOne_saveSysLogThread ['s']) hI allOne_nil ⟨rfl, rfl, rfl⟩
        (SaveThread.ioOk_of_flush (by decide +kernel)) hs₃
    rw [hs₃, Option.any_some, decide_eq_true_eq] at hqueue
    rw [← Option.some.inj hs₅, ← Option.some.inj hs₄]
    show (records SYSLOG_INDEX_SIZE (s₃.disk.contents ((saveSysLogThread ['s']).indexFile k))).length +
      SaveThread.filed k (walk FixedZone.utc.zone ((saveSysLogThread ['s']).savedTimes
        ((s₃.queue.enQueue (sampleSyslog 172805)).enQueue (sampleSyslog 259205)).nodes)) ≤ 1
    rw [hlen, hqueue, hempty, Nat.zero_add]
    exact hdays k

/-- **Two records with one number**: two system log events of one day, saved together without any
failure. -/
theorem records_with_one_number :
    ¬ ∀ acts s, (saveSysLogThread ['s']).Along FixedZone.utc.zone
        ((saveSysLogThread ['s']).SaveSucceeds FixedZone.utc.zone)
        (SaveThread.init RecordLib.emptyDisk 0) acts →
      (saveSysLogThread ['s']).run FixedZone.utc.zone (SaveThread.init RecordLib.emptyDisk 0) acts = some s →
      ∀ k, Increasing SYSLOG_INDEX_SIZE (s.disk.contents ((saveSysLogThread ['s']).indexFile k)) := by
  intro h
  have hany : (((saveSysLogThread ['s']).run FixedZone.utc.zone (SaveThread.init RecordLib.emptyDisk 0)
      [.add (sampleSyslog 5), .add (sampleSyslog 6),
        .iterate RecordLib.sampleTick RecordLib.sampleIo]).any fun s =>
      !decide (Increasing SYSLOG_INDEX_SIZE (s.disk.contents
        ((saveSysLogThread ['s']).indexFile (FixedZone.utc.zone.localtime 5))))) = true := by
    decide +kernel
  obtain ⟨s, hs, hnot⟩ := (Option.any_eq_true _ _).1 hany
  refine absurd (h _ s ?_ hs (FixedZone.utc.zone.localtime 5)) (by simpa using hnot)
  refine ⟨trivial, fun s₁ hs₁ => ?_⟩
  rw [← Option.some.inj hs₁]
  refine ⟨trivial, fun s₂ hs₂ => ?_⟩
  rw [← Option.some.inj hs₂]
  exact ⟨fun _ => SaveThread.ioOk_of_flush (by decide +kernel), fun _ _ => trivial⟩

end DeviceTools
