/-
Runs of recordLib.

Two results about runs of `addRecord` calls and iterations of `saveRecordThread`: the photo of
a stored record can be read back in every later state, and no accepted record is lost.  Both
hold of saves of batches that have no event with the time 0 and fit the staging buffers; the
second also needs that no step of a save fails.  Each is followed by a run in which it goes
wrong without these conditions.
-/
import DeviceTools.RecordLib.Photo
import DeviceTools.Platform.FixedZone

namespace DeviceTools

namespace RecordLib

variable (L : RecordLib) (zone : Zone)

lemma saves_of_accepts {e : OperateEvent} (h : e.addRecord = true) : e.isRecord = true := by
  simp only [OperateEvent.addRecord, Bool.and_eq_true] at h
  exact h.1

variable {L zone}

/-- What a save of accepted records does, if its batch has no zero times and fits the
buffers, and its writes are completed: nothing, after a failed `realloc`, or it writes the
days of the batch. -/
lemma flush_records {io : IterIo} {d : Disk} {total : ℕ} {batch : List OperateEvent}
    {r : FlushResult} (hacc : ∀ e ∈ batch, e.addRecord = true)
    (hz : L.saveRecordThread.ZeroFree batch) (hfit : L.saveRecordThread.Fits zone batch)
    (hio : ∀ σ i, L.saveRecordThread.stageAll zone d batch.length io 0
      ⟨L.saveRecordThread.clearSlots, total⟩ batch = .done (σ, i) →
        Completes io.append 0 d (L.saveRecordThread.allAppends σ.slots))
    (h : L.saveRecordThread.flush zone io d total batch = some r) :
    (¬ L.saveRecordThread.AllocOk io 0 batch ∧ r.disk = d) ∨
    (Completes io.append 0 d ((FirstFit.groups (L.saveRecordThread.day zone) batch).flatMap
        fun g => L.saveRecordThread.appends (L.saveRecordThread.groupSlot d g)) ∧
      r.dequeued = batch.length ∧
      r.disk = (writeAll io.append 0 d
        ((FirstFit.groups (L.saveRecordThread.day zone) batch).flatMap
          fun g => L.saveRecordThread.appends (L.saveRecordThread.groupSlot d g))).1) := by
  have hsave : ∀ e ∈ batch, L.saveRecordThread.saves e = true :=
    fun e he => saves_of_accepts (hacc e he)
  rcases SaveThread.flush_staged io d total hz hfit hsave with
    ⟨-, hst⟩ | ⟨hno, total', i, hfl⟩
  · have hc := hio _ _ hst
    rw [SaveThread.flush, hst, Option.some.injEq] at h
    subst h
    rw [SaveThread.allAppends_stagedSlots hz] at hc
    refine Or.inr ⟨hc, rfl, ?_⟩
    rw [SaveThread.allAppends_stagedSlots hz]
  · rw [hfl, Option.some.injEq] at h
    subst h
    exact Or.inl ⟨hno, rfl⟩

lemma entries_encode {d : Disk} {batch : List OperateEvent} {x : OperateEvent × List UInt8}
    (hx : x ∈ L.saveRecordThread.entries zone d batch) :
    ∃ no p, x.2 = (fileIndex x.1 no p).encode := by
  obtain ⟨as, bs, -, hent⟩ := SaveThread.mem_entriesFrom hx
  exact ⟨_, _, hent⟩

/-! ### Photos are read back -/

/-- A library with short paths. -/
def sampleLib : RecordLib := ⟨['/', 'i'], ['/', 'p'], 30⟩

/-- An event with a photo of one byte. -/
def sampleEvent (time : UInt32) (b : UInt8) : OperateEvent where
  operateType := 3
  id := 7
  recogScores := 80
  nType := 0
  nStatus := 0
  nUserType := 0
  nLoginReason := 0
  time := time
  fileSize := 1
  cRecogMode := 0
  pFileData := some [b]
  length_data := by
    intro bs h
    rw [← Option.some.inj h]
    rfl

/-- The save interval has passed. -/
def sampleTick : Tick := ⟨true, 0, 1000⟩

/-- Nothing fails. -/
def sampleIo : IterIo := ⟨fun _ => true, fun _ => .writes 100000⟩

/-- No file exists. -/
def emptyDisk : Disk := fun _ => none

/-- The records of a first save, of two days, and those of a second one. -/
def firstBatch : List OperateEvent := [sampleEvent 5 0xAA, sampleEvent 86405 0xBB, sampleEvent 6 0xCC]

def secondBatch : List OperateEvent := [sampleEvent 7 0xDD, sampleEvent 172805 0xEE]

/-- What is done from the second batch on. -/
def laterActions : List (Action OperateEvent) := secondBatch.map .add ++ [.iterate sampleTick sampleIo]

variable (L zone)

/-- **Photos are read back.**  Take any run with a save of a batch that has no zero times
and fits the staging buffers, the file writes of that save succeeding.  The save adds index
entries for its events to the index files of their days, or nothing at all after a failed
`realloc`; and in the last state of the run `getOneRecordPhoto` finds for each of these
entries exactly the photo of its event. -/
theorem photos_read_back (d : Disk) (total : ℕ) (pre post : List (Action OperateEvent))
    (tick : Tick) (io : IterIo) (s₁ s₂ s₃ : ThreadState OperateEvent)
    (hpre : L.saveRecordThread.run zone (SaveThread.init d total) pre = some s₁)
    (hsaving : L.saveRecordThread.Saving tick s₁)
    (hstep : L.saveRecordThread.step zone s₁ (.iterate tick io) = some s₂)
    (hpost : L.saveRecordThread.run zone s₂ post = some s₃)
    (hz : L.saveRecordThread.ZeroFree s₁.queue.nodes)
    (hfit : L.saveRecordThread.Fits zone s₁.queue.nodes)
    (hio : ∀ σ i, L.saveRecordThread.stageAll zone s₁.disk s₁.queue.nodes.length io 0
      ⟨L.saveRecordThread.clearSlots, s₁.total⟩ s₁.queue.nodes = .done (σ, i) →
        Completes io.append 0 s₁.disk (L.saveRecordThread.allAppends σ.slots)) :
    ∃ ents : List (OperateEvent × List UInt8),
      (ents = [] ∨ ents.map Prod.fst = s₁.queue.nodes) ∧
      (∀ k, s₂.disk.contents (L.saveRecordThread.indexFile k) =
        s₁.disk.contents (L.saveRecordThread.indexFile k) ++
          (ents.filter fun x => L.saveRecordThread.day zone x.1 = k).flatMap Prod.snd) ∧
      ∀ x ∈ ents, (∃ no p, x.2 = (fileIndex x.1 no p).encode) ∧
        (framedSize x.1.photo.length < MAX_PHOTO_FILE_SIZE →
          L.getOneRecordPhoto zone s₃.disk (FileIndex.recordTimeAt x.2)
            (FileIndex.startAddrAt x.2) true = ((x.1.photo.length : ℤ), x.1.photo)) := by
  have hinv₁ : L.saveRecordThread.Inv s₁ := SaveThread.run_inv (SaveThread.inv_init d total) hpre
  have hinv₂ := SaveThread.step_inv hinv₁ hstep
  rw [SaveThread.step] at hstep
  rcases L.saveRecordThread.iterate_cases zone hinv₁.valid tick io with
    ⟨hno, -⟩ | ⟨-, -, hit⟩ | ⟨-, r, s, hf, hit, -, -, hdisk, -⟩
  · exact absurd hsaving hno
  · simp [hit] at hstep
  · rw [hit, Option.some.injEq] at hstep
    subst hstep
    rcases flush_records hinv₁.accepted hz hfit hio hf with ⟨-, hd⟩ | ⟨hc, -, hd⟩
    · -- a `realloc` failed: nothing was written
      refine ⟨[], Or.inl rfl, fun k => ?_, by simp⟩
      rw [hdisk, hd]
      simp
    · refine ⟨L.saveRecordThread.entries zone s₁.disk s₁.queue.nodes,
        Or.inr (SaveThread.entriesFrom_fst _ _ _), fun k => ?_, fun x hx => ⟨entries_encode hx, ?_⟩⟩
      · rw [hdisk, hd, contents_of_completes hc, addedTo_recordIndex]
      · have hlater := fun q => SaveThread.run_disk hinv₂ hpost q
        rw [hdisk, hd] at hlater
        refine getOneRecordPhoto_of_entry hinv₁.accepted hc (fun q => (hlater q).1) hx ?_
        refine (hlater _).2 ?_
        -- the data file of the record's day is one of those written
        have he : x.1 ∈ s₁.queue.nodes := by
          have hmem : x.1 ∈ (L.saveRecordThread.entries zone s₁.disk s₁.queue.nodes).map Prod.fst :=
            List.mem_map_of_mem hx
          rwa [SaveThread.entries, SaveThread.entriesFrom_fst] at hmem
        have hg := FirstFit.exists_group (L.saveRecordThread.day zone) he
        have ha := length_le_of_completes hc
          ⟨false, _, _⟩ (List.mem_flatMap.2 ⟨_, hg, List.mem_append_left _ (List.mem_singleton_self _)⟩)
        simpa using ha

/-- The state after one record was added. -/
def sampleState (t : UInt32) (b : UInt8) : ThreadState OperateEvent :=
  ⟨LinkQueue.enQueue .initQueue (sampleEvent t b), emptyDisk, 0, 0, false⟩

/-- The state before the first save. -/
def firstState : ThreadState OperateEvent :=
  ⟨firstBatch.foldl LinkQueue.enQueue .initQueue, emptyDisk, 0, 0, false⟩

lemma firstBatch_ioOk : sampleLib.saveRecordThread.IoOk FixedZone.utc.zone sampleIo emptyDisk 0 firstBatch :=
  SaveThread.ioOk_of_flush (by decide +kernel)

/-- The photos of three records of two days are read back behind a later save, which adds to the file of
the first day. -/
theorem photos_read_back_days : ∃ s₂ s₃,
    sampleLib.saveRecordThread.step FixedZone.utc.zone firstState (.iterate sampleTick sampleIo) = some s₂ ∧
    sampleLib.saveRecordThread.run FixedZone.utc.zone s₂ laterActions = some s₃ ∧
    ∃ ents : List (OperateEvent × List UInt8), ents.map Prod.fst = firstBatch ∧
      ∀ x ∈ ents, sampleLib.getOneRecordPhoto FixedZone.utc.zone s₃.disk (FileIndex.recordTimeAt x.2)
        (FileIndex.startAddrAt x.2) true = (1, x.1.photo) := by
  have hany : (sampleLib.saveRecordThread.step FixedZone.utc.zone firstState
      (.iterate sampleTick sampleIo)).any (fun s =>
        !(s.disk.contents (sampleLib.saveRecordThread.indexFile (FixedZone.utc.zone.localtime 5))).isEmpty &&
          (sampleLib.saveRecordThread.run FixedZone.utc.zone s laterActions).isSome) = true := by
    decide +kernel
  obtain ⟨s₂, hs₂, hlater⟩ := (Option.any_eq_true _ _).1 hany
  rw [Bool.and_eq_true, Option.isSome_iff_exists] at hlater
  obtain ⟨hwritten, s₃, hs₃⟩ := hlater
  obtain ⟨ents, hents, hadded, hread⟩ := photos_read_back sampleLib FixedZone.utc.zone emptyDisk 0
    (firstBatch.map .add) laterActions sampleTick sampleIo firstState s₂ s₃ rfl ⟨rfl, rfl, rfl⟩ hs₂ hs₃
    (by decide) (by decide +kernel) firstBatch_ioOk.append
  have hfst : ents.map Prod.fst = firstBatch := by
    rcases hents with rfl | hents
    · -- the index file of the first day is not empty any more
      have hempty := hadded (FixedZone.utc.zone.localtime 5)
      rw [List.filter_nil, List.flatMap_nil, List.append_nil] at hempty
      rw [hempty] at hwritten
      cases hwritten
    · exact hents
  have hphoto : ∀ e ∈ firstBatch, e.photo.length = 1 ∧ framedSize e.photo.length < MAX_PHOTO_FILE_SIZE := by
    decide
  refine ⟨s₂, s₃, hs₂, hs₃, ents, hfst, fun x hx => ?_⟩
  obtain ⟨hone, hframed⟩ := hphoto x.1 (hfst ▸ List.mem_map_of_mem hx)
  rw [(hread x hx).2 hframed, hone]
  rfl

/-- **A zero time moves photos to a wrong file.**  Three records are added, of the times 5,
0 and 86400, and saved without any failure.  The zero time marks the slot of the first two
free, the third record gives the slot the names of its own day, and the entry of the first
record ends in the index file of the second day, with an address at which there is no photo
of the first day. -/
theorem photo_misfiled :
    ((sampleLib.saveRecordThread.run FixedZone.utc.zone (SaveThread.init emptyDisk 0)
      [.add (sampleEvent 5 0xAA), .add (sampleEvent 0 0xBB), .add (sampleEvent 86400 0xCC),
        .iterate sampleTick sampleIo]).any fun s =>
      let entry := (s.disk.contents (sampleLib.saveRecordThread.indexFile
        (FixedZone.utc.zone.localtime 86400))).take FileIndex.SIZE
      decide (s.errorNum = 0 ∧ FileIndex.recordTimeAt entry = 5 ∧
        FileIndex.fileSizeAt entry = framedSize 1 ∧ framedSize 1 < MAX_PHOTO_FILE_SIZE ∧
        sampleLib.getOneRecordPhoto FixedZone.utc.zone s.disk (FileIndex.recordTimeAt entry)
          (FileIndex.startAddrAt entry) true = (-1, []))) = true := by
  decide +kernel

/-! ### No accepted record is lost -/

/-- The records that a run's `addRecord` calls accept, in order. -/
def acceptedRecords (acts : List (Action OperateEvent)) : List OperateEvent :=
  acts.filterMap fun a =>
    match a with
    | .add e => if e.addRecord then some e else none
    | .iterate _ _ => none

/-- If the step is a save, its batch has no zero times and fits the staging buffers, and no
`realloc`, `open` or `write` of it fails. -/
def SavesSafely (s : ThreadState OperateEvent) : Action OperateEvent → Prop
  | .add _ => True
  | .iterate tick io => L.saveRecordThread.Saving tick s →
      L.saveRecordThread.ZeroFree s.queue.nodes ∧ L.saveRecordThread.Fits zone s.queue.nodes ∧
        L.saveRecordThread.IoOk zone io s.disk s.total s.queue.nodes

variable {L zone}

/-- One safe step: the records it takes out of the queue are added to the index files of
their days. -/
lemma step_keeps {s : ThreadState OperateEvent} {a : Action OperateEvent}
    (hinv : L.saveRecordThread.Inv s) (hsafe : L.SavesSafely zone s a) :
    ∃ (s' : ThreadState OperateEvent) (ents : List (OperateEvent × List UInt8)),
      L.saveRecordThread.step zone s a = some s' ∧
      s.queue.nodes ++ acceptedRecords [a] = ents.map Prod.fst ++ s'.queue.nodes ∧
      (∀ k, s'.disk.contents (L.saveRecordThread.indexFile k) =
        s.disk.contents (L.saveRecordThread.indexFile k) ++
          (ents.filter fun x => L.saveRecordThread.day zone x.1 = k).flatMap Prod.snd) ∧
      ∀ x ∈ ents, ∃ no p, x.2 = (fileIndex x.1 no p).encode := by
  cases a with
  | add e =>
      refine ⟨_, [], rfl, ?_, ?_, by simp⟩
      · cases hacc : e.addRecord with
        | false =>
            have hacc' : L.saveRecordThread.accepts e = false := hacc
            simp [acceptedRecords, hacc, hacc']
        | true =>
            have hacc' : L.saveRecordThread.accepts e = true := hacc
            simp [acceptedRecords, hacc, hacc', LinkQueue.enQueue_nodes hinv.valid]
      · intro k
        split <;> simp
  | iterate tick io =>
      rcases L.saveRecordThread.iterate_cases zone hinv.valid tick io with
        ⟨-, b, hit⟩ | ⟨hsav, hnone, -⟩ | ⟨hsav, r, s', hf, hit, -, hnodes, hdisk, -⟩
      · exact ⟨_, [], hit, by simp [acceptedRecords], by simp, by simp⟩
      · obtain ⟨hz, hfit, -⟩ := hsafe hsav
        obtain ⟨r, hr, -⟩ := SaveThread.flush_of_inBounds io s.disk s.total (hfit.inBounds hz)
        rw [hnone] at hr
        simp at hr
      · obtain ⟨hz, hfit, hio⟩ := hsafe hsav
        rcases flush_records hinv.accepted hz hfit hio.append hf with ⟨hno, -⟩ | ⟨hc, hdeq, hd⟩
        · exact absurd hio.alloc hno
        · refine ⟨s', L.saveRecordThread.entries zone s.disk s.queue.nodes, hit, ?_, fun k => ?_,
            fun x hx => entries_encode hx⟩
          · rw [SaveThread.entries, SaveThread.entriesFrom_fst, hnodes, hdeq, List.drop_length]
            simp [acceptedRecords]
          · rw [hdisk, hd, contents_of_completes hc, addedTo_recordIndex]

lemma acceptedRecords_cons (a : Action OperateEvent) (acts : List (Action OperateEvent)) :
    acceptedRecords (a :: acts) = acceptedRecords [a] ++ acceptedRecords acts := by
  rw [acceptedRecords, acceptedRecords, acceptedRecords, ← List.filterMap_append]
  rfl

/-- A run of safe steps: what has left the queue is in the index files. -/
lemma run_keeps {acts : List (Action OperateEvent)} : ∀ {s : ThreadState OperateEvent},
    L.saveRecordThread.Inv s → L.saveRecordThread.Along zone (L.SavesSafely zone) s acts →
    ∃ (s' : ThreadState OperateEvent) (ents : List (OperateEvent × List UInt8)),
      L.saveRecordThread.run zone s acts = some s' ∧
      s.queue.nodes ++ acceptedRecords acts = ents.map Prod.fst ++ s'.queue.nodes ∧
      (∀ k, s'.disk.contents (L.saveRecordThread.indexFile k) =
        s.disk.contents (L.saveRecordThread.indexFile k) ++
          (ents.filter fun x => L.saveRecordThread.day zone x.1 = k).flatMap Prod.snd) ∧
      ∀ x ∈ ents, ∃ no p, x.2 = (fileIndex x.1 no p).encode := by
  induction acts with
  | nil =>
      intro s _ _
      exact ⟨s, [], rfl, by simp [acceptedRecords], by simp, by simp⟩
  | cons a acts ih =>
      rintro s hinv ⟨hsafe, hrest⟩
      obtain ⟨s₁, ents₁, hs₁, hq₁, hd₁, he₁⟩ := step_keeps hinv hsafe
      obtain ⟨s', ents, hr, hq, hd, he⟩ := ih (SaveThread.step_inv hinv hs₁) (hrest s₁ hs₁)
      refine ⟨s', ents₁ ++ ents, (Runs.run_cons_of_step hs₁ acts).trans hr, ?_, fun k => ?_, ?_⟩
      · rw [acceptedRecords_cons, ← List.append_assoc, hq₁, List.append_assoc, hq, List.map_append,
          List.append_assoc]
      · rw [hd, hd₁, List.filter_append, List.flatMap_append, List.append_assoc]
      · intro x hx
        rcases List.mem_append.1 hx with hx | hx
        · exact he₁ x hx
        · exact he x hx

variable (L zone)

/-- **No accepted record is lost.**  In every run whose saves are safe, the accepted records
are those that have an entry in the index file of their day, followed by those still in the
queue. -/
theorem no_record_lost (d : Disk) (total : ℕ) (acts : List (Action OperateEvent))
    (hsafe : L.saveRecordThread.Along zone (L.SavesSafely zone) (SaveThread.init d total) acts) :
    ∃ (s : ThreadState OperateEvent) (ents : List (OperateEvent × List UInt8)),
      L.saveRecordThread.run zone (SaveThread.init d total) acts = some s ∧
      acceptedRecords acts = ents.map Prod.fst ++ s.queue.nodes ∧
      (∀ k, s.disk.contents (L.saveRecordThread.indexFile k) =
        d.contents (L.saveRecordThread.indexFile k) ++
          (ents.filter fun x => L.saveRecordThread.day zone x.1 = k).flatMap Prod.snd) ∧
      ∀ x ∈ ents, ∃ no p, x.2 = (fileIndex x.1 no p).encode := by
  obtain ⟨s, ents, hr, hq, hd, he⟩ := run_keeps (SaveThread.inv_init d total) hsafe
  exact ⟨s, ents, hr, by simpa [SaveThread.init, LinkQueue.initQueue] using hq, hd, he⟩

variable {L zone} in
/-- A save of a batch that is safe except for what fails, and that does not end at the label `error`, is
safe. -/
lemma savesSafely_of_withoutError {s : ThreadState OperateEvent} {a : Action OperateEvent}
    (hbatch : L.saveRecordThread.ZeroFree s.queue.nodes ∧ L.saveRecordThread.Fits zone s.queue.nodes)
    (hok : L.saveRecordThread.SavesWithoutError zone s a) : L.SavesSafely zone s a := by
  cases a with
  | add e => trivial
  | iterate tick io => exact fun hsaving => ⟨hbatch.1, hbatch.2, SaveThread.ioOk_of_flush (hok hsaving)⟩

/-- Two saves of several records of several days: all records are in the index files. -/
theorem no_record_lost_days :
    sampleLib.saveRecordThread.Along FixedZone.utc.zone (sampleLib.SavesSafely FixedZone.utc.zone)
      (SaveThread.init emptyDisk 0) (firstBatch.map .add ++ .iterate sampleTick sampleIo :: laterActions) ∧
    ∃ (s : ThreadState OperateEvent) (ents : List (OperateEvent × List UInt8)),
      sampleLib.saveRecordThread.run FixedZone.utc.zone (SaveThread.init emptyDisk 0)
        (firstBatch.map .add ++ .iterate sampleTick sampleIo :: laterActions) = some s ∧
      s.queue.nodes = [] ∧ ents.map Prod.fst = firstBatch ++ secondBatch ∧
      ∀ k, s.disk.contents (sampleLib.saveRecordThread.indexFile k) =
        (ents.filter fun x => sampleLib.saveRecordThread.day FixedZone.utc.zone x.1 = k).flatMap Prod.snd := by
  have htest : sampleLib.saveRecordThread.Along FixedZone.utc.zone (fun s a =>
      (sampleLib.saveRecordThread.ZeroFree s.queue.nodes ∧
        sampleLib.saveRecordThread.Fits FixedZone.utc.zone s.queue.nodes) ∧
        sampleLib.saveRecordThread.SavesWithoutError FixedZone.utc.zone s a)
      (SaveThread.init emptyDisk 0) (firstBatch.map .add ++ .iterate sampleTick sampleIo :: laterActions) := by
    decide +kernel
  have hsafe : sampleLib.saveRecordThread.Along FixedZone.utc.zone (sampleLib.SavesSafely FixedZone.utc.zone)
      (SaveThread.init emptyDisk 0) (firstBatch.map .add ++ .iterate sampleTick sampleIo :: laterActions) :=
    Runs.Along.imp (fun _ _ h => savesSafely_of_withoutError h.1 h.2) htest
  have hqueue : (sampleLib.saveRecordThread.run FixedZone.utc.zone (SaveThread.init emptyDisk 0)
      (firstBatch.map .add ++ .iterate sampleTick sampleIo :: laterActions)).any
        (fun s => s.queue.nodes.isEmpty) = true := by
    decide +kernel
  obtain ⟨s, ents, hr, hq, hd, -⟩ := no_record_lost sampleLib FixedZone.utc.zone emptyDisk 0 _ hsafe
  rw [hr, Option.any_some, List.isEmpty_iff] at hqueue
  rw [hqueue, List.append_nil] at hq
  exact ⟨hsafe, s, ents, hr, hqueue, hq.symm, hd⟩

/-- **A failed `open` loses a record.**  One record is added and accepted, and the first
`open` of the save fails: afterwards the queue is empty, and the index file of the record's
day has no entry. -/
theorem record_lost :
    (sampleEvent 5 0xAA).addRecord = true ∧
    ((sampleLib.saveRecordThread.run FixedZone.utc.zone (SaveThread.init emptyDisk 0)
      [.add (sampleEvent 5 0xAA), .iterate sampleTick ⟨fun _ => true, fun _ => .openFails⟩]).any
        fun s => s.queue.nodes.isEmpty && (s.disk.contents (sampleLib.saveRecordThread.indexFile
          (FixedZone.utc.zone.localtime 5))).isEmpty) = true := by
  constructor
  · decide
  · decide +kernel

end RecordLib

end DeviceTools
