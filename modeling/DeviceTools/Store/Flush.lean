/-
The save threads.

`saveSysLogThread`, `saveManLogThread` and `saveRecordThread` have one skeleton.  A thread
samples the number of queued events and, when a save is due, takes that many events out of
the queue, files each of them in the slot of its calendar day in a fixed array of staging
buffers, and then appends the buffers of the slots to the files of their days, one slot
after the other.  A slot is free when its `time` is 0.

The threads differ in the sizes of their buffers, in the index record they build from an
event, and in the photo data that only `saveRecordThread` stages and writes.  These are the
fields of `SaveThread`; the skeleton is written once, over an arbitrary `SaveThread`.

A memory access outside its buffer is undefined behaviour in C.  The model stops there:
`Flow.undefined` and `none` stand for such an access.
-/
import DeviceTools.Platform.Calendar
import DeviceTools.Platform.Disk
import DeviceTools.Store.EventQueue
import DeviceTools.Lib.ByteWord
import DeviceTools.Lib.Runs

namespace DeviceTools

/-- An element of the staging array: `syslog_buffer_t`, `manlog_buffer_t`,
`record_buffer_t`.  The buffers hold what has been copied into them, so that the offsets of
the source are their lengths. -/
structure Slot (π : Type) where
  /-- The time of the last event put in the slot, 0 in a free slot. -/
  time : ℕ
  indexFileName : Path
  startIndexNo : ℕ
  /-- `indexBuffer[0, indexOffset)`. -/
  indexBuffer : List UInt8
  /-- The photo part of `record_buffer_t`. -/
  pic : π

/-- One `open`, `write`, `close` of the write loop. -/
structure Append where
  isIndex : Bool
  path : Path
  bytes : List UInt8
deriving DecidableEq

/-- What the environment decides during one iteration: whether the `realloc` for the
`i`-th event succeeds, and what the `k`-th append does. -/
structure IterIo where
  realloc : ℕ → Bool
  append : ℕ → AppendIo

/-- What a thread finds when it wakes up: whether the save interval has passed, the value
of `g_recordFlag`, and the result of `GetDeviceAttrRecordMax`. -/
structure Tick where
  elapsed : Bool
  recordFlag : ℕ
  recordMax : ℤ

/-- The file name of a day: `sprintf("%s/%04d%02d%02d<ext>")`. -/
def dayPath (dir : Path) (tm : Tm) (ext : List Char) : Path := dir ++ '/' :: tm.name ++ ext

/-- The extension of the index files. -/
def dotIndex : List Char := ['.', 'i', 'n', 'd', 'e', 'x']

/-- What the save threads differ in. -/
structure SaveThread (ε π : Type) where
  /-- The number of slots of the staging array. -/
  MAX_OPERATE_QUEUE : ℕ
  /-- The size of the `indexBuffer` of a slot. -/
  indexBufferSize : ℕ
  /-- The size of the index structure. -/
  sizeofIndex : ℕ
  /-- The time of an event. -/
  time : ε → ℕ
  /-- The test with which the `add` function accepts an event. -/
  accepts : ε → Bool
  /-- The element fits the buffer that `DeQueue` copies its data into. -/
  fitsElem : ε → Bool
  /-- The test of the operation type, made for each element taken out of the queue. -/
  saves : ε → Bool
  /-- The directory of the index files. -/
  indexPath : Path
  getLastFileIndexNo : Disk → Path → ℕ
  /-- The photo part of a cleared slot. -/
  blankPic : π
  /-- What opening a slot for a day does to its photo part. -/
  openPic : Disk → Tm → π → π
  /-- The bytes of the index structure filled in for an event. -/
  logIndex : ε → ℕ → π → List UInt8
  /-- The event's photo is added to the slot, after a `realloc` if there is one. -/
  stagePic : ε → List UInt8 → π → π
  reallocs : Bool
  /-- The appends for the photo part, made before that of the index buffer. -/
  picAppends : π → List Append
  /-- The iteration ends before the queue is looked at. -/
  skips : Tick → ℕ → Bool
  /-- A save is due, given the sampled queue length. -/
  due : Tick → ℕ → Bool
  /-- The thread ends after this iteration. -/
  stops : Tick → Bool
  logIndex_length : ∀ e no p, (logIndex e no p).length = sizeofIndex
  picAppends_isIndex : ∀ p, ∀ a ∈ picAppends p, a.isIndex = false
  sizeofIndex_pos : 0 < sizeofIndex

namespace SaveThread

variable {ε π : Type} (T : SaveThread ε π) (zone : Zone)

/-- A slot after `memset(&buffer[i], 0, sizeof(buffer[i]))`. -/
def blank : Slot π := ⟨0, [], 0, [], T.blankPic⟩

/-- The staging array at the start of an iteration. -/
def clearSlots : List (Slot π) := List.replicate T.MAX_OPERATE_QUEUE T.blank

/-- The path of the index file of a day. -/
def indexFile (tm : Tm) : Path := dayPath T.indexPath tm dotIndex

/-- The loop `for (j = 0; j < curQueueNum; j++)` that looks for the slot of an event.  The
result is the value of `j` behind the loop and whether the loop was left through the branch
of a free slot; `none` if it reads an element behind the array. -/
def findSlot (t : ℕ) : ℕ → List (Slot π) → Option (ℕ × Bool)
  | 0, _ => some (0, false)
  | _ + 1, [] => none
  | n + 1, s :: ss =>
      if s.time = 0 then some (0, true)
      else if (zone.localtime t).dataDay = (zone.localtime s.time).dataDay then some (0, false)
      else (findSlot t n ss).map fun r => (r.1 + 1, r.2)

/-- The branch of a free slot: the file names and start values of the event's day. -/
def openSlot (d : Disk) (tm : Tm) (s : Slot π) : Slot π :=
  { s with
    indexFileName := T.indexFile tm
    startIndexNo := T.getLastFileIndexNo d (T.indexFile tm) + 1
    pic := T.openPic d tm s.pic }

/-- The event is copied into the buffers of its slot. -/
def putEvent (e : ε) (s : Slot π) : Slot π :=
  let idx := T.logIndex e s.startIndexNo s.pic
  { s with
    time := T.time e
    pic := T.stagePic e idx s.pic
    indexBuffer := s.indexBuffer ++ idx }

end SaveThread

/-- How a part of an iteration ends: normally, at `goto error`, or with an access outside a
buffer. -/
inductive Flow (α : Type) where
  | done (a : α)
  | error (a : α)
  | undefined

/-- The staging array and the counter of stored records. -/
structure Staging (π : Type) where
  slots : List (Slot π)
  total : ℕ

/-- The end of an iteration: the disk, the counter, the number of events taken out of the
queue, whether the label `error` was avoided, and what the write loop appended. -/
structure FlushResult where
  disk : Disk
  total : ℕ
  dequeued : ℕ
  ok : Bool
  trace : List Append

namespace SaveThread

variable {ε π : Type} (T : SaveThread ε π) (zone : Zone)

/-- The body of the staging loop for one event, with `n` the sampled queue length and
`allocated` the result of `realloc`. -/
def stage (d : Disk) (n : ℕ) (σ : Staging π) (e : ε) (allocated : Bool) : Flow (Staging π) :=
  if T.fitsElem e = false then .undefined
  else if T.saves e = false then .done σ
  else match findSlot zone (T.time e) n σ.slots with
    | none => .undefined
    | some (j, fresh) =>
        match σ.slots[j]? with
        | none => .undefined
        | some s₀ =>
            let s := if fresh then T.openSlot d (zone.localtime (T.time e)) s₀ else s₀
            if T.reallocs && !allocated then .error σ
            else if T.indexBufferSize < s.indexBuffer.length + T.sizeofIndex then .undefined
            else .done ⟨σ.slots.set j (T.putEvent e s), σ.total + 1⟩

/-- The staging loop, from event number `i` on.  At `goto error` the result has the number
of events taken out of the queue. -/
def stageAll (d : Disk) (n : ℕ) (io : IterIo) : ℕ → Staging π → List ε → Flow (Staging π × ℕ)
  | i, σ, [] => .done (σ, i)
  | i, σ, e :: es =>
      match T.stage zone d n σ e (io.realloc i) with
      | .done σ' => stageAll d n io (i + 1) σ' es
      | .error σ' => .error (σ', i + 1)
      | .undefined => .undefined

/-- The appends of one slot. -/
def appends (s : Slot π) : List Append :=
  T.picAppends s.pic ++ [⟨true, s.indexFileName, s.indexBuffer⟩]

/-- The appends of the write loop, which ends at the first free slot. -/
def allAppends (slots : List (Slot π)) : List Append :=
  (slots.takeWhile fun s => s.time ≠ 0).flatMap T.appends

end SaveThread

/-- The write loop: it ends at the first append that is not complete.  The result has the
disk, whether all appends were complete, and what was appended. -/
def writeAll (io : ℕ → AppendIo) : ℕ → Disk → List Append → Disk × Bool × List Append
  | _, d, [] => (d, true, [])
  | k, d, a :: as =>
      match appendFile d a.path a.bytes (io k) with
      | (d', none) => (d', false, [])
      | (d', some n) =>
          if n = a.bytes.length then
            let r := writeAll io (k + 1) d' as
            (r.1, r.2.1, a :: r.2.2)
          else (d', false, [{ a with bytes := a.bytes.take n }])

namespace SaveThread

variable {ε π : Type} (T : SaveThread ε π) (zone : Zone)

/-- One save of the given events, `none` if it accesses memory outside a buffer. -/
def flush (io : IterIo) (d : Disk) (total : ℕ) (batch : List ε) : Option FlushResult :=
  match T.stageAll zone d batch.length io 0 ⟨T.clearSlots, total⟩ batch with
  | .undefined => none
  | .error (σ, i) => some ⟨d, σ.total, i, false, []⟩
  | .done (σ, i) =>
      let w := writeAll io.append 0 d (T.allAppends σ.slots)
      some ⟨w.1, σ.total, i, w.2.1, w.2.2⟩

end SaveThread

/-- The thread together with its queue. -/
structure ThreadState (ε : Type) where
  queue : LinkQueue ε
  disk : Disk
  total : ℕ
  errorNum : ℕ
  /-- The thread has ended, or the device has been rebooted. -/
  stopped : Bool

/-- The steps of the system: a producer adds an event, or the thread runs one iteration. -/
inductive Action (ε : Type) where
  | add (e : ε)
  | iterate (tick : Tick) (io : IterIo)

namespace SaveThread

variable {ε π : Type} (T : SaveThread ε π) (zone : Zone)

/-- One iteration of the thread's loop. -/
def iterate (tick : Tick) (io : IterIo) (s : ThreadState ε) : Option (ThreadState ε) :=
  if s.stopped || T.skips tick s.total then some s
  else
    let n := s.queue.getQueueElemNum
    if T.due tick n = false then some { s with stopped := T.stops tick }
    else match s.queue.deQueueN n with
      | none => none
      | some (batch, _) =>
          match T.flush zone io s.disk s.total batch with
          | none => none
          | some r =>
              match s.queue.deQueueN r.dequeued with
              | none => none
              | some (_, rest) =>
                  let errorNum := if r.ok then s.errorNum else s.errorNum + 1
                  some ⟨rest, r.disk, r.total, errorNum,
                    T.stops tick || (!r.ok && decide (3 ≤ errorNum))⟩

/-- One step of the system, `none` if it accesses memory outside a buffer. -/
def step (s : ThreadState ε) : Action ε → Option (ThreadState ε)
  | .add e => some (if T.accepts e then { s with queue := s.queue.enQueue e } else s)
  | .iterate tick io => T.iterate zone tick io s

/-- A run of the system. -/
def run (s : ThreadState ε) (as : List (Action ε)) : Option (ThreadState ε) :=
  Runs.run (T.step zone) s as

/-- The state in which the library is initialised over a disk. -/
def init (d : Disk) (total : ℕ) : ThreadState ε := ⟨.initQueue, d, total, 0, false⟩

end SaveThread

end DeviceTools
