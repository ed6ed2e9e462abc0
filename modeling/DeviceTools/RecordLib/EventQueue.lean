/-
The event queue in memory.

`eventQueue.cpp` keeps a chain of nodes behind a head node, a pointer to the last node, and the number
of elements.  `EnQueue` and `DeQueue` change all three; `ClearQueue` frees the nodes and sets the pointer
back, and leaves the number as it is.  So the number is wrong from the next `EnQueue` on, until
`InitQueue` sets it to zero.

A heap has the nodes in use.  `Malloc` gives a node that is not in use; its address comes with the call.
-/
import DeviceTools.Lib.LinkedCells
import DeviceTools.Lib.Runs
import DeviceTools.Store.EventQueue

namespace DeviceTools.EventQueue

open LinkedCells Runs

/-- `operate_event_t`, with the bytes that can be accessed through `pFileData`. -/
structure ElemType where
  operateType : UInt32
  id : UInt32
  nServerID : Int32
  nChannelID : Int32
  nThreshold : Int32
  recogScores : Int32
  nType : Int32
  nStatus : Int32
  nUserType : Int32
  nLoginReason : Int32
  time : UInt32
  fileSize : UInt32
  cRecogMode : UInt8
  pFileData : Option (List UInt8)
deriving DecidableEq

namespace ElemType

/-- The `fileSize` bytes of the photo. -/
def photo (e : ElemType) : List UInt8 := (e.pFileData.getD []).take e.fileSize.toNat

/-- The element with just its photo behind the pointer. -/
def event (e : ElemType) : ElemType := { e with pFileData := some e.photo }

/-- The size of the memory that `EnQueue` gets for the photo. -/
def photoMem (e : ElemType) : ℕ := ((e.fileSize + 3) / 4 * 4).toNat

/-- The pointer leads to the bytes of the photo, and no others. -/
def Whole (e : ElemType) : Prop := ∃ bs, e.pFileData = some bs ∧ bs.length = e.fileSize.toNat

end ElemType

/-- An element of zeros. -/
def noElem : ElemType := ⟨0, 0, 0, 0, 0, 0, 0, 0, 0, 0, 0, 0, 0, none⟩

/-- `LinkQueue`, with the nodes in memory.  `queueNum` counts nodes in memory, so it is not taken for an
`int` that overflows.  `allocated` is the number of nodes that were ever made; it bounds the loops. -/
structure LinkQueue where
  heap : Heap ElemType
  front : Option ℕ
  rear : Option ℕ
  queueNum : ℤ
  allocated : ℕ

/-! ### The functions -/

/-- `InitQueue`, with a node at `a`. -/
def initQueue (a : ℕ) (Q : LinkQueue) : LinkQueue where
  heap := Function.update Q.heap a (some ⟨noElem, none⟩)
  front := some a
  rear := some a
  queueNum := 0
  allocated := Q.allocated + 1

/-- `EnQueue`, with a node at `a`.  All members but the pointer are copied, and the photo is copied to
new memory.  There is no result if the photo is shorter than it is said to be, or does not fit. -/
def enQueue (Q : LinkQueue) (a : ℕ) (e : ElemType) : Option LinkQueue :=
  if (e.pFileData.getD []).length < e.fileSize.toNat ∨ e.photoMem < e.fileSize.toNat then none
  else do
    let heap := Function.update Q.heap a (some ⟨e.event, none⟩)
    let r ← Q.rear
    let c ← heap r
    some { Q with
      heap := Function.update heap r (some { c with next := some a })
      rear := some a
      queueNum := Q.queueNum + 1
      allocated := Q.allocated + 1 }

/-- What `DeQueue` copies to the element of the caller: all members but the pointer, and the photo, if
the pointer of the caller is not `NULL`.  There is no result if its memory is too short. -/
def copyOut (data e : ElemType) : Option ElemType :=
  match data.pFileData, e.pFileData with
  | some bs, some buf =>
      if buf.length < data.fileSize.toNat then none
      else some { data with pFileData := some (bs.take data.fileSize.toNat ++ buf.drop data.fileSize.toNat) }
  | _, pFileData => some { data with pFileData }

/-- `DeQueue`: the element of the caller and the queue behind it. -/
def deQueue (Q : LinkQueue) (e : ElemType) : Option (ElemType × LinkQueue) :=
  if Q.front = Q.rear then some (e, Q)
  else do
    let f ← Q.front
    let c ← Q.heap f
    match c.next with
    | none => some (e, Q)
    | some p => do
        let n ← Q.heap p
        let e' ← copyOut n.value e
        some (e', { Q with
          heap := Function.update (Function.update Q.heap f (some { c with next := n.next })) p none
          rear := if Q.rear = some p then Q.front else Q.rear
          queueNum := Q.queueNum - 1 })

/-- The loop of `ClearQueue`. -/
def clearLoop (f : ℕ) : ℕ → Heap ElemType → Option (Heap ElemType)
  | 0, _ => none
  | fuel + 1, heap => do
      let c ← heap f
      match c.next with
      | none => some heap
      | some p => do
          let n ← heap p
          clearLoop f fuel (Function.update (Function.update heap f (some { c with next := n.next })) p none)

/-- `ClearQueue`. -/
def clearQueue (Q : LinkQueue) : Option LinkQueue := do
  let f ← Q.front
  let heap ← clearLoop f (Q.allocated + 1) Q.heap
  some { Q with heap, rear := Q.front }

/-- The loop of `QueueLength`. -/
def lengthLoop (heap : Heap ElemType) (rear : Option ℕ) : ℕ → Option ℕ → Option ℕ
  | 0, _ => none
  | fuel + 1, p =>
      if p = rear then some 0
      else (p.bind heap).bind fun c => (lengthLoop heap rear fuel c.next).map fun n => n + 1

/-- `QueueLength`. -/
def queueLength (Q : LinkQueue) : Option ℕ := lengthLoop Q.heap Q.rear (Q.allocated + 1) Q.front

/-- `GetQueueElemNum`. -/
def getQueueElemNum (Q : LinkQueue) : Option ℤ :=
  (Q.front.bind Q.heap).map fun c => if c.next = none then 0 else Q.queueNum

/-- The last node of the chain from `a` on. -/
def lastNode (heap : Heap ElemType) : ℕ → ℕ → Option ℕ
  | 0, _ => none
  | fuel + 1, a => (heap a).bind fun c =>
      match c.next with
      | none => some a
      | some b => lastNode heap fuel b

/-- `k` calls of `DeQueue` for one variable: the elements, as they are behind the calls, and the queue. -/
def deQueueN : ℕ → LinkQueue → ElemType → Option (List ElemType × LinkQueue)
  | 0, Q, _ => some ([], Q)
  | k + 1, Q, e => (deQueue Q e).bind fun r =>
      (deQueueN k r.2 r.1).map fun r' => (r.1.event :: r'.1, r'.2)

/-! ### Runs -/

/-- A call, with the address of the node it makes or the variable it fills. -/
inductive Call where
  | initQueue (a : ℕ)
  | enQueue (a : ℕ) (e : ElemType)
  | deQueue (e : ElemType)
  | clearQueue

/-- The queue, the elements that were enqueued and neither dequeued nor cleared, and whether elements were
cleared since the number was set. -/
structure Watched where
  queue : LinkQueue
  contents : List ElemType
  stale : Bool

/-- A call, and what it means for the elements. -/
def step (w : Watched) : Call → Option Watched
  | .initQueue a => some ⟨initQueue a w.queue, [], false⟩
  | .enQueue a e => (enQueue w.queue a e).map fun Q => ⟨Q, w.contents ++ [e.event], w.stale⟩
  | .deQueue e => (deQueue w.queue e).map fun r => ⟨r.2, w.contents.tail, w.stale⟩
  | .clearQueue => (clearQueue w.queue).map fun Q => ⟨Q, [], w.stale || !w.contents.isEmpty⟩

/-- The queue after the first `InitQueue`. -/
def start (a : ℕ) : Watched := ⟨initQueue a ⟨fun _ => none, none, none, 0, 0⟩, [], false⟩

/-- `Malloc` gives memory, photos have their size, and the memory for a photo is large enough: in the queue,
where only the last three sizes of an `unsigned int` wrap around, and at the caller. -/
def Possible (w : Watched) : Call → Prop
  | .initQueue a => w.queue.heap a = none
  | .enQueue a e => w.queue.heap a = none ∧ e.fileSize.toNat ≤ (e.pFileData.getD []).length ∧
      e.fileSize.toNat ≤ e.photoMem
  | .deQueue e => ∀ x ∈ w.contents.head?, ∀ buf ∈ e.pFileData, x.fileSize.toNat ≤ buf.length
  | .clearQueue => True

/-- What a caller with the variable `e` gets of an element: there is no photo without memory for it. -/
def given (e x : ElemType) : ElemType := if e.pFileData = none then { x with pFileData := some [] } else x

/-- The number, the length and the pointer to the last node say what the elements are, and calls of
`DeQueue` return them in order. -/
structure Truthful (w : Watched) : Prop where
  elemNum : getQueueElemNum w.queue = some (w.contents.length : ℤ)
  length : queueLength w.queue = some w.contents.length
  rear : w.queue.front.bind (lastNode w.queue.heap (w.queue.allocated + 1)) = w.queue.rear ∧
    (w.contents = [] → w.queue.rear = w.queue.front)
  order : ∀ e, (∀ x ∈ w.contents, ∀ buf ∈ e.pFileData, x.fileSize.toNat ≤ buf.length) →
    ∃ Q, deQueueN w.contents.length w.queue e = some (w.contents.map (given e), Q)

/-- No element is enqueued after elements were cleared, before the number is set again. -/
def CountKept (w : Watched) : Call → Prop
  | .enQueue _ _ => w.stale = false
  | _ => True

/-! ### What a queue in memory holds -/

/-- The chain of `Q` has the head node `f` and behind it the nodes `as` with the elements `vs`. -/
structure Held (Q : LinkQueue) (f : ℕ) (as : List ℕ) (vs : List ElemType) : Prop where
  linked : Linked Q.heap (some f) (f :: as) (noElem :: vs)
  nodup : (f :: as).Nodup
  front : Q.front = some f
  rear : Q.rear = (f :: as).getLast?
  room : as.length < Q.allocated
  whole : ∀ v ∈ vs, v.Whole

variable {Q : LinkQueue} {f : ℕ} {as : List ℕ} {vs : List ElemType}

lemma Held.length_eq (h : Held Q f as vs) : as.length = vs.length :=
  Nat.succ.inj h.linked.length_eq

lemma Held.last (h : Held Q f as vs) : ∃ r, (f :: as).getLast? = some r ∧ Q.rear = some r := by
  obtain ⟨r, hr⟩ : ∃ r, (f :: as).getLast? = some r := ⟨_, List.getLast?_eq_some_getLast (by simp)⟩
  exact ⟨r, hr, h.rear.trans hr⟩

lemma held_initQueue (Q : LinkQueue) (a : ℕ) : Held (initQueue a Q) a [] [] where
  linked := .cons (c := ⟨noElem, none⟩) (Function.update_self ..) .nil
  nodup := List.nodup_singleton a
  front := rfl
  rear := rfl
  room := Nat.succ_pos _
  whole := by simp

lemma ElemType.event_whole (e : ElemType) (he : e.fileSize.toNat ≤ (e.pFileData.getD []).length) :
    e.event.Whole := by
  refine ⟨e.photo, rfl, ?_⟩
  rw [photo, List.length_take]
  exact min_eq_left he

/-- An element is enqueued at the end. -/
lemma Held.enQueue (h : Held Q f as vs) {a : ℕ} {e : ElemType} (ha : Q.heap a = none)
    (hlen : e.fileSize.toNat ≤ (e.pFileData.getD []).length) (hmem : e.fileSize.toNat ≤ e.photoMem) :
    ∃ Q', EventQueue.enQueue Q a e = some Q' ∧ Held Q' f (as ++ [a]) (vs ++ [e.event]) ∧
      Q'.queueNum = Q.queueNum + 1 := by
  have hnew : a ∉ f :: as := by
    intro hin
    obtain ⟨c, hc⟩ := h.linked.mem hin
    rw [ha] at hc
    exact absurd hc (by simp)
  set heap := Function.update Q.heap a (some ⟨e.event, none⟩) with hheap
  have hkept : Linked heap (some f) (f :: as) (noElem :: vs) := by
    refine h.linked.congr fun x hx => ?_
    have hxa : x ≠ a := by
      rintro rfl
      exact hnew hx
    rw [hheap, Function.update_of_ne hxa]
  obtain ⟨r, hr, hrear⟩ := h.last
  obtain ⟨c, hc⟩ := hkept.mem (List.mem_of_getLast? hr)
  have henq : EventQueue.enQueue Q a e = some { Q with
      heap := Function.update heap r (some { c with next := some a })
      rear := some a
      queueNum := Q.queueNum + 1
      allocated := Q.allocated + 1 } := by
    rw [EventQueue.enQueue, if_neg (by omega), ← hheap, hrear, Option.bind_eq_bind, Option.bind_some, hc]
    rfl
  refine ⟨_, henq, ⟨hkept.snoc h.nodup hr hc hnew (Function.update_self ..), ?_, h.front, ?_, ?_, ?_⟩, rfl⟩
  · rw [← List.cons_append, List.nodup_append]
    refine ⟨h.nodup, List.nodup_singleton a, ?_⟩
    rintro x hx y hy rfl
    exact hnew (List.mem_singleton.1 hy ▸ hx)
  · rw [← List.cons_append, List.getLast?_concat]
  · rw [List.length_append]
    exact Nat.succ_lt_succ h.room
  · intro v hv
    rcases List.mem_append.1 hv with hv | hv
    · exact h.whole v hv
    · rw [List.mem_singleton.1 hv]
      exact e.event_whole hlen

/-! ### Elements are taken out -/

/-- Copying an element out gives what is promised, and the memory of the caller keeps its length. -/
lemma copyOut_spec {x e : ElemType} (hx : x.Whole) (hbuf : ∀ buf ∈ e.pFileData, x.fileSize.toNat ≤ buf.length) :
    ∃ e', copyOut x e = some e' ∧ e'.event = given e x ∧
      e'.pFileData.map List.length = e.pFileData.map List.length := by
  obtain ⟨bs, hbs, hlen⟩ := hx
  rw [copyOut, hbs]
  cases hp : e.pFileData with
  | none => exact ⟨_, rfl, by simp [ElemType.event, ElemType.photo, given, hp], rfl⟩
  | some buf =>
      have hle := hbuf buf hp
      refine ⟨_, if_neg (not_lt.2 hle), ?_, ?_⟩
      · have hall : bs.take x.fileSize.toNat = bs := List.take_of_length_le hlen.le
        rw [given, if_neg (by simp [hp]), ElemType.event, ElemType.photo]
        simp only [Option.getD_some, hall]
        rw [← hlen, List.take_left, ← hbs]
      · simp [hlen, hle]

lemma Held.deQueue_nil (h : Held Q f as []) (e : ElemType) : deQueue Q e = some (e, Q) := by
  have has : as = [] := List.length_eq_zero_iff.1 h.length_eq
  rw [deQueue, if_pos]
  rw [h.front, h.rear, has, List.getLast?_singleton]

/-- The first element is taken out. -/
lemma Held.deQueue_cons {x : ElemType} (h : Held Q f as (x :: vs)) {e : ElemType}
    (hbuf : ∀ buf ∈ e.pFileData, x.fileSize.toNat ≤ buf.length) :
    ∃ e' Q', deQueue Q e = some (e', Q') ∧ Held Q' f as.tail vs ∧ Q'.queueNum = Q.queueNum - 1 ∧
      e'.event = given e x ∧ e'.pFileData.map List.length = e.pFileData.map List.length := by
  cases as with
  | nil => exact absurd h.length_eq (by simp)
  | cons p as =>
      obtain ⟨c, n, hc, hnext, hn, hvalue, hlinked⟩ := h.linked.unlink h.nodup
      obtain ⟨e', he', hgiven, hmem⟩ := copyOut_spec (h.whole x List.mem_cons_self) hbuf
      have hnodup := h.nodup
      rw [List.nodup_cons, List.mem_cons, not_or, List.nodup_cons] at hnodup
      obtain ⟨⟨hfp, hfas⟩, hpas, has⟩ := hnodup
      have hne : Q.front ≠ Q.rear := by
        rw [h.front, h.rear, List.getLast?_cons_cons]
        intro hlast
        rcases List.mem_cons.1 (List.mem_of_getLast? hlast.symm) with hf | hf
        · exact hfp hf
        · exact hfas hf
      have hdeq : deQueue Q e = some (e', { Q with
          heap := Function.update (Function.update Q.heap f (some { c with next := n.next })) p none
          rear := if Q.rear = some p then Q.front else Q.rear
          queueNum := Q.queueNum - 1 }) := by
        rw [deQueue, if_neg hne, h.front, Option.bind_eq_bind, Option.bind_some, hc, Option.bind_eq_bind,
          Option.bind_some, hnext]
        show (Q.heap p).bind _ = _
        rw [hn, Option.bind_some, hvalue, he']
        rfl
      refine ⟨e', _, hdeq, ⟨hlinked, List.nodup_cons.2 ⟨hfas, has⟩, h.front, ?_, ?_, ?_⟩, rfl, hgiven, hmem⟩
      · -- the pointer to the last node is set back if this was the last one
        show (if Q.rear = some p then Q.front else Q.rear) = (f :: as).getLast?
        rw [h.rear, List.getLast?_cons_cons, h.front]
        cases as with
        | nil => exact if_pos List.getLast?_singleton
        | cons b as =>
            rw [List.getLast?_cons_cons, List.getLast?_cons_cons, if_neg]
            exact fun hlast => hpas (List.mem_of_getLast? hlast)
      · exact Nat.lt_of_succ_lt h.room
      · exact fun v hv => h.whole v (List.mem_cons_of_mem x hv)

/-- All elements are taken out, in order. -/
lemma Held.deQueueN (h : Held Q f as vs) {e : ElemType}
    (hbuf : ∀ x ∈ vs, ∀ buf ∈ e.pFileData, x.fileSize.toNat ≤ buf.length) :
    ∃ Q', EventQueue.deQueueN vs.length Q e = some (vs.map (given e), Q') := by
  induction vs generalizing Q as e with
  | nil => exact ⟨Q, rfl⟩
  | cons x vs ih =>
      obtain ⟨e', Q₁, hdeq, hheld, -, hgiven, hmem⟩ := h.deQueue_cons (hbuf x List.mem_cons_self)
      have hnone : e'.pFileData = none ↔ e.pFileData = none := by
        rw [← Option.map_eq_none_iff, hmem, Option.map_eq_none_iff]
      have hbuf' : ∀ y ∈ vs, ∀ buf ∈ e'.pFileData, y.fileSize.toNat ≤ buf.length := by
        intro y hy buf hb
        obtain ⟨buf₀, hb₀, hlen⟩ := Option.map_eq_some_iff.1 (hmem.symm.trans (congrArg _ hb))
        rw [← hlen]
        exact hbuf y (List.mem_cons_of_mem x hy) buf₀ hb₀
      obtain ⟨Q', hQ'⟩ := ih hheld hbuf'
      have hsame : given e' = given e := by
        funext y
        rw [given, given, if_congr hnone rfl rfl]
      refine ⟨Q', ?_⟩
      rw [List.length_cons, EventQueue.deQueueN, hdeq, Option.bind_some, hQ', Option.map_some, List.map_cons,
        hgiven, hsame]

/-- The loop of `ClearQueue` leaves the head node. -/
lemma clearLoop_spec {heap : Heap ElemType} {z : ElemType} {fuel : ℕ}
    (hl : Linked heap (some f) (f :: as) (z :: vs)) (hnodup : (f :: as).Nodup) (hfuel : as.length < fuel) :
    ∃ heap', clearLoop f fuel heap = some heap' ∧ Linked heap' (some f) [f] [z] := by
  induction as generalizing heap vs fuel with
  | nil =>
      obtain ⟨fuel, rfl⟩ := Nat.exists_eq_add_one_of_ne_zero (Nat.pos_iff_ne_zero.1 hfuel)
      obtain rfl : vs = [] := List.length_eq_zero_iff.1 (Nat.succ.inj hl.length_eq).symm
      obtain ⟨c, hc, -, hrest⟩ := hl.uncons
      refine ⟨heap, ?_, hl⟩
      rw [clearLoop, hc, Option.bind_eq_bind, Option.bind_some, hrest.front_eq]
      rfl
  | cons p as ih =>
      obtain ⟨fuel, rfl⟩ := Nat.exists_eq_add_one_of_ne_zero (Nat.pos_iff_ne_zero.1 (Nat.zero_lt_of_lt hfuel))
      cases vs with
      | nil => exact absurd hl.length_eq (by simp)
      | cons v vs =>
          obtain ⟨c, n, hc, hnext, hn, -, hlinked⟩ := hl.unlink hnodup
          have hnodup' : (f :: as).Nodup := hnodup.sublist (by simp)
          obtain ⟨heap', hloop, hheap'⟩ := ih hlinked hnodup' (Nat.lt_of_succ_lt_succ hfuel)
          refine ⟨heap', ?_, hheap'⟩
          rw [clearLoop, hc, Option.bind_eq_bind, Option.bind_some, hnext]
          show (heap p).bind _ = _
          rw [hn, Option.bind_some, hloop]

/-- `ClearQueue` takes out all elements, and leaves their number. -/
lemma Held.clearQueue (h : Held Q f as vs) :
    ∃ Q', EventQueue.clearQueue Q = some Q' ∧ Held Q' f [] [] ∧ Q'.queueNum = Q.queueNum := by
  obtain ⟨heap, hloop, hlinked⟩ := clearLoop_spec h.linked h.nodup (Nat.lt_succ_of_lt h.room)
  have hclear : EventQueue.clearQueue Q = some { Q with heap, rear := Q.front } := by
    rw [EventQueue.clearQueue, h.front, Option.bind_eq_bind, Option.bind_some, hloop]
    rfl
  exact ⟨_, hclear, ⟨hlinked, List.nodup_singleton f, h.front, h.front, Nat.zero_lt_of_lt h.room, by simp⟩, rfl⟩

/-! ### What the queue says of itself -/

/-- The loop of `QueueLength` counts the links up to the last node. -/
lemma lengthLoop_eq {heap : Heap ElemType} {p : Option ℕ} {r fuel : ℕ} (hl : Linked heap p as vs)
    (hnodup : as.Nodup) (hr : as.getLast? = some r) (hfuel : as.length ≤ fuel) :
    lengthLoop heap (some r) fuel p = some (as.length - 1) := by
  induction hl generalizing fuel with
  | nil => simp at hr
  | @cons a c as vs hc hrest ih =>
      obtain ⟨fuel, rfl⟩ := Nat.exists_eq_add_one_of_ne_zero (Nat.pos_iff_ne_zero.1 (Nat.zero_lt_of_lt hfuel))
      cases has : as with
      | nil =>
          rw [has, List.getLast?_singleton] at hr
          rw [lengthLoop, if_pos hr]
          rfl
      | cons b as' =>
          have hlast : as.getLast? = some r := by
            rw [has] at hr ⊢
            rwa [List.getLast?_cons_cons] at hr
          have har : a ≠ r := by
            rintro rfl
            exact (List.nodup_cons.1 hnodup).1 (List.mem_of_getLast? hlast)
          rw [lengthLoop, if_neg fun h => har (Option.some.inj h), Option.bind_some, hc, Option.bind_some,
            ih (List.nodup_cons.1 hnodup).2 hlast (Nat.le_of_succ_le_succ hfuel), has]
          rfl

/-- The last node of a chain. -/
lemma lastNode_eq {heap : Heap ElemType} {p : Option ℕ} {fuel : ℕ} (hl : Linked heap p as vs)
    (hfuel : as.length ≤ fuel) : p.bind (lastNode heap fuel) = as.getLast? := by
  induction hl generalizing fuel with
  | nil => rfl
  | @cons a c as vs hc hrest ih =>
      obtain ⟨fuel, rfl⟩ := Nat.exists_eq_add_one_of_ne_zero (Nat.pos_iff_ne_zero.1 (Nat.zero_lt_of_lt hfuel))
      have hrec := ih (Nat.le_of_succ_le_succ hfuel)
      rw [Option.bind_some, lastNode, hc, Option.bind_some]
      rw [hrest.front_eq] at hrec ⊢
      cases as with
      | nil => rfl
      | cons b as => rw [List.getLast?_cons_cons, ← hrec]; rfl

lemma Held.queueLength (h : Held Q f as vs) : EventQueue.queueLength Q = some vs.length := by
  obtain ⟨r, hr, hrear⟩ := h.last
  rw [EventQueue.queueLength, h.front, hrear,
    lengthLoop_eq h.linked h.nodup hr (Nat.succ_le_succ h.room.le), ← h.length_eq]
  rfl

lemma Held.lastNode (h : Held Q f as vs) :
    Q.front.bind (EventQueue.lastNode Q.heap (Q.allocated + 1)) = Q.rear := by
  rw [h.front, h.rear]
  exact lastNode_eq h.linked (Nat.succ_le_succ h.room.le)

/-- An empty queue has no elements, whatever its number is. -/
lemma Held.getQueueElemNum (h : Held Q f as vs) :
    EventQueue.getQueueElemNum Q = some (if vs = [] then 0 else Q.queueNum) := by
  obtain ⟨c, hc, -, hrest⟩ := h.linked.uncons
  have hnone : c.next = none ↔ vs = [] := by
    rw [hrest.front_eq, List.head?_eq_none_iff, ← List.length_eq_zero_iff, h.length_eq, List.length_eq_zero_iff]
  rw [EventQueue.getQueueElemNum, h.front, Option.bind_some, hc, Option.map_some, if_congr hnone rfl rfl]

/-! ### The queue of the store -/

/-- The queue in memory stands for a queue of the store, which has its elements and its number. -/
structure Stands (Q : LinkQueue) (q : DeviceTools.LinkQueue ElemType) : Prop where
  held : ∃ f as, Held Q f as q.nodes
  valid : q.Valid
  num : Q.queueNum = q.queueNum

variable {q : DeviceTools.LinkQueue ElemType}

lemma Stands.enQueue (h : Stands Q q) {a : ℕ} {e : ElemType} (ha : Q.heap a = none)
    (hlen : e.fileSize.toNat ≤ (e.pFileData.getD []).length) (hmem : e.fileSize.toNat ≤ e.photoMem) :
    ∃ Q', EventQueue.enQueue Q a e = some Q' ∧ Stands Q' (q.enQueue e.event) := by
  obtain ⟨⟨f, as, hheld⟩, hvalid, hnum⟩ := h
  obtain ⟨Q', hQ', hheld', hnum'⟩ := hheld.enQueue ha hlen hmem
  refine ⟨Q', hQ', ⟨f, as ++ [a], ?_⟩, hvalid.enQueue _, ?_⟩
  · rw [DeviceTools.LinkQueue.enQueue_nodes hvalid]
    exact hheld'
  · rw [hnum', hnum]
    rfl

lemma Stands.deQueue (h : Stands Q q) {e : ElemType}
    (hbuf : ∀ x ∈ q.nodes.head?, ∀ buf ∈ e.pFileData, x.fileSize.toNat ≤ buf.length) :
    ∃ e' Q', EventQueue.deQueue Q e = some (e', Q') ∧ Stands Q' q.deQueue.2 ∧
      ∀ x ∈ q.deQueue.1, e'.event = given e x := by
  obtain ⟨⟨f, as, hheld⟩, ⟨hrear, hnum⟩, hQ⟩ := h
  obtain ⟨nodes, rear, num⟩ := q
  obtain rfl : rear = nodes.length := hrear
  obtain rfl : num = nodes.length := hnum
  cases nodes with
  | nil => exact ⟨e, Q, hheld.deQueue_nil e, ⟨⟨f, as, hheld⟩, ⟨rfl, rfl⟩, hQ⟩, by simp [LinkQueue.deQueue]⟩
  | cons x vs =>
      obtain ⟨e', Q', hdeq, hheld', hnum', hgiven, -⟩ := hheld.deQueue_cons (hbuf x rfl)
      refine ⟨e', Q', hdeq, ⟨⟨f, _, hheld'⟩, ⟨rfl, rfl⟩, ?_⟩, fun y hy => ?_⟩
      · rw [hnum', hQ]
        simp [DeviceTools.LinkQueue.deQueue]
      · obtain rfl : x = y := Option.some.inj hy
        exact hgiven

lemma Stands.getQueueElemNum (h : Stands Q q) :
    EventQueue.getQueueElemNum Q = some (q.getQueueElemNum : ℤ) := by
  obtain ⟨⟨f, as, hheld⟩, -, hnum⟩ := h
  rw [hheld.getQueueElemNum, DeviceTools.LinkQueue.getQueueElemNum, hnum]
  split <;> rfl

/-! ### The invariant -/

/-- The queue holds the elements, and its number is theirs, with the number of elements that were cleared. -/
structure WatchInv (w : Watched) : Prop where
  held : ∃ f as, Held w.queue f as w.contents
  num : ∃ k : ℕ, w.queue.queueNum = w.contents.length + k ∧ (w.stale = true ↔ 0 < k)

lemma watchInv_start (a : ℕ) : WatchInv (start a) :=
  ⟨⟨a, [], held_initQueue _ a⟩, 0, rfl, by simp [start]⟩

/-- **One call.**  A call that is possible returns and keeps the invariant. -/
lemma step_spec {w : Watched} {c : Call} (hinv : WatchInv w) (hc : Possible w c) :
    ∃ w', step w c = some w' ∧ WatchInv w' := by
  obtain ⟨⟨f, as, hheld⟩, k, hnum, hstale⟩ := hinv
  cases c with
  | initQueue a => exact ⟨_, rfl, ⟨a, [], held_initQueue _ a⟩, 0, rfl, by simp⟩
  | enQueue a e =>
      obtain ⟨ha, hlen, hmem⟩ := hc
      obtain ⟨Q, hQ, hheld', hnum'⟩ := hheld.enQueue ha hlen hmem
      refine ⟨⟨Q, w.contents ++ [e.event], w.stale⟩, ?_, ⟨f, _, hheld'⟩, k, ?_, hstale⟩
      · rw [step, hQ, Option.map_some]
      · rw [hnum', hnum, List.length_append, List.length_singleton]
        push_cast
        ring
  | deQueue e =>
      cases hcont : w.contents with
      | nil =>
          rw [hcont] at hheld hnum
          refine ⟨⟨w.queue, [], w.stale⟩, ?_, ⟨f, as, hheld⟩, k, hnum, hstale⟩
          rw [step, hheld.deQueue_nil, hcont]
          rfl
      | cons x vs =>
          have hbuf : ∀ buf ∈ e.pFileData, x.fileSize.toNat ≤ buf.length := by
            intro buf hb
            refine hc x ?_ buf hb
            rw [hcont]
            rfl
          rw [hcont] at hheld hnum
          obtain ⟨e', Q, hdeq, hheld', hnum', -⟩ := hheld.deQueue_cons hbuf
          refine ⟨⟨Q, vs, w.stale⟩, ?_, ⟨f, _, hheld'⟩, k, ?_, hstale⟩
          · rw [step, hdeq, hcont]
            rfl
          · rw [hnum', hnum, List.length_cons]
            push_cast
            ring
  | clearQueue =>
      obtain ⟨Q, hQ, hheld', hnum'⟩ := hheld.clearQueue
      refine ⟨⟨Q, [], w.stale || !w.contents.isEmpty⟩, ?_, ⟨f, [], hheld'⟩, w.contents.length + k, ?_, ?_⟩
      · rw [step, hQ, Option.map_some]
      · rw [hnum', hnum]
        simp
      · -- the elements that are cleared now are added to those that were cleared before
        rw [Bool.or_eq_true, hstale, Bool.not_eq_true', List.isEmpty_eq_false_iff, ← List.length_pos_iff]
        omega

/-- The queue is right about its elements if it has none, or none were cleared. -/
lemma truthful_iff {w : Watched} (hinv : WatchInv w) : Truthful w ↔ w.contents = [] ∨ w.stale = false := by
  obtain ⟨⟨f, as, hheld⟩, k, hnum, hstale⟩ := hinv
  have helem := hheld.getQueueElemNum
  rw [hnum] at helem
  constructor
  · intro h
    by_cases hnil : w.contents = []
    · exact Or.inl hnil
    · rw [h.elemNum, if_neg hnil, Option.some.injEq] at helem
      have hk : ¬ 0 < k := by omega
      rw [← hstale, Bool.not_eq_true] at hk
      exact Or.inr hk
  · intro h
    refine ⟨?_, hheld.queueLength, ⟨hheld.lastNode, fun hnil => ?_⟩, fun e he => hheld.deQueueN he⟩
    · rw [helem, Option.some.injEq]
      rcases h with hnil | hno
      · rw [if_pos hnil, hnil]
        rfl
      · have hk : k = 0 := by
          have hno : ¬ w.stale = true := by simp [hno]
          rw [hstale] at hno
          omega
        split
        · next hnil => rw [hnil]; rfl
        · rw [hk]
          simp
    · have has : as = [] := List.length_eq_zero_iff.1 (by rw [hheld.length_eq, hnil]; rfl)
      rw [hheld.rear, hheld.front, has, List.getLast?_singleton]

/-- **The counters of the queue.**  Every run of `InitQueue`, `EnQueue`, `DeQueue` and `ClearQueue` for which
there is memory returns.  The number, the length and the pointer to the last node are right in every state of
it, and the elements come out in order, exactly if no element is enqueued between a `ClearQueue` that cleared
elements and the next `InitQueue`. -/
theorem event_queue_truthful_iff (a : ℕ) (calls : List Call) (h : Along step Possible (start a) calls) :
    (∃ w, run step (start a) calls = some w) ∧
      (Throughout step Truthful (start a) calls ↔ Along step CountKept (start a) calls) := by
  have hstart := watchInv_start a
  constructor
  · obtain ⟨w, hw, -⟩ := Runs.progress (fun s c hs hc => step_spec hs hc) hstart h
    exact ⟨w, hw⟩
  · refine Runs.throughout_iff (J := WatchInv) ?_ ?_ hstart ((truthful_iff hstart).2 (Or.inl rfl)) h
    · intro s c s' hs hc hstep
      obtain ⟨s₁, hs₁, hinv⟩ := step_spec hs hc
      obtain rfl : s₁ = s' := Option.some.inj (hs₁.symm.trans hstep)
      refine ⟨hinv, fun htrue => ?_⟩
      rw [truthful_iff hs] at htrue
      rw [truthful_iff hinv]
      cases c with
      | initQueue b =>
          obtain rfl := Option.some.inj hstep
          exact iff_of_true (Or.inl rfl) trivial
      | enQueue b e =>
          obtain ⟨Q, -, rfl⟩ := Option.map_eq_some_iff.1 hstep
          show s.contents ++ [e.event] = [] ∨ s.stale = false ↔ s.stale = false
          simp
      | deQueue e =>
          obtain ⟨r, -, rfl⟩ := Option.map_eq_some_iff.1 hstep
          refine iff_of_true (htrue.imp_left fun hnil => ?_) trivial
          show s.contents.tail = []
          rw [hnil]
          rfl
      | clearQueue =>
          obtain ⟨Q, -, rfl⟩ := Option.map_eq_some_iff.1 hstep
          exact iff_of_true (Or.inl rfl) trivial
    · intro s c hs hc hnone
      obtain ⟨s', hs', -⟩ := step_spec hs hc
      rw [hnone] at hs'
      exact absurd hs' (by simp)

/-! ### A short run -/

instance decidablePossible (w : Watched) : ∀ c, Decidable (Possible w c)
  | .initQueue a => inferInstanceAs (Decidable (w.queue.heap a = none))
  | .enQueue a e => inferInstanceAs (Decidable (w.queue.heap a = none ∧
      e.fileSize.toNat ≤ (e.pFileData.getD []).length ∧ e.fileSize.toNat ≤ e.photoMem))
  | .deQueue e => inferInstanceAs (Decidable (∀ x ∈ w.contents.head?, ∀ buf ∈ e.pFileData,
      x.fileSize.toNat ≤ buf.length))
  | .clearQueue => isTrue trivial

/-- An event with a photo of two bytes. -/
def sampleElem (id : UInt32) : ElemType := { noElem with id, fileSize := 2, pFileData := some [0xFF, 0xD8] }

/-- Two events are enqueued, one is dequeued; the queue is cleared, initialised and used again. -/
def sampleCalls : List Call :=
  [.enQueue 1 (sampleElem 7), .enQueue 2 (sampleElem 8), .deQueue (sampleElem 0), .clearQueue, .initQueue 3,
    .enQueue 1 (sampleElem 9)]

theorem event_queue_truthful_sample :
    (∃ w, run step (start 0) sampleCalls = some w) ∧
      (Throughout step Truthful (start 0) sampleCalls ↔ Along step CountKept (start 0) sampleCalls) :=
  event_queue_truthful_iff 0 sampleCalls (by decide)

/-- Behind a `ClearQueue` the number of the queue counts the elements that are gone. -/
theorem cleared_element_counted :
    Along step Possible (start 0) [.enQueue 1 (sampleElem 7), .clearQueue, .enQueue 2 (sampleElem 8)] ∧
      ((run step (start 0) [.enQueue 1 (sampleElem 7), .clearQueue, .enQueue 2 (sampleElem 8)]).map
        fun w => (w.contents.map ElemType.id, queueLength w.queue, getQueueElemNum w.queue)) =
        some ([8], some 1, some 2) := by
  decide

end DeviceTools.EventQueue
