/-
The event queue.

`LinkQueue` is a chain of nodes behind a head node, with a pointer to the last node and a
counter.  The chain is modelled by the list of its elements; the pointer `rear` by its
distance from the head node, so that `rear = 0` is the test `front == rear`.
-/
import Mathlib

namespace DeviceTools

/-- The chained queue of `eventQueue.h`. -/
structure LinkQueue (ε : Type) where
  /-- The elements of the chain that starts at `front->next`. -/
  nodes : List ε
  /-- The number of `next` steps from `front` to `rear`. -/
  rear : ℕ
  /-- The counter of elements. -/
  queueNum : ℕ

namespace LinkQueue

variable {ε : Type}

/-- `InitQueue`. -/
def initQueue : LinkQueue ε := ⟨[], 0, 0⟩

/-- `EnQueue`: the new node becomes the `next` of `rear`. -/
def enQueue (q : LinkQueue ε) (e : ε) : LinkQueue ε :=
  ⟨q.nodes.take q.rear ++ [e], q.rear + 1, q.queueNum + 1⟩

/-- `DeQueue`: the first element, if there is one, and the queue without it. -/
def deQueue (q : LinkQueue ε) : Option ε × LinkQueue ε :=
  if q.rear = 0 then (none, q)
  else match q.nodes with
    | [] => (none, q)
    | p :: rest => (some p, ⟨rest, q.rear - 1, q.queueNum - 1⟩)

/-- `GetQueueElemNum`. -/
def getQueueElemNum (q : LinkQueue ε) : ℕ :=
  if q.nodes = [] then 0 else q.queueNum

/-- `k` calls of `DeQueue`: the elements taken out, `none` if the queue runs empty before
(the caller's element variable would then keep a stale value), and the queue left. -/
def deQueueN : ℕ → LinkQueue ε → Option (List ε × LinkQueue ε)
  | 0, q => some ([], q)
  | k + 1, q =>
      match q.deQueue with
      | (none, _) => none
      | (some e, q') => (deQueueN k q').map fun r => (e :: r.1, r.2)

/-- The three records of the length of the queue agree. -/
structure Valid (q : LinkQueue ε) : Prop where
  rear_eq : q.rear = q.nodes.length
  num_eq : q.queueNum = q.nodes.length

lemma valid_initQueue : (initQueue : LinkQueue ε).Valid := ⟨rfl, rfl⟩

lemma enQueue_nodes {q : LinkQueue ε} (h : q.Valid) (e : ε) :
    (q.enQueue e).nodes = q.nodes ++ [e] := by
  simp [enQueue, h.rear_eq]

lemma Valid.enQueue {q : LinkQueue ε} (h : q.Valid) (e : ε) : (q.enQueue e).Valid := by
  constructor
  · rw [enQueue_nodes h, List.length_append]
    simp [LinkQueue.enQueue, h.rear_eq]
  · rw [enQueue_nodes h, List.length_append]
    simp [LinkQueue.enQueue, h.num_eq]

lemma Valid.getQueueElemNum {q : LinkQueue ε} (h : q.Valid) :
    q.getQueueElemNum = q.nodes.length := by
  rw [LinkQueue.getQueueElemNum]
  split
  · next hnil => simp [hnil]
  · exact h.num_eq

/-- In a valid queue, taking out `k` elements gives the first `k`, in order. -/
lemma Valid.deQueueN {q : LinkQueue ε} (h : q.Valid) {k : ℕ} (hk : k ≤ q.nodes.length) :
    ∃ q', q.deQueueN k = some (q.nodes.take k, q') ∧ q'.Valid ∧ q'.nodes = q.nodes.drop k := by
  induction k generalizing q with
  | zero => exact ⟨q, by simp [LinkQueue.deQueueN], h, by simp⟩
  | succ k ih =>
      obtain ⟨nodes, rear, num⟩ := q
      obtain ⟨hr, hn⟩ := h
      cases nodes with
      | nil => simp at hk
      | cons e es =>
          simp only [List.length_cons] at hr hn hk
          subst hr; subst hn
          have hv : (⟨es, es.length, es.length⟩ : LinkQueue ε).Valid := ⟨rfl, rfl⟩
          obtain ⟨q', hq', hvalid, hnodes⟩ := ih hv (by simpa using hk)
          refine ⟨q', ?_, hvalid, by simpa using hnodes⟩
          rw [LinkQueue.deQueueN, LinkQueue.deQueue, if_neg (by simp)]
          simp only [Nat.add_sub_cancel]
          rw [hq']
          simp

end LinkQueue

end DeviceTools
