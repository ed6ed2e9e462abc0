/-
The thread pool: its queue, its workers and its shutdown.

`CThreadPool` keeps a queue of work in linked nodes, with a pointer to the first and to the last
node and a counter.  `Add` puts a node at the end, `ThreadRoutine` is the loop of a worker that
takes nodes from the front, and `Destroy` sets a flag, wakes all workers, waits for each to end
and frees the rest of the queue.  The queue is used under the mutex; the flag is set, and the
workers are woken, without it.

The model has one step for each part of the code that other threads cannot interrupt: what is
done under the mutex between two points at which the worker can be seen by the others, a test,
or a call of the thread library.  The wait condition of the worker, written with `=` in the
source, is read as a comparison.
-/
import DeviceTools.Lib.LinkedCells
import DeviceTools.Lib.Runs

namespace DeviceTools

open LinkedCells

/-- Where a worker is in `ThreadRoutine`. -/
inductive Worker where
  /-- Before `pthread_mutex_lock`. -/
  | top
  /-- With the mutex, before the test of the wait condition. -/
  | testing
  /-- With the mutex, after the wait condition was found true, before `pthread_cond_wait`. -/
  | goingToWait
  /-- In `pthread_cond_wait`, without the mutex. -/
  | waiting
  /-- In `pthread_cond_wait`, woken up, before it has the mutex again. -/
  | woken
  /-- With the mutex, behind the wait loop, before the test of `m_Shutdown`. -/
  | passed
  /-- With the mutex, before a node is taken. -/
  | taking
  /-- Without the mutex, with the node at the address. -/
  | working (a : ℕ)
  /-- Behind the loop. -/
  | exited
deriving DecidableEq, Repr

/-- The worker has the mutex. -/
def Worker.holds : Worker → Bool
  | .testing | .goingToWait | .passed | .taking => true
  | _ => false

/-- Where the thread in `Destroy` is. -/
inductive Destroyer where
  | idle
  /-- `m_Shutdown` has been set. -/
  | flagged
  /-- The workers have been woken, and the first `i` have been joined. -/
  | joining (i : ℕ)
  /-- All workers have been joined, and the queue is freed. -/
  | freeing
  | done
deriving DecidableEq, Repr

/-- `pthread_cond_broadcast` has been called. -/
def Destroyer.broadcasted : Destroyer → Bool
  | .joining _ | .freeing | .done => true
  | _ => false

/-- The queue is being freed, or has been. -/
def Destroyer.frees : Destroyer → Bool
  | .freeing | .done => true
  | _ => false

/-- A pool of `n` workers.  A work item, the members `fun` and `args` of a node, is a value of
`α`. -/
structure Pool (n : ℕ) (α : Type) where
  /-- The nodes that have been allocated and not freed. -/
  heap : Heap α
  m_Shutdown : Bool
  m_WorkQueueSize : ℤ
  m_WorkQueueFront : Option ℕ
  m_WorkQueueRear : Option ℕ
  m_Mutex : Option (Fin n)
  workers : Fin n → Worker
  destroyer : Destroyer
  /-- The nodes made by calls of `Add` that have not put them in the queue yet. -/
  fresh : List ℕ
  /-- The number of calls of `Add` before their `pthread_cond_signal`. -/
  signals : ℕ
  /-- History: the items added to the queue, and the items taken out of it. -/
  added : List α
  taken : List α

/-- The steps of the system. -/
inductive PoolStep (n : ℕ) (α : Type) where
  /-- `Add`: `NewWork`, for which `malloc` returns an address that is not in use. -/
  | newWork (a : ℕ) (item : α)
  /-- `Add`: the part under the mutex. -/
  | enqueue (a : ℕ)
  /-- `Add`: `pthread_cond_signal`, which wakes a waiting worker if there is one. -/
  | signal (w : Option (Fin n))
  | lock (w : Fin n)
  | test (w : Fin n)
  | wait (w : Fin n)
  /-- `pthread_cond_wait` returns without a signal. -/
  | spurious (w : Fin n)
  | relock (w : Fin n)
  | checkShutdown (w : Fin n)
  /-- The node is taken and the mutex given back. -/
  | take (w : Fin n)
  /-- The function of the node returns and the node is freed. -/
  | finish (w : Fin n)
  | setShutdown
  | broadcast
  | join
  | freeFront
deriving DecidableEq

namespace Pool

variable {n : ℕ} {α : Type}

/-- The pool after `Create`. -/
def create (n : ℕ) (α : Type) : Pool n α where
  heap _ := none
  m_Shutdown := false
  m_WorkQueueSize := 0
  m_WorkQueueFront := none
  m_WorkQueueRear := none
  m_Mutex := none
  workers _ := .top
  destroyer := .idle
  fresh := []
  signals := 0
  added := []
  taken := []

/-- A worker goes on to another place. -/
def goTo (s : Pool n α) (w : Fin n) (pc : Worker) : Pool n α :=
  { s with workers := Function.update s.workers w pc }

/-- The part of `Add` under the mutex, for a node with the given cell. -/
def add (s : Pool n α) (a : ℕ) (c : Cell α) : Option (Pool n α) :=
  -- the counter is an `int`
  if 2 ^ 31 ≤ s.m_WorkQueueSize + 1 then none
  else
    let s := { s with
      m_WorkQueueSize := s.m_WorkQueueSize + 1, added := s.added ++ [c.value],
      fresh := s.fresh.erase a, signals := s.signals + 1 }
    match s.m_WorkQueueRear with
    | none => some { s with m_WorkQueueFront := some a, m_WorkQueueRear := some a }
    | some r =>
        (s.heap r).map fun last =>
          { s with
            heap := Function.update s.heap r (some { last with next := some a })
            m_WorkQueueRear := some a }

/-- The part of `ThreadRoutine` that takes a node; there is no result when the pointer to the
first node is null or does not point to a node. -/
def dequeue (s : Pool n α) (w : Fin n) : Option (Pool n α) :=
  s.m_WorkQueueFront.bind fun a => (s.heap a).map fun worker =>
    { (s.goTo w (.working a)) with
      m_WorkQueueSize := s.m_WorkQueueSize - 1
      m_WorkQueueFront := worker.next
      m_WorkQueueRear := if s.m_WorkQueueSize - 1 = 0 then none else s.m_WorkQueueRear
      m_Mutex := none
      taken := s.taken ++ [worker.value] }

/-- One step, `none` when the step is not possible in the state or has no defined result. -/
def step (s : Pool n α) : PoolStep n α → Option (Pool n α)
  | .newWork a item =>
      if (s.heap a).isSome then none
      else some { s with heap := Function.update s.heap a (some ⟨item, none⟩), fresh := a :: s.fresh }
  | .enqueue a =>
      if a ∈ s.fresh ∧ s.m_Mutex = none then (s.heap a).bind (s.add a) else none
  | .signal none =>
      if 0 < s.signals ∧ ∀ w, s.workers w ≠ .waiting then some { s with signals := s.signals - 1 }
      else none
  | .signal (some w) =>
      if 0 < s.signals ∧ s.workers w = .waiting then
        some { s.goTo w .woken with signals := s.signals - 1 }
      else none
  | .lock w =>
      if s.workers w = .top ∧ s.m_Mutex = none then some { s.goTo w .testing with m_Mutex := some w }
      else none
  | .test w =>
      if s.workers w = .testing then
        some (s.goTo w
          (if s.m_WorkQueueSize = 0 ∧ s.m_Shutdown = false then .goingToWait else .passed))
      else none
  | .wait w =>
      if s.workers w = .goingToWait then some { s.goTo w .waiting with m_Mutex := none } else none
  | .spurious w => if s.workers w = .waiting then some (s.goTo w .woken) else none
  | .relock w =>
      if s.workers w = .woken ∧ s.m_Mutex = none then
        some { s.goTo w .testing with m_Mutex := some w }
      else none
  | .checkShutdown w =>
      if s.workers w = .passed then
        some (if s.m_Shutdown then { s.goTo w .exited with m_Mutex := none } else s.goTo w .taking)
      else none
  | .take w => if s.workers w = .taking then s.dequeue w else none
  | .finish w =>
      match s.workers w with
      | .working a => some { s.goTo w .top with heap := Function.update s.heap a none }
      | _ => none
  | .setShutdown =>
      if s.destroyer = .idle then some { s with m_Shutdown := true, destroyer := .flagged } else none
  | .broadcast =>
      if s.destroyer = .flagged then
        some { s with
          workers := fun w => if s.workers w = .waiting then .woken else s.workers w
          destroyer := .joining 0 }
      else none
  | .join =>
      match s.destroyer with
      | .joining i =>
          if h : i < n then
            if s.workers ⟨i, h⟩ = .exited then some { s with destroyer := .joining (i + 1) } else none
          else some { s with destroyer := .freeing }
      | _ => none
  | .freeFront =>
      if s.destroyer = .freeing then
        match s.m_WorkQueueFront with
        | none => some { s with m_WorkQueueRear := none, m_WorkQueueSize := 0, destroyer := .done }
        | some a =>
            (s.heap a).map fun worker =>
              { s with m_WorkQueueFront := worker.next, heap := Function.update s.heap a none }
      else none

/-- A run of the system. -/
def run (s : Pool n α) (as : List (PoolStep n α)) : Option (Pool n α) := Runs.run step s as

@[simp] lemma goTo_self (s : Pool n α) (w : Fin n) (pc : Worker) : (s.goTo w pc).workers w = pc := by
  simp [goTo]

lemma goTo_of_ne (s : Pool n α) {v w : Fin n} (h : v ≠ w) (pc : Worker) :
    (s.goTo w pc).workers v = s.workers v := by
  simp [goTo, h]

lemma add_destroyer {s s' : Pool n α} {a : ℕ} {c : Cell α} (hs : s.add a c = some s') :
    s'.destroyer = s.destroyer := by
  rw [add] at hs
  split at hs
  · simp at hs
  · dsimp only at hs
    split at hs
    · rw [← Option.some.inj hs]
    · rw [Option.map_eq_some_iff] at hs
      obtain ⟨last, -, rfl⟩ := hs
      rfl

lemma dequeue_destroyer {s s' : Pool n α} {w : Fin n} (hs : s.dequeue w = some s') :
    s'.destroyer = s.destroyer := by
  simp only [dequeue, Option.bind_eq_some_iff, Option.map_eq_some_iff] at hs
  obtain ⟨a, -, c, -, rfl⟩ := hs
  rfl

/-- **How `Destroy` goes on**: by its own steps only, and one after the other. -/
lemma step_destroyer {s s' : Pool n α} {act : PoolStep n α} (hs : s.step act = some s') :
    s'.destroyer = s.destroyer ∨
    (act = .setShutdown ∧ s.destroyer = .idle ∧ s'.destroyer = .flagged) ∨
    (act = .broadcast ∧ s.destroyer = .flagged ∧ s'.destroyer = .joining 0) ∨
    (∃ i, s.destroyer = .joining i ∧ (s'.destroyer = .joining (i + 1) ∨ s'.destroyer = .freeing)) ∨
    (s.destroyer = .freeing ∧ s'.destroyer = .done) := by
  cases act with
  | newWork a item =>
      simp only [step, Option.ite_none_left_eq_some, Option.some.injEq] at hs
      obtain ⟨-, rfl⟩ := hs
      exact Or.inl rfl
  | enqueue a =>
      simp only [step, Option.ite_none_right_eq_some, Option.bind_eq_some_iff] at hs
      obtain ⟨-, c, -, hs⟩ := hs
      exact Or.inl (add_destroyer hs)
  | signal w =>
      cases w with
      | none =>
          simp only [step, Option.ite_none_right_eq_some, Option.some.injEq] at hs
          obtain ⟨-, rfl⟩ := hs
          exact Or.inl rfl
      | some w =>
          simp only [step, Option.ite_none_right_eq_some, Option.some.injEq] at hs
          obtain ⟨-, rfl⟩ := hs
          exact Or.inl rfl
  | test w =>
      simp only [step, Option.ite_none_right_eq_some, Option.some.injEq] at hs
      obtain ⟨-, rfl⟩ := hs
      exact Or.inl rfl
  | checkShutdown w =>
      simp only [step, Option.ite_none_right_eq_some, Option.some.injEq] at hs
      obtain ⟨-, rfl⟩ := hs
      refine Or.inl ?_
      split <;> rfl
  | lock w | wait w | spurious w | relock w =>
      simp only [step, Option.ite_none_right_eq_some, Option.some.injEq] at hs
      obtain ⟨-, rfl⟩ := hs
      exact Or.inl rfl
  | take w =>
      simp only [step, Option.ite_none_right_eq_some] at hs
      exact Or.inl (dequeue_destroyer hs.2)
  | finish w =>
      simp only [step] at hs
      split at hs
      · exact Or.inl (by rw [← Option.some.inj hs]; rfl)
      · simp at hs
  | setShutdown =>
      simp only [step, Option.ite_none_right_eq_some, Option.some.injEq] at hs
      exact Or.inr (Or.inl ⟨rfl, hs.1, by rw [← hs.2]⟩)
  | broadcast =>
      simp only [step, Option.ite_none_right_eq_some, Option.some.injEq] at hs
      exact Or.inr (Or.inr (Or.inl ⟨rfl, hs.1, by rw [← hs.2]⟩))
  | join =>
      refine Or.inr (Or.inr (Or.inr (Or.inl ?_)))
      simp only [step] at hs
      split at hs
      · next i hi =>
          refine ⟨i, hi, ?_⟩
          split at hs
          · simp only [Option.ite_none_right_eq_some, Option.some.injEq] at hs
            exact Or.inl (by rw [← hs.2])
          · exact Or.inr (by rw [← Option.some.inj hs])
      · simp at hs
  | freeFront =>
      simp only [step, Option.ite_none_right_eq_some] at hs
      obtain ⟨hd, hs⟩ := hs
      split at hs
      · exact Or.inr (Or.inr (Or.inr (Or.inr ⟨hd, by rw [← Option.some.inj hs]⟩)))
      · rw [Option.map_eq_some_iff] at hs
        obtain ⟨c, -, rfl⟩ := hs
        exact Or.inl rfl

end Pool

end DeviceTools
