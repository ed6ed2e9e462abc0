/-
The shutdown of the thread pool.

`Destroy` sets `m_Shutdown` and wakes the waiting workers, both without the mutex.  A worker that
has found the flag not set and has not begun to wait is not among those that are woken, and it
goes to sleep afterwards.  Apart from this window no worker sleeps through the shutdown: behind
the flag the wait condition is false.
-/
import DeviceTools.ThreadPool.Pool

namespace DeviceTools

namespace Pool

variable {n : ℕ} {α : Type} {s s' : Pool n α}

lemma goTo_eq {v w : Fin n} {pc pc' : Worker} (h : (s.goTo w pc).workers v = pc') :
    pc = pc' ∨ s.workers v = pc' := by
  by_cases hvw : v = w
  · subst hvw
    rw [goTo_self] at h
    exact Or.inl h
  · rw [goTo_of_ne s hvw] at h
    exact Or.inr h

lemma add_control {a : ℕ} {c : LinkedCells.Cell α} (hs : s.add a c = some s') :
    s'.workers = s.workers ∧ s'.m_Shutdown = s.m_Shutdown := by
  rw [add] at hs
  split at hs
  · simp at hs
  · dsimp only at hs
    split at hs
    · rw [← Option.some.inj hs]
      exact ⟨rfl, rfl⟩
    · rw [Option.map_eq_some_iff] at hs
      obtain ⟨last, -, rfl⟩ := hs
      exact ⟨rfl, rfl⟩

/-- What a step does to the sleepers. -/
structure Sleepers (s s' : Pool n α) : Prop where
  /-- A worker goes to wait only if it finds the flag not set. -/
  goingToWait : ∀ w, s'.workers w = .goingToWait → s.workers w = .goingToWait ∨ s.m_Shutdown = false
  waiting : ∀ w, s'.workers w = .waiting → s.workers w = .waiting ∨ s.workers w = .goingToWait
  shutdown : s.m_Shutdown = true → s'.m_Shutdown = true

lemma Sleepers.of_same (hw : s'.workers = s.workers) (hsh : s.m_Shutdown = true → s'.m_Shutdown = true) :
    Sleepers s s' where
  goingToWait w h := Or.inl (by rw [← hw]; exact h)
  waiting w h := Or.inl (by rw [← hw]; exact h)
  shutdown := hsh

lemma Sleepers.of_goTo {w : Fin n} {pc : Worker} (hw : s'.workers = (s.goTo w pc).workers)
    (hsh : s'.m_Shutdown = s.m_Shutdown) (hgoing : pc ≠ .goingToWait) (hwait : pc ≠ .waiting) :
    Sleepers s s' where
  goingToWait v h := by
    rw [hw] at h
    exact Or.inl ((goTo_eq h).resolve_left hgoing)
  waiting v h := by
    rw [hw] at h
    exact Or.inl ((goTo_eq h).resolve_left hwait)
  shutdown h := by rw [hsh]; exact h

/-- **What the steps do to the sleepers.** -/
lemma sleepers_of_step {act : PoolStep n α} (hs : s.step act = some s') : Sleepers s s' := by
  cases act with
  | newWork a item =>
      simp only [step, Option.ite_none_left_eq_some, Option.some.injEq] at hs
      obtain ⟨-, rfl⟩ := hs
      exact .of_same rfl id
  | enqueue a =>
      simp only [step, Option.ite_none_right_eq_some, Option.bind_eq_some_iff] at hs
      obtain ⟨-, c, -, hs⟩ := hs
      obtain ⟨hw, hsh⟩ := add_control hs
      exact .of_same hw fun h => by rw [hsh]; exact h
  | signal w =>
      cases w with
      | none =>
          simp only [step, Option.ite_none_right_eq_some, Option.some.injEq] at hs
          obtain ⟨-, rfl⟩ := hs
          exact .of_same rfl id
      | some w =>
          simp only [step, Option.ite_none_right_eq_some, Option.some.injEq] at hs
          obtain ⟨-, rfl⟩ := hs
          exact .of_goTo (w := w) rfl rfl (by decide) (by decide)
  | lock w | spurious w | relock w =>
      simp only [step, Option.ite_none_right_eq_some, Option.some.injEq] at hs
      obtain ⟨-, rfl⟩ := hs
      exact .of_goTo (w := w) rfl rfl (by decide) (by decide)
  | test w =>
      simp only [step, Option.ite_none_right_eq_some, Option.some.injEq] at hs
      obtain ⟨-, rfl⟩ := hs
      split
      · next hcond =>
          refine ⟨fun _ _ => Or.inr hcond.2, fun v h => Or.inl ?_, id⟩
          exact (goTo_eq h).resolve_left (by decide)
      · exact .of_goTo (w := w) rfl rfl (by decide) (by decide)
  | wait w =>
      simp only [step, Option.ite_none_right_eq_some, Option.some.injEq] at hs
      obtain ⟨hw, rfl⟩ := hs
      refine ⟨fun v h => Or.inl ((goTo_eq h).resolve_left (by decide)), fun v h => ?_, id⟩
      by_cases hvw : v = w
      · rw [hvw]
        exact Or.inr hw
      · exact Or.inl ((goTo_of_ne s hvw .waiting).symm.trans h)
  | checkShutdown w =>
      simp only [step, Option.ite_none_right_eq_some, Option.some.injEq] at hs
      obtain ⟨-, rfl⟩ := hs
      split
      · exact .of_goTo (w := w) rfl rfl (by decide) (by decide)
      · exact .of_goTo (w := w) rfl rfl (by decide) (by decide)
  | take w =>
      simp only [step, dequeue, Option.ite_none_right_eq_some, Option.bind_eq_some_iff,
        Option.map_eq_some_iff] at hs
      obtain ⟨-, a, -, c, -, rfl⟩ := hs
      exact .of_goTo (w := w) rfl rfl (by simp) (by simp)
  | finish w =>
      simp only [step] at hs
      split at hs
      · rw [← Option.some.inj hs]
        exact .of_goTo (w := w) rfl rfl (by decide) (by decide)
      · simp at hs
  | setShutdown =>
      simp only [step, Option.ite_none_right_eq_some, Option.some.injEq] at hs
      obtain ⟨-, rfl⟩ := hs
      exact .of_same rfl fun _ => rfl
  | broadcast =>
      simp only [step, Option.ite_none_right_eq_some, Option.some.injEq] at hs
      obtain ⟨-, rfl⟩ := hs
      refine ⟨fun v h => Or.inl ?_, fun v h => Or.inl ?_, id⟩
      · dsimp only at h
        split at h
        · simp at h
        · exact h
      · dsimp only at h
        split at h
        · simp at h
        · exact h
  | join =>
      simp only [step] at hs
      split at hs
      · split at hs
        · simp only [Option.ite_none_right_eq_some, Option.some.injEq] at hs
          obtain ⟨-, rfl⟩ := hs
          exact .of_same rfl id
        · rw [← Option.some.inj hs]
          exact .of_same rfl id
      · simp at hs
  | freeFront =>
      simp only [step, Option.ite_none_right_eq_some] at hs
      obtain ⟨-, hs⟩ := hs
      split at hs
      · rw [← Option.some.inj hs]
        exact .of_same rfl id
      · rw [Option.map_eq_some_iff] at hs
        obtain ⟨c, -, rfl⟩ := hs
        exact .of_same rfl id

/-- The workers are woken when none of them is between its test of the wait condition and its
`pthread_cond_wait`. -/
def BroadcastsClear (s : Pool n α) (act : PoolStep n α) : Prop :=
  act = .broadcast → ∀ w, s.workers w ≠ .goingToWait

instance [DecidableEq α] (s : Pool n α) (act : PoolStep n α) : Decidable (BroadcastsClear s act) :=
  inferInstanceAs (Decidable (_ → _))

/-- The flag is set when `Destroy` has begun, and when the workers have been woken, none is about
to wait or waits. -/
structure ShutdownInv (s : Pool n α) : Prop where
  flag : s.destroyer ≠ .idle → s.m_Shutdown = true
  awake : s.destroyer.broadcasted = true → ∀ w, s.workers w ≠ .goingToWait ∧ s.workers w ≠ .waiting

lemma ShutdownInv.step {act : PoolStep n α} (h : ShutdownInv s) (hclear : BroadcastsClear s act)
    (hs : s.step act = some s') : ShutdownInv s' := by
  have hsleep := sleepers_of_step hs
  -- a step behind the call of `pthread_cond_broadcast` leaves all workers awake
  have hkeep : s.destroyer.broadcasted = true →
      ∀ w, s'.workers w ≠ .goingToWait ∧ s'.workers w ≠ .waiting := by
    intro hb w
    have hflag := h.flag (by rintro hc; rw [hc] at hb; simp [Destroyer.broadcasted] at hb)
    obtain ⟨hgoing, hwait⟩ := h.awake hb w
    refine ⟨fun hc => ?_, fun hc => ?_⟩
    · rcases hsleep.goingToWait w hc with hc | hc
      · exact hgoing hc
      · rw [hflag] at hc
        simp at hc
    · exact (hsleep.waiting w hc).elim hwait hgoing
  rcases step_destroyer hs with he | ⟨rfl, he, he'⟩ | ⟨rfl, he, he'⟩ | ⟨i, he, he'⟩ | ⟨he, he'⟩
  · exact ⟨fun hne => hsleep.shutdown (h.flag (by rwa [he] at hne)), fun hb => hkeep (by rwa [he] at hb)⟩
  · refine ⟨fun _ => ?_, fun hb => by rw [he'] at hb; simp [Destroyer.broadcasted] at hb⟩
    simp only [Pool.step, Option.ite_none_right_eq_some, Option.some.injEq] at hs
    rw [← hs.2]
  · refine ⟨fun _ => hsleep.shutdown (h.flag (by rw [he]; simp)), fun _ w => ?_⟩
    -- the call itself: no worker is about to wait, and those that wait are woken
    have hw := hclear rfl w
    simp only [Pool.step, Option.ite_none_right_eq_some, Option.some.injEq] at hs
    rw [← hs.2]
    by_cases hwait : s.workers w = .waiting
    · simp [hwait]
    · simp [hwait, hw]
  · exact ⟨fun _ => hsleep.shutdown (h.flag (by rw [he]; simp)), fun _ => hkeep (by rw [he]; rfl)⟩
  · exact ⟨fun _ => hsleep.shutdown (h.flag (by rw [he]; simp)), fun _ => hkeep (by rw [he]; rfl)⟩

/-- **Shutdown without sleepers.**  For any number of workers: in every run in which
`pthread_cond_broadcast` is called when no worker is between its test of the wait condition and
its `pthread_cond_wait`, no worker sleeps in a state behind that call.  And in every state in
which it is called while a worker is there, the worker's next step leads to a state in which it
sleeps behind the call. -/
theorem no_sleep_through_shutdown (n : ℕ) (α : Type) :
    (∀ (acts : List (PoolStep n α)) (s : Pool n α),
      Runs.Along step BroadcastsClear (create n α) acts → (create n α).run acts = some s →
      s.destroyer.broadcasted = true → ∀ w, s.workers w ≠ .waiting) ∧
    (∀ (s : Pool n α) (w : Fin n), s.destroyer = .flagged → s.workers w = .goingToWait →
      ∃ s', s.run [.broadcast, .wait w] = some s' ∧ s'.destroyer.broadcasted = true ∧
        s'.workers w = .waiting) := by
  constructor
  · intro acts s halong hr hb w
    have hinit : ShutdownInv (create n α) :=
      ⟨fun hc => absurd rfl hc, fun hc => by simp [create, Destroyer.broadcasted] at hc⟩
    have hinv := Runs.invariant_along (fun _ _ _ hI hP hs => ShutdownInv.step hI hP hs) hinit halong hr
    exact (hinv.awake hb w).2
  · intro s w hd hw
    let s₁ : Pool n α :=
      { s with
        workers := fun v => if s.workers v = .waiting then .woken else s.workers v
        destroyer := .joining 0 }
    have h₁ : s.step .broadcast = some s₁ := by rw [step, if_pos hd]
    have hw₁ : s₁.workers w = .goingToWait := by simp [s₁, hw]
    refine ⟨{ s₁.goTo w .waiting with m_Mutex := none }, ?_, rfl, goTo_self _ _ _⟩
    rw [run, Runs.run_cons_of_step h₁]
    simp [Runs.run, step, hw₁]

/-- One worker sleeps and is woken by the shutdown. -/
def sampleShutdown : List (PoolStep 1 ℕ) :=
  [.lock 0, .test 0, .wait 0, .setShutdown, .broadcast, .relock 0]

/-- A worker that waits when the pool is shut down is woken. -/
theorem no_sleep_through_shutdown_one : ∃ s, (create 1 ℕ).run sampleShutdown = some s ∧
    s.destroyer.broadcasted = true ∧ s.workers 0 ≠ .waiting := by
  have halong : Runs.Along step BroadcastsClear (create 1 ℕ) sampleShutdown := by decide +kernel
  have hrun : (((create 1 ℕ).run sampleShutdown).any fun s =>
      decide (s.destroyer.broadcasted = true)) = true := by
    decide +kernel
  obtain ⟨s, hs, hd⟩ := (Option.any_eq_true _ _).1 hrun
  have hb := of_decide_eq_true hd
  exact ⟨s, hs, hb, (no_sleep_through_shutdown 1 ℕ).1 sampleShutdown s halong hs hb 0⟩

/-- **A worker sleeps through the shutdown.**  It finds the queue empty and the flag not set;
then the flag is set and the workers are woken, of which none waits; then it waits. -/
theorem worker_sleeps_through_shutdown :
    (((create 1 ℕ).run [.lock 0, .test 0, .setShutdown, .broadcast, .wait 0]).any fun s =>
      decide (s.destroyer.broadcasted = true ∧ s.workers 0 = .waiting ∧ s.signals = 0)) = true := by
  decide +kernel

end Pool

end DeviceTools
