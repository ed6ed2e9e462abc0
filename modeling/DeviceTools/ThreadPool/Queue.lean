/-
The queue of the thread pool.

The code tells an empty queue by the pointer to the last node, by the counter, or by the wait
condition that a worker has passed.  `QueueInv` says that they agree in every state, and that
the nodes in the queue, the nodes of calls of `Add` under way and the nodes of the workers are
all different, so that a node that is freed is not in the queue.
-/
import DeviceTools.ThreadPool.Pool

namespace DeviceTools

open LinkedCells

namespace Pool

variable {n : ℕ} {α : Type}

/-- The queue has the items `vs` in the nodes at the addresses `as`. -/
structure QueueInv (s : Pool n α) (as : List ℕ) (vs : List α) : Prop where
  linked : Linked s.heap s.m_WorkQueueFront as vs
  nodup : as.Nodup
  size : s.m_WorkQueueSize = as.length
  rear : s.m_WorkQueueRear = as.getLast?
  history : s.taken ++ vs = s.added
  fresh_nodup : s.fresh.Nodup
  fresh_cell : ∀ a ∈ s.fresh, ∃ v, s.heap a = some ⟨v, none⟩
  fresh_apart : ∀ a ∈ s.fresh, a ∉ as
  working_cell : ∀ w a, s.workers w = .working a → (s.heap a).isSome
  working_apart : ∀ w a, s.workers w = .working a → a ∉ as ∧ a ∉ s.fresh
  working_inj : ∀ v w a, s.workers v = .working a → s.workers w = .working a → v = w
  mutex : ∀ w, (s.workers w).holds = true ↔ s.m_Mutex = some w
  passed : ∀ w, s.workers w = .passed → s.m_Shutdown = false → s.m_WorkQueueSize ≠ 0
  taking : ∀ w, s.workers w = .taking → s.m_WorkQueueSize ≠ 0

lemma queueInv_create (n : ℕ) (α : Type) : QueueInv (create n α) [] [] where
  linked := .nil
  nodup := List.nodup_nil
  size := rfl
  rear := rfl
  history := rfl
  fresh_nodup := List.nodup_nil
  fresh_cell := by simp [create]
  fresh_apart := by simp
  working_cell := by simp [create]
  working_apart := by simp [create]
  working_inj := by simp [create]
  mutex := by simp [create, Worker.holds]
  passed := by simp [create]
  taking := by simp [create]

variable {s s' : Pool n α} {as : List ℕ} {vs : List α}

/-- A step that changes neither the queue nor the nodes keeps the invariant if the mutex and the
wait condition are respected. -/
lemma QueueInv.of_control (h : QueueInv s as vs) (heap : s'.heap = s.heap)
    (front : s'.m_WorkQueueFront = s.m_WorkQueueFront) (rear : s'.m_WorkQueueRear = s.m_WorkQueueRear)
    (size : s'.m_WorkQueueSize = s.m_WorkQueueSize) (fresh : s'.fresh = s.fresh)
    (added : s'.added = s.added) (taken : s'.taken = s.taken)
    (working : ∀ w a, s'.workers w = .working a → s.workers w = .working a)
    (mutex : ∀ w, (s'.workers w).holds = true ↔ s'.m_Mutex = some w)
    (passed : ∀ w, s'.workers w = .passed → s'.m_Shutdown = false → s.m_WorkQueueSize ≠ 0)
    (taking : ∀ w, s'.workers w = .taking → s.m_WorkQueueSize ≠ 0) : QueueInv s' as vs where
  linked := by rw [heap, front]; exact h.linked
  nodup := h.nodup
  size := by rw [size]; exact h.size
  rear := by rw [rear]; exact h.rear
  history := by rw [added, taken]; exact h.history
  fresh_nodup := by rw [fresh]; exact h.fresh_nodup
  fresh_cell := by rw [fresh, heap]; exact h.fresh_cell
  fresh_apart := by rw [fresh]; exact h.fresh_apart
  working_cell w a hw := by rw [heap]; exact h.working_cell w a (working w a hw)
  working_apart w a hw := by rw [fresh]; exact h.working_apart w a (working w a hw)
  working_inj v w a hv hw := h.working_inj v w a (working v a hv) (working w a hw)
  mutex := mutex
  passed w hw hs := by rw [size]; exact passed w hw hs
  taking w hw := by rw [size]; exact taking w hw

/-- A worker that goes from one place without a node to another, with the mutex given to it,
taken from it, or left as it is. -/
lemma QueueInv.goTo (h : QueueInv s as vs) (w : Fin n) (pc : Worker) {m : Option (Fin n)}
    (hpc : ∀ a, pc ≠ .working a)
    (hmutex : (pc.holds = true ∧ m = some w ∧ (s.m_Mutex = none ∨ s.m_Mutex = some w)) ∨
      (pc.holds = false ∧ s.m_Mutex = some w ∧ m = none) ∨
      (pc.holds = false ∧ s.m_Mutex ≠ some w ∧ m = s.m_Mutex))
    (passed : pc = .passed → s.m_Shutdown = false → s.m_WorkQueueSize ≠ 0)
    (taking : pc = .taking → s.m_WorkQueueSize ≠ 0) (k : ℕ) :
    QueueInv { s.goTo w pc with m_Mutex := m, signals := k } as vs := by
  refine h.of_control rfl rfl rfl rfl rfl rfl rfl (fun v a hv => ?_) (fun v => ?_)
    (fun v hv hs => ?_) (fun v hv => ?_)
  · by_cases hvw : v = w
    · subst hvw
      rw [goTo_self] at hv
      exact absurd hv (hpc a)
    · rwa [goTo_of_ne s hvw] at hv
  · by_cases hvw : v = w
    · subst hvw
      rw [goTo_self]
      rcases hmutex with ⟨hp, rfl, -⟩ | ⟨hp, -, rfl⟩ | ⟨hp, hne, rfl⟩
      · simp [hp]
      · simp [hp]
      · simp [hp, hne]
    · -- the other workers have the mutex as before
      rw [goTo_of_ne s hvw, h.mutex v]
      rcases hmutex with ⟨-, rfl, hm | hm⟩ | ⟨-, hm, rfl⟩ | ⟨-, -, rfl⟩
      · simp [hm, Ne.symm hvw]
      · simp [hm]
      · simp [hm, Ne.symm hvw]
      · rfl
  · by_cases hvw : v = w
    · subst hvw
      rw [goTo_self] at hv
      exact passed hv hs
    · rw [goTo_of_ne s hvw] at hv
      exact h.passed v hv hs
  · by_cases hvw : v = w
    · subst hvw
      rw [goTo_self] at hv
      exact taking hv
    · rw [goTo_of_ne s hvw] at hv
      exact h.taking v hv

/-! ### The steps on the nodes -/

/-- A new node is none of those in use. -/
lemma QueueInv.newWork (h : QueueInv s as vs) {a : ℕ} (ha : s.heap a = none) (item : α) :
    QueueInv { s with heap := Function.update s.heap a (some ⟨item, none⟩), fresh := a :: s.fresh }
      as vs := by
  have hqueue : a ∉ as := by
    intro hc
    obtain ⟨c, hcell⟩ := h.linked.mem hc
    rw [ha] at hcell
    simp at hcell
  have hfresh : a ∉ s.fresh := by
    intro hc
    obtain ⟨v, hcell⟩ := h.fresh_cell a hc
    rw [ha] at hcell
    simp at hcell
  have hworking : ∀ w, s.workers w ≠ .working a := by
    intro w hw
    have := h.working_cell w a hw
    simp [ha] at this
  have hother : ∀ b, b ≠ a → Function.update s.heap a (some ⟨item, none⟩) b = s.heap b :=
    fun b hb => Function.update_of_ne hb _ _
  exact
    { linked := h.linked.congr fun b hb => hother b fun hc => hqueue (hc ▸ hb)
      nodup := h.nodup
      size := h.size
      rear := h.rear
      history := h.history
      fresh_nodup := List.nodup_cons.2 ⟨hfresh, h.fresh_nodup⟩
      fresh_cell := by
        intro b hb
        by_cases hba : b = a
        · exact ⟨item, by rw [hba]; exact Function.update_self _ _ _⟩
        · obtain ⟨v, hv⟩ := h.fresh_cell b ((List.mem_cons.1 hb).resolve_left hba)
          exact ⟨v, (hother b hba).trans hv⟩
      fresh_apart := by
        intro b hb
        rcases List.mem_cons.1 hb with rfl | hb
        · exact hqueue
        · exact h.fresh_apart b hb
      working_cell := by
        intro w b hw
        have hba : b ≠ a := fun hc => hworking w (hc ▸ hw)
        show (Function.update s.heap a (some ⟨item, none⟩) b).isSome = true
        rw [hother b hba]
        exact h.working_cell w b hw
      working_apart := by
        intro w b hw
        refine ⟨(h.working_apart w b hw).1, fun hc => ?_⟩
        rcases List.mem_cons.1 hc with rfl | hc
        · exact hworking w hw
        · exact (h.working_apart w b hw).2 hc
      working_inj := h.working_inj
      mutex := h.mutex
      passed := h.passed
      taking := h.taking }

lemma QueueInv.not_holds (h : QueueInv s as vs) (hm : s.m_Mutex = none) (w : Fin n) :
    (s.workers w).holds = false := by
  have := h.mutex w
  rw [hm] at this
  simpa using this

lemma QueueInv.no_mutex (h : QueueInv s as vs) {w : Fin n} (hw : (s.workers w).holds = false) :
    s.m_Mutex ≠ some w := by
  rw [Ne, ← h.mutex w, hw]
  simp

/-- The node of a call of `Add` comes to the end of the queue. -/
lemma QueueInv.add (h : QueueInv s as vs) {a : ℕ} {v : α} (ha : a ∈ s.fresh)
    (hm : s.m_Mutex = none) (hcell : s.heap a = some ⟨v, none⟩)
    (hs : s.add a ⟨v, none⟩ = some s') : QueueInv s' (as ++ [a]) (vs ++ [v]) := by
  have hapart := h.fresh_apart a ha
  have hfresh : ∀ b ∈ s.fresh.erase a, b ∈ s.fresh ∧ b ≠ a := fun b hb =>
    ⟨List.mem_of_mem_erase hb, fun hc => (h.fresh_nodup.mem_erase_iff.1 hb).1 hc⟩
  -- what does not depend on whether the queue was empty
  have key : ∀ heap', Linked heap' (some ((as ++ [a]).head (by simp))) (as ++ [a]) (vs ++ [v]) →
      (∀ b, b ∉ as → heap' b = s.heap b) → (∀ b, (s.heap b).isSome → (heap' b).isSome) →
      QueueInv { s with
        heap := heap', m_WorkQueueSize := s.m_WorkQueueSize + 1, added := s.added ++ [v],
        fresh := s.fresh.erase a, signals := s.signals + 1,
        m_WorkQueueFront := some ((as ++ [a]).head (by simp)), m_WorkQueueRear := some a }
        (as ++ [a]) (vs ++ [v]) := by
    intro heap' hlinked hsame hsome
    exact
      { linked := hlinked
        nodup := by
          rw [List.nodup_append]
          refine ⟨h.nodup, List.nodup_singleton a, fun b hb c hc => ?_⟩
          rw [List.mem_singleton.1 hc]
          rintro rfl
          exact hapart hb
        size := by
          rw [List.length_append, List.length_singleton]
          simp [h.size]
        rear := by simp
        history := by
          show s.taken ++ (vs ++ [v]) = s.added ++ [v]
          rw [← List.append_assoc, h.history]
        fresh_nodup := h.fresh_nodup.erase a
        fresh_cell := by
          intro b hb
          obtain ⟨u, hu⟩ := h.fresh_cell b (hfresh b hb).1
          exact ⟨u, (hsame b (h.fresh_apart b (hfresh b hb).1)).trans hu⟩
        fresh_apart := by
          intro b hb hc
          rcases List.mem_append.1 hc with hc | hc
          · exact h.fresh_apart b (hfresh b hb).1 hc
          · exact (hfresh b hb).2 (List.mem_singleton.1 hc)
        working_cell := fun w b hw => hsome b (h.working_cell w b hw)
        working_apart := by
          intro w b hw
          obtain ⟨hq, hf⟩ := h.working_apart w b hw
          refine ⟨fun hc => ?_, fun hc => hf (hfresh b hc).1⟩
          rcases List.mem_append.1 hc with hc | hc
          · exact hq hc
          · rw [List.mem_singleton.1 hc] at hf
            exact hf ha
        working_inj := h.working_inj
        mutex := h.mutex
        passed := by
          intro w hw
          have := h.not_holds hm w
          rw [show s.workers w = .passed from hw] at this
          simp [Worker.holds] at this
        taking := by
          intro w hw
          have := h.not_holds hm w
          rw [show s.workers w = .taking from hw] at this
          simp [Worker.holds] at this }
  rw [Pool.add] at hs
  split at hs
  · simp at hs
  · rcases as with _ | ⟨a₀, as⟩
    · -- the queue was empty
      have hrear : s.m_WorkQueueRear = none := h.rear
      have hvs : vs = [] := List.length_eq_zero_iff.1 h.linked.length_eq.symm
      simp only [hrear, Option.some.injEq] at hs
      subst hs hvs
      exact key s.heap (.cons (c := ⟨v, none⟩) hcell .nil) (fun _ _ => rfl) fun _ hb => hb
    · obtain ⟨r, hr⟩ : ∃ r, (a₀ :: as).getLast? = some r :=
        Option.ne_none_iff_exists'.1 (by simp)
      have hmem : r ∈ a₀ :: as := List.mem_of_getLast? hr
      obtain ⟨last, hlast⟩ := h.linked.mem hmem
      have hfront : s.m_WorkQueueFront = some a₀ := h.linked.front_eq
      have hsnoc := h.linked.snoc h.nodup hr hlast hapart hcell
      rw [hfront] at hsnoc
      simp only [h.rear, hr, hlast, Option.map_some, Option.some.injEq] at hs
      have := key _ hsnoc (fun b hb => Function.update_of_ne (fun hc => hb (by rw [hc]; exact hmem)) _ _) fun b hb => by
        by_cases hbr : b = r
        · rw [hbr, Function.update_self]; rfl
        · rwa [Function.update_of_ne hbr]
      rw [← hs]
      simpa [hfront] using this

/-- A worker that is about to take a node finds one, and it is the first of the queue. -/
lemma QueueInv.dequeue (h : QueueInv s as vs) {w : Fin n} (hw : s.workers w = .taking) :
    ∃ a as' v vs' s', as = a :: as' ∧ vs = v :: vs' ∧ s.dequeue w = some s' ∧ QueueInv s' as' vs' := by
  have hmutex : s.m_Mutex = some w := (h.mutex w).1 (by rw [hw]; rfl)
  have hsize := h.taking w hw
  have hlinked := h.linked
  generalize hp : s.m_WorkQueueFront = p at hlinked
  cases hlinked with
  | nil => exact absurd h.size hsize
  | @cons a c as vs hc hrest =>
      obtain ⟨hnot, hnodup⟩ := List.nodup_cons.1 h.nodup
      have hfresh : a ∉ s.fresh := fun hc => h.fresh_apart a hc List.mem_cons_self
      have hworking : ∀ v, s.workers v ≠ .working a := fun v hv =>
        (h.working_apart v a hv).1 List.mem_cons_self
      refine ⟨a, as, c.value, vs, _, rfl, rfl, by simp only [Pool.dequeue, hp, Option.bind_some, hc]; rfl, ?_⟩
      refine
        { linked := hrest
          nodup := hnodup
          size := ?_
          rear := ?_
          history := ?_
          fresh_nodup := h.fresh_nodup
          fresh_cell := h.fresh_cell
          fresh_apart := fun b hb hc => h.fresh_apart b hb (List.mem_cons_of_mem a hc)
          working_cell := fun v b hv => ?_
          working_apart := fun v b hv => ?_
          working_inj := fun u v b hu hv => ?_
          mutex := fun v => ?_
          passed := fun v hv hsh => ?_
          taking := fun v hv => ?_ }
      · simp [h.size]
      · have hlen : s.m_WorkQueueSize - 1 = (as.length : ℤ) := by simp [h.size]
        simp only [hlen, h.rear]
        cases as with
        | nil => rfl
        | cons b bs => rw [if_neg (by simp; omega), List.getLast?_cons_cons]
      · show s.taken ++ [c.value] ++ vs = s.added
        rw [List.append_assoc, List.singleton_append, h.history]
      · by_cases hvw : v = w
        · subst hvw
          rw [show (s.goTo v (.working a)).workers v = .working a from goTo_self s v _] at hv
          cases hv
          exact Option.isSome_iff_exists.2 ⟨c, hc⟩
        · exact h.working_cell v b ((goTo_of_ne s hvw _).symm.trans hv)
      · by_cases hvw : v = w
        · subst hvw
          have hv' : Worker.working a = .working b := (goTo_self s v _).symm.trans hv
          cases hv'
          exact ⟨hnot, hfresh⟩
        · obtain ⟨hq, hf⟩ := h.working_apart v b ((goTo_of_ne s hvw _).symm.trans hv)
          exact ⟨fun hc => hq (List.mem_cons_of_mem a hc), hf⟩
      · -- no worker had the node before
        by_cases huw : u = w
        · by_cases hvw : v = w
          · rw [huw, hvw]
          · subst huw
            have hu' : Worker.working a = .working b := (goTo_self s u _).symm.trans hu
            cases hu'
            exact absurd ((goTo_of_ne s hvw _).symm.trans hv) (hworking v)
        · by_cases hvw : v = w
          · subst hvw
            have hv' : Worker.working a = .working b := (goTo_self s v _).symm.trans hv
            cases hv'
            exact absurd ((goTo_of_ne s huw _).symm.trans hu) (hworking u)
          · exact h.working_inj u v b ((goTo_of_ne s huw _).symm.trans hu)
              ((goTo_of_ne s hvw _).symm.trans hv)
      · by_cases hvw : v = w
        · subst hvw
          simp [Worker.holds]
        · have hother := h.mutex v
          rw [hmutex] at hother
          simpa [goTo_of_ne s hvw, Ne.symm hvw] using hother
      · by_cases hvw : v = w
        · subst hvw
          have hv' : Worker.working a = .passed := (goTo_self s v _).symm.trans hv
          cases hv'
        · have hv' := (goTo_of_ne s hvw _).symm.trans hv
          have := (h.mutex v).1 (by rw [hv']; rfl)
          rw [hmutex] at this
          exact absurd (Option.some.inj this).symm hvw
      · by_cases hvw : v = w
        · subst hvw
          have hv' : Worker.working a = .taking := (goTo_self s v _).symm.trans hv
          cases hv'
        · have hv' := (goTo_of_ne s hvw _).symm.trans hv
          have := (h.mutex v).1 (by rw [hv']; rfl)
          rw [hmutex] at this
          exact absurd (Option.some.inj this).symm hvw

/-- The node of a worker is freed; it is in no other hands. -/
lemma QueueInv.finish (h : QueueInv s as vs) {w : Fin n} {a : ℕ} (hw : s.workers w = .working a) :
    QueueInv { s.goTo w .top with heap := Function.update s.heap a none } as vs := by
  obtain ⟨hqueue, hfresh⟩ := h.working_apart w a hw
  have hmutex : s.m_Mutex ≠ some w := h.no_mutex (by rw [hw]; rfl)
  have htop := h.goTo w .top (m := s.m_Mutex) (by simp)
    (Or.inr (Or.inr ⟨rfl, hmutex, rfl⟩)) (by simp) (by simp) s.signals
  have hother : ∀ b, b ≠ a → Function.update s.heap a none b = s.heap b :=
    fun b hb => Function.update_of_ne hb _ _
  exact
    { linked := htop.linked.congr fun b hb => hother b fun hc => hqueue (hc ▸ hb)
      nodup := htop.nodup
      size := htop.size
      rear := htop.rear
      history := htop.history
      fresh_nodup := htop.fresh_nodup
      fresh_cell := by
        intro b hb
        obtain ⟨v, hv⟩ := h.fresh_cell b hb
        exact ⟨v, (hother b fun hc => hfresh (hc ▸ hb)).trans hv⟩
      fresh_apart := htop.fresh_apart
      working_cell := by
        intro v b hv
        have hvw : v ≠ w := by
          rintro rfl
          have : Worker.top = .working b := (goTo_self s v _).symm.trans hv
          cases this
        have hv' := (goTo_of_ne s hvw _).symm.trans hv
        have hba : b ≠ a := by
          rintro rfl
          exact hvw (h.working_inj v w b hv' hw)
        show (Function.update s.heap a none b).isSome = true
        rw [hother b hba]
        exact h.working_cell v b hv'
      working_apart := htop.working_apart
      working_inj := htop.working_inj
      mutex := htop.mutex
      passed := htop.passed
      taking := htop.taking }

/-! ### All steps -/

/-- **One step keeps the invariant**, until `Destroy` frees the queue. -/
lemma QueueInv.step {act : PoolStep n α} (h : QueueInv s as vs) (hs : s.step act = some s')
    (hfrees : s'.destroyer.frees = false) : ∃ as' vs', QueueInv s' as' vs' := by
  cases act with
  | newWork a item =>
      simp only [Pool.step, Option.ite_none_left_eq_some, Option.some.injEq] at hs
      obtain ⟨hnone, rfl⟩ := hs
      exact ⟨as, vs, h.newWork (by simpa using hnone) item⟩
  | enqueue a =>
      simp only [Pool.step, Option.ite_none_right_eq_some] at hs
      obtain ⟨⟨ha, hm⟩, hs⟩ := hs
      obtain ⟨v, hcell⟩ := h.fresh_cell a ha
      rw [hcell, Option.bind_some] at hs
      exact ⟨_, _, h.add ha hm hcell hs⟩
  | signal w =>
      cases w with
      | none =>
          simp only [Pool.step, Option.ite_none_right_eq_some, Option.some.injEq] at hs
          obtain ⟨-, rfl⟩ := hs
          exact ⟨as, vs, h.of_control rfl rfl rfl rfl rfl rfl rfl (fun _ _ hw => hw) h.mutex h.passed
            h.taking⟩
      | some w =>
          simp only [Pool.step, Option.ite_none_right_eq_some, Option.some.injEq] at hs
          obtain ⟨⟨-, hw⟩, rfl⟩ := hs
          exact ⟨as, vs, h.goTo w .woken (by simp)
            (Or.inr (Or.inr ⟨rfl, h.no_mutex (by rw [hw]; rfl), rfl⟩)) (by simp) (by simp) _⟩
  | lock w =>
      simp only [Pool.step, Option.ite_none_right_eq_some, Option.some.injEq] at hs
      obtain ⟨⟨-, hm⟩, rfl⟩ := hs
      exact ⟨as, vs, h.goTo w .testing (by simp) (Or.inl ⟨rfl, rfl, Or.inl hm⟩) (by simp) (by simp) _⟩
  | test w =>
      simp only [Pool.step, Option.ite_none_right_eq_some, Option.some.injEq] at hs
      obtain ⟨hw, rfl⟩ := hs
      have hm : s.m_Mutex = some w := (h.mutex w).1 (by rw [hw]; rfl)
      split
      · exact ⟨as, vs, h.goTo w .goingToWait (by simp) (Or.inl ⟨rfl, hm, Or.inr hm⟩) (by simp)
          (by simp) s.signals⟩
      · next hcond =>
          -- the wait condition was false: the queue is not empty, or the pool is shut down
          refine ⟨as, vs, h.goTo w .passed (by simp) (Or.inl ⟨rfl, hm, Or.inr hm⟩)
            (fun _ hsh h0 => hcond ⟨h0, hsh⟩) (by simp) s.signals⟩
  | wait w =>
      simp only [Pool.step, Option.ite_none_right_eq_some, Option.some.injEq] at hs
      obtain ⟨hw, rfl⟩ := hs
      have hm : s.m_Mutex = some w := (h.mutex w).1 (by rw [hw]; rfl)
      exact ⟨as, vs, h.goTo w .waiting (by simp) (Or.inr (Or.inl ⟨rfl, hm, rfl⟩)) (by simp) (by simp) _⟩
  | spurious w =>
      simp only [Pool.step, Option.ite_none_right_eq_some, Option.some.injEq] at hs
      obtain ⟨hw, rfl⟩ := hs
      exact ⟨as, vs, h.goTo w .woken (by simp)
        (Or.inr (Or.inr ⟨rfl, h.no_mutex (by rw [hw]; rfl), rfl⟩)) (by simp) (by simp) s.signals⟩
  | relock w =>
      simp only [Pool.step, Option.ite_none_right_eq_some, Option.some.injEq] at hs
      obtain ⟨⟨-, hm⟩, rfl⟩ := hs
      exact ⟨as, vs, h.goTo w .testing (by simp) (Or.inl ⟨rfl, rfl, Or.inl hm⟩) (by simp) (by simp) _⟩
  | checkShutdown w =>
      simp only [Pool.step, Option.ite_none_right_eq_some, Option.some.injEq] at hs
      obtain ⟨hw, rfl⟩ := hs
      have hm : s.m_Mutex = some w := (h.mutex w).1 (by rw [hw]; rfl)
      split
      · exact ⟨as, vs, h.goTo w .exited (by simp) (Or.inr (Or.inl ⟨rfl, hm, rfl⟩)) (by simp) (by simp) _⟩
      · next hsh =>
          exact ⟨as, vs, h.goTo w .taking (by simp) (Or.inl ⟨rfl, hm, Or.inr hm⟩) (by simp)
            (fun _ => h.passed w hw (by simpa using hsh)) s.signals⟩
  | take w =>
      simp only [Pool.step, Option.ite_none_right_eq_some] at hs
      obtain ⟨hw, hs⟩ := hs
      obtain ⟨a, as', v, vs', s₁, -, -, hs₁, hinv⟩ := h.dequeue hw
      rw [hs₁, Option.some.injEq] at hs
      subst hs
      exact ⟨as', vs', hinv⟩
  | finish w =>
      simp only [Pool.step] at hs
      split at hs
      · next a hw =>
          rw [Option.some.injEq] at hs
          subst hs
          exact ⟨as, vs, h.finish hw⟩
      · simp at hs
  | setShutdown =>
      simp only [Pool.step, Option.ite_none_right_eq_some, Option.some.injEq] at hs
      obtain ⟨-, rfl⟩ := hs
      exact ⟨as, vs, h.of_control rfl rfl rfl rfl rfl rfl rfl (fun _ _ hw => hw) h.mutex (by simp)
        h.taking⟩
  | broadcast =>
      simp only [Pool.step, Option.ite_none_right_eq_some, Option.some.injEq] at hs
      obtain ⟨-, rfl⟩ := hs
      have hsame : ∀ w pc, pc ≠ .woken →
          (if s.workers w = .waiting then Worker.woken else s.workers w) = pc → s.workers w = pc := by
        intro w pc hpc hw
        split at hw
        · exact absurd hw.symm hpc
        · exact hw
      refine ⟨as, vs, h.of_control rfl rfl rfl rfl rfl rfl rfl (fun w a => hsame w _ (by simp))
        (fun w => ?_) (fun w hw => h.passed w (hsame w _ (by simp) hw))
        (fun w hw => h.taking w (hsame w _ (by simp) hw))⟩
      rw [← h.mutex w]
      by_cases hw : s.workers w = .waiting <;> simp [hw, Worker.holds]
  | join =>
      simp only [Pool.step] at hs
      split at hs
      · split at hs
        · simp only [Option.ite_none_right_eq_some, Option.some.injEq] at hs
          obtain ⟨-, rfl⟩ := hs
          exact ⟨as, vs, h.of_control rfl rfl rfl rfl rfl rfl rfl (fun _ _ hw => hw) h.mutex h.passed
            h.taking⟩
        · rw [Option.some.injEq] at hs
          subst hs
          simp [Destroyer.frees] at hfrees
      · simp at hs
  | freeFront =>
      simp only [Pool.step, Option.ite_none_right_eq_some] at hs
      obtain ⟨hd, hs⟩ := hs
      exfalso
      split at hs
      · rw [Option.some.injEq] at hs
        subst hs
        simp [Destroyer.frees] at hfrees
      · rw [Option.map_eq_some_iff] at hs
        obtain ⟨c, -, rfl⟩ := hs
        simp [Destroyer.frees, hd] at hfrees

lemma frees_of_step {act : PoolStep n α} (hs : s.step act = some s')
    (h : s.destroyer.frees = true) : s'.destroyer.frees = true := by
  rcases step_destroyer hs with he | ⟨-, he, -⟩ | ⟨-, he, -⟩ | ⟨i, he, -⟩ | ⟨-, he⟩
  · rwa [he]
  · rw [he] at h; simp [Destroyer.frees] at h
  · rw [he] at h; simp [Destroyer.frees] at h
  · rw [he] at h; simp [Destroyer.frees] at h
  · rw [he]; rfl

/-- The invariant holds in every state of a run until `Destroy` frees the queue. -/
lemma queueInv_of_run {acts : List (PoolStep n α)} (hr : (create n α).run acts = some s)
    (hfrees : s.destroyer.frees = false) : ∃ as vs, QueueInv s as vs := by
  have hinv : s.destroyer.frees = true ∨ ∃ as vs, QueueInv s as vs := by
    refine Runs.invariant (I := fun s => s.destroyer.frees = true ∨ ∃ as vs, QueueInv s as vs)
      (fun s act s' hI hs => ?_) (Or.inr ⟨[], [], queueInv_create n α⟩) hr
    rcases hI with hfr | ⟨as, vs, hI⟩
    · exact Or.inl (frees_of_step hs hfr)
    · cases hd : s'.destroyer.frees with
      | true => exact Or.inl rfl
      | false => exact Or.inr (hI.step hs hd)
  exact hinv.resolve_left (by simp [hfrees])

/-- **The queue of the thread pool.**  For any number of workers, in every state that a run
reaches before `Destroy` frees the queue: the pointer to the first node leads over nodes to the
null pointer, as many as the counter says; the pointer to the last node is null exactly when the
queue is empty and points to the last of these nodes otherwise; a worker that is about to take a
node finds one; and the items taken so far, followed by the items in the queue, are the items
added, in order. -/
theorem thread_pool_queue (n : ℕ) (α : Type) (acts : List (PoolStep n α)) (s : Pool n α)
    (hr : (create n α).run acts = some s) (hfrees : s.destroyer.frees = false) :
    ∃ as vs, Linked s.heap s.m_WorkQueueFront as vs ∧ s.m_WorkQueueSize = as.length ∧
      (s.m_WorkQueueRear = none ↔ as = []) ∧ s.m_WorkQueueRear = as.getLast? ∧
      (∀ w, s.workers w = .taking → as ≠ [] ∧ ∃ s', s.step (.take w) = some s') ∧
      s.taken ++ vs = s.added := by
  obtain ⟨as, vs, h⟩ := queueInv_of_run hr hfrees
  refine ⟨as, vs, h.linked, h.size, ?_, h.rear, fun w hw => ?_, h.history⟩
  · rw [h.rear, List.getLast?_eq_none_iff]
  · obtain ⟨a, as', v, vs', s', has, -, hs', -⟩ := h.dequeue hw
    exact ⟨by simp [has], s', by rw [Pool.step, if_pos hw, hs']⟩

/-- Two items are added by two calls of `Add` that overlap, and one is taken. -/
def sampleRun : List (PoolStep 2 ℕ) :=
  [.lock 0, .test 0, .wait 0, .newWork 100 7, .newWork 200 8, .enqueue 200, .enqueue 100,
    .signal (some 0), .relock 0, .test 0, .checkShutdown 0, .take 0]

/-- The item that was queued first has been taken, and the other one is in the queue. -/
theorem thread_pool_queue_sample : ∃ s vs, (create 2 ℕ).run sampleRun = some s ∧
    s.taken = [8] ∧ s.added = [8, 7] ∧ s.taken ++ vs = s.added ∧ vs.length = 1 := by
  have hrun : (((create 2 ℕ).run sampleRun).any fun s =>
      decide (s.destroyer.frees = false ∧ s.taken = [8] ∧ s.added = [8, 7])) = true := by
    decide +kernel
  obtain ⟨s, hs, hd⟩ := (Option.any_eq_true _ _).1 hrun
  obtain ⟨hfrees, htaken, hadded⟩ := of_decide_eq_true hd
  obtain ⟨as, vs, -, -, -, -, -, hist⟩ := thread_pool_queue 2 ℕ sampleRun s hs hfrees
  refine ⟨s, vs, hs, htaken, hadded, hist, ?_⟩
  have := congrArg List.length hist
  simpa [htaken, hadded] using this

end Pool

end DeviceTools
