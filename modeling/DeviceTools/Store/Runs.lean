/-
Runs of a save thread with its queue.

One inversion lemma says what an iteration does (`iterate_cases`).  From it follow the
facts about whole runs: the queue stays well formed and has only accepted events, files only
grow, and a run whose saves stay within their bounds never accesses memory outside a buffer.
-/
import DeviceTools.Store.FlushCount

namespace DeviceTools

namespace SaveThread

variable {ε π : Type} (T : SaveThread ε π) (zone : Zone)

/-- The iteration saves the queued events. -/
def Saving (tick : Tick) (s : ThreadState ε) : Prop :=
  s.stopped = false ∧ T.skips tick s.total = false ∧ T.due tick s.queue.nodes.length = true

/-- Every step of a run meets the condition, in the state in which it is made. -/
def Along (P : ThreadState ε → Action ε → Prop) (s : ThreadState ε) (as : List (Action ε)) : Prop :=
  Runs.Along (T.step zone) P s as

instance decidableSaving (tick : Tick) (s : ThreadState ε) : Decidable (T.Saving tick s) :=
  inferInstanceAs (Decidable (_ ∧ _))

instance decidableAlong {P : ThreadState ε → Action ε → Prop} [∀ s a, Decidable (P s a)] (s : ThreadState ε)
    (as : List (Action ε)) : Decidable (T.Along zone P s as) := Runs.decidableAlong (T.step zone) s as

/-- The queue is well formed and has only events that the `add` function accepts. -/
structure Inv (s : ThreadState ε) : Prop where
  valid : s.queue.Valid
  accepted : ∀ e ∈ s.queue.nodes, T.accepts e = true

variable {T zone}

lemma inv_init (d : Disk) (total : ℕ) : T.Inv (init d total) :=
  ⟨LinkQueue.valid_initQueue, by simp [init, LinkQueue.initQueue]⟩

/-- A save takes at most the batch out of the queue. -/
lemma flush_dequeued_le {io : IterIo} {d : Disk} {total : ℕ} {batch : List ε} {r : FlushResult}
    (h : T.flush zone io d total batch = some r) : r.dequeued ≤ batch.length := by
  rcases stageAll_cases (n := batch.length) d io batch 0 total [] T.clearSlots
    (T.follows_clearSlots zone) (by simp) with
    ⟨slots, hst, -, -⟩ | ⟨pre, e, post, slots, rfl, -, -, hst⟩ | ⟨hst, -⟩
  · rw [flush, hst, Option.some.injEq] at h
    subst h
    simp
  · rw [flush, hst, Option.some.injEq] at h
    subst h
    simp
  · simp [flush, hst] at h

lemma flush_extends {io : IterIo} {d : Disk} {total : ℕ} {batch : List ε} {r : FlushResult}
    (h : T.flush zone io d total batch = some r) (q : Path) :
    d.contents q <+: r.disk.contents q := by
  rw [flush_contents h]
  exact List.prefix_append _ _

/-- A save does not take a file past the limit of `off_t`. -/
lemma flush_length_le {io : IterIo} {d : Disk} {total : ℕ} {batch : List ε} {r : FlushResult}
    (h : T.flush zone io d total batch = some r) {q : Path} (hq : (d.contents q).length ≤ OFF_MAX) :
    (r.disk.contents q).length ≤ OFF_MAX := by
  rw [flush] at h
  split at h
  · simp at h
  · rw [Option.some.injEq] at h
    subst h
    exact hq
  · rw [Option.some.injEq] at h
    subst h
    exact writeAll_length_le _ _ _ _ _ hq

/-- An iteration with a save: the error counter goes up if the save fails. -/
lemma iterate_of_flush {s : ThreadState ε} (hv : s.queue.Valid) {tick : Tick} {io : IterIo}
    (hsav : T.Saving tick s) {r : FlushResult}
    (hf : T.flush zone io s.disk s.total s.queue.nodes = some r) :
    ∃ s', T.iterate zone tick io s = some s' ∧ s'.queue.Valid ∧
      s'.queue.nodes = s.queue.nodes.drop r.dequeued ∧ s'.disk = r.disk ∧ s'.total = r.total ∧
      s'.errorNum = if r.ok then s.errorNum else s.errorNum + 1 := by
  obtain ⟨hstopped, hskips, hdue⟩ := hsav
  obtain ⟨q₀, hq₀, -, -⟩ := hv.deQueueN (le_refl s.queue.nodes.length)
  rw [List.take_length] at hq₀
  obtain ⟨q₁, hq₁, hvalid, hnodes⟩ := hv.deQueueN (flush_dequeued_le hf)
  let errorNum := if r.ok then s.errorNum else s.errorNum + 1
  refine ⟨⟨q₁, r.disk, r.total, errorNum, T.stops tick || (!r.ok && decide (3 ≤ errorNum))⟩, ?_,
    hvalid, hnodes, rfl, rfl, rfl⟩
  simp only [iterate, hstopped, hskips, Bool.or_false, Bool.false_eq_true, if_false,
    hv.getQueueElemNum, hdue, Bool.true_eq_false, hq₀, hf, hq₁]
  rfl

/-- **What an iteration does.**  It does nothing but perhaps stop, or it saves all queued
events and takes those out of the queue that it got to. -/
lemma iterate_cases (T : SaveThread ε π) (zone : Zone) {s : ThreadState ε} (hv : s.queue.Valid) (tick : Tick) (io : IterIo) :
    (¬ T.Saving tick s ∧ ∃ b, T.iterate zone tick io s = some { s with stopped := b }) ∨
    (T.Saving tick s ∧ T.flush zone io s.disk s.total s.queue.nodes = none ∧
      T.iterate zone tick io s = none) ∨
    (T.Saving tick s ∧ ∃ r s', T.flush zone io s.disk s.total s.queue.nodes = some r ∧
      T.iterate zone tick io s = some s' ∧ s'.queue.Valid ∧
      s'.queue.nodes = s.queue.nodes.drop r.dequeued ∧ s'.disk = r.disk ∧ s'.total = r.total) := by
  by_cases hskip : (s.stopped || T.skips tick s.total) = true
  · refine Or.inl ⟨?_, s.stopped, by simp [iterate, hskip]⟩
    rintro ⟨h1, h2, -⟩
    simp [h1, h2] at hskip
  · have hskip' : s.stopped = false ∧ T.skips tick s.total = false := by
      simpa using hskip
    cases hdue : T.due tick s.queue.nodes.length with
    | false =>
        refine Or.inl ⟨fun h => by simp [h.2.2] at hdue, T.stops tick, ?_⟩
        simp [iterate, hskip', hv.getQueueElemNum, hdue]
    | true =>
        have hsav : T.Saving tick s := ⟨hskip'.1, hskip'.2, hdue⟩
        obtain ⟨q₀, hq₀, -, -⟩ := hv.deQueueN (le_refl s.queue.nodes.length)
        rw [List.take_length] at hq₀
        rcases hf : T.flush zone io s.disk s.total s.queue.nodes with _ | r
        · refine Or.inr (Or.inl ⟨hsav, rfl, ?_⟩)
          simp [iterate, hskip', hv.getQueueElemNum, hdue, hq₀, hf]
        · obtain ⟨s', hit, hvalid, hnodes, hdisk, htotal, -⟩ := iterate_of_flush hv hsav hf
          exact Or.inr (Or.inr ⟨hsav, r, s', rfl, hit, hvalid, hnodes, hdisk, htotal⟩)

/-- A step keeps the queue well formed. -/
lemma step_inv {s s' : ThreadState ε} {a : Action ε} (h : T.Inv s)
    (hs : T.step zone s a = some s') : T.Inv s' := by
  cases a with
  | add e =>
      simp only [step, Option.some.injEq] at hs
      subst hs
      split
      · next hacc =>
          refine ⟨h.valid.enQueue e, fun x hx => ?_⟩
          rw [LinkQueue.enQueue_nodes h.valid, List.mem_append, List.mem_singleton] at hx
          rcases hx with hx | rfl
          · exact h.accepted x hx
          · exact hacc
      · exact h
  | iterate tick io =>
      rw [step] at hs
      rcases T.iterate_cases zone h.valid tick io with
        ⟨-, b, hit⟩ | ⟨-, -, hit⟩ | ⟨-, r, s₁, -, hit, hvalid, hnodes, -, -⟩
      · rw [hit, Option.some.injEq] at hs
        subst hs
        exact ⟨h.valid, h.accepted⟩
      · simp [hit] at hs
      · rw [hit, Option.some.injEq] at hs
        subst hs
        refine ⟨hvalid, fun x hx => h.accepted x ?_⟩
        rw [hnodes] at hx
        exact List.mem_of_mem_drop hx

lemma run_inv {as : List (Action ε)} {s s' : ThreadState ε} (h : T.Inv s)
    (hr : T.run zone s as = some s') : T.Inv s' :=
  Runs.invariant (fun _ _ _ => step_inv) h hr

/-- A step only adds to files, and does not take them past the limit of `off_t`. -/
lemma step_disk {s s' : ThreadState ε} {a : Action ε} (h : T.Inv s)
    (hs : T.step zone s a = some s') (q : Path) :
    s.disk.contents q <+: s'.disk.contents q ∧
      ((s.disk.contents q).length ≤ OFF_MAX → (s'.disk.contents q).length ≤ OFF_MAX) := by
  cases a with
  | add e =>
      simp only [step, Option.some.injEq] at hs
      subst hs
      split
      · exact ⟨List.prefix_refl _, id⟩
      · exact ⟨List.prefix_refl _, id⟩
  | iterate tick io =>
      rw [step] at hs
      rcases T.iterate_cases zone h.valid tick io with
        ⟨-, b, hit⟩ | ⟨-, -, hit⟩ | ⟨-, r, s₁, hf, hit, -, -, hdisk, -⟩
      · rw [hit, Option.some.injEq] at hs
        subst hs
        exact ⟨List.prefix_refl _, id⟩
      · simp [hit] at hs
      · rw [hit, Option.some.injEq] at hs
        subst hs
        rw [hdisk]
        exact ⟨flush_extends hf q, flush_length_le hf⟩

/-- **Over a run, files only grow**, and not past the limit of `off_t`. -/
lemma run_disk {as : List (Action ε)} {s s' : ThreadState ε} (h : T.Inv s)
    (hr : T.run zone s as = some s') (q : Path) :
    s.disk.contents q <+: s'.disk.contents q ∧
      ((s.disk.contents q).length ≤ OFF_MAX → (s'.disk.contents q).length ≤ OFF_MAX) := by
  refine Runs.related (I := T.Inv) (R := fun s s' => s.disk.contents q <+: s'.disk.contents q ∧
    ((s.disk.contents q).length ≤ OFF_MAX → (s'.disk.contents q).length ≤ OFF_MAX))
    (fun s => ⟨List.prefix_refl _, id⟩) ?_ ?_ h hr
  · rintro s₁ s₂ s₃ ⟨hp, hl⟩ ⟨hp', hl'⟩
    exact ⟨hp.trans hp', fun hq => hl' (hl hq)⟩
  · intro s a s' hI hs
    exact ⟨step_inv hI hs, step_disk hI hs q⟩

variable (T zone)

/-- If the step is a save, the batch is within the bounds of the staging buffers. -/
def SavesInBounds (s : ThreadState ε) : Action ε → Prop
  | .add _ => True
  | .iterate tick _ => T.Saving tick s → T.InBounds zone s.queue.nodes

instance decidableSavesInBounds (s : ThreadState ε) : ∀ a, Decidable (T.SavesInBounds zone s a)
  | .add _ => isTrue trivial
  | .iterate _ _ => inferInstanceAs (Decidable (_ → _))

/-- If the step is a save, it does not end at the label `error`. -/
def SavesWithoutError (s : ThreadState ε) : Action ε → Prop
  | .add _ => True
  | .iterate tick io => T.Saving tick s →
      (T.flush zone io s.disk s.total s.queue.nodes).any FlushResult.ok = true

instance decidableSavesWithoutError (s : ThreadState ε) : ∀ a, Decidable (T.SavesWithoutError zone s a)
  | .add _ => isTrue trivial
  | .iterate _ _ => inferInstanceAs (Decidable (_ → _))

variable {T zone}

/-- **A run whose saves stay within the staging buffers makes no access outside a
buffer.** -/
lemma run_of_inBounds {as : List (Action ε)} {s : ThreadState ε} (h : T.Inv s)
    (halong : T.Along zone (T.SavesInBounds zone) s as) : ∃ s', T.run zone s as = some s' := by
  have hstep : ∀ s a, T.Inv s → T.SavesInBounds zone s a →
      ∃ s', T.step zone s a = some s' ∧ T.Inv s' := by
    intro s a hI ha
    have hdef : ∃ s', T.step zone s a = some s' := by
      cases a with
      | add e => exact ⟨_, rfl⟩
      | iterate tick io =>
          rcases T.iterate_cases zone hI.valid tick io with
            ⟨-, b, hit⟩ | ⟨hsav, hnone, -⟩ | ⟨-, r, s₁, -, hit, -⟩
          · exact ⟨_, hit⟩
          · obtain ⟨r, hr, -⟩ := flush_of_inBounds io s.disk s.total (ha hsav)
            rw [hnone] at hr
            simp at hr
          · exact ⟨_, hit⟩
    obtain ⟨s', hs'⟩ := hdef
    exact ⟨s', hs', step_inv hI hs'⟩
  obtain ⟨s', hs', -⟩ := Runs.progress hstep h halong
  exact ⟨s', hs'⟩

end SaveThread

end DeviceTools
