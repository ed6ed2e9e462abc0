/-
What is true of every slot of the staging array.

An event is put in a free slot, which is opened for the event's day, or in a slot that has its
day.  What a cleared slot has and both keep, every slot has when the staging loop is done
(`stageAll_invariant`).  So a slot that is not free has the file names of the day of its time
(`Labelled`), also in a batch with events of the time 0.
-/
import DeviceTools.Store.FlushCount

namespace DeviceTools

namespace SaveThread

variable {ε π : Type} (T : SaveThread ε π) (zone : Zone)

/-- A property that a cleared slot has and that is kept when an event is put in a slot. -/
structure SlotInvariant (d : Disk) (P : Slot π → Prop) : Prop where
  blank : P T.blank
  opened : ∀ e s, P s → s.time = 0 → P (T.putEvent e (T.openSlot d (zone.localtime (T.time e)) s))
  joined : ∀ e s, P s → s.time ≠ 0 → zone.localtime (T.time e) = zone.localtime s.time →
    P (T.putEvent e s)

variable {T zone}

/-- The search ends at a free slot, or at a slot that has the event's day. -/
lemma findSlot_spec {t : ℕ} : ∀ {n : ℕ} {slots : List (Slot π)} {j : ℕ} {fresh : Bool},
    findSlot zone t n slots = some (j, fresh) → j < n → ∃ s, slots[j]? = some s ∧
      (fresh = true ∧ s.time = 0 ∨
        fresh = false ∧ s.time ≠ 0 ∧ zone.localtime t = zone.localtime s.time) := by
  intro n
  induction n with
  | zero => intro slots j fresh _ hj; omega
  | succ n ih =>
      intro slots j fresh h hj
      cases slots with
      | nil => simp [findSlot] at h
      | cons s slots =>
          rw [findSlot] at h
          split_ifs at h with h0 hday
          · obtain ⟨rfl, rfl⟩ := Prod.mk.inj (Option.some.inj h)
            exact ⟨s, rfl, Or.inl ⟨rfl, h0⟩⟩
          · obtain ⟨rfl, rfl⟩ := Prod.mk.inj (Option.some.inj h)
            exact ⟨s, rfl, Or.inr ⟨rfl, h0, Tm.dataDay_inj.1 hday⟩⟩
          · obtain ⟨⟨j', fresh'⟩, h', heq⟩ := Option.map_eq_some_iff.1 h
            obtain ⟨rfl, rfl⟩ := Prod.mk.inj heq
            obtain ⟨s', hs', hspec⟩ := ih h' (by omega)
            exact ⟨s', by simpa using hs', hspec⟩

/-- The search does not run over all slots that it may look at. -/
lemma findSlot_lt {t n j : ℕ} {fresh : Bool} {slots : List (Slot π)} {ws : List Mark}
    (hfol : T.Follows zone slots ws) (hn : ws.length < n)
    (h : findSlot zone t n slots = some (j, fresh)) : j < n := by
  obtain ⟨used, rfl, -, htr⟩ := hfol
  have hused : used.length < n := by rw [htr.length_eq]; exact hn
  rcases findSlot_tracks (t := t) (m := T.MAX_OPERATE_QUEUE - used.length) htr hused with
    ⟨pre, s, post, wpre, w, wpost, fresh', rfl, -, -, -, -, hf, -⟩ | ⟨-, hf⟩
  · rw [hf] at h
    obtain ⟨rfl, -⟩ := Prod.mk.inj (Option.some.inj h)
    rw [List.length_append, List.length_cons] at hused
    omega
  · rw [hf] at h
    split_ifs at h
    obtain ⟨rfl, -⟩ := Prod.mk.inj (Option.some.inj h)
    exact hused

section
variable {d : Disk} {P : Slot π → Prop} (hP : T.SlotInvariant zone d P)
include hP

/-- One event keeps the invariant. -/
lemma stage_invariant {n total : ℕ} {slots : List (Slot π)} {ws : List Mark} {e : ε} {allocated : Bool}
    {σ : Staging π} (hfol : T.Follows zone slots ws) (hn : ws.length < n) (hall : ∀ s ∈ slots, P s)
    (h : T.stage zone d n ⟨slots, total⟩ e allocated = .done σ) : ∀ s ∈ σ.slots, P s := by
  rcases hfit : T.fitsElem e with _ | _
  · simp [stage, hfit] at h
  rcases hsave : T.saves e with _ | _
  · -- the event is dropped
    simp only [stage, hfit, hsave, Bool.true_eq_false, if_false, if_true] at h
    rw [← Flow.done.inj h]
    exact hall
  rw [stage, if_neg (by simp [hfit]), if_neg (by simp [hsave])] at h
  cases hf : findSlot zone (T.time e) n slots with
  | none => simp [hf] at h
  | some r =>
      obtain ⟨j, fresh⟩ := r
      obtain ⟨s₀, hs₀, hspec⟩ := findSlot_spec hf (findSlot_lt hfol hn hf)
      simp only [hf, hs₀] at h
      split_ifs at h
      all_goals
        rw [← Flow.done.inj h]
        intro s hs
        rcases List.mem_or_eq_of_mem_set hs with hs | rfl
        · exact hall s hs
        have hmem : P s₀ := hall s₀ (List.mem_of_getElem? hs₀)
      · rcases hspec with ⟨-, h0⟩ | ⟨hfalse, -⟩
        · exact hP.opened e s₀ hmem h0
        · simp_all
      · rcases hspec with ⟨htrue, -⟩ | ⟨-, h0, hday⟩
        · simp_all
        · exact hP.joined e s₀ hmem h0 hday

lemma stageAll_invariant_from {n : ℕ} (io : IterIo) (fs : List ε) :
    ∀ (i total : ℕ) (ts : List ℕ) (slots : List (Slot π)) {σ : Staging π} {i' : ℕ},
      T.Follows zone slots (walk zone ts) → ts.length + fs.length ≤ n → (∀ s ∈ slots, P s) →
      T.stageAll zone d n io i ⟨slots, total⟩ fs = .done (σ, i') → ∀ s ∈ σ.slots, P s := by
  induction fs with
  | nil =>
      intro i total ts slots σ i' _ _ hall h
      rw [stageAll] at h
      rw [← (Prod.mk.inj (Flow.done.inj h)).1]
      exact hall
  | cons e fs ih =>
      intro i total ts slots σ i' hfol hn hall h
      rw [List.length_cons] at hn
      have hwlen : (walk zone ts).length < n := by
        have := length_walk_le zone ts
        omega
      rw [stageAll] at h
      rcases hst : T.stage zone d n ⟨slots, total⟩ e (io.realloc i) with ⟨slots₁, total₁⟩ | σ₁ | _
      · have hall₁ := stage_invariant hP hfol hwlen hall hst
        simp only [hst] at h
        rcases hfit : T.fitsElem e with _ | _
        · simp [stage, hfit] at hst
        rcases hsave : T.saves e with _ | _
        · -- the slots are as they were
          have hsame : slots₁ = slots := by
            simp only [stage, hfit, hsave, Bool.true_eq_false, if_false, if_true, Flow.done.injEq,
              Staging.mk.injEq] at hst
            exact hst.1.symm
          exact ih (i + 1) total₁ ts slots₁ (hsame ▸ hfol) (by omega) hall₁ h
        · rcases stage_tracks d total (io.realloc i) hfol hwlen hfit hsave with
            ⟨slots₂, hst', hfol₂, -⟩ | ⟨hst', -⟩ | ⟨hst', -⟩
          · rw [hst'] at hst
            obtain ⟨rfl, -⟩ := Staging.mk.inj (Flow.done.inj hst)
            rw [← walk_concat] at hfol₂
            exact ih (i + 1) total₁ (ts ++ [T.time e]) slots₂ hfol₂ (by simp; omega) hall₁ h
          · simp [hst'] at hst
          · simp [hst'] at hst
      · simp [hst] at h
      · simp [hst] at h

/-- **Every slot of a batch that was staged has the invariant.** -/
lemma stageAll_invariant {io : IterIo} {total : ℕ} {batch : List ε} {σ : Staging π} {i : ℕ}
    (h : T.stageAll zone d batch.length io 0 ⟨T.clearSlots, total⟩ batch = .done (σ, i)) :
    ∀ s ∈ σ.slots, P s := by
  refine stageAll_invariant_from hP io batch 0 total [] T.clearSlots (T.follows_clearSlots zone)
    (by simp) ?_ h
  intro s hs
  rw [List.eq_of_mem_replicate hs]
  exact hP.blank

end

variable (T zone)

/-- A slot that is not free has the index file of the day of its time. -/
def Labelled (s : Slot π) : Prop := s.time ≠ 0 → s.indexFileName = T.indexFile (zone.localtime s.time)

variable {T zone}

lemma slotInvariant_labelled (d : Disk) : T.SlotInvariant zone d (T.Labelled zone) where
  blank h := absurd rfl h
  opened _ _ _ _ _ := rfl
  joined e s hs h0 hday _ := by
    show s.indexFileName = T.indexFile (zone.localtime (T.time e))
    rw [hs h0, hday]

end SaveThread

end DeviceTools
