/-
The staging loop follows the slot walk.

Whatever the times of a batch, the staging array is a row of used slots, which are tracked
by the walk over the times, and cleared slots behind them.  An access outside a buffer can
only happen when the walk leaves its bounds (`stageAll_cases`).
-/
import DeviceTools.Store.SlotWalk
import DeviceTools.Store.FlushSpec

namespace DeviceTools

namespace SaveThread

variable {ε π : Type} (T : SaveThread ε π) (zone : Zone)

/-- The slot is in the state that the walk says. -/
structure Tracks (s : Slot π) (w : Mark) : Prop where
  mark : w.1 = markOf zone s.time
  len : s.indexBuffer.length = w.2 * T.sizeofIndex

variable {T zone}

/-- Where the search ends: at the used slot that the walk takes, or behind the used slots,
which is outside the array if no cleared slot is left. -/
lemma findSlot_tracks {t n m : ℕ} {used : List (Slot π)} {ws : List Mark}
    (h : List.Forall₂ (T.Tracks zone) used ws) (hn : used.length < n) :
    (∃ pre s post wpre w wpost fresh, used = pre ++ s :: post ∧ ws = wpre ++ w :: wpost ∧
      List.Forall₂ (T.Tracks zone) pre wpre ∧ T.Tracks zone s w ∧
      List.Forall₂ (T.Tracks zone) post wpost ∧
      findSlot zone t n (used ++ List.replicate m T.blank) = some (pre.length, fresh) ∧
      takeSlot zone t ws = wpre ++ (markOf zone t, w.2 + 1) :: wpost) ∨
    (takeSlot zone t ws = ws ++ [(markOf zone t, 1)] ∧
      findSlot zone t n (used ++ List.replicate m T.blank) =
        if m = 0 then none else some (used.length, true)) := by
  induction h generalizing n with
  | nil =>
      obtain ⟨n, rfl⟩ : ∃ k, n = k + 1 := ⟨n - 1, by simp at hn; omega⟩
      refine Or.inr ⟨rfl, ?_⟩
      cases m with
      | zero => simp [findSlot]
      | succ m => simp [findSlot, List.replicate_succ, blank]
  | @cons s w used ws hs hrest ih =>
      obtain ⟨n, rfl⟩ : ∃ k, n = k + 1 := ⟨n - 1, by simp at hn; omega⟩
      have hmark := hs.mark
      by_cases h0 : s.time = 0
      · -- the slot is marked free
        have hw : w.1 = none := by simpa [markOf, h0] using hmark
        refine Or.inl ⟨[], s, used, [], w, ws, true, rfl, rfl, .nil, hs, hrest, ?_, ?_⟩
        · simp [findSlot, h0]
        · simp [takeSlot, hw]
      · have hw : w.1 = some (zone.localtime s.time) := by simpa [markOf, h0] using hmark
        by_cases hd : zone.localtime t = zone.localtime s.time
        · -- the slot has the event's day
          refine Or.inl ⟨[], s, used, [], w, ws, false, rfl, rfl, .nil, hs, hrest, ?_, ?_⟩
          · simp [findSlot, h0, hd]
          · simp [takeSlot, hw, hd]
        · have hd' : ¬ (zone.localtime t).dataDay = (zone.localtime s.time).dataDay :=
            fun hc => hd (Tm.dataDay_inj.1 hc)
          have hskip : takeSlot zone t (w :: ws) = w :: takeSlot zone t ws := by
            rw [takeSlot, if_neg]
            rw [hw]
            simp only [reduceCtorEq, Option.some.injEq, false_or]
            exact fun hc => hd hc.symm
          have hfind : findSlot zone t (n + 1) (s :: used ++ List.replicate m T.blank) =
              (findSlot zone t n (used ++ List.replicate m T.blank)).map
                fun r => (r.1 + 1, r.2) := by
            rw [List.cons_append, findSlot, if_neg h0, if_neg hd']
          rcases ih (by simpa using hn) with
            ⟨pre, s', post, wpre, w', wpost, fresh, rfl, rfl, hpre, hs', hpost, hf, ht⟩ | ⟨ht, hf⟩
          · refine Or.inl ⟨s :: pre, s', post, w :: wpre, w', wpost, fresh, rfl, rfl,
              .cons hs hpre, hs', hpost, ?_, ?_⟩
            · rw [hfind, hf]
              rfl
            · rw [hskip, ht]
              rfl
          · refine Or.inr ⟨by rw [hskip, ht]; rfl, ?_⟩
            rw [hfind, hf]
            cases m <;> simp

/-- Putting an event in a slot moves the slot as the walk says. -/
lemma Tracks.putEvent {s : Slot π} {c : ℕ} (e : ε)
    (h : s.indexBuffer.length = c * T.sizeofIndex) :
    T.Tracks zone (T.putEvent e s) (markOf zone (T.time e), c + 1) := by
  refine ⟨rfl, ?_⟩
  simp only [SaveThread.putEvent, List.length_append, h, T.logIndex_length]
  ring

variable (T zone)

/-- The staging array is what the walk over the times tells. -/
def Follows (slots : List (Slot π)) (ws : List Mark) : Prop :=
  ∃ used, slots = used ++ List.replicate (T.MAX_OPERATE_QUEUE - used.length) T.blank ∧
    used.length ≤ T.MAX_OPERATE_QUEUE ∧ List.Forall₂ (T.Tracks zone) used ws

lemma follows_clearSlots : T.Follows zone T.clearSlots [] :=
  ⟨[], by simp [clearSlots], by simp, .nil⟩

/-- The number of index records that fit the index buffer of a slot. -/
def perSlot : ℕ := T.indexBufferSize / T.sizeofIndex

variable {T zone}

lemma room_iff (c : ℕ) : c * T.sizeofIndex + T.sizeofIndex ≤ T.indexBufferSize ↔
    c + 1 ≤ T.perSlot := by
  rw [perSlot, Nat.le_div_iff_mul_le T.sizeofIndex_pos]
  constructor <;> intro h <;> linarith

/-- **One event of the staging loop follows the walk**, ends at a failed `realloc`, or
accesses memory outside a buffer because the walk leaves its bounds. -/
lemma stage_tracks (d : Disk) {n : ℕ} (total : ℕ) {slots : List (Slot π)} {ws : List Mark} {e : ε}
    (allocated : Bool) (hfol : T.Follows zone slots ws) (hn : ws.length < n)
    (hfit : T.fitsElem e = true) (hsave : T.saves e = true) :
    (∃ slots', T.stage zone d n ⟨slots, total⟩ e allocated = .done ⟨slots', total + 1⟩ ∧
      T.Follows zone slots' (takeSlot zone (T.time e) ws) ∧
      (T.reallocs && !allocated) = false) ∨
    (T.stage zone d n ⟨slots, total⟩ e allocated = .error ⟨slots, total⟩ ∧
      (T.reallocs && !allocated) = true) ∨
    (T.stage zone d n ⟨slots, total⟩ e allocated = .undefined ∧
      ¬ Bounded T.MAX_OPERATE_QUEUE T.perSlot (takeSlot zone (T.time e) ws)) := by
  obtain ⟨used, rfl, hused, htr⟩ := hfol
  have hlen : used.length < n := by rw [htr.length_eq]; exact hn
  rw [stage, if_neg (by simp [hfit]), if_neg (by simp [hsave])]
  rcases findSlot_tracks (t := T.time e) (m := T.MAX_OPERATE_QUEUE - used.length) htr hlen with
    ⟨pre, s, post, wpre, w, wpost, fresh, rfl, rfl, hpre, hs, hpost, hf, ht⟩ | ⟨ht, hf⟩
  · -- a used slot
    have hget : (pre ++ s :: post ++
        List.replicate (T.MAX_OPERATE_QUEUE - (pre ++ s :: post).length) T.blank)[pre.length]?
          = some s := by
      rw [List.append_assoc, List.getElem?_append_right le_rfl]
      simp
    rw [hf]
    simp only [hget]
    set s' := if fresh then T.openSlot d (zone.localtime (T.time e)) s else s with hs'
    have hbuf : s'.indexBuffer = s.indexBuffer := by
      rw [hs']
      split <;> rfl
    cases hall : (T.reallocs && !allocated) with
    | true => exact Or.inr (Or.inl ⟨by simp, rfl⟩)
    | false =>
        rw [hbuf, hs.len]
        by_cases hroom : w.2 * T.sizeofIndex + T.sizeofIndex ≤ T.indexBufferSize
        · refine Or.inl ⟨_, by rw [if_neg (by simp), if_neg (not_lt.2 hroom)], ?_, rfl⟩
          refine ⟨pre ++ T.putEvent e s' :: post, ?_, by simpa using hused, ?_⟩
          · rw [List.append_assoc, List.set_append_right _ _ le_rfl]
            simp
          · rw [ht]
            exact List.rel_append hpre (.cons (Tracks.putEvent e (by rw [hbuf, hs.len])) hpost)
        · refine Or.inr (Or.inr ⟨by rw [if_neg (by simp), if_pos (not_le.1 hroom)], ?_⟩)
          rintro ⟨-, hb⟩
          rw [room_iff] at hroom
          exact hroom (hb (markOf zone (T.time e), w.2 + 1) (by simp [ht]))
  · by_cases hm : T.MAX_OPERATE_QUEUE - used.length = 0
    · -- the search has left the array
      rw [hf, if_pos hm]
      refine Or.inr (Or.inr ⟨rfl, ?_⟩)
      rintro ⟨hb, -⟩
      rw [ht, List.length_append, ← htr.length_eq, List.length_singleton] at hb
      omega
    · -- the first cleared slot
      obtain ⟨r, hr⟩ : ∃ r, T.MAX_OPERATE_QUEUE - used.length = r + 1 :=
        ⟨T.MAX_OPERATE_QUEUE - used.length - 1, by omega⟩
      have hget : (used ++ List.replicate (T.MAX_OPERATE_QUEUE - used.length)
          T.blank)[used.length]? = some T.blank := by
        rw [hr, List.getElem?_append_right le_rfl]
        simp
      rw [hf, if_neg hm]
      simp only [hget, if_true]
      cases hall : (T.reallocs && !allocated) with
      | true => exact Or.inr (Or.inl ⟨by simp, rfl⟩)
      | false =>
          have hbuf : (T.openSlot d (zone.localtime (T.time e)) T.blank).indexBuffer.length
              = 0 * T.sizeofIndex := by
            simp [openSlot, blank]
          rw [hbuf]
          by_cases hroom : 0 * T.sizeofIndex + T.sizeofIndex ≤ T.indexBufferSize
          · refine Or.inl ⟨_, by rw [if_neg (by simp), if_neg (not_lt.2 hroom)], ?_, rfl⟩
            refine ⟨used ++ [T.putEvent e (T.openSlot d (zone.localtime (T.time e)) T.blank)],
              ?_, by simp; omega, ?_⟩
            · have hr' : T.MAX_OPERATE_QUEUE - (used.length + 1) = r := by omega
              rw [hr, List.set_append_right _ _ le_rfl]
              simp [List.replicate_succ, hr']
            · rw [ht]
              exact List.rel_append htr (.cons (Tracks.putEvent e hbuf) .nil)
          · refine Or.inr (Or.inr ⟨by rw [if_neg (by simp), if_pos (not_le.1 hroom)], ?_⟩)
            rintro ⟨-, hb⟩
            rw [room_iff] at hroom
            exact hroom (hb (markOf zone (T.time e), 1) (by simp [ht]))

variable (T zone)

/-- The times of the events that pass the test of the operation type. -/
def savedTimes (es : List ε) : List ℕ := (es.filter fun e => T.saves e).map T.time

/-- Every event fits the element buffer, and the slot walk over the batch stays within the
slots and within the index buffers. -/
structure InBounds (batch : List ε) : Prop where
  elem : ∀ e ∈ batch, T.fitsElem e = true
  walk : Bounded T.MAX_OPERATE_QUEUE T.perSlot (walk zone (T.savedTimes batch))

instance decidableInBounds (batch : List ε) : Decidable (T.InBounds zone batch) :=
  decidable_of_iff ((∀ e ∈ batch, T.fitsElem e = true) ∧
      Bounded T.MAX_OPERATE_QUEUE T.perSlot (DeviceTools.walk zone (T.savedTimes batch)))
    ⟨fun h => ⟨h.1, h.2⟩, fun h => ⟨h.1, h.2⟩⟩

/-- The `realloc` for the event behind `pre` fails. -/
def AllocFails (io : IterIo) (i : ℕ) (pre : List ε) (e : ε) : Prop :=
  T.saves e = true ∧ T.reallocs = true ∧ io.realloc (i + pre.length) = false

/-- No `realloc` of the batch fails. -/
def AllocOk (io : IterIo) (i : ℕ) (batch : List ε) : Prop :=
  ∀ pre e post, batch = pre ++ e :: post → ¬ T.AllocFails io i pre e

variable {T zone}

@[simp] lemma savedTimes_nil : T.savedTimes [] = [] := rfl

lemma savedTimes_cons_of_saves {e : ε} (h : T.saves e = true) (es : List ε) :
    T.savedTimes (e :: es) = T.time e :: T.savedTimes es := by
  simp [savedTimes, h]

lemma savedTimes_cons_of_not_saves {e : ε} (h : T.saves e = false) (es : List ε) :
    T.savedTimes (e :: es) = T.savedTimes es := by
  simp [savedTimes, h]

lemma AllocOk.cons {io : IterIo} {i : ℕ} {e : ε} {es : List ε}
    (he : ¬ T.AllocFails io i [] e) (h : T.AllocOk io (i + 1) es) : T.AllocOk io i (e :: es) := by
  intro pre x post hsplit
  cases pre with
  | nil =>
      simp only [List.nil_append, List.cons.injEq] at hsplit
      rw [← hsplit.1]
      exact he
  | cons y pre =>
      simp only [List.cons_append, List.cons.injEq] at hsplit
      obtain ⟨rfl, rfl⟩ := hsplit
      have := h pre x post rfl
      simpa [AllocFails, Nat.add_assoc, Nat.add_comm 1] using this

/-- **How the staging loop ends.**  It stages the whole batch along the walk, or it ends at
the first `realloc` that fails, or it accesses memory outside a buffer, which takes an event
that is too long or a walk that leaves its bounds. -/
lemma stageAll_cases (d : Disk) {n : ℕ} (io : IterIo) (fs : List ε) :
    ∀ (i total : ℕ) (ts : List ℕ) (slots : List (Slot π)), T.Follows zone slots (walk zone ts) →
      ts.length + fs.length ≤ n →
      (∃ slots', T.stageAll zone d n io i ⟨slots, total⟩ fs =
          .done (⟨slots', total + (T.savedTimes fs).length⟩, i + fs.length) ∧
        T.Follows zone slots' (walk zone (ts ++ T.savedTimes fs)) ∧ T.AllocOk io i fs) ∨
      (∃ pre e post slots', fs = pre ++ e :: post ∧ T.AllocFails io i pre e ∧
        T.AllocOk io i pre ∧ T.stageAll zone d n io i ⟨slots, total⟩ fs =
          .error (⟨slots', total + (T.savedTimes pre).length⟩, i + pre.length + 1)) ∨
      (T.stageAll zone d n io i ⟨slots, total⟩ fs = .undefined ∧
        ((∃ e ∈ fs, T.fitsElem e = false) ∨
          ¬ Bounded T.MAX_OPERATE_QUEUE T.perSlot (walk zone (ts ++ T.savedTimes fs)))) := by
  induction fs with
  | nil =>
      intro i total ts slots hfol _
      exact Or.inl ⟨slots, by simp [stageAll], by simpa using hfol, fun _ _ _ h => by simp at h⟩
  | cons e fs ih =>
      intro i total ts slots hfol hn
      rw [List.length_cons] at hn
      rcases hfit : T.fitsElem e with _ | _
      · exact Or.inr (Or.inr ⟨by simp [stageAll, stage, hfit], Or.inl ⟨e, by simp, hfit⟩⟩)
      rcases hsave : T.saves e with _ | _
      · -- the event is taken out of the queue and dropped
        have hstep : T.stage zone d n ⟨slots, total⟩ e (io.realloc i) = .done ⟨slots, total⟩ := by
          simp [stage, hfit, hsave]
        have hnf : ¬ T.AllocFails io i [] e := fun h => by simp [AllocFails, hsave] at h
        rw [savedTimes_cons_of_not_saves hsave]
        rcases ih (i + 1) total ts slots hfol (by omega) with
          ⟨slots', h, hfol', hok⟩ | ⟨pre, x, post, slots', rfl, hx, hok, h⟩ | ⟨h, hbad⟩
        · refine Or.inl ⟨slots', ?_, hfol', hok.cons hnf⟩
          simp only [stageAll, hstep, h, List.length_cons]
          congr 2
          omega
        · refine Or.inr (Or.inl ⟨e :: pre, x, post, slots', rfl, ?_, hok.cons hnf, ?_⟩)
          · simpa [AllocFails, Nat.add_assoc, Nat.add_comm 1] using hx
          · simp only [stageAll, hstep, h, List.length_cons, savedTimes_cons_of_not_saves hsave]
            congr 2
            omega
        · refine Or.inr (Or.inr ⟨by simp only [stageAll, hstep, h], ?_⟩)
          rcases hbad with ⟨x, hx, hx'⟩ | hbad
          · exact Or.inl ⟨x, by simp [hx], hx'⟩
          · exact Or.inr hbad
      · have hwlen : (walk zone ts).length < n := by
          have := length_walk_le zone ts
          omega
        have hts : ts ++ T.savedTimes (e :: fs) = (ts ++ [T.time e]) ++ T.savedTimes fs := by
          simp [savedTimes_cons_of_saves hsave]
        rcases stage_tracks d total (io.realloc i) hfol hwlen hfit hsave with
          ⟨slots₁, hstep, hfol₁, hall⟩ | ⟨hstep, hall⟩ | ⟨hstep, hbad⟩
        · have hnf : ¬ T.AllocFails io i [] e := by
            rintro ⟨-, hr, hf⟩
            simp only [List.length_nil, Nat.add_zero] at hf
            simp [hr, hf] at hall
          rw [← walk_concat] at hfol₁
          rw [hts]
          rcases ih (i + 1) (total + 1) (ts ++ [T.time e]) slots₁ hfol₁
            (by simp; omega) with
            ⟨slots', h, hfol', hok⟩ | ⟨pre, x, post, slots', rfl, hx, hok, h⟩ | ⟨h, hbad⟩
          · refine Or.inl ⟨slots', ?_, hfol', hok.cons hnf⟩
            simp only [stageAll, hstep, h, List.length_cons, savedTimes_cons_of_saves hsave]
            congr 2
            · congr 1
              omega
            · omega
          · refine Or.inr (Or.inl ⟨e :: pre, x, post, slots', rfl, ?_, hok.cons hnf, ?_⟩)
            · simpa [AllocFails, Nat.add_assoc, Nat.add_comm 1] using hx
            · simp only [stageAll, hstep, h, List.length_cons, savedTimes_cons_of_saves hsave]
              congr 2
              · congr 1
                omega
              · omega
          · refine Or.inr (Or.inr ⟨by simp only [stageAll, hstep, h], ?_⟩)
            rcases hbad with ⟨x, hx, hx'⟩ | hbad
            · exact Or.inl ⟨x, by simp [hx], hx'⟩
            · exact Or.inr hbad
        · refine Or.inr (Or.inl ⟨[], e, fs, slots, rfl, ?_, fun _ _ _ h => by simp at h, ?_⟩)
          · refine ⟨hsave, ?_, ?_⟩
            · cases hr : T.reallocs <;> simp [hr] at hall ⊢
            · cases ha : io.realloc i <;> simp [ha] at hall ⊢
          · simp [stageAll, hstep]
        · refine Or.inr (Or.inr ⟨by simp only [stageAll, hstep], Or.inr ?_⟩)
          rw [hts]
          intro hb
          have := hb.of_walk_append
          rw [walk_concat] at this
          exact hbad this

/-- **A save whose walk stays within its bounds accesses only its buffers.** -/
lemma flush_of_inBounds (io : IterIo) (d : Disk) (total : ℕ) {batch : List ε}
    (h : T.InBounds zone batch) : ∃ r, T.flush zone io d total batch = some r ∧
      r.dequeued ≤ batch.length := by
  rcases stageAll_cases (n := batch.length) d io batch 0 total [] T.clearSlots
    (T.follows_clearSlots zone) (by simp) with
    ⟨slots, hst, -, -⟩ | ⟨pre, e, post, slots, rfl, -, -, hst⟩ | ⟨-, hbad⟩
  · refine ⟨_, by rw [flush, hst], ?_⟩
    simp
  · refine ⟨_, by rw [flush, hst], ?_⟩
    simp
  · rcases hbad with ⟨e, he, hfalse⟩ | hbad
    · simp [h.elem e he] at hfalse
    · exact absurd h.walk hbad

/-- A batch that fits its buffers by days is within the bounds of the walk. -/
lemma Fits.inBounds {batch : List ε} (hz : T.ZeroFree batch) (hfit : T.Fits zone batch) :
    T.InBounds zone batch := by
  refine ⟨hfit.elem, ?_⟩
  have hz' : ∀ e ∈ batch.filter (fun e => T.saves e), T.time e ≠ 0 :=
    fun e he => hz e (List.mem_filter.1 he).1
  rw [savedTimes, walk_eq_groups zone T.time hz']
  constructor
  · rw [List.length_map, FirstFit.length_groups]
    refine le_trans (Finset.card_le_card ?_) hfit.days
    intro k hk
    simp only [List.mem_toFinset, List.mem_map, List.mem_filter] at hk ⊢
    obtain ⟨e, ⟨he, -⟩, rfl⟩ := hk
    exact ⟨e, he, rfl⟩
  · intro w hw
    obtain ⟨⟨k, xs⟩, hg, rfl⟩ := List.mem_map.1 hw
    rw [perSlot, Nat.le_div_iff_mul_le T.sizeofIndex_pos]
    refine le_trans (Nat.mul_le_mul_right _ ?_) (hfit.perDay k)
    rw [FirstFit.mem_groups _ hg]
    exact (List.Sublist.filter _ List.filter_sublist).length_le

end SaveThread

end DeviceTools
