/-
The counter of stored records.

A save adds 1 to the counter for each event it stages, and afterwards writes the slots up
to the first that is marked free, or up to the first append that is not complete.  Here it
is determined when the change of the counter is the number of index records that reached
the disk.
-/
import DeviceTools.Store.FlushBounds

namespace DeviceTools

namespace SaveThread

variable {ε π : Type} {T : SaveThread ε π} {zone : Zone}

/-- The slots that the write loop reaches are those before the first that the walk leaves
marked free. -/
lemma takeWhile_tracks {used : List (Slot π)} {ws : List Mark} (m : ℕ)
    (h : List.Forall₂ (T.Tracks zone) used ws) :
    List.Forall₂ (T.Tracks zone)
      ((used ++ List.replicate m T.blank).takeWhile fun s => s.time ≠ 0)
      (ws.takeWhile fun w => w.1.isSome) := by
  induction h with
  | nil =>
      cases m with
      | zero => simp
      | succ m => simp [List.replicate_succ, blank]
  | @cons s w used ws hs _ ih =>
      have hmark := hs.mark
      by_cases h0 : s.time = 0
      · have hw : w.1 = none := by simpa [markOf, h0] using hmark
        simp [h0, hw]
      · have hw : w.1 = some (zone.localtime s.time) := by simpa [markOf, h0] using hmark
        simpa [h0, hw, hs] using ih

/-- The index records that one slot appends. -/
lemma completeRecords_appends {s : Slot π} {w : Mark} (h : T.Tracks zone s w) :
    completeRecords T.sizeofIndex (T.appends s) = w.2 := by
  have hpic : ∀ as : List Append, (∀ a ∈ as, a.isIndex = false) →
      completeRecords T.sizeofIndex as = 0 := by
    intro as has
    have : as.filter Append.isIndex = [] := by
      rw [List.filter_eq_nil_iff]
      intro a ha
      simp [has a ha]
    simp [completeRecords, this]
  rw [appends, completeRecords_append, hpic _ (T.picAppends_isIndex s.pic)]
  simp [completeRecords_cons, h.len, Nat.mul_div_cancel _ T.sizeofIndex_pos]

lemma completeRecords_flatMap {ss : List (Slot π)} {ws : List Mark}
    (h : List.Forall₂ (T.Tracks zone) ss ws) :
    completeRecords T.sizeofIndex (ss.flatMap T.appends) = (ws.map Prod.snd).sum := by
  induction h with
  | nil => simp
  | cons hs _ ih =>
      rw [List.flatMap_cons, completeRecords_append, completeRecords_appends hs, ih]
      simp

/-- The appends of a row of slots end with an index buffer that holds a record. -/
lemma flatMap_appends_eq_concat {ss : List (Slot π)} {ws : List Mark}
    (h : List.Forall₂ (T.Tracks zone) ss ws) (hpos : ∀ w ∈ ws, 0 < w.2) (hne : ss ≠ []) :
    ∃ as b c, ss.flatMap T.appends = as ++ [b] ∧ b.isIndex = true ∧
      b.bytes.length = (c + 1) * T.sizeofIndex := by
  induction h with
  | nil => exact absurd rfl hne
  | @cons s w ss ws hs hrest ih =>
      by_cases hss : ss = []
      · subst hss
        have hw : 0 < w.2 := hpos w (by simp)
        refine ⟨T.picAppends s.pic, ⟨true, s.indexFileName, s.indexBuffer⟩, w.2 - 1, ?_, rfl, ?_⟩
        · simp [appends]
        · rw [hs.len]
          congr 1
          omega
      · obtain ⟨as, b, c, heq, hb, hc⟩ := ih (fun x hx => hpos x (by simp [hx])) hss
        exact ⟨T.appends s ++ as, b, c, by simp [heq], hb, hc⟩

/-- The slots before the first free mark hold all events exactly when no slot is left
marked free. -/
lemma sum_takeWhile_eq_iff {ws : List Mark} (hpos : ∀ w ∈ ws, 0 < w.2) :
    ((ws.takeWhile fun w => w.1.isSome).map Prod.snd).sum = (ws.map Prod.snd).sum ↔
      ∀ w ∈ ws, w.1 ≠ none := by
  induction ws with
  | nil => simp
  | cons w ws ih =>
      have hw := hpos w (by simp)
      cases hm : w.1 with
      | none =>
          simp only [List.takeWhile_cons, hm, Option.isSome_none, Bool.false_eq_true, if_false,
            List.map_nil, List.sum_nil, List.map_cons, List.sum_cons]
          constructor
          · omega
          · intro h
            exact absurd hm (h w (by simp))
      | some k =>
          have := ih fun x hx => hpos x (by simp [hx])
          simp only [List.takeWhile_cons, hm, Option.isSome_some, if_true, List.map_cons,
            List.sum_cons, Nat.add_left_cancel_iff, this, List.mem_cons, forall_eq_or_imp,
            ne_eq, reduceCtorEq, not_false_eq_true, true_and]

lemma sum_takeWhile_le (ws : List Mark) :
    ((ws.takeWhile fun w => w.1.isSome).map Prod.snd).sum ≤ (ws.map Prod.snd).sum :=
  List.Sublist.sum_le_sum ((List.takeWhile_sublist _).map _) (by simp)

/-- The write loop puts all staged records on the disk exactly when every append is
completed and no slot is left marked free. -/
lemma writeAll_records_iff {io : ℕ → AppendIo} {d : Disk} {slots : List (Slot π)} {ts : List ℕ}
    (hfol : T.Follows zone slots (walk zone ts)) :
    completeRecords T.sizeofIndex (writeAll io 0 d (T.allAppends slots)).2.2 = ts.length ↔
      Completes io 0 d (T.allAppends slots) ∧ ∀ w ∈ walk zone ts, w.1 ≠ none := by
  obtain ⟨used, rfl, -, htr⟩ := hfol
  have htw := takeWhile_tracks (T.MAX_OPERATE_QUEUE - used.length) htr
  have hpos := pos_of_mem_walk zone ts
  rw [← sum_takeWhile_eq_iff hpos, sum_walk, ← writeAll_ok_iff, allAppends,
    ← completeRecords_flatMap htw]
  set ss := (used ++ List.replicate (T.MAX_OPERATE_QUEUE - used.length) T.blank).takeWhile
    fun s => s.time ≠ 0 with hss
  cases hok : (writeAll io 0 d (ss.flatMap T.appends)).2.1 with
  | true => simp [writeAll_trace_of_ok io _ 0 d hok]
  | false =>
      have hne : ss ≠ [] := by
        rintro hnil
        simp [hnil, writeAll] at hok
      obtain ⟨as, b, c, heq, hb, hc⟩ := flatMap_appends_eq_concat htw
        (fun w hw => hpos w ((List.takeWhile_sublist _).mem hw)) hne
      rw [heq] at hok
      have hlt := completeRecords_lt_of_not_ok T.sizeofIndex_pos hb hc as 0 d hok
      rw [← heq, completeRecords_flatMap htw] at hlt
      have hle := sum_takeWhile_le (walk zone ts)
      rw [sum_walk] at hle
      simp only [Bool.false_eq_true, false_and, iff_false]
      omega

variable (T zone)

/-- No step of the save fails: no `realloc`, no `open`, no `write`. -/
structure IoOk (io : IterIo) (d : Disk) (total : ℕ) (batch : List ε) : Prop where
  alloc : T.AllocOk io 0 batch
  append : ∀ σ i, T.stageAll zone d batch.length io 0 ⟨T.clearSlots, total⟩ batch =
    .done (σ, i) → Completes io.append 0 d (T.allAppends σ.slots)

/-- The first `realloc` of the batch fails. -/
def AllocFailsFirst (io : IterIo) (batch : List ε) : Prop :=
  ∃ pre e post, batch = pre ++ e :: post ∧ (∀ x ∈ pre, T.saves x = false) ∧
    T.AllocFails io 0 pre e

/-- The condition under which a save counts right: no step of it fails and the slot walk
leaves no slot marked free, or the first `realloc` fails. -/
def CountsRight (io : IterIo) (d : Disk) (total : ℕ) (batch : List ε) : Prop :=
  (T.IoOk zone io d total batch ∧ ∀ w ∈ walk zone (T.savedTimes batch), w.1 ≠ none) ∨
    T.AllocFailsFirst io batch

variable {T zone}

/-- Nothing failed in a save that did not end at the label `error`. -/
lemma ioOk_of_flush {io : IterIo} {d : Disk} {total : ℕ} {batch : List ε}
    (h : (T.flush zone io d total batch).any FlushResult.ok = true) : T.IoOk zone io d total batch := by
  obtain ⟨r, hr, hok⟩ := (Option.any_eq_true _ _).1 h
  rcases stageAll_cases (n := batch.length) d io batch 0 total [] T.clearSlots
    (T.follows_clearSlots zone) (by simp) with
    ⟨slots, hst, -, halloc⟩ | ⟨pre, e, post, slots, rfl, -, -, hst⟩ | ⟨hst, -⟩
  · rw [flush, hst, Option.some.injEq] at hr
    subst hr
    refine ⟨halloc, fun σ i hσ => ?_⟩
    rw [hst] at hσ
    obtain ⟨rfl, -⟩ := Prod.mk.inj (Flow.done.inj hσ)
    exact (writeAll_ok_iff _ _ _ _).1 hok
  · rw [flush, hst, Option.some.injEq] at hr
    subst hr
    exact absurd hok Bool.false_ne_true
  · simp [flush, hst] at hr

lemma savedTimes_eq_nil_iff {es : List ε} :
    (T.savedTimes es).length = 0 ↔ ∀ x ∈ es, T.saves x = false := by
  simp [savedTimes]

/-- **When the counter is right.**  The change of the counter is the number of complete
index records on disk exactly when no step of the save fails and no slot is left marked
free, or when the first `realloc` fails. -/
lemma flush_total_eq_iff {io : IterIo} {d : Disk} {total : ℕ} {batch : List ε} {r : FlushResult}
    (h : T.flush zone io d total batch = some r) :
    r.total = total + completeRecords T.sizeofIndex r.trace ↔
      T.CountsRight zone io d total batch := by
  rw [CountsRight]
  rcases stageAll_cases (n := batch.length) d io batch 0 total [] T.clearSlots
    (T.follows_clearSlots zone) (by simp) with
    ⟨slots, hst, hfol, hok⟩ | ⟨pre, e, post, slots, rfl, hfail, hpre, hst⟩ | ⟨hst, -⟩
  · -- the whole batch was staged
    rw [flush, hst, Option.some.injEq] at h
    subst h
    simp only [List.nil_append] at hfol
    have hio : T.IoOk zone io d total batch ↔ Completes io.append 0 d (T.allAppends slots) := by
      constructor
      · intro hio
        exact hio.append _ _ hst
      · intro hc
        refine ⟨hok, fun σ i hσ => ?_⟩
        rw [hst] at hσ
        simp only [Flow.done.injEq, Prod.mk.injEq] at hσ
        rw [← hσ.1]
        exact hc
    have hnot : ¬ T.AllocFailsFirst io batch := by
      rintro ⟨pre, e, post, hsplit, -, hf⟩
      exact hok pre e post hsplit hf
    rw [Nat.add_left_cancel_iff, hio, or_iff_left hnot, ← writeAll_records_iff hfol]
    exact eq_comm
  · -- the save ended at a failed `realloc`
    rw [flush, hst, Option.some.injEq] at h
    subst h
    have hnot : ¬ T.IoOk zone io d total (pre ++ e :: post) := fun hio => hio.alloc pre e post rfl hfail
    simp only [completeRecords_nil, Nat.add_zero, hnot, false_and, false_or]
    rw [Nat.add_eq_left, savedTimes_eq_nil_iff]
    constructor
    · intro hpre0
      exact ⟨pre, e, post, rfl, hpre0, hfail⟩
    · rintro ⟨pre', e', post', hsplit, hpre', hfail'⟩ x hx
      -- the two failures are the same event: none fails before it
      rcases List.append_eq_append_iff.1 hsplit with ⟨as, hp, hq⟩ | ⟨cs, hp, hq⟩
      · rw [hp] at hpre'
        exact hpre' x (by simp [hx])
      · cases cs with
        | nil =>
            simp only [List.append_nil] at hp
            exact hpre' x (hp ▸ hx)
        | cons y cs =>
            simp only [List.cons_append, List.cons.injEq] at hq
            obtain ⟨rfl, -⟩ := hq
            exact absurd hfail' (hpre pre' e' cs hp)
  · rw [flush, hst] at h
    simp at h

/-- The trace of a save tells what the files have become. -/
lemma flush_contents {io : IterIo} {d : Disk} {total : ℕ} {batch : List ε} {r : FlushResult}
    (h : T.flush zone io d total batch = some r) (q : Path) :
    r.disk.contents q = d.contents q ++ addedTo q r.trace := by
  rw [flush] at h
  split at h
  · simp at h
  · rw [Option.some.injEq] at h
    subst h
    simp
  · rw [Option.some.injEq] at h
    subst h
    exact writeAll_contents _ _ _ _ _

end SaveThread

end DeviceTools
