/-
The numbers of the index records.

The first member of an index structure is to be the number of the record in its file.  The
threads take it from the slot, which got it from the last record of the file when it was opened.
Both libraries look for this record behind the end of the file, and do not advance the number
from one record of a slot to the next, so that every record gets the number 1.  Hence the
numbers in a file increase exactly as long as the file has at most one record, and over runs of
saves in which nothing fails, exactly as long as no save files a second record of a day
(`run_increasing_iff`).
-/
import DeviceTools.Store.DayFiles
import DeviceTools.Store.SlotInvariant

namespace DeviceTools

open ByteWord

/-! ### The records of a file -/

/-- The member `no` or `logNo`, which every index structure starts with. -/
def indexNo (record : List UInt8) : ℕ := leNat (field record 0 4)

/-- The numbers of the records increase from each to every later one; so they are different. -/
def Increasing (size : ℕ) (bs : List UInt8) : Prop :=
  ((records size bs).map indexNo).Pairwise (· < ·)

instance (size : ℕ) (bs : List UInt8) : Decidable (Increasing size bs) :=
  inferInstanceAs (Decidable (List.Pairwise _ _))

/-- The file consists of records with the number 1. -/
def AllOne (size : ℕ) (bs : List UInt8) : Prop :=
  ∃ blocks : List (List UInt8), bs = blocks.flatten ∧ ∀ b ∈ blocks, b.length = size ∧ indexNo b = 1

section
variable {size : ℕ}

lemma allOne_nil : AllOne size [] := ⟨[], rfl, by simp⟩

lemma AllOne.append {bs cs : List UInt8} (hb : AllOne size bs) (hc : AllOne size cs) :
    AllOne size (bs ++ cs) := by
  obtain ⟨blocks, rfl, hblocks⟩ := hb
  obtain ⟨blocks', rfl, hblocks'⟩ := hc
  refine ⟨blocks ++ blocks', by rw [List.flatten_append], fun b hmem => ?_⟩
  rcases List.mem_append.1 hmem with h | h
  · exact hblocks b h
  · exact hblocks' b h

lemma allOne_record {b : List UInt8} (hlen : b.length = size) (hno : indexNo b = 1) : AllOne size b :=
  ⟨[b], by simp, by simp [hlen, hno]⟩

lemma AllOne.length_eq {bs : List UInt8} (hpos : 0 < size) (h : AllOne size bs) :
    bs.length = (records size bs).length * size := by
  obtain ⟨blocks, rfl, hblocks⟩ := h
  rw [records_flatten hpos fun b hb => (hblocks b hb).1, length_flatten_blocks fun b hb => (hblocks b hb).1]

lemma AllOne.increasing_iff {bs : List UInt8} (hpos : 0 < size) (h : AllOne size bs) :
    Increasing size bs ↔ (records size bs).length ≤ 1 := by
  obtain ⟨blocks, rfl, hblocks⟩ := h
  rw [Increasing, records_flatten hpos fun b hb => (hblocks b hb).1]
  have hones : blocks.map indexNo = List.replicate blocks.length 1 :=
    List.map_eq_replicate_iff.2 fun b hb => (hblocks b hb).2
  rw [hones, List.pairwise_replicate]
  simp

end

namespace SaveThread

variable {ε π : Type} (T : SaveThread ε π) (zone : Zone)

/-! ### One save -/

/-- The appends of a photo part are not to index files. -/
def PicApart (p : π) : Prop := ∀ a ∈ T.picAppends p, ∀ k, a.path ≠ T.indexFile k

/-- The thread numbers every record of a slot with 1. -/
structure NumbersOne : Prop where
  last : ∀ d p, T.getLastFileIndexNo d p = 0
  number : ∀ e p, indexNo (T.logIndex e 1 p) = 1
  openPic : ∀ d tm p, T.PicApart (T.openPic d tm p)
  stagePic : ∀ e idx p, T.PicApart p → T.PicApart (T.stagePic e idx p)

/-- What every slot of the staging array is like. -/
structure SlotOne (s : Slot π) : Prop where
  labelled : T.Labelled zone s
  start : s.time ≠ 0 → s.startIndexNo = 1
  buffer : AllOne T.sizeofIndex s.indexBuffer
  pic : s.time ≠ 0 → T.PicApart s.pic

/-- The number of events that the slot walk files under a day: those of the slots that are marked
with the day, up to the first that is marked free. -/
def filed (k : Tm) (ws : List Mark) : ℕ :=
  (((ws.takeWhile fun w => w.1.isSome).filter fun w => w.1 = some k).map Prod.snd).sum

variable {T zone}

lemma NumbersOne.allOne_putEvent (hT : T.NumbersOne) {s : Slot π} (hstart : s.startIndexNo = 1)
    (hbuf : AllOne T.sizeofIndex s.indexBuffer) (e : ε) :
    AllOne T.sizeofIndex (T.putEvent e s).indexBuffer := by
  refine hbuf.append (allOne_record (T.logIndex_length e _ _) ?_)
  rw [hstart]
  exact hT.number e s.pic

variable (zone) in
lemma NumbersOne.slotInvariant (hT : T.NumbersOne) (d : Disk) :
    T.SlotInvariant zone d (T.SlotOne zone) where
  blank := ⟨fun h => absurd rfl h, fun h => absurd rfl h, allOne_nil, fun h => absurd rfl h⟩
  opened e s hs h0 := by
    have hstart : (T.openSlot d (zone.localtime (T.time e)) s).startIndexNo = 1 := by
      rw [openSlot]
      dsimp only
      rw [hT.last]
    exact ⟨(slotInvariant_labelled d).opened e s hs.labelled h0, fun _ => hstart,
      hT.allOne_putEvent hstart hs.buffer e, fun _ => hT.stagePic _ _ _ (hT.openPic _ _ _)⟩
  joined e s hs h0 hday :=
    ⟨(slotInvariant_labelled d).joined e s hs.labelled h0 hday, fun _ => hs.start h0,
      hT.allOne_putEvent (hs.start h0) hs.buffer e, fun _ => hT.stagePic _ _ _ (hs.pic h0)⟩

/-- What a row of slots that are not free adds to the index file of a day. -/
lemma addedTo_written {ss : List (Slot π)} {ws : List Mark} (h : List.Forall₂ (T.Tracks zone) ss ws)
    (hall : ∀ s ∈ ss, s.time ≠ 0 ∧ T.SlotOne zone s) (k : Tm) :
    AllOne T.sizeofIndex (addedTo (T.indexFile k) (ss.flatMap T.appends)) ∧
      (addedTo (T.indexFile k) (ss.flatMap T.appends)).length =
        ((ws.filter fun w => w.1 = some k).map Prod.snd).sum * T.sizeofIndex := by
  induction h with
  | nil => exact ⟨allOne_nil, by simp⟩
  | @cons s w ss ws hs _ ih =>
      obtain ⟨ihone, ihlen⟩ := ih fun x hx => hall x (by simp [hx])
      obtain ⟨h0, hone⟩ := hall s (by simp)
      have hw : w.1 = some (zone.localtime s.time) := by rw [hs.mark, markOf, if_neg h0]
      have hadded : addedTo (T.indexFile k) (T.appends s) = if w.1 = some k then s.indexBuffer else [] := by
        rw [addedTo_appends_index fun a ha => hone.pic h0 a ha k, hone.labelled h0, hw]
        by_cases hk : zone.localtime s.time = k
        · rw [if_pos (by rw [hk]), if_pos (by rw [hk])]
        · have hne : T.indexFile k ≠ T.indexFile (zone.localtime s.time) :=
            fun hc => hk (dayPath_inj.1 hc).symm
          rw [if_neg hne, if_neg fun hc => hk (Option.some.inj hc)]
      rw [List.flatMap_cons, addedTo_append, hadded]
      by_cases hk : w.1 = some k
      · rw [if_pos hk, List.filter_cons_of_pos (by simpa using hk), List.map_cons, List.sum_cons]
        exact ⟨hone.buffer.append ihone, by rw [List.length_append, hs.len, ihlen]; ring⟩
      · rw [if_neg hk, List.filter_cons_of_neg (by simpa using hk), List.nil_append]
        exact ⟨ihone, ihlen⟩

/-- **What a save in which nothing fails adds to the index file of a day**: as many records as the
slot walk files under the day, all with the number 1. -/
lemma flush_index (hT : T.NumbersOne) {io : IterIo} {d : Disk} {total : ℕ} {batch : List ε}
    {r : FlushResult} (hio : T.IoOk zone io d total batch)
    (h : T.flush zone io d total batch = some r) (k : Tm) :
    ∃ added, r.disk.contents (T.indexFile k) = d.contents (T.indexFile k) ++ added ∧
      AllOne T.sizeofIndex added ∧
      added.length = filed k (walk zone (T.savedTimes batch)) * T.sizeofIndex := by
  rcases stageAll_cases (n := batch.length) d io batch 0 total [] T.clearSlots
    (T.follows_clearSlots zone) (by simp) with
    ⟨slots, hst, hfol, -⟩ | ⟨pre, e, post, slots, rfl, hfail, -, -⟩ | ⟨hst, -⟩
  · have hone := stageAll_invariant (hT.slotInvariant zone d) hst
    have hcomp := hio.append _ _ hst
    rw [flush, hst, Option.some.injEq] at h
    subst h
    obtain ⟨used, rfl, -, htr⟩ := hfol
    have hwritten := addedTo_written (takeWhile_tracks (T.MAX_OPERATE_QUEUE - used.length) htr)
      (fun s hs => ⟨by simpa using List.mem_takeWhile_imp hs,
        hone s ((List.takeWhile_sublist _).mem hs)⟩) k
    exact ⟨_, contents_of_completes hcomp _, hwritten⟩
  · exact absurd hfail (hio.alloc pre e post rfl)
  · simp [flush, hst] at h

lemma filed_eq_zero {k : Tm} {ws : List Mark} (h : some k ∉ ws.map Prod.fst) : filed k ws = 0 := by
  have hnil : (ws.takeWhile fun w => w.1.isSome).filter (fun w => w.1 = some k) = [] :=
    List.filter_eq_nil_iff.2 fun w hw hk =>
      h (List.mem_map.2 ⟨w, (List.takeWhile_sublist _).mem hw, of_decide_eq_true hk⟩)
  rw [filed, hnil, List.map_nil, List.sum_nil]

lemma filed_add_le {ws₁ ws₂ : List Mark} {n : ℕ}
    (h : ∀ m ∈ (ws₁ ++ ws₂).map Prod.fst, ∀ k ∈ m, filed k ws₁ + filed k ws₂ ≤ n) (k : Tm) :
    filed k ws₁ + filed k ws₂ ≤ n := by
  by_cases hk : some k ∈ (ws₁ ++ ws₂).map Prod.fst
  · exact h _ hk k rfl
  · rw [List.map_append, List.mem_append, not_or] at hk
    rw [filed_eq_zero hk.1, filed_eq_zero hk.2]
    exact Nat.zero_le n

/-! ### Runs -/

variable (T zone)

/-- If the step is a save, nothing fails in it. -/
def SaveSucceeds (s : ThreadState ε) : Action ε → Prop
  | .add _ => True
  | .iterate tick io => T.Saving tick s → T.IoOk zone io s.disk s.total s.queue.nodes

/-- If the step is a save, for each day the records already in its index file and the queued events
that the slot walk files under the day are at most one together. -/
def OneRecordPerDay (s : ThreadState ε) : Action ε → Prop
  | .add _ => True
  | .iterate tick _ => T.Saving tick s → ∀ k,
      (records T.sizeofIndex (s.disk.contents (T.indexFile k))).length +
        filed k (walk zone (T.savedTimes s.queue.nodes)) ≤ 1

/-- Every index file consists of records with the number 1. -/
def FilesOne (s : ThreadState ε) : Prop := ∀ k, AllOne T.sizeofIndex (s.disk.contents (T.indexFile k))

/-- Every index file has at most one record. -/
def FilesShort (s : ThreadState ε) : Prop :=
  ∀ k, (records T.sizeofIndex (s.disk.contents (T.indexFile k))).length ≤ 1

variable {T zone}

lemma length_records_le {size : ℕ} {bs cs : List UInt8} (h : bs <+: cs) :
    (records size bs).length ≤ (records size cs).length := by
  rw [records, records, List.length_map, List.length_map, List.length_range, List.length_range]
  exact Nat.div_le_div_right h.length_le

/-- The number of records in the index file of a day behind a save in which nothing fails. -/
lemma length_records_flush (hT : T.NumbersOne) {io : IterIo} {d : Disk} {total : ℕ} {batch : List ε}
    {r : FlushResult} {k : Tm} (hone : AllOne T.sizeofIndex (d.contents (T.indexFile k)))
    (hio : T.IoOk zone io d total batch) (h : T.flush zone io d total batch = some r) :
    (records T.sizeofIndex (r.disk.contents (T.indexFile k))).length =
      (records T.sizeofIndex (d.contents (T.indexFile k))).length +
        filed k (walk zone (T.savedTimes batch)) := by
  obtain ⟨added, heq, -, hlen⟩ := flush_index hT hio h k
  have hk := hone.length_eq T.sizeofIndex_pos
  rw [heq, records, List.length_map, List.length_range, List.length_append, hlen, hk, ← Nat.add_mul,
    Nat.mul_div_cancel _ T.sizeofIndex_pos]

lemma length_records_step (hT : T.NumbersOne) {s s' : ThreadState ε} {tick : Tick} {io : IterIo} {k : Tm}
    (hI : T.Inv s) (hone : AllOne T.sizeofIndex (s.disk.contents (T.indexFile k))) (hsaving : T.Saving tick s)
    (hio : T.IoOk zone io s.disk s.total s.queue.nodes) (hs : T.step zone s (.iterate tick io) = some s') :
    (records T.sizeofIndex (s'.disk.contents (T.indexFile k))).length =
      (records T.sizeofIndex (s.disk.contents (T.indexFile k))).length +
        filed k (walk zone (T.savedTimes s.queue.nodes)) := by
  rw [step] at hs
  rcases T.iterate_cases zone hI.valid tick io with
    ⟨hno, -⟩ | ⟨-, -, hit⟩ | ⟨-, r, s₁, hf, hit, -, -, hdisk, -⟩
  · exact absurd hsaving hno
  · rw [hit] at hs
    cases hs
  · rw [hit, Option.some.injEq] at hs
    rw [← hs, hdisk, length_records_flush hT hone hio hf]

/-- A step keeps the numbers 1, and leaves at most one record in each file exactly if the save does
not file a second one. -/
lemma step_files (hT : T.NumbersOne) {s s' : ThreadState ε} {a : Action ε} (hI : T.Inv s)
    (hone : T.FilesOne s) (hsucc : T.SaveSucceeds zone s a) (hs : T.step zone s a = some s') :
    T.FilesOne s' ∧ (T.FilesShort s → (T.FilesShort s' ↔ T.OneRecordPerDay zone s a)) := by
  cases a with
  | add e =>
      simp only [step, Option.some.injEq] at hs
      have hdisk : s'.disk = s.disk := by
        rw [← hs]
        split <;> rfl
      refine ⟨fun k => by rw [hdisk]; exact hone k, fun hshort => iff_of_true (fun k => ?_) trivial⟩
      rw [hdisk]
      exact hshort k
  | iterate tick io =>
      rw [step] at hs
      rcases T.iterate_cases zone hI.valid tick io with
        ⟨hno, b, hit⟩ | ⟨-, -, hit⟩ | ⟨hsav, r, s₁, hf, hit, -, -, hdisk, -⟩
      · rw [hit, Option.some.injEq] at hs
        subst hs
        exact ⟨hone, fun hshort => iff_of_true hshort fun hsav => absurd hsav hno⟩
      · simp [hit] at hs
      · rw [hit, Option.some.injEq] at hs
        subst hs
        have hadded := flush_index hT (hsucc hsav) hf
        have hlen := fun k => length_records_flush hT (hone k) (hsucc hsav) hf
        rw [← hdisk] at hlen
        refine ⟨fun k => ?_, fun _ => ?_⟩
        · obtain ⟨added, heq, hadd, -⟩ := hadded k
          rw [hdisk, heq]
          exact (hone k).append hadd
        · constructor
          · intro h _ k
            rw [← hlen]
            exact h k
          · intro h k
            rw [hlen]
            exact h hsav k

lemma run_filesOne (hT : T.NumbersOne) {acts : List (Action ε)} {s s' : ThreadState ε} (hI : T.Inv s)
    (hone : T.FilesOne s) (halong : T.Along zone (T.SaveSucceeds zone) s acts)
    (hr : T.run zone s acts = some s') : T.FilesOne s' := by
  refine (Runs.invariant_along (I := fun s => T.Inv s ∧ T.FilesOne s) ?_ ⟨hI, hone⟩ halong hr).2
  intro s a s' h hsucc hs
  exact ⟨step_inv h.1 hs, (step_files hT h.1 h.2 hsucc hs).1⟩

/-- Each file has at most one record exactly if no save of the run files a second one. -/
lemma run_filesShort_iff (hT : T.NumbersOne) {acts : List (Action ε)} : ∀ {s s' : ThreadState ε},
    T.Inv s → T.FilesOne s → T.FilesShort s → T.Along zone (T.SaveSucceeds zone) s acts →
    T.run zone s acts = some s' →
    (T.FilesShort s' ↔ T.Along zone (T.OneRecordPerDay zone) s acts) := by
  induction acts with
  | nil =>
      intro s s' _ _ hshort _ hr
      rw [← Option.some.inj hr]
      exact iff_of_true hshort trivial
  | cons a acts ih =>
      rintro s s' hI hone hshort ⟨hsucc, hrest⟩ hr
      rw [run, Runs.run_cons, Option.bind_eq_some_iff] at hr
      obtain ⟨s₁, hs₁, hr⟩ := hr
      obtain ⟨hone₁, hstep⟩ := step_files hT hI hone hsucc hs₁
      have hI₁ := step_inv hI hs₁
      constructor
      · -- the files only grow, so they were short before
        intro hshort'
        have hshort₁ : T.FilesShort s₁ := fun k =>
          (length_records_le (run_disk hI₁ hr _).1).trans (hshort' k)
        refine ⟨(hstep hshort).1 hshort₁, fun s₂ hs₂ => ?_⟩
        rw [hs₁, Option.some.injEq] at hs₂
        subst hs₂
        exact (ih hI₁ hone₁ hshort₁ (hrest s₁ hs₁) hr).1 hshort'
      · rintro ⟨hday, hdays⟩
        exact (ih hI₁ hone₁ ((hstep hshort).2 hday) (hrest s₁ hs₁) hr).2 (hdays s₁ hs₁)

/-- **Runs of saves in which nothing fails, from empty index files.**  In the last state the numbers
in each index file increase if and only if no save of the run files a second record of a day. -/
lemma run_increasing_iff (hT : T.NumbersOne) {d : Disk} (hd : ∀ k, d.contents (T.indexFile k) = [])
    {total : ℕ} {acts : List (Action ε)} {s : ThreadState ε}
    (halong : T.Along zone (T.SaveSucceeds zone) (init d total) acts)
    (hr : T.run zone (init d total) acts = some s) :
    (∀ k, Increasing T.sizeofIndex (s.disk.contents (T.indexFile k))) ↔
      T.Along zone (T.OneRecordPerDay zone) (init d total) acts := by
  have hone : T.FilesOne (init d total) := fun k => by
    rw [init, hd k]
    exact allOne_nil
  have hshort : T.FilesShort (init d total) := fun k => by
    rw [init, hd k]
    simp [records]
  rw [← run_filesShort_iff hT (inv_init d total) hone hshort halong hr]
  have hone' := run_filesOne hT (inv_init d total) hone halong hr
  exact forall_congr' fun k => (hone' k).increasing_iff T.sizeofIndex_pos

end SaveThread

end DeviceTools
