/-
What a save adds to the files of the days.

For a batch without zero times that fits the buffers, every event gets one index record
(`entries`), and the index file of each day grows by the records of its events, in queue
order (`addedTo_indexFile`).
-/
import DeviceTools.Store.Runs

namespace DeviceTools

/-- The file names of different days are different. -/
lemma dayPath_inj {dir : Path} {a b : Tm} {ext : List Char} :
    dayPath dir a ext = dayPath dir b ext ↔ a = b := by
  constructor
  · intro h
    simp only [dayPath, List.append_assoc, List.append_cancel_left_eq, List.cons_append,
      List.cons.injEq, true_and] at h
    exact Tm.name_inj.1 (List.append_cancel_right h)
  · rintro rfl
    rfl

namespace SaveThread

variable {ε π : Type} (T : SaveThread ε π) (zone : Zone)

/-! ### The index records of a batch -/

/-- The index record of an event that comes behind the events `pre` of its batch. -/
def entryAfter (d : Disk) (pre : List ε) (e : ε) : List UInt8 :=
  let s := T.groupSlot d (T.day zone e, pre.filter fun x => T.day zone x = T.day zone e)
  T.logIndex e s.startIndexNo s.pic

/-- The events of a batch with their index records, behind the events `pre`. -/
def entriesFrom (d : Disk) (pre : List ε) : List ε → List (ε × List UInt8)
  | [] => []
  | e :: es => (e, T.entryAfter zone d pre e) :: entriesFrom d (pre ++ [e]) es

/-- The events of a batch with their index records. -/
def entries (d : Disk) (batch : List ε) : List (ε × List UInt8) := T.entriesFrom zone d [] batch

variable {T zone}

lemma entriesFrom_fst (d : Disk) (es : List ε) : ∀ pre : List ε,
    (T.entriesFrom zone d pre es).map Prod.fst = es := by
  induction es with
  | nil => intro pre; rfl
  | cons e es ih => intro pre; simp [entriesFrom, ih]

variable (T zone) in
lemma entries_fst (d : Disk) (batch : List ε) : (T.entries zone d batch).map Prod.fst = batch :=
  entriesFrom_fst d batch []

lemma entriesFrom_append (d : Disk) (es fs : List ε) : ∀ pre : List ε,
    T.entriesFrom zone d pre (es ++ fs) =
      T.entriesFrom zone d pre es ++ T.entriesFrom zone d (pre ++ es) fs := by
  induction es with
  | nil => intro pre; simp [entriesFrom]
  | cons e es ih =>
      intro pre
      rw [List.cons_append, entriesFrom, ih, entriesFrom]
      simp

lemma mem_entriesFrom {d : Disk} {es : List ε} {x : ε × List UInt8} : ∀ {pre : List ε},
    x ∈ T.entriesFrom zone d pre es →
      ∃ as bs, es = as ++ x.1 :: bs ∧ x.2 = T.entryAfter zone d (pre ++ as) x.1 := by
  induction es with
  | nil => intro pre hx; simp [entriesFrom] at hx
  | cons e es ih =>
      intro pre hx
      rw [entriesFrom] at hx
      rcases List.mem_cons.1 hx with rfl | hx
      · exact ⟨[], es, rfl, by simp⟩
      · obtain ⟨as, bs, rfl, h⟩ := ih hx
        exact ⟨e :: as, bs, rfl, by simpa using h⟩

/-- The index buffer of a day has the records of its events, in queue order. -/
lemma groupSlot_indexBuffer (d : Disk) (k : Tm) (es : List ε) :
    (T.groupSlot d (k, es.filter fun e => T.day zone e = k)).indexBuffer =
      ((T.entries zone d es).filter fun x => T.day zone x.1 = k).flatMap Prod.snd := by
  induction es using List.reverseRecOn with
  | nil => simp [groupSlot, openSlot, blank, entries, entriesFrom]
  | append_singleton es e ih =>
      rw [entries, entriesFrom_append, List.filter_append, List.filter_append, List.flatMap_append,
        ← entries, ← ih]
      by_cases hk : T.day zone e = k
      · subst hk
        simp only [decide_true, List.filter_cons_of_pos, List.filter_nil, groupSlot_concat,
          entriesFrom, List.nil_append, List.flatMap_cons, List.flatMap_nil, List.append_nil]
        rfl
      · simp [hk, entriesFrom]

/-! ### The appends of a batch -/

/-- The write loop goes over the days of the batch. -/
lemma allAppends_stagedSlots {d : Disk} {batch : List ε} (hz : T.ZeroFree batch) :
    T.allAppends (T.stagedSlots zone d batch) =
      (FirstFit.groups (T.day zone) batch).flatMap fun g => T.appends (T.groupSlot d g) := by
  have hpos : ∀ s ∈ (FirstFit.groups (T.day zone) batch).map (T.groupSlot d), s.time ≠ 0 := by
    intro s hs
    obtain ⟨g, hg, rfl⟩ := List.mem_map.1 hs
    exact (T.groupSlot_of_mem zone hz hg).1
  have hblank : ∀ m, (List.replicate m T.blank).takeWhile (fun s => decide (s.time ≠ 0)) = [] := by
    intro m
    cases m with
    | zero => rfl
    | succ m => simp [List.replicate_succ, blank]
  rw [allAppends, stagedSlots, List.takeWhile_append_of_pos (by simpa using hpos), hblank,
    List.append_nil, List.flatMap_map]

/-- If only the slot of the day `k` writes to a file, the file gets what the slot of the
events of `k` writes to it. -/
lemma addedTo_groups {d : Disk} {q : Path} {k : Tm} (batch : List ε)
    (hother : ∀ g : Tm × List ε, g.1 ≠ k → addedTo q (T.appends (T.groupSlot d g)) = [])
    (hnone : addedTo q (T.appends (T.groupSlot d (k, []))) = []) :
    addedTo q ((FirstFit.groups (T.day zone) batch).flatMap fun g => T.appends (T.groupSlot d g)) =
      addedTo q (T.appends (T.groupSlot d (k, batch.filter fun e => T.day zone e = k))) := by
  have hskip : ∀ gs : List (Tm × List ε), (∀ g ∈ gs, g.1 ≠ k) →
      addedTo q (gs.flatMap fun g => T.appends (T.groupSlot d g)) = [] := by
    intro gs hgs
    induction gs with
    | nil => rfl
    | cons g gs ih =>
        rw [List.flatMap_cons, addedTo_append, hother g (hgs g (by simp)),
          ih fun x hx => hgs x (by simp [hx])]
        rfl
  by_cases hk : k ∈ (FirstFit.groups (T.day zone) batch).map Prod.fst
  · -- the groups are those before the group of `k`, that group, and those behind it
    obtain ⟨⟨k', xs⟩, hg, rfl⟩ := List.mem_map.1 hk
    obtain ⟨pre, post, hsplit⟩ := List.append_of_mem hg
    have hnd := FirstFit.nodup_keys_groups (T.day zone) batch
    rw [hsplit, List.map_append, List.map_cons] at hnd
    have hnd' := List.nodup_append.1 hnd
    have hpre : ∀ g ∈ pre, g.1 ≠ k' := fun g hg' =>
      hnd'.2.2 g.1 (List.mem_map_of_mem hg') k' (by simp)
    have hpost : ∀ g ∈ post, g.1 ≠ k' := by
      intro g hg' hc
      exact (List.nodup_cons.1 hnd'.2.1).1 (List.mem_map.2 ⟨g, hg', hc⟩)
    rw [hsplit, List.flatMap_append, List.flatMap_cons, addedTo_append, addedTo_append,
      hskip pre hpre, hskip post hpost, List.nil_append, List.append_nil,
      FirstFit.mem_groups _ hg]
  · have hnil : (batch.filter fun e => T.day zone e = k) = [] := by
      rw [List.filter_eq_nil_iff]
      intro e he hc
      rw [FirstFit.mem_keys_groups] at hk
      exact hk (List.mem_map.2 ⟨e, he, by simpa using hc⟩)
    rw [hnil, hnone]
    refine hskip _ fun g hg hc => hk ?_
    rw [← hc]
    exact List.mem_map_of_mem hg

lemma addedTo_appends_index {s : Slot π} {q : Path}
    (hpic : ∀ a ∈ T.picAppends s.pic, a.path ≠ q) :
    addedTo q (T.appends s) = if q = s.indexFileName then s.indexBuffer else [] := by
  have hnil : addedTo q (T.picAppends s.pic) = [] := by
    have : (T.picAppends s.pic).filter (fun a => a.path = q) = [] := by
      rw [List.filter_eq_nil_iff]
      intro a ha
      simpa using hpic a ha
    simp [addedTo, this]
  rw [appends, addedTo_append, hnil, addedTo_cons, addedTo_nil]
  simp

/-- **The index file of a day gets the records of the day's events**, in queue order. -/
lemma addedTo_indexFile {d : Disk} (batch : List ε) (k : Tm)
    (hpic : ∀ g : Tm × List ε, ∀ a ∈ T.picAppends (T.groupSlot d g).pic,
      a.path ≠ T.indexFile k) :
    addedTo (T.indexFile k)
        ((FirstFit.groups (T.day zone) batch).flatMap fun g => T.appends (T.groupSlot d g)) =
      ((T.entries zone d batch).filter fun x => T.day zone x.1 = k).flatMap Prod.snd := by
  rw [addedTo_groups batch (k := k), addedTo_appends_index (hpic _), groupSlot_indexFileName,
    if_pos rfl, groupSlot_indexBuffer]
  · intro g hg
    rw [addedTo_appends_index (hpic g), groupSlot_indexFileName, if_neg]
    exact fun hc => hg (dayPath_inj.1 hc).symm
  · rw [addedTo_appends_index (hpic _), groupSlot_indexFileName, if_pos rfl]
    rfl

/-! ### The save as a whole -/

/-- **The save of a batch without zero times that fits the buffers.**  A failed `realloc`
leaves the disk as it is; otherwise the days of the batch are written one after the
other. -/
lemma flush_staged (io : IterIo) (d : Disk) (total : ℕ) {batch : List ε}
    (hz : T.ZeroFree batch) (hfit : T.Fits zone batch) (hsave : ∀ e ∈ batch, T.saves e = true) :
    (T.AllocOk io 0 batch ∧
      T.stageAll zone d batch.length io 0 ⟨T.clearSlots, total⟩ batch =
        .done (⟨T.stagedSlots zone d batch, total + batch.length⟩, batch.length)) ∨
    (¬ T.AllocOk io 0 batch ∧ ∃ total' i, T.flush zone io d total batch =
      some ⟨d, total', i, false, []⟩) := by
  by_cases hok : T.AllocOk io 0 batch
  · refine Or.inl ⟨hok, ?_⟩
    have h := T.stageAll_staged zone (n := batch.length) d io batch total [] hz hfit hsave ?_ (by simp)
    · simpa [stagedSlots_nil] using h
    · intro i _ hi hr
      simp only [List.length_nil, Nat.zero_add] at hi
      have hsplit : batch = batch.take i ++ batch.get ⟨i, hi⟩ :: batch.drop (i + 1) := by
        simp
      have hnf := hok _ _ _ hsplit
      by_contra hfalse
      refine hnf ⟨hsave _ (List.get_mem _ _), hr, ?_⟩
      rw [List.length_take, min_eq_left hi.le, Nat.zero_add]
      simpa using hfalse
  · refine Or.inr ⟨hok, ?_⟩
    rcases stageAll_cases (n := batch.length) d io batch 0 total [] T.clearSlots
      (T.follows_clearSlots zone) (by simp) with
      ⟨slots, -, -, hok'⟩ | ⟨pre, e, post, slots, rfl, -, -, hst⟩ | ⟨-, hbad⟩
    · exact absurd hok' hok
    · exact ⟨_, _, by rw [flush, hst]⟩
    · have hb := hfit.inBounds hz
      rcases hbad with ⟨e, he, hfalse⟩ | hbad
      · simp [hb.elem e he] at hfalse
      · exact absurd hb.walk hbad

end SaveThread

end DeviceTools
