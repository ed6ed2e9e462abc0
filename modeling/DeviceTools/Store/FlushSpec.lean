/-
What a save does when no event of the batch has the time 0 and the batch fits the staging
buffers.

Under these two conditions the slots of the staging array are the days of the batch in the
order of their first event (`staged`), each slot holds the events of its day in queue order
(`groupSlot`), and no access leaves its buffer.  The staging loop is followed event by event
(`stage_staged`) and then as a whole (`stageAll_staged`).
-/
import DeviceTools.Store.Flush
import DeviceTools.Lib.FirstFit

namespace DeviceTools

namespace SaveThread

variable {ε π : Type} (T : SaveThread ε π) (zone : Zone)

/-! ### The search for a slot -/

/-- The search stops at the first slot of the event's day. -/
lemma findSlot_of_sameDay {t n : ℕ} {pre post : List (Slot π)} {s : Slot π}
    (hpre : ∀ x ∈ pre, x.time ≠ 0 ∧ zone.localtime t ≠ zone.localtime x.time)
    (hs : s.time ≠ 0) (hday : zone.localtime t = zone.localtime s.time) (hn : pre.length < n) :
    findSlot zone t n (pre ++ s :: post) = some (pre.length, false) := by
  induction pre generalizing n with
  | nil =>
      obtain ⟨n, rfl⟩ : ∃ m, n = m + 1 := ⟨n - 1, by simp at hn; omega⟩
      simp [findSlot, hs, hday]
  | cons x pre ih =>
      obtain ⟨n, rfl⟩ : ∃ m, n = m + 1 := ⟨n - 1, by simp at hn; omega⟩
      obtain ⟨hx0, hxd⟩ := hpre x (by simp)
      have hxd' : ¬ (zone.localtime t).dataDay = (zone.localtime x.time).dataDay :=
        fun hc => hxd (Tm.dataDay_inj.1 hc)
      rw [List.cons_append, findSlot, if_neg hx0, if_neg hxd',
        ih (fun y hy => hpre y (by simp [hy])) (by simpa using hn)]
      simp

/-- The search stops at the first free slot if no slot before it has the event's day. -/
lemma findSlot_of_free {t n : ℕ} {pre post : List (Slot π)} {s : Slot π}
    (hpre : ∀ x ∈ pre, x.time ≠ 0 ∧ zone.localtime t ≠ zone.localtime x.time)
    (hs : s.time = 0) (hn : pre.length < n) :
    findSlot zone t n (pre ++ s :: post) = some (pre.length, true) := by
  induction pre generalizing n with
  | nil =>
      obtain ⟨n, rfl⟩ : ∃ m, n = m + 1 := ⟨n - 1, by simp at hn; omega⟩
      simp [findSlot, hs]
  | cons x pre ih =>
      obtain ⟨n, rfl⟩ : ∃ m, n = m + 1 := ⟨n - 1, by simp at hn; omega⟩
      obtain ⟨hx0, hxd⟩ := hpre x (by simp)
      have hxd' : ¬ (zone.localtime t).dataDay = (zone.localtime x.time).dataDay :=
        fun hc => hxd (Tm.dataDay_inj.1 hc)
      rw [List.cons_append, findSlot, if_neg hx0, if_neg hxd',
        ih (fun y hy => hpre y (by simp [hy])) (by simpa using hn)]
      simp

/-! ### The slot of a day -/

/-- The day of an event. -/
def day (e : ε) : Tm := zone.localtime (T.time e)

/-- The slot that a day's events, in queue order, are staged in. -/
def groupSlot (d : Disk) (g : Tm × List ε) : Slot π :=
  g.2.foldl (fun s e => T.putEvent e s) (T.openSlot d g.1 T.blank)

lemma groupSlot_concat (d : Disk) (k : Tm) (es : List ε) (e : ε) :
    T.groupSlot d (k, es ++ [e]) = T.putEvent e (T.groupSlot d (k, es)) := by
  simp [groupSlot]

@[simp] lemma groupSlot_indexFileName (d : Disk) (g : Tm × List ε) :
    (T.groupSlot d g).indexFileName = T.indexFile g.1 := by
  obtain ⟨k, es⟩ := g
  induction es using List.reverseRecOn with
  | nil => rfl
  | append_singleton es e ih => rw [groupSlot_concat]; exact ih

@[simp] lemma groupSlot_startIndexNo (d : Disk) (g : Tm × List ε) :
    (T.groupSlot d g).startIndexNo = T.getLastFileIndexNo d (T.indexFile g.1) + 1 := by
  obtain ⟨k, es⟩ := g
  induction es using List.reverseRecOn with
  | nil => rfl
  | append_singleton es e ih => rw [groupSlot_concat]; exact ih

lemma groupSlot_indexBuffer_length (d : Disk) (k : Tm) (es : List ε) :
    (T.groupSlot d (k, es)).indexBuffer.length = es.length * T.sizeofIndex := by
  induction es using List.reverseRecOn with
  | nil => simp [groupSlot, openSlot, blank]
  | append_singleton es e ih =>
      rw [groupSlot_concat, putEvent]
      simp only [List.length_append, ih, T.logIndex_length, List.length_singleton]
      ring

/-- The time of a slot is the time of the last event put in it. -/
lemma groupSlot_time (d : Disk) {k : Tm} {es : List ε} (hne : es ≠ [])
    (h : ∀ e ∈ es, T.time e ≠ 0 ∧ T.day zone e = k) :
    (T.groupSlot d (k, es)).time ≠ 0 ∧ zone.localtime (T.groupSlot d (k, es)).time = k := by
  induction es using List.reverseRecOn with
  | nil => exact absurd rfl hne
  | append_singleton es e _ =>
      rw [groupSlot_concat]
      exact h e (by simp)

/-! ### The staging array -/

/-- No event of the batch has the time that marks a free slot. -/
def ZeroFree (batch : List ε) : Prop := ∀ e ∈ batch, T.time e ≠ 0

/-- The batch fits the staging buffers: each element fits the element buffer, there are at
most as many days as slots, and the index records of a day fit the index buffer. -/
structure Fits (batch : List ε) : Prop where
  elem : ∀ e ∈ batch, T.fitsElem e = true
  days : (batch.map (T.day zone)).toFinset.card ≤ T.MAX_OPERATE_QUEUE
  perDay : ∀ k, (batch.filter fun e => T.day zone e = k).length * T.sizeofIndex
    ≤ T.indexBufferSize

variable {T zone} in
/-- Only the days of the batch matter. -/
lemma fits_iff {batch : List ε} : T.Fits zone batch ↔ (∀ e ∈ batch, T.fitsElem e = true) ∧
    (batch.map (T.day zone)).toFinset.card ≤ T.MAX_OPERATE_QUEUE ∧
    ∀ x ∈ batch, (batch.filter fun e => T.day zone e = T.day zone x).length * T.sizeofIndex
      ≤ T.indexBufferSize := by
  constructor
  · exact fun h => ⟨h.elem, h.days, fun x _ => h.perDay _⟩
  · rintro ⟨helem, hdays, hper⟩
    refine ⟨helem, hdays, fun k => ?_⟩
    by_cases hk : ∃ x ∈ batch, T.day zone x = k
    · obtain ⟨x, hx, rfl⟩ := hk
      exact hper x hx
    · have hnil : (batch.filter fun e => T.day zone e = k) = [] :=
        List.filter_eq_nil_iff.2 fun e he hday => hk ⟨e, he, by simpa using hday⟩
      rw [hnil, List.length_nil, Nat.zero_mul]
      exact Nat.zero_le _

instance decidableFits (batch : List ε) : Decidable (T.Fits zone batch) := decidable_of_iff' _ fits_iff

instance decidableZeroFree (batch : List ε) : Decidable (T.ZeroFree batch) :=
  inferInstanceAs (Decidable (∀ e ∈ batch, T.time e ≠ 0))

/-- The staging array after the given events: the slots of their days, in the order of
first events, and free slots behind them. -/
def stagedSlots (d : Disk) (es : List ε) : List (Slot π) :=
  (FirstFit.groups (T.day zone) es).map (T.groupSlot d) ++
    List.replicate (T.MAX_OPERATE_QUEUE - (FirstFit.groups (T.day zone) es).length) T.blank

lemma stagedSlots_nil (d : Disk) : T.stagedSlots zone d [] = T.clearSlots := by
  simp [stagedSlots, clearSlots]

/-- The slots in use belong to different days and are not free. -/
lemma groupSlot_of_mem {d : Disk} {es : List ε} (hz : T.ZeroFree es) {g : Tm × List ε}
    (hg : g ∈ FirstFit.groups (T.day zone) es) :
    (T.groupSlot d g).time ≠ 0 ∧ zone.localtime (T.groupSlot d g).time = g.1 := by
  obtain ⟨k, xs⟩ := g
  refine T.groupSlot_time zone d (FirstFit.groups_ne_nil _ hg) ?_
  intro e he
  rw [FirstFit.mem_groups _ hg, List.mem_filter] at he
  exact ⟨hz e he.1, by simpa using he.2⟩

variable {T zone}

lemma Fits.of_append {es fs : List ε} (h : T.Fits zone (es ++ fs)) : T.Fits zone es := by
  refine ⟨fun e he => h.elem e (by simp [he]), le_trans ?_ h.days, fun k => le_trans ?_ (h.perDay k)⟩
  · apply Finset.card_le_card
    intro k hk
    simp only [List.map_append, List.toFinset_append, Finset.mem_union]
    exact Or.inl hk
  · apply Nat.mul_le_mul_right
    simp

variable (T zone)

/-- **One event of the staging loop.**  If the events before it are staged, the event is
put in the slot of its day, or in the first free slot if it is the first of its day. -/
lemma stage_staged (d : Disk) {n : ℕ} (total : ℕ) {es : List ε} {e : ε} (allocated : Bool)
    (hz : T.ZeroFree (es ++ [e])) (hfit : T.Fits zone (es ++ [e])) (hsave : T.saves e = true)
    (halloc : T.reallocs = true → allocated = true) (hn : es.length < n) :
    T.stage zone d n ⟨T.stagedSlots zone d es, total⟩ e allocated =
      .done ⟨T.stagedSlots zone d (es ++ [e]), total + 1⟩ := by
  have hzes : T.ZeroFree es := fun x hx => hz x (by simp [hx])
  have helem : T.fitsElem e = true := hfit.elem e (by simp)
  have hall : (T.reallocs && !allocated) = false := by
    cases hr : T.reallocs with
    | false => rfl
    | true => simp [halloc hr]
  have hgn : (FirstFit.groups (T.day zone) es).length < n := by
    refine lt_of_le_of_lt ?_ hn
    rw [FirstFit.length_groups]
    exact le_trans (List.toFinset_card_le _) (by simp)
  -- the index buffer of the event's day has room for one more record
  have hroom : ((es.filter fun x => T.day zone x = T.day zone e).length + 1) * T.sizeofIndex
      ≤ T.indexBufferSize := by
    have h := hfit.perDay (T.day zone e)
    rw [List.filter_append] at h
    simpa using h
  rw [stage, if_neg (by simp [helem]), if_neg (by simp [hsave])]
  by_cases hmem : T.day zone e ∈ (FirstFit.groups (T.day zone) es).map Prod.fst
  · -- the day has a slot
    obtain ⟨⟨k, xs⟩, hg, hk⟩ := List.mem_map.1 hmem
    simp only at hk
    subst hk
    obtain ⟨pre, post, hsplit⟩ := List.append_of_mem hg
    have hnd := FirstFit.nodup_keys_groups (T.day zone) es
    rw [hsplit, List.map_append, List.map_cons] at hnd
    have hpre : T.day zone e ∉ pre.map Prod.fst := by
      intro hc
      exact (List.nodup_append.1 hnd).2.2 _ hc _ (by simp) rfl
    have hslots : T.stagedSlots zone d es = pre.map (T.groupSlot d) ++
        T.groupSlot d (T.day zone e, xs) :: (post.map (T.groupSlot d) ++
          List.replicate (T.MAX_OPERATE_QUEUE - (FirstFit.groups (T.day zone) es).length)
            T.blank) := by
      simp [stagedSlots, hsplit]
    have hfind : findSlot zone (T.time e) n (T.stagedSlots zone d es)
        = some (pre.length, false) := by
      have hge := T.groupSlot_of_mem zone (d := d) hzes hg
      rw [hslots, findSlot_of_sameDay zone ?_ hge.1 hge.2.symm ?_, List.length_map]
      · intro x hx
        obtain ⟨g, hgpre, rfl⟩ := List.mem_map.1 hx
        have hgm := T.groupSlot_of_mem zone (d := d) hzes
          (show g ∈ FirstFit.groups (T.day zone) es by rw [hsplit]; simp [hgpre])
        refine ⟨hgm.1, fun hc => hpre ?_⟩
        rw [hgm.2] at hc
        exact List.mem_map.2 ⟨g, hgpre, hc.symm⟩
      · rw [List.length_map]
        refine lt_of_le_of_lt ?_ hgn
        rw [hsplit]
        simp
    have hget : (T.stagedSlots zone d es)[pre.length]? =
        some (T.groupSlot d (T.day zone e, xs)) := by
      rw [hslots, List.getElem?_append_right (by simp)]
      simp
    have hxs : xs = es.filter fun x => T.day zone x = T.day zone e := FirstFit.mem_groups _ hg
    have hlen : (T.groupSlot d (T.day zone e, xs)).indexBuffer.length + T.sizeofIndex
        ≤ T.indexBufferSize := by
      rw [groupSlot_indexBuffer_length, hxs]
      linarith [hroom]
    have hgroups : FirstFit.groups (T.day zone) (es ++ [e]) =
        pre ++ (T.day zone e, xs ++ [e]) :: post := by
      rw [FirstFit.groups_concat, hsplit, FirstFit.place_of_split _ hpre]
    have hset : (T.stagedSlots zone d es).set pre.length
        (T.putEvent e (T.groupSlot d (T.day zone e, xs))) = T.stagedSlots zone d (es ++ [e]) := by
      rw [hslots, stagedSlots, hgroups, hsplit]
      rw [List.set_append_right _ _ (by simp)]
      simp [groupSlot_concat]
    simp only [hfind, hget, Bool.false_eq_true, if_false, hall, not_lt.2 hlen, hset]
  · -- the first event of its day
    have hnew : T.day zone e ∉ (FirstFit.groups (T.day zone) es).map Prod.fst := hmem
    have hgroups : FirstFit.groups (T.day zone) (es ++ [e]) =
        FirstFit.groups (T.day zone) es ++ [(T.day zone e, [e])] := by
      rw [FirstFit.groups_concat, FirstFit.place_of_new _ hnew]
    have hspace : (FirstFit.groups (T.day zone) es).length + 1 ≤ T.MAX_OPERATE_QUEUE := by
      have h := hfit.days
      rw [← FirstFit.length_groups, hgroups] at h
      simpa using h
    obtain ⟨r, hr⟩ : ∃ r, T.MAX_OPERATE_QUEUE - (FirstFit.groups (T.day zone) es).length = r + 1 :=
      ⟨T.MAX_OPERATE_QUEUE - (FirstFit.groups (T.day zone) es).length - 1, by omega⟩
    have hslots : T.stagedSlots zone d es =
        (FirstFit.groups (T.day zone) es).map (T.groupSlot d) ++
          T.blank :: List.replicate r T.blank := by
      rw [stagedSlots, hr, List.replicate_succ]
    have hfind : findSlot zone (T.time e) n (T.stagedSlots zone d es)
        = some ((FirstFit.groups (T.day zone) es).length, true) := by
      rw [hslots, findSlot_of_free zone ?_ rfl (by simpa using hgn), List.length_map]
      intro x hx
      obtain ⟨g, hg, rfl⟩ := List.mem_map.1 hx
      have hgm := T.groupSlot_of_mem zone (d := d) hzes hg
      refine ⟨hgm.1, fun hc => hnew ?_⟩
      rw [hgm.2] at hc
      exact List.mem_map.2 ⟨g, hg, hc.symm⟩
    have hget : (T.stagedSlots zone d es)[(FirstFit.groups (T.day zone) es).length]? =
        some T.blank := by
      rw [hslots, List.getElem?_append_right (by simp)]
      simp
    have hlen : (T.openSlot d (zone.localtime (T.time e)) T.blank).indexBuffer.length
        + T.sizeofIndex ≤ T.indexBufferSize := by
      have h1 : T.sizeofIndex ≤ T.indexBufferSize := by
        refine le_trans ?_ hroom
        exact Nat.le_mul_of_pos_left _ (by omega)
      simpa [openSlot, blank] using h1
    have hset : (T.stagedSlots zone d es).set (FirstFit.groups (T.day zone) es).length
        (T.putEvent e (T.openSlot d (zone.localtime (T.time e)) T.blank))
          = T.stagedSlots zone d (es ++ [e]) := by
      have hr' : T.MAX_OPERATE_QUEUE - ((FirstFit.groups (T.day zone) es).length + 1) = r := by
        omega
      rw [hslots, stagedSlots, hgroups, List.set_append_right _ _ (by simp)]
      simp [groupSlot, day, hr']
    simp only [hfind, hget, if_true, hall, Bool.false_eq_true, if_false, not_lt.2 hlen, hset]

/-- **The staging loop.**  A batch without zero times that fits the buffers is staged
completely: day by day, in queue order, and the counter goes up by its length. -/
lemma stageAll_staged (d : Disk) {n : ℕ} (io : IterIo) (fs : List ε) :
    ∀ (total : ℕ) (es : List ε), T.ZeroFree (es ++ fs) → T.Fits zone (es ++ fs) →
      (∀ e ∈ fs, T.saves e = true) →
      (∀ i, es.length ≤ i → i < es.length + fs.length → T.reallocs = true → io.realloc i = true) →
      es.length + fs.length ≤ n →
      T.stageAll zone d n io es.length ⟨T.stagedSlots zone d es, total⟩ fs =
        .done (⟨T.stagedSlots zone d (es ++ fs), total + fs.length⟩, es.length + fs.length) := by
  induction fs with
  | nil => intro total es _ _ _ _ _; simp [stageAll]
  | cons e fs ih =>
      intro total es hz hfit hsave halloc hn
      have happ : es ++ e :: fs = (es ++ [e]) ++ fs := by simp
      rw [happ] at hz hfit
      have hstep := T.stage_staged zone (n := n) d total (io.realloc es.length)
        (fun x hx => hz x (List.mem_append_left _ hx))
        hfit.of_append (hsave e (by simp)) (halloc es.length le_rfl (by simp)) (by simp at hn; omega)
      have hrest := ih (total + 1) (es ++ [e]) hz hfit (fun x hx => hsave x (by simp [hx]))
        (fun i hi hi' => halloc i (by simp at hi; omega) (by simp at hi' ⊢; omega))
        (by simp at hn ⊢; omega)
      rw [List.length_append, List.length_singleton] at hrest
      rw [stageAll, hstep, happ]
      simp only [hrest, List.length_cons]
      congr 2
      · congr 1; omega
      · omega

end SaveThread

end DeviceTools
