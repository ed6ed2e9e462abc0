/-
What a save of the management log leaves on the disk.

The slots of the staging array are found by the time of the last event put in them, and this
time changes with every event.  For a batch that has no more events than there are slots, and
no event of the time 0, each day nevertheless has one slot: the index file of each day grows by
the records of the day's events, in queue order, and no other file is touched.
-/
import DeviceTools.LogLib.Search
import DeviceTools.Store.DayFiles

namespace DeviceTools

open ByteWord

namespace SaveThread

variable {ε π : Type} {T : SaveThread ε π} {zone : Zone}

/-- **A save without photos**, of a batch without zero times that fits the buffers: it takes
all events, and when all appends are complete the files of the days have grown by the records
of their events. -/
lemma flush_files (hrealloc : T.reallocs = false) (hpic : ∀ p, T.picAppends p = []) (io : IterIo)
    (d : Disk) (total : ℕ) {batch : List ε} (hz : T.ZeroFree batch) (hfit : T.Fits zone batch)
    (hsave : ∀ e ∈ batch, T.saves e = true) : ∃ r, T.flush zone io d total batch = some r ∧
      r.dequeued = batch.length ∧ (r.ok = true →
        (∀ k, r.disk.contents (T.indexFile k) = d.contents (T.indexFile k) ++
          ((T.entries zone d batch).filter fun x => T.day zone x.1 = k).flatMap Prod.snd) ∧
        ∀ q, (∀ e ∈ batch, T.indexFile (T.day zone e) ≠ q) → r.disk q = d q) := by
  rcases flush_staged io d total hz hfit hsave with ⟨-, hstage⟩ | ⟨hfail, -⟩
  · refine ⟨_, by rw [flush, hstage], rfl, fun hok => ⟨fun k => ?_, fun q hq => ?_⟩⟩
    · have hcompletes := (writeAll_ok_iff _ _ _ _).1 hok
      rw [contents_of_completes hcompletes, allAppends_stagedSlots hz, addedTo_indexFile]
      intro g a ha
      rw [hpic] at ha
      simp at ha
    · refine writeAll_of_ne _ _ _ _ fun a ha => ?_
      rw [allAppends_stagedSlots hz] at ha
      obtain ⟨g, hg, ha⟩ := List.mem_flatMap.1 ha
      rw [appends, hpic, List.nil_append, List.mem_singleton] at ha
      have hkey : g.1 ∈ (FirstFit.groups (T.day zone) batch).map Prod.fst := List.mem_map_of_mem hg
      rw [FirstFit.mem_keys_groups] at hkey
      obtain ⟨e, he, hday⟩ := List.mem_map.1 hkey
      rw [ha, groupSlot_indexFileName, ← hday]
      exact hq e he
  · refine absurd (fun pre e post _ hc => ?_) hfail
    obtain ⟨-, hr, -⟩ := hc
    rw [hrealloc] at hr
    simp at hr

end SaveThread

/-! ### The records -/

/-- The text in an array: the bytes up to the first zero. -/
def cText (bs : List UInt8) : List UInt8 := bs.takeWhile (· ≠ 0)

/-- The member `logSubType`. -/
def logSubTypeAt (b : List UInt8) : UInt8 := b.getD 17 0

/-- The member `logUserId` of a `manlog_index_t`. -/
def logUserIdAt (b : List UInt8) : ℕ := leNat (field b 44 4)

/-- The member `logOpType` of a `manlog_index_t`. -/
def logOpTypeAt (b : List UInt8) : ℕ := leNat (field b 48 4)

/-- The member `logResult` of a `manlog_index_t`. -/
def logResultAt (b : List UInt8) : UInt8 := b.getD 52 0

/-- The text in the member `logMsg` of a `manlog_index_t`. -/
def logMsgAt (b : List UInt8) : List UInt8 := cText (field b 53 MAX_MSG_LEN)

/-- The index structure has the members of the event.  The last byte of the arrays is not
copied: a text with a terminating zero is copied as a whole, another one without its last byte. -/
structure ManlogEvent.CopiedTo (e : ManlogEvent) (b : List UInt8) : Prop where
  length : b.length = MANLOG_INDEX_SIZE
  type : logTypeAt b = e.cType
  subType : logSubTypeAt b = e.cSubType
  opType : logOpTypeAt b = e.iOpType.toNat
  result : logResultAt b = e.cResult
  time : logTimeAt b = e.uiTime.toNat
  userNo : logUserNoAt b = e.uiUserNo.toNat
  userId : logUserIdAt b = e.uiUserId.toNat
  userName : logUserNameAt b =
    if 0 ∈ e.acUserName then cText e.acUserName else e.acUserName.take (MAX_USER_NAME_LEN - 1)
  msg : logMsgAt b = if 0 ∈ e.acMsg then cText e.acMsg else e.acMsg.take (MAX_MSG_LEN - 1)

/-- The text in a text member. -/
lemma cText_textMember {n : ℕ} {text : List UInt8} (h : text.length = n) (hn : 0 < n) :
    cText (textMember n text) = if 0 ∈ text then cText text else text.take (n - 1) := by
  have hcopy : cText (textMember n text) = (cText text).take (n - 1) := by
    have hzeros : ∀ k, (List.replicate k (0 : UInt8)).takeWhile (· ≠ 0) = [] := by
      intro k
      simp
    rw [textMember]
    split
    · next h0 =>
        obtain ⟨cs, rfl⟩ := List.head?_eq_some_iff.1 h0
        rw [List.nil_append, cText, hzeros, cText, List.takeWhile_cons]
        simp
    · rw [cText, List.takeWhile_append, hzeros, List.append_nil, cText, List.take_takeWhile]
      split
      · next hfull => exact ((List.takeWhile_prefix _).eq_of_length hfull).symm
      · rfl
  rw [hcopy]
  split
  · next h0 =>
      -- the terminating zero is not part of the text
      have hdrop : text.dropWhile (· ≠ 0) ≠ [] := by
        intro hnil
        have := List.dropWhile_eq_nil_iff.1 hnil 0 h0
        simp at this
      have hlen := congrArg List.length (List.takeWhile_append_dropWhile (p := (· ≠ 0)) (l := text))
      have hpos := List.length_pos_iff.2 hdrop
      rw [List.length_append] at hlen
      rw [List.take_of_length_le]
      rw [cText]
      omega
  · next h0 =>
      have hall : cText text = text := by
        rw [cText, List.takeWhile_eq_self_iff]
        intro b hb
        simpa using fun hc : b = 0 => h0 (hc ▸ hb)
      rw [hall]

/-- The members of the index structure, with the bytes between them. -/
def ManlogEvent.members (e : ManlogEvent) (no : ℕ) : List (List UInt8) :=
  [leBytes 4 (UInt32.ofNat no).toNat, [0, 0, 0, 0], leBytes 4 0, leBytes 4 0,
    [e.cType, e.cSubType, 0, 0], leBytes 4 e.uiTime.toNat, textMember MAX_USER_NAME_LEN e.acUserName,
    leBytes 4 e.uiUserNo.toNat, leBytes 4 e.uiUserId.toNat, leBytes 4 e.iOpType.toNat, [e.cResult],
    textMember MAX_MSG_LEN e.acMsg, List.replicate 67 0]

lemma ManlogEvent.logIndex_eq (e : ManlogEvent) (no : ℕ) : e.logIndex no = (e.members no).flatten := by
  simp [members, logIndex, logTail, LogHead.encode]

lemma ManlogEvent.length_take_members (e : ManlogEvent) (no i : ℕ) :
    ((e.members no).take i).flatten.length =
      (([4, 4, 4, 4, 4, 4, 16, 4, 4, 4, 1, 64, 67] : List ℕ).take i).sum := by
  rw [List.length_flatten, List.map_take]
  congr 2
  simp [members, length_textMember]
  exact ⟨rfl, rfl⟩

lemma ManlogEvent.field_logIndex (e : ManlogEvent) (no i off : ℕ) {x : List UInt8} {w : ℕ}
    (hx : (e.members no)[i]? = some x)
    (hoff : (([4, 4, 4, 4, 4, 4, 16, 4, 4, 4, 1, 64, 67] : List ℕ).take i).sum = off)
    (hw : x.length = w) : field (e.logIndex no) off w = x := by
  rw [logIndex_eq]
  exact field_flatten i hx ((e.length_take_members no i).trans hoff) hw

lemma getD_of_field {bs : List UInt8} {off : ℕ} {x : UInt8} (y : UInt8) (h : field bs off 1 = [x]) :
    bs.getD off y = x := by
  have hget := congrArg (fun l : List UInt8 => l[0]?) h
  simp only [field, List.getElem?_take_of_lt Nat.one_pos, List.getElem?_drop, Nat.add_zero] at hget
  rw [List.getD_eq_getElem?_getD, hget]
  rfl

lemma ManlogEvent.copiedTo_logIndex (e : ManlogEvent) (no : ℕ) : e.CopiedTo (e.logIndex no) := by
  have hword : ∀ n : UInt32, leNat (leBytes 4 n.toNat) = n.toNat := fun n =>
    leNat_leBytes_of_lt n.toNat_lt
  refine ⟨e.length_logIndex no, ?_, ?_, ?_, ?_, ?_, ?_, ?_, ?_, ?_⟩
  · simp [logTypeAt, logIndex, LogHead.encode, leBytes]
  · simp [logSubTypeAt, logIndex, LogHead.encode, leBytes]
  · rw [logOpTypeAt, e.field_logIndex no 9 48 rfl rfl (leBytes_length ..), hword]
  · exact getD_of_field 0 (e.field_logIndex no 10 52 rfl rfl rfl)
  · rw [logTimeAt, e.field_logIndex no 5 20 rfl rfl (leBytes_length ..), hword]
  · rw [logUserNoAt, e.field_logIndex no 7 40 rfl rfl (leBytes_length ..), hword]
  · rw [logUserIdAt, e.field_logIndex no 8 44 rfl rfl (leBytes_length ..), hword]
  · rw [logUserNameAt, e.field_logIndex no 6 24 rfl rfl (length_textMember ..)]
    exact cText_textMember e.length_acUserName (by decide)
  · rw [logMsgAt, e.field_logIndex no 11 53 rfl rfl (length_textMember ..)]
    exact cText_textMember e.length_acMsg (by decide)

/-! ### The save -/

section
variable {manLogIndexPath : Path} {zone : Zone}

lemma saveManLogThread_fits {batch : List ManlogEvent} (h : batch.length ≤ 10) :
    (saveManLogThread manLogIndexPath).Fits zone batch := by
  refine ⟨fun _ _ => rfl, ?_, fun k => ?_⟩
  · refine le_trans (List.toFinset_card_le _) ?_
    rw [List.length_map]
    exact h
  · have hle := List.length_filter_le
      (fun e => (saveManLogThread manLogIndexPath).day zone e = k) batch
    have hsize : 10 * MANLOG_INDEX_SIZE ≤ 10 * 256 := by decide
    exact le_trans (Nat.mul_le_mul_right MANLOG_INDEX_SIZE (le_trans hle h)) hsize

variable (manLogIndexPath zone) in
/-- The records of a day are those of its events, in queue order. -/
lemma copiedTo_entries (d : Disk) (batch : List ManlogEvent) (k : Tm) :
    List.Forall₂ ManlogEvent.CopiedTo
      (batch.filter fun e => (saveManLogThread manLogIndexPath).day zone e = k)
      ((((saveManLogThread manLogIndexPath).entries zone d batch).filter
        fun x => (saveManLogThread manLogIndexPath).day zone x.1 = k).map Prod.snd) := by
  have hfst := (saveManLogThread manLogIndexPath).entries_fst zone d batch
  have hfilter : (batch.filter fun e => (saveManLogThread manLogIndexPath).day zone e = k) =
      (((saveManLogThread manLogIndexPath).entries zone d batch).filter
        fun x => (saveManLogThread manLogIndexPath).day zone x.1 = k).map Prod.fst := by
    nth_rewrite 1 [← hfst]
    rw [List.filter_map]
    rfl
  rw [hfilter, List.forall₂_map_left_iff, List.forall₂_map_right_iff, List.forall₂_same]
  intro x hx
  obtain ⟨as, bs, -, hrec⟩ := SaveThread.mem_entriesFrom (List.mem_filter.1 hx).1
  rw [hrec]
  exact x.1.copiedTo_logIndex _

end

/-- **A save files every event once, under its own day.**  The thread finds at most as many
events in its queue as there are slots, none of the time 0, in any order of days, over any
store.  Then the iteration accesses no memory outside a buffer and takes all events out of the
queue.  If it does not end in an error, the index file of each day has grown by one record for
each event of the day, in queue order, with the members of the event; all other files are as
they were. -/
theorem man_log_save_by_day (zone : Zone) (manLogIndexPath : Path) (tick : Tick) (io : IterIo)
    (s : ThreadState ManlogEvent) (hqueue : s.queue.Valid)
    (hsaving : (saveManLogThread manLogIndexPath).Saving tick s)
    (hlength : s.queue.nodes.length ≤ 10) (htimes : ∀ e ∈ s.queue.nodes, e.uiTime ≠ 0) :
    ∃ s', (saveManLogThread manLogIndexPath).iterate zone tick io s = some s' ∧ s'.queue.nodes = [] ∧
      (s'.errorNum = s.errorNum →
        (∀ day, ∃ records : List (List UInt8),
          List.Forall₂ ManlogEvent.CopiedTo
            (s.queue.nodes.filter fun e => zone.localtime e.uiTime.toNat = day) records ∧
          s'.disk.contents (dayPath manLogIndexPath day dotIndex) =
            s.disk.contents (dayPath manLogIndexPath day dotIndex) ++ records.flatten) ∧
        ∀ q, (∀ e ∈ s.queue.nodes,
          dayPath manLogIndexPath (zone.localtime e.uiTime.toNat) dotIndex ≠ q) →
          s'.disk q = s.disk q) := by
  have hz : (saveManLogThread manLogIndexPath).ZeroFree s.queue.nodes := by
    intro e he hc
    exact htimes e he (UInt32.toNat_inj.1 hc)
  obtain ⟨r, hflush, hdequeued, hfiles⟩ := SaveThread.flush_files rfl (fun _ => rfl) io s.disk s.total
    hz (saveManLogThread_fits hlength) (fun _ _ => rfl)
  obtain ⟨s', hit, -, hnodes, hdisk, -, herror⟩ := SaveThread.iterate_of_flush hqueue hsaving hflush
  refine ⟨s', hit, ?_, fun hsuccess => ?_⟩
  · rw [hnodes, hdequeued, List.drop_length]
  · have hok : r.ok = true := by
      by_contra hc
      rw [if_neg hc] at herror
      omega
    obtain ⟨hdays, hothers⟩ := hfiles hok
    refine ⟨fun day => ⟨_, copiedTo_entries manLogIndexPath zone s.disk s.queue.nodes day, ?_⟩, fun q hq => ?_⟩
    · rw [hdisk, ← List.flatMap_def]
      exact hdays day
    · rw [hdisk]
      exact hothers q hq

lemma length_blankName : (List.replicate MAX_USER_NAME_LEN (0 : UInt8)).length = MAX_USER_NAME_LEN :=
  List.length_replicate

lemma length_blankMsg : (List.replicate MAX_MSG_LEN (0 : UInt8)).length = MAX_MSG_LEN :=
  List.length_replicate

/-- A management log event with an empty name and an empty message. -/
def blankManlog (time userNo : UInt32) : ManlogEvent :=
  ⟨1, 0, time, List.replicate MAX_USER_NAME_LEN 0, userNo, 0, 0, 0, List.replicate MAX_MSG_LEN 0,
    length_blankName, length_blankMsg⟩

/-- Three queued events, the first and the last of 1970-01-01 and the second of the day behind. -/
def threeQueued : ThreadState ManlogEvent where
  queue := ⟨[blankManlog 5 1, blankManlog 86405 2, blankManlog 6 3], 3, 3⟩
  disk _ := none
  total := 0
  errorNum := 0
  stopped := false

theorem man_log_save_by_day_three : ∃ s' a b,
    (saveManLogThread ['m']).iterate FixedZone.utc.zone ⟨true, 0, 0⟩ ⟨fun _ => true, fun _ => .writes 1000⟩
      threeQueued = some s' ∧
    (blankManlog 5 1).CopiedTo a ∧ (blankManlog 6 3).CopiedTo b ∧
    s'.disk.contents (dayPath ['m'] (FixedZone.utc.zone.localtime 5) dotIndex) = a ++ b := by
  have htimes : ∀ e ∈ threeQueued.queue.nodes, e.uiTime ≠ 0 := by
    simp [threeQueued, blankManlog]
  obtain ⟨s', hit, -, hfiles⟩ := man_log_save_by_day FixedZone.utc.zone ['m'] ⟨true, 0, 0⟩
    ⟨fun _ => true, fun _ => .writes 1000⟩ threeQueued ⟨rfl, rfl⟩ ⟨rfl, rfl, rfl⟩ (by decide) htimes
  have herror : ((saveManLogThread ['m']).iterate FixedZone.utc.zone ⟨true, 0, 0⟩
      ⟨fun _ => true, fun _ => .writes 1000⟩ threeQueued).map ThreadState.errorNum = some 0 := by
    decide +kernel
  rw [hit] at herror
  obtain ⟨records, hrecords, hcontents⟩ := (hfiles (Option.some.inj herror)).1
    (FixedZone.utc.zone.localtime 5)
  have hday : FixedZone.utc.zone.localtime 6 = FixedZone.utc.zone.localtime 5 := by decide +kernel
  have hother : FixedZone.utc.zone.localtime 86405 ≠ FixedZone.utc.zone.localtime 5 := by decide +kernel
  have hfilter : (threeQueued.queue.nodes.filter fun e =>
      FixedZone.utc.zone.localtime e.uiTime.toNat = FixedZone.utc.zone.localtime 5) =
        [blankManlog 5 1, blankManlog 6 3] := by
    simp [threeQueued, blankManlog, hday, hother]
  rw [hfilter] at hrecords
  obtain ⟨a, _, ha, hrest, rfl⟩ := List.forall₂_cons_left_iff.1 hrecords
  obtain ⟨b, _, hb, hnil, rfl⟩ := List.forall₂_cons_left_iff.1 hrest
  obtain rfl := List.forall₂_nil_left_iff.1 hnil
  refine ⟨s', a, b, hit, ha, hb, ?_⟩
  rw [hcontents]
  simp [threeQueued, Disk.contents]

end DeviceTools
