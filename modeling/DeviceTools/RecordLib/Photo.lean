/-
The photo of a stored record can be read back.

A day's data file grows by the frames of the day's records, in queue order, and the index
entry of a record has the position of its frame.  So `getOneRecordPhoto` finds the frame in
the file as it is after the save, and in every later state of the file, since files only
grow.
-/
import DeviceTools.RecordLib.Record
import DeviceTools.Store.DayFiles

namespace DeviceTools

open ByteWord

namespace RecordLib

variable (L : RecordLib) (zone : Zone)

/-! ### Reading a frame -/

/-- The data file that `getOneRecordPhoto` opens is that of the record's day. -/
lemma getOneRecordPhoto_path (tm : Tm) :
    L.recordPicPath ++ '/' :: Decimal.pad 8 tm.stamp ++ dotData = L.dataFile tm := by
  rw [Tm.pad_stamp, dataFile, dayPath]

lemma take_drop_of_prefix (xs ys : List UInt8) {zs : List UInt8} (h : xs ++ ys <+: zs) :
    (zs.drop xs.length).take ys.length = ys := by
  obtain ⟨ws, rfl⟩ := h
  simp

/-- **A frame in the data file is read back**: if the file has the frame of a photo at the
given address, and the frame is within the size limit, the photo is found. -/
lemma getOneRecordPhoto_of_frame {d : Disk} {t : ℕ} {before photo : List UInt8} {x : FileIndex}
    (hfile : before ++ frame x.encode photo <+: d.contents (L.dataFile (zone.localtime t)))
    (hlen : (d.contents (L.dataFile (zone.localtime t))).length ≤ OFF_MAX)
    (hsize : x.fileSize.toNat = framedSize photo.length)
    (hmax : framedSize photo.length < MAX_PHOTO_FILE_SIZE) :
    L.getOneRecordPhoto zone d t before.length true = ((photo.length : ℤ), photo) := by
  obtain ⟨rest, hrest⟩ := hfile
  -- the file exists: it is not empty
  have hopen : d.openRead (L.dataFile (zone.localtime t)) =
      some (before ++ frame x.encode photo ++ rest) := by
    rcases hd : d (L.dataFile (zone.localtime t)) with _ | bs
    · simp [Disk.contents, hd, frame, RECORD_START_FLAG] at hrest
    · simp only [Disk.contents, hd, Option.getD_some] at hrest hlen
      simp [Disk.openRead, hd, hrest, hlen]
  have hbefore : before.length < 2 ^ 31 := by
    rw [← hrest] at hlen
    simp only [List.length_append, OFF_MAX] at hlen
    omega
  set bs := before ++ frame x.encode photo ++ rest with hbs
  have hstart : (bs.drop before.length).take RECORD_START_FLAG.length = RECORD_START_FLAG :=
    take_drop_of_prefix _ _ ⟨x.encode ++ (photo ++ RECORD_END_FLAG) ++ rest, by simp [hbs, frame]⟩
  have hindex : (bs.drop (before.length + RECORD_START_FLAG.length)).take FileIndex.SIZE
      = x.encode := by
    have hp : before ++ RECORD_START_FLAG ++ x.encode <+: bs :=
      ⟨photo ++ RECORD_END_FLAG ++ rest, by simp [hbs, frame]⟩
    have h := take_drop_of_prefix _ _ hp
    simpa using h
  have hphoto : (bs.drop (before.length + RECORD_START_FLAG.length + FileIndex.SIZE)).take
      photo.length = photo := by
    have hp : before ++ RECORD_START_FLAG ++ x.encode ++ photo <+: bs :=
      ⟨RECORD_END_FLAG ++ rest, by simp [hbs, frame]⟩
    have h := take_drop_of_prefix _ _ hp
    simpa [Nat.add_assoc] using h
  have hend : (bs.drop (before.length + RECORD_START_FLAG.length + FileIndex.SIZE +
      photo.length)).take RECORD_END_FLAG.length = RECORD_END_FLAG := by
    have hp : before ++ RECORD_START_FLAG ++ x.encode ++ photo ++ RECORD_END_FLAG <+: bs :=
      ⟨rest, by simp [hbs, frame]⟩
    have h := take_drop_of_prefix _ _ hp
    simpa [Nat.add_assoc] using h
  have hfs : FileIndex.fileSizeAt x.encode = (framedSize photo.length : ℤ) := by
    rw [FileIndex.fileSizeAt_encode, hsize]
    rw [hsize]
    simp only [MAX_PHOTO_FILE_SIZE] at hmax
    omega
  have hn : (framedSize photo.length : ℤ) - framedSize 0 = (photo.length : ℤ) := by
    simp only [framedSize]
    push_cast
    ring
  have hpos : ¬ (framedSize photo.length : ℤ) ≤ 0 := by
    simp only [framedSize, RECORD_START_FLAG]
    push_cast
    simp
    omega
  have hmax' : ¬ (MAX_PHOTO_FILE_SIZE : ℤ) ≤ framedSize photo.length := by
    omega
  rw [getOneRecordPhoto, getOneRecordPhoto_path, hopen]
  simp only [not_le.2 hbefore, if_false, hstart, hindex, hfs, hn, FileIndex.length_encode, ne_eq,
    not_true_eq_false, hpos, hmax', or_self, Bool.true_eq_false, Int.toNat_natCast, hphoto, hend,
    and_self, if_true, (Int.natCast_nonneg photo.length).not_gt]

/-! ### The data file -/

variable {L zone}

lemma dataFile_ne_indexFile (a b : Tm) : L.dataFile a ≠ L.saveRecordThread.indexFile b := by
  intro h
  have ha : (L.dataFile a).getLast? = some 'a' := by
    rw [dataFile, dayPath, List.getLast?_append]
    rfl
  have hx : (L.saveRecordThread.indexFile b).getLast? = some 'x' := by
    rw [SaveThread.indexFile, dayPath, List.getLast?_append]
    rfl
  rw [h, hx] at ha
  simp at ha

@[simp] lemma groupSlot_picFileName (d : Disk) (k : Tm) (es : List OperateEvent) :
    (L.saveRecordThread.groupSlot d (k, es)).pic.picFileName = L.dataFile k := by
  induction es using List.reverseRecOn with
  | nil => rfl
  | append_singleton es e ih => rw [SaveThread.groupSlot_concat]; exact ih

lemma groupSlot_startAddr (d : Disk) (k : Tm) (es : List OperateEvent) :
    (L.saveRecordThread.groupSlot d (k, es)).pic.startAddr = (d.stat (L.dataFile k)).getD 0 := by
  induction es using List.reverseRecOn with
  | nil => rfl
  | append_singleton es e ih => rw [SaveThread.groupSlot_concat]; exact ih

/-- The photo buffer of a day only grows while events are staged. -/
lemma groupSlot_picBuffer_extends (d : Disk) (k : Tm) (es fs : List OperateEvent) :
    (L.saveRecordThread.groupSlot d (k, es)).pic.pPicBuffer <+:
      (L.saveRecordThread.groupSlot d (k, es ++ fs)).pic.pPicBuffer := by
  induction fs using List.reverseRecOn with
  | nil => simp
  | append_singleton fs e ih =>
      rw [← List.append_assoc, SaveThread.groupSlot_concat]
      exact ih.trans (List.prefix_append _ _)

lemma addedTo_appends_data (d : Disk) (g : Tm × List OperateEvent) (k : Tm) :
    addedTo (L.dataFile k) (L.saveRecordThread.appends (L.saveRecordThread.groupSlot d g)) =
      if k = g.1 then (L.saveRecordThread.groupSlot d g).pic.pPicBuffer else [] := by
  obtain ⟨k', es⟩ := g
  have hidx : ¬ L.dataFile k = L.saveRecordThread.indexFile k' := dataFile_ne_indexFile k k'
  have hday : L.dataFile k = L.dataFile k' ↔ k = k' := dayPath_inj
  have hpic : L.saveRecordThread.picAppends (L.saveRecordThread.groupSlot d (k', es)).pic =
      [⟨false, L.dataFile k', (L.saveRecordThread.groupSlot d (k', es)).pic.pPicBuffer⟩] := by
    rw [← groupSlot_picFileName d k' es]
    rfl
  rw [SaveThread.appends, hpic, List.singleton_append, addedTo_cons, addedTo_cons, addedTo_nil]
  simp only [SaveThread.groupSlot_indexFileName, hidx, hday, if_false, List.append_nil]

/-- **The data file of a day gets the frames of the day's records**, in queue order. -/
lemma addedTo_dataFile (d : Disk) (batch : List OperateEvent) (k : Tm) :
    addedTo (L.dataFile k) ((FirstFit.groups (L.saveRecordThread.day zone) batch).flatMap
        fun g => L.saveRecordThread.appends (L.saveRecordThread.groupSlot d g)) =
      (L.saveRecordThread.groupSlot d
        (k, batch.filter fun e => L.saveRecordThread.day zone e = k)).pic.pPicBuffer := by
  rw [SaveThread.addedTo_groups batch (k := k), addedTo_appends_data, if_pos rfl]
  · intro g hg
    rw [addedTo_appends_data, if_neg (Ne.symm hg)]
  · rw [addedTo_appends_data, if_pos rfl]
    rfl

/-- The index file of a day gets the index records of the day's events. -/
lemma addedTo_recordIndex (d : Disk) (batch : List OperateEvent) (k : Tm) :
    addedTo (L.saveRecordThread.indexFile k)
        ((FirstFit.groups (L.saveRecordThread.day zone) batch).flatMap
          fun g => L.saveRecordThread.appends (L.saveRecordThread.groupSlot d g)) =
      ((L.saveRecordThread.entries zone d batch).filter
        fun x => L.saveRecordThread.day zone x.1 = k).flatMap Prod.snd := by
  refine SaveThread.addedTo_indexFile batch k ?_
  rintro ⟨k', es⟩ a ha
  rw [List.mem_singleton.1 ha]
  exact (groupSlot_picFileName d k' es).symm ▸ dataFile_ne_indexFile k' k

/-- **The photo of every record of a save is read back**, from any later state of the
disk. -/
lemma getOneRecordPhoto_of_entry {io : ℕ → AppendIo} {d d' : Disk} {batch : List OperateEvent}
    (hacc : ∀ e ∈ batch, e.addRecord = true)
    (hio : Completes io 0 d ((FirstFit.groups (L.saveRecordThread.day zone) batch).flatMap
      fun g => L.saveRecordThread.appends (L.saveRecordThread.groupSlot d g)))
    (hlater : ∀ q, (writeAll io 0 d ((FirstFit.groups (L.saveRecordThread.day zone) batch).flatMap
      fun g => L.saveRecordThread.appends (L.saveRecordThread.groupSlot d g))).1.contents q <+:
        d'.contents q)
    {x : OperateEvent × List UInt8} (hx : x ∈ L.saveRecordThread.entries zone d batch)
    (hlen : (d'.contents (L.dataFile (L.saveRecordThread.day zone x.1))).length ≤ OFF_MAX)
    (hmax : framedSize x.1.photo.length < MAX_PHOTO_FILE_SIZE) :
    L.getOneRecordPhoto zone d' (FileIndex.recordTimeAt x.2) (FileIndex.startAddrAt x.2) true =
      ((x.1.photo.length : ℤ), x.1.photo) := by
  obtain ⟨e, ent⟩ := x
  obtain ⟨as, bs, hbatch, hent⟩ := SaveThread.mem_entriesFrom hx
  simp only [List.nil_append] at hbatch hent hlen hmax ⊢
  set k := L.saveRecordThread.day zone e with hk
  have he : e ∈ batch := by rw [hbatch]; simp
  have hphoto := OperateEvent.length_photo (hacc e he)
  -- the slot of the day before the event was put in it
  set s := L.saveRecordThread.groupSlot d (k, as.filter fun x => L.saveRecordThread.day zone x = k)
    with hs
  have hfile : d.contents (L.dataFile k) ++ (s.pic.pPicBuffer ++ frame ent e.photo) <+:
      d'.contents (L.dataFile k) := by
    refine List.IsPrefix.trans ?_ (hlater _)
    rw [contents_of_completes hio, addedTo_dataFile, hbatch, List.filter_append,
      List.filter_cons_of_pos (by simp [hk])]
    refine (List.prefix_append_right_inj _).2 ?_
    rw [List.append_cons]
    refine List.IsPrefix.trans ?_ (groupSlot_picBuffer_extends d k _ _)
    rw [SaveThread.groupSlot_concat, hent]
    exact List.prefix_refl _
  have hstat : s.pic.startAddr = (d.contents (L.dataFile k)).length := by
    rw [hs, groupSlot_startAddr, Disk.stat_eq_some]
    exact le_trans (le_trans (by simp) hfile.length_le) hlen
  have hbound : (d.contents (L.dataFile k)).length + s.pic.pPicBuffer.length ≤ OFF_MAX := by
    refine le_trans (le_trans ?_ hfile.length_le) hlen
    simp only [List.length_append]
    omega
  have hentry : ent = (fileIndex e s.startIndexNo s.pic).encode := hent
  have haddr : FileIndex.startAddrAt ent = (d.contents (L.dataFile k) ++ s.pic.pPicBuffer).length := by
    rw [hentry, FileIndex.startAddrAt_encode, List.length_append, ← hstat]
    simp only [fileIndex, UInt32.toNat_ofNat']
    apply Nat.mod_eq_of_lt
    rw [hstat]
    simp only [OFF_MAX] at hbound
    omega
  have hsize : (fileIndex e s.startIndexNo s.pic).fileSize.toNat = framedSize e.photo.length := by
    rw [hphoto] at hmax ⊢
    simp only [fileIndex, UInt32.toNat_ofNat']
    apply Nat.mod_eq_of_lt
    simp only [MAX_PHOTO_FILE_SIZE] at hmax
    omega
  have htime : FileIndex.recordTimeAt ent = e.time.toNat := by
    rw [hentry, FileIndex.recordTimeAt_encode]
    rfl
  rw [htime, haddr]
  refine getOneRecordPhoto_of_frame L zone ?_ hlen hsize hmax
  rw [List.append_assoc, ← hentry]
  exact hfile

end RecordLib

end DeviceTools
