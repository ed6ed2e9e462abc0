/-
recordLib: the data types, the save thread and the reading of a photo.

A record is stored twice.  Its index entry (`file_index_t`) goes to the `.index` file of its
day; the entry and the photo, between a start flag and an end flag, go to the `.data` file
of the day, and the entry has the address of the start flag there.
-/
import DeviceTools.Store.Flush

namespace DeviceTools

open ByteWord

/-! ### The index structure -/

/-- `file_index_t`. -/
structure FileIndex where
  no : UInt32
  devNo : UInt8
  fileType : UInt8
  /-- 0: normal, 1: deleted. -/
  fileStatus : UInt8
  userType : UInt8
  id : UInt32
  nServerID : UInt32
  nChannelID : UInt32
  recogType : UInt8
  recogStatus : UInt8
  recogScores : UInt8
  recogReason : UInt8
  recordTime : UInt32
  startAddr : UInt32
  fileSize : UInt32
  cRecogMode : UInt8
deriving DecidableEq, Repr

namespace FileIndex

/-- `sizeof(file_index_t)`. -/
def SIZE : ℕ := 48

/-- The members that stand before `recordTime`. -/
def headBytes (x : FileIndex) : List UInt8 :=
  leBytes 4 x.no.toNat ++ [x.devNo, x.fileType, x.fileStatus, x.userType] ++
    leBytes 4 x.id.toNat ++ leBytes 4 x.nServerID.toNat ++ leBytes 4 x.nChannelID.toNat ++
    [x.recogType, x.recogStatus, x.recogScores, x.recogReason]

/-- The structure in memory, with the member `unused` cleared. -/
def encode (x : FileIndex) : List UInt8 :=
  x.headBytes ++ (leBytes 4 x.recordTime.toNat ++ (leBytes 4 x.startAddr.toNat ++
    (leBytes 4 x.fileSize.toNat ++ x.cRecogMode :: List.replicate 11 0)))

/-- A member of four bytes, read from the structure in memory. -/
def word (bs : List UInt8) (off : ℕ) : ℕ := leNat (field bs off 4)

/-- The member `recordTime` of a structure in memory. -/
def recordTimeAt (bs : List UInt8) : ℕ := word bs 24

/-- The member `startAddr` of a structure in memory. -/
def startAddrAt (bs : List UInt8) : ℕ := word bs 28

/-- The member `fileSize` of a structure in memory, an `int`. -/
def fileSizeAt (bs : List UInt8) : ℤ :=
  if word bs 32 < 2 ^ 31 then (word bs 32 : ℤ) else (word bs 32 : ℤ) - 2 ^ 32

@[simp] lemma length_headBytes (x : FileIndex) : x.headBytes.length = 24 := by
  simp [headBytes]

@[simp] lemma length_encode (x : FileIndex) : x.encode.length = SIZE := by
  simp [encode, SIZE]

lemma leNat_leBytes_toNat (n : UInt32) : leNat (leBytes 4 n.toNat) = n.toNat :=
  leNat_leBytes_of_lt (by simpa using n.toNat_lt)

lemma recordTimeAt_encode (x : FileIndex) : recordTimeAt x.encode = x.recordTime.toNat := by
  rw [recordTimeAt, word, encode, field_append_right _ _ (by simp), length_headBytes,
    field_zero_append _ (by simp), leNat_leBytes_toNat]

lemma startAddrAt_encode (x : FileIndex) : startAddrAt x.encode = x.startAddr.toNat := by
  rw [startAddrAt, word, encode, field_append_right _ _ (by simp), length_headBytes,
    field_append_right _ _ (by simp), leBytes_length, field_zero_append _ (by simp),
    leNat_leBytes_toNat]

lemma fileSizeAt_encode (x : FileIndex) (h : x.fileSize.toNat < 2 ^ 31) :
    fileSizeAt x.encode = x.fileSize.toNat := by
  have hw : word x.encode 32 = x.fileSize.toNat := by
    rw [word, encode, field_append_right _ _ (by simp), length_headBytes,
      field_append_right _ _ (by simp), leBytes_length, field_append_right _ _ (by simp),
      leBytes_length, field_zero_append _ (by simp), leNat_leBytes_toNat]
  rw [fileSizeAt, hw, if_pos h]

end FileIndex

/-! ### Events -/

/-- `operate_event_t`.  The memory that `pFileData` points to has `fileSize` bytes. -/
structure OperateEvent where
  operateType : UInt32
  id : UInt32
  recogScores : UInt32
  nType : UInt32
  nStatus : UInt32
  nUserType : UInt32
  nLoginReason : UInt32
  time : UInt32
  fileSize : UInt32
  cRecogMode : UInt8
  pFileData : Option (List UInt8)
  length_data : ∀ bs, pFileData = some bs → bs.length = fileSize.toNat

def OPERATE_TYPE_RECORD_PIC : UInt32 := 0x01
def OPERATE_TYPE_RECORD : UInt32 := 0x02

namespace OperateEvent

/-- The photo of an event. -/
def photo (e : OperateEvent) : List UInt8 := e.pFileData.getD []

/-- One of the two bits of the operation type is set. -/
def isRecord (e : OperateEvent) : Bool :=
  e.operateType &&& OPERATE_TYPE_RECORD_PIC ≠ 0 || e.operateType &&& OPERATE_TYPE_RECORD ≠ 0

/-- The test of `addRecord`: with `false` it returns -1, with `true` the record is queued. -/
def addRecord (e : OperateEvent) : Bool :=
  e.isRecord && (e.fileSize = 0 || e.pFileData.isSome)

lemma length_photo {e : OperateEvent} (h : e.addRecord = true) :
    e.photo.length = e.fileSize.toNat := by
  rcases hp : e.pFileData with _ | bs
  · simp only [addRecord, hp, Option.isSome_none, Bool.or_false, Bool.and_eq_true,
      decide_eq_true_eq] at h
    simp [photo, hp, h.2]
  · simp [photo, hp, e.length_data bs hp]

end OperateEvent

/-! ### The save thread -/

/-- `RECORD_START_FLAG`. -/
def RECORD_START_FLAG : List UInt8 :=
  [0x5B, 0x46, 0x49, 0x52, 0x53, 0x5F, 0x53, 0x54, 0x41, 0x52, 0x54, 0x5D]

/-- `RECORD_END_FLAG`. -/
def RECORD_END_FLAG : List UInt8 :=
  [0x5B, 0x46, 0x49, 0x52, 0x53, 0x5F, 0x45, 0x4E, 0x44, 0x5D]

def MAX_PHOTO_FILE_SIZE : ℕ := 30 * 1024

/-- The size of a record in the data file: start flag, index, photo, end flag. -/
def framedSize (n : ℕ) : ℕ :=
  RECORD_START_FLAG.length + FileIndex.SIZE + n + RECORD_END_FLAG.length

/-- The members of `record_lib_t` that the save thread reads. -/
structure RecordLib where
  recordIndexPath : Path
  recordPicPath : Path
  recordMaxBufNum : ℤ

/-- The extension of the data files. -/
def dotData : List Char := ['.', 'd', 'a', 't', 'a']

/-- The photo part of `record_buffer_t`; `picOffset` is the length of `pPicBuffer`. -/
structure RecordPic where
  picFileName : Path
  startAddr : ℕ
  pPicBuffer : List UInt8

namespace RecordLib

variable (L : RecordLib)

/-- The path of the data file of a day. -/
def dataFile (tm : Tm) : Path := dayPath L.recordPicPath tm dotData

/-- The file name and the start address of a slot that is opened for a day. -/
def openPic (d : Disk) (tm : Tm) (p : RecordPic) : RecordPic :=
  { p with picFileName := L.dataFile tm, startAddr := (d.stat (L.dataFile tm)).getD 0 }

/-- The index structure filled in for an event. -/
def fileIndex (e : OperateEvent) (no : ℕ) (p : RecordPic) : FileIndex where
  no := UInt32.ofNat no
  devNo := 0
  fileType := 1
  fileStatus := 0
  userType := e.nUserType.toUInt8
  id := e.id
  nServerID := 0
  nChannelID := 0
  recogType := e.nType.toUInt8
  recogStatus := e.nStatus.toUInt8
  recogScores := e.recogScores.toUInt8
  recogReason := e.nLoginReason.toUInt8
  recordTime := e.time
  startAddr := UInt32.ofNat (p.startAddr + p.pPicBuffer.length)
  fileSize := UInt32.ofNat (framedSize e.fileSize.toNat)
  cRecogMode := e.cRecogMode

/-- A record in the data file. -/
def frame (idx photo : List UInt8) : List UInt8 :=
  RECORD_START_FLAG ++ (idx ++ (photo ++ RECORD_END_FLAG))

/-- The number of the last index entry.  The file is read from behind its end, so that
nothing is read and the result stays 0. -/
def getLastFileIndexNo (d : Disk) (p : Path) : ℕ :=
  match d.openRead p with
  | none => 0
  | some bs =>
      let index := (bs.drop (bs.length + FileIndex.SIZE)).take FileIndex.SIZE
      if index.length = FileIndex.SIZE then FileIndex.word index 0 else 0

/-- `saveRecordThread`. -/
def saveRecordThread : SaveThread OperateEvent RecordPic where
  MAX_OPERATE_QUEUE := 30
  indexBufferSize := 30 * 64
  sizeofIndex := FileIndex.SIZE
  time e := e.time.toNat
  accepts := OperateEvent.addRecord
  fitsElem e := decide (e.fileSize.toNat ≤ 30 * 1024)
  saves := OperateEvent.isRecord
  indexPath := L.recordIndexPath
  getLastFileIndexNo := getLastFileIndexNo
  blankPic := ⟨[], 0, []⟩
  openPic := L.openPic
  logIndex e no p := (fileIndex e no p).encode
  stagePic e idx p := { p with pPicBuffer := p.pPicBuffer ++ frame idx e.photo }
  reallocs := true
  picAppends p := [⟨false, p.picFileName, p.pPicBuffer⟩]
  skips tick total := decide (tick.recordMax - L.recordMaxBufNum ≤ (total : ℤ))
  due tick n := (tick.elapsed && decide (0 < n)) || decide (L.recordMaxBufNum ≤ (n : ℤ)) ||
    (decide (0 < tick.recordFlag) && decide (0 < n))
  stops tick := decide (tick.recordFlag = 2)
  logIndex_length e no p := FileIndex.length_encode _
  picAppends_isIndex p a ha := by rw [List.mem_singleton.1 ha]
  sizeofIndex_pos := by decide

/-- `getOneRecordPhoto`, on the files of a disk.  The result is the return value and, if a
buffer is passed, what it is filled with. -/
def getOneRecordPhoto (zone : Zone) (d : Disk) (recordTime startAddr : ℕ) (pPhotoBuf : Bool) :
    ℤ × List UInt8 :=
  let dataFile := L.recordPicPath ++ '/' :: Decimal.pad 8 (zone.localtime recordTime).stamp ++ dotData
  match d.openRead dataFile with
  | none => (-1, [])
  | some bs =>
      -- `lseek` takes a 32-bit signed offset
      if 2 ^ 31 ≤ startAddr then (-1, [])
      else
        let startFlag := (bs.drop startAddr).take RECORD_START_FLAG.length
        let pos := startAddr + RECORD_START_FLAG.length
        let index := (bs.drop pos).take FileIndex.SIZE
        let pos := pos + FileIndex.SIZE
        let fileSize := FileIndex.fileSizeAt index
        let n := fileSize - framedSize 0
        if startFlag ≠ RECORD_START_FLAG ∨ index.length ≠ FileIndex.SIZE ∨ fileSize ≤ 0 ∨
          (MAX_PHOTO_FILE_SIZE : ℤ) ≤ fileSize then (-1, [])
        else if pPhotoBuf = false then
          -- `lseek` from the current position, also backwards
          let pos := (pos : ℤ) + n
          let endFlag := (bs.drop pos.toNat).take RECORD_END_FLAG.length
          if 0 ≤ pos ∧ endFlag = RECORD_END_FLAG then (n, []) else (-1, [])
        -- a negative count is refused by `read`
        else if n < 0 then (-1, [])
        else
          let photo := (bs.drop pos).take n.toNat
          let pos := pos + n.toNat
          let endFlag := (bs.drop pos).take RECORD_END_FLAG.length
          if photo.length = n.toNat ∧ endFlag = RECORD_END_FLAG then (n, photo) else (-1, photo)

end RecordLib

end DeviceTools
