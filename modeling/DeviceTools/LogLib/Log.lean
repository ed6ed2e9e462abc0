/-
logLib: the system log and the management log, and the threads that save them.

Both logs keep one index structure for each event in the `.index` file of the event's day.
The structures have the same members up to the time of the event; that of the management log
then has the user.
-/
import DeviceTools.Store.Flush

namespace DeviceTools

open ByteWord

/-- `MAX_MSG_LEN`. -/
def MAX_MSG_LEN : ℕ := 64

/-- `MAX_USER_NAME_LEN`. -/
def MAX_USER_NAME_LEN : ℕ := 16

/-- `enum __log_type_e`. -/
inductive LogType where
  | eSysLog
  | eManLog
  | eUserLog
  | eAccessLog
deriving DecidableEq, Repr

/-- The value of the enumeration constant. -/
def LogType.code : LogType → UInt8
  | .eSysLog => 0
  | .eManLog => 1
  | .eUserLog => 2
  | .eAccessLog => 3

/-! ### The index structures -/

/-- The members that both index structures start with, up to `logTime`. -/
structure LogHead where
  logNo : UInt32
  /-- 0: normal, 1: deleted. -/
  logFileStatus : UInt8
  logType : UInt8
  logSubType : UInt8
  logTime : UInt32

namespace LogHead

/-- The members in memory; `logStartAddr` and `logFileSize` stay cleared. -/
def encode (x : LogHead) : List UInt8 :=
  leBytes 4 x.logNo.toNat ++ [x.logFileStatus, 0, 0, 0] ++ leBytes 4 0 ++ leBytes 4 0 ++
    [x.logType, x.logSubType, 0, 0] ++ leBytes 4 x.logTime.toNat

@[simp] lemma length_encode (x : LogHead) : x.encode.length = 24 := by
  simp [encode]

end LogHead

/-- A text member of `n` bytes: the first `n - 1` bytes of a text that is not empty, in
cleared memory. -/
def textMember (n : ℕ) (text : List UInt8) : List UInt8 :=
  let bytes := if text.head? = some 0 then [] else text.take (n - 1)
  bytes ++ List.replicate (n - bytes.length) 0

lemma length_textMember (n : ℕ) (text : List UInt8) : (textMember n text).length = n := by
  simp only [textMember, List.length_append, List.length_replicate]
  split
  · simp
  · rw [List.length_take]
    omega

/-- The members that both index structures end with, and the padding. -/
def logTail (opType : UInt32) (result : UInt8) (msg : List UInt8) : List UInt8 :=
  leBytes 4 opType.toNat ++ result :: (textMember MAX_MSG_LEN msg ++ List.replicate 67 0)

@[simp] lemma length_logTail (opType : UInt32) (result : UInt8) (msg : List UInt8) :
    (logTail opType result msg).length = 136 := by
  simp [logTail, length_textMember, MAX_MSG_LEN]

/-- `sizeof(syslog_index_t)`. -/
def SYSLOG_INDEX_SIZE : ℕ := 160

/-- `sizeof(manlog_index_t)`. -/
def MANLOG_INDEX_SIZE : ℕ := 184

lemma SYSLOG_INDEX_SIZE_pos : 0 < SYSLOG_INDEX_SIZE := by decide

lemma MANLOG_INDEX_SIZE_pos : 0 < MANLOG_INDEX_SIZE := by decide

/-! ### The events -/

/-- `syslog_event_t`. -/
structure SyslogEvent where
  cType : UInt8
  cSubType : UInt8
  uiTime : UInt32
  iOpType : UInt32
  cResult : UInt8
  acMsg : List UInt8
  length_acMsg : acMsg.length = MAX_MSG_LEN

/-- `manlog_event_t`. -/
structure ManlogEvent where
  cType : UInt8
  cSubType : UInt8
  uiTime : UInt32
  acUserName : List UInt8
  uiUserNo : UInt32
  uiUserId : UInt32
  iOpType : UInt32
  cResult : UInt8
  acMsg : List UInt8
  length_acUserName : acUserName.length = MAX_USER_NAME_LEN
  length_acMsg : acMsg.length = MAX_MSG_LEN

/-- The `syslog_index_t` filled in for an event. -/
def SyslogEvent.logIndex (e : SyslogEvent) (no : ℕ) : List UInt8 :=
  LogHead.encode ⟨UInt32.ofNat no, 0, e.cType, e.cSubType, e.uiTime⟩ ++
    logTail e.iOpType e.cResult e.acMsg

/-- The `manlog_index_t` filled in for an event. -/
def ManlogEvent.logIndex (e : ManlogEvent) (no : ℕ) : List UInt8 :=
  LogHead.encode ⟨UInt32.ofNat no, 0, e.cType, e.cSubType, e.uiTime⟩ ++
    (textMember MAX_USER_NAME_LEN e.acUserName ++ leBytes 4 e.uiUserNo.toNat ++
      leBytes 4 e.uiUserId.toNat) ++ logTail e.iOpType e.cResult e.acMsg

lemma SyslogEvent.length_logIndex (e : SyslogEvent) (no : ℕ) :
    (e.logIndex no).length = SYSLOG_INDEX_SIZE := by
  simp [logIndex, SYSLOG_INDEX_SIZE]

lemma ManlogEvent.length_logIndex (e : ManlogEvent) (no : ℕ) :
    (e.logIndex no).length = MANLOG_INDEX_SIZE := by
  simp [logIndex, length_textMember, MAX_USER_NAME_LEN, MANLOG_INDEX_SIZE]

/-! ### The save threads -/

/-- The name `sysIndex`. -/
def SYSLOG_INDEX_DIR_NAME : List Char := ['s', 'y', 's', 'I', 'n', 'd', 'e', 'x']

/-- The name `manIndex`. -/
def MANLOG_INDEX_DIR_NAME : List Char := ['m', 'a', 'n', 'I', 'n', 'd', 'e', 'x']

/-- `checkLogPath`: the path is not empty and is not one of the other log. -/
def checkLogPath (p : Path) (cLogType : LogType) : Bool :=
  decide (p ≠ [] ∧ ¬ (SYSLOG_INDEX_DIR_NAME <:+: p ∧ cLogType ≠ .eSysLog ∨
    MANLOG_INDEX_DIR_NAME <:+: p ∧ cLogType ≠ .eManLog))

/-- `getLastFileIndexNo`: the member `logNo` of the last index structure.  The file is read
from behind its end, so that nothing is read and the result stays 0. -/
def getLastLogIndexNo (cLogType : LogType) (size : ℕ) (d : Disk) (p : Path) : ℕ :=
  if checkLogPath p cLogType = false then 0
  else match d.openRead p with
    | none => 0
    | some bs =>
        let index := (bs.drop (bs.length + size)).take size
        if index.length = size then leNat (field index 0 4) else 0

/-- A save thread of logLib.  It saves when the interval has passed, has no photo part, and
ends only when the device is rebooted. -/
def saveLogThread {ε : Type} (indexPath : Path) (cLogType : LogType) (size : ℕ) (time : ε → ℕ)
    (logIndex : ε → ℕ → List UInt8) (hlen : ∀ e no, (logIndex e no).length = size)
    (hpos : 0 < size) : SaveThread ε Unit where
  MAX_OPERATE_QUEUE := 10
  indexBufferSize := 10 * 256
  sizeofIndex := size
  time := time
  accepts _ := true
  fitsElem _ := true
  saves _ := true
  indexPath := indexPath
  getLastFileIndexNo := getLastLogIndexNo cLogType size
  blankPic := ()
  openPic _ _ _ := ()
  logIndex e no _ := logIndex e no
  stagePic _ _ _ := ()
  reallocs := false
  picAppends _ := []
  skips _ _ := false
  due tick n := tick.elapsed && decide (0 < n)
  stops _ := false
  logIndex_length e no _ := hlen e no
  picAppends_isIndex p a ha := by simp at ha
  sizeofIndex_pos := hpos

/-- `saveSysLogThread`, with the member `sysLogIndexPath` of `g_syslog_lib`. -/
def saveSysLogThread (sysLogIndexPath : Path) : SaveThread SyslogEvent Unit :=
  saveLogThread sysLogIndexPath .eSysLog SYSLOG_INDEX_SIZE (fun e => e.uiTime.toNat)
    SyslogEvent.logIndex SyslogEvent.length_logIndex SYSLOG_INDEX_SIZE_pos

/-- `saveManLogThread`, with the member `manLogIndexPath` of `g_manlog_lib`. -/
def saveManLogThread (manLogIndexPath : Path) : SaveThread ManlogEvent Unit :=
  saveLogThread manLogIndexPath .eManLog MANLOG_INDEX_SIZE (fun e => e.uiTime.toNat)
    ManlogEvent.logIndex ManlogEvent.length_logIndex MANLOG_INDEX_SIZE_pos

end DeviceTools
