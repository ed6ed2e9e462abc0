/-
The answers to the requests of the 33310 client.

`DealGetLoggerRequest`, `DealGetVersion` and `DealGetSN` send a request, receive a pack into the
buffer that all of them share, and compare its head with the request.  Then they copy what they are
to print out of `pRecv->data`; the places they read there are noted as spans.  The first one copies
as many bytes as a number in the data says.
-/
import DeviceTools.Client33310.SendPack
import DeviceTools.Lib.CText

namespace DeviceTools.Client33310

open ByteWord CText Memory

def GET : UInt8 := 1
def RESPONSE : UInt8 := 5
def ACK : UInt8 := 0
def SYS_DEV_INFO : UInt8 := 4
def SYS_VERSION : UInt8 := 6
def GET_DEV_LOG : UInt8 := 8

/-- `sizeof(GET_LOGGER)`, and the place of its last member, `loggerLen`. -/
def GET_LOGGER_SIZE : ℕ := 60
def LOGGER_LEN : ℕ := 56

/-- `sizeof(GET_VERSION)`. -/
def GET_VERSION_SIZE : ℕ := 16

/-- The size of the array `SN`. -/
def SN_SIZE : ℕ := 16

/-- What a handler meets: the socket, the number that `Rand` gives, the calls of `TcpSendPack` and
`TcpRecvPack`, and whether there is memory for the text of the logger. -/
structure Calls where
  iSocketFd : ℤ
  index : UInt16
  packMemory : Bool
  heap : Bytes
  sends : List SendIo
  unread : List UInt8
  recvs : List RecvIo
  loggerMemory : Bool

/-- What a handler has done: what it returns, the places of `pRecv->data` that it has read, and the
copies from which it prints. -/
structure Handled where
  status : Status
  reads : List Span
  copies : List (List UInt8)
deriving DecidableEq, Repr

/-- The request of a handler, which has no data. -/
def Calls.request (c : Calls) (subType : UInt8) : SendArgs :=
  ⟨c.iSocketFd, UInt16.ofNat PROTOCOL_HEAD_FLAG, c.index, GET, subType, 0, none, c.heap⟩

/-- `TcpRecvPack`, which fails at once without a socket. -/
def Calls.recvPack (c : Calls) : ReceivedPack :=
  if c.iSocketFd < 0 then ⟨.failed (-2), none, c.unread, c.recvs⟩ else tcpRecvPack c.unread c.recvs

/-- The common part of the handlers: `size` is how much data they need, and `use` is what they do
with it. -/
def dealGet (subType : UInt8) (size : ℕ) (use : Bytes → Handled) (c : Calls) (data : Bytes) : Handled :=
  match (sendPack (c.request subType) c.packMemory c.sends).status with
  | .ok =>
      match c.recvPack.status, c.recvPack.pack with
      | .ok, some p =>
          if p.index ≠ c.index.toNat ∨ p.packType ≠ RESPONSE ∨ p.subType ≠ ACK then ⟨.failed (-1), [], []⟩
          else if p.dataLen < size then ⟨.failed (-1), [], []⟩
          else use (poke data 0 p.data)
      | status, _ => ⟨status, [], []⟩
  | status => ⟨status, [], []⟩

/-- The number of bytes behind the structure `GET_LOGGER`. -/
def loggerLen (stGetLogger : List UInt8) : ℤ := toInt (beNat (field stGetLogger LOGGER_LEN 4))

/-- What `DealGetLoggerRequest` does with the data. -/
def getLogger (loggerMemory : Bool) (data : Bytes) : Handled :=
  let stGetLogger := slice data 0 GET_LOGGER_SIZE
  let len := loggerLen stGetLogger
  if 0 < len then
    if loggerMemory then
      ⟨.ok, [⟨0, GET_LOGGER_SIZE⟩, ⟨GET_LOGGER_SIZE, len.toNat⟩],
        [stGetLogger, slice data GET_LOGGER_SIZE len.toNat]⟩
    else ⟨.failed (-1), [⟨0, GET_LOGGER_SIZE⟩], [stGetLogger]⟩
  else ⟨.ok, [⟨0, GET_LOGGER_SIZE⟩], [stGetLogger]⟩

/-- What `DealGetVersion` does with the data. -/
def getVersion (data : Bytes) : Handled :=
  ⟨.ok, [⟨0, GET_VERSION_SIZE⟩], [slice data 0 GET_VERSION_SIZE]⟩

/-- What `DealGetSN` does with the data: `strncpy` reads up to a NUL. -/
def getSN (data : Bytes) : Handled :=
  let chars := slice data 0 (SN_SIZE - 1)
  ⟨.ok, [⟨0, min (strlen chars + 1) (SN_SIZE - 1)⟩], [strncpy (SN_SIZE - 1) chars ++ [0]]⟩

/-- `DealGetLoggerRequest`; `data` is what the buffer holds before. -/
def dealGetLoggerRequest (c : Calls) (data : Bytes) : Handled :=
  dealGet GET_DEV_LOG GET_LOGGER_SIZE (getLogger c.loggerMemory) c data

/-- `DealGetVersion`. -/
def dealGetVersion (c : Calls) (data : Bytes) : Handled :=
  dealGet SYS_VERSION GET_VERSION_SIZE getVersion c data

/-- `DealGetSN`. -/
def dealGetSN (c : Calls) (data : Bytes) : Handled := dealGet SYS_DEV_INFO SN_SIZE getSN c data

/-- Every byte that is read is one of the first `dataLen`. -/
def Handled.Inside (h : Handled) (dataLen : ℕ) : Prop := ∀ a ∈ h.reads, a.Inside dataLen

instance (h : Handled) (dataLen : ℕ) : Decidable (h.Inside dataLen) :=
  inferInstanceAs (Decidable (∀ a ∈ h.reads, _))

/-! ### The packs that are accepted -/

/-- What `TcpRecvPack` delivers: a pack whose length is checked, and as much data as it says. -/
lemma tcpRecvPack_pack {unread : List UInt8} {ios : List RecvIo} {p : ProtocolPack}
    (h : (tcpRecvPack unread ios).pack = some p) :
    (tcpRecvPack unread ios).status = .ok ∧ p.dataLen ≤ DATA_MAX_LEN ∧ p.data.length = p.dataLen := by
  have hhead : (tcpRecvMsg HEAD_SIZE unread ios).status = .ok := by
    by_contra hnot
    rw [tcpRecvPack] at h
    cases hstatus : (tcpRecvMsg HEAD_SIZE unread ios).status with
    | ok => exact hnot hstatus
    | busy => simp [hstatus] at h
    | failed code => simp [hstatus] at h
  rw [tcpRecvPack] at h ⊢
  simp only [hhead] at h ⊢
  split at h
  case isTrue => cases h
  case isFalse hflag =>
    rw [if_neg hflag]
    split at h
    case isTrue => cases h
    case isFalse hle =>
      rw [if_neg hle]
      split at h
      case isTrue hzero =>
        rw [if_pos hzero]
        obtain rfl := Option.some_inj.1 h
        exact ⟨rfl, not_lt.1 hle, hzero.symm⟩
      case isFalse hpos =>
        rw [if_neg hpos]
        have htakes := takes_tcpRecvMsg _ hpos (tcpRecvMsg HEAD_SIZE unread ios).unread
          (tcpRecvMsg HEAD_SIZE unread ios).ios
        split at h
        case h_1 => cases h
        case h_2 => cases h
        case h_3 hok =>
          obtain rfl := Option.some_inj.1 h
          exact ⟨rfl, not_lt.1 hle, htakes.full hok⟩

lemma recvPack_pack {c : Calls} {p : ProtocolPack} (h : c.recvPack.pack = some p) :
    c.recvPack.status = .ok ∧ p.dataLen ≤ DATA_MAX_LEN ∧ p.data.length = p.dataLen := by
  rw [Calls.recvPack] at h ⊢
  split at h
  case isTrue => cases h
  case isFalse hsocket =>
    rw [if_neg hsocket]
    exact tcpRecvPack_pack h

/-- The pack is an answer to the request of the handler, which has been sent. -/
structure Answered (c : Calls) (subType : UInt8) (p : ProtocolPack) : Prop where
  sent : (sendPack (c.request subType) c.packMemory c.sends).status = .ok
  index : p.index = c.index.toNat
  packType : p.packType = RESPONSE
  ack : p.subType = ACK

/-- A handler makes use of the data of an answer that is long enough, and of no other pack. -/
lemma dealGet_cases {c : Calls} {p : ProtocolPack} (hrecv : c.recvPack.pack = some p) (subType : UInt8) (size : ℕ)
    (use : Bytes → Handled) :
    (Answered c subType p ∧ size ≤ p.dataLen ∧
      ∀ data, dealGet subType size use c data = use (poke data 0 p.data)) ∨
    (¬(Answered c subType p ∧ size ≤ p.dataLen) ∧
      ∃ status, ∀ data, dealGet subType size use c data = ⟨status, [], []⟩) := by
  obtain ⟨hok, -, -⟩ := recvPack_pack hrecv
  simp only [dealGet]
  cases hsent : (sendPack (c.request subType) c.packMemory c.sends).status with
  | busy => exact Or.inr ⟨fun h => (nomatch hsent.symm.trans h.1.sent), _, fun _ => rfl⟩
  | failed code => exact Or.inr ⟨fun h => (nomatch hsent.symm.trans h.1.sent), _, fun _ => rfl⟩
  | ok =>
      simp only [hok, hrecv]
      split
      case isTrue hother =>
        refine Or.inr ⟨fun h => ?_, _, fun _ => rfl⟩
        rcases hother with hindex | htype | hack
        · exact hindex h.1.index
        · exact htype h.1.packType
        · exact hack h.1.ack
      case isFalse hanswer =>
        rw [not_or, not_or, not_not, not_not, not_not] at hanswer
        obtain ⟨hindex, htype, hack⟩ := hanswer
        split
        case isTrue hshort => exact Or.inr ⟨fun h => by omega, _, fun _ => rfl⟩
        case isFalse hlong => exact Or.inl ⟨⟨hsent, hindex, htype, hack⟩, not_lt.1 hlong, fun _ => rfl⟩

/-! ### What is read -/

/-- What is done with the data depends on the places that are noted. -/
def ReadsOnly (use : Bytes → Handled) : Prop :=
  ∀ ⦃m m' : Bytes⦄ ⦃size : ℕ⦄, (∀ i < size, m i = m' i) → (use m).Inside size → use m = use m'

lemma readsOnly_getVersion : ReadsOnly getVersion := by
  intro m m' size hagree hin
  have hsame := slice_eq_of_inside hagree (hin _ List.mem_cons_self)
  rw [getVersion, getVersion, hsame]

lemma readsOnly_getLogger (loggerMemory : Bool) : ReadsOnly (getLogger loggerMemory) := by
  intro m m' size hagree hin
  have hfirst : slice m 0 GET_LOGGER_SIZE = slice m' 0 GET_LOGGER_SIZE := by
    refine slice_eq_of_inside hagree (a := ⟨0, GET_LOGGER_SIZE⟩) (hin _ ?_)
    rw [getLogger]
    split
    · split <;> exact List.mem_cons_self
    · exact List.mem_cons_self
  simp only [getLogger, ← hfirst] at hin ⊢
  split
  case isTrue hpos =>
    rw [if_pos hpos] at hin
    split
    case isTrue hmem =>
      rw [if_pos hmem] at hin
      have hsecond := slice_eq_of_inside hagree (hin _ (List.mem_cons_of_mem _ List.mem_cons_self))
      rw [hsecond]
    case isFalse => rfl
  case isFalse => rfl

lemma readsOnly_getSN : ReadsOnly getSN := by
  intro m m' size hagree hin
  have hread := slice_eq_of_inside hagree (hin _ List.mem_cons_self)
  have hchars : cstr (slice m 0 (SN_SIZE - 1)) = cstr (slice m' 0 (SN_SIZE - 1)) := by
    refine cstr_eq_of_take (by rw [length_slice, length_slice]) ?_
    rw [List.take_eq_take_min, length_slice, take_slice m 0 (min_le_right _ _), List.take_eq_take_min,
      length_slice, take_slice m' 0 (min_le_right _ _)]
    exact hread
  rw [getSN, getSN, strncpy, strncpy, strlen, strlen, hchars]

/-- **What was in the buffer before** does not show when the places that are read lie in the pack. -/
lemma dealGet_eq_of_inside {c : Calls} {p : ProtocolPack} (hrecv : c.recvPack.pack = some p) {subType : UInt8}
    {size : ℕ} {use : Bytes → Handled} (huse : ReadsOnly use) {data : Bytes}
    (hin : (dealGet subType size use c data).Inside p.dataLen) (data' : Bytes) :
    dealGet subType size use c data = dealGet subType size use c data' := by
  obtain ⟨-, -, hlen⟩ := recvPack_pack hrecv
  rcases dealGet_cases hrecv subType size use with ⟨-, -, hrun⟩ | ⟨-, status, hrun⟩
  · rw [hrun] at hin
    rw [hrun, hrun]
    refine huse (fun i hi => ?_) hin
    have hget : p.data[i]? = some (p.data.get ⟨i, by omega⟩) := List.getElem?_eq_getElem (by omega)
    rw [← Nat.zero_add i, poke_add data 0 p.data hget, poke_add data' 0 p.data hget]
  · rw [hrun, hrun]

/-! ### The three handlers -/

section

variable {c : Calls} {p : ProtocolPack}

lemma inside_dealGet (hrecv : c.recvPack.pack = some p) (subType : UInt8) {size : ℕ} {use : Bytes → Handled}
    (huse : ∀ m, size ≤ p.dataLen → (use m).Inside p.dataLen) (data : Bytes) :
    (dealGet subType size use c data).Inside p.dataLen := by
  rcases dealGet_cases hrecv subType size use with ⟨-, hlong, hrun⟩ | ⟨-, status, hrun⟩
  · rw [hrun]
    exact huse _ hlong
  · rw [hrun]
    exact List.forall_mem_nil _

lemma inside_dealGetVersion (hrecv : c.recvPack.pack = some p) (data : Bytes) :
    (dealGetVersion c data).Inside p.dataLen := by
  have huse : ∀ m, GET_VERSION_SIZE ≤ p.dataLen → (getVersion m).Inside p.dataLen := fun m hlong =>
    List.forall_mem_singleton.2 (Span.inside_of_le ((Nat.zero_add _).trans_le hlong))
  exact inside_dealGet hrecv SYS_VERSION huse data

lemma inside_dealGetSN (hrecv : c.recvPack.pack = some p) (data : Bytes) :
    (dealGetSN c data).Inside p.dataLen := by
  have huse : ∀ m, SN_SIZE ≤ p.dataLen → (getSN m).Inside p.dataLen := fun m hlong => by
    refine List.forall_mem_singleton.2 (Span.inside_of_le ?_)
    have hsize : SN_SIZE = 16 := rfl
    dsimp only
    omega
  exact inside_dealGet hrecv SYS_DEV_INFO huse data

lemma slice_poke_front (data : Bytes) {xs : List UInt8} {n : ℕ} (h : n ≤ xs.length) :
    slice (poke data 0 xs) 0 n = xs.take n := by
  rw [← take_slice (poke data 0 xs) 0 h, slice_poke]

/-- The text of the logger lies in the data if it is not longer than what is left of them. -/
lemma inside_getLogger_iff (hlen : p.data.length = p.dataLen) (hsize : GET_LOGGER_SIZE ≤ p.dataLen)
    (loggerMemory : Bool) (data : Bytes) :
    (getLogger loggerMemory (poke data 0 p.data)).Inside p.dataLen ↔
      (loggerMemory = true → GET_LOGGER_SIZE + loggerLen (p.data.take GET_LOGGER_SIZE) ≤ p.dataLen) := by
  have hstruct : Span.Inside ⟨0, GET_LOGGER_SIZE⟩ p.dataLen := Span.inside_of_le ((Nat.zero_add _).trans_le hsize)
  simp only [getLogger, slice_poke_front data (hlen ▸ hsize)]
  generalize loggerLen (p.data.take GET_LOGGER_SIZE) = len
  by_cases hpos : 0 < len
  · rw [if_pos hpos]
    cases loggerMemory with
    | false => exact iff_of_true (List.forall_mem_singleton.2 hstruct) (fun h => by cases h)
    | true =>
        have htext : Span.Inside ⟨GET_LOGGER_SIZE, len.toNat⟩ p.dataLen ↔ GET_LOGGER_SIZE + len ≤ p.dataLen := by
          rw [Span.inside_iff (by dsimp only; omega)]
          dsimp only
          omega
        rw [if_pos rfl, Handled.Inside, List.forall_mem_cons, List.forall_mem_singleton, and_iff_right hstruct, htext]
        exact ⟨fun h _ => h, fun h => h rfl⟩
  · rw [if_neg hpos]
    exact iff_of_true (List.forall_mem_singleton.2 hstruct) fun _ => by omega

/-- **When the handlers stay inside the pack** that they have received. -/
theorem reads_inside_iff (hrecv : c.recvPack.pack = some p) (data : Bytes) :
    ((dealGetLoggerRequest c data).Inside p.dataLen ∧ (dealGetVersion c data).Inside p.dataLen ∧
        (dealGetSN c data).Inside p.dataLen) ↔
      (Answered c GET_DEV_LOG p ∧ GET_LOGGER_SIZE ≤ p.dataLen ∧ c.loggerMemory = true →
        GET_LOGGER_SIZE + loggerLen (p.data.take GET_LOGGER_SIZE) ≤ p.dataLen) := by
  obtain ⟨-, -, hlen⟩ := recvPack_pack hrecv
  rw [and_iff_left ⟨inside_dealGetVersion hrecv data, inside_dealGetSN hrecv data⟩]
  rcases dealGet_cases hrecv GET_DEV_LOG GET_LOGGER_SIZE (getLogger c.loggerMemory) with
    ⟨hanswer, hlong, hrun⟩ | ⟨hnot, status, hrun⟩
  · rw [dealGetLoggerRequest, hrun, inside_getLogger_iff hlen hlong]
    exact ⟨fun h hall => h hall.2.2, fun h hmem => h ⟨hanswer, hlong, hmem⟩⟩
  · rw [dealGetLoggerRequest, hrun]
    exact iff_of_true (fun a ha => by cases ha) fun hall => absurd ⟨hall.1, hall.2.1⟩ hnot

/-- Whatever was in the buffer before, the version and the serial number are those of the pack. -/
lemma dealGetVersion_eq (hrecv : c.recvPack.pack = some p) (data data' : Bytes) :
    dealGetVersion c data = dealGetVersion c data' :=
  dealGet_eq_of_inside hrecv readsOnly_getVersion (inside_dealGetVersion hrecv data) data'

lemma dealGetSN_eq (hrecv : c.recvPack.pack = some p) (data data' : Bytes) : dealGetSN c data = dealGetSN c data' :=
  dealGet_eq_of_inside hrecv readsOnly_getSN (inside_dealGetSN hrecv data) data'

lemma dealGetLoggerRequest_eq (hrecv : c.recvPack.pack = some p) {data : Bytes}
    (hin : (dealGetLoggerRequest c data).Inside p.dataLen) (data' : Bytes) :
    dealGetLoggerRequest c data = dealGetLoggerRequest c data' :=
  dealGet_eq_of_inside hrecv (readsOnly_getLogger c.loggerMemory) hin data'

end

/-- An answer to the request with the index 7: the structure `GET_LOGGER` with the number `n`, and
`text` behind it. -/
def loggerAnswer (n : UInt8) (text : List UInt8) : ProtocolPack :=
  ⟨PROTOCOL_HEAD_FLAG, 7, RESPONSE, ACK, GET_LOGGER_SIZE + text.length,
    List.replicate (GET_LOGGER_SIZE - 1) 0 ++ n :: text⟩

/-- The calls of a handler that gets this answer. -/
def loggerCalls (n : UInt8) (text : List UInt8) : Calls :=
  ⟨3, 7, true, fun _ => 0, [.takes HEAD_SIZE],
    beBytes 2 PROTOCOL_HEAD_FLAG ++ (beBytes 2 7 ++ (RESPONSE :: ACK :: (beBytes 4 (GET_LOGGER_SIZE + text.length) ++
      (List.replicate (GET_LOGGER_SIZE - 1) 0 ++ n :: text)))),
    [.gives 100, .gives 100], true⟩

/-- A text of two bytes. -/
theorem reads_inside_two :
    (dealGetLoggerRequest (loggerCalls 2 [0x6F, 0x6B]) fun _ => 0x53).Inside 62 ∧
      (dealGetVersion (loggerCalls 2 [0x6F, 0x6B]) fun _ => 0x53).Inside 62 ∧
      (dealGetSN (loggerCalls 2 [0x6F, 0x6B]) fun _ => 0x53).Inside 62 := by
  have hrecv : (loggerCalls 2 [0x6F, 0x6B]).recvPack.pack = some (loggerAnswer 2 [0x6F, 0x6B]) := by decide +kernel
  exact (reads_inside_iff hrecv fun _ => 0x53).2 fun _ => by decide +kernel

/-- A text of one byte that is not there: the byte is one of an earlier pack. -/
theorem logger_reads_earlier_pack :
    (loggerCalls 1 []).recvPack.pack = some (loggerAnswer 1 []) ∧
      dealGetLoggerRequest (loggerCalls 1 []) (fun _ => 0x53) =
        ⟨.ok, [⟨0, 60⟩, ⟨60, 1⟩], [List.replicate 59 0 ++ [1], [0x53]]⟩ ∧
      ¬(dealGetLoggerRequest (loggerCalls 1 []) fun _ => 0x53).Inside (loggerAnswer 1 []).dataLen := by
  refine ⟨by decide +kernel, by decide +kernel, by decide +kernel⟩

end DeviceTools.Client33310
