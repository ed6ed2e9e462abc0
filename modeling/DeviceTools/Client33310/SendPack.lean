/-
Sending a pack with any length.

`TcpSendPack` allocates the pack, copies the data behind the head, and hands the pack to
`TcpSendMsg`, whose length is an `int`: of the sum of the size of the head and `dataLen`, which is
unsigned, only the low 32 bits are left.  When there is no memory it returns the 0 it has begun
with.
-/
import DeviceTools.Client33310.Channel
import DeviceTools.Lib.Memory

namespace DeviceTools.Client33310

open ByteWord Memory

/-- The arguments of `TcpSendPack`.  `data` is `none` for a null pointer; then the bytes behind the
head are what `heap`, the allocated memory, has there. -/
structure SendArgs where
  socketID : ℤ
  flag : UInt16
  index : UInt16
  packType : UInt8
  subType : UInt8
  dataLen : UInt32
  data : Option Bytes
  heap : Bytes

/-- The head of the pack. -/
def SendArgs.head (a : SendArgs) : List UInt8 :=
  beBytes 2 a.flag.toNat ++ (beBytes 2 a.index.toNat ++
    (a.packType :: a.subType :: beBytes 4 a.dataLen.toNat))

/-- The bytes behind the head, when `memcpy` has been called or not. -/
def SendArgs.payload (a : SendArgs) : List UInt8 :=
  match a.data with
  | some data => slice data 0 a.dataLen.toNat
  | none => slice a.heap HEAD_SIZE a.dataLen.toNat

/-- The pack that is allocated and filled in. -/
def SendArgs.pack (a : SendArgs) : List UInt8 := a.head ++ a.payload

/-- A number converted to `int`: its low 32 bits, read with a sign. -/
def toInt (n : ℕ) : ℤ := if n % 2 ^ 32 < 2 ^ 31 then (n % 2 ^ 32 : ℕ) else (n % 2 ^ 32 : ℕ) - 2 ^ 32

/-- `TcpSendMsg` with a length of its own. -/
def sendMsg (socketID length : ℤ) (pContent : List UInt8) (ios : List SendIo) : Sent :=
  if socketID < 0 ∨ length ≤ 0 then ⟨[], .failed (-2), ios⟩
  else sendLoop (decide (16 * 1024 < length)) ios (pContent.take length.toNat)

/-- `TcpSendPack` with all its arguments, when `malloc` succeeds or not. -/
def sendPack (a : SendArgs) (malloc : Bool) (ios : List SendIo) : Sent :=
  if malloc then sendMsg a.socketID (toInt (HEAD_SIZE + a.dataLen.toNat)) a.pack ios
  else ⟨[], .ok, ios⟩

lemma SendArgs.length_payload (a : SendArgs) : a.payload.length = a.dataLen.toNat := by
  rw [SendArgs.payload]
  split <;> exact length_slice _ _ _

lemma SendArgs.length_pack (a : SendArgs) : a.pack.length = HEAD_SIZE + a.dataLen.toNat := by
  rw [SendArgs.pack, List.length_append, SendArgs.length_payload]
  simp [SendArgs.head, HEAD_SIZE]

lemma sendMsg_length {socketID : ℤ} (h : 0 ≤ socketID) (content : List UInt8) (ios : List SendIo) :
    sendMsg socketID content.length content ios = tcpSendMsg content ios := by
  rw [sendMsg, tcpSendMsg]
  by_cases hnil : content = []
  · rw [if_pos hnil, if_pos (Or.inr (by simp [hnil]))]
  · have hpos := List.length_pos_iff.2 hnil
    rw [if_neg hnil, if_neg (by omega), Int.toNat_natCast, List.take_length]
    norm_cast

/-- A pack of the other modules, as arguments of `TcpSendPack`. -/
def Pack.args (p : Pack) (socketID : ℤ) (data heap : Bytes) : SendArgs :=
  ⟨socketID, UInt16.ofNat PROTOCOL_HEAD_FLAG, p.index, p.packType, p.subType, UInt32.ofNat p.data.length,
    some data, heap⟩

/-- **The two models of `TcpSendPack` agree** on the packs that a receiver takes. -/
lemma sendPack_args (p : Pack) {socketID : ℤ} (h : 0 ≤ socketID) (heap : Bytes) (ios : List SendIo) :
    sendPack (p.args socketID (poke heap 0 p.data) heap) true ios = tcpSendPack p ios := by
  have hle := p.length_le
  have hmax : DATA_MAX_LEN = 33792 := rfl
  have hlen : (UInt32.ofNat p.data.length).toNat = p.data.length := UInt32.toNat_ofNat_of_lt' (by
    have : UInt32.size = 4294967296 := rfl
    omega)
  have hpack : (p.args socketID (poke heap 0 p.data) heap).pack = p.bytes := by
    have hpayload : (p.args socketID (poke heap 0 p.data) heap).payload = p.data := by
      change slice (poke heap 0 p.data) 0 (UInt32.ofNat p.data.length).toNat = p.data
      rw [hlen, slice_poke]
    rw [SendArgs.pack, hpayload, Pack.bytes, Pack.head, SendArgs.head]
    simp only [Pack.args, hlen]
    rfl
  have hint : toInt (HEAD_SIZE + (p.args socketID (poke heap 0 p.data) heap).dataLen.toNat) = p.bytes.length := by
    have hbytes : p.bytes.length = HEAD_SIZE + p.data.length := by
      rw [← hpack, SendArgs.length_pack]
      exact congrArg (HEAD_SIZE + ·) hlen
    have hsize : HEAD_SIZE = 10 := rfl
    rw [show (p.args socketID (poke heap 0 p.data) heap).dataLen.toNat = p.data.length from hlen, hbytes]
    rw [toInt, Nat.mod_eq_of_lt (by omega), if_pos (by omega)]
  rw [sendPack, if_pos rfl, hint, hpack, tcpSendPack]
  exact sendMsg_length h p.bytes ios

/-! ### What the length becomes -/

lemma toInt_of_le {n : ℕ} (h : n ≤ 2 ^ 32) : toInt n = n ∨ toInt n ≤ 0 := by
  rw [toInt]
  split <;> omega

lemma toInt_of_lt {n : ℕ} (h : 2 ^ 32 < n) (h' : n < 2 ^ 32 + 2 ^ 31) : toInt n = n - 2 ^ 32 := by
  rw [toInt]
  split <;> omega

lemma sendLoop_takes (subPackFlag : Bool) {content : List UInt8} (h : content.length ≤ 1460) :
    sendLoop subPackFlag [.takes content.length] content = ⟨content, .ok, []⟩ := by
  have hsplit : ¬(subPackFlag = true ∧ 1460 < content.length) := by omega
  simp only [sendLoop, if_neg hsplit, Nat.min_self, if_pos (le_refl content.length)]

/-- **A sum that fits.**  When 0 is returned, the pack was taken. -/
lemma sendPack_ok {a : SendArgs} (h : a.socketID < 0 ∨ a.dataLen.toNat ≤ 2 ^ 32 - HEAD_SIZE) (ios : List SendIo)
    (hok : (sendPack a true ios).status = .ok) : (sendPack a true ios).stream = a.pack := by
  rw [sendPack, if_pos rfl, sendMsg] at hok ⊢
  split at hok
  case isTrue => cases hok
  case isFalse hpos =>
    rw [if_neg hpos]
    have hfits : HEAD_SIZE + a.dataLen.toNat ≤ 2 ^ 32 := by
      have : HEAD_SIZE = 10 := rfl
      omega
    have hint := (toInt_of_le hfits).resolve_right (by omega)
    have htake : a.pack.take (toInt (HEAD_SIZE + a.dataLen.toNat)).toNat = a.pack := by
      rw [hint, Int.toNat_natCast, ← SendArgs.length_pack, List.take_length]
    rw [htake] at hok ⊢
    exact (sendLoop_spec _ ios a.pack).2 hok

/-- **A sum that does not fit.**  A few bytes are sent, and 0 is returned. -/
lemma sendPack_wrapped {a : SendArgs} (hsocket : 0 ≤ a.socketID) (h : 2 ^ 32 - HEAD_SIZE < a.dataLen.toNat) :
    ∃ ios, (sendPack a true ios).status = .ok ∧ (sendPack a true ios).stream.length < HEAD_SIZE := by
  have hsize : HEAD_SIZE = 10 := rfl
  have hlt := a.dataLen.toNat_lt
  have hint : toInt (HEAD_SIZE + a.dataLen.toNat) = (HEAD_SIZE + a.dataLen.toNat : ℕ) - 2 ^ 32 :=
    toInt_of_lt (by omega) (by omega)
  set few := a.pack.take (toInt (HEAD_SIZE + a.dataLen.toNat)).toNat with hfew
  have hlen : few.length < HEAD_SIZE := by
    rw [hfew, List.length_take]
    omega
  have hpos : ¬(a.socketID < 0 ∨ toInt (HEAD_SIZE + a.dataLen.toNat) ≤ 0) := by omega
  have hsent : ∀ ios, sendPack a true ios = sendLoop _ ios few := fun ios => by
    rw [sendPack, if_pos rfl, sendMsg, if_neg hpos]
  refine ⟨[.takes few.length], ?_⟩
  rw [hsent, sendLoop_takes _ (by omega)]
  exact ⟨rfl, hlen⟩

/-- **When the 0 of `TcpSendPack` is true.**  Whenever it returns 0 the socket has taken the pack,
exactly if there was memory and the length of the pack is a number of 32 bits (or the socket is
refused). -/
theorem sendPack_truthful_iff (a : SendArgs) (malloc : Bool) :
    (∀ ios, (sendPack a malloc ios).status = .ok → (sendPack a malloc ios).stream = a.pack) ↔
      malloc = true ∧ (a.socketID < 0 ∨ a.dataLen.toNat ≤ 2 ^ 32 - HEAD_SIZE) := by
  have hlen := a.length_pack
  cases malloc with
  | false =>
      refine iff_of_false (fun h => ?_) (by simp)
      have hnil : [] = a.pack := h [] rfl
      rw [← hnil] at hlen
      rw [List.length_nil, HEAD_SIZE] at hlen
      omega
  | true =>
      refine ⟨fun h => ⟨rfl, ?_⟩, fun h ios hok => sendPack_ok h.2 ios hok⟩
      by_contra hnot
      rw [not_or, not_lt, not_le] at hnot
      obtain ⟨ios, hok, hshort⟩ := sendPack_wrapped hnot.1 hnot.2
      rw [h ios hok, hlen] at hshort
      omega

/-- Without memory 0 is returned and nothing is sent. -/
theorem sendPack_no_memory :
    (sendPack ⟨3, 0x6666, 1, 0, 0, 0, none, fun _ => 0⟩ false []).status = .ok ∧
      (sendPack ⟨3, 0x6666, 1, 0, 0, 0, none, fun _ => 0⟩ false []).stream ≠
        (SendArgs.pack ⟨3, 0x6666, 1, 0, 0, 0, none, fun _ => 0⟩) := by
  decide

end DeviceTools.Client33310
