/-
The packs of the 33310 protocol, and how they are sent and received.

A pack is a head of ten bytes, with its numbers in network order, and up to 33 K of data.
`TcpSendMsg` hands the bytes of a pack to `send` until all of them have been taken, in pieces of
1460 bytes when there are more than 16 K.  `TcpRecvMsg` waits for bytes with `select` and takes
them with `recv` until it has as many as it was asked for; `TcpRecvPack` takes first the head and
then as much data as the head says.

The environment decides what each call of `send`, `select`, `ioctl` and `recv` does.  A function
that is still in its loop when the given decisions are used up has not returned.
-/
import DeviceTools.Lib.ByteWord

namespace DeviceTools.Client33310

open ByteWord

def DATA_MAX_LEN : ℕ := 33 * 1024
def PROTOCOL_HEAD_FLAG : ℕ := 0x6666

/-- `sizeof(PROTOCOL_HEAD)`. -/
def HEAD_SIZE : ℕ := 10

/-- The arguments of `TcpSendPack`, with the flag `PROTOCOL_HEAD_FLAG`. -/
structure Pack where
  index : UInt16
  packType : UInt8
  subType : UInt8
  data : List UInt8
  length_le : data.length ≤ DATA_MAX_LEN

/-- `PROTOCOL_PACK`, with the numbers of the head in the order of the machine. -/
structure ProtocolPack where
  flag : ℕ
  index : ℕ
  packType : UInt8
  subType : UInt8
  dataLen : ℕ
  data : List UInt8
deriving DecidableEq, Repr

/-- The pack that a receiver is meant to get. -/
def Pack.protocolPack (p : Pack) : ProtocolPack :=
  ⟨PROTOCOL_HEAD_FLAG, p.index.toNat, p.packType, p.subType, p.data.length, p.data⟩

/-- The head that `TcpSendPack` fills in. -/
def Pack.head (p : Pack) : List UInt8 :=
  beBytes 2 PROTOCOL_HEAD_FLAG ++ (beBytes 2 p.index.toNat ++
    (p.packType :: p.subType :: beBytes 4 p.data.length))

/-- The bytes that `TcpSendPack` sends. -/
def Pack.bytes (p : Pack) : List UInt8 := p.head ++ p.data

/-! ### Sending -/

/-- What a call of `send` does: it takes up to `k` of the bytes offered, it fails with
`EWOULDBLOCK`, or it fails for good. -/
inductive SendIo where
  | takes (k : ℕ)
  | wouldBlock
  | fails
deriving DecidableEq, Repr

/-- Whether a function has returned 0, has returned another value, or is still in its loop. -/
inductive Status where
  | ok
  | failed (code : ℤ)
  | busy
deriving DecidableEq, Repr

/-- The outcome of a send: the bytes taken by the socket, and the decisions that are left. -/
structure Sent where
  stream : List UInt8
  status : Status
  ios : List SendIo

/-- The loop of `TcpSendMsg` with the bytes from `offset` on. -/
def sendLoop (subPackFlag : Bool) : List SendIo → List UInt8 → Sent
  | [], _ => ⟨[], .busy, []⟩
  | .fails :: ios, _ => ⟨[], .failed (-1), ios⟩
  | .wouldBlock :: ios, content => sendLoop subPackFlag ios content
  | .takes k :: ios, content =>
      let sendLen := if subPackFlag ∧ 1460 < content.length then 1460 else content.length
      let rc := min k sendLen
      if content.length ≤ rc then ⟨content, .ok, ios⟩
      else
        let r := sendLoop subPackFlag ios (content.drop rc)
        { r with stream := content.take rc ++ r.stream }

/-- `TcpSendMsg`. -/
def tcpSendMsg (content : List UInt8) (ios : List SendIo) : Sent :=
  if content = [] then ⟨[], .failed (-2), ios⟩
  else sendLoop (decide (16 * 1024 < content.length)) ios content

/-- `TcpSendPack`, when `malloc` succeeds. -/
def tcpSendPack (p : Pack) (ios : List SendIo) : Sent := tcpSendMsg p.bytes ios

/-- Packs are sent one after the other on one socket.  A failure of `send` is for good: the socket
takes no more bytes, and the callers close it. -/
def tcpSendPacks : List Pack → List SendIo → Sent
  | [], ios => ⟨[], .ok, ios⟩
  | p :: ps, ios =>
      let r := tcpSendPack p ios
      if r.status = .ok then
        let rs := tcpSendPacks ps r.ios
        { rs with stream := r.stream ++ rs.stream }
      else r

/-! ### Receiving -/

/-- What a turn of the loop of `TcpRecvMsg` meets: `select` times out or fails, `ioctl` finds no
bytes, `recv` fails or finds the connection closed, or `recv` gives at least one byte and at most
`k + 1`. -/
inductive RecvIo where
  | timeout
  | selectFails
  | noBytes
  | recvFails
  | gives (k : ℕ)
deriving DecidableEq, Repr

/-- The outcome of `TcpRecvMsg`: the bytes taken, the stream behind them, and the decisions that
are left. -/
structure Received where
  status : Status
  content : List UInt8
  unread : List UInt8
  ios : List RecvIo

/-- The loop of `TcpRecvMsg`.  As long as nothing is unread, `select` does not report bytes. -/
def recvLoop : List RecvIo → ℕ → ℕ → List UInt8 → Received
  | ios, 0, _, unread => ⟨.ok, [], unread, ios⟩
  | [], _ + 1, _, unread => ⟨.busy, [], unread, []⟩
  | .timeout :: ios, length + 1, nTimeOut, unread =>
      if 60 < nTimeOut + 1 then ⟨.failed (-2), [], unread, ios⟩
      else recvLoop ios (length + 1) (nTimeOut + 1) unread
  | .selectFails :: ios, _ + 1, _, unread => ⟨.failed (-3), [], unread, ios⟩
  | .noBytes :: ios, _ + 1, _, unread => ⟨.failed (-4), [], unread, ios⟩
  | .recvFails :: ios, _ + 1, _, unread => ⟨.failed (-1), [], unread, ios⟩
  | .gives k :: ios, length + 1, nTimeOut, unread =>
      if unread = [] then recvLoop ios (length + 1) nTimeOut unread
      else
        let rc := min (k + 1) (min (length + 1) unread.length)
        let r := recvLoop ios (length + 1 - rc) 0 (unread.drop rc)
        { r with content := unread.take rc ++ r.content }

/-- `TcpRecvMsg`. -/
def tcpRecvMsg (length : ℕ) (unread : List UInt8) (ios : List RecvIo) : Received :=
  if length = 0 then ⟨.failed (-1), [], unread, ios⟩ else recvLoop ios length 0 unread

/-- The outcome of `TcpRecvPack`. -/
structure ReceivedPack where
  status : Status
  pack : Option ProtocolPack
  unread : List UInt8
  ios : List RecvIo

/-- `TcpRecvPack`. -/
def tcpRecvPack (unread : List UInt8) (ios : List RecvIo) : ReceivedPack :=
  let h := tcpRecvMsg HEAD_SIZE unread ios
  match h.status with
  | .busy => ⟨.busy, none, h.unread, h.ios⟩
  | .failed _ => ⟨.failed (-2), none, h.unread, h.ios⟩
  | .ok =>
      let flag := beNat (field h.content 0 2)
      let index := beNat (field h.content 2 2)
      let packType := (h.content[4]?).getD 0
      let subType := (h.content[5]?).getD 0
      let dataLen := beNat (field h.content 6 4)
      if flag ≠ PROTOCOL_HEAD_FLAG then ⟨.failed (-1), none, h.unread, h.ios⟩
      else if DATA_MAX_LEN < dataLen then ⟨.failed (-1), none, h.unread, h.ios⟩
      else if dataLen = 0 then
        ⟨.ok, some ⟨flag, index, packType, subType, dataLen, []⟩, h.unread, h.ios⟩
      else
        let d := tcpRecvMsg dataLen h.unread h.ios
        match d.status with
        | .busy => ⟨.busy, none, d.unread, d.ios⟩
        | .failed _ => ⟨.failed (-2), none, d.unread, d.ios⟩
        | .ok => ⟨.ok, some ⟨flag, index, packType, subType, dataLen, d.content⟩, d.unread, d.ios⟩

/-- The outcome of a number of calls of `TcpRecvPack`: the packs delivered before the first call
that does not return 0, and the status of the last call. -/
structure Delivery where
  delivered : List ProtocolPack
  status : Status

/-- At most `calls` calls of `TcpRecvPack`, up to the first that does not return 0. -/
def tcpRecvPacks : ℕ → List UInt8 → List RecvIo → Delivery
  | 0, _, _ => ⟨[], .ok⟩
  | calls + 1, unread, ios =>
      let r := tcpRecvPack unread ios
      match r.status, r.pack with
      | .ok, some p =>
          let rs := tcpRecvPacks calls r.unread r.ios
          { rs with delivered := p :: rs.delivered }
      | status, _ => ⟨[], status⟩

end DeviceTools.Client33310
