/-
The receive buffer, and the check of a received frame.

`dhclient_recv_pack` clears the receive buffer, receives a frame into it and stores a zero behind
the frame.  `dhclient_check_pack` looks at fixed places of the buffer: the headers in front of
the DHCP packet, the transaction number, and the byte where the type of the message is if the
first option gives it.  A frame that passes the check is longer than these places, since the
buffer is zero behind it.
-/
import DeviceTools.Dhcp.Parse
import DeviceTools.Lib.Memory

namespace DeviceTools.Dhcp

open ByteWord Memory

/-- `MRJ_DhcpMsg`. -/
inductive MRJDhcpMsg where
  | DHCPMSG_NONE
  | DHCPMSG_REQUEST
  | DHCPMSG_DISCOVER
  | DHCPMSG_OFFER
  | DHCPMSG_ACK
  | DHCPMSG_RELEASE
  | DHCPMSG_LAST
deriving DecidableEq, Repr

/-- `sizeof(data->recv_buf)`. -/
def RECV_BUF_SIZE : ℕ := 1518

def VLAN_VIDMASK : ℕ := 0x0fff
def ETHERTYPE_IP : ℕ := 0x0800
def ETHERTYPE_VLAN : ℕ := 0x8100
def IPPROTO_UDP : UInt8 := 17
def DHCP_SRC_PORT : ℕ := 67
def DHCP_MSGOFFER : UInt8 := 0x02
def DHCP_MSGACK : UInt8 := 0x05
def DHCP_MSGNACK : UInt8 := 0x06

/-! The places in the receive buffer: the Ethernet header has 14 bytes, the IP header 20, the UDP
header 8, and the DHCP header 240. -/

def ETHER_TYPE : ℕ := 12
def VLAN_TPI : ℕ := 12
def VLAN_PRIORITY_C_VID : ℕ := 14
def IP_PROTOCOL : ℕ := 14 + 9
def UDP_SOURCE : ℕ := 14 + 20
def UDP_DEST : ℕ := 14 + 20 + 2
def DHCP_HDR_XID : ℕ := 14 + 20 + 8 + 4
def DHCP_HDR_YIP : ℕ := 14 + 20 + 8 + 16
def DHCP_HDR_SIP : ℕ := 14 + 20 + 8 + 20
def DHCP_HDR_GIP : ℕ := 14 + 20 + 8 + 24
def DHCP_OPT : ℕ := 14 + 20 + 8 + 240

/-- The bytes of a frame, and zeros behind it. -/
def octets (frame : List UInt8) : Bytes := poke (fun _ => 0) 0 frame

/-- The memory from `recv_buf` on after the frame was received: the buffer is cleared, the frame
is stored, and a zero is stored behind the frame. -/
def received (m : Bytes) (frame : List UInt8) : Bytes :=
  poke (poke (poke m 0 (List.replicate RECV_BUF_SIZE 0)) 0 frame) frame.length [0]

/-- The buffer holds the frame and zeros behind it. -/
lemma received_eq (m : Bytes) (frame : List UInt8) {i : ℕ} (hi : i < RECV_BUF_SIZE) :
    received m frame i = octets frame i := by
  have hzero : (List.replicate RECV_BUF_SIZE (0 : UInt8))[i]? = some 0 := by
    rw [List.getElem?_replicate, if_pos hi]
  simp only [received, octets, poke, Nat.zero_le, if_true, Nat.sub_zero, hzero, Option.getD_some]
  by_cases hle : frame.length ≤ i
  · rw [if_pos hle, List.getElem?_eq_none hle, Option.getD_none]
    cases i - frame.length <;> rfl
  · rw [if_neg hle]

/-! ### The check -/

/-- The frame is an UDP datagram from the port of a server to that of a client.  For a tagged
frame the tag is compared; the headers behind it are looked for at the same places as in a frame
without a tag. -/
def fromServer (vlan : ℕ) (m : Bytes) : Prop :=
  (if vlan ≠ 0 then
    beNat (slice m VLAN_PRIORITY_C_VID 2) &&& VLAN_VIDMASK = vlan ∧ beNat (slice m VLAN_TPI 2) = ETHERTYPE_VLAN
  else beNat (slice m ETHER_TYPE 2) = ETHERTYPE_IP) ∧
  m IP_PROTOCOL = IPPROTO_UDP ∧ beNat (slice m UDP_SOURCE 2) = DHCP_SRC_PORT ∧
    beNat (slice m UDP_DEST 2) = DHCP_SRC_PORT + 1

instance (vlan : ℕ) (m : Bytes) : Decidable (fromServer vlan m) :=
  inferInstanceAs (Decidable ((if vlan ≠ 0 then _ else _) ∧ _))

/-- The third byte of the options is the type of the message, in a packet of the transaction. -/
def isMessage (type : UInt8) (xid : ℕ) (m : Bytes) : Prop :=
  m (DHCP_OPT + 2) = type ∧ beNat (slice m DHCP_HDR_XID 4) = xid

instance (type : UInt8) (xid : ℕ) (m : Bytes) : Decidable (isMessage type xid m) :=
  inferInstanceAs (Decidable (_ ∧ _))

/-- `dhclient_check_offer_pack`. -/
def dhclientCheckOfferPack (vlan xid : ℕ) (m : Bytes) : MRJEcode :=
  if fromServer vlan m then
    if isMessage DHCP_MSGOFFER xid m then .MRJE_OK else .MRJE_UNKNOWN
  else .MRJE_UNKNOWN

/-- `dhclient_check_ack_pack`. -/
def dhclientCheckAckPack (vlan xid : ℕ) (m : Bytes) : MRJEcode :=
  if fromServer vlan m then
    if isMessage DHCP_MSGACK xid m then .MRJE_OK
    else if isMessage DHCP_MSGNACK xid m then .MRJE_RECV_NAK
    else .MRJE_UNKNOWN
  else .MRJE_UNKNOWN

/-- `dhclient_check_pack`. -/
def dhclientCheckPack (recvmsg : MRJDhcpMsg) (vlan xid : ℕ) (m : Bytes) : MRJEcode :=
  match recvmsg with
  | .DHCPMSG_OFFER => dhclientCheckOfferPack vlan xid m
  | .DHCPMSG_ACK => dhclientCheckAckPack vlan xid m
  | _ => .MRJE_UNSUPPORTED_PROTOCOL

/-- Only offers and acknowledgements pass the check. -/
lemma recvmsg_of_check {recvmsg : MRJDhcpMsg} {vlan xid : ℕ} {m : Bytes}
    (h : dhclientCheckPack recvmsg vlan xid m = .MRJE_OK) :
    recvmsg = .DHCPMSG_OFFER ∧ isMessage DHCP_MSGOFFER xid m ∨
      recvmsg = .DHCPMSG_ACK ∧ isMessage DHCP_MSGACK xid m := by
  cases recvmsg with
  | DHCPMSG_OFFER =>
      rw [dhclientCheckPack, dhclientCheckOfferPack] at h
      split_ifs at h with hserver hmessage
      exact Or.inl ⟨rfl, hmessage⟩
  | DHCPMSG_ACK =>
      rw [dhclientCheckPack, dhclientCheckAckPack] at h
      split_ifs at h with hserver hmessage
      exact Or.inr ⟨rfl, hmessage⟩
  | _ => simp [dhclientCheckPack] at h

/-- A frame from the port of a server to that of a client, with the given transaction number,
address for the client, and options. -/
def frameOf (xid yip options : List UInt8) : List UInt8 :=
  List.replicate 12 0xff ++ [0x08, 0x00] ++ List.replicate 9 0 ++ [IPPROTO_UDP] ++ List.replicate 10 0 ++
    [0, 67, 0, 68] ++ List.replicate 8 0 ++ xid ++ List.replicate 8 0 ++ yip ++ List.replicate 216 0 ++
    [0x63, 0x82, 0x53, 0x63] ++ options

end DeviceTools.Dhcp
