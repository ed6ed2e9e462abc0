/-
The frame that is sent.

`dhclient_build_discover_pack` and `dhclient_build_request_pack` do the same: they fill in one header
after the other in a local variable, and copy it into the send buffer at its offset.  The checksum of
the UDP datagram is computed over the send buffer at the end, and it is stored into the local variable,
which has been copied before.  So the frame that is sent has a zero in the place of the checksum; it
carries the checksum only if this is zero.
-/
import DeviceTools.Dhcp.Checksum
import DeviceTools.Dhcp.SendOptions

namespace DeviceTools.Dhcp.Build

open ByteWord Memory

def MINIMUM_PACKET_SIZE : ℕ := 300
def ETHERTYPE_VLAN : ℕ := 0x8100
def DHCP_MAGIC : ℕ := 0x63825363

/-! ### The headers, as they stand in memory -/

/-- `struct ethernet_hdr`, for IP. -/
def ethernetHdr (dhost shost : Vector UInt8 6) : List UInt8 := dhost.toList ++ shost.toList ++ beBytes 2 ETHERTYPE_IP

/-- `struct vlan_hdr`, for IP. -/
def vlanHdr (dhost shost : Vector UInt8 6) (vlan : ℕ) : List UInt8 :=
  dhost.toList ++ shost.toList ++ beBytes 2 ETHERTYPE_VLAN ++ beBytes 2 vlan ++ beBytes 2 ETHERTYPE_IP

/-- What the functions set of `struct iphdr`; the checksum and the addresses are in network order. -/
structure Iphdr where
  totLen : ℕ
  check : ℕ
  saddr : UInt32
  daddr : UInt32

/-- Version 4, a header of five words, no type of service, no fragments, a time to live of 64, and UDP. -/
def Iphdr.bytes (iph : Iphdr) : List UInt8 :=
  [0x45, 0] ++ beBytes 2 iph.totLen ++ [0, 0, 0, 0, 64, IPPROTO_UDP] ++ leBytes 2 iph.check ++
    leBytes 4 iph.saddr.toNat ++ leBytes 4 iph.daddr.toNat

/-- `struct udphdr`; the checksum is in network order. -/
structure Udphdr where
  source : ℕ
  dest : ℕ
  len : ℕ
  check : ℕ

def Udphdr.bytes (uh : Udphdr) : List UInt8 :=
  beBytes 2 uh.source ++ beBytes 2 uh.dest ++ beBytes 2 uh.len ++ leBytes 2 uh.check

/-- `dhcpv4_hdr` of a message to a server: the addresses of the client are the unicast address and the
address of the interface, and the names are empty. -/
def dhcpv4Hdr (data : SessionHandle) : List UInt8 :=
  [1, 1, 6, 0] ++ beBytes 4 data.opt.dhcpXid.toNat ++ [0, 0] ++ leBytes 2 data.opt.bcastFlag.toNat ++
    leBytes 4 (if data.opt.unicastIpFlag ≠ 0 then data.opt.unicastIp.toNat else 0) ++ List.replicate 12 0 ++
    data.srcmac.toList ++ List.replicate 202 0 ++ beBytes 4 DHCP_MAGIC

/-! ### Building and sending -/

/-- The number of zeros that fill up the options of a short packet. -/
def paddingSize (opt : DhclientOptions) : ℕ :=
  if opt.paddingFlag ≠ 0 ∧ 240 + opt.optSize < MINIMUM_PACKET_SIZE then
    MINIMUM_PACKET_SIZE - (240 + opt.optSize)
  else 0

/-- `memset(data->opt.opt_buff + data->opt.opt_size, 0, ...)`. -/
def padded (opt : DhclientOptions) : DhclientOptions :=
  { opt with
    optBuff := poke opt.optBuff opt.optSize (List.replicate (paddingSize opt) 0)
    optSize := opt.optSize + paddingSize opt }

/-- `memset(buf, 0, sizeof(buf)); memcpy(buf, bytes, ...)`. -/
def bufOf (bs : List UInt8) : Bytes := poke (fun _ => 0) 0 bs

/-- The common body of `dhclient_build_discover_pack` and `dhclient_build_request_pack`: the session and
the local UDP header behind it. -/
def buildPack (data : SessionHandle) : SessionHandle × Udphdr :=
  let dstmac := if data.opt.releaseFlag = 0 then .replicate 6 0xff else data.dstmac
  let sendBuf := data.sendBuf
  let sendBuf :=
    if data.opt.vlan = 0 then poke sendBuf 0 (ethernetHdr dstmac data.srcmac)
    else poke sendBuf 0 (vlanHdr dstmac data.srcmac data.opt.vlan.toNat)
  let opt := padded data.opt
  let iph : Iphdr :=
    { totLen := 20 + 8 + 240 + opt.optSize
      check := 0
      saddr := if opt.unicastIpFlag ≠ 0 then opt.unicastIp else 0
      daddr := 0xffffffff }
  let iph := { iph with check := ipchksum (bufOf iph.bytes) 10 }
  let sendBuf := poke sendBuf 14 iph.bytes
  let uh : Udphdr := { source := 68, dest := 67, len := 8 + 240 + opt.optSize, check := 0 }
  let sendBuf := poke sendBuf (14 + 20) uh.bytes
  let sendBuf := poke sendBuf (14 + 20 + 8) (dhcpv4Hdr data)
  let sendBuf := poke sendBuf (14 + 20 + 8 + 240) (slice opt.optBuff 0 opt.optSize)
  let len := 8 + 240 + opt.optSize
  let buf := bufOf (slice sendBuf (14 + 20) len)
  -- the checksum is stored into the local header, which is not copied again
  let uh := { uh with check := l4Sum buf (len / 2) iph.saddr iph.daddr (htons 17) (htons len) }
  ({ data with dstmac, sendBuf, opt }, uh)

/-- `dhclient_build_discover_pack`. -/
def dhclientBuildDiscoverPack (data : SessionHandle) : SessionHandle := (buildPack data).1

/-- `dhclient_build_request_pack`. -/
def dhclientBuildRequestPack (data : SessionHandle) : SessionHandle := (buildPack data).1

/-- `dhclient_send_pack`: the bytes that are sent. -/
def dhclientSendPack (data : SessionHandle) : List UInt8 :=
  slice data.sendBuf 0 (14 + 20 + 8 + 240 + data.opt.optSize)

/-! ### The frame -/

/-- The source address of the packets of a session. -/
def sourceAddress (opt : DhclientOptions) : UInt32 := if opt.unicastIpFlag ≠ 0 then opt.unicastIp else 0

/-- The options of the packet, filled up with zeros. -/
def packetOptions (opt : DhclientOptions) : List UInt8 :=
  slice opt.optBuff 0 opt.optSize ++ List.replicate (paddingSize opt) 0

/-- The UDP header without a checksum. -/
def bareUdphdr (opt : DhclientOptions) : Udphdr where
  source := 68
  dest := 67
  len := 8 + 240 + (opt.optSize + paddingSize opt)
  check := 0

/-- The UDP datagram with a zero in the place of the checksum. -/
def datagram (data : SessionHandle) : List UInt8 :=
  (bareUdphdr data.opt).bytes ++ (dhcpv4Hdr data ++ packetOptions data.opt)

/-- The checksum that `l4_sum` computes. -/
def udpCheck (data : SessionHandle) : ℕ := (buildPack data).2.check

/-- The frame carries the checksum, its length fields give the numbers of bytes that are sent from the two
headers on, and the DHCP header and the options stand behind them. -/
structure FrameRight (data : SessionHandle) (frame : List UInt8) : Prop where
  check : leNat (field frame 40 2) = udpCheck data
  totLen : beNat (field frame 16 2) = frame.length - 14
  udpLen : beNat (field frame 38 2) = frame.length - 34
  header : field frame 42 240 = dhcpv4Hdr data
  options : frame.drop 282 = packetOptions data.opt

/-- The words of the pseudo header and of the datagram, with the carries brought around once, have sixteen
ones in their sum. -/
def SumsToOnes (data : SessionHandle) : Prop :=
  let n := (datagram data).length
  let w := (leWords (pseudoHeader (sourceAddress data.opt) 0xffffffff IPPROTO_UDP n)).sum +
    (leWords (slice (bufOf (datagram data)) 0 (2 * (n / 2)))).sum
  (w / 2 ^ 16 + oddByte (bufOf (datagram data)) n + w % 2 ^ 16) % 2 ^ 16 = 0xffff

lemma length_dhcpv4Hdr (data : SessionHandle) : (dhcpv4Hdr data).length = 240 := by
  simp only [dhcpv4Hdr, List.length_append, List.length_cons, List.length_nil, List.length_replicate,
    beBytes_length, leBytes_length, Vector.length_toList]

lemma length_ethernetHdr (dhost shost : Vector UInt8 6) : (ethernetHdr dhost shost).length = 14 := by
  simp [ethernetHdr]

lemma length_iphdr (iph : Iphdr) : iph.bytes.length = 20 := by
  simp [Iphdr.bytes]

lemma length_udphdr (uh : Udphdr) : uh.bytes.length = 8 := by
  simp [Udphdr.bytes]

lemma length_packetOptions (opt : DhclientOptions) :
    (packetOptions opt).length = opt.optSize + paddingSize opt := by
  simp [packetOptions]

lemma length_datagram (data : SessionHandle) :
    (datagram data).length = 8 + 240 + (data.opt.optSize + paddingSize data.opt) := by
  rw [datagram, List.length_append, List.length_append, length_udphdr, length_dhcpv4Hdr, length_packetOptions]
  omega

lemma paddingSize_le (opt : DhclientOptions) : paddingSize opt ≤ 60 := by
  rw [paddingSize]
  split
  · rw [MINIMUM_PACKET_SIZE]
    omega
  · exact Nat.zero_le _

lemma slice_padded (opt : DhclientOptions) :
    slice (padded opt).optBuff 0 (padded opt).optSize = packetOptions opt := by
  have hfill := slice_poke opt.optBuff opt.optSize (List.replicate (paddingSize opt) 0)
  rw [List.length_replicate] at hfill
  rw [padded, packetOptions, slice_add, Nat.zero_add, hfill]
  congr 1
  exact slice_congr fun k _ hk => if_neg (by omega)

/-- The IP header of the packet. -/
def packetIphdr (opt : DhclientOptions) : Iphdr :=
  let iph : Iphdr := ⟨20 + 8 + 240 + (opt.optSize + paddingSize opt), 0, sourceAddress opt, 0xffffffff⟩
  { iph with check := ipchksum (bufOf iph.bytes) 10 }

/-- The Ethernet header of the frame. -/
def frameEthernetHdr (data : SessionHandle) : List UInt8 :=
  ethernetHdr (if data.opt.releaseFlag = 0 then .replicate 6 0xff else data.dstmac) data.srcmac

/-- **The send buffer**: the headers and the options are behind each other. -/
lemma buildPack_sendBuf {data : SessionHandle} (hvlan : data.opt.vlan = 0) :
    (buildPack data).1.sendBuf = poke data.sendBuf 0
      (frameEthernetHdr data ++ (packetIphdr data.opt).bytes ++ datagram data) := by
  have hopts := slice_padded data.opt
  have heth := length_ethernetHdr (if data.opt.releaseFlag = 0 then .replicate 6 0xff else data.dstmac) data.srcmac
  have hiph := length_iphdr (packetIphdr data.opt)
  have huh := length_udphdr (bareUdphdr data.opt)
  have hdhcp := length_dhcpv4Hdr data
  rw [datagram, ← List.append_assoc, ← List.append_assoc, ← poke_append, ← poke_append, ← poke_append, ← poke_append]
  simp only [List.length_append, frameEthernetHdr, heth, hiph, huh, hdhcp, ← hopts, buildPack, if_pos hvlan]
  rfl

lemma send_buildPack {data : SessionHandle} (hvlan : data.opt.vlan = 0) :
    dhclientSendPack (buildPack data).1 = frameEthernetHdr data ++ (packetIphdr data.opt).bytes ++ datagram data := by
  have hlen : (frameEthernetHdr data ++ (packetIphdr data.opt).bytes ++ datagram data).length =
      14 + 20 + 8 + 240 + (buildPack data).1.opt.optSize := by
    rw [List.length_append, List.length_append, frameEthernetHdr, length_ethernetHdr, length_iphdr, length_datagram]
    show _ = 14 + 20 + 8 + 240 + (data.opt.optSize + paddingSize data.opt)
    omega
  rw [dhclientSendPack, buildPack_sendBuf hvlan, ← hlen, slice_poke]

/-- The checksum is computed over the datagram. -/
lemma udpCheck_eq {data : SessionHandle} (hvlan : data.opt.vlan = 0) : udpCheck data =
    l4Sum (bufOf (datagram data)) ((datagram data).length / 2) (sourceAddress data.opt) 0xffffffff
      (htons IPPROTO_UDP.toNat) (htons (datagram data).length) := by
  have hsegment : slice (buildPack data).1.sendBuf 34 (8 + 240 + (data.opt.optSize + paddingSize data.opt)) =
      datagram data := by
    have hsend := send_buildPack hvlan
    rw [dhclientSendPack] at hsend
    have hdrop := congrArg (List.drop 34) hsend
    rw [drop_slice, List.drop_left' (by rw [List.length_append, frameEthernetHdr, length_ethernetHdr, length_iphdr])]
      at hdrop
    rw [← hdrop]
    congr 1
    show _ = 14 + 20 + 8 + 240 + (data.opt.optSize + paddingSize data.opt) - 34
    omega
  rw [length_datagram]
  conv_rhs => rw [← hsegment]
  rfl

/-- The parts of the frame. -/
def frameParts (data : SessionHandle) : List (List UInt8) :=
  let iph := packetIphdr data.opt
  let uh := bareUdphdr data.opt
  [frameEthernetHdr data, [0x45, 0], beBytes 2 iph.totLen, [0, 0, 0, 0, 64, IPPROTO_UDP], leBytes 2 iph.check,
    leBytes 4 iph.saddr.toNat, leBytes 4 iph.daddr.toNat, beBytes 2 uh.source, beBytes 2 uh.dest, beBytes 2 uh.len,
    leBytes 2 uh.check, dhcpv4Hdr data, packetOptions data.opt]

lemma flatten_frameParts (data : SessionHandle) : (frameParts data).flatten =
    frameEthernetHdr data ++ (packetIphdr data.opt).bytes ++ datagram data := by
  simp only [frameParts, Iphdr.bytes, datagram, Udphdr.bytes, List.flatten_cons, List.flatten_nil, List.append_assoc,
    List.append_nil]

lemma field_frame (data : SessionHandle) (i : ℕ) {x : List UInt8} {off w : ℕ} (hx : (frameParts data)[i]? = some x)
    (hoff : (((frameParts data).take i).map List.length).sum = off) (hw : x.length = w) :
    field (frameEthernetHdr data ++ (packetIphdr data.opt).bytes ++ datagram data) off w = x := by
  rw [← flatten_frameParts]
  exact field_flatten i hx (by rw [List.length_flatten, hoff]) hw

/-- The frame has all that the checksum is not part of, and a zero in its place. -/
lemma frame_fields {data : SessionHandle} (hvlan : data.opt.vlan = 0) (hroom : data.opt.optSize ≤ OPT_BUFF_SIZE) :
    let frame := dhclientSendPack (buildPack data).1
    leNat (field frame 40 2) = 0 ∧ beNat (field frame 16 2) = frame.length - 14 ∧
      beNat (field frame 38 2) = frame.length - 34 ∧ field frame 42 240 = dhcpv4Hdr data ∧
      frame.drop 282 = packetOptions data.opt := by
  have heth : (frameEthernetHdr data).length = 14 := length_ethernetHdr _ _
  have hdhcp := length_dhcpv4Hdr data
  have hpad := paddingSize_le data.opt
  have harea : OPT_BUFF_SIZE = 500 := rfl
  have hlen : (frameEthernetHdr data ++ (packetIphdr data.opt).bytes ++ datagram data).length =
      282 + (data.opt.optSize + paddingSize data.opt) := by
    rw [List.length_append, List.length_append, heth, length_iphdr, length_datagram]
    omega
  dsimp only
  rw [send_buildPack hvlan]
  refine ⟨?_, ?_, ?_, ?_, ?_⟩
  · rw [field_frame data 10 rfl (by simp [frameParts, heth]) (leBytes_length 2 _)]
    exact leNat_leBytes_of_lt (show 0 < 256 ^ 2 by decide)
  · rw [field_frame data 2 rfl (by simp [frameParts, heth]) (beBytes_length 2 _), beNat_beBytes_of_lt, hlen]
    · show 20 + 8 + 240 + (data.opt.optSize + paddingSize data.opt) = _
      omega
    · show 20 + 8 + 240 + (data.opt.optSize + paddingSize data.opt) < _
      omega
  · rw [field_frame data 9 rfl (by simp [frameParts, heth]) (beBytes_length 2 _), beNat_beBytes_of_lt, hlen]
    · show 8 + 240 + (data.opt.optSize + paddingSize data.opt) = _
      omega
    · show 8 + 240 + (data.opt.optSize + paddingSize data.opt) < _
      omega
  · exact field_frame data 11 rfl (by simp [frameParts, heth]) hdhcp
  · rw [datagram, ← List.append_assoc, ← List.append_assoc, List.drop_left']
    rw [List.length_append, List.length_append, List.length_append, heth, length_iphdr, length_udphdr, hdhcp]

lemma checksum_eq_zero_iff (w odd : ℕ) :
    OnesComplement.checksum (2 ^ 16) (w + 2 ^ 16 * odd) = 0 ↔ (w / 2 ^ 16 + odd + w % 2 ^ 16) % 2 ^ 16 = 0xffff := by
  have hdiv : (w + 2 ^ 16 * odd) / 2 ^ 16 = w / 2 ^ 16 + odd := Nat.add_mul_div_left _ _ (by decide)
  rw [OnesComplement.checksum, OnesComplement.foldOnce, hdiv, Nat.add_mul_mod_self_left]
  omega

/-- The checksum is zero if the sum has sixteen ones. -/
lemma udpCheck_eq_zero_iff {data : SessionHandle} (hvlan : data.opt.vlan = 0)
    (hroom : data.opt.optSize ≤ OPT_BUFF_SIZE) : udpCheck data = 0 ↔ SumsToOnes data := by
  have hpad := paddingSize_le data.opt
  have hlen := length_datagram data
  have harea : OPT_BUFF_SIZE = 500 := rfl
  rw [udpCheck_eq hvlan, l4Sum_eq _ _ _ _ (by omega), checksum_eq_zero_iff]
  rfl

/-- **The frame carries its checksum only if the checksum is zero.**  All other parts of it are right. -/
theorem built_frame_right_iff (data : SessionHandle) (hvlan : data.opt.vlan = 0)
    (hroom : data.opt.optSize ≤ OPT_BUFF_SIZE) :
    (FrameRight data (dhclientSendPack (dhclientBuildDiscoverPack data)) ↔ SumsToOnes data) ∧
      (FrameRight data (dhclientSendPack (dhclientBuildRequestPack data)) ↔ SumsToOnes data) := by
  obtain ⟨hcheck, htot, hudp, hheader, hoptions⟩ := frame_fields hvlan hroom
  have hright : FrameRight data (dhclientSendPack (buildPack data).1) ↔ SumsToOnes data := by
    rw [← udpCheck_eq_zero_iff hvlan hroom]
    constructor
    · intro h
      rw [← h.check, hcheck]
    · intro h
      exact ⟨hcheck.trans h.symm, htot, hudp, hheader, hoptions⟩
  exact ⟨hright, hright⟩

/-- The option area has room after `dhclient_option`, so the frame is built from a session as above. -/
lemma dhclientOption_room {rand : ℕ} {data data' : SessionHandle} {res : MRJEcode}
    (h : dhclientOption rand data = some (res, data')) : data'.opt.optSize ≤ OPT_BUFF_SIZE := by
  have hput : ∀ {opt opt' : DhclientOptions} {bs : List UInt8}, opt.put bs = some opt' →
      opt'.optSize ≤ OPT_BUFF_SIZE := by
    intro opt opt' bs h
    rw [DhclientOptions.put] at h
    split_ifs at h with hle
    rw [← Option.some.inj h]
    exact hle
  cases htype : typeOf data.sendmsg with
  | some msg =>
      -- the last writer appends `END`
      rw [dhclientOption_eq data htype, Option.map_eq_some_iff] at h
      obtain ⟨opt, hwriters, h⟩ := h
      simp only [writers, Option.bind_eq_bind, Option.bind_eq_some_iff] at hwriters
      obtain ⟨_, _, _, _, _, _, _, _, _, _, hend⟩ := hwriters
      rw [← (Prod.mk.inj h).2]
      exact hput hend
  | none =>
      rw [dhclientOption] at h
      cases hmsg : data.sendmsg <;> rw [hmsg] at h htype <;> simp_all [typeOf, dhclientOpt53Msgtype]
      all_goals
        rw [← h.2]
        exact Nat.zero_le _

/-- A session without options whose transaction number makes the checksum zero. -/
def zeroSession : SessionHandle :=
  { dhclientInit with opt := { dhclientInit.opt with dhcpXid := 0x3f910000 } }

/-- Its frames carry their checksum. -/
theorem built_frame_right_zero :
    FrameRight zeroSession (dhclientSendPack (dhclientBuildDiscoverPack zeroSession)) ∧
      FrameRight zeroSession (dhclientSendPack (dhclientBuildRequestPack zeroSession)) := by
  have hones : SumsToOnes zeroSession := by
    unfold SumsToOnes
    decide +kernel
  obtain ⟨hdiscover, hrequest⟩ := built_frame_right_iff zeroSession rfl (by decide)
  exact ⟨hdiscover.mpr hones, hrequest.mpr hones⟩

/-- **The first discovery of a session without settings carries no checksum**: the one computed is `0x8208`,
and the field is zero. -/
theorem discover_without_checksum :
    ((dhclientOption 7 { session [] with sendmsg := .DHCPMSG_DISCOVER }).map fun r =>
      (r.2.opt.vlan, udpCheck r.2, leNat (field (dhclientSendPack (dhclientBuildDiscoverPack r.2)) 40 2))) =
        some (0, 0x8208, 0) := by
  decide +kernel

end DeviceTools.Dhcp.Build
