/-
What the check of an acknowledgement recognises.

`dhclient_check_ack_pack` compares the headers of a received frame and the transaction number, and
it takes the third byte of the option area for the type of the message.  This is the type if
option 53 is the first option.  Option 53 may stand anywhere in the list: behind another option, or
behind `PAD` bytes, it is not found, and a byte of another option is taken for it.  (The loop of
`dhclient_parse_ack` looks for the options by their tags.)
-/
import DeviceTools.Dhcp.Receive

namespace DeviceTools.Dhcp

open ByteWord Memory

def DHCP_MESSAGETYPE : UInt8 := 0x35

/-- A frame with the Ethernet header, an IP header without options, the UDP header, the DHCP header,
and a list of options. -/
structure Frame where
  headers : List UInt8
  items : List Item
  rest : List UInt8
  length_headers : headers.length = DHCP_OPT
  length_le : (headers ++ optionArea items rest).length ≤ RECV_BUF_SIZE

/-- The bytes of the frame. -/
def Frame.bytes (frame : Frame) : List UInt8 := frame.headers ++ optionArea frame.items frame.rest

/-- The frame is an UDP datagram in an IP packet, from port 67 to port 68, with the transaction
number. -/
structure IsReply (frame : Frame) (xid : ℕ) : Prop where
  etherType : beNat (field frame.headers 12 2) = 0x0800
  protocol : frame.headers[23]? = some 17
  source : beNat (field frame.headers 34 2) = 67
  dest : beNat (field frame.headers 36 2) = 68
  xid : beNat (field frame.headers 46 4) = xid

/-- The type of the message is `type`. -/
def MessageType (items : List Item) (type : UInt8) : Prop := value items DHCP_MESSAGETYPE = some [type]

instance (items : List Item) (type : UInt8) : Decidable (MessageType items type) :=
  inferInstanceAs (Decidable (_ = _))

/-- Option 53 is the first item, with one byte of data. -/
def TypeFirst : List Item → Prop
  | .option o :: _ => o.tag = DHCP_MESSAGETYPE ∧ o.data.length = 1
  | _ => False

/-- The byte that is taken for the type: the third one of the option area. -/
def thirdByte (frame : Frame) : UInt8 := octets frame.bytes (DHCP_OPT + 2)

/-! ### The places of the headers -/

lemma octets_eq {bs : List UInt8} {i : ℕ} {b : UInt8} (h : bs[i]? = some b) : octets bs i = b := by
  have hget := poke_add (fun _ => 0) 0 bs h
  rwa [Nat.zero_add] at hget

lemma slice_octets {bs : List UInt8} {off n : ℕ} (h : off + n ≤ bs.length) :
    slice (octets bs) off n = field bs off n := by
  refine List.ext_getElem (by rw [length_slice, field_length h]) fun k hk _ => ?_
  rw [length_slice] at hk
  simp only [slice, List.getElem_map, List.getElem_range, field, List.getElem_take, List.getElem_drop]
  exact octets_eq (List.getElem?_eq_getElem (by omega))

/-- A field of the headers, in the receive buffer. -/
lemma slice_received (m : Bytes) (frame : Frame) {off n : ℕ} (h : off + n ≤ DHCP_OPT) :
    slice (received m frame.bytes) off n = field frame.headers off n := by
  have hlen := frame.length_headers
  have hpos : off + n ≤ frame.bytes.length := by
    rw [Frame.bytes, List.length_append]
    omega
  calc slice (received m frame.bytes) off n
    _ = slice (octets frame.bytes) off n :=
        slice_congr fun k _ hk => received_eq m _ (lt_of_lt_of_le hk (h.trans (by decide)))
    _ = field frame.bytes off n := slice_octets hpos
    _ = field frame.headers off n := by
        rw [field, field, Frame.bytes, List.drop_append_of_le_length (by omega),
          List.take_append_of_le_length (by rw [List.length_drop]; omega)]

/-- The headers are compared as the headers of a reply. -/
lemma fromServer_iff (m : Bytes) (frame : Frame) (xid : ℕ) :
    fromServer 0 (received m frame.bytes) ∧ beNat (slice (received m frame.bytes) DHCP_HDR_XID 4) = xid ↔
      IsReply frame xid := by
  have hlen : frame.headers.length = 282 := frame.length_headers
  have hprotocol : received m frame.bytes IP_PROTOCOL = 17 ↔ frame.headers[23]? = some 17 := by
    have hget : frame.bytes[23]? = frame.headers[23]? := List.getElem?_append_left (by omega)
    obtain ⟨b, hb⟩ : ∃ b, frame.headers[23]? = some b := ⟨_, List.getElem?_eq_getElem (by omega)⟩
    rw [received_eq m _ (by decide), show IP_PROTOCOL = 23 from rfl, octets_eq (hget.trans hb), hb, Option.some_inj]
  rw [fromServer, if_neg (by simp), show IPPROTO_UDP = 17 from rfl, hprotocol,
    slice_received m frame (by decide), slice_received m frame (by decide),
    slice_received m frame (by decide), slice_received m frame (by decide)]
  constructor
  · rintro ⟨⟨htype, hproto, hsource, hdest⟩, hxid⟩
    exact ⟨htype, hproto, hsource, hdest, hxid⟩
  · rintro ⟨htype, hproto, hsource, hdest, hxid⟩
    exact ⟨⟨htype, hproto, hsource, hdest⟩, hxid⟩

lemma dhclientCheckAckPack_eq_ok (m : Bytes) (frame : Frame) (xid : ℕ) :
    dhclientCheckAckPack 0 xid (received m frame.bytes) = .MRJE_OK ↔
      IsReply frame xid ∧ thirdByte frame = DHCP_MSGACK := by
  rw [← fromServer_iff m, thirdByte, ← received_eq m _ (by decide), dhclientCheckAckPack]
  constructor
  · intro h
    split_ifs at h with hserver hack
    exact ⟨⟨hserver, hack.2⟩, hack.1⟩
  · rintro ⟨⟨hserver, hxid⟩, hack⟩
    rw [if_pos hserver, if_pos ⟨hack, hxid⟩]

/-- If option 53 is the first one, the third byte is its value. -/
lemma TypeFirst.thirdByte_eq_iff {frame : Frame} (h : TypeFirst frame.items) (type : UInt8) :
    thirdByte frame = type ↔ MessageType frame.items type := by
  have hlen := frame.length_headers
  rcases hitems : frame.items with _ | ⟨_ | o, items⟩
  · rw [hitems] at h
    exact h.elim
  · rw [hitems] at h
    exact h.elim
  · rw [hitems] at h
    obtain ⟨htag, hone⟩ := h
    obtain ⟨b, hb⟩ := List.length_eq_one_iff.1 hone
    have hthird : frame.bytes[DHCP_OPT + 2]? = some b := by
      rw [Frame.bytes, List.getElem?_append_right (by omega), hlen, Nat.add_sub_cancel_left, hitems,
        optionArea_option, hb]
      rfl
    have hvalue : value (.option o :: items) DHCP_MESSAGETYPE = some [b] := by
      show ((o :: options items).find? _).map _ = _
      rw [List.find?_cons_of_pos (by simpa using htag), Option.map_some, hb]
    rw [thirdByte, octets_eq hthird, MessageType, hvalue, Option.some_inj, List.singleton_inj]

/-- **An acknowledgement is recognised by its type if option 53 is the first option**, and otherwise
only if the third byte of the options happens to say the same as option 53. -/
theorem dhclient_check_ack_exact_iff (frame : Frame) (xid : ℕ) (m : Bytes) :
    (dhclientCheckAckPack 0 xid (received m frame.bytes) = .MRJE_OK ↔
      IsReply frame xid ∧ MessageType frame.items DHCP_MSGACK) ↔
    (IsReply frame xid → TypeFirst frame.items ∨
      (thirdByte frame = DHCP_MSGACK ↔ MessageType frame.items DHCP_MSGACK)) := by
  rw [dhclientCheckAckPack_eq_ok]
  constructor
  · intro h hreply
    exact Or.inr ⟨fun hthird => (h.mp ⟨hreply, hthird⟩).2, fun htype => (h.mpr ⟨hreply, htype⟩).2⟩
  · intro h
    refine and_congr_right fun hreply => ?_
    rcases h hreply with hfirst | hthird
    · exact hfirst.thirdByte_eq_iff DHCP_MSGACK
    · exact hthird

/-- An acknowledgement with the server identifier in front of the type. -/
def serverFirst : Frame where
  headers := frameOf [1, 2, 3, 4] [192, 168, 0, 17] []
  items := [.option serverOption,
    .option ⟨DHCP_MESSAGETYPE, [DHCP_MSGACK], by decide, by decide, by decide⟩]
  rest := []
  length_headers := by decide +kernel
  length_le := by decide +kernel

/-- **An acknowledgement whose first option is another one is not recognised.** -/
theorem ack_behind_option_unrecognised :
    IsReply serverFirst 0x01020304 ∧ MessageType serverFirst.items DHCP_MSGACK ∧
      dhclientCheckAckPack 0 0x01020304 (received (fun _ => 0) serverFirst.bytes) = .MRJE_UNKNOWN := by
  have hreply : IsReply serverFirst 0x01020304 :=
    ⟨by decide +kernel, by decide +kernel, by decide +kernel, by decide +kernel, by decide +kernel⟩
  exact ⟨hreply, by decide +kernel, by decide +kernel⟩

end DeviceTools.Dhcp
