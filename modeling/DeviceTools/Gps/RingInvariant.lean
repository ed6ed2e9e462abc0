/-
The read position of the ring.

The three parsers share one ring, each with its own saved part, and the parse thread calls one
of them at a time.  This file follows the read position over the runs of the receiver and the
parse thread, for arbitrary received bytes.  What is known of the saved parts is an invariant:
they fit their buffers, and the saved part of a sentence starts with the header and does not
have the end of the sentence.
-/
import DeviceTools.Gps.Parser
import DeviceTools.Lib.Runs

namespace DeviceTools

open Memory

/-- The parsers, by the value of `dataType`; the response parser looks for the command in the
globals `classId` and `messageId`. -/
inductive Parser where
  | nmea
  | cmdRes (classId messageId : UInt8)
  | data
deriving DecidableEq, Repr

/-- The parser's function. -/
def Parser.framer : Parser → Framer
  | .nmea => nmeaParsePacket
  | .cmdRes classId messageId => ubxCmdResPack classId messageId
  | .data => ubxDataPack

/-- The ring and the three saved parts. -/
structure Gps where
  ring : RingBuffer UInt8
  nmeaPacket : List UInt8
  resPartPacket : List UInt8
  dataPartPacket : List UInt8

/-- The steps: a read of the receiver, with the bytes that are there to read, a read that
fails, and a call of a parser. -/
inductive GpsAction where
  | recv (bytes : List UInt8)
  | readFails
  | parse (p : Parser)

namespace Gps

/-- The state after the threads have cleared their buffers. -/
def init : Gps := ⟨⟨fun _ => 0, 0, 0⟩, [], [], []⟩

/-- The saved part that a parser uses. -/
def part (s : Gps) : Parser → List UInt8
  | .nmea => s.nmeaPacket
  | .cmdRes _ _ => s.resPartPacket
  | .data => s.dataPartPacket

/-- The state after a call. -/
def after (s : Gps) (p : Parser) (r : PackResult) : Gps :=
  match p with
  | .nmea => { s with ring := r.ring, nmeaPacket := r.part }
  | .cmdRes _ _ => { s with ring := r.ring, resPartPacket := r.part }
  | .data => { s with ring := r.ring, dataPartPacket := r.part }

/-- One step of the receiver or of the parse thread.  A read stores at most the bytes up to the
end of the ring; a failed one returns -1, which is added to the position like a length. -/
def step (behind : Bytes) (s : Gps) : GpsAction → Option Gps
  | .recv bytes =>
      some { s with ring := s.ring.write MAX_BUFF_LEN (bytes.take (MAX_BUFF_LEN - s.ring.head)) }
  | .readFails =>
      if s.ring.head = 0 then none
      else some { s with ring := { s.ring with head := s.ring.head - 1 } }
  | .parse p =>
      if s.ring.head = s.ring.tail then some s
      else (p.framer.pack behind (s.part p) s.ring).map (s.after p)

/-- What a step must do to the ring: reads do not move the read position; a parser copies at
most `MAX_BUFF_LEN` bytes to its check buffer and moves the read position forward, within the
unread bytes that it saw. -/
def Sound (s : Gps) (s' : Gps) : GpsAction → Prop
  | .recv _ => s'.ring.tail = s.ring.tail ∧ s'.ring.tail < MAX_BUFF_LEN
  | .readFails => s'.ring.tail = s.ring.tail ∧ s'.ring.head = s.ring.head
  | .parse p =>
      s'.ring.tail < MAX_BUFF_LEN ∧
      (s.ring.head = s.ring.tail → s' = s) ∧
      (s.ring.head ≠ s.ring.tail →
        (s.part p ++ s.ring.fresh MAX_BUFF_LEN).length ≤ MAX_BUFF_LEN ∧
        ∃ n ≤ (s.ring.fresh MAX_BUFF_LEN).length,
          s'.ring = s.ring.setTail MAX_BUFF_LEN (s.ring.tail + n))

end Gps

/-- A packet that `ubx_data_content` accepts in the saved part ends before the part does. -/
def endsInside (part : List UInt8) (i : ℕ) : Bool :=
  match ubxDataBody (checkBuff (fun _ => 0) part) part.length i with
  | some (.found offset validLen) => offset + validLen < part.length
  | _ => false

/-- A response that `ubx_cmd_res_content` accepts at `i` ends behind the window. -/
def endsBehind (classId messageId : UInt8) (w : List UInt8) (i : ℕ) : Bool :=
  w.length < i + ACK_DATA_LEN &&
    ubxCmdResBody classId messageId (checkBuff (fun _ => 0) w) i = some (.found i ACK_DATA_LEN)

/-- The condition on a call: the unread bytes leave room for the longest part that may be
saved and for the bytes behind the window that the scan looks at, no packet is accepted that
ends within the saved part, and no response is accepted that ends behind the window. -/
def Parser.CallOk (part fresh : List UInt8) : Parser → Prop
  | .nmea => fresh.length + PART_VALID_BUFF_LEN + 4 ≤ MAX_BUFF_LEN
  | .cmdRes classId messageId =>
      fresh.length + ACK_DATA_LEN + 9 ≤ MAX_BUFF_LEN ∧
        ∀ i < (part ++ fresh).length, endsBehind classId messageId (part ++ fresh) i = false
  | .data =>
      fresh.length + UBX_SIGNAL_PACK_LEN ≤ MAX_BUFF_LEN ∧
        ∀ i < part.length, endsInside part i = false

/-- The condition on a step: no read fails, and the calls meet their condition. -/
def Gps.Allowed (s : Gps) : GpsAction → Prop
  | .recv _ => True
  | .readFails => False
  | .parse p => s.ring.head ≠ s.ring.tail → p.CallOk (s.part p) (s.ring.fresh MAX_BUFF_LEN)

instance (part fresh : List UInt8) : ∀ p, Decidable (Parser.CallOk part fresh p)
  | .nmea => inferInstanceAs (Decidable (_ ≤ _))
  | .cmdRes _ _ => inferInstanceAs (Decidable (_ ∧ _))
  | .data => inferInstanceAs (Decidable (_ ∧ _))

instance (s : Gps) : ∀ a, Decidable (s.Allowed a)
  | .recv _ => inferInstanceAs (Decidable True)
  | .readFails => inferInstanceAs (Decidable False)
  | .parse _ => inferInstanceAs (Decidable (_ → _))

/-- What is known of a saved part. -/
def Parser.PartInv (part : List UInt8) : Parser → Prop
  | .nmea =>
      part.length ≤ PART_VALID_BUFF_LEN ∧
        (part = [] ∨ 6 ≤ part.length ∧ NMEA_HEAD <+: part ∧
          ∀ j, 6 ≤ j → j + 4 < part.length → nmeaTailAt (checkBuff (fun _ => 0) part) j = false)
  | .cmdRes _ _ => part.length ≤ ACK_DATA_LEN
  | .data => part.length ≤ UBX_SIGNAL_PACK_LEN

/-! ### Moving on -/

section
variable {behind : Bytes}

/-- **A call moves the read position within the bytes it saw**, if a packet that was found ends
neither within the saved part nor behind the window.  What it saves is what is saved of a
divided packet. -/
lemma Framer.pack_moves (F : Framer) {part : List UInt8} {r : RingBuffer UInt8}
    (htail : r.tail < MAX_BUFF_LEN)
    (hlen : (part ++ r.fresh MAX_BUFF_LEN).length ≤ MAX_BUFF_LEN)
    (hfound : ∀ offset validLen, F.content (checkBuff behind (part ++ r.fresh MAX_BUFF_LEN))
      (part ++ r.fresh MAX_BUFF_LEN).length = .found offset validLen →
        part.length ≤ offset + validLen ∧
          offset + validLen ≤ (part ++ r.fresh MAX_BUFF_LEN).length) :
    ∃ res, ∃ n ≤ (r.fresh MAX_BUFF_LEN).length, F.pack behind part r = some res ∧
      res.ring = r.setTail MAX_BUFF_LEN (r.tail + n) ∧
      (res.part = [] ∨
        F.content (checkBuff behind (part ++ r.fresh MAX_BUFF_LEN))
          (part ++ r.fresh MAX_BUFF_LEN).length = .divided ∧
        res.part = F.partContent (checkBuff behind (part ++ r.fresh MAX_BUFF_LEN))
          (part ++ r.fresh MAX_BUFF_LEN).length) := by
  have hwlen : (part ++ r.fresh MAX_BUFF_LEN).length = part.length + (r.fresh MAX_BUFF_LEN).length :=
    List.length_append
  have havail : (r.fresh MAX_BUFF_LEN).length =
      if r.tail < r.head then r.head - r.tail else MAX_BUFF_LEN - r.tail := RingBuffer.length_fresh
  rcases hc : F.content (checkBuff behind (part ++ r.fresh MAX_BUFF_LEN))
      (part ++ r.fresh MAX_BUFF_LEN).length with ⟨offset, validLen⟩ | _ | _
  · obtain ⟨hle, hge⟩ := hfound offset validLen hc
    exact ⟨_, offset + validLen - part.length, by omega, pack_found hlen hc hle, rfl, Or.inl rfl⟩
  · exact ⟨_, _, le_rfl, pack_divided hlen hc, rfl, Or.inr ⟨rfl, rfl⟩⟩
  · by_cases hskip : F.skip ≤ (r.fresh MAX_BUFF_LEN).length
    · exact ⟨_, F.skip, hskip, pack_skip hlen hc hskip, rfl, Or.inl rfl⟩
    · simp only [pack, if_neg (not_lt.2 hlen), hc, if_neg hskip]
      by_cases hend : MAX_BUFF_LEN ≤ r.tail + (r.fresh MAX_BUFF_LEN).length
      · -- the end of the ring: both sides are position 0
        refine ⟨_, _, le_rfl, if_pos hend, ?_, Or.inl rfl⟩
        simp only [RingBuffer.setTail, if_pos hend, ite_self]
      · rw [if_neg hend]
        split
        · exact ⟨_, _, le_rfl, rfl, rfl, Or.inl rfl⟩
        · -- the window goes up to the writer
          refine ⟨_, _, le_rfl, rfl, ?_, Or.inl rfl⟩
          have hlt : r.tail < r.head := by
            by_contra hc'
            rw [if_neg hc'] at havail
            omega
          rw [if_pos hlt] at havail
          simp only
          congr 1
          omega

/-! ### The saved parts and the packets found -/

lemma checkBuff_left (behind behind' : Bytes) (part fresh : List UInt8) {k : ℕ}
    (h : k < part.length) : checkBuff behind (part ++ fresh) k = checkBuff behind' part k := by
  rw [checkBuff_append_left behind part fresh h, checkBuff_of_lt behind' h]

lemma ubxPartContent_length (n : ℕ) (buffer : Bytes) (dataLen : ℕ) :
    (ubxPartContent n buffer dataLen).length ≤ n := by
  rw [ubxPartContent]
  split
  · simp
  · rw [length_slice]
    omega

/-- What `ubx_data_content` finds lies in the window. -/
lemma ubxDataBody_found {buffer : Bytes} {dataLen i offset validLen : ℕ}
    (h : ubxDataBody buffer dataLen i = some (.found offset validLen)) :
    offset = i ∧ i + validLen ≤ dataLen ∧ ubxHeaderAt buffer i = true ∧
      buffer (i + 2) = UBX_CLASS_NAV ∧ navPackLen (buffer (i + 3)) = some validLen ∧
      ubxChecksum (slice buffer (i + 2) (validLen - 4)) =
        (buffer (validLen - 2), buffer (validLen - 1)) := by
  rw [ubxDataBody] at h
  split at h
  · next hhead =>
      split at h
      · simp at h
      · split at h
        · next hclass =>
            split at h
            · simp at h
            · next len hlen =>
                split at h
                · simp at h
                · next hle =>
                    split at h
                    · next hsum =>
                        simp only [Option.some.injEq, Content.found.injEq] at h
                        obtain ⟨rfl, rfl⟩ := h
                        exact ⟨rfl, by omega, hhead, hclass, hlen, hsum⟩
                    · simp at h
        · simp at h
  · simp at h

/-- The bytes that decide whether a packet is accepted are those of the packet and two bytes
before its end. -/
lemma ubxDataBody_congr {b b' : Bytes} {n n' i len : ℕ} (hle : i + len ≤ n')
    (hb : ∀ k < i + len, b k = b' k) (h : ubxDataBody b n i = some (.found i len)) :
    ubxDataBody b' n' i = some (.found i len) := by
  obtain ⟨-, -, hhead, hclass, hlen, hsum⟩ := ubxDataBody_found h
  have hl := navPackLen_bounds hlen
  have hhead' : ubxHeaderAt b' i = true := by
    rwa [ubxHeaderAt, ← hb i (by omega), ← hb (i + 1) (by omega)]
  have hslice : slice b (i + 2) (len - 4) = slice b' (i + 2) (len - 4) :=
    slice_congr fun k _ hk => hb k (by omega)
  rw [hslice, hb (len - 2) (by omega), hb (len - 1) (by omega)] at hsum
  rw [hb _ (by omega)] at hclass hlen
  rw [ubxDataBody, if_pos hhead', if_neg (by omega), if_pos hclass, hlen]
  simp only
  rw [if_neg (by omega), if_pos hsum]

lemma ubxDataContent_found {part fresh : List UInt8}
    (hinside : ∀ i < part.length, endsInside part i = false) {offset validLen : ℕ}
    (h : ubxDataContent (checkBuff behind (part ++ fresh)) (part ++ fresh).length =
      .found offset validLen) :
    part.length ≤ offset + validLen ∧ offset + validLen ≤ (part ++ fresh).length := by
  rw [ubxDataContent] at h
  split at h
  · obtain ⟨k, -, -, hk, -⟩ := scan_eq (by simp) h
    obtain ⟨rfl, hle, -⟩ := ubxDataBody_found hk
    refine ⟨?_, hle⟩
    -- otherwise the packet is accepted in the saved part alone
    by_contra hlt
    rw [not_le] at hlt
    have hb : ∀ k < offset + validLen,
        checkBuff behind (part ++ fresh) k = checkBuff (fun _ => 0) part k :=
      fun k hk' => checkBuff_left behind _ part fresh (by omega)
    have hin := ubxDataBody_congr hlt.le hb hk
    have hno := hinside offset (by omega)
    simp [endsInside, hin, hlt] at hno
  · simp at h

lemma checkBuff_room (behind' : Bytes) {w : List UInt8} {k : ℕ} (hk : k < MAX_BUFF_LEN) :
    checkBuff behind w k = checkBuff behind' w k := by
  simp [checkBuff, hk]

lemma ubxCmdResContent_found {classId messageId : UInt8} {part fresh : List UInt8}
    (hpart : part.length ≤ ACK_DATA_LEN) (hroom : (part ++ fresh).length + 9 ≤ MAX_BUFF_LEN)
    (hbehind : ∀ i < (part ++ fresh).length,
      endsBehind classId messageId (part ++ fresh) i = false) {offset validLen : ℕ}
    (h : ubxCmdResContent classId messageId (checkBuff behind (part ++ fresh))
      (part ++ fresh).length = .found offset validLen) :
    part.length ≤ offset + validLen ∧ offset + validLen ≤ (part ++ fresh).length := by
  rw [ubxCmdResContent] at h
  split at h
  · obtain ⟨i, -, hi, hk, -⟩ := scan_eq (by simp) h
    rw [Nat.zero_add] at hi
    -- the scan stays within the check buffer
    have hsame : ubxCmdResBody classId messageId (checkBuff behind (part ++ fresh)) i =
        ubxCmdResBody classId messageId (checkBuff (fun _ => 0) (part ++ fresh)) i := by
      have hb : ∀ k < i + 10, checkBuff behind (part ++ fresh) k =
          checkBuff (fun _ => 0) (part ++ fresh) k := fun k hk => checkBuff_room _ (by omega)
      rw [ubxCmdResBody, ubxCmdResBody, ubxAckAt, ubxAckAt, ubxHeaderAt, ubxHeaderAt,
        hb i (by omega), hb (i + 1) (by omega), hb (i + 2) (by omega), hb (i + 3) (by omega),
        hb (i + 6) (by omega), hb (i + 7) (by omega), hb (i + 8) (by omega), hb (i + 9) (by omega),
        slice_congr (n := ACK_DATA_LEN - 4) fun k _ hk => hb k (by simp [ACK_DATA_LEN] at hk; omega)]
    have hfound : offset = i ∧ validLen = ACK_DATA_LEN := by
      rw [ubxCmdResBody] at hk
      split at hk
      · split at hk
        · simp only [Option.some.injEq, Content.found.injEq] at hk
          exact ⟨hk.1.symm, hk.2.symm⟩
        · simp at hk
      · simp at hk
    obtain ⟨rfl, rfl⟩ := hfound
    have hno := hbehind offset hi
    rw [endsBehind, ← hsame, hk] at hno
    simp only [decide_true, Bool.and_true, decide_eq_false_iff_not, not_lt] at hno
    exact ⟨by omega, hno⟩
  · simp at h

/-- The first header decides what `nmea_parse_content` returns. -/
lemma nmeaParseContent_eq {buffer : Bytes} {dataLen i : ℕ} (h6 : 6 ≤ dataLen) (hi : i < dataLen)
    (hhead : nmeaHeadAt buffer i = true) (hfirst : ∀ k < i, nmeaHeadAt buffer k = false) :
    some (nmeaParseContent buffer dataLen) = nmeaParseBody buffer dataLen i := by
  obtain ⟨c, hc⟩ : ∃ c, nmeaParseBody buffer dataLen i = some c := by
    rw [nmeaParseBody, if_pos hhead]
    split <;> exact ⟨_, rfl⟩
  rw [hc, nmeaParseContent, if_pos h6]
  refine congrArg some (scan_of_first hc (fun k _ hk => ?_) (by omega) (by omega))
  rw [nmeaParseBody, if_neg (by simp [hfirst k hk])]

lemma nmeaParseContent_found {part fresh : List UInt8} (hpart : Parser.nmea.PartInv part)
    (hroom : (part ++ fresh).length + 4 ≤ MAX_BUFF_LEN) {offset validLen : ℕ}
    (h : nmeaParseContent (checkBuff behind (part ++ fresh)) (part ++ fresh).length =
      .found offset validLen) :
    part.length ≤ offset + validLen ∧ offset + validLen ≤ (part ++ fresh).length := by
  have h6 : 6 ≤ (part ++ fresh).length := by
    by_contra hlt
    rw [nmeaParseContent, if_neg hlt] at h
    simp at h
  -- the packet goes from a header to an end of a sentence
  obtain ⟨i, j, hhead, hj, rfl, rfl⟩ : ∃ i j, nmeaHeadAt (checkBuff behind (part ++ fresh)) i = true ∧
      findOffset (nmeaTailAt (checkBuff behind (part ++ fresh))) ((part ++ fresh).length - (i + 6))
        (i + 6) = some j ∧ offset = i ∧ validLen = j + 4 - i + 1 := by
    rw [nmeaParseContent, if_pos h6] at h
    obtain ⟨i, -, -, hk, -⟩ := scan_eq (by simp) h
    rw [nmeaParseBody] at hk
    split at hk
    · next hhead =>
        split at hk
        · next j hj =>
            simp only [Option.some.injEq, Content.found.injEq] at hk
            exact ⟨i, j, hhead, hj, hk.1.symm, hk.2.symm⟩
        · simp at hk
    · simp at hk
  obtain ⟨hij, hjw, htail, -⟩ := findOffset_some hj
  have htail' := htail
  simp only [nmeaTailAt, Bool.and_eq_true, decide_eq_true_eq] at htail'
  constructor
  · rcases hpart.2 with rfl | ⟨hlen, hpre, hno⟩
    · simp
    · -- the saved part starts with the header, and the end is not in it
      have hhead0 : nmeaHeadAt (checkBuff behind (part ++ fresh)) 0 = true := by
        obtain ⟨t, ht⟩ := hpre
        rw [nmeaHeadAt, slice_checkBuff behind (by simpa [NMEA_HEAD] using h6), List.drop_zero, ← ht,
          List.append_assoc, List.take_left]
        exact decide_eq_true rfl
      have hi0 : offset = 0 := by
        have heq := nmeaParseContent_eq h6 (by omega) hhead0 (by simp)
        rw [h, nmeaParseBody, if_pos hhead0] at heq
        split at heq
        · simp only [Option.some.injEq, Content.found.injEq] at heq
          exact heq.1
        · simp at heq
      subst hi0
      by_contra hlt
      have hfalse := hno j (by omega) (by omega)
      rw [nmeaTailAt, ← checkBuff_left behind _ part fresh (by omega),
        ← checkBuff_left behind _ part fresh (by omega),
        ← checkBuff_left behind _ part fresh (by omega)] at hfalse
      rw [nmeaTailAt] at htail
      rw [htail] at hfalse
      simp at hfalse
  · -- the line feed is in the window
    by_contra hlt
    have h0 := checkBuff_of_ge behind (w := part ++ fresh) (i := j + 4) (by omega) (by omega)
    rw [htail'.2] at h0
    exact absurd h0 (by decide)

lemma checkBuff_slice (behind' buffer : Bytes) (off : ℕ) {n k : ℕ} (hk : k < n) :
    checkBuff behind' (slice buffer off n) k = buffer (off + k) := by
  simp [checkBuff, slice, hk]

/-- What is saved of a divided sentence has the header and not the end. -/
lemma nmeaParsePartContent_inv {w : List UInt8} (hroom : w.length < MAX_BUFF_LEN)
    (h : nmeaParseContent (checkBuff behind w) w.length = .divided) :
    Parser.nmea.PartInv (nmeaParsePartContent (checkBuff behind w) w.length) := by
  rw [nmeaParsePartContent]
  split
  · exact ⟨by simp, Or.inl rfl⟩
  · next i hi =>
      obtain ⟨-, hiw, hhead, hfirst⟩ := findOffset_some hi
      rw [Nat.zero_add] at hiw
      have hi6 : i + 6 ≤ w.length := by
        by_contra hlt
        rw [nmeaHeadAt_short behind hroom hiw (by omega)] at hhead
        simp at hhead
      set m := min (w.length - i) PART_VALID_BUFF_LEN with hm
      have hm6 : 6 ≤ m := le_min (by omega) (by simp [PART_VALID_BUFF_LEN])
      refine ⟨by rw [length_slice]; exact min_le_right _ _, Or.inr ⟨by rwa [length_slice], ?_, ?_⟩⟩
      · rw [nmeaHeadAt, decide_eq_true_eq] at hhead
        rw [slice_checkBuff behind (by omega), ← hhead,
          slice_checkBuff behind (by simpa [NMEA_HEAD] using hi6)]
        exact List.take_prefix_take_left (by simpa [NMEA_HEAD] using hm6)
      · intro j hj hjm
        rw [length_slice] at hjm
        have hbody := nmeaParseContent_eq (by omega) hiw hhead fun k hk => hfirst k (Nat.zero_le k) hk
        rw [h, nmeaParseBody, if_pos hhead] at hbody
        split at hbody
        · simp at hbody
        · next hnone =>
            have hno := findOffset_none hnone (i + j) (by omega) (by omega)
            rw [nmeaTailAt, checkBuff_slice _ _ i (by omega), checkBuff_slice _ _ i (by omega),
              checkBuff_slice _ _ i (by omega)]
            exact hno

/-! ### Runs -/

/-- The invariant of the runs. -/
structure Gps.Inv (s : Gps) : Prop where
  head_lt : s.ring.head < MAX_BUFF_LEN
  tail_lt : s.ring.tail < MAX_BUFF_LEN
  part : ∀ p, Parser.PartInv (s.part p) p

lemma Parser.partInv_nil (p : Parser) : p.PartInv [] := by
  cases p with
  | nmea => exact ⟨by simp, Or.inl rfl⟩
  | cmdRes _ _ => simp [PartInv]
  | data => simp [PartInv]

lemma Gps.inv_init : Gps.init.Inv :=
  ⟨by decide, by decide, fun p => by cases p <;> exact Parser.partInv_nil _⟩

lemma Parser.CallOk.length_le {p : Parser} {part fresh : List UInt8} (hp : p.PartInv part)
    (h : p.CallOk part fresh) : (part ++ fresh).length ≤ MAX_BUFF_LEN := by
  rw [List.length_append]
  cases p with
  | nmea => have := hp.1; simp only [CallOk] at h; omega
  | cmdRes _ _ => have := h.1; simp only [PartInv] at hp; omega
  | data => have := h.1; simp only [PartInv] at hp; omega

/-- What a parser finds ends neither within the saved part nor behind the window. -/
lemma Parser.CallOk.found {p : Parser} {part fresh : List UInt8} (hp : p.PartInv part)
    (h : p.CallOk part fresh) {offset validLen : ℕ}
    (hc : p.framer.content (checkBuff behind (part ++ fresh)) (part ++ fresh).length =
      .found offset validLen) :
    part.length ≤ offset + validLen ∧ offset + validLen ≤ (part ++ fresh).length := by
  cases p with
  | nmea =>
      have := hp.1
      refine nmeaParseContent_found hp ?_ hc
      rw [List.length_append]
      simp only [CallOk] at h
      omega
  | cmdRes _ _ =>
      refine ubxCmdResContent_found hp ?_ h.2 hc
      have := h.1
      rw [List.length_append]
      simp only [PartInv] at hp
      omega
  | data => exact ubxDataContent_found h.2 hc

/-- What a parser saves meets the invariant. -/
lemma Parser.CallOk.partInv {p : Parser} {part fresh : List UInt8} (hp : p.PartInv part)
    (h : p.CallOk part fresh)
    (hc : p.framer.content (checkBuff behind (part ++ fresh)) (part ++ fresh).length = .divided) :
    p.PartInv (p.framer.partContent (checkBuff behind (part ++ fresh)) (part ++ fresh).length) := by
  cases p with
  | nmea =>
      have := hp.1
      refine nmeaParsePartContent_inv ?_ hc
      rw [List.length_append]
      simp only [CallOk] at h
      omega
  | cmdRes _ _ => exact ubxPartContent_length _ _ _
  | data => exact ubxPartContent_length _ _ _

@[simp] lemma Gps.after_ring (s : Gps) (p : Parser) (r : PackResult) : (s.after p r).ring = r.ring := by
  cases p <;> rfl

lemma Gps.after_part {s : Gps} {p : Parser} {r : PackResult} (hs : ∀ q : Parser, q.PartInv (s.part q))
    (hr : p.PartInv r.part) (q : Parser) : q.PartInv ((s.after p r).part q) := by
  have hq := hs q
  cases p <;> cases q
  all_goals first | exact hr | exact hq

/-- **A step that meets the condition** is defined and does to the ring what it should, and it
keeps the invariant. -/
lemma Gps.Inv.step {s : Gps} (hI : s.Inv) (a : GpsAction) (ha : s.Allowed a) :
    ∃ s', Gps.step behind s a = some s' ∧ s.Sound s' a ∧ s'.Inv := by
  have hhead := hI.head_lt; have htail := hI.tail_lt
  cases a with
  | recv bytes =>
      refine ⟨_, rfl, ⟨rfl, htail⟩, ?_, htail, fun p => ?_⟩
      · simp only [RingBuffer.write]
        split <;> omega
      · have hp := hI.part p
        cases p <;> exact hp
  | readFails => exact absurd ha id
  | parse p =>
      by_cases heq : s.ring.head = s.ring.tail
      · refine ⟨s, by rw [Gps.step, if_pos heq], ⟨htail, fun _ => rfl, fun hc => ?_⟩, hI⟩
        exact absurd heq hc
      · have hok := ha heq
        have hpart := hI.part p
        obtain ⟨res, n, hn, hpack, hring, hsaved⟩ := p.framer.pack_moves htail (hok.length_le hpart)
          fun _ _ hc => hok.found hpart hc
        have htail' : res.ring.tail < MAX_BUFF_LEN := by
          rw [hring]
          simp only [RingBuffer.setTail]
          split <;> omega
        refine ⟨s.after p res, by rw [Gps.step, if_neg heq, hpack, Option.map_some],
          ⟨by rwa [Gps.after_ring], fun hc => absurd hc heq, fun _ => ⟨hok.length_le hpart, n, hn, ?_⟩⟩,
          ?_, by rwa [Gps.after_ring], Gps.after_part hI.part ?_⟩
        · rw [Gps.after_ring, hring]
        · rw [Gps.after_ring, hring]
          exact hhead
        · rcases hsaved with hnil | ⟨hdiv, hres⟩
          · rw [hnil]
            exact p.partInv_nil
          · rw [hres]
            exact hok.partInv hpart hdiv

end

/-- **The ring and its read position.**  For every sequence of reads and calls, on any received
bytes, in which no read fails and each call meets `CallOk`: every step is defined, the read
position stays within the ring and moves only forward and not past the writer, and no copy
exceeds the check buffer. -/
theorem ring_invariant (behind : Bytes) (acts : List GpsAction)
    (hallowed : Runs.Along (Gps.step behind) Gps.Allowed Gps.init acts) :
    Runs.Along (Gps.step behind)
      (fun s a => ∃ s', Gps.step behind s a = some s' ∧ s.Sound s' a) Gps.init acts := by
  refine Runs.along (I := Gps.Inv) (fun s a hI ha => ?_) Gps.inv_init hallowed
  obtain ⟨s', hs', hsound, hI'⟩ := hI.step a ha
  refine ⟨⟨s', hs', hsound⟩, fun s'' hs'' => ?_⟩
  rw [← Option.some.inj (hs'.symm.trans hs'')]
  exact hI'

/-- A STATUS packet that comes in two reads, a part of a sentence, and a response. -/
theorem ring_invariant_three : Runs.Along (Gps.step fun _ => 0)
    (fun s a => ∃ s', Gps.step (fun _ => 0) s a = some s' ∧ s.Sound s' a) Gps.init
    [.recv [0xB5, 0x62, 0x01, 0x03, 0x10, 0x00], .parse .data,
      .recv (List.replicate 16 0 ++ [0x14, 0x6D]), .parse .data,
      .recv [0x24, 0x47, 0x50, 0x52, 0x4D, 0x43, 0x2C], .parse .nmea,
      .recv [0xB5, 0x62, 0x05, 0x01, 0x02, 0x00, 0x06, 0x00, 0x0E, 0x37], .parse (.cmdRes 0x06 0x00)] :=
  ring_invariant _ _ (by decide +kernel)

/-- **The read position moves back.**  A STATUS packet behind another byte is rejected, since its
checksum is looked for at the wrong place, and it is saved together with the beginning of the
next packet.  When one more byte is there the packet stands at offset 0 and is accepted; it ends
four bytes before the saved part does, and the reader goes back by four bytes. -/
theorem tail_moves_back : ∃ s s',
    Runs.run (Gps.step fun _ => 0) Gps.init
      [.recv ([0x00, 0xB5, 0x62, 0x01, 0x03, 0x10, 0x00] ++ List.replicate 16 0 ++
        [0x14, 0x6D, 0xB5, 0x62, 0x01, 0x02]), .parse .data, .recv [0x1C]] = some s ∧
    Gps.step (fun _ => 0) s (.parse .data) = some s' ∧
    s.ring.tail = 29 ∧ s.ring.head = 30 ∧ s'.ring.tail = 25 ∧ ¬ s.Sound s' (.parse .data) := by
  have h : ((Runs.run (Gps.step fun _ => 0) Gps.init
      [.recv ([0x00, 0xB5, 0x62, 0x01, 0x03, 0x10, 0x00] ++ List.replicate 16 0 ++
        [0x14, 0x6D, 0xB5, 0x62, 0x01, 0x02]), .parse .data, .recv [0x1C]]).any fun s =>
      (Gps.step (fun _ => 0) s (.parse .data)).any fun s' =>
        decide (s.ring.tail = 29 ∧ s.ring.head = 30 ∧ s'.ring.tail = 25)) = true := by
    decide +kernel
  obtain ⟨s, hs, h⟩ := (Option.any_eq_true _ _).1 h
  obtain ⟨s', hs', h⟩ := (Option.any_eq_true _ _).1 h
  obtain ⟨htail, hhead, htail'⟩ := of_decide_eq_true h
  refine ⟨s, s', hs, hs', htail, hhead, htail', fun hsound => ?_⟩
  obtain ⟨-, n, -, hring⟩ := hsound.2.2 (by omega)
  have hmove : s'.ring.tail = if MAX_BUFF_LEN ≤ s.ring.tail + n then 0 else s.ring.tail + n := by
    rw [hring, RingBuffer.setTail]
  split at hmove <;> omega

end DeviceTools
