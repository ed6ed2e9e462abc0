/-
The receive buffer of the GPS module and its three packet parsers.

The receiver stores what it reads in a ring of `MAX_BUFF_LEN` bytes.  `ubx_data_pack`,
`ubx_cmd_res_pack` and `nmea_parse_packet` have one skeleton: the part of a packet saved by
an earlier call and the unread bytes up to the end of the ring are copied to a check buffer,
a scan looks for a packet there, and the read position moves by an amount that depends on
what the scan found.  The skeleton is `Framer.pack`; a `Framer` has the two scans and the two
constants in which the parsers differ.
-/
import DeviceTools.Lib.Memory
import DeviceTools.Lib.RingBuffer

namespace DeviceTools

open Memory

/-- `MAX_BUFF_LEN`. -/
def MAX_BUFF_LEN : ℕ := 2048

/-- The result of a scan: a packet at an offset, -1 with the flag for a divided packet, or
-1 without the flag. -/
inductive Content where
  | found (offset validLen : ℕ)
  | divided
  | nothing
deriving DecidableEq, Repr

/-- The loop over `n` offsets from `i` on whose body ends the loop or goes on. -/
def scan (body : ℕ → Option Content) : ℕ → ℕ → Content
  | 0, _ => .nothing
  | n + 1, i =>
      match body i with
      | some c => c
      | none => scan body n (i + 1)

/-- The loop over `n` offsets from `i` on that looks for the first with a property. -/
def findOffset (p : ℕ → Bool) : ℕ → ℕ → Option ℕ
  | 0, _ => none
  | n + 1, i => if p i then some i else findOffset p n (i + 1)

/-- In what the parsers differ. -/
structure Framer where
  /-- The scan for a packet, on a buffer with a number of valid bytes. -/
  content : Bytes → ℕ → Content
  /-- What is saved of a divided packet. -/
  partContent : Bytes → ℕ → List UInt8
  /-- How far the reader moves when nothing was found. -/
  skip : ℕ
  /-- The first byte of a packet. -/
  header : UInt8

/-- The result of a call. -/
structure PackResult where
  /-- The return value, `none` for -1. -/
  offset : Option ℕ
  /-- What was copied to the caller's buffer. -/
  data : List UInt8
  ring : RingBuffer UInt8
  /-- The part of a packet saved for the next call. -/
  part : List UInt8

/-- The check buffer: the copied bytes, cleared memory behind them, and behind the end of
the array whatever is on the stack there. -/
def checkBuff (behind : Bytes) (w : List UInt8) : Bytes := fun i =>
  (w[i]?).getD (if i < MAX_BUFF_LEN then 0 else behind (i - MAX_BUFF_LEN))

namespace Framer

variable (F : Framer) (behind : Bytes)

/-- A call of a parser.  There is no result if the copy does not fit the check buffer, or
if the read position is moved to before the ring. -/
def pack (part : List UInt8) (r : RingBuffer UInt8) : Option PackResult :=
  let fresh := r.fresh MAX_BUFF_LEN
  let w := part ++ fresh
  let buffer := checkBuff behind w
  if MAX_BUFF_LEN < w.length then none
  else match F.content buffer w.length with
    | .found offset validLen =>
        if r.tail + offset + validLen < part.length then none
        else some ⟨some offset, slice buffer offset validLen,
          r.setTail MAX_BUFF_LEN (r.tail + offset + validLen - part.length), []⟩
    | .divided =>
        some ⟨none, [], r.setTail MAX_BUFF_LEN (r.tail + fresh.length),
          F.partContent buffer w.length⟩
    | .nothing =>
        if F.skip ≤ fresh.length then
          some ⟨none, [], r.setTail MAX_BUFF_LEN (r.tail + F.skip), []⟩
        else if MAX_BUFF_LEN ≤ r.tail + fresh.length then
          some ⟨none, [], r.setTail MAX_BUFF_LEN 0, []⟩
        else if buffer 0 = F.header then
          some ⟨none, slice buffer 0 w.length, r.setTail MAX_BUFF_LEN (r.tail + fresh.length), []⟩
        else some ⟨none, [], r.setTail MAX_BUFF_LEN r.head, []⟩

end Framer

/-! ### UBX -/

def UBX_HEADER_B5 : UInt8 := 0xB5
def UBX_HEADER_62 : UInt8 := 0x62
def UBX_CLASS_NAV : UInt8 := 0x01
def UBX_CLASS_NAV_POSLLH : UInt8 := 0x02
def UBX_CLASS_NAV_STATUS : UInt8 := 0x03
def UBX_CLASS_NAV_VELNED : UInt8 := 0x12
def UBX_CLASS_NAV_TIMEUTC : UInt8 := 0x21
def UBX_CLASS_ACK : UInt8 := 0x05
def UBX_CLASS_ACK_ACK : UInt8 := 0x01
def UBX_CLASS_ACK_NAK : UInt8 := 0x00
def UBX_SIGNAL_PACK_LEN : ℕ := 44
def ACK_DATA_LEN : ℕ := 10

/-- The length of the packets of class NAV that are looked for, by message id. -/
def navPackLen (id : UInt8) : Option ℕ :=
  if id = UBX_CLASS_NAV_POSLLH then some (2 + 2 + 2 + 28 + 2)
  else if id = UBX_CLASS_NAV_STATUS then some (2 + 2 + 2 + 16 + 2)
  else if id = UBX_CLASS_NAV_TIMEUTC then some (2 + 2 + 2 + 20 + 2)
  else if id = UBX_CLASS_NAV_VELNED then some (2 + 2 + 2 + 36 + 2)
  else none

/-- `ubx_checksum`. -/
def ubxChecksum (checkData : List UInt8) : UInt8 × UInt8 :=
  let sums := checkData.foldl (fun s x => (s.1 + x.toNat, s.2 + (s.1 + x.toNat))) (0, 0)
  (UInt8.ofNat sums.1, UInt8.ofNat sums.2)

/-- The bytes `B5 62` at an offset. -/
def ubxHeaderAt (buffer : Bytes) (i : ℕ) : Bool :=
  buffer i = UBX_HEADER_B5 && buffer (i + 1) = UBX_HEADER_62

/-- The body of the loop of `ubx_data_content`.  The checksum is compared with the bytes at
the end of a packet that starts at offset 0, whatever the offset is. -/
def ubxDataBody (buffer : Bytes) (dataLen i : ℕ) : Option Content :=
  if ubxHeaderAt buffer i then
    if dataLen < i + 3 then some .divided
    else if buffer (i + 2) = UBX_CLASS_NAV then
      match navPackLen (buffer (i + 3)) with
      | none => none
      | some len =>
          if dataLen < i + len then some .divided
          else if ubxChecksum (slice buffer (i + 2) (len - 4)) =
            (buffer (len - 2), buffer (len - 1)) then some (.found i len)
          else none
    else none
  else none

/-- `ubx_data_content`. -/
def ubxDataContent (buffer : Bytes) (dataLen : ℕ) : Content :=
  if 4 ≤ dataLen then scan (ubxDataBody buffer dataLen) dataLen 0 else .divided

/-- The search for `B5 62` in the last `n` bytes, with what is saved from there on. -/
def ubxPartContent (n : ℕ) (buffer : Bytes) (dataLen : ℕ) : List UInt8 :=
  match findOffset (ubxHeaderAt buffer) (min n dataLen) (dataLen - n) with
  | none => []
  | some i => slice buffer i (min (dataLen - i) n)

/-- `ubx_data_part_content`. -/
def ubxDataPartContent : Bytes → ℕ → List UInt8 := ubxPartContent UBX_SIGNAL_PACK_LEN

/-- `ubx_data_pack`. -/
def ubxDataPack : Framer := ⟨ubxDataContent, ubxDataPartContent, 4, UBX_HEADER_B5⟩

/-- The test of an ACK or NAK for the command `classId`, `messageId`. -/
def ubxAckAt (classId messageId : UInt8) (buffer : Bytes) (i : ℕ) : Bool :=
  ubxHeaderAt buffer i && buffer (i + 2) = UBX_CLASS_ACK &&
    (buffer (i + 3) = UBX_CLASS_ACK_ACK || buffer (i + 3) = UBX_CLASS_ACK_NAK) &&
    buffer (i + 6) = classId && buffer (i + 7) = messageId

/-- The body of the loop of `ubx_cmd_res_content`. -/
def ubxCmdResBody (classId messageId : UInt8) (buffer : Bytes) (i : ℕ) : Option Content :=
  if ubxAckAt classId messageId buffer i then
    if ubxChecksum (slice buffer (i + 2) (ACK_DATA_LEN - 4)) = (buffer (i + 8), buffer (i + 9)) then
      some (.found i ACK_DATA_LEN)
    else some .divided
  else none

/-- `ubx_cmd_res_content`, with the values of the globals `classId` and `messageId`. -/
def ubxCmdResContent (classId messageId : UInt8) (buffer : Bytes) (dataLen : ℕ) : Content :=
  if 4 ≤ dataLen then scan (ubxCmdResBody classId messageId buffer) dataLen 0 else .divided

/-- `ubx_cmd_res_part_content`. -/
def ubxCmdResPartContent : Bytes → ℕ → List UInt8 := ubxPartContent ACK_DATA_LEN

/-- `ubx_cmd_res_pack`. -/
def ubxCmdResPack (classId messageId : UInt8) : Framer :=
  ⟨ubxCmdResContent classId messageId, ubxCmdResPartContent, 4, UBX_HEADER_B5⟩

/-! ### NMEA -/

/-- The bytes of `$GPRMC`. -/
def NMEA_HEAD : List UInt8 := [0x24, 0x47, 0x50, 0x52, 0x4D, 0x43]

def NMEA_HEAD_24 : UInt8 := 0x24
def NMEA_TAIL_2A : UInt8 := 0x2A
def NMEA_TAIL_0D : UInt8 := 0x0D
def NMEA_TAIL_0A : UInt8 := 0x0A
def PART_VALID_BUFF_LEN : ℕ := 80

/-- The bytes `$GPRMC` at an offset. -/
def nmeaHeadAt (buffer : Bytes) (i : ℕ) : Bool := slice buffer i NMEA_HEAD.length = NMEA_HEAD

/-- The end of a sentence at the `*` at an offset. -/
def nmeaTailAt (buffer : Bytes) (j : ℕ) : Bool :=
  buffer j = NMEA_TAIL_2A && buffer (j + 3) = NMEA_TAIL_0D && buffer (j + 4) = NMEA_TAIL_0A

/-- The body of the loop of `nmea_parse_content`. -/
def nmeaParseBody (buffer : Bytes) (dataLen i : ℕ) : Option Content :=
  if nmeaHeadAt buffer i then
    match findOffset (nmeaTailAt buffer) (dataLen - (i + 6)) (i + 6) with
    | some j => some (.found i (j + 4 - i + 1))
    | none => some .divided
  else none

/-- `nmea_parse_content`. -/
def nmeaParseContent (buffer : Bytes) (dataLen : ℕ) : Content :=
  if 6 ≤ dataLen then scan (nmeaParseBody buffer dataLen) dataLen 0 else .divided

/-- `nmea_parse_part_content`. -/
def nmeaParsePartContent (buffer : Bytes) (dataLen : ℕ) : List UInt8 :=
  match findOffset (nmeaHeadAt buffer) dataLen 0 with
  | none => []
  | some i => slice buffer i (min (dataLen - i) PART_VALID_BUFF_LEN)

/-- `nmea_parse_packet`. -/
def nmeaParsePacket : Framer := ⟨nmeaParseContent, nmeaParsePartContent, 6, NMEA_HEAD_24⟩

/-! ### Lemmas about the loops and the check buffer -/

lemma scan_of_first {body : ℕ → Option Content} {c : Content} {k : ℕ} (hk : body k = some c) :
    ∀ {n i : ℕ}, (∀ j, i ≤ j → j < k → body j = none) → i ≤ k → k < i + n →
      scan body n i = c := by
  intro n
  induction n with
  | zero => intro i _ _ _; omega
  | succ n ih =>
      intro i hnone hik hkn
      rcases Nat.lt_or_eq_of_le hik with hlt | rfl
      · rw [scan, hnone i le_rfl hlt]
        exact ih (fun j hj => hnone j (by omega)) (by omega) (by omega)
      · rw [scan, hk]

lemma scan_eq_nothing {body : ℕ → Option Content} : ∀ {n i : ℕ},
    (∀ j, i ≤ j → j < i + n → body j = none) → scan body n i = .nothing := by
  intro n
  induction n with
  | zero => intro i _; rfl
  | succ n ih =>
      intro i hnone
      rw [scan, hnone i le_rfl (by omega)]
      exact ih fun j hj hj' => hnone j (by omega) (by omega)

/-- A scan that finds something ends at the first offset where its body says so. -/
lemma scan_eq {body : ℕ → Option Content} {c : Content} (hc : c ≠ .nothing) : ∀ {n i : ℕ},
    scan body n i = c →
      ∃ k, i ≤ k ∧ k < i + n ∧ body k = some c ∧ ∀ j, i ≤ j → j < k → body j = none := by
  intro n
  induction n with
  | zero => intro i h; exact absurd h.symm hc
  | succ n ih =>
      intro i h
      rw [scan] at h
      split at h
      · next c' hb =>
          rw [h] at hb
          exact ⟨i, le_rfl, by omega, hb, fun j hj hji => by omega⟩
      · next hb =>
          obtain ⟨k, hik, hkn, hk, hnone⟩ := ih h
          refine ⟨k, by omega, by omega, hk, fun j hj hjk => ?_⟩
          rcases Nat.lt_or_eq_of_le hj with hlt | rfl
          · exact hnone j hlt hjk
          · exact hb

lemma findOffset_of_first {p : ℕ → Bool} {k : ℕ} (hk : p k = true) :
    ∀ {n i : ℕ}, (∀ j, i ≤ j → j < k → p j = false) → i ≤ k → k < i + n →
      findOffset p n i = some k := by
  intro n
  induction n with
  | zero => intro i _ _ _; omega
  | succ n ih =>
      intro i hnone hik hkn
      rcases Nat.lt_or_eq_of_le hik with hlt | rfl
      · rw [findOffset, if_neg (by simp [hnone i le_rfl hlt])]
        exact ih (fun j hj => hnone j (by omega)) (by omega) (by omega)
      · rw [findOffset, if_pos hk]

lemma findOffset_eq_none {p : ℕ → Bool} : ∀ {n i : ℕ},
    (∀ j, i ≤ j → j < i + n → p j = false) → findOffset p n i = none := by
  intro n
  induction n with
  | zero => intro i _; rfl
  | succ n ih =>
      intro i hnone
      rw [findOffset, if_neg (by simp [hnone i le_rfl (by omega)])]
      exact ih fun j hj hj' => hnone j (by omega) (by omega)

lemma findOffset_some {p : ℕ → Bool} {k : ℕ} : ∀ {n i : ℕ}, findOffset p n i = some k →
    i ≤ k ∧ k < i + n ∧ p k = true ∧ ∀ j, i ≤ j → j < k → p j = false := by
  intro n
  induction n with
  | zero => intro i h; simp [findOffset] at h
  | succ n ih =>
      intro i h
      rw [findOffset] at h
      split at h
      · next hp =>
          rw [← Option.some.inj h]
          exact ⟨le_rfl, by omega, hp, fun j _ _ => by omega⟩
      · next hp =>
          obtain ⟨h1, h2, h3, h4⟩ := ih h
          refine ⟨by omega, by omega, h3, fun j hj hjk => ?_⟩
          rcases Nat.lt_or_eq_of_le hj with hlt | rfl
          · exact h4 j hlt hjk
          · simpa using hp

/-- The loop looks at every offset if it finds nothing. -/
lemma findOffset_none {p : ℕ → Bool} : ∀ {n i : ℕ}, findOffset p n i = none →
    ∀ j, i ≤ j → j < i + n → p j = false := by
  intro n
  induction n with
  | zero => intro i _ j hj hj'; omega
  | succ n ih =>
      intro i h j hj hj'
      rw [findOffset] at h
      split at h
      · simp at h
      · next hp =>
          rcases Nat.lt_or_eq_of_le hj with hlt | rfl
          · exact ih h j hlt (by omega)
          · simpa using hp

lemma navPackLen_bounds {id : UInt8} {len : ℕ} (h : navPackLen id = some len) :
    24 ≤ len ∧ len ≤ 44 := by
  simp only [navPackLen] at h
  split_ifs at h <;> simp only [Option.some.injEq] at h <;> omega

variable (behind : Bytes) {w : List UInt8}

lemma checkBuff_of_lt {i : ℕ} (h : i < w.length) : checkBuff behind w i = w.get ⟨i, h⟩ := by
  simp [checkBuff, h]

lemma checkBuff_of_ge {i : ℕ} (h : w.length ≤ i) (hi : i < MAX_BUFF_LEN) :
    checkBuff behind w i = 0 := by
  simp [checkBuff, List.getElem?_eq_none h, hi]

/-- Behind a beginning of the check buffer stand the other bytes. -/
lemma checkBuff_append (g v : List UInt8) {k : ℕ} (h : k < v.length) :
    checkBuff behind (g ++ v) (g.length + k) = v.get ⟨k, h⟩ := by
  simp [checkBuff, h]

lemma checkBuff_append_left (g v : List UInt8) {k : ℕ} (h : k < g.length) :
    checkBuff behind (g ++ v) k = g.get ⟨k, h⟩ := by
  simp [checkBuff, List.getElem?_append_left, h]

/-- A slice within the copied bytes. -/
lemma slice_checkBuff {off n : ℕ} (h : off + n ≤ w.length) :
    slice (checkBuff behind w) off n = (w.drop off).take n := by
  apply List.ext_getElem?
  intro i
  by_cases hi : i < n
  · have hw : off + i < w.length := by omega
    rw [slice, List.getElem?_map, List.getElem?_range hi, Option.map_some, checkBuff_of_lt behind hw,
      List.getElem?_take_of_lt hi, List.getElem?_drop, List.getElem?_eq_getElem hw]
    rfl
  · rw [List.getElem?_eq_none (by simpa using hi), List.getElem?_eq_none]
    rw [List.length_take]
    omega

/-- The header is not complete if fewer than six bytes are in the window. -/
lemma nmeaHeadAt_short {j : ℕ} (hroom : w.length < MAX_BUFF_LEN)
    (hj : j < w.length) (hlt : w.length < j + 6) : nmeaHeadAt (checkBuff behind w) j = false := by
  rw [nmeaHeadAt, decide_eq_false_iff_not]
  intro hc
  -- the first byte behind the window is cleared
  have hk : (slice (checkBuff behind w) j NMEA_HEAD.length)[w.length - j]? = some 0 := by
    have h0 := checkBuff_of_ge behind (le_refl w.length) hroom
    rw [slice, List.getElem?_map, List.getElem?_range (by simp [NMEA_HEAD]; omega), Option.map_some,
      Nat.add_sub_cancel' hj.le, h0]
  rw [hc] at hk
  have hmem := List.mem_of_getElem? hk
  simp [NMEA_HEAD] at hmem

namespace Framer

variable {behind} {F : Framer} {part : List UInt8} {r : RingBuffer UInt8}

lemma pack_found {offset validLen : ℕ}
    (hlen : (part ++ r.fresh MAX_BUFF_LEN).length ≤ MAX_BUFF_LEN)
    (hc : F.content (checkBuff behind (part ++ r.fresh MAX_BUFF_LEN))
      (part ++ r.fresh MAX_BUFF_LEN).length = .found offset validLen)
    (hp : part.length ≤ offset + validLen) :
    F.pack behind part r = some ⟨some offset,
      slice (checkBuff behind (part ++ r.fresh MAX_BUFF_LEN)) offset validLen,
      r.setTail MAX_BUFF_LEN (r.tail + (offset + validLen - part.length)), []⟩ := by
  have htail : r.tail + offset + validLen - part.length =
      r.tail + (offset + validLen - part.length) := by omega
  simp only [pack, if_neg (not_lt.2 hlen), hc]
  rw [if_neg (by omega), htail]

lemma pack_divided (hlen : (part ++ r.fresh MAX_BUFF_LEN).length ≤ MAX_BUFF_LEN)
    (hc : F.content (checkBuff behind (part ++ r.fresh MAX_BUFF_LEN))
      (part ++ r.fresh MAX_BUFF_LEN).length = .divided) :
    F.pack behind part r = some ⟨none, [],
      r.setTail MAX_BUFF_LEN (r.tail + (r.fresh MAX_BUFF_LEN).length),
      F.partContent (checkBuff behind (part ++ r.fresh MAX_BUFF_LEN))
        (part ++ r.fresh MAX_BUFF_LEN).length⟩ := by
  simp only [pack, if_neg (not_lt.2 hlen), hc]

lemma pack_skip (hlen : (part ++ r.fresh MAX_BUFF_LEN).length ≤ MAX_BUFF_LEN)
    (hc : F.content (checkBuff behind (part ++ r.fresh MAX_BUFF_LEN))
      (part ++ r.fresh MAX_BUFF_LEN).length = .nothing)
    (hskip : F.skip ≤ (r.fresh MAX_BUFF_LEN).length) :
    F.pack behind part r = some ⟨none, [], r.setTail MAX_BUFF_LEN (r.tail + F.skip), []⟩ := by
  simp only [pack, if_neg (not_lt.2 hlen), hc, if_pos hskip]

end Framer

end DeviceTools
