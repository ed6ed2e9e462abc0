/-
The checksums of the packets that the DHCP client builds.

`ipchksum` and `l4_sum` add up 16-bit words in an integer of 32 bits and bring the carries around
once: the upper half is added to the sum, and the lower half of the result is complemented.  If
this addition carries out of the lower half again, the carry is lost, and the checksum is too large
by one.  Otherwise the words of the packet, with the checksum among them, sum up to `0xFFFF`.

The machine is little-endian, so a word in memory has its lower byte first.
-/
import DeviceTools.Lib.ByteWord
import DeviceTools.Lib.Memory
import DeviceTools.Lib.OnesComplement

namespace DeviceTools.Dhcp

open ByteWord Memory

/-- `*(buff + i)`, for a pointer to 16-bit words. -/
def wordAt (buff : Bytes) (i : ℕ) : ℕ := leNat (slice buff (2 * i) 2)

/-- `htons`. -/
def htons (n : ℕ) : ℕ := n % 256 * 256 + n / 256 % 256

/-- `ntohs`. -/
def ntohs (n : ℕ) : ℕ := htons n

/-- The loop over the words, with an `unsigned int` as the sum. -/
def addWords (buff : Bytes) : ℕ → ℕ
  | 0 => 0
  | i + 1 => (addWords buff i + wordAt buff i) % 2 ^ 32

/-- `sum = (sum >> 16) + sum; return ~sum;`, where the result has 16 bits. -/
def foldedComplement (sum : ℕ) : ℕ := (2 ^ 32 - 1 - ((sum >>> 16) + sum) % 2 ^ 32) % 2 ^ 16

/-- `ipchksum`. -/
def ipchksum (buff : Bytes) (words : ℕ) : ℕ := foldedComplement (addWords buff words)

/-- `l4_sum`.  The addresses are taken apart into their halves; `proto` and `len` come in network
order. -/
def l4Sum (buff : Bytes) (words : ℕ) (srcaddr dstaddr : UInt32) (proto len : ℕ) : ℕ :=
  let pseudo := srcaddr.toNat % 2 ^ 16 + srcaddr.toNat / 2 ^ 16 +
    dstaddr.toNat % 2 ^ 16 + dstaddr.toNat / 2 ^ 16 + proto + len
  if htons len % 2 = 1 then
    let lastWord := (htons (buff (ntohs len - 1)).toNat <<< 8) % 2 ^ 32
    let sum := (addWords buff words + lastWord) % 2 ^ 32
    foldedComplement ((sum + pseudo) % 2 ^ 32)
  else
    foldedComplement ((addWords buff words + pseudo) % 2 ^ 32)

/-! ### What the sums are to be -/

/-- The 16-bit words of a byte string; an odd byte at the end is filled up with a zero. -/
def leWords : List UInt8 → List ℕ
  | [] => []
  | [a] => [a.toNat]
  | a :: b :: rest => leNat [a, b] :: leWords rest

/-- The pseudo header of a segment of `n` bytes.  The addresses are in network order already. -/
def pseudoHeader (srcaddr dstaddr : UInt32) (proto : UInt8) (n : ℕ) : List UInt8 :=
  leBytes 4 srcaddr.toNat ++ leBytes 4 dstaddr.toNat ++ [0, proto] ++ beBytes 2 n

/-- The last byte of a segment of odd length, and 0 otherwise. -/
def oddByte (buff : Bytes) (n : ℕ) : ℕ := if n % 2 = 1 then (buff (n - 1)).toNat else 0

/-- The carries of the sum `w`, with the odd byte among them, can be added to its lower half. -/
def CarriesFit (w odd : ℕ) : Prop := w / 2 ^ 16 + odd + w % 2 ^ 16 < 2 ^ 16

lemma carriesFit_iff (w odd : ℕ) :
    OnesComplement.foldOnce (2 ^ 16) (w + 2 ^ 16 * odd) < 2 ^ 16 ↔ CarriesFit w odd := by
  rw [OnesComplement.foldOnce, CarriesFit]
  omega

lemma wordAt_eq (buff : Bytes) (i : ℕ) : wordAt buff i = (buff (2 * i)).toNat + 256 * (buff (2 * i + 1)).toNat := by
  rw [wordAt, slice_succ, slice_succ]
  simp [leNat, slice]

lemma wordAt_lt (buff : Bytes) (i : ℕ) : wordAt buff i < 2 ^ 16 := by
  have h0 := (buff (2 * i)).toNat_lt
  have h1 := (buff (2 * i + 1)).toNat_lt
  rw [wordAt_eq]
  omega

lemma leWords_lt (bs : List UInt8) : ∀ w ∈ leWords bs, w < 2 ^ 16 := by
  induction bs using leWords.induct with
  | case1 => simp [leWords]
  | case2 a =>
      have := a.toNat_lt
      simp only [leWords, List.mem_singleton, forall_eq]
      omega
  | case3 a b rest ih =>
      have ha := a.toNat_lt
      have hb := b.toNat_lt
      simp only [leWords, List.mem_cons, forall_eq_or_imp, leNat]
      exact ⟨by omega, ih⟩

lemma leWords_slice (buff : Bytes) (w i : ℕ) :
    leWords (slice buff (2 * i) (2 * w)) = (List.range' i w).map (wordAt buff) := by
  induction w generalizing i with
  | zero => rfl
  | succ w ih =>
      rw [show 2 * (w + 1) = 2 * w + 1 + 1 by omega, slice_succ, slice_succ, leWords,
        show 2 * i + 1 + 1 = 2 * (i + 1) by omega, ih, List.range'_succ, List.map_cons, wordAt]
      rfl

lemma leWords_append_singleton {bs : List UInt8} (h : bs.length % 2 = 0) (b : UInt8) :
    leWords (bs ++ [b]) = leWords bs ++ [b.toNat] := by
  induction bs using leWords.induct with
  | case1 => rfl
  | case2 a => simp at h
  | case3 a b' rest ih =>
      rw [List.cons_append, List.cons_append, leWords, leWords,
        ih (by simp only [List.length_cons] at h; omega), List.cons_append]

lemma leWords_segment_sum (buff : Bytes) (n : ℕ) :
    (leWords (slice buff 0 n)).sum = (leWords (slice buff 0 (2 * (n / 2)))).sum + oddByte buff n := by
  rw [oddByte]
  split
  · next h =>
      have hn : n = 2 * (n / 2) + 1 := by omega
      conv_lhs => rw [hn, slice_add, show slice buff (0 + 2 * (n / 2)) 1 = [buff (n - 1)] by
        rw [slice_succ, show 0 + 2 * (n / 2) = n - 1 by omega]; rfl]
      rw [leWords_append_singleton (by simp), List.sum_append, List.sum_singleton]
  · next h => rw [show 2 * (n / 2) = n by omega, Nat.add_zero]

/-! ### The sums of the code -/

/-- The loop adds up the words: the sum of less than `2 ^ 16` of them has no carry out of 32 bits. -/
lemma addWords_eq (buff : Bytes) (words : ℕ) (h : words ≤ 2 ^ 16) :
    addWords buff words = (leWords (slice buff 0 (2 * words))).sum ∧ addWords buff words ≤ words * (2 ^ 16 - 1) := by
  induction words with
  | zero => exact ⟨rfl, le_rfl⟩
  | succ i ih =>
      obtain ⟨hsum, hle⟩ := ih (by omega)
      have hlt := wordAt_lt buff i
      have hsplit := leWords_slice buff (i + 1) 0
      rw [List.range'_1_concat, List.map_append, ← leWords_slice, Nat.mul_zero, Nat.zero_add] at hsplit
      rw [addWords, Nat.mod_eq_of_lt (by omega), hsplit, List.sum_append, ← hsum]
      exact ⟨by simp, by omega⟩

lemma foldedComplement_eq (n : ℕ) : foldedComplement n = OnesComplement.checksum (2 ^ 16) n := by
  rw [foldedComplement, OnesComplement.checksum, OnesComplement.foldOnce, Nat.shiftRight_eq_div_pow]
  omega

lemma htons_htons {n : ℕ} (h : n < 2 ^ 16) : htons (htons n) = n := by
  have hlow : (n % 256 * 256 + n / 256 % 256) / 256 = n % 256 := by omega
  rw [htons, htons, hlow]
  omega

lemma pseudoHeader_sum (srcaddr dstaddr : UInt32) (proto : UInt8) (n : ℕ) :
    (leWords (pseudoHeader srcaddr dstaddr proto n)).sum =
      srcaddr.toNat % 2 ^ 16 + srcaddr.toNat / 2 ^ 16 + dstaddr.toNat % 2 ^ 16 + dstaddr.toNat / 2 ^ 16 +
        htons proto.toNat + htons n := by
  have hs := srcaddr.toNat_lt
  have hd := dstaddr.toNat_lt
  have hp := proto.toNat_lt
  simp only [pseudoHeader, leBytes, beBytes, List.reverse_cons, List.reverse_nil, List.nil_append,
    List.cons_append, leWords, leNat, List.sum_cons, List.sum_nil, UInt8.toNat_ofNat', UInt8.toNat_zero, htons]
  omega

lemma htons_lt (n : ℕ) : htons n < 2 ^ 16 := by
  rw [htons]
  omega

lemma pseudoHeader_sum_lt (srcaddr dstaddr : UInt32) (proto : UInt8) (n : ℕ) :
    (leWords (pseudoHeader srcaddr dstaddr proto n)).sum < 2 ^ 19 := by
  have hs := srcaddr.toNat_lt
  have hd := dstaddr.toNat_lt
  have hproto := htons_lt proto.toNat
  have hlen := htons_lt n
  rw [pseudoHeader_sum]
  omega

lemma oddByte_lt (buff : Bytes) (n : ℕ) : oddByte buff n < 256 := by
  rw [oddByte]
  split
  · exact (buff (n - 1)).toNat_lt
  · decide

/-- A word after the store of one. -/
lemma wordAt_poke (buff : Bytes) {c : ℕ} (hc : c < 2 ^ 16) (k i : ℕ) :
    wordAt (poke buff (2 * k) (leBytes 2 c)) i = if i = k then c else wordAt buff i := by
  split
  · next h =>
      subst h
      have hread := slice_poke buff (2 * i) (leBytes 2 c)
      rw [leBytes_length] at hread
      rw [wordAt, hread, leNat_leBytes_of_lt hc]
  · next h =>
      rw [wordAt, wordAt]
      congr 1
      refine slice_congr fun j hj hj' => ?_
      rcases Nat.lt_or_gt_of_ne h with hlt | hlt
      · rw [poke, if_neg (by omega)]
      · rw [poke_behind _ (by rw [leBytes_length]; omega)]

/-- The sum after a checksum was stored in a word that was zero. -/
lemma leWords_poke_sum {buff : Bytes} {words k c : ℕ} (hc : c < 2 ^ 16) (hk : k < words)
    (hzero : wordAt buff k = 0) :
    (leWords (slice (poke buff (2 * k) (leBytes 2 c)) 0 (2 * words))).sum =
      (leWords (slice buff 0 (2 * words))).sum + c := by
  have hsum (m : Bytes) : (leWords (slice m 0 (2 * words))).sum = ∑ i ∈ Finset.range words, wordAt m i := by
    rw [leWords_slice m words 0, ← List.range_eq_range']
    rfl
  have hword : ∀ i ∈ Finset.range words,
      wordAt (poke buff (2 * k) (leBytes 2 c)) i = wordAt buff i + if i = k then c else 0 := by
    rintro i -
    rw [wordAt_poke buff hc]
    split
    · next h => rw [h, hzero, Nat.zero_add]
    · rfl
  rw [hsum, hsum, Finset.sum_congr rfl hword, Finset.sum_add_distrib, Finset.sum_ite_eq',
    if_pos (Finset.mem_range.mpr hk)]

lemma ipchksum_lt (buff : Bytes) (words : ℕ) : ipchksum buff words < 2 ^ 16 := Nat.mod_lt _ (by decide)

lemma l4Sum_lt (buff : Bytes) (words : ℕ) (srcaddr dstaddr : UInt32) (proto len : ℕ) :
    l4Sum buff words srcaddr dstaddr proto len < 2 ^ 16 := by
  rw [l4Sum]
  split
  · exact Nat.mod_lt _ (by decide)
  · exact Nat.mod_lt _ (by decide)

/-- The sum that `l4_sum` folds: the odd byte stands above the words. -/
lemma l4Sum_eq (buff : Bytes) (srcaddr dstaddr : UInt32) (proto : UInt8) {n : ℕ} (hn : n < 2 ^ 16) :
    l4Sum buff (n / 2) srcaddr dstaddr (htons proto.toNat) (htons n) =
      OnesComplement.checksum (2 ^ 16) ((leWords (pseudoHeader srcaddr dstaddr proto n)).sum +
        (leWords (slice buff 0 (2 * (n / 2)))).sum + 2 ^ 16 * oddByte buff n) := by
  obtain ⟨hsum, hle⟩ := addWords_eq buff (n / 2) (by omega)
  have hpseudo := pseudoHeader_sum srcaddr dstaddr proto n
  have hp := pseudoHeader_sum_lt srcaddr dstaddr proto n
  simp only [l4Sum, ntohs, htons_htons hn, ← hpseudo, oddByte]
  split
  · next h =>
      have hb := (buff (n - 1)).toNat_lt
      have hshift : htons (buff (n - 1)).toNat <<< 8 = 2 ^ 16 * (buff (n - 1)).toNat := by
        rw [htons, Nat.shiftLeft_eq]
        omega
      rw [foldedComplement_eq, hshift, ← hsum]
      refine congrArg (OnesComplement.checksum (2 ^ 16)) ?_
      omega
  · next h =>
      rw [foldedComplement_eq, ← hsum]
      refine congrArg (OnesComplement.checksum (2 ^ 16)) ?_
      omega

/-- The place of the odd byte makes no difference to the one's-complement sum. -/
lemma odd_modEq (w b : ℕ) : w + b ≡ w + 2 ^ 16 * b [MOD 2 ^ 16 - 1] := by
  refine Nat.ModEq.add_left w ?_
  have h : 1 ≡ 2 ^ 16 [MOD 2 ^ 16 - 1] := by decide
  simpa using h.mul_right b

lemma ipchksum_verifies_iff {buff : Bytes} {words k : ℕ} (hwords : words ≤ 750) (hk : k < words)
    (hzero : wordAt buff k = 0) :
    OnesComplement.sum (2 ^ 16)
        (leWords (slice (poke buff (2 * k) (leBytes 2 (ipchksum buff words))) 0 (2 * words))) = 0xFFFF ↔
      CarriesFit (leWords (slice buff 0 (2 * words))).sum 0 := by
  obtain ⟨hsum, hle⟩ := addWords_eq buff words (by omega)
  rw [OnesComplement.sum_eq (by decide) (leWords_lt _), leWords_poke_sum (ipchksum_lt buff words) hk hzero,
    ← hsum, ipchksum, foldedComplement_eq, ← carriesFit_iff]
  exact OnesComplement.verifies_iff (by decide) rfl id (by omega)

/-- The checksum of `l4_sum`. -/
lemma l4Sum_verifies_iff (buff : Bytes) (srcaddr dstaddr : UInt32) (proto : UInt8) {n : ℕ} (hn : n < 2 ^ 16) :
    OnesComplement.sum (2 ^ 16) (leWords (pseudoHeader srcaddr dstaddr proto n) ++ leWords (slice buff 0 n) ++
        [l4Sum buff (n / 2) srcaddr dstaddr (htons proto.toNat) (htons n)]) = 0xFFFF ↔
      CarriesFit ((leWords (pseudoHeader srcaddr dstaddr proto n)).sum +
        (leWords (slice buff 0 (2 * (n / 2)))).sum) (oddByte buff n) := by
  have hwords : ∀ w ∈ leWords (pseudoHeader srcaddr dstaddr proto n) ++ leWords (slice buff 0 n) ++
      [l4Sum buff (n / 2) srcaddr dstaddr (htons proto.toNat) (htons n)], w < 2 ^ 16 := by
    intro w hw
    rw [List.mem_append, List.mem_append, List.mem_singleton] at hw
    rcases hw with (hw | hw) | rfl
    · exact leWords_lt _ w hw
    · exact leWords_lt _ w hw
    · exact l4Sum_lt _ _ _ _ _ _
  have hp := pseudoHeader_sum_lt srcaddr dstaddr proto n
  obtain ⟨hsum, hle⟩ := addWords_eq buff (n / 2) (by omega)
  have hodd := oddByte_lt buff n
  rw [OnesComplement.sum_eq (by decide) hwords, List.sum_append, List.sum_append, List.sum_singleton,
    leWords_segment_sum, l4Sum_eq _ _ _ _ hn, ← carriesFit_iff, ← Nat.add_assoc]
  refine OnesComplement.verifies_iff (by decide) (odd_modEq _ _) (fun h => ?_) ?_
  · omega
  · omega

/-- **The checksums verify if and only if the carries can be brought around in one step**: of a packet with a
zero in the word of the checksum, and of a segment.  In a segment of odd length the last byte comes in
with the carries. -/
theorem internet_checksums_verify_iff (packet segment : Bytes) (words k n : ℕ) (hwords : words ≤ 750)
    (hk : k < words) (hzero : wordAt packet k = 0) (hn : n < 2 ^ 16) (srcaddr dstaddr : UInt32) (proto : UInt8) :
    (OnesComplement.sum (2 ^ 16)
        (leWords (slice (poke packet (2 * k) (leBytes 2 (ipchksum packet words))) 0 (2 * words))) = 0xFFFF ↔
      CarriesFit (leWords (slice packet 0 (2 * words))).sum 0) ∧
    (OnesComplement.sum (2 ^ 16) (leWords (pseudoHeader srcaddr dstaddr proto n) ++ leWords (slice segment 0 n) ++
        [l4Sum segment (n / 2) srcaddr dstaddr (htons proto.toNat) (htons n)]) = 0xFFFF ↔
      CarriesFit ((leWords (pseudoHeader srcaddr dstaddr proto n)).sum +
        (leWords (slice segment 0 (2 * (n / 2)))).sum) (oddByte segment n)) :=
  ⟨ipchksum_verifies_iff hwords hk hzero, l4Sum_verifies_iff segment srcaddr dstaddr proto hn⟩

/-- The words `0x4500`, `0` and `0xC0A8` in network order, with the checksum in the second, and a
segment of three bytes. -/
theorem internet_checksums_verify_small :
    OnesComplement.sum (2 ^ 16) (leWords (slice (poke (poke (fun _ => 0) 0 [0x45, 0, 0, 0, 0xC0, 0xA8]) 2
      (leBytes 2 (ipchksum (poke (fun _ => 0) 0 [0x45, 0, 0, 0, 0xC0, 0xA8]) 3))) 0 6)) = 0xFFFF ∧
    OnesComplement.sum (2 ^ 16) (leWords (pseudoHeader 0 0xFFFFFFFF 17 3) ++
      leWords (slice (poke (fun _ => 0) 0 [1, 2, 3]) 0 3) ++
      [l4Sum (poke (fun _ => 0) 0 [1, 2, 3]) 1 0 0xFFFFFFFF (htons 17) (htons 3)]) = 0xFFFF := by
  obtain ⟨hpacket, hsegment⟩ := internet_checksums_verify_iff (poke (fun _ => 0) 0 [0x45, 0, 0, 0, 0xC0, 0xA8])
    (poke (fun _ => 0) 0 [1, 2, 3]) 3 1 3 (by decide) (by decide) (by decide) (by decide)
    0 0xFFFFFFFF 17
  exact ⟨hpacket.mpr (by unfold CarriesFit; decide), hsegment.mpr (by unfold CarriesFit; decide)⟩

/-- For the words `0xFFFF`, `0xFFFF`, `1` and 0 a carry is lost: the checksum in the last word is
`0xFFFF`, and the words sum up to 1. -/
theorem ipchksum_loses_carry :
    wordAt (poke (fun _ => 0) 0 [0xFF, 0xFF, 0xFF, 0xFF, 1, 0, 0, 0]) 3 = 0 ∧
      ipchksum (poke (fun _ => 0) 0 [0xFF, 0xFF, 0xFF, 0xFF, 1, 0, 0, 0]) 4 = 0xFFFF ∧
      OnesComplement.sum (2 ^ 16) (leWords (slice (poke (poke (fun _ => 0) 0
        [0xFF, 0xFF, 0xFF, 0xFF, 1, 0, 0, 0]) 6 (leBytes 2
          (ipchksum (poke (fun _ => 0) 0 [0xFF, 0xFF, 0xFF, 0xFF, 1, 0, 0, 0]) 4))) 0 8)) = 1 := by
  decide

end DeviceTools.Dhcp
