/-
The MAC of the card commands.

`pbocpadding` writes a byte 0x80 behind the message, in the caller's memory, and copies both to the
allocated buffer, which it clears up to a multiple of eight.  `TDesEncryptMac` chains the blocks of
the buffer through single DES under the left half of the key; `icv` and `tmp2` both hold the result
of a round.  The last result is decrypted under the right half and encrypted under the left one.
The functions `des_set_key`, `des_encrypt` and `des_decrypt` are arbitrary.
-/
import DeviceTools.Lib.CbcMac
import DeviceTools.Lib.Memory

namespace DeviceTools.Ic

open Memory CbcMac

/-- The DES functions: `des_set_key` fills the context, from which the others take their keys. -/
structure Des where
  Ctx : Type
  setKey : Block 8 → Ctx
  encrypt : Ctx → Block 8 → Block 8
  decrypt : Ctx → Block 8 → Block 8

/-- Encryption of a block under a key. -/
def Des.E (des : Des) (key block : Block 8) : Block 8 := des.encrypt (des.setKey key) block

/-- Decryption of a block under a key. -/
def Des.D (des : Des) (key block : Block 8) : Block 8 := des.decrypt (des.setKey key) block

/-- The eight bytes at `off`. -/
def blockAt (m : Bytes) (off : ℕ) : Block 8 := Vector.ofFn fun j => m (off + j)

/-- What `pbocpadding` leaves in the memory of its caller, in the buffer and in `*outputlen`. -/
structure Padded where
  data : Bytes
  outputdata : Bytes
  outputlen : ℕ

def pbocpadding (data : Bytes) (len : ℕ) (outputdata : Bytes) : Padded :=
  let data := poke data len [0x80]
  let len := len + 1
  let f := 8 - len % 8
  if f ≠ 8 then
    ⟨data, poke (poke outputdata 0 (List.replicate (len + f) 0)) 0 (slice data 0 len), len + f⟩
  else
    ⟨data, poke (poke outputdata 0 (List.replicate len 0)) 0 (slice data 0 len), len⟩

/-- The loop of `TDesEncryptMac` from `i` on; the blocks left in `icv` and in `tmp2`. -/
def macLoop (des : Des) (key : Block 8) (tmp : Bytes) (tmplen i : ℕ) (icv tmp2 : Block 8) :
    Block 8 × Block 8 :=
  if i < tmplen then
    let icv := Vector.ofFn fun j => icv[j] ^^^ tmp (i + j)
    let ctx := des.setKey key
    let tmp2 := des.encrypt ctx icv
    macLoop des key tmp tmplen (i + 8) tmp2 tmp2
  else (icv, tmp2)
termination_by tmplen - i

/-- What `TDesEncryptMac` returns and what it leaves in the memory of its caller. -/
structure MacResult where
  ret : ℤ
  input : Bytes
  output : Bytes
  outputlen : ℤ

/-- `TDesEncryptMac`; `tmp` is what `malloc` gives. -/
def tDesEncryptMac (des : Des) (key input : Bytes) (inputlen : ℕ) (output : Bytes) (outputlen : ℤ)
    (ivdata : Block 8) (tmp : Option Bytes) : MacResult :=
  match tmp with
  | none => ⟨-1, input, output, outputlen⟩
  | some tmp =>
      let p := pbocpadding input inputlen tmp
      let tmp2 := (macLoop des (blockAt key 0) p.outputdata p.outputlen 0 ivdata (Vector.replicate 8 0)).2
      let ctx := des.setKey (blockAt key 8)
      let icv := des.decrypt ctx tmp2
      let ctx := des.setKey (blockAt key 0)
      let tmp2 := des.encrypt ctx icv
      ⟨0, p.data, poke output 0 (tmp2.toList.take 4), 4⟩

/-! ### The padding -/

/-- The buffer when as many zeros as `pad` has are written behind the message. -/
lemma pbocpadding_eq (data : Bytes) (len : ℕ) (outputdata : Bytes) :
    pbocpadding data len outputdata =
      ⟨poke data len [0x80],
        poke (poke outputdata 0 (List.replicate (len + 1 + zeros 8 len) 0)) 0
          (slice (poke data len [0x80]) 0 (len + 1)),
        len + 1 + zeros 8 len⟩ := by
  rw [pbocpadding]
  by_cases h : (len + 1) % 8 = 0
  · have hzeros : zeros 8 len = 0 := by rw [zeros, h]
    rw [h, hzeros]
    rfl
  · have hzeros : zeros 8 len = 8 - (len + 1) % 8 := by
      rw [zeros]
      omega
    rw [if_pos (by omega), hzeros]

lemma slice_poke_next (data : Bytes) (len : ℕ) (b : UInt8) :
    slice (poke data len [b]) 0 (len + 1) = slice data 0 len ++ [b] := by
  have hfront : slice (poke data len [b]) 0 len = slice data 0 len :=
    slice_congr fun k _ hk => if_neg (by omega)
  have hback := slice_poke data len [b]
  rw [List.length_singleton] at hback
  rw [slice_add, hfront, Nat.zero_add, hback]

/-- **The buffer holds the padded message.** -/
lemma slice_outputdata (data : Bytes) (len : ℕ) (outputdata : Bytes) :
    slice (pbocpadding data len outputdata).outputdata 0 (pbocpadding data len outputdata).outputlen =
      pad 8 (slice data 0 len) := by
  have hlen : (slice data 0 len ++ [0x80]).length = len + 1 := by simp
  have hfits : (slice data 0 len ++ [0x80]).length ≤
      (List.replicate (len + 1 + zeros 8 len) (0 : UInt8)).length := by
    rw [hlen, List.length_replicate]
    omega
  have hbuffer := slice_poke_poke outputdata 0 hfits
  rw [List.length_replicate, List.drop_replicate, hlen, Nat.add_sub_cancel_left] at hbuffer
  rw [pbocpadding_eq, slice_poke_next, hbuffer, pad, length_slice, List.append_assoc]
  rfl

lemma outputlen_eq (data : Bytes) (len : ℕ) (outputdata : Bytes) :
    (pbocpadding data len outputdata).outputlen = (pad 8 (slice data 0 len)).length := by
  rw [pbocpadding_eq, length_pad, length_slice]

lemma outputdata_behind (data : Bytes) (len : ℕ) (outputdata : Bytes) {i : ℕ}
    (h : (pbocpadding data len outputdata).outputlen ≤ i) :
    (pbocpadding data len outputdata).outputdata i = outputdata i := by
  rw [pbocpadding_eq] at h ⊢
  dsimp only at h ⊢
  rw [poke_behind _ (by rw [length_slice]; omega), poke_behind _ (by rw [List.length_replicate]; omega)]

/-! ### The chain -/

lemma macLoop_step (des : Des) (key : Block 8) (tmp : Bytes) {tmplen i : ℕ} (h : i < tmplen)
    (icv tmp2 : Block 8) :
    macLoop des key tmp tmplen i icv tmp2 =
      macLoop des key tmp tmplen (i + 8) (des.E key (xorBlock icv (blockAt tmp i)))
        (des.E key (xorBlock icv (blockAt tmp i))) := by
  have hxor : (Vector.ofFn fun j : Fin 8 => icv[j] ^^^ tmp (i + j)) = xorBlock icv (blockAt tmp i) := by
    ext j hj
    simp [xorBlock, blockAt]
  rw [macLoop, if_pos h, hxor]
  rfl

/-- **The invariant of the loop.**  Behind every round `icv` and `tmp2` are the last block of the
chain so far. -/
lemma macLoop_eq (des : Des) (key : Block 8) (tmp : Bytes) (k : ℕ) : ∀ (i : ℕ) (icv tmp2 : Block 8),
    (macLoop des key tmp (i + 8 * (k + 1)) i icv tmp2).2 =
      chain (des.E key) icv ((List.range (k + 1)).map fun r => blockAt tmp (i + 8 * r)) := by
  induction k with
  | zero =>
      intro i icv tmp2
      rw [macLoop_step des key tmp (by omega), macLoop, if_neg (by omega)]
      rfl
  | succ k ih =>
      intro i icv tmp2
      rw [macLoop_step des key tmp (by omega), show i + 8 * (k + 1 + 1) = i + 8 + 8 * (k + 1) by omega, ih,
        List.range_succ_eq_map (n := k + 1), List.map_cons, chain_cons, List.map_map]
      congr 1
      refine List.map_congr_left fun r _ => ?_
      rw [Function.comp_apply, Nat.succ_eq_add_one]
      congr 1
      omega

/-- The blocks of the buffer are the blocks that the loop reads. -/
lemma blocks_slice (tmp : Bytes) (k : ℕ) :
    blocks 8 (slice tmp 0 (8 * k)) = (List.range k).map fun r => blockAt tmp (0 + 8 * r) := by
  rw [blocks, length_slice, Nat.mul_div_cancel_left k (by decide)]
  refine List.map_congr_left fun r hr => ?_
  rw [List.mem_range] at hr
  rw [blockAt]
  congr 1
  funext j
  have hj := j.isLt
  rw [slice, List.getElem?_map, List.getElem?_range (by omega), Option.map_some, Option.getD_some,
    Nat.zero_add, Nat.zero_add]

/-- The last block of the loop over the padded message. -/
lemma macLoop_padded (des : Des) (key : Block 8) (data : Bytes) (len : ℕ) (outputdata : Bytes) (icv tmp2 : Block 8) :
    (macLoop des key (pbocpadding data len outputdata).outputdata (pbocpadding data len outputdata).outputlen 0
        icv tmp2).2 =
      chain (des.E key) icv (blocks 8 (pad 8 (slice data 0 len))) := by
  obtain ⟨k, hk⟩ := dvd_length_pad (n := 8) (by decide) (slice data 0 len)
  have hpos : 0 < (pad 8 (slice data 0 len)).length := by
    rw [CbcMac.length_pad]
    omega
  obtain ⟨k, rfl⟩ := Nat.exists_eq_succ_of_ne_zero (show k ≠ 0 by omega)
  have hlen : (pbocpadding data len outputdata).outputlen = 8 * (k + 1) := (outputlen_eq _ _ _).trans hk
  rw [← slice_outputdata data len outputdata, hlen, blocks_slice]
  have hloop := macLoop_eq des key (pbocpadding data len outputdata).outputdata k 0 icv tmp2
  rwa [Nat.zero_add] at hloop

end DeviceTools.Ic
