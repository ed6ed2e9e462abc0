/-
The message digest of a message that comes in parts.

`MD5Update` fills the buffer of the context, transforms it when it is full, transforms the whole
blocks of the input where they lie and keeps the rest; the two words of `count` are the number of
bits, modulo 2^64.  `MD5Final` feeds the padding and the number of bits through the same function.
The unsigned sums of the loop wrap at 2^32, so a part of nearly that length can run for ever.
-/
import DeviceTools.Lib.BlockHash
import DeviceTools.Lib.ByteWord
import DeviceTools.Md5.Transform

namespace DeviceTools.Md5

open Memory ByteWord BlockHash

/-- `MD5_CONTEXT`. -/
structure MD5_CONTEXT where
  state : State
  count : Vector UINT4 2
  buffer : Bytes

def MD5Init (context : MD5_CONTEXT) : MD5_CONTEXT :=
  { context with count := #v[0, 0], state := #v[0x67452301, 0xefcdab89, 0x98badcfe, 0x10325476] }

/-- The loop of `MD5Update` from `i` on: the last `i` and the state, or nothing when the loop does not
end. -/
def transformLoop (input : Bytes) (inputLen : ℕ) : ℕ → ℕ → State → Option (ℕ × State)
  | 0, _, _ => none
  | fuel + 1, i, state =>
      if (i + 63) % 2 ^ 32 < inputLen then
        transformLoop input inputLen fuel ((i + 64) % 2 ^ 32) (MD5Transform state fun k => input (i + k))
      else some (i, state)

/-- `MD5Update`.  The values of `i` repeat after 2^26 rounds. -/
def MD5Update (context : MD5_CONTEXT) (input : Bytes) (inputLen : ℕ) : Option MD5_CONTEXT :=
  let index := ((context.count[0] >>> 3) &&& 0x3F).toNat
  let bits := BitVec.ofNat 32 inputLen <<< 3
  let count0 := context.count[0] + bits
  let count1 := if count0 < bits then context.count[1] + 1 else context.count[1]
  let count1 := count1 + (BitVec.ofNat 32 inputLen >>> 29)
  let partLen := 64 - index
  if inputLen ≥ partLen then
    let buffer := poke context.buffer index (slice input 0 partLen)
    let state := MD5Transform context.state buffer
    match transformLoop input inputLen (2 ^ 26) partLen state with
    | none => none
    | some (i, state) =>
        some ⟨state, #v[count0, count1], poke buffer 0 (slice input i ((inputLen + 2 ^ 32 - i) % 2 ^ 32))⟩
  else some ⟨context.state, #v[count0, count1], poke context.buffer index (slice input 0 inputLen)⟩

/-- `Encode`: the bytes of a number of words. -/
def Encode (input : List UINT4) : List UInt8 :=
  input.flatMap fun w : UINT4 =>
    [⟨(w &&& 0xff).setWidth 8⟩, ⟨((w >>> 8) &&& 0xff).setWidth 8⟩, ⟨((w >>> 16) &&& 0xff).setWidth 8⟩,
      ⟨((w >>> 24) &&& 0xff).setWidth 8⟩]

def PADDING : Bytes := fun i => if i = 0 then 0x80 else 0

/-- `MD5Final`: the digest, and the context that is left. -/
def MD5Final (context : MD5_CONTEXT) : Option (List UInt8 × MD5_CONTEXT) :=
  let bits := Encode context.count.toList
  let index := ((context.count[0] >>> 3) &&& 0x3f).toNat
  let padLen := if index < 56 then 56 - index else 120 - index
  match MD5Update context PADDING padLen with
  | none => none
  | some context =>
      match MD5Update context (fun i => bits.getD i 0) 8 with
      | none => none
      | some context =>
          some (Encode context.state.toList, ⟨#v[0, 0, 0, 0], #v[0, 0], poke context.buffer 0 (List.replicate 64 0)⟩)

/-! ### The digest of the standard -/

/-- The words of a block, the low byte first. -/
def words (b : List UInt8) (i : ℕ) : UINT4 := BitVec.ofNat 32 (leNat (field b (4 * i) 4))

/-- The compression of a block. -/
def compress (s : State) (b : List UInt8) : State := standardTransform s (words b)

/-- The state at the start. -/
def start : State := #v[0x67452301, 0xefcdab89, 0x98badcfe, 0x10325476]

/-- The message with its padding and its number of bits. -/
def padded (m : List UInt8) : List UInt8 :=
  m ++ 0x80 :: (List.replicate ((119 - m.length % 64) % 64) 0 ++ leBytes 8 (8 * m.length))

/-- The digest of a message. -/
def md5 (m : List UInt8) : List UInt8 := (feed 64 compress start (padded m)).1.toList.flatMap fun w => leBytes 4 w.toNat

example : md5 "abc".toUTF8.toList = [0x90, 0x01, 0x50, 0x98, 0x3c, 0xd2, 0x4f, 0xb0, 0xd6, 0x96, 0x3f, 0x7d, 0x28, 0xe1,
    0x7f, 0x72] := by
  decide +kernel

/-! ### Words and blocks -/

lemma toNat_words (a b c d : BitVec 8) :
    (d ++ c ++ b ++ a).toNat = a.toNat + 256 * (b.toNat + 256 * (c.toNat + 256 * d.toNat)) := by
  have ha := a.isLt
  have hb := b.isLt
  have hc := c.isLt
  simp only [BitVec.toNat_append]
  rw [← Nat.shiftLeft_add_eq_or_of_lt hc, ← Nat.shiftLeft_add_eq_or_of_lt hb, ← Nat.shiftLeft_add_eq_or_of_lt ha]
  simp only [Nat.shiftLeft_eq]
  omega

lemma Decode_append (input : Bytes) (i : ℕ) :
    Decode input i = (input (4 * i + 3)).toBitVec ++ (input (4 * i + 2)).toBitVec ++ (input (4 * i + 1)).toBitVec ++
      (input (4 * i)).toBitVec := by
  ext j hj
  simp only [Decode, BitVec.getElem_or, BitVec.getElem_shiftLeft, BitVec.getElem_setWidth]
  grind

lemma Decode_eq (input : Bytes) {i : ℕ} (hi : i < 16) : Decode input i = words (slice input 0 64) i := by
  have hfield : field (slice input 0 64) (4 * i) 4 =
      [input (4 * i), input (4 * i + 1), input (4 * i + 2), input (4 * i + 3)] := by
    rw [field, drop_slice, take_slice _ _ (by omega), Nat.zero_add]
    rfl
  refine BitVec.eq_of_toNat_eq ?_
  rw [words, hfield, BitVec.toNat_ofNat, Decode_append]
  refine (toNat_words _ _ _ _).trans ?_
  have h0 := (input (4 * i)).toNat_lt
  have h1 := (input (4 * i + 1)).toNat_lt
  have h2 := (input (4 * i + 2)).toNat_lt
  have h3 := (input (4 * i + 3)).toNat_lt
  simp only [leNat, UInt8.toNat_toBitVec]
  omega

lemma stepWord_lt (i : ℕ) : stepWord i < 16 := by
  rw [stepWord]
  split_ifs <;> omega

lemma standardTransform_congr {x y : ℕ → UINT4} (h : ∀ i < 16, x i = y i) (s : State) :
    standardTransform s x = standardTransform s y := by
  have hstep : standardStep x = standardStep y := by
    funext r i
    rw [standardStep, standardStep, h _ (stepWord_lt i)]
  exact congrArg (fun g => let r := (List.range 64).foldl g (⟨s[0], s[1], s[2], s[3]⟩ : Vars)
    #v[s[0] + r.a, s[1] + r.b, s[2] + r.c, s[3] + r.d]) hstep

lemma MD5Transform_compress (s : State) (block : Bytes) : MD5Transform s block = compress s (slice block 0 64) := by
  rw [MD5Transform_eq, compress]
  exact standardTransform_congr (fun i hi => Decode_eq block hi) s

lemma encode_word (w : UINT4) :
    ([⟨(w &&& 0xff).setWidth 8⟩, ⟨((w >>> 8) &&& 0xff).setWidth 8⟩, ⟨((w >>> 16) &&& 0xff).setWidth 8⟩,
      ⟨((w >>> 24) &&& 0xff).setWidth 8⟩] : List UInt8) = leBytes 4 w.toNat := by
  have hbyte (s : ℕ) : (⟨((w >>> s) &&& 0xff).setWidth 8⟩ : UInt8) = UInt8.ofNat (w.toNat / 2 ^ s) := by
    refine UInt8.toNat_inj.1 ?_
    change (((w >>> s) &&& 0xff).setWidth 8).toNat = (UInt8.ofNat (w.toNat / 2 ^ s)).toNat
    rw [BitVec.toNat_setWidth, BitVec.toNat_and, BitVec.toNat_ushiftRight, Nat.shiftRight_eq_div_pow, UInt8.toNat_ofNat']
    refine (congrArg (fun n => n % 2 ^ 8) (Nat.and_two_pow_sub_one_eq_mod (w.toNat / 2 ^ s) 8)).trans ?_
    exact Nat.mod_mod _ _
  have h0 := hbyte 0
  rw [BitVec.ushiftRight_zero, Nat.pow_zero, Nat.div_one] at h0
  rw [h0, hbyte, hbyte, hbyte, leBytes, leBytes, leBytes, leBytes, leBytes, Nat.div_div_eq_div_mul, Nat.div_div_eq_div_mul]
  rfl

lemma Encode_eq (ws : List UINT4) : Encode ws = ws.flatMap fun w => leBytes 4 w.toNat := by
  rw [Encode]
  exact congrArg (fun g => ws.flatMap g) (funext encode_word)

/-! ### One part -/

/-- The context behind a message. -/
structure Holds (context : MD5_CONTEXT) (m : List UInt8) : Prop where
  state : context.state = (feed 64 compress start m).1
  rest : slice context.buffer 0 (m.length % 64) = (feed 64 compress start m).2
  count : context.count[0].toNat + 2 ^ 32 * context.count[1].toNat = 8 * m.length % 2 ^ 64

lemma holds_MD5Init (context : MD5_CONTEXT) : Holds (MD5Init context) [] where
  state := by rw [feed_of_lt _ _ (by decide)]; rfl
  rest := by rw [feed_of_lt _ _ (by decide)]; rfl
  count := rfl

lemma Holds.index {context : MD5_CONTEXT} {m : List UInt8} (h : Holds context m) :
    ((context.count[0] >>> 3) &&& 0x3F).toNat = m.length % 64 := by
  have hcount := h.count
  have hlt := context.count[1].isLt
  rw [BitVec.toNat_and, BitVec.toNat_ushiftRight, Nat.shiftRight_eq_div_pow]
  refine (Nat.and_two_pow_sub_one_eq_mod _ 6).trans ?_
  omega

/-- The number of bits, with the carry. -/
lemma count_add {n0 n1 : UINT4} {len inputLen : ℕ} (h : n0.toNat + 2 ^ 32 * n1.toNat = 8 * len % 2 ^ 64)
    (hlen : inputLen < 2 ^ 32) :
    (n0 + BitVec.ofNat 32 inputLen <<< 3).toNat + 2 ^ 32 *
      ((if n0 + BitVec.ofNat 32 inputLen <<< 3 < BitVec.ofNat 32 inputLen <<< 3 then n1 + 1 else n1) +
        (BitVec.ofNat 32 inputLen >>> 29)).toNat = 8 * (len + inputLen) % 2 ^ 64 := by
  have h0 := n0.isLt
  have h1 := n1.isLt
  have hbits : (BitVec.ofNat 32 inputLen <<< 3).toNat = 8 * inputLen % 2 ^ 32 := by
    rw [BitVec.toNat_shiftLeft, BitVec.toNat_ofNat, Nat.shiftLeft_eq]
    omega
  have hhigh : (BitVec.ofNat 32 inputLen >>> 29).toNat = inputLen / 2 ^ 29 := by
    rw [BitVec.toNat_ushiftRight, BitVec.toNat_ofNat, Nat.shiftRight_eq_div_pow]
    omega
  have hone : (1 : UINT4).toNat = 1 := rfl
  rw [BitVec.toNat_add, BitVec.toNat_add, hhigh, hbits]
  split_ifs with hcarry <;> rw [BitVec.lt_def, BitVec.toNat_add, hbits] at hcarry
  · rw [BitVec.toNat_add, hone]
    omega
  · omega

/-- The loop takes the whole blocks and stops at what is left, as long as no sum wraps. -/
lemma transformLoop_spec (input : Bytes) {inputLen : ℕ} (hlen : inputLen ≤ 2 ^ 32 - 64) (fuel : ℕ) :
    ∀ (i : ℕ) (s : State), i ≤ inputLen → (inputLen - i) / 64 < fuel →
      ∃ j, transformLoop input inputLen fuel i s =
          some (j, (feed 64 compress s (slice input i (inputLen - i))).1) ∧ j ≤ inputLen ∧
        slice input j (inputLen - j) = (feed 64 compress s (slice input i (inputLen - i))).2 := by
  induction fuel with
  | zero => exact fun i s _ hfuel => absurd hfuel (Nat.not_lt_zero _)
  | succ fuel ih =>
      intro i s hi hfuel
      rw [transformLoop, Nat.mod_eq_of_lt (by omega : i + 63 < 2 ^ 32)]
      by_cases hblock : i + 63 < inputLen
      · have hsplit : slice input i (inputLen - i) = slice input i 64 ++ slice input (i + 64) (inputLen - (i + 64)) := by
          rw [← slice_add, show 64 + (inputLen - (i + 64)) = inputLen - i by omega]
        have htransform : MD5Transform s (fun k => input (i + k)) = compress s (slice input i 64) := by
          rw [MD5Transform_compress, slice, slice]
          simp only [Nat.zero_add]
        rw [if_pos hblock, Nat.mod_eq_of_lt (by omega : i + 64 < 2 ^ 32), htransform, hsplit,
          feed_block compress (by decide) s (length_slice _ _ _)]
        exact ih (i + 64) _ (by omega) (by omega)
      · rw [if_neg hblock, feed_of_lt compress s (by rw [length_slice]; omega)]
        exact ⟨i, rfl, hi, rfl⟩

lemma slice_poke_front (m : Bytes) (d : ℕ) (xs : List UInt8) :
    slice (poke m d xs) 0 (d + xs.length) = slice m 0 d ++ xs := by
  have hfront : slice (poke m d xs) 0 d = slice m 0 d := slice_congr fun k _ hk => if_neg (by omega)
  rw [slice_add, Nat.zero_add, hfront, slice_poke]

/-- **One part of the message.** -/
lemma MD5Update_spec {context : MD5_CONTEXT} {m : List UInt8} (h : Holds context m) (input : Bytes) {n : ℕ}
    (hlen : n ≤ 2 ^ 32 - 64) :
    ∃ context', MD5Update context input n = some context' ∧ Holds context' (m ++ slice input 0 n) := by
  have hcount := count_add h.count (by omega : n < 2 ^ 32)
  have hmod : m.length % 64 < 64 := Nat.mod_lt _ (by decide)
  have htotal : (m ++ slice input 0 n).length = m.length + n := by
    rw [List.length_append, length_slice]
  have hfeed : feed 64 compress start (m ++ slice input 0 n) =
      feed 64 compress context.state (slice context.buffer 0 (m.length % 64) ++ slice input 0 n) := by
    rw [feed_append, ← h.state, ← h.rest]
  rw [MD5Update, h.index]
  dsimp only
  by_cases hfull : n ≥ 64 - m.length % 64
  · -- The first block is put together in the buffer.
    have hfirst : slice (poke context.buffer (m.length % 64) (slice input 0 (64 - m.length % 64))) 0 64 =
        slice context.buffer 0 (m.length % 64) ++ slice input 0 (64 - m.length % 64) := by
      have hfront := slice_poke_front context.buffer (m.length % 64) (slice input 0 (64 - m.length % 64))
      rwa [length_slice, Nat.add_sub_cancel' hmod.le] at hfront
    have hblock : (slice context.buffer 0 (m.length % 64) ++ slice input 0 (64 - m.length % 64)).length = 64 := by
      rw [List.length_append, length_slice, length_slice, Nat.add_sub_cancel' hmod.le]
    have hparts : slice context.buffer 0 (m.length % 64) ++ slice input 0 n =
        (slice context.buffer 0 (m.length % 64) ++ slice input 0 (64 - m.length % 64)) ++
          slice input (64 - m.length % 64) (n - (64 - m.length % 64)) := by
      have hadd := slice_add input 0 (64 - m.length % 64) (n - (64 - m.length % 64))
      rw [Nat.add_sub_cancel' hfull, Nat.zero_add] at hadd
      rw [hadd, List.append_assoc]
    rw [hparts, feed_block compress (by decide) _ hblock, ← hfirst, ← MD5Transform_compress] at hfeed
    obtain ⟨j, hloop, hj, hrest⟩ := transformLoop_spec input hlen (2 ^ 26) (64 - m.length % 64)
      (MD5Transform context.state (poke context.buffer (m.length % 64) (slice input 0 (64 - m.length % 64))))
      hfull (by omega)
    rw [if_pos hfull, hloop]
    refine ⟨_, rfl, by rw [hfeed], ?_, by rw [htotal]; exact hcount⟩
    have hlast := length_feed compress (n := 64) (by decide) start (m ++ slice input 0 n)
    rw [hfeed, ← hrest, length_slice] at hlast
    dsimp only
    rw [show (n + 2 ^ 32 - j) % 2 ^ 32 = n - j by omega, ← hlast, hfeed, ← hrest]
    have hpoke := slice_poke (poke context.buffer (m.length % 64) (slice input 0 (64 - m.length % 64))) 0
      (slice input j (n - j))
    rwa [length_slice] at hpoke
  · have hrest := slice_poke_front context.buffer (m.length % 64) (slice input 0 n)
    have hshort : (slice context.buffer 0 (m.length % 64) ++ slice input 0 n).length < 64 := by
      rw [List.length_append, length_slice, length_slice]
      omega
    rw [feed_of_lt compress _ hshort] at hfeed
    rw [length_slice] at hrest
    rw [if_neg hfull]
    refine ⟨_, rfl, by rw [hfeed], ?_, by rw [htotal]; exact hcount⟩
    rw [hfeed, htotal, show (m.length + n) % 64 = m.length % 64 + n by omega]
    exact hrest

/-! ### The whole message -/

/-- `MD5Update` for one part after the other. -/
def updates (context : MD5_CONTEXT) : List (Bytes × ℕ) → Option MD5_CONTEXT
  | [] => some context
  | part :: parts =>
      match MD5Update context part.1 part.2 with
      | none => none
      | some context => updates context parts

/-- The bytes of the parts. -/
def message (parts : List (Bytes × ℕ)) : List UInt8 := parts.flatMap fun p => slice p.1 0 p.2

/-- `MD5Init`, the parts, and `MD5Final`. -/
def digest (context : MD5_CONTEXT) (parts : List (Bytes × ℕ)) : Option (List UInt8 × MD5_CONTEXT) :=
  match updates (MD5Init context) parts with
  | none => none
  | some context => MD5Final context

lemma updates_spec (parts : List (Bytes × ℕ)) (hparts : ∀ p ∈ parts, p.2 ≤ 2 ^ 32 - 64) :
    ∀ {context : MD5_CONTEXT} {m : List UInt8}, Holds context m →
      ∃ context', updates context parts = some context' ∧ Holds context' (m ++ message parts) := by
  induction parts with
  | nil => exact fun h => ⟨_, rfl, by rwa [message, List.flatMap_nil, List.append_nil]⟩
  | cons part parts ih =>
      intro context m h
      obtain ⟨hpart, hrest⟩ := List.forall_mem_cons.1 hparts
      obtain ⟨context', hupdate, hholds⟩ := MD5Update_spec h part.1 hpart
      rw [updates, hupdate, message, List.flatMap_cons, ← List.append_assoc]
      exact ih hrest hholds

/-- The bytes behind a message of `n` bytes, up to the number of bits. -/
lemma slice_PADDING (n : ℕ) : slice PADDING 0 (n + 1) = 0x80 :: List.replicate n 0 := by
  rw [slice_succ]
  refine congrArg (List.cons _) (List.ext_getElem (by simp) fun k hk _ => ?_)
  simp [slice, PADDING]

lemma slice_getD (l : List UInt8) : slice (fun i => l.getD i 0) 0 l.length = l := by
  refine List.ext_getElem (length_slice _ _ _) fun k _ hk => ?_
  simp only [slice, List.getElem_map, List.getElem_range, Nat.zero_add]
  exact List.getD_eq_getElem l 0 hk

lemma bits_eq {context : MD5_CONTEXT} {m : List UInt8} (h : Holds context m) :
    Encode context.count.toList = leBytes 8 (8 * m.length) := by
  have hlist : context.count.toList = [context.count[0], context.count[1]] := by
    refine List.ext_getElem (by simp) fun k hk _ => ?_
    have hk : k < 2 := by simpa using hk
    interval_cases k <;> simp
  have hlow : context.count[0].toNat < 256 ^ 4 := context.count[0].isLt
  have happ := leBytes_append hlow 4 context.count[1].toNat
  have hcount : context.count[0].toNat + 256 ^ 4 * context.count[1].toNat = 8 * m.length % 256 ^ 8 := h.count
  rw [hcount, leBytes_mod] at happ
  rw [hlist, Encode_eq, List.flatMap_cons, List.flatMap_cons, List.flatMap_nil, List.append_nil]
  exact happ.symm

/-- Nothing of the message is left in the context. -/
def Zeroized (context : MD5_CONTEXT) : Prop :=
  context.state = #v[0, 0, 0, 0] ∧ context.count = #v[0, 0] ∧ slice context.buffer 0 64 = List.replicate 64 0

lemma MD5Final_spec {context : MD5_CONTEXT} {m : List UInt8} (h : Holds context m) :
    ∃ context', MD5Final context = some (md5 m, context') ∧ Zeroized context' := by
  have hmod : m.length % 64 < 64 := Nat.mod_lt _ (by decide)
  have hpad : (if m.length % 64 < 56 then 56 - m.length % 64 else 120 - m.length % 64) =
      (119 - m.length % 64) % 64 + 1 := by
    split_ifs <;> omega
  rw [MD5Final, h.index, hpad]
  obtain ⟨c1, h1, hholds1⟩ := MD5Update_spec h PADDING (n := (119 - m.length % 64) % 64 + 1) (by omega)
  obtain ⟨c2, h2, hholds2⟩ := MD5Update_spec hholds1 (fun i => (Encode context.count.toList).getD i 0) (n := 8)
    (by decide)
  have hbits : slice (fun i => (Encode context.count.toList).getD i 0) 0 8 = leBytes 8 (8 * m.length) := by
    rw [bits_eq h]
    exact (congrArg (slice _ 0) (leBytes_length 8 _).symm).trans (slice_getD _)
  rw [h1]
  dsimp only
  rw [h2]
  have hmessage : m ++ slice PADDING 0 ((119 - m.length % 64) % 64 + 1) ++
      slice (fun i => (Encode context.count.toList).getD i 0) 0 8 = padded m := by
    rw [slice_PADDING, hbits, padded, List.append_assoc, List.cons_append]
  rw [hmessage] at hholds2
  refine ⟨⟨#v[0, 0, 0, 0], #v[0, 0], poke c2.buffer 0 (List.replicate 64 0)⟩, ?_, rfl, rfl, ?_⟩
  · dsimp only
    rw [hholds2.state, Encode_eq, md5]
  · have hzero := slice_poke c2.buffer 0 (List.replicate 64 0)
    rwa [List.length_replicate] at hzero

/-- **The digest of a message in parts is the digest of the message**, however it is cut, as long as
no part is within 64 bytes of 2^32: the calls return, the digest is that of the standard, and the
context is cleared. -/
theorem digest_eq_md5 (context : MD5_CONTEXT) (parts : List (Bytes × ℕ)) (h : ∀ p ∈ parts, p.2 ≤ 2 ^ 32 - 64) :
    ∃ context', digest context parts = some (md5 (message parts), context') ∧ Zeroized context' := by
  obtain ⟨c, hupdates, hholds⟩ := updates_spec parts h (holds_MD5Init context)
  rw [List.nil_append] at hholds
  rw [digest, hupdates]
  exact MD5Final_spec hholds

theorem digest_eq_md5_two :
    ∃ context', digest ⟨#v[1, 2, 3, 4], #v[5, 6], fun _ => 7⟩ [(fun _ => 8, 100), (fun i => UInt8.ofNat i, 29)] =
        some (md5 (message [(fun _ => 8, 100), (fun i => UInt8.ofNat i, 29)]), context') ∧ Zeroized context' :=
  digest_eq_md5 _ _ (by decide)

end DeviceTools.Md5
