/-
The file encryption of `test_encrypt_c8`.

`BitEncode` and `BitDecode` combine each character of a C string with a key that depends on its
place, up to the NUL at which the string ends.  `FileBitEncrypt` applies the one to the content of
a file and encodes as many bytes as the file has; `FileBitDecrypt` decodes and applies the other.
The buffer of `FileBitEncrypt` is cleared for five bytes only, and what stands behind the content
is arbitrary.  The sizes of the buffers for the results have type `int` and have to be computed, but
that the results fit into them is left out: twice the content is too little for 1, 2 and 4 bytes and
the NUL behind their encoding.  The size of a file is an `int`, and opening, reading and writing the
files and allocating the buffers succeed here.
-/
import DeviceTools.Encrypt.Base64
import DeviceTools.Lib.CText

namespace DeviceTools.Encrypt

open CInt CText

def MAX_LINE_LEN : ℤ := 76

def bitKey : List UInt8 := [1, 2, 3, 4, 5]

/-- `bitKey[i % 5]`. -/
def keyAt (i : ℕ) : UInt8 := (bitKey[i % 5]?).getD 0

def makecodeChar (c key : UInt8) : UInt8 := c ^^^ key
def cutcodeChar (c key : UInt8) : UInt8 := c ^^^ key

/-- The loop of `BitEncode` and of `BitDecode` on the string at `pstr`. -/
def codeString (code : UInt8 → UInt8 → UInt8) (pstr : List UInt8) : List UInt8 :=
  (pstr.take (strlen pstr)).mapIdx (fun i c => code c (keyAt i)) ++ pstr.drop (strlen pstr)

def bitEncode (pstr : List UInt8) : List UInt8 := codeString makecodeChar pstr
def bitDecode (pstr : List UInt8) : List UInt8 := codeString cutcodeChar pstr

/-- What `FileBitEncrypt` writes for a file with the given content, with `behind` in the memory
behind the content.  An empty file is refused. -/
def fileBitEncrypt (content behind : List UInt8) : Option (List UInt8) :=
  if content = [] then none
  else do
    let _dst_len ← asInt (content.length * 2)
    let psrc_buf := bitEncode (content ++ behind)
    let e ← encodeBase64 psrc_buf content.length MAX_LINE_LEN
    some (e.pDst.take e.nDstLen.toNat)

/-- What `FileBitDecrypt` writes for a file with the given content.  The buffer has `iDstLen` bytes,
and is cleared. -/
def fileBitDecrypt (content : List UInt8) : Option (List UInt8) :=
  if content = [] then none
  else do
    let iDstLen ← asInt (content.length * 2)
    let d ← decodeBase64 content content.length
    let pDst := d.pDst ++ List.replicate (iDstLen.toNat - d.pDst.length) 0
    some ((bitDecode pDst).take d.nDstLen.toNat)

/-! ### The code as a map on lists -/

/-- Every character combined with the key at its place. -/
def code (s : List UInt8) : List UInt8 := s.mapIdx fun i c => c ^^^ keyAt i

@[simp] lemma length_code (s : List UInt8) : (code s).length = s.length := List.length_mapIdx

lemma code_getElem? (s : List UInt8) (i : ℕ) : (code s)[i]? = s[i]?.map (· ^^^ keyAt i) :=
  List.getElem?_mapIdx

lemma code_code (s : List UInt8) : code (code s) = s := by
  apply List.ext_getElem?
  intro i
  rw [code_getElem?, code_getElem?, Option.map_map]
  have hid : ((· ^^^ keyAt i) ∘ (· ^^^ keyAt i) : UInt8 → UInt8) = id := by
    funext c
    rw [Function.comp_apply, UInt8.xor_assoc, UInt8.xor_self, UInt8.xor_zero, id]
  rw [hid, Option.map_id, id]

/-- The code makes a NUL of a character that equals the key at its place, and of no other. -/
lemma zero_mem_code {s : List UInt8} : (0 : UInt8) ∈ code s ↔ ∃ i, ∃ h : i < s.length, s[i] = keyAt i := by
  rw [List.mem_iff_getElem?]
  refine exists_congr fun i => ?_
  rw [code_getElem?, Option.map_eq_some_iff]
  constructor
  · rintro ⟨c, hc, hzero⟩
    obtain ⟨hi, rfl⟩ := List.getElem?_eq_some_iff.1 hc
    exact ⟨hi, UInt8.xor_eq_zero_iff.1 hzero⟩
  · rintro ⟨hi, heq⟩
    exact ⟨s[i], List.getElem?_eq_getElem hi, UInt8.xor_eq_zero_iff.2 heq⟩

/-- What is coded behind a string does not change what is coded in it. -/
lemma take_code_append (s t : List UInt8) : (code (s ++ t)).take s.length = code s := by
  rw [code, List.mapIdx_append, List.take_left' List.length_mapIdx, code]

/-- `BitEncode` and `BitDecode` do the same: they code the string and leave the rest. -/
lemma bitEncode_eq (m : List UInt8) : bitEncode m = code (cstr m) ++ m.drop (strlen m) := by
  rw [bitEncode, codeString, take_strlen]
  rfl

lemma bitDecode_eq (m : List UInt8) : bitDecode m = code (cstr m) ++ m.drop (strlen m) := bitEncode_eq m

/-- A content without NUL is coded to its end, whatever is behind it. -/
lemma take_bitEncode {s : List UInt8} (hs : (0 : UInt8) ∉ s) (m : List UInt8) :
    (bitEncode (s ++ m)).take s.length = code s := by
  have hle : s.length ≤ (code (s ++ cstr m)).length := by simp
  rw [bitEncode_eq, cstr_append hs, List.take_append_of_le_length hle, take_code_append]

lemma getElem?_bitDecode_strlen {m : List UInt8} (hm : (0 : UInt8) ∈ m) :
    (bitDecode m)[strlen m]? = some 0 := by
  have hlen : (code (cstr m)).length = strlen m := length_code _
  rw [bitDecode_eq, List.getElem?_append_right hlen.le, hlen, Nat.sub_self, List.getElem?_drop,
    Nat.add_zero, getElem?_strlen hm]

/-- **What is decoded.**  The coded content comes back exactly when there is no NUL in it, at which
`BitDecode` would stop. -/
lemma take_bitDecode_code {s : List UInt8} (hs : (0 : UInt8) ∉ s) (zeros : List UInt8) :
    (bitDecode (code s ++ 0 :: zeros)).take s.length = s ↔ (0 : UInt8) ∉ code s := by
  constructor
  · intro h hzero
    have hlt : strlen (code s ++ 0 :: zeros) < s.length := by
      obtain ⟨hlt, -⟩ := List.getElem?_eq_some_iff.1 (getElem?_strlen hzero)
      rwa [strlen, cstr_append_of_mem hzero, ← length_code s]
    have hget := getElem?_bitDecode_strlen (List.mem_append_left (0 :: zeros) hzero)
    rw [← List.getElem?_take_of_lt hlt, h] at hget
    exact hs (List.mem_of_getElem? hget)
  · intro hzero
    rw [bitDecode_eq, cstr_eq hzero, code_code, List.take_left]

/-- The lines of 76 characters that encode a string. -/
def textOf (s : List UInt8) : List UInt8 := lines (lineGroups MAX_LINE_LEN) 0 s

lemma length_textOf (s : List UInt8) : (textOf s).length = encodedLength s.length MAX_LINE_LEN :=
  length_lines_zero MAX_LINE_LEN s

lemma length_le_textOf (s : List UInt8) : s.length ≤ (textOf s).length := length_le_lines _ 0 s

/-- The buffers of both functions have sizes of type `int` for a content of `n` bytes. -/
def SizesFit (n : ℕ) : Prop := (encodedLength n MAX_LINE_LEN : ℤ) * 2 ≤ INT_MAX

lemma SizesFit.fits {n : ℕ} (h : SizesFit n) : Fits n MAX_LINE_LEN := by
  refine ⟨fun _ => by decide, ?_⟩
  rw [SizesFit] at h
  omega

lemma asInt_mul_two {n : ℕ} (h : (n : ℤ) * 2 ≤ INT_MAX) : asInt ((n : ℤ) * 2) = some ((n : ℤ) * 2) := by
  rw [asInt_of_nonneg (by omega), if_pos h]

lemma encodeBase64_bitEncode {content : List UInt8} (hs : (0 : UInt8) ∉ content) (behind : List UInt8) :
    encodeBase64 (bitEncode (content ++ behind)) content.length MAX_LINE_LEN =
      encodeBase64 (code content) (code content).length MAX_LINE_LEN := by
  rw [encodeBase64, encodeBase64, Int.toNat_natCast, Int.toNat_natCast, take_bitEncode hs, List.take_length]

lemma encodeBase64_textOf {s : List UInt8} (h : Fits s.length MAX_LINE_LEN) :
    encodeBase64 s s.length MAX_LINE_LEN = some ⟨textOf s, (textOf s).length⟩ := by
  rw [encodeBase64_of_fits h, length_textOf, textOf]

/-- **What is written for a content without NUL.** -/
lemma fileBitEncrypt_eq {content : List UInt8} (hne : content ≠ []) (hs : (0 : UInt8) ∉ content)
    (hsize : SizesFit content.length) (behind : List UInt8) :
    fileBitEncrypt content behind = some (textOf (code content)) := by
  have hle := length_le_textOf content
  have hencode := encodeBase64_bitEncode hs behind
  have hfits : Fits (code content).length MAX_LINE_LEN := by
    rw [length_code]
    exact hsize.fits
  rw [encodeBase64_textOf hfits] at hencode
  rw [SizesFit, ← length_textOf] at hsize
  rw [fileBitEncrypt, if_neg hne, asInt_mul_two (by omega)]
  simp only [hencode, Option.bind_eq_bind, Option.bind_some, Int.toNat_natCast, List.take_length]

/-- What is written for an encoded string. -/
lemma fileBitDecrypt_textOf {s : List UInt8} (hne : s ≠ []) (hsize : SizesFit s.length) :
    ∃ zeros, fileBitDecrypt (textOf s) = some ((bitDecode (s ++ 0 :: zeros)).take s.length) := by
  have hpos : 0 < s.length := List.length_pos_iff.2 hne
  have hle := length_le_textOf s
  have htext : textOf s ≠ [] := List.length_pos_iff.1 (hpos.trans_le hle)
  have hdecode : decodeBase64 (textOf s) (textOf s).length = some ⟨s, s.length⟩ := by
    have h := decodeBase64_lines hsize.fits []
    rwa [List.append_nil, ← length_textOf] at h
  rw [SizesFit, ← length_textOf] at hsize
  obtain ⟨n, hn⟩ := Nat.exists_eq_succ_of_ne_zero
    (show ((textOf s).length * 2 : ℤ).toNat - s.length ≠ 0 by omega)
  refine ⟨List.replicate n 0, ?_⟩
  rw [fileBitDecrypt, if_neg htext, asInt_mul_two hsize]
  simp only [hdecode, Option.bind_eq_bind, Option.bind_some, hn, List.replicate_succ, Int.toNat_natCast]

/-- Decrypting what was written for a content without NUL decodes the coded content. -/
lemma fileBitDecrypt_bind {content : List UInt8} (hne : content ≠ []) (hs : (0 : UInt8) ∉ content)
    (hsize : SizesFit content.length) (behind : List UInt8) :
    ∃ zeros, (fileBitEncrypt content behind).bind fileBitDecrypt =
      some ((bitDecode (code content ++ 0 :: zeros)).take content.length) := by
  have hcode : code content ≠ [] := by
    rw [← List.length_pos_iff, length_code]
    exact List.length_pos_iff.2 hne
  have hsize' : SizesFit (code content).length := by rwa [length_code]
  obtain ⟨zeros, hzeros⟩ := fileBitDecrypt_textOf hcode hsize'
  refine ⟨zeros, ?_⟩
  rw [fileBitEncrypt_eq hne hs hsize, Option.bind_some, hzeros, length_code]

/-- A content whose encoding is too long is not written, or cannot be read back. -/
lemma bind_eq_none {content : List UInt8} (hne : content ≠ []) (hs : (0 : UInt8) ∉ content)
    (hsize : ¬SizesFit content.length) (behind : List UInt8) :
    (fileBitEncrypt content behind).bind fileBitDecrypt = none := by
  cases hwritten : fileBitEncrypt content behind with
  | none => rfl
  | some text =>
      -- the text is that of the coded content, and twice its length is no `int`
      rw [fileBitEncrypt, if_neg hne] at hwritten
      simp only [Option.bind_eq_bind, Option.bind_eq_some_iff, Option.some_inj] at hwritten
      obtain ⟨-, -, e, hencode, rfl⟩ := hwritten
      rw [encodeBase64_bitEncode hs] at hencode
      by_cases hfits : Fits (code content).length MAX_LINE_LEN
      · rw [encodeBase64_textOf hfits, Option.some_inj] at hencode
        subst hencode
        rw [SizesFit, ← length_code content, ← length_textOf, not_le] at hsize
        rw [Option.bind_some, Int.toNat_natCast, List.take_length, fileBitDecrypt, asInt_of_lt hsize]
        exact ite_self none
      · rw [encodeBase64_of_not_fits hfits] at hencode
        cases hencode

end DeviceTools.Encrypt
