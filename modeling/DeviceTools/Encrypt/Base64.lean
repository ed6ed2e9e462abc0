/-
The Base64 stage of the file encryption.

`EncodeBase64` writes four characters for every three bytes and a line break behind a group when
the line has become as long as it may be; one or two bytes that are left are written as a padded
group, behind which there is no line break.  `DecodeBase64` counts the characters it has dealt with
in `i` and reads through the pointer `pSrc`, and the two part at a padded group: the pointer stops
in front of the padding, while `i` is stepped over it.  All counters have type `int`, and a counter
that overflows has no result.
-/
import DeviceTools.Lib.Base64
import DeviceTools.Lib.CInt

namespace DeviceTools.Encrypt

open CInt

def CR : UInt8 := 0x0D
def LF : UInt8 := 0x0A

/-- The character `=`. -/
def PAD : UInt8 := 0x3D

def EnBase64Tab : List UInt8 :=
  "ABCDEFGHIJKLMNOPQRSTUVWXYZabcdefghijklmnopqrstuvwxyz0123456789+/".toList.map
    fun c => UInt8.ofNat c.toNat

def DeBase64Tab : List ℕ :=
  [0, 0, 0, 0, 0, 0, 0, 0, 0, 0, 0, 0, 0, 0, 0, 0, 0,
   0, 0, 0, 0, 0, 0, 0, 0, 0, 0, 0, 0, 0, 0, 0, 0, 0, 0, 0, 0, 0, 0, 0, 0,
   0, 0,
   62,
   0, 0, 0,
   63,
   52, 53, 54, 55, 56, 57, 58, 59, 60,
   61,
   0, 0, 0, 0, 0, 0, 0, 0, 1, 2, 3, 4, 5, 6, 7, 8, 9, 10, 11, 12, 13, 14,
   15, 16, 17, 18, 19, 20, 21, 22, 23, 24,
   25,
   0, 0, 0, 0, 0, 0, 26, 27, 28, 29, 30, 31, 32, 33, 34, 35, 36, 37, 38,
   39, 40, 41, 42, 43, 44, 45, 46, 47, 48, 49, 50, 51]

/-! ### The encoder -/

/-- `EnBase64Tab[n]`. -/
def en (n : ℕ) : UInt8 := (EnBase64Tab[n]?).getD 0

/-- What `EncodeBase64` leaves: the characters written, without the terminator behind them, and
the number that it returns. -/
structure Encoded where
  pDst : List UInt8
  nDstLen : ℤ
deriving DecidableEq, Repr

/-- The characters of three bytes. -/
def encodeGroup (c1 c2 c3 : UInt8) : List UInt8 :=
  [en (c1.toNat >>> 2), en (((c1.toNat <<< 4) ||| (c2.toNat >>> 4)) &&& 0x3f),
   en (((c2.toNat <<< 2) ||| (c3.toNat >>> 6)) &&& 0x3f), en (c3.toNat &&& 0x3f)]

/-- `EncodeBase64` with the bytes from `pSrc` on: the loop on the `nDiv` groups of three bytes, and
the `nMod` bytes that are left. -/
def encodeFrom (nMaxLineLen : ℤ) : ℤ → ℤ → List UInt8 → Option Encoded
  | nLineLen, nDstLen, c1 :: c2 :: c3 :: pSrc => do
      let nLineLen ← asInt (nLineLen + 4)
      let nDstLen ← asInt (nDstLen + 4)
      let limit ← asInt (nMaxLineLen - 4)
      if limit < nLineLen then
        let nDstLen ← asInt (nDstLen + 2)
        let r ← encodeFrom nMaxLineLen 0 nDstLen pSrc
        some ⟨encodeGroup c1 c2 c3 ++ CR :: LF :: r.pDst, r.nDstLen⟩
      else
        let r ← encodeFrom nMaxLineLen nLineLen nDstLen pSrc
        some ⟨encodeGroup c1 c2 c3 ++ r.pDst, r.nDstLen⟩
  | _, nDstLen, [c1, c2] => do
      let nDstLen ← asInt (nDstLen + 4)
      some ⟨[en ((c1.toNat &&& 0xfc) >>> 2), en (((c1.toNat &&& 0x03) <<< 4) ||| ((c2.toNat &&& 0xf0) >>> 4)),
        en ((c2.toNat &&& 0x0f) <<< 2), PAD], nDstLen⟩
  | nLineLen, nDstLen, [c1] => do
      let _ ← asInt (nLineLen + 4)
      let nDstLen ← asInt (nDstLen + 4)
      some ⟨[en ((c1.toNat &&& 0xfc) >>> 2), en ((c1.toNat &&& 0x03) <<< 4), PAD, PAD], nDstLen⟩
  | _, nDstLen, [] => some ⟨[], nDstLen⟩

/-- `EncodeBase64`. -/
def encodeBase64 (pSrc : List UInt8) (nSrcLen nMaxLineLen : ℤ) : Option Encoded :=
  encodeFrom nMaxLineLen 0 0 (pSrc.take nSrcLen.toNat)

lemma EnBase64Tab_eq : EnBase64Tab = Base64.alphabet := by decide +kernel

lemma en_eq_digit {n : ℕ} (h : n < 64) : en n = Base64.digit n := by
  rw [en, EnBase64Tab_eq, Base64.getD_alphabet h]

/-- The masks and shifts of the encoder give the numbers of six bits. -/
lemma encodeGroup_eq (c1 c2 c3 : UInt8) :
    encodeGroup c1 c2 c3 = Base64.encode [c1, c2, c3] := by
  have h1 : c1.toNat >>> 2 = Base64.first c1 := Base64.shiftRight_first c1
  have h2 : ((c1.toNat <<< 4) ||| (c2.toNat >>> 4)) &&& 0x3f = Base64.second c1 c2 := by
    rw [Base64.shiftLeft_or (Base64.shiftRight_lt c2 rfl), Nat.and_two_pow_sub_one_eq_mod _ 6,
      Nat.shiftRight_eq_div_pow, Base64.second]
    have := c2.toNat_lt
    omega
  have h3 : ((c2.toNat <<< 2) ||| (c3.toNat >>> 6)) &&& 0x3f = Base64.third c2 c3 := by
    rw [Base64.shiftLeft_or (Base64.shiftRight_lt c3 rfl), Nat.and_two_pow_sub_one_eq_mod _ 6,
      Nat.shiftRight_eq_div_pow, Base64.third]
    have := c3.toNat_lt
    omega
  have h4 : c3.toNat &&& 0x3f = Base64.fourth c3 := Base64.and_fourth c3
  rw [encodeGroup, h1, h2, h3, h4, en_eq_digit (Base64.first_lt c1), en_eq_digit (Base64.second_lt c1 c2),
    en_eq_digit (Base64.third_lt c2 c3), en_eq_digit (Base64.fourth_lt c3)]
  rfl

lemma first_of_masks (c : UInt8) : (c.toNat &&& 0xfc) >>> 2 = Base64.first c := by
  rw [Nat.shiftRight_and_distrib, Nat.shiftRight_eq_div_pow, show 0xfc >>> 2 = 2 ^ 6 - 1 from rfl,
    Nat.and_two_pow_sub_one_eq_mod, Base64.first]
  have := c.toNat_lt
  omega

lemma second_of_masks (c1 c2 : UInt8) :
    ((c1.toNat &&& 0x03) <<< 4) ||| ((c2.toNat &&& 0xf0) >>> 4) = Base64.second c1 c2 := by
  have hmask : (c2.toNat &&& 0xf0) >>> 4 = c2.toNat >>> 4 := by
    rw [Nat.shiftRight_and_distrib, show 0xf0 >>> 4 = 2 ^ 4 - 1 from rfl, Nat.and_two_pow_sub_one_eq_mod]
    exact Nat.mod_eq_of_lt (Base64.shiftRight_lt c2 rfl)
  rw [hmask, Base64.or_second]

lemma third_of_masks (c : UInt8) : (c.toNat &&& 0x0f) <<< 2 = Base64.third c 0 := by
  rw [Nat.and_two_pow_sub_one_eq_mod _ 4, Nat.shiftLeft_eq]
  rfl

/-- The last group, of two bytes or of one. -/
lemma encodeFrom_two (nMaxLineLen nLineLen nDstLen : ℤ) (c1 c2 : UInt8) :
    encodeFrom nMaxLineLen nLineLen nDstLen [c1, c2] =
      (asInt (nDstLen + 4)).map fun n => ⟨Base64.encode [c1, c2], n⟩ := by
  rw [encodeFrom, first_of_masks, second_of_masks, third_of_masks, en_eq_digit (Base64.first_lt c1),
    en_eq_digit (Base64.second_lt c1 c2), en_eq_digit (Base64.third_lt c2 0), Base64.encode]
  cases asInt (nDstLen + 4) <;> rfl

lemma encodeFrom_one (nMaxLineLen nLineLen nDstLen : ℤ) (c : UInt8) :
    encodeFrom nMaxLineLen nLineLen nDstLen [c] =
      (asInt (nLineLen + 4)).bind fun _ => (asInt (nDstLen + 4)).map fun n => ⟨Base64.encode [c], n⟩ := by
  have h2 : (c.toNat &&& 0x03) <<< 4 = Base64.second c 0 := by
    simpa using second_of_masks c 0
  rw [encodeFrom, first_of_masks, h2, en_eq_digit (Base64.first_lt c), en_eq_digit (Base64.second_lt c 0),
    Base64.encode]
  cases asInt (nLineLen + 4) <;> cases asInt (nDstLen + 4) <;> rfl

/-! ### Lines -/

/-- The encoding of RFC 4648 with a line break behind `n` whole groups, when `k` of them are in the
line already. -/
def lines (n : ℕ) : ℕ → List UInt8 → List UInt8
  | k, a :: b :: c :: s =>
      if k + 1 < n then Base64.encode [a, b, c] ++ lines n (k + 1) s
      else Base64.encode [a, b, c] ++ CR :: LF :: lines n 0 s
  | _, [a, b] => Base64.encode [a, b]
  | _, [a] => Base64.encode [a]
  | _, [] => []

/-- The number of groups in a line; there is always one. -/
def lineGroups (nMaxLineLen : ℤ) : ℕ := max 1 (nMaxLineLen / 4).toNat

/-- The number of characters that `n` bytes are written as, line breaks included. -/
def encodedLength (n : ℕ) (nMaxLineLen : ℤ) : ℕ := 4 * ((n + 2) / 3) + 2 * (n / 3 / lineGroups nMaxLineLen)

lemma length_lines {n : ℕ} (hn : 0 < n) (k : ℕ) (s : List UInt8) (hk : k < n) :
    (lines n k s).length = 4 * ((s.length + 2) / 3) + 2 * ((k + s.length / 3) / n) := by
  have hfour (a b c : UInt8) : (Base64.encode [a, b, c]).length = 4 := rfl
  have hthree (a b c : UInt8) (s : List UInt8) : (a :: b :: c :: s).length = s.length + 3 := rfl
  have hdiv (m : ℕ) : (m + 3) / 3 = m / 3 + 1 := Nat.add_div_right m (by decide)
  induction k, s using lines.induct n with
  | case1 k a b c s h ih =>
      rw [lines, if_pos h, List.length_append, ih h, hfour, hthree, hdiv, hdiv, Nat.add_right_comm k 1,
        Nat.add_assoc k]
      omega
  | case2 k a b c s h ih =>
      -- the line is full
      obtain rfl : n = k + 1 := by omega
      rw [lines, if_neg h, List.length_append, List.length_cons, List.length_cons, ih hn, hfour, hthree, hdiv,
        hdiv, show k + (s.length / 3 + 1) = s.length / 3 + (k + 1) by omega,
        Nat.add_div_right _ hn, Nat.zero_add]
      omega
  | case3 k a b =>
      rw [lines, Base64.length_encode]
      simp [Nat.div_eq_of_lt hk]
  | case4 k a =>
      rw [lines, Base64.length_encode]
      simp [Nat.div_eq_of_lt hk]
  | case5 k => simp [lines, Nat.div_eq_of_lt hk]

lemma lineGroups_pos (nMaxLineLen : ℤ) : 0 < lineGroups nMaxLineLen := lt_max_of_lt_left Nat.one_pos

lemma length_lines_zero (nMaxLineLen : ℤ) (s : List UInt8) :
    (lines (lineGroups nMaxLineLen) 0 s).length = encodedLength s.length nMaxLineLen := by
  rw [length_lines (lineGroups_pos nMaxLineLen) 0 s (lineGroups_pos nMaxLineLen), Nat.zero_add, encodedLength]

lemma limit_lt_iff (nMaxLineLen : ℤ) (k : ℕ) :
    nMaxLineLen - 4 < 4 * (k : ℤ) + 4 ↔ ¬k + 1 < lineGroups nMaxLineLen := by
  rw [lineGroups]
  omega

/-- `nMaxLineLen - 4` is computed if there is a whole group. -/
def LimitFits (n : ℕ) (nMaxLineLen : ℤ) : Prop :=
  3 ≤ n → INT_MIN ≤ nMaxLineLen - 4 ∧ nMaxLineLen - 4 ≤ INT_MAX

/-- A whole group, if its characters can be counted. -/
lemma encodeFrom_three {nMaxLineLen nDstLen : ℤ} {k : ℕ} {a b c : UInt8} {s : List UInt8}
    (hlimit : LimitFits (a :: b :: c :: s).length nMaxLineLen) (hle : 4 * (k : ℤ) ≤ nDstLen)
    (hfits : nDstLen + 4 ≤ INT_MAX) :
    encodeFrom nMaxLineLen (4 * k) nDstLen (a :: b :: c :: s) =
      if k + 1 < lineGroups nMaxLineLen then
        (encodeFrom nMaxLineLen (4 * (k + 1 : ℕ)) (nDstLen + 4) s).map fun r =>
          ⟨Base64.encode [a, b, c] ++ r.pDst, r.nDstLen⟩
      else (asInt (nDstLen + 4 + 2)).bind fun n => (encodeFrom nMaxLineLen (4 * (0 : ℕ)) n s).map fun r =>
        ⟨Base64.encode [a, b, c] ++ CR :: LF :: r.pDst, r.nDstLen⟩ := by
  have hlim : asInt (nMaxLineLen - 4) = some (nMaxLineLen - 4) := if_pos (hlimit (Nat.le_add_left 3 _))
  have hnext : 4 * (k : ℤ) + 4 = 4 * (k + 1 : ℕ) := by
    push_cast
    ring
  rw [encodeFrom, asInt_of_le (show 0 ≤ 4 * (k : ℤ) + 4 by omega) (by omega), asInt_of_le (by omega) hfits, hlim]
  simp only [Option.bind_eq_bind, Option.bind_some, encodeGroup_eq]
  by_cases h : k + 1 < lineGroups nMaxLineLen
  · rw [if_neg fun hc => (limit_lt_iff nMaxLineLen k).1 hc h, if_pos h, hnext]
    exact Option.map_eq_bind.symm
  · rw [if_pos ((limit_lt_iff nMaxLineLen k).2 h), if_neg h]
    refine Option.bind_congr fun n _ => ?_
    exact Option.map_eq_bind.symm

/-- A group whose characters cannot be counted. -/
lemma encodeFrom_overflow {nMaxLineLen nLineLen nDstLen : ℤ} {s : List UInt8} (hne : s ≠ [])
    (h : INT_MAX < nDstLen + 4) : encodeFrom nMaxLineLen nLineLen nDstLen s = none := by
  have hnone := asInt_of_lt h
  rcases s with _ | ⟨a, _ | ⟨b, _ | ⟨c, s⟩⟩⟩
  · exact absurd rfl hne
  · rw [encodeFrom_one, hnone]
    cases asInt (nLineLen + 4) <;> rfl
  · rw [encodeFrom_two, hnone]
    rfl
  · rw [encodeFrom, hnone]
    cases asInt (nLineLen + 4) <;> rfl

/-- **What the encoder writes**, if the number of characters is an `int`. -/
lemma encodeFrom_eq (nMaxLineLen : ℤ) (k : ℕ) (s : List UInt8) (hlimit : LimitFits s.length nMaxLineLen) :
    ∀ nDstLen : ℤ, 4 * (k : ℤ) ≤ nDstLen → nDstLen ≤ INT_MAX → encodeFrom nMaxLineLen (4 * k) nDstLen s =
      if nDstLen + (lines (lineGroups nMaxLineLen) k s).length ≤ INT_MAX then
        some ⟨lines (lineGroups nMaxLineLen) k s, nDstLen + (lines (lineGroups nMaxLineLen) k s).length⟩
      else none := by
  induction k, s using lines.induct (lineGroups nMaxLineLen) with
  | case1 k a b c s h ih =>
      intro nDstLen hle hmax
      have hrest : LimitFits s.length nMaxLineLen := fun _ => hlimit (Nat.le_add_left 3 _)
      have hlen : ((lines (lineGroups nMaxLineLen) k (a :: b :: c :: s)).length : ℤ) =
          4 + (lines (lineGroups nMaxLineLen) (k + 1) s).length := by
        rw [lines, if_pos h, List.length_append, Nat.cast_add]
        rfl
      by_cases hfits : nDstLen + 4 ≤ INT_MAX
      · rw [encodeFrom_three hlimit hle hfits, if_pos h, ih hrest _ (by push_cast; omega) hfits, hlen,
          ← Int.add_assoc, lines, if_pos h]
        split_ifs <;> rfl
      · rw [encodeFrom_overflow (List.cons_ne_nil _ _) (not_le.1 hfits), if_neg (by omega)]
  | case2 k a b c s h ih =>
      intro nDstLen hle hmax
      have hrest : LimitFits s.length nMaxLineLen := fun _ => hlimit (Nat.le_add_left 3 _)
      have hlen : ((lines (lineGroups nMaxLineLen) k (a :: b :: c :: s)).length : ℤ) =
          4 + 2 + (lines (lineGroups nMaxLineLen) 0 s).length := by
        rw [lines, if_neg h, List.length_append, List.length_cons, List.length_cons]
        have hfour : (Base64.encode [a, b, c]).length = 4 := rfl
        rw [hfour]
        push_cast
        ring
      by_cases hfits : nDstLen + 4 ≤ INT_MAX
      · rw [encodeFrom_three hlimit hle hfits, if_neg h, asInt_of_nonneg (by omega)]
        by_cases hbreak : nDstLen + 4 + 2 ≤ INT_MAX
        · rw [if_pos hbreak, Option.bind_some, ih hrest _ (by push_cast; omega) hbreak, hlen,
            ← Int.add_assoc, ← Int.add_assoc, lines, if_neg h]
          split_ifs <;> rfl
        · rw [if_neg hbreak, Option.bind_none, if_neg (by omega)]
      · rw [encodeFrom_overflow (List.cons_ne_nil _ _) (not_le.1 hfits), if_neg (by omega)]
  | case3 k a b =>
      intro nDstLen hle _
      have hlen : (Base64.encode [a, b]).length = 4 := rfl
      rw [encodeFrom_two, lines, hlen, asInt_of_nonneg (by omega), Nat.cast_ofNat]
      split_ifs <;> rfl
  | case4 k a =>
      intro nDstLen hle _
      have hlen : (Base64.encode [a]).length = 4 := rfl
      rw [encodeFrom_one, lines, hlen, asInt_of_nonneg (show 0 ≤ nDstLen + 4 by omega), Nat.cast_ofNat]
      split_ifs with hfits
      · rw [asInt_of_le (by omega) (by omega)]
        rfl
      · cases asInt (4 * (k : ℤ) + 4) <;> rfl
  | case5 k =>
      intro nDstLen _ hmax
      rw [encodeFrom, lines, List.length_nil, Nat.cast_zero, Int.add_zero, if_pos hmax]

/-! ### The decoder -/

/-- `DeBase64Tab[c]`.  Outside of the table there is no result. -/
def de (c : UInt8) : Option ℕ := DeBase64Tab[c.toNat]?

/-- What `DecodeBase64` leaves: the bytes written, without the terminator, and the number that it
returns. -/
structure Decoded where
  pDst : List UInt8
  nDstLen : ℤ
deriving DecidableEq, Repr

/-- The three bytes of `nValue`. -/
def high (nValue : ℕ) : UInt8 := UInt8.ofNat ((nValue &&& 0x00ff0000) >>> 16)
def middle (nValue : ℕ) : UInt8 := UInt8.ofNat ((nValue &&& 0x0000ff00) >>> 8)
def low (nValue : ℕ) : UInt8 := UInt8.ofNat (nValue &&& 0x000000ff)

/-- One group: the bytes written, and the text from the pointer on.  A read behind the text has no
result. -/
def decodeGroup : List UInt8 → Option (List UInt8 × List UInt8)
  | x1 :: x2 :: x3 :: pSrc => do
      let v1 ← de x1
      let v2 ← de x2
      let nValue := v1 <<< 18 + v2 <<< 12
      if x3 = PAD then some ([high nValue], x3 :: pSrc)
      else
        let v3 ← de x3
        let nValue' := nValue + v3 <<< 6
        match pSrc with
        | [] => none
        | x4 :: pSrc' =>
            if x4 = PAD then some ([high nValue, middle nValue'], x4 :: pSrc')
            else
              let v4 ← de x4
              some ([high nValue, middle nValue', low (nValue' + v4)], pSrc')
  | _ => none

/-- The loop of `DecodeBase64`. -/
def decodeFrom (nSrcLen i nDstLen : ℤ) (pSrc : List UInt8) : Option Decoded :=
  if i < nSrcLen then
    match pSrc with
    | [] => none
    | c :: pSrc' =>
        if c ≠ CR ∧ c ≠ LF then
          match decodeGroup (c :: pSrc') with
          | none => none
          | some (bytes, next) =>
              if INT_MAX < nDstLen + bytes.length ∨ INT_MAX < i + 4 then none
              else (decodeFrom nSrcLen (i + 4) (nDstLen + bytes.length) next).map fun r =>
                ⟨bytes ++ r.pDst, r.nDstLen⟩
        else if INT_MAX < i + 1 then none
        else decodeFrom nSrcLen (i + 1) nDstLen pSrc'
  else some ⟨[], nDstLen⟩
termination_by (nSrcLen - i).toNat

/-- `DecodeBase64`. -/
def decodeBase64 (pSrc : List UInt8) (nSrcLen : ℤ) : Option Decoded := decodeFrom nSrcLen 0 0 pSrc

/-! ### What the decoder makes of a group -/

/-- The table of the decoder along the alphabet. -/
lemma map_de : Base64.alphabet.map de = (List.range 64).map some := by decide +kernel

lemma de_digit {n : ℕ} (h : n < 64) : de (Base64.digit n) = some n := by
  have hlen : n < Base64.alphabet.length := h
  have hplace := congrArg (fun l => l[n]?) map_de
  simp only [List.getElem?_map, List.getElem?_range h, List.getElem?_eq_getElem hlen, Option.map_some] at hplace
  rw [Base64.digit, List.getElem?_eq_getElem hlen, Option.getD_some]
  exact Option.some_inj.1 hplace

/-- Padding and line breaks are no characters of the alphabet. -/
lemma alphabet_ne : ∀ c ∈ Base64.alphabet, c ≠ PAD ∧ c ≠ CR ∧ c ≠ LF := by
  have hall : PAD ∉ Base64.alphabet ∧ CR ∉ Base64.alphabet ∧ LF ∉ Base64.alphabet := by decide +kernel
  intro c hc
  refine ⟨?_, ?_, ?_⟩ <;> rintro rfl
  · exact hall.1 hc
  · exact hall.2.1 hc
  · exact hall.2.2 hc

lemma digit_ne {n : ℕ} (h : n < 64) :
    Base64.digit n ≠ PAD ∧ Base64.digit n ≠ CR ∧ Base64.digit n ≠ LF :=
  Base64.digit_of_forall alphabet_ne h

lemma high_eq (n : ℕ) : high n = UInt8.ofNat (n / 2 ^ 16) := by
  rw [high, Nat.shiftRight_and_distrib, show 0x00ff0000 >>> 16 = 2 ^ 8 - 1 from rfl,
    Nat.and_two_pow_sub_one_eq_mod, Nat.shiftRight_eq_div_pow]
  exact UInt8.ofNat_mod_size

lemma middle_eq (n : ℕ) : middle n = UInt8.ofNat (n / 2 ^ 8) := by
  rw [middle, Nat.shiftRight_and_distrib, show 0x0000ff00 >>> 8 = 2 ^ 8 - 1 from rfl,
    Nat.and_two_pow_sub_one_eq_mod, Nat.shiftRight_eq_div_pow]
  exact UInt8.ofNat_mod_size

lemma low_eq (n : ℕ) : low n = UInt8.ofNat n := by
  rw [low, show 0x000000ff = 2 ^ 8 - 1 from rfl, Nat.and_two_pow_sub_one_eq_mod]
  exact UInt8.ofNat_mod_size

/-- The first byte comes from the first two numbers, whatever the second byte is. -/
lemma high_group (a b : UInt8) :
    high (Base64.first a <<< 18 + Base64.second a b <<< 12) = a := by
  have hn : (Base64.first a <<< 18 + Base64.second a b <<< 12) / 2 ^ 16 = a.toNat := by
    have hb := b.toNat_lt
    simp only [Base64.first, Base64.second, Nat.shiftLeft_eq]
    omega
  rw [high_eq, hn, UInt8.ofNat_toNat]

lemma middle_group (a b c : UInt8) :
    middle (Base64.first a <<< 18 + Base64.second a b <<< 12 + Base64.third b c <<< 6) = b := by
  have hn : (Base64.first a <<< 18 + Base64.second a b <<< 12 + Base64.third b c <<< 6) / 2 ^ 8 =
      b.toNat + 256 * a.toNat := by
    have hc := c.toNat_lt
    simp only [Base64.first, Base64.second, Base64.third, Nat.shiftLeft_eq]
    omega
  rw [middle_eq, hn]
  simp

lemma low_group (a b c : UInt8) :
    low (Base64.first a <<< 18 + Base64.second a b <<< 12 + Base64.third b c <<< 6 + Base64.fourth c) = c := by
  have hn : Base64.first a <<< 18 + Base64.second a b <<< 12 + Base64.third b c <<< 6 + Base64.fourth c =
      a.toNat * 2 ^ 16 + b.toNat * 2 ^ 8 + c.toNat := by
    rw [← Base64.group_number a b c, Nat.shiftLeft_eq, Nat.shiftLeft_eq, Nat.shiftLeft_eq]
  rw [low_eq, hn, show a.toNat * 2 ^ 16 + b.toNat * 2 ^ 8 + c.toNat =
    c.toNat + 256 * (a.toNat * 2 ^ 8 + b.toNat) by ring]
  simp

lemma decodeGroup_three (a b c : UInt8) (rest : List UInt8) :
    decodeGroup (Base64.encode [a, b, c] ++ rest) = some ([a, b, c], rest) := by
  have h3 := (digit_ne (Base64.third_lt b c)).1
  have h4 := (digit_ne (Base64.fourth_lt c)).1
  simp only [Base64.encode, List.cons_append, List.nil_append, decodeGroup, de_digit (Base64.first_lt a),
    de_digit (Base64.second_lt a b), de_digit (Base64.third_lt b c), de_digit (Base64.fourth_lt c),
    Option.bind_eq_bind, Option.bind_some, if_neg h3, if_neg h4, high_group, middle_group, low_group]

/-- Behind a padded group the pointer stands on the padding. -/
lemma decodeGroup_two (a b : UInt8) (rest : List UInt8) :
    decodeGroup (Base64.encode [a, b] ++ rest) = some ([a, b], PAD :: rest) := by
  have h3 := (digit_ne (Base64.third_lt b 0)).1
  simp only [Base64.encode, List.cons_append, List.nil_append, decodeGroup, de_digit (Base64.first_lt a),
    de_digit (Base64.second_lt a b), de_digit (Base64.third_lt b 0),
    Option.bind_eq_bind, Option.bind_some, if_neg h3, high_group, middle_group]
  rfl

lemma decodeGroup_one (a : UInt8) (rest : List UInt8) :
    decodeGroup (Base64.encode [a] ++ rest) = some ([a], PAD :: PAD :: rest) := by
  simp only [Base64.encode, List.cons_append, List.nil_append, decodeGroup, de_digit (Base64.first_lt a),
    de_digit (Base64.second_lt a 0), Option.bind_eq_bind, Option.bind_some, high_group]
  rfl

/-! ### The round trip -/

/-- No character of an encoding is a character of a line break. -/
lemma encode_ne (s : List UInt8) : ∀ c ∈ Base64.encode s, c ≠ CR ∧ c ≠ LF :=
  Base64.forall_encode (fun c hc => (alphabet_ne c hc).2) (by decide) s

lemma head_encode {s : List UInt8} (hs : s ≠ []) (rest : List UInt8) :
    ∀ c ∈ (Base64.encode s ++ rest).head?, c ≠ CR ∧ c ≠ LF := by
  have hne : Base64.encode s ≠ [] := by
    intro h
    have hlen := Base64.length_encode s
    have hpos := List.length_pos_iff.2 hs
    rw [h, List.length_nil] at hlen
    omega
  intro c hc
  rw [List.head?_append_of_ne_nil _ hne] at hc
  exact encode_ne s c (List.mem_of_mem_head? hc)

lemma filter_encode (s : List UInt8) :
    (Base64.encode s).filter (fun c => c ≠ CR ∧ c ≠ LF) = Base64.encode s :=
  List.filter_eq_self.2 fun c hc => decide_eq_true (encode_ne s c hc)

/-- Without the line breaks the lines are the encoding of RFC 4648. -/
lemma lines_filter (n k : ℕ) (s : List UInt8) :
    (lines n k s).filter (fun c => c ≠ CR ∧ c ≠ LF) = Base64.encode s := by
  induction k, s using lines.induct n with
  | case1 k a b c s h ih =>
      rw [lines, if_pos h, List.filter_append, filter_encode, ih]
      rfl
  | case2 k a b c s h ih =>
      rw [lines, if_neg h, List.filter_append, filter_encode, List.filter_cons_of_neg (by decide),
        List.filter_cons_of_neg (by decide), ih]
      rfl
  | case3 k a b => rw [lines, filter_encode]
  | case4 k a => rw [lines, filter_encode]
  | case5 => rfl

/-- There are at least as many characters as bytes. -/
lemma length_le_lines (n k : ℕ) (s : List UInt8) : s.length ≤ (lines n k s).length := by
  have hfilter := List.length_filter_le (fun c => decide (c ≠ CR ∧ c ≠ LF)) (lines n k s)
  rw [lines_filter, Base64.length_encode] at hfilter
  omega

lemma decodeFrom_done {nSrcLen i : ℤ} (h : nSrcLen ≤ i) (nDstLen : ℤ) (pSrc : List UInt8) :
    decodeFrom nSrcLen i nDstLen pSrc = some ⟨[], nDstLen⟩ := by
  rw [decodeFrom.eq_def, if_neg (not_lt.2 h)]

/-- A character of a line break is skipped. -/
lemma decodeFrom_skip {nSrcLen i nDstLen : ℤ} (h : i < nSrcLen) (hmax : nSrcLen ≤ INT_MAX) {c : UInt8}
    (hc : c = CR ∨ c = LF) (pSrc : List UInt8) :
    decodeFrom nSrcLen i nDstLen (c :: pSrc) = decodeFrom nSrcLen (i + 1) nDstLen pSrc := by
  have hnot : ¬(c ≠ CR ∧ c ≠ LF) := by
    rintro ⟨hcr, hlf⟩
    exact hc.elim hcr hlf
  have hfits : ¬INT_MAX < i + 1 := by omega
  rw [decodeFrom.eq_def, if_pos h]
  exact (if_neg hnot).trans (if_neg hfits)

/-- A group is decoded, and four characters are counted. -/
lemma decodeFrom_group {nSrcLen i nDstLen : ℤ} (h : i < nSrcLen) {pSrc bytes next : List UInt8}
    (hc : ∀ c ∈ pSrc.head?, c ≠ CR ∧ c ≠ LF) (hgroup : decodeGroup pSrc = some (bytes, next))
    (hfits : nDstLen + bytes.length ≤ INT_MAX ∧ i + 4 ≤ INT_MAX) {r : Decoded}
    (hr : decodeFrom nSrcLen (i + 4) (nDstLen + bytes.length) next = some r) :
    decodeFrom nSrcLen i nDstLen pSrc = some ⟨bytes ++ r.pDst, r.nDstLen⟩ := by
  cases pSrc with
  | nil => exact absurd hgroup (by simp [decodeGroup])
  | cons c pSrc =>
      have hnot : ¬(INT_MAX < nDstLen + bytes.length ∨ INT_MAX < i + 4) := by omega
      rw [decodeFrom.eq_def, if_pos h]
      simp only [if_pos (hc c rfl), hgroup, if_neg hnot, hr, Option.map_some]

/-- **The invariant of the round trip.**  Wherever the loop stands with `i`, and whatever is behind
the text, it decodes what the encoder wrote for the rest of the bytes. -/
lemma decodeFrom_lines (n k : ℕ) (s : List UInt8) : ∀ (i nDstLen : ℤ) (rest : List UInt8), nDstLen ≤ i →
    i + (lines n k s).length ≤ INT_MAX →
    decodeFrom (i + (lines n k s).length) i nDstLen (lines n k s ++ rest) = some ⟨s, nDstLen + s.length⟩ := by
  induction k, s using lines.induct n with
  | case1 k a b c s h ih =>
      intro i nDstLen rest hle hmax
      have hlen : ((lines n k (a :: b :: c :: s)).length : ℤ) = 4 + (lines n (k + 1) s).length := by
        rw [lines, if_pos h, List.length_append, Nat.cast_add]
        rfl
      rw [hlen, ← Int.add_assoc] at hmax ⊢
      have hnext := ih (i + 4) (nDstLen + 3) rest (by omega) hmax
      rw [lines, if_pos h, List.append_assoc, decodeFrom_group (by omega) (head_encode (List.cons_ne_nil _ _) _)
        (decodeGroup_three a b c _) ⟨by show nDstLen + 3 ≤ INT_MAX; omega, by omega⟩ hnext]
      simp only [List.length_cons, List.cons_append, List.nil_append]
      congr 2
      push_cast
      ring
  | case2 k a b c s h ih =>
      intro i nDstLen rest hle hmax
      have hlen : ((lines n k (a :: b :: c :: s)).length : ℤ) = 4 + 1 + 1 + (lines n 0 s).length := by
        rw [lines, if_neg h, List.length_append, List.length_cons, List.length_cons]
        have hfour : (Base64.encode [a, b, c]).length = 4 := rfl
        rw [hfour]
        push_cast
        ring
      rw [hlen, ← Int.add_assoc, ← Int.add_assoc, ← Int.add_assoc] at hmax ⊢
      have hnext := ih (i + 4 + 1 + 1) (nDstLen + 3) rest (by omega) hmax
      have hbreak : decodeFrom (i + 4 + 1 + 1 + (lines n 0 s).length) (i + 4) (nDstLen + 3)
          (CR :: LF :: lines n 0 s ++ rest) = some ⟨s, nDstLen + 3 + s.length⟩ := by
        rw [List.cons_append, List.cons_append, decodeFrom_skip (by omega) hmax (Or.inl rfl),
          decodeFrom_skip (by omega) hmax (Or.inr rfl), hnext]
      rw [lines, if_neg h, List.append_assoc, decodeFrom_group (by omega) (head_encode (List.cons_ne_nil _ _) _)
        (decodeGroup_three a b c _) ⟨by show nDstLen + 3 ≤ INT_MAX; omega, by omega⟩ hbreak]
      simp only [List.length_cons, List.cons_append, List.nil_append]
      congr 2
      push_cast
      ring
  | case3 k a b =>
      intro i nDstLen rest hle hmax
      have hlen : ((lines n k [a, b]).length : ℤ) = 4 := rfl
      rw [hlen] at hmax ⊢
      -- the counter has reached the end, the pointer has not
      exact decodeFrom_group (by omega) (head_encode (List.cons_ne_nil _ _) _) (decodeGroup_two a b rest)
        ⟨by show nDstLen + 2 ≤ INT_MAX; omega, hmax⟩ (decodeFrom_done le_rfl _ _)
  | case4 k a =>
      intro i nDstLen rest hle hmax
      have hlen : ((lines n k [a]).length : ℤ) = 4 := rfl
      rw [hlen] at hmax ⊢
      exact decodeFrom_group (by omega) (head_encode (List.cons_ne_nil _ _) _) (decodeGroup_one a rest)
        ⟨by show nDstLen + 1 ≤ INT_MAX; omega, hmax⟩ (decodeFrom_done le_rfl _ _)
  | case5 k =>
      intro i nDstLen rest _ _
      have hend : i + ((lines n k []).length : ℤ) = i := Int.add_zero i
      rw [hend, decodeFrom_done le_rfl, List.length_nil, Nat.cast_zero, Int.add_zero]

/-- No counter of the encoder overflows for `n` bytes. -/
def Fits (n : ℕ) (nMaxLineLen : ℤ) : Prop := LimitFits n nMaxLineLen ∧ (encodedLength n nMaxLineLen : ℤ) ≤ INT_MAX

lemma encodeBase64_of_fits {s : List UInt8} {nMaxLineLen : ℤ} (h : Fits s.length nMaxLineLen) :
    encodeBase64 s s.length nMaxLineLen =
      some ⟨lines (lineGroups nMaxLineLen) 0 s, encodedLength s.length nMaxLineLen⟩ := by
  have hwrites := encodeFrom_eq nMaxLineLen 0 s h.1 0 le_rfl (by decide)
  rw [length_lines_zero, Int.zero_add, if_pos h.2] at hwrites
  rw [encodeBase64, Int.toNat_natCast, List.take_length]
  exact hwrites

lemma encodeBase64_of_not_fits {s : List UInt8} {nMaxLineLen : ℤ} (h : ¬Fits s.length nMaxLineLen) :
    encodeBase64 s s.length nMaxLineLen = none := by
  rw [encodeBase64, Int.toNat_natCast, List.take_length]
  by_cases hlimit : LimitFits s.length nMaxLineLen
  · have hwrites := encodeFrom_eq nMaxLineLen 0 s hlimit 0 le_rfl (by decide)
    rw [length_lines_zero, Int.zero_add, if_neg fun hc => h ⟨hlimit, hc⟩] at hwrites
    exact hwrites
  · -- there is a whole group, and the limit is computed behind it
    obtain ⟨hthree, hlim⟩ := Classical.not_imp.1 hlimit
    have hnone : asInt (nMaxLineLen - 4) = none := if_neg hlim
    rcases s with _ | ⟨a, _ | ⟨b, _ | ⟨c, s⟩⟩⟩
    · exact absurd hthree (by simp)
    · exact absurd hthree (by simp)
    · exact absurd hthree (by simp)
    · rw [encodeFrom, hnone]
      cases asInt (0 + 4) <;> rfl

/-- The round trip of a byte string: the number returned is that of the characters written, and decoding
the characters with it, whatever is behind them, gives the bytes and their number. -/
def RoundTrip (s : List UInt8) (nMaxLineLen : ℤ) : Prop :=
  ∃ e, encodeBase64 s s.length nMaxLineLen = some e ∧ e.nDstLen = e.pDst.length ∧
    ∀ rest, decodeBase64 (e.pDst ++ 0 :: rest) e.nDstLen = some ⟨s, s.length⟩

lemma decodeBase64_lines {s : List UInt8} {nMaxLineLen : ℤ} (h : Fits s.length nMaxLineLen) (rest : List UInt8) :
    decodeBase64 (lines (lineGroups nMaxLineLen) 0 s ++ rest) (encodedLength s.length nMaxLineLen) =
      some ⟨s, s.length⟩ := by
  have hlen := length_lines_zero nMaxLineLen s
  have hdecode := decodeFrom_lines (lineGroups nMaxLineLen) 0 s 0 0 rest le_rfl (by
    rw [hlen, Int.zero_add]
    exact h.2)
  rwa [hlen, Int.zero_add, Int.zero_add] at hdecode

/-- **Base64 round trip.**  For every byte string and every line length the round trip succeeds exactly
if the number of characters written, line breaks included, is an `int`, and with it the line length
less 4, which is computed for every string of at least three bytes. -/
theorem base64_round_trip_iff (s : List UInt8) (nMaxLineLen : ℤ) :
    RoundTrip s nMaxLineLen ↔
      (3 ≤ s.length → INT_MIN ≤ nMaxLineLen - 4 ∧ nMaxLineLen - 4 ≤ INT_MAX) ∧
        (encodedLength s.length nMaxLineLen : ℤ) ≤ INT_MAX := by
  constructor
  · rintro ⟨e, he, -⟩
    by_contra h
    rw [encodeBase64_of_not_fits h] at he
    cases he
  · intro h
    refine ⟨_, encodeBase64_of_fits h, ?_, fun rest => decodeBase64_lines h _⟩
    rw [length_lines_zero]

/-- **A counter overflows**: for 1610612736 zeros in lines of 76 characters the number of the characters,
and for three bytes and the least `int` the line length less 4. -/
theorem base64_round_trip_overflow :
    ¬RoundTrip (List.replicate 1610612736 0) 76 ∧ ¬RoundTrip [1, 2, 3] INT_MIN := by
  have hlong : ¬Fits (List.replicate 1610612736 (0 : UInt8)).length 76 := by
    rw [List.length_replicate]
    exact fun h => absurd h.2 (by decide)
  have hleast : ¬Fits [(1 : UInt8), 2, 3].length INT_MIN := fun h => absurd (h.1 le_rfl).1 (by decide)
  constructor
  · rintro ⟨e, he, -⟩
    rw [encodeBase64_of_not_fits hlong] at he
    cases he
  · rintro ⟨e, he, -⟩
    have hnone : encodeBase64 [1, 2, 3] ([1, 2, 3] : List UInt8).length INT_MIN = none :=
      encodeBase64_of_not_fits hleast
    rw [hnone] at he
    cases he

end DeviceTools.Encrypt
