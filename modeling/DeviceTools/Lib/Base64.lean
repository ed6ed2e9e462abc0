/-
Base64, as RFC 4648 has it.

Three bytes are 24 bits, which are written as four characters of six bits each; one or two bytes
at the end are written as two or three characters and padded with `=` to four.  This file has the
encoding and the arithmetic of its groups: the characters of a group stand for the number whose
digits, in the base 64, are the number of its bytes, and an encoder finds them with shifts and
masks.
-/
import Mathlib

namespace Base64

/-- The 64 characters. -/
def alphabet : List UInt8 :=
  [0x41, 0x42, 0x43, 0x44, 0x45, 0x46, 0x47, 0x48, 0x49, 0x4A, 0x4B, 0x4C, 0x4D, 0x4E, 0x4F, 0x50,
   0x51, 0x52, 0x53, 0x54, 0x55, 0x56, 0x57, 0x58, 0x59, 0x5A, 0x61, 0x62, 0x63, 0x64, 0x65, 0x66,
   0x67, 0x68, 0x69, 0x6A, 0x6B, 0x6C, 0x6D, 0x6E, 0x6F, 0x70, 0x71, 0x72, 0x73, 0x74, 0x75, 0x76,
   0x77, 0x78, 0x79, 0x7A, 0x30, 0x31, 0x32, 0x33, 0x34, 0x35, 0x36, 0x37, 0x38, 0x39, 0x2B, 0x2F]

/-- The padding character `=`. -/
def padding : UInt8 := 0x3D

/-- The character of the number `n`, which is below 64. -/
def digit (n : ℕ) : UInt8 := (alphabet[n]?).getD padding

/-- The number of six bits at the top of a byte, and the three numbers behind it. -/
def first (a : UInt8) : ℕ := a.toNat / 4
def second (a b : UInt8) : ℕ := a.toNat % 4 * 16 + b.toNat / 16
def third (b c : UInt8) : ℕ := b.toNat % 16 * 4 + c.toNat / 64
def fourth (c : UInt8) : ℕ := c.toNat % 64

/-- The encoding of a byte string, without line breaks. -/
def encode : List UInt8 → List UInt8
  | [] => []
  | [a] => [digit (first a), digit (second a 0), padding, padding]
  | [a, b] => [digit (first a), digit (second a b), digit (third b 0), padding]
  | a :: b :: c :: s =>
      digit (first a) :: digit (second a b) :: digit (third b c) :: digit (fourth c) :: encode s

lemma length_encode (s : List UInt8) : (encode s).length = 4 * ((s.length + 2) / 3) := by
  induction s using encode.induct with
  | case1 => simp [encode]
  | case2 a => simp [encode]
  | case3 a b => simp [encode]
  | case4 a b c s ih =>
      simp only [encode, List.length_cons, ih]
      omega

lemma first_lt (a : UInt8) : first a < 64 := by
  have := a.toNat_lt
  simp only [first]
  omega

lemma second_lt (a b : UInt8) : second a b < 64 := by
  have := b.toNat_lt
  simp only [second]
  omega

lemma third_lt (b c : UInt8) : third b c < 64 := by
  have := c.toNat_lt
  simp only [third]
  omega

lemma fourth_lt (c : UInt8) : fourth c < 64 := Nat.mod_lt _ (by decide)

/-- The number of a group: three bytes are the digits of one number in the base 256, and its four
numbers of six bits are the digits in the base 64. -/
lemma group_number (a b c : UInt8) :
    first a * 2 ^ 18 + second a b * 2 ^ 12 + third b c * 2 ^ 6 + fourth c =
      a.toNat * 2 ^ 16 + b.toNat * 2 ^ 8 + c.toNat := by
  simp only [first, second, third, fourth]
  omega

/-! ### Tables, shifts and masks -/

/-- A table of the characters, whatever is read outside of it. -/
lemma getD_alphabet {n : ℕ} (h : n < 64) (d : UInt8) : (alphabet[n]?).getD d = digit n := by
  have hlen : n < alphabet.length := h
  rw [digit, List.getElem?_eq_getElem hlen, Option.getD_some, Option.getD_some]

/-- A number shifted, with a smaller number under it. -/
lemma shiftLeft_or {a b i : ℕ} (h : b < 2 ^ i) : a <<< i ||| b = a * 2 ^ i + b := by
  rw [← Nat.shiftLeft_add_eq_or_of_lt h, Nat.shiftLeft_eq]

lemma shiftRight_lt (c : UInt8) {i j : ℕ} (h : i + j = 8) : c.toNat >>> i < 2 ^ j := by
  rw [Nat.shiftRight_eq_div_pow, Nat.div_lt_iff_lt_mul (by positivity), ← pow_add, Nat.add_comm j, h]
  exact c.toNat_lt

lemma shiftRight_first (a : UInt8) : a.toNat >>> 2 = first a := Nat.shiftRight_eq_div_pow _ _

lemma or_second (a b : UInt8) : ((a.toNat &&& 3) <<< 4) ||| (b.toNat >>> 4) = second a b := by
  rw [shiftLeft_or (shiftRight_lt b rfl), Nat.and_two_pow_sub_one_eq_mod _ 2, Nat.shiftRight_eq_div_pow]
  rfl

lemma or_third (b c : UInt8) : ((b.toNat &&& 0xF) <<< 2) ||| (c.toNat >>> 6) = third b c := by
  rw [shiftLeft_or (shiftRight_lt c rfl), Nat.and_two_pow_sub_one_eq_mod _ 4, Nat.shiftRight_eq_div_pow]
  rfl

lemma and_fourth (c : UInt8) : c.toNat &&& 0x3F = fourth c := Nat.and_two_pow_sub_one_eq_mod _ 6

/-! ### The characters of an encoding -/

/-- What all characters of the alphabet have in common, the digits have. -/
lemma digit_of_forall {P : UInt8 → Prop} (h : ∀ c ∈ alphabet, P c) {n : ℕ} (hn : n < 64) :
    P (digit n) := by
  have hlen : n < alphabet.length := hn
  rw [digit, List.getElem?_eq_getElem hlen, Option.getD_some]
  exact h _ (List.getElem_mem hlen)

/-- Different numbers have different characters. -/
lemma digit_inj {m n : ℕ} (hm : m < 64) (hn : n < 64) : digit m = digit n ↔ m = n := by
  have hnodup : alphabet.Nodup := by decide +kernel
  have hm' : m < alphabet.length := hm
  have hn' : n < alphabet.length := hn
  rw [digit, digit, List.getElem?_eq_getElem hm', List.getElem?_eq_getElem hn', Option.getD_some, Option.getD_some,
    hnodup.getElem_inj_iff]

/-- Padding is no character of the alphabet. -/
lemma digit_ne_padding {n : ℕ} (h : n < 64) : digit n ≠ padding := by
  have hpad : padding ∉ alphabet := by decide +kernel
  exact digit_of_forall (P := fun c => c ≠ padding) (fun c hc heq => hpad (heq ▸ hc)) h

/-- The characters of an encoding are characters of the alphabet and padding. -/
lemma forall_encode {P : UInt8 → Prop} (h : ∀ c ∈ alphabet, P c) (hpad : P padding) (s : List UInt8) :
    ∀ c ∈ encode s, P c := by
  induction s using encode.induct with
  | case1 => simp [encode]
  | case2 a =>
      simp only [encode, List.forall_mem_cons]
      exact ⟨digit_of_forall h (first_lt a), digit_of_forall h (second_lt a 0), hpad, hpad, by simp⟩
  | case3 a b =>
      simp only [encode, List.forall_mem_cons]
      exact ⟨digit_of_forall h (first_lt a), digit_of_forall h (second_lt a b),
        digit_of_forall h (third_lt b 0), hpad, by simp⟩
  | case4 a b c s ih =>
      simp only [encode, List.forall_mem_cons]
      exact ⟨digit_of_forall h (first_lt a), digit_of_forall h (second_lt a b),
        digit_of_forall h (third_lt b c), digit_of_forall h (fourth_lt c), ih⟩

end Base64
