/-
Decimal numerals, as `printf` writes them with a conversion `%0wd` whose argument fits the
width or with `%d`, and as `scanf` reads them back.
-/
import Mathlib

namespace Decimal

/-- The character of the last decimal digit of `n`. -/
def digit (n : ℕ) : Char := Char.ofNat (48 + n % 10)

/-- The last `w` decimal digits of `n`, zero-padded. -/
def pad : ℕ → ℕ → List Char
  | 0, _ => []
  | w + 1, n => pad w (n / 10) ++ [digit n]

/-- The number a numeral stands for. -/
def value (s : List Char) : ℕ := s.foldl (fun n c => 10 * n + (c.toNat - 48)) 0

lemma digit_toNat (n : ℕ) : (digit n).toNat = 48 + n % 10 := by
  have h : n % 10 < 10 := Nat.mod_lt _ (by norm_num)
  rw [digit, Char.toNat_ofNat, if_pos]
  exact Or.inl (by omega)

lemma digit_isDigit (n : ℕ) : (digit n).isDigit = true := by
  have h : n % 10 < 10 := Nat.mod_lt _ (by norm_num)
  have hn : (digit n).val.toNat = 48 + n % 10 := digit_toNat n
  simp only [Char.isDigit, Bool.and_eq_true, decide_eq_true_eq, ge_iff_le, UInt32.le_iff_toNat_le,
    hn]
  exact ⟨by simp, by simp; omega⟩

@[simp] lemma length_pad (w n : ℕ) : (pad w n).length = w := by
  induction w generalizing n with
  | zero => rfl
  | succ w ih => simp [pad, ih]

lemma value_concat (s : List Char) (c : Char) :
    value (s ++ [c]) = 10 * value s + (c.toNat - 48) := by
  simp [value]

/-- A numeral stands for the digits that were written. -/
lemma value_pad (w n : ℕ) : value (pad w n) = n % 10 ^ w := by
  induction w generalizing n with
  | zero => simp [pad, value, Nat.mod_one]
  | succ w ih =>
      rw [pad, value_concat, ih, digit_toNat, pow_succ', Nat.mod_mul]
      omega

lemma value_pad_of_lt {w n : ℕ} (h : n < 10 ^ w) : value (pad w n) = n := by
  rw [value_pad, Nat.mod_eq_of_lt h]

lemma pad_mod (w n : ℕ) : pad w (n % 10 ^ w) = pad w n := by
  induction w generalizing n with
  | zero => rfl
  | succ w ih =>
      have hq : n % 10 ^ (w + 1) / 10 = n / 10 % 10 ^ w := by
        rw [pow_succ', Nat.mod_mul_right_div_self]
      have hd : digit (n % 10 ^ (w + 1)) = digit n := by
        rw [digit, digit, pow_succ', Nat.mod_mul_right_mod]
      rw [pad, pad, hq, hd, ih]

/-- A wide numeral is the numeral of its high digits followed by that of its low
digits. -/
lemma pad_add (v w n : ℕ) : pad (v + w) n = pad v (n / 10 ^ w) ++ pad w n := by
  induction w generalizing n with
  | zero => simp [pad]
  | succ w ih =>
      rw [← Nat.add_assoc, pad, ih, pad, Nat.div_div_eq_div_mul, ← pow_succ', List.append_assoc]

lemma all_isDigit_pad (w n : ℕ) : ∀ c ∈ pad w n, c.isDigit = true := by
  induction w generalizing n with
  | zero => simp [pad]
  | succ w ih =>
      intro c hc
      rcases List.mem_append.1 hc with h | h
      · exact ih _ c h
      · rw [List.mem_singleton.1 h]
        exact digit_isDigit n

/-- Numerals that fit their width are read back from the text. -/
lemma pad_injective {w m n : ℕ} (hm : m < 10 ^ w) (hn : n < 10 ^ w) (h : pad w m = pad w n) :
    m = n := by
  rw [← value_pad_of_lt hm, h, value_pad_of_lt hn]

/-- Texts of one length are compared before what follows them. -/
lemma append_lt_append_iff {a b : List Char} (h : a.length = b.length) (x y : List Char) :
    a ++ x < b ++ y ↔ a < b ∨ a = b ∧ x < y := by
  induction a generalizing b with
  | nil =>
      obtain rfl : b = [] := List.length_eq_zero_iff.1 h.symm
      simp
  | cons c a ih =>
      obtain ⟨c', b, rfl⟩ := List.exists_cons_of_length_eq_add_one h.symm
      rw [List.cons_append, List.cons_append, List.cons_lt_cons_iff, List.cons_lt_cons_iff,
        ih (by simpa using h), List.cons.injEq]
      tauto

/-- Numerals of one width are compared as the numbers are. -/
lemma pad_lt_iff {w m n : ℕ} (hm : m < 10 ^ w) (hn : n < 10 ^ w) : pad w m < pad w n ↔ m < n := by
  induction w generalizing m n with
  | zero =>
      rw [pow_zero, Nat.lt_one_iff] at hm hn
      simp [pad, hm, hn]
  | succ w ih =>
      rw [pow_succ] at hm hn
      have hm' : m / 10 < 10 ^ w := by omega
      have hn' : n / 10 < 10 ^ w := by omega
      have hdigit : [digit m] < [digit n] ↔ m % 10 < n % 10 := by
        have h : digit m < digit n ↔ (digit m).toNat < (digit n).toNat := Iff.rfl
        rw [List.cons_lt_cons_iff, h, digit_toNat, digit_toNat]
        simp
      rw [pad, pad, append_lt_append_iff (by simp), ih hm' hn', hdigit]
      constructor
      · rintro (hlt | ⟨heq, hlt⟩)
        · omega
        · have := pad_injective hm' hn' heq
          omega
      · intro hlt
        rcases Nat.lt_or_ge (m / 10) (n / 10) with h | h
        · exact Or.inl h
        · have heq : m / 10 = n / 10 := by omega
          exact Or.inr ⟨by rw [heq], by omega⟩

/-- Texts that start with numerals of one width are compared by the numbers, and then by the rest. -/
lemma pad_append_lt_iff {w m n : ℕ} (hm : m < 10 ^ w) (hn : n < 10 ^ w) (x y : List Char) :
    pad w m ++ x < pad w n ++ y ↔ m < n ∨ m = n ∧ x < y := by
  rw [append_lt_append_iff (by simp), pad_lt_iff hm hn]
  refine or_congr_right (and_congr_left' ⟨pad_injective hm hn, fun h => by rw [h]⟩)

/-! ### Printing and scanning -/

/-- The numeral of a number, without leading zeros. -/
def print (n : ℕ) : List Char := pad (Nat.log 10 n + 1) n

/-- The number at the start of a text, read from at most `w` digits, and the rest of the text. -/
def scan (w : ℕ) (s : List Char) : Option (ℕ × List Char) :=
  let ds := (s.take w).takeWhile Char.isDigit
  if ds = [] then none else some (value ds, s.drop ds.length)

/-- A numeral of the width that is read is read whole. -/
lemma scan_pad {w n : ℕ} (hw : 0 < w) (hn : n < 10 ^ w) (rest : List Char) :
    scan w (pad w n ++ rest) = some (n, rest) := by
  have hds : ((pad w n ++ rest).take w).takeWhile Char.isDigit = pad w n := by
    rw [List.take_left' (length_pad w n)]
    exact List.takeWhile_eq_self_iff.2 (all_isDigit_pad w n)
  have hne : pad w n ≠ [] := fun h => by
    have hlen := congrArg List.length h
    rw [length_pad, List.length_nil] at hlen
    omega
  rw [scan, hds, if_neg hne, value_pad_of_lt hn, List.drop_left]

/-- A numeral is read up to the first character that is not a digit. -/
lemma scan_print (n : ℕ) {c : Char} (hc : c.isDigit = false) (rest : List Char) :
    scan (print n ++ c :: rest).length (print n ++ c :: rest) = some (n, c :: rest) := by
  have hds : ((print n ++ c :: rest).take (print n ++ c :: rest).length).takeWhile Char.isDigit =
      print n := by
    have hall : ∀ x ∈ print n, x.isDigit = true := all_isDigit_pad _ n
    rw [List.take_length, List.takeWhile_append_of_pos hall]
    simp [hc]
  have hne : print n ≠ [] := fun h => by simpa [print] using congrArg List.length h
  rw [scan, hds, if_neg hne, print, value_pad_of_lt (Nat.lt_pow_succ_log_self (by norm_num) n), List.drop_left]

end Decimal
