/-
Words in byte strings.

A C structure written to a file or copied out of a packet is a byte string, and its
integer members are read back either in the order of the machine (little-endian
here) or in network order (big-endian).  This file has the two encodings of a
natural number in `w` bytes, the two readings, and the lemmas that connect them with
the cutting of a byte string into fields.
-/
import Mathlib

namespace ByteWord

/-- The `w` low bytes of `n`, lowest byte first. -/
def leBytes : ℕ → ℕ → List UInt8
  | 0, _ => []
  | w + 1, n => UInt8.ofNat n :: leBytes w (n / 256)

/-- The number whose bytes, lowest byte first, are given. -/
def leNat : List UInt8 → ℕ
  | [] => 0
  | b :: bs => b.toNat + 256 * leNat bs

/-- The number whose bytes, highest byte first, are given. -/
def beNat (bs : List UInt8) : ℕ := bs.foldl (fun n b => 256 * n + b.toNat) 0

/-- The `w` low bytes of `n`, highest byte first. -/
def beBytes (w n : ℕ) : List UInt8 := (leBytes w n).reverse

/-- The field of `w` bytes at offset `off`. -/
def field (bs : List UInt8) (off w : ℕ) : List UInt8 := (bs.drop off).take w

@[simp] lemma leBytes_length (w n : ℕ) : (leBytes w n).length = w := by
  induction w generalizing n with
  | zero => rfl
  | succ w ih => simp [leBytes, ih]

@[simp] lemma beBytes_length (w n : ℕ) : (beBytes w n).length = w := by
  simp [beBytes]

/-- Reading a little-endian word gives the number back, cut to the width of the
word. -/
lemma leNat_leBytes (w n : ℕ) : leNat (leBytes w n) = n % 256 ^ w := by
  induction w generalizing n with
  | zero => simp [leBytes, leNat, Nat.mod_one]
  | succ w ih =>
      have hb : (UInt8.ofNat n).toNat = n % 256 := by simp
      rw [leBytes, leNat, ih, hb, pow_succ', Nat.mod_mul]

/-- Only the low bytes of a number are written. -/
lemma leBytes_mod (w n : ℕ) : leBytes w (n % 256 ^ w) = leBytes w n := by
  induction w generalizing n with
  | zero => rfl
  | succ w ih =>
      have hhead : UInt8.ofNat (n % 256 ^ (w + 1)) = UInt8.ofNat n := by
        refine UInt8.toNat_inj.1 ?_
        rw [UInt8.toNat_ofNat', UInt8.toNat_ofNat', Nat.mod_mod_of_dvd]
        exact dvd_pow_self 256 (Nat.succ_ne_zero w)
      have htail : n % 256 ^ (w + 1) / 256 = n / 256 % 256 ^ w := by
        rw [pow_succ', Nat.mod_mul_right_div_self]
      rw [leBytes, leBytes, hhead, htail, ih]

/-- A number in two words. -/
lemma leBytes_append {a x : ℕ} (hx : x < 256 ^ a) (b y : ℕ) :
    leBytes (a + b) (x + 256 ^ a * y) = leBytes a x ++ leBytes b y := by
  induction a generalizing x with
  | zero =>
      have hzero : x = 0 := by omega
      rw [hzero, Nat.zero_add, Nat.zero_add, pow_zero, one_mul]
      rfl
  | succ a ih =>
      have hsplit : x + 256 ^ (a + 1) * y = x + 256 * (256 ^ a * y) := by rw [pow_succ', mul_assoc]
      have hhead : UInt8.ofNat (x + 256 * (256 ^ a * y)) = UInt8.ofNat x := by
        refine UInt8.toNat_inj.1 ?_
        rw [UInt8.toNat_ofNat', UInt8.toNat_ofNat']
        omega
      have hx' : x / 256 < 256 ^ a := by
        rw [pow_succ'] at hx
        omega
      rw [hsplit, Nat.add_right_comm, leBytes, leBytes, hhead, Nat.add_mul_div_left _ _ (by decide), ih hx']
      rfl

lemma leNat_leBytes_of_lt {w n : ℕ} (h : n < 256 ^ w) : leNat (leBytes w n) = n := by
  rw [leNat_leBytes, Nat.mod_eq_of_lt h]

/-- Big-endian reading is little-endian reading of the reversed string. -/
lemma beNat_eq_leNat_reverse (bs : List UInt8) : beNat bs = leNat bs.reverse := by
  induction bs using List.reverseRecOn with
  | nil => rfl
  | append_singleton bs b ih =>
      rw [List.reverse_append, List.reverse_singleton, List.singleton_append, leNat, ← ih]
      simp only [beNat, List.foldl_append, List.foldl_cons, List.foldl_nil]
      omega

lemma beNat_beBytes_of_lt {w n : ℕ} (h : n < 256 ^ w) : beNat (beBytes w n) = n := by
  rw [beNat_eq_leNat_reverse, beBytes, List.reverse_reverse, leNat_leBytes_of_lt h]

lemma leNat_lt (bs : List UInt8) : leNat bs < 256 ^ bs.length := by
  induction bs with
  | nil => simp [leNat]
  | cons b bs ih =>
      have hb : b.toNat < 256 := b.toNat_lt
      simp only [leNat, List.length_cons, pow_succ]
      omega

lemma beNat_lt (bs : List UInt8) : beNat bs < 256 ^ bs.length := by
  simpa [beNat_eq_leNat_reverse] using leNat_lt bs.reverse

/-! ### Fields -/

/-- A field that starts behind a prefix of the string is a field of the rest. -/
lemma field_append_right {xs : List UInt8} (ys : List UInt8) {off : ℕ} (w : ℕ)
    (h : xs.length ≤ off) : field (xs ++ ys) off w = field ys (off - xs.length) w := by
  rw [field, field, List.drop_append, List.drop_eq_nil_of_le h, List.nil_append]

/-- A field of width `|xs|` at the start of `xs ++ ys` is `xs`. -/
lemma field_zero_append {xs : List UInt8} (ys : List UInt8) {w : ℕ} (h : xs.length = w) :
    field (xs ++ ys) 0 w = xs := by
  simp [field, ← h]

/-- A part of a string is found behind the parts in front of it. -/
lemma field_flatten {parts : List (List UInt8)} (i : ℕ) {x : List UInt8} {off w : ℕ}
    (hx : parts[i]? = some x) (hoff : (parts.take i).flatten.length = off) (hw : x.length = w) :
    field parts.flatten off w = x := by
  obtain ⟨hi, rfl⟩ := List.getElem?_eq_some_iff.1 hx
  have hsplit : parts.flatten =
      (parts.take i).flatten ++ (parts[i] ++ (parts.drop (i + 1)).flatten) := by
    rw [← List.flatten_cons, ← List.flatten_append, List.getElem_cons_drop, List.take_append_drop]
  rw [hsplit, field_append_right _ _ hoff.le, hoff, Nat.sub_self, field_zero_append _ hw]

lemma field_length {bs : List UInt8} {off w : ℕ} (h : off + w ≤ bs.length) :
    (field bs off w).length = w := by
  simp only [field, List.length_take, List.length_drop]
  omega

end ByteWord
