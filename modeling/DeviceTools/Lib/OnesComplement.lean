/-
One's-complement sums.

The words are the numbers below `m`.  A one's-complement sum adds them with the carry brought around
to the lowest place, so that it keeps the sum modulo `m - 1`; of the two words for 0 it gives 0 only
if all words are 0.  A checksum is the complement of the sum: with it the words sum up to `m - 1`.
Code often computes the plain sum and brings its carries around once, by adding the upper part to the
lower one.  The last lemma says when the complement of this is a checksum.
-/
import Mathlib

namespace OnesComplement

/-- The sum of two words with the carry brought around. -/
def add (m a b : ℕ) : ℕ := if a + b < m then a + b else a + b - m + 1

/-- The one's-complement sum. -/
def sum (m : ℕ) (ws : List ℕ) : ℕ := ws.foldl (add m) 0

/-- The word that stands for a number: 0 for 0, and otherwise one between 1 and `m - 1`. -/
def wordOf (m n : ℕ) : ℕ := if n = 0 then 0 else (n - 1) % (m - 1) + 1

/-- The carries of a plain sum brought around once. -/
def foldOnce (m n : ℕ) : ℕ := n / m + n % m

/-- The lower part of a plain sum folded once, complemented. -/
def checksum (m n : ℕ) : ℕ := m - 1 - foldOnce m n % m

variable {m : ℕ}

/-- A number whose word is `m - 1`. -/
lemma wordOf_eq_iff (hm : 2 ≤ m) {n : ℕ} : wordOf m n = m - 1 ↔ n ≠ 0 ∧ (m - 1) ∣ n := by
  rw [wordOf]
  split
  · next h => simp [h]; omega
  · next h =>
      obtain ⟨k, rfl⟩ : ∃ k, n = k + 1 := ⟨n - 1, by omega⟩
      rw [Nat.add_sub_cancel]
      have hlt : k % (m - 1) < m - 1 := Nat.mod_lt k (by omega)
      constructor
      · intro hk
        refine ⟨h, Nat.dvd_of_mod_eq_zero ?_⟩
        rw [Nat.add_mod, show k % (m - 1) = m - 1 - 1 by omega]
        by_cases hone : m - 1 = 1
        · rw [hone]
        · rw [Nat.mod_eq_of_lt (show 1 < m - 1 by omega), Nat.sub_add_cancel (by omega), Nat.mod_self]
      · rintro ⟨-, q, hq⟩
        -- the predecessor of a multiple leaves the greatest remainder
        obtain ⟨p, rfl⟩ : ∃ p, q = p + 1 := ⟨q - 1, by
          have : q ≠ 0 := by
            rintro rfl
            omega
          omega⟩
        have hk : k = (m - 1) * p + (m - 1 - 1) := by
          rw [Nat.mul_succ] at hq
          omega
        rw [hk, Nat.mul_add_mod, Nat.mod_eq_of_lt (by omega)]
        omega

/-- Adding a word to the word of a number. -/
lemma add_wordOf (hm : 2 ≤ m) (n : ℕ) {w : ℕ} (hw : w < m) : add m (wordOf m n) w = wordOf m (n + w) := by
  by_cases hn : n = 0
  · -- the first word that is not 0 is its own word
    subst hn
    rw [wordOf, if_pos rfl, add, if_pos (by omega), Nat.zero_add, wordOf]
    split
    · next h => exact h
    · next h => rw [Nat.mod_eq_of_lt (by omega), Nat.sub_add_cancel (by omega)]
  · obtain ⟨k, rfl⟩ : ∃ k, n = k + 1 := ⟨n - 1, by omega⟩
    have hlt : k % (m - 1) < m - 1 := Nat.mod_lt k (by omega)
    have hstep : (k + w) % (m - 1) = (k % (m - 1) + w) % (m - 1) := (Nat.mod_add_mod k (m - 1) w).symm
    rw [wordOf, if_neg hn, wordOf, if_neg (by omega), Nat.add_sub_cancel, Nat.add_right_comm,
      Nat.add_sub_cancel, hstep, add]
    generalize k % (m - 1) = r at hlt
    split
    · next h => rw [Nat.mod_eq_of_lt (by omega)]; omega
    · next h =>
        rw [Nat.mod_eq_sub_mod (by omega)]
        by_cases hmax : r + w - (m - 1) < m - 1
        · rw [Nat.mod_eq_of_lt hmax]
          omega
        · omega

/-- **The one's-complement sum is the word of the plain sum.** -/
lemma sum_eq (hm : 2 ≤ m) {ws : List ℕ} (hws : ∀ w ∈ ws, w < m) : sum m ws = wordOf m ws.sum := by
  induction ws using List.reverseRecOn with
  | nil => rfl
  | append_singleton ws w ih =>
      rw [sum, List.foldl_append, List.foldl_cons, List.foldl_nil, List.sum_append, List.sum_singleton,
        ← add_wordOf hm _ (hws w (by simp)), ← ih fun v hv => hws v (by simp [hv])]
      rfl

/-- Folding keeps the number modulo `m - 1`. -/
lemma foldOnce_modEq (hm : 2 ≤ m) (n : ℕ) : foldOnce m n ≡ n [MOD m - 1] := by
  have hcarry : m * (n / m) ≡ n / m [MOD m - 1] := by
    have h : m ≡ 1 [MOD m - 1] := (Nat.modEq_iff_dvd' (by omega)).mpr (dvd_refl _) |>.symm
    simpa using h.mul_right (n / m)
  calc foldOnce m n
    _ ≡ m * (n / m) + n % m [MOD m - 1] := (hcarry.add_right _).symm
    _ = n := Nat.div_add_mod n m

/-- **Words verify if no carry is lost.**  A sum with the checksum of a number that is equal to it modulo
`m - 1`, as it is with the carries of `n` brought around some other way, is the word `m - 1` unless
folding `n` leaves another carry. -/
lemma verifies_iff (hm : 2 < m) {t n : ℕ} (ht : t ≡ n [MOD m - 1]) (hpos : t = 0 → n = 0) (hn : n < m * m) :
    wordOf m (t + checksum m n) = m - 1 ↔ foldOnce m n < m := by
  have hfold := foldOnce_modEq (m := m) (by omega) n
  have hsmall : foldOnce m n < 2 * m := by
    have := Nat.div_lt_of_lt_mul hn
    have := Nat.mod_lt n (show 0 < m by omega)
    rw [foldOnce]
    omega
  have hc : t + checksum m n ≡ foldOnce m n + checksum m n [MOD m - 1] := (ht.trans hfold.symm).add_right _
  rw [wordOf_eq_iff (by omega)]
  by_cases h : foldOnce m n < m
  · have hone : foldOnce m n + checksum m n = m - 1 := by
      rw [checksum, Nat.mod_eq_of_lt h]
      omega
    refine ⟨fun _ => h, fun _ => ⟨?_, ?_⟩⟩
    · intro h0
      have hn0 : foldOnce m n = 0 := by simp [foldOnce, hpos (Nat.eq_zero_of_add_eq_zero_right h0)]
      omega
    · rw [← Nat.modEq_zero_iff_dvd]
      refine hc.trans ?_
      rw [hone]
      exact Nat.modEq_zero_iff_dvd.mpr dvd_rfl
  · -- the lost carry makes the sum come out as 1
    have hone : foldOnce m n + checksum m n = m - 1 + m := by
      rw [checksum, Nat.mod_eq_sub_mod (by omega), Nat.mod_eq_of_lt (by omega)]
      omega
    refine ⟨?_, fun h' => absurd h' h⟩
    rintro ⟨-, hdvd⟩
    have h1 : (m - 1 + m) % (m - 1) = 0 := by
      rw [← hone]
      exact hc.symm.trans (Nat.modEq_zero_iff_dvd.mpr hdvd)
    have h2 : m - 1 + m = 2 * (m - 1) + 1 := by omega
    rw [h2, Nat.mul_add_mod_self_right, Nat.mod_eq_of_lt (by omega)] at h1
    omega

end OnesComplement
