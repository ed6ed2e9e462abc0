/-
Numbers of type `int`.

An `int` has 32 bits, and a computation that overflows has no defined behaviour.
-/
import Mathlib

namespace CInt

def INT_MAX : ℤ := 2147483647
def INT_MIN : ℤ := -2147483648

/-- A number computed with type `int`.  One that overflows has no result. -/
def asInt (n : ℤ) : Option ℤ := if INT_MIN ≤ n ∧ n ≤ INT_MAX then some n else none

lemma asInt_of_nonneg {n : ℤ} (h : 0 ≤ n) : asInt n = if n ≤ INT_MAX then some n else none :=
  if_congr (and_iff_right (le_trans (by decide) h)) rfl rfl

lemma asInt_of_le {n : ℤ} (h : 0 ≤ n) (hle : n ≤ INT_MAX) : asInt n = some n := by
  rw [asInt_of_nonneg h, if_pos hle]

lemma asInt_of_lt {n : ℤ} (h : INT_MAX < n) : asInt n = none := if_neg fun hc => absurd hc.2 (not_le.2 h)

end CInt
