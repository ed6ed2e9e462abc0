/-
Message authentication codes by chaining a block cipher.

The message is padded with a byte 0x80 and with zeros to a whole number of blocks.  The blocks are
chained: each is combined with the result for the blocks in front of it, and encrypted.  The retail
MAC takes the last result through a decryption with a second key and an encryption with the first.
The cipher is arbitrary.
-/
import Mathlib

namespace CbcMac

abbrev Block (n : ℕ) := Vector UInt8 n

variable {n : ℕ}

def xorBlock (a b : Block n) : Block n := Vector.ofFn fun j => a[j] ^^^ b[j]

/-- The number of zeros behind a message of length `len` and the byte 0x80. -/
def zeros (n len : ℕ) : ℕ := (n - (len + 1) % n) % n

def pad (n : ℕ) (m : List UInt8) : List UInt8 := m ++ 0x80 :: List.replicate (zeros n m.length) 0

/-- The whole blocks of a byte string. -/
def blocks (n : ℕ) (m : List UInt8) : List (Block n) :=
  (List.range (m.length / n)).map fun i => Vector.ofFn fun j : Fin n => (m[n * i + j]?).getD 0

/-- The last block of the chain that starts with `iv`. -/
def chain (E : Block n → Block n) (iv : Block n) (bs : List (Block n)) : Block n :=
  bs.foldl (fun c b => E (xorBlock c b)) iv

/-- The retail MAC of a message under two keys, before it is cut. -/
def retail {Key : Type} (E D : Key → Block n → Block n) (k₁ k₂ : Key) (iv : Block n) (m : List UInt8) :
    Block n :=
  E k₁ (D k₂ (chain (E k₁) iv (blocks n (pad n m))))

lemma length_pad (m : List UInt8) : (pad n m).length = m.length + 1 + zeros n m.length := by
  simp only [pad, List.length_append, List.length_cons, List.length_replicate]
  omega

/-- The padded message has whole blocks. -/
lemma dvd_length_pad (hn : 0 < n) (m : List UInt8) : n ∣ (pad n m).length := by
  have hlt := Nat.mod_lt (m.length + 1) hn
  have hdiv := Nat.div_add_mod (m.length + 1) n
  rw [length_pad, zeros]
  by_cases h0 : (m.length + 1) % n = 0
  · rw [h0, Nat.sub_zero, Nat.mod_self, Nat.add_zero]
    exact Nat.dvd_of_mod_eq_zero h0
  · rw [Nat.mod_eq_of_lt (by omega : n - (m.length + 1) % n < n)]
    exact ⟨(m.length + 1) / n + 1, by rw [Nat.mul_add, Nat.mul_one]; omega⟩

/-- The padding is at most one block. -/
lemma length_pad_le (hn : 0 < n) (m : List UInt8) : (pad n m).length ≤ m.length + n := by
  have hlt : zeros n m.length < n := Nat.mod_lt _ hn
  rw [length_pad]
  omega

lemma chain_cons (E : Block n → Block n) (iv b : Block n) (bs : List (Block n)) :
    chain E iv (b :: bs) = chain E (E (xorBlock iv b)) bs := rfl

end CbcMac
