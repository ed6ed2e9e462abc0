/-
Functions that take exclusive or to exclusive or.

A permutation of bits by shifts and masks is such a function, and so is a choice of bits by a
table.  Two of them are equal when they agree on the words with one bit, which can be computed, so
a sequence of shifts and masks can be compared with the table that it stands for.
-/
import Mathlib

namespace XorLinear

/-- The exclusive or of pairs, in both places. -/
instance prodXorOp {α β : Type*} [XorOp α] [XorOp β] : XorOp (α × β) := ⟨fun a b => (a.1 ^^^ b.1, a.2 ^^^ b.2)⟩

@[simp] lemma mk_xor_mk {α β : Type*} [XorOp α] [XorOp β] (a c : α) (b d : β) :
    (a, b) ^^^ (c, d) = (a ^^^ c, b ^^^ d) := rfl

/-- The function takes exclusive or to exclusive or. -/
def Linear {α β : Type*} [XorOp α] [XorOp β] (f : α → β) : Prop := ∀ a b, f (a ^^^ b) = f a ^^^ f b

section Closure

variable {α β γ : Type*} [XorOp α] [XorOp β] [XorOp γ] {m n : ℕ}

lemma Linear.comp {g : β → γ} {f : α → β} (hg : Linear g) (hf : Linear f) : Linear fun a => g (f a) :=
  fun a b => by dsimp only; rw [hf, hg]

lemma linear_id : Linear fun a : α => a := fun _ _ => rfl

lemma linear_fst : Linear fun p : α × β => p.1 := fun _ _ => rfl

lemma linear_snd : Linear fun p : α × β => p.2 := fun _ _ => rfl

lemma Linear.pair {f : α → β} {g : α → γ} (hf : Linear f) (hg : Linear g) : Linear fun a => (f a, g a) :=
  fun a b => Prod.ext (hf a b) (hg a b)

lemma Linear.xor {f g : α → BitVec n} (hf : Linear f) (hg : Linear g) : Linear fun a => f a ^^^ g a := by
  intro a b
  dsimp only
  rw [hf, hg, BitVec.xor_assoc, BitVec.xor_assoc, ← BitVec.xor_assoc (f b), BitVec.xor_comm (f b),
    BitVec.xor_assoc (g a)]

lemma Linear.and {f : α → BitVec n} (hf : Linear f) (m : BitVec n) : Linear fun a => f a &&& m := by
  intro a b
  dsimp only
  rw [hf]
  ext i hi
  simp [Bool.and_xor_distrib_right]

lemma Linear.shiftLeft {f : α → BitVec n} (hf : Linear f) (s : ℕ) : Linear fun a => f a <<< s :=
  fun a b => by dsimp only; rw [hf, BitVec.shiftLeft_xor_distrib]

lemma Linear.ushiftRight {f : α → BitVec n} (hf : Linear f) (s : ℕ) : Linear fun a => f a >>> s :=
  fun a b => by dsimp only; rw [hf, BitVec.ushiftRight_xor_distrib]

lemma Linear.setWidth {f : α → BitVec n} (hf : Linear f) (m : ℕ) : Linear fun a => (f a).setWidth m :=
  fun a b => by dsimp only; rw [hf, BitVec.setWidth_xor]

lemma Linear.append {f : α → BitVec m} {g : α → BitVec n} (hf : Linear f) (hg : Linear g) :
    Linear fun a => f a ++ g a :=
  fun a b => by dsimp only; rw [hf, hg, BitVec.xor_append]

lemma Linear.extract {f : α → BitVec n} (hf : Linear f) (i w : ℕ) : Linear fun a => (f a).extractLsb' i w :=
  fun a b => by dsimp only; rw [hf, BitVec.extractLsb'_xor]

lemma Linear.rotateLeft {f : α → BitVec n} (hf : Linear f) (s : ℕ) : Linear fun a => (f a).rotateLeft s := by
  intro a b
  dsimp only
  rw [hf]
  ext i hi
  simp only [BitVec.getElem_rotateLeft, BitVec.getElem_xor]
  split <;> rfl

/-- A choice of bits is linear. -/
lemma Linear.ofFnBE {f : α → BitVec n} (hf : Linear f) (place : Fin m → ℕ) :
    Linear fun a => BitVec.ofFnBE fun i => (f a).getMsbD (place i) := by
  intro a b
  dsimp only
  rw [hf]
  ext i hi
  simp

/-- A linear function with all its bits in the mask `m`. -/
structure LinearIn (m : BitVec n) (f : α → BitVec n) : Prop where
  linear : Linear f
  within : ∀ a, f a &&& m = f a

lemma Linear.inMask {f : α → BitVec n} (hf : Linear f) (m : BitVec n) : LinearIn m fun a => f a &&& m :=
  ⟨hf.and m, fun a => by rw [BitVec.and_assoc, BitVec.and_self]⟩

lemma LinearIn.shiftLeft {m : BitVec n} {f : α → BitVec n} (hf : LinearIn m f) (s : ℕ) :
    LinearIn (m <<< s) fun a => f a <<< s :=
  ⟨hf.linear.shiftLeft s, fun a => by rw [← BitVec.shiftLeft_and_distrib, hf.within]⟩

/-- Parts that have no bit in common are put together by `or`. -/
lemma LinearIn.or {l m : BitVec n} {f g : α → BitVec n} (hf : LinearIn l f) (hg : LinearIn m g)
    (hlm : l &&& m = 0) : LinearIn (l ||| m) fun a => f a ||| g a := by
  have hbits : ∀ i (hi : i < n), l[i] = false ∨ m[i] = false := by
    intro i hi
    have hbit := congrArg (fun v : BitVec n => v[i]) hlm
    cases hl : l[i] with
    | false => exact Or.inl rfl
    | true => exact Or.inr (by simpa [hl] using hbit)
  have hxor : (fun a => f a ||| g a) = fun a => f a ^^^ g a := by
    funext a
    rw [← hf.within a, ← hg.within a]
    ext i hi
    rcases hbits i hi with h | h <;> simp [h]
  refine ⟨by rw [hxor]; exact hf.linear.xor hg.linear, fun a => ?_⟩
  rw [← hf.within a, ← hg.within a]
  ext i hi
  cases hl : l[i] <;> cases hm : m[i] <;> simp [hl, hm]

end Closure

section Units

variable {β : Type*} [XorOp β] {m n : ℕ}

/-- The words below bit `k` are enough when the words with one bit are. -/
lemma Linear.ext_below {f g : BitVec n → β} (hf : Linear f) (hg : Linear g) (h0 : f 0 = g 0)
    (h : ∀ i < n, f (BitVec.twoPow n i) = g (BitVec.twoPow n i)) (k : ℕ) :
    ∀ v : BitVec n, (∀ i, k ≤ i → v.getLsbD i = false) → f v = g v := by
  induction k with
  | zero =>
      intro v hv
      have hzero : v = 0 := BitVec.eq_of_getLsbD_eq fun i _ => by rw [hv i (Nat.zero_le i)]; simp
      rw [hzero, h0]
  | succ k ih =>
      intro v hv
      cases hbit : v.getLsbD k with
      | false =>
          refine ih v fun i hi => ?_
          rcases Nat.eq_or_lt_of_le hi with rfl | hlt
          · exact hbit
          · exact hv i hlt
      | true =>
          have hk : k < n := BitVec.lt_of_getLsbD hbit
          have hback : v = (v ^^^ BitVec.twoPow n k) ^^^ BitVec.twoPow n k := by
            rw [BitVec.xor_assoc, BitVec.xor_self, BitVec.xor_zero]
          have hrest : f (v ^^^ BitVec.twoPow n k) = g (v ^^^ BitVec.twoPow n k) := by
            refine ih _ fun i hi => ?_
            rw [BitVec.getLsbD_xor, BitVec.getLsbD_twoPow]
            rcases Nat.eq_or_lt_of_le hi with rfl | hlt
            · simp [hbit, hk]
            · simp [hv i hlt, Nat.ne_of_lt hlt]
          rw [hback, hf, hg, hrest, h k hk]

/-- **Two linear functions of a word are equal when they agree on the words with one bit.** -/
theorem Linear.ext {f g : BitVec n → β} (hf : Linear f) (hg : Linear g) (h0 : f 0 = g 0)
    (h : ∀ i < n, f (BitVec.twoPow n i) = g (BitVec.twoPow n i)) : f = g :=
  funext fun v => hf.ext_below hg h0 h n v fun _ hi => BitVec.getLsbD_of_ge v _ hi

/-- Two linear functions of two words are equal when they agree where one word has one bit and the
other has none. -/
theorem Linear.ext_pair {f g : BitVec m × BitVec n → β} (hf : Linear f) (hg : Linear g)
    (h0 : f (0, 0) = g (0, 0))
    (hl : ∀ i < m, f (BitVec.twoPow m i, 0) = g (BitVec.twoPow m i, 0))
    (hr : ∀ i < n, f (0, BitVec.twoPow n i) = g (0, BitVec.twoPow n i)) : f = g := by
  have hleft : Linear fun a : BitVec m => (a, (0 : BitVec n)) := fun a b => by simp
  have hright : Linear fun b : BitVec n => ((0 : BitVec m), b) := fun a b => by simp
  funext p
  obtain ⟨a, b⟩ := p
  have hsplit : (a, b) = ((a, 0) : BitVec m × BitVec n) ^^^ (0, b) := by simp
  have ha : f (a, 0) = g (a, 0) := congrFun ((hf.comp hleft).ext (hg.comp hleft) h0 hl) a
  have hb : f (0, b) = g (0, b) := congrFun ((hf.comp hright).ext (hg.comp hright) h0 hr) b
  rw [hsplit, hf, hg, ha, hb]

end Units

end XorLinear
