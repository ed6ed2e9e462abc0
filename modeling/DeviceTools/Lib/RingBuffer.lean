/-
RingBuffer buffers with a writing and a reading position.

The buffer has `N` places.  The writer stores at `head` and returns to place 0 when it
reaches the end; the reader takes from `tail` in the same way.  `Holds r u` says that the
places from `tail` up to `head` have the items `u`, which have been written and not yet
read.  A reader sees at once only the items up to the end of the buffer (`fresh`).
-/
import Mathlib

/-- A ring buffer; the number of places is a parameter of its operations. -/
structure RingBuffer (α : Type) where
  buf : ℕ → α
  head : ℕ
  tail : ℕ

namespace RingBuffer

variable {α : Type} (N : ℕ)

/-- The number of items that the reader sees without returning to place 0. -/
def avail (r : RingBuffer α) : ℕ := if r.tail < r.head then r.head - r.tail else N - r.tail

/-- The items that the reader sees without returning to place 0. -/
def fresh (r : RingBuffer α) : List α := (List.range (r.avail N)).map fun i => r.buf (r.tail + i)

/-- The writer stores items from `head` on, and returns to place 0 at the end. -/
def write (r : RingBuffer α) (xs : List α) : RingBuffer α where
  buf i := if r.head ≤ i then (xs[i - r.head]?).getD (r.buf i) else r.buf i
  head := if N ≤ r.head + xs.length then 0 else r.head + xs.length
  tail := r.tail

/-- The reader moves on, and returns to place 0 at the end. -/
def setTail (r : RingBuffer α) (t : ℕ) : RingBuffer α := { r with tail := if N ≤ t then 0 else t }

/-- The items written and not yet read are `u`. -/
structure Holds (r : RingBuffer α) (u : List α) : Prop where
  tail_lt : r.tail < N
  length_lt : u.length < N
  head_eq : r.head = (r.tail + u.length) % N
  buf_eq : ∀ i a, u[i]? = some a → r.buf ((r.tail + i) % N) = a

variable {N} {r : RingBuffer α} {u : List α}

@[simp] lemma length_fresh : (r.fresh N).length = r.avail N := by simp [fresh]

lemma Holds.head_lt (h : r.Holds N u) : r.head < N := by
  rw [h.head_eq]
  exact Nat.mod_lt _ (Nat.zero_lt_of_lt h.tail_lt)

/-- The reader has nothing to read exactly when the two positions agree. -/
lemma Holds.head_eq_tail_iff (h : r.Holds N u) : r.head = r.tail ↔ u = [] := by
  have ht := h.tail_lt; have hl := h.length_lt
  rw [h.head_eq, ← List.length_eq_zero_iff]
  by_cases hw : r.tail + u.length < N
  · rw [Nat.mod_eq_of_lt hw]
    omega
  · rw [Nat.mod_eq_sub_mod (by omega), Nat.mod_eq_of_lt (by omega)]
    omega

/-- If there is something to read, the reader sees it up to the end of the buffer. -/
lemma Holds.avail_eq (h : r.Holds N u) (hne : u ≠ []) : r.avail N = min u.length (N - r.tail) := by
  have ht := h.tail_lt; have hl := h.length_lt
  have hpos : 0 < u.length := List.length_pos_iff.2 hne
  have hhead := h.head_eq
  rw [avail]
  by_cases hw : r.tail + u.length < N
  · rw [Nat.mod_eq_of_lt hw] at hhead
    rw [if_pos (by omega)]
    omega
  · rw [Nat.mod_eq_sub_mod (by omega), Nat.mod_eq_of_lt (by omega)] at hhead
    rw [if_neg (by omega)]
    omega

lemma Holds.fresh_eq (h : r.Holds N u) (hne : u ≠ []) : r.fresh N = u.take (N - r.tail) := by
  have ht := h.tail_lt
  apply List.ext_getElem?
  intro i
  by_cases hi : i < r.avail N
  · have havail := h.avail_eq hne
    have hiu : i < u.length := by omega
    have hb := h.buf_eq i u[i] (List.getElem?_eq_getElem hiu)
    rw [Nat.mod_eq_of_lt (by omega)] at hb
    simp only [fresh, List.getElem?_map, List.getElem?_range hi, Option.map_some, hb]
    rw [List.getElem?_take_of_lt (by omega), List.getElem?_eq_getElem hiu]
  · have havail := h.avail_eq hne
    rw [List.getElem?_eq_none (by simpa using hi), List.getElem?_eq_none]
    rw [List.length_take]
    omega

/-- An empty ring. -/
lemma holds_nil (hN : 0 < N) (b : ℕ → α) : (⟨b, 0, 0⟩ : RingBuffer α).Holds N [] :=
  ⟨hN, hN, by simp, by simp⟩

/-- **Writing** behind the unread items, up to the end of the buffer and without reaching
the reader, adds to the unread items. -/
lemma Holds.write (h : r.Holds N u) {xs : List α} (hend : xs.length ≤ N - r.head)
    (hroom : u.length + xs.length < N) : (r.write N xs).Holds N (u ++ xs) := by
  have ht := h.tail_lt; have hl := h.length_lt; have hh := h.head_lt
  have hhead := h.head_eq
  have hcase : (r.tail + u.length < N ∧ r.head = r.tail + u.length) ∨
      (N ≤ r.tail + u.length ∧ r.head + N = r.tail + u.length) := by
    by_cases hw : r.tail + u.length < N
    · rw [Nat.mod_eq_of_lt hw] at hhead
      exact Or.inl ⟨hw, hhead⟩
    · rw [Nat.mod_eq_sub_mod (by omega), Nat.mod_eq_of_lt (by omega)] at hhead
      exact Or.inr ⟨by omega, by omega⟩
  refine ⟨ht, by simpa using hroom, ?_, ?_⟩
  · simp only [RingBuffer.write, List.length_append]
    rcases hcase with ⟨hw, hc⟩ | ⟨hw, hc⟩
    · split
      · have : r.tail + (u.length + xs.length) = N := by omega
        rw [this, Nat.mod_self]
      · rw [Nat.mod_eq_of_lt (by omega)]
        omega
    · rw [if_neg (by omega), Nat.mod_eq_sub_mod (by omega), Nat.mod_eq_of_lt (by omega)]
      omega
  · intro i a hi
    simp only [RingBuffer.write]
    by_cases hiu : i < u.length
    · -- an old item, which is not in the written part
      rw [List.getElem?_append_left hiu] at hi
      have hb := h.buf_eq i a hi
      by_cases hle : r.head ≤ (r.tail + i) % N
      · rw [if_pos hle, List.getElem?_eq_none, Option.getD_none, hb]
        rcases hcase with ⟨hw, hc⟩ | ⟨hw, hc⟩
        · rw [Nat.mod_eq_of_lt (by omega)] at hle
          omega
        · by_cases hwi : r.tail + i < N
          · rw [Nat.mod_eq_of_lt hwi]
            omega
          · rw [Nat.mod_eq_sub_mod (by omega), Nat.mod_eq_of_lt (by omega)] at hle
            omega
      · rw [if_neg hle, hb]
    · -- a new item
      rw [List.getElem?_append_right (by omega)] at hi
      have hix : i - u.length < xs.length := (List.getElem?_eq_some_iff.1 hi).1
      have hpos : (r.tail + i) % N = r.head + (i - u.length) := by
        rcases hcase with ⟨hw, hc⟩ | ⟨hw, hc⟩
        · rw [Nat.mod_eq_of_lt (by omega)]
          omega
        · rw [Nat.mod_eq_sub_mod (by omega), Nat.mod_eq_of_lt (by omega)]
          omega
      rw [hpos, if_pos (by omega), Nat.add_sub_cancel_left, hi, Option.getD_some]

/-- **Reading** items the reader sees removes them from the unread items. -/
lemma Holds.setTail (h : r.Holds N u) {n : ℕ} (hn : n ≤ u.length) (hend : r.tail + n ≤ N) :
    (r.setTail N (r.tail + n)).Holds N (u.drop n) := by
  have ht := h.tail_lt; have hl := h.length_lt; have hhead := h.head_eq
  have htail : ∀ k, ((r.setTail N (r.tail + n)).tail + k) % N = (r.tail + n + k) % N := by
    intro k
    simp only [RingBuffer.setTail]
    split
    · have : r.tail + n = N := by omega
      rw [this, Nat.zero_add, Nat.add_mod_left]
    · rfl
  refine ⟨?_, by simp; omega, ?_, ?_⟩
  · simp only [RingBuffer.setTail]
    split <;> omega
  · rw [htail, List.length_drop]
    simp only [RingBuffer.setTail]
    rw [hhead]
    congr 1
    omega
  · intro i a hi
    rw [List.getElem?_drop] at hi
    rw [htail, Nat.add_assoc]
    exact h.buf_eq (n + i) a hi

end RingBuffer
