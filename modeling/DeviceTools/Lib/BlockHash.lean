/-
Functions of a message that take it in blocks.

A state is changed by one block of `n` items at a time, and what does not fill a block is left for
later.  A message that comes in parts leads to the same state and the same rest as the whole: what is
left of one part goes in front of the next.
-/
import Mathlib

namespace BlockHash

variable {σ α : Type*} {n : ℕ} (f : σ → List α → σ)

/-- The state behind the whole blocks of `m`, and what is left of `m` behind them. -/
def feed (n : ℕ) (f : σ → List α → σ) (s : σ) (m : List α) : σ × List α :=
  if 0 < n ∧ n ≤ m.length then feed n f (f s (m.take n)) (m.drop n) else (s, m)
termination_by m.length
decreasing_by
  rw [List.length_drop]
  omega

lemma feed_of_lt (s : σ) {m : List α} (h : m.length < n) : feed n f s m = (s, m) := by
  rw [feed, if_neg (by omega)]

/-- A block in front. -/
lemma feed_block (hn : 0 < n) (s : σ) {b : List α} (hb : b.length = n) (m : List α) :
    feed n f s (b ++ m) = feed n f (f s b) m := by
  rw [feed, if_pos ⟨hn, by rw [List.length_append]; omega⟩, List.take_left' hb, List.drop_left' hb]

/-- **A message in two parts.**  What the first part leaves goes in front of the second. -/
theorem feed_append (s : σ) (a b : List α) :
    feed n f s (a ++ b) = feed n f (feed n f s a).1 ((feed n f s a).2 ++ b) := by
  fun_induction feed n f s a with
  | case1 s a h ih =>
      rw [feed, if_pos ⟨h.1, by rw [List.length_append]; omega⟩, List.take_append_of_le_length h.2,
        List.drop_append_of_le_length h.2, ih]
  | case2 s a h => rfl

/-- The rest is what does not fill a block. -/
lemma length_feed (hn : 0 < n) (s : σ) (m : List α) : (feed n f s m).2.length = m.length % n := by
  fun_induction feed n f s m with
  | case1 s m h ih =>
      rw [ih, List.length_drop, Nat.mod_eq_sub_mod h.2]
  | case2 s m h => rw [Nat.mod_eq_of_lt (by omega)]

end BlockHash
