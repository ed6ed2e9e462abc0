/-
Feistel networks.

A round of the network exchanges two halves and combines one of them with a function of the other
and of a round key.  The round function is arbitrary: the network is inverted by the same rounds
with the keys in reverse order, because the combination undoes itself.
-/
import Mathlib

namespace Feistel

variable {α β κ κ' : Type*} [XorOp α] [XorOp β]

/-- One round with round key `k`. -/
def round (f : κ → α → α) (s : α × α) (k : κ) : α × α := (s.2, s.1 ^^^ f k s.2)

/-- The rounds with the keys of a list, in order. -/
def run (f : κ → α → α) (s : α × α) (ks : List κ) : α × α := ks.foldl (round f) s

lemma run_cons (f : κ → α → α) (s : α × α) (k : κ) (ks : List κ) :
    run f s (k :: ks) = run f (round f s k) ks := rfl

lemma run_append (f : κ → α → α) (s : α × α) (ks ls : List κ) :
    run f s (ks ++ ls) = run f (run f s ks) ls := List.foldl_append

lemma run_concat (f : κ → α → α) (s : α × α) (ks : List κ) (k : κ) :
    run f s (ks ++ [k]) = round f (run f s ks) k := run_append f s ks [k]

/-- A round undoes itself, up to the order of the halves. -/
lemma round_swap_round (cancel : ∀ a b : α, a ^^^ b ^^^ b = a) (f : κ → α → α) (s : α × α) (k : κ) :
    round f (round f s k).swap k = s.swap := by
  obtain ⟨a, b⟩ := s
  exact Prod.ext rfl (cancel a (f k b))

/-- **The network with the keys in reverse order is the inverse**, up to the order of the halves. -/
theorem run_reverse (cancel : ∀ a b : α, a ^^^ b ^^^ b = a) (f : κ → α → α) (s : α × α) (ks : List κ) :
    run f (run f s ks).swap ks.reverse = s.swap := by
  induction ks generalizing s with
  | nil => rfl
  | cons k ks ih =>
      rw [List.reverse_cons, run_concat, run_cons, ih, round_swap_round cancel]

/-- **A network is carried to another network.**  When `φ` carries the halves, `δ` the values of the
round function and `ψ` the keys, and each fits the other, the runs correspond. -/
theorem run_map {φ δ : α → β} {ψ : κ → κ'} {f : κ → α → α} {g : κ' → β → β}
    (hφ : ∀ a b, φ (a ^^^ b) = φ a ^^^ δ b) (hf : ∀ k a, g (ψ k) (φ a) = δ (f k a))
    (s : α × α) (ks : List κ) :
    run g (Prod.map φ φ s) (ks.map ψ) = Prod.map φ φ (run f s ks) := by
  induction ks generalizing s with
  | nil => rfl
  | cons k ks ih =>
      have hround : round g (Prod.map φ φ s) (ψ k) = Prod.map φ φ (round f s k) :=
        Prod.ext rfl (by rw [round, Prod.map_fst, Prod.map_snd, hf, ← hφ]; rfl)
      rw [List.map_cons, run_cons, run_cons, hround, ih]

end Feistel
