/-
Computations with three outcomes: a value, an error, or no defined behaviour.
-/
import Mathlib

/-- The outcome of a computation that may fail and may be undefined. -/
inductive Outcome (ε α : Type) where
  | ok (a : α)
  | error (e : ε)
  | undefined

namespace Outcome

variable {ε α β : Type}

/-- The second computation takes the value of the first. -/
def bind (x : Outcome ε α) (f : α → Outcome ε β) : Outcome ε β :=
  match x with
  | ok a => f a
  | error e => error e
  | undefined => undefined

instance : Monad (Outcome ε) where
  pure := ok
  bind := bind

@[simp] lemma ok_bind (a : α) (f : α → Outcome ε β) : (ok a >>= f) = f a := rfl

@[simp] lemma error_bind (e : ε) (f : α → Outcome ε β) : (error e >>= f) = error e := rfl

@[simp] lemma undefined_bind (f : α → Outcome ε β) : (undefined >>= f) = undefined := rfl

/-- A computation with a value has values in both parts. -/
lemma ok_of_bind {x : Outcome ε α} {f : α → Outcome ε β} {b : β} (h : (x >>= f) = ok b) :
    ∃ a, x = ok a ∧ f a = ok b := by
  cases x with
  | ok a => exact ⟨a, rfl, h⟩
  | error e => cases h
  | undefined => cases h

/-- The second computation matters only at the value of the first. -/
lemma bind_congr {x : Outcome ε α} {f g : α → Outcome ε β} (h : ∀ a, x = ok a → f a = g a) :
    (x >>= f) = (x >>= g) := by
  cases x with
  | ok a => exact h a rfl
  | error e => rfl
  | undefined => rfl

end Outcome
