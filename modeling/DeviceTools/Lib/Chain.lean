/-
Following a partial function.

A point `a` leads to the point `f a`, if there is one.  `Ends f a` says that the way from `a` on
is finite.  When the points that the function leads to are finitely many, the way is finite
exactly when it never comes back to one of its points (`ends_iff`).  Along a way a cost is
summed up (`total`).
-/
import Mathlib

namespace Chain

open Relation

variable {α : Type} (f : α → Option α)

/-- `b` is the point behind `a`. -/
def Next (a b : α) : Prop := f a = some b

/-- The way from a point on is finite. -/
inductive Ends : α → Prop
  | step {a : α} (h : ∀ b, f a = some b → Ends b) : Ends a

/-- No point on the way from `a` on is reached a second time. -/
def Acyclic (a : α) : Prop := ∀ b, ReflTransGen (Next f) a b → ¬ TransGen (Next f) b b

variable {f}

lemma Ends.next {a b : α} (h : Ends f a) (hab : f a = some b) : Ends f b := by
  cases h with
  | step h => exact h b hab

lemma Ends.of_reaches {a b : α} (h : Ends f a) (hab : ReflTransGen (Next f) a b) : Ends f b := by
  induction hab with
  | refl => exact h
  | tail _ hbc ih => exact ih.next hbc

/-- A finite way does not come back to its first point. -/
lemma Ends.irrefl {a : α} (h : Ends f a) : ¬ TransGen (Next f) a a := by
  induction h with
  | @step a _ ih =>
      intro hloop
      obtain ⟨b, hab, hba⟩ := TransGen.head'_iff.1 hloop
      -- the loop through `a` is also a loop through the point behind it
      exact ih b hab (TransGen.tail' hba hab)

/-- **Finite ways.**  If the function leads only to points of a finite set, a way is finite if
and only if no point comes a second time. -/
lemma ends_iff {s : Set α} (hs : s.Finite) (hrange : ∀ a b, f a = some b → b ∈ s) (a : α) :
    Ends f a ↔ Acyclic f a := by
  constructor
  · intro h b hab
    exact (h.of_reaches hab).irrefl
  · intro hacyc
    -- on the points of the way, "comes later" is a strict order, and there are finitely many
    let T := {x : α // x ∈ insert a s}
    let r : T → T → Prop := fun x y => ReflTransGen (Next f) a y ∧ TransGen (Next f) y.1 x.1
    have hfin : Finite T := (hs.insert a).to_subtype
    have htrans : IsTrans T r := ⟨fun x y z hxy hyz => ⟨hyz.1, hyz.2.trans hxy.2⟩⟩
    have hirrefl : Std.Irrefl r := ⟨fun x hx => hacyc x.1 hx.1 hx.2⟩
    have hwf : WellFounded r := Finite.wellFounded_of_trans_of_irrefl r
    have hall : ∀ x : T, ReflTransGen (Next f) a x → Ends f x.1 := by
      intro x
      induction x using hwf.induction with
      | _ x ih =>
          intro hax
          refine .step fun b hxb => ?_
          have hb : b ∈ insert a s := Set.mem_insert_of_mem a (hrange _ _ hxb)
          exact ih ⟨b, hb⟩ ⟨hax, .single hxb⟩ (hax.tail hxb)
    exact hall ⟨a, Set.mem_insert a s⟩ .refl

/-! ### Sums along the way -/

variable (f) (cost : α → ℕ)

/-- The cost of the first `n` points from `a` on. -/
def total : ℕ → α → ℕ
  | 0, _ => 0
  | n + 1, a => cost a + ((f a).map (total n)).getD 0

variable {f cost}

lemma total_of_none {a : α} (h : f a = none) (n : ℕ) : total f cost (n + 1) a = cost a := by
  simp [total, h]

lemma total_of_some {a b : α} (h : f a = some b) (n : ℕ) :
    total f cost (n + 1) a = cost a + total f cost n b := by
  simp [total, h]

lemma total_mono (m : ℕ) : ∀ (n : ℕ) (a : α), total f cost n a ≤ total f cost (n + m) a := by
  intro n
  induction n with
  | zero => intro a; simp [total]
  | succ n ih =>
      intro a
      rw [Nat.add_right_comm]
      cases hf : f a with
      | none => rw [total_of_none hf, total_of_none hf]
      | some b =>
          rw [total_of_some hf, total_of_some hf]
          exact Nat.add_le_add_left (ih b) _

end Chain
