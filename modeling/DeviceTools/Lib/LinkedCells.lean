/-
Linked cells in memory.

A heap maps the addresses in use to cells, each with a value and the address of the next cell.
`Linked h p as vs` says that the pointer `p` leads over the cells at the addresses `as`, with
the values `vs`, to the null pointer.  The lemmas say that such a chain is kept by changes of
other cells, and what becomes of it when a cell is added at its end.
-/
import Mathlib

namespace LinkedCells

variable {α : Type}

/-- A cell. -/
structure Cell (α : Type) where
  value : α
  next : Option ℕ

/-- The cells in use. -/
abbrev Heap (α : Type) := ℕ → Option (Cell α)

/-- The chain of cells from a pointer on. -/
inductive Linked (h : Heap α) : Option ℕ → List ℕ → List α → Prop
  | nil : Linked h none [] []
  | cons {a : ℕ} {c : Cell α} {as : List ℕ} {vs : List α} (hc : h a = some c)
      (hrest : Linked h c.next as vs) : Linked h (some a) (a :: as) (c.value :: vs)

variable {h h' : Heap α} {p : Option ℕ} {as : List ℕ} {vs : List α}

lemma Linked.length_eq (hl : Linked h p as vs) : as.length = vs.length := by
  induction hl with
  | nil => rfl
  | cons _ _ ih => rw [List.length_cons, List.length_cons, ih]

/-- Every cell of a chain is in use. -/
lemma Linked.mem (hl : Linked h p as vs) {a : ℕ} (ha : a ∈ as) : ∃ c, h a = some c := by
  induction hl with
  | nil => simp at ha
  | @cons b c as vs hc _ ih =>
      rcases List.mem_cons.1 ha with rfl | ha
      · exact ⟨c, hc⟩
      · exact ih ha

/-- A chain depends only on its own cells. -/
lemma Linked.congr (hl : Linked h p as vs) (heq : ∀ a ∈ as, h' a = h a) : Linked h' p as vs := by
  induction hl with
  | nil => exact .nil
  | @cons a c as vs hc _ ih =>
      refine .cons ?_ (ih fun b hb => heq b (List.mem_cons_of_mem a hb))
      rw [heq a List.mem_cons_self, hc]

/-- The pointer to a chain that has cells is the address of the first one. -/
lemma Linked.front_eq (hl : Linked h p as vs) : p = as.head? := by
  cases hl with
  | nil => rfl
  | cons _ _ => rfl

/-- The first cell of a chain, and the chain behind it. -/
lemma Linked.uncons {a : ℕ} {v : α} (hl : Linked h p (a :: as) (v :: vs)) :
    ∃ c, h a = some c ∧ c.value = v ∧ Linked h c.next as vs := by
  cases hl with
  | @cons _ c _ _ hc hrest => exact ⟨c, hc, rfl, hrest⟩

/-- **A cell is added at the end**: the pointer of the last cell is set to a new cell. -/
lemma Linked.snoc (hl : Linked h p as vs) (hnodup : as.Nodup) {r b : ℕ} {c : Cell α} {v : α}
    (hr : as.getLast? = some r) (hc : h r = some c) (hb : b ∉ as) (hcell : h b = some ⟨v, none⟩) :
    Linked (Function.update h r (some { c with next := some b })) p (as ++ [b]) (vs ++ [v]) := by
  induction hl with
  | nil => simp at hr
  | @cons a c₁ as vs hc₁ hrest ih =>
      have hbr : b ≠ r := by
        rintro rfl
        exact hb (List.mem_of_getLast? hr)
      cases has : as with
      | nil =>
          -- the first cell is the last one
          subst has
          rw [List.getLast?_singleton, Option.some.injEq] at hr
          subst hr
          have hvs : vs = [] := List.length_eq_zero_iff.1 hrest.length_eq.symm
          subst hvs
          rw [hc] at hc₁
          rw [← Option.some.inj hc₁, List.singleton_append, List.singleton_append]
          refine .cons (c := { c with next := some b }) (by rw [Function.update_self]) ?_
          exact .cons (c := ⟨v, none⟩) (by rw [Function.update_of_ne hbr, hcell]) .nil
      | cons a' as' =>
          have hlast : as.getLast? = some r := by
            rw [has] at hr ⊢
            rwa [List.getLast?_cons_cons] at hr
          have har : a ≠ r := by
            rintro rfl
            exact (List.nodup_cons.1 hnodup).1 (List.mem_of_getLast? hlast)
          have hrec := ih (List.nodup_cons.1 hnodup).2 hlast fun hc => hb (List.mem_cons_of_mem a hc)
          rw [has] at hrec
          exact .cons (by rw [Function.update_of_ne har, hc₁]) hrec

/-- **The second cell is taken out**: the first one is linked to the third, and the cell is freed. -/
lemma Linked.unlink {a b : ℕ} {u v : α} (hl : Linked h (some a) (a :: b :: as) (u :: v :: vs))
    (hnodup : (a :: b :: as).Nodup) :
    ∃ c n, h a = some c ∧ c.next = some b ∧ h b = some n ∧ n.value = v ∧
      Linked (Function.update (Function.update h a (some { c with next := n.next })) b none) (some a) (a :: as)
        (u :: vs) := by
  rw [List.nodup_cons, List.nodup_cons, List.mem_cons, not_or] at hnodup
  obtain ⟨⟨hab, haas⟩, hbas, -⟩ := hnodup
  cases hl with
  | @cons _ c _ _ hc hrest =>
      obtain ⟨n, hn, hvalue, htail⟩ := hrest.uncons
      refine ⟨c, n, hc, hrest.front_eq, hn, hvalue, ?_⟩
      refine .cons (c := { c with next := n.next }) ?_ (htail.congr fun x hx => ?_)
      · rw [Function.update_of_ne hab, Function.update_self]
      · have hxb : x ≠ b := fun hc => hbas (hc ▸ hx)
        have hxa : x ≠ a := fun hc => haas (hc ▸ hx)
        rw [Function.update_of_ne hxb, Function.update_of_ne hxa]

/-- **A cell further on is taken out**: the one in front of it is linked to the one behind it. -/
lemma Linked.takeOut {pre post : List ℕ} {r b : ℕ} {u v : α} {us ws : List α}
    (hl : Linked h p (pre ++ r :: b :: post) (us ++ u :: v :: ws)) (hlen : us.length = pre.length)
    (hnodup : (pre ++ r :: b :: post).Nodup) :
    ∃ c n, h r = some c ∧ c.next = some b ∧ h b = some n ∧ n.value = v ∧
      Linked (Function.update (Function.update h r (some { c with next := n.next })) b none) p (pre ++ r :: post)
        (us ++ u :: ws) := by
  induction pre generalizing p us with
  | nil =>
      obtain rfl : us = [] := List.length_eq_zero_iff.1 hlen
      have hfront := hl.front_eq
      rw [List.nil_append, List.head?_cons] at hfront
      subst hfront
      exact hl.unlink hnodup
  | cons a pre ih =>
      obtain ⟨x, us, rfl⟩ := List.exists_cons_of_length_eq_add_one hlen
      rw [List.cons_append, List.nodup_cons, List.mem_append, not_or, List.mem_cons, not_or, List.mem_cons,
        not_or] at hnodup
      obtain ⟨⟨-, har, hab, -⟩, hrest⟩ := hnodup
      have hfront := hl.front_eq
      rw [List.cons_append, List.head?_cons] at hfront
      subst hfront
      obtain ⟨c₁, hc₁, hvalue, hlinked⟩ := hl.uncons
      obtain ⟨c, n, hc, hnext, hn, hv, htaken⟩ := ih hlinked (Nat.succ.inj hlen) hrest
      refine ⟨c, n, hc, hnext, hn, hv, ?_⟩
      rw [← hvalue]
      exact .cons (by rw [Function.update_of_ne hab, Function.update_of_ne har, hc₁]) htaken

end LinkedCells
