/-
Memory as a function from addresses.

`slice m off n` reads `n` items from the address `off` on, and `poke m d xs` is the memory `m`
after the list `xs` has been stored from the address `d` on.  Stores behind each other are one
store of the concatenation, and a store that starts at the last place of an earlier one
replaces the last item.

A span is the places of one access.  What is read in spans inside a buffer is a function of the
buffer, and stores in spans inside it change nothing else.
-/
import Mathlib

namespace Memory

variable {α : Type}

/-- Memory of bytes. -/
abbrev Bytes := ℕ → UInt8

/-- The `n` items from address `off` on. -/
def slice (m : ℕ → α) (off n : ℕ) : List α := (List.range n).map fun k => m (off + k)

@[simp] lemma length_slice (m : ℕ → α) (off n : ℕ) : (slice m off n).length = n := by
  simp [slice]

lemma slice_congr {m m' : ℕ → α} {off n : ℕ} (h : ∀ k, off ≤ k → k < off + n → m k = m' k) :
    slice m off n = slice m' off n := by
  refine List.map_congr_left fun k hk => h _ (by omega) ?_
  rw [List.mem_range] at hk
  omega

lemma slice_succ (m : ℕ → α) (off n : ℕ) : slice m off (n + 1) = m off :: slice m (off + 1) n := by
  rw [slice, List.range_succ_eq_map, List.map_cons, List.map_map, slice, Nat.add_zero]
  congr 1
  exact List.map_congr_left fun k _ => by rw [Function.comp_apply, Nat.succ_eq_add_one]; congr 1; omega

lemma drop_slice (m : ℕ → α) (k : ℕ) : ∀ off n, (slice m off n).drop k = slice m (off + k) (n - k) := by
  induction k with
  | zero => intro off n; rfl
  | succ k ih =>
      intro off n
      cases n with
      | zero => rw [Nat.zero_sub]; rfl
      | succ n =>
          rw [slice_succ, List.drop_succ_cons, ih, Nat.add_sub_add_right, Nat.add_right_comm, Nat.add_assoc]

lemma take_slice (m : ℕ → α) (off : ℕ) {k n : ℕ} (h : k ≤ n) : (slice m off n).take k = slice m off k := by
  rw [slice, ← List.map_take, List.take_range, Nat.min_eq_left h, slice]

/-- A part behind another. -/
lemma slice_add (m : ℕ → α) (off a b : ℕ) :
    slice m off (a + b) = slice m off a ++ slice m (off + a) b := by
  rw [← List.take_append_drop a (slice m off (a + b)), take_slice m off (Nat.le_add_right a b),
    drop_slice, Nat.add_sub_cancel_left]

/-- The memory after `xs` has been stored from `d` on. -/
def poke (m : ℕ → α) (d : ℕ) (xs : List α) : ℕ → α :=
  fun i => if d ≤ i then (xs[i - d]?).getD (m i) else m i

@[simp] lemma poke_nil (m : ℕ → α) (d : ℕ) : poke m d [] = m := by
  funext i
  simp [poke]

/-- The stored items. -/
lemma poke_add (m : ℕ → α) (d : ℕ) (xs : List α) {i : ℕ} {a : α} (h : xs[i]? = some a) :
    poke m d xs (d + i) = a := by
  simp [poke, h]

/-- The stored items are read back. -/
lemma slice_poke (m : ℕ → α) (d : ℕ) (xs : List α) : slice (poke m d xs) d xs.length = xs := by
  apply List.ext_getElem?
  intro k
  by_cases hk : k < xs.length
  · have hget := List.getElem?_eq_getElem hk
    rw [hget, slice, List.getElem?_map, List.getElem?_range hk, Option.map_some, poke_add _ _ _ hget]
  · rw [List.getElem?_eq_none (by simpa using hk), List.getElem?_eq_none (by omega)]

/-- Behind the stored items the memory is unchanged. -/
lemma poke_behind (m : ℕ → α) {d i : ℕ} {xs : List α} (h : d + xs.length ≤ i) :
    poke m d xs i = m i := by
  rw [poke, List.getElem?_eq_none (by omega), Option.getD_none, ite_self]

/-- Two stores behind each other. -/
lemma poke_append (m : ℕ → α) (d : ℕ) (xs ys : List α) :
    poke (poke m d xs) (d + xs.length) ys = poke m d (xs ++ ys) := by
  funext i
  simp only [poke]
  by_cases hi : d + xs.length ≤ i
  · have hd : d ≤ i := by omega
    have hx : xs[i - d]? = none := List.getElem?_eq_none (by omega)
    simp only [if_pos hi, if_pos hd, hx, Option.getD_none]
    rw [List.getElem?_append_right (by omega), Nat.sub_sub]
  · rw [if_neg hi]
    by_cases hd : d ≤ i
    · rw [if_pos hd, if_pos hd, List.getElem?_append_left (by omega)]
    · rw [if_neg hd, if_neg hd]

/-- A store over the last item of an earlier one. -/
lemma poke_over (m : ℕ → α) (d : ℕ) (xs : List α) (z y : α) (ys : List α) :
    poke (poke m d (xs ++ [z])) (d + xs.length) (y :: ys) = poke m d (xs ++ y :: ys) := by
  rw [← poke_append m d xs [z], ← poke_append m d xs (y :: ys)]
  generalize poke m d xs = m'
  funext i
  simp only [poke]
  by_cases hi : d + xs.length ≤ i
  · simp only [if_pos hi]
    rcases Nat.eq_or_lt_of_le hi with rfl | hlt
    · simp
    · have h1 : [z][i - (d + xs.length)]? = none := List.getElem?_eq_none (by simp; omega)
      rw [h1, Option.getD_none]
  · simp only [if_neg hi]

/-- A store over the front of an earlier one. -/
lemma slice_poke_poke (m : ℕ → α) (d : ℕ) {xs zs : List α} (h : xs.length ≤ zs.length) :
    slice (poke (poke m d zs) d xs) d zs.length = xs ++ zs.drop xs.length := by
  have hbehind : slice (poke (poke m d zs) d xs) (d + xs.length) (zs.length - xs.length) =
      zs.drop xs.length := by
    calc slice (poke (poke m d zs) d xs) (d + xs.length) (zs.length - xs.length)
        = slice (poke m d zs) (d + xs.length) (zs.length - xs.length) :=
          slice_congr fun k hk _ => poke_behind (poke m d zs) hk
      _ = (slice (poke m d zs) d zs.length).drop xs.length := (drop_slice _ _ _ _).symm
      _ = zs.drop xs.length := by rw [slice_poke]
  calc slice (poke (poke m d zs) d xs) d zs.length
      = slice (poke (poke m d zs) d xs) d (xs.length + (zs.length - xs.length)) := by
        rw [Nat.add_sub_cancel' h]
    _ = xs ++ zs.drop xs.length := by rw [slice_add, slice_poke, hbehind]

/-! ### Spans -/

/-- The places of one access. -/
structure Span where
  off : ℕ
  len : ℕ
deriving DecidableEq, Repr

/-- Every place of the access is one of the first `size`. -/
def Span.Inside (a : Span) (size : ℕ) : Prop := ∀ k < a.len, a.off + k < size

instance (a : Span) (size : ℕ) : Decidable (a.Inside size) := inferInstanceAs (Decidable (∀ k < a.len, _))

lemma Span.inside_iff {a : Span} (h : 0 < a.len) {size : ℕ} : a.Inside size ↔ a.off + a.len ≤ size := by
  constructor
  · intro hin
    have hlast := hin (a.len - 1) (by omega)
    omega
  · intro hle k hk
    omega

lemma Span.inside_of_le {a : Span} {size : ℕ} (h : a.off + a.len ≤ size) : a.Inside size := fun k hk => by omega

/-- What is read inside a buffer depends on the buffer only. -/
lemma slice_eq_of_inside {m m' : ℕ → α} {size : ℕ} (h : ∀ i < size, m i = m' i) {a : Span} (ha : a.Inside size) :
    slice m a.off a.len = slice m' a.off a.len :=
  slice_congr fun k hk hlt => h k (by
    have hin := ha (k - a.off) (by omega)
    rwa [Nat.add_sub_cancel' hk] at hin)

/-- A number of stores, one after the other. -/
def stores (m : ℕ → α) (ws : List (ℕ × List α)) : ℕ → α := ws.foldl (fun m w => poke m w.1 w.2) m

/-- **Stores inside a buffer** change nothing behind it. -/
lemma stores_behind {size : ℕ} {ws : List (ℕ × List α)} : ∀ {m : ℕ → α},
    (∀ w ∈ ws, Span.Inside ⟨w.1, w.2.length⟩ size) → ∀ {i : ℕ}, size ≤ i → stores m ws i = m i := by
  induction ws with
  | nil => exact fun _ _ _ => rfl
  | cons w ws ih =>
      intro m h i hi
      have hrest := ih (m := poke m w.1 w.2) (fun v hv => h v (List.mem_cons_of_mem w hv)) hi
      have hfirst : poke m w.1 w.2 i = m i := by
        cases hlen : w.2 with
        | nil => rw [poke_nil]
        | cons x xs =>
            have hin := (Span.inside_iff (by simp [hlen])).1 (h w List.mem_cons_self)
            rw [← hlen]
            exact poke_behind m (hin.trans hi)
      exact hrest.trans hfirst

end Memory
