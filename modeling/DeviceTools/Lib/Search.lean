/-
The first occurrence of a word in a string.

An occurrence stays the first one when the string is continued.  Where a word does not occur, a
beginning of it may stand at the end of the string, and what is missing of the longest one completes
the first occurrence.
-/
import Mathlib

namespace Search

variable {α : Type} [DecidableEq α]

/-- The place of the first occurrence of `w`. -/
def find (w : List α) : List α → Option ℕ
  | [] => none
  | c :: s => if w <+: c :: s then some 0 else (find w s).map (· + 1)

/-- There is an occurrence at the place that is found. -/
lemma prefix_drop_of_find {w : List α} {s : List α} : ∀ {k : ℕ}, find w s = some k → w <+: s.drop k := by
  induction s with
  | nil => exact fun h => by cases h
  | cons c s ih =>
      intro k h
      rw [find] at h
      split at h
      case isTrue hw =>
        obtain rfl := Option.some_inj.1 h
        exact hw
      case isFalse =>
        obtain ⟨j, hj, rfl⟩ := Option.map_eq_some_iff.1 h
        exact ih hj

lemma le_of_find {w s : List α} {k : ℕ} (hw : w ≠ []) (h : find w s = some k) : k + w.length ≤ s.length := by
  have hle := (prefix_drop_of_find h).length_le
  have hpos := List.length_pos_iff.2 hw
  rw [List.length_drop] at hle
  omega

omit [DecidableEq α] in
/-- A word that is no longer than a string is a prefix of its continuation only if it is one of the
string. -/
lemma prefix_of_prefix_append {w s t : List α} (h : w <+: s ++ t) (hle : w.length ≤ s.length) : w <+: s :=
  List.prefix_of_prefix_length_le h (List.prefix_append s t) hle

/-- The first occurrence stays the first one. -/
lemma find_append {w s : List α} (hw : w ≠ []) (t : List α) : ∀ {k : ℕ}, find w s = some k →
    find w (s ++ t) = some k := by
  induction s with
  | nil => exact fun h => by cases h
  | cons c s ih =>
      intro k h
      have hle := le_of_find hw h
      rw [find] at h
      rw [List.cons_append, find]
      split at h
      case isTrue hpre =>
        have hcont : w <+: c :: (s ++ t) := hpre.trans (List.prefix_append (c :: s) t)
        rw [if_pos hcont, h]
      case isFalse hpre =>
        obtain ⟨j, hj, rfl⟩ := Option.map_eq_some_iff.1 h
        have hnot : ¬w <+: c :: (s ++ t) := fun h' =>
          hpre (prefix_of_prefix_append (s := c :: s) h' (by omega))
        rw [if_neg hnot, ih hj, Option.map_some]

/-! ### Places -/

/-- No occurrence at any place. -/
lemma find_eq_none_iff {w : List α} (hw : w ≠ []) {s : List α} : find w s = none ↔ ∀ q, ¬w <+: s.drop q := by
  induction s with
  | nil => exact ⟨fun _ q hpre => hw (List.prefix_nil.1 (List.drop_nil ▸ hpre)), fun _ => rfl⟩
  | cons c s ih =>
      rw [find]
      split
      case isTrue hpre =>
        refine ⟨fun h => (nomatch h), fun h => ?_⟩
        exact absurd hpre (h 0)
      case isFalse hpre =>
        rw [Option.map_eq_none_iff, ih]
        constructor
        · intro h q
          cases q with
          | zero => exact hpre
          | succ q => exact h q
        · exact fun h q => h (q + 1)

/-- The first place. -/
lemma find_eq_some {w : List α} (hw : w ≠ []) {s : List α} : ∀ {k : ℕ}, w <+: s.drop k →
    (∀ q < k, ¬w <+: s.drop q) → find w s = some k := by
  induction s with
  | nil => exact fun h _ => absurd (List.prefix_nil.1 (List.drop_nil ▸ h)) hw
  | cons c s ih =>
      intro k hk hfirst
      rw [find]
      cases k with
      | zero => exact if_pos hk
      | succ k =>
          have hnot : ¬w <+: c :: s := hfirst 0 (Nat.succ_pos k)
          rw [if_neg hnot, ih hk fun q hq => hfirst (q + 1) (Nat.succ_lt_succ hq), Option.map_some]

/-- Nothing is found in front of an occurrence. -/
lemma le_of_prefix_drop {w s : List α} : ∀ {k q : ℕ}, find w s = some k → w <+: s.drop q → k ≤ q := by
  induction s with
  | nil => exact fun h _ => by cases h
  | cons c s ih =>
      intro k q h hq
      rw [find] at h
      split at h
      case isTrue => exact (Option.some_inj.1 h).symm ▸ Nat.zero_le q
      case isFalse hnot =>
        obtain ⟨j, hj, rfl⟩ := Option.map_eq_some_iff.1 h
        cases q with
        | zero => exact absurd hq hnot
        | succ q => exact Nat.succ_le_succ (ih hj hq)

/-- The first place with a property, if there is one. -/
def IsFirst (P : ℕ → Prop) : Option ℕ → Prop
  | some k => P k ∧ ∀ q < k, ¬P q
  | none => ∀ q, ¬P q

/-- What is found is the first occurrence. -/
lemma isFirst_find {w : List α} (hw : w ≠ []) (s : List α) : IsFirst (fun q => w <+: s.drop q) (find w s) := by
  cases h : find w s with
  | none => exact (find_eq_none_iff hw).1 h
  | some k => exact ⟨prefix_drop_of_find h, fun q hq hpre => absurd (le_of_prefix_drop h hpre) (by omega)⟩

/-- **The first place with a stronger property** is the first one with a weaker property, too, exactly
if no place with the weaker one comes before it. -/
lemma isFirst_of_imp_iff {P Q : ℕ → Prop} (himp : ∀ q, P q → Q q) {r : Option ℕ} (hr : IsFirst P r) :
    IsFirst Q r ↔ ∀ k, Q k → ∃ q ≤ k, P q := by
  cases r with
  | none =>
      constructor
      · exact fun h k hk => absurd hk (h k)
      · intro h k hk
        obtain ⟨q, -, hq⟩ := h k hk
        exact hr q hq
  | some p =>
      obtain ⟨hp, hfirst⟩ := hr
      constructor
      · rintro ⟨-, h⟩ k hk
        exact ⟨p, not_lt.1 fun hlt => h k hlt hk, hp⟩
      · intro h
        refine ⟨himp p hp, fun k hk hQ => ?_⟩
        obtain ⟨q, hqk, hq⟩ := h k hQ
        exact hfirst q (hqk.trans_lt hk) hq

/-- How much of the word stands at the end of the string, at most. -/
def overlap (w s : List α) : ℕ := Nat.findGreatest (fun j => w.take j <:+ s) w.length

lemma overlap_le (w s : List α) : overlap w s ≤ w.length := Nat.findGreatest_le _

lemma take_overlap_suffix (w s : List α) : w.take (overlap w s) <:+ s :=
  Nat.findGreatest_spec (P := fun j => w.take j <:+ s) (Nat.zero_le _)
    (by rw [List.take_zero]; exact List.nil_suffix)

lemma overlap_le_length (w s : List α) : overlap w s ≤ s.length := by
  have hlen := (take_overlap_suffix w s).length_le
  rwa [List.length_take, min_eq_left (overlap_le w s)] at hlen

/-- Where a word has not occurred, it starts no earlier than in the overlap. -/
lemma length_le_of_prefix_drop {w s t : List α} (hw : w ≠ []) (h : find w s = none) {q : ℕ}
    (hq : w <+: (s ++ t).drop q) : s.length ≤ q + overlap w s := by
  by_contra hlt
  rw [not_le] at hlt
  have hdrop : (s ++ t).drop q = s.drop q ++ t := List.drop_append_of_le_length (by omega)
  rw [hdrop] at hq
  have hshort : (s.drop q).length ≤ w.length := by
    by_contra hlong
    exact (find_eq_none_iff hw).1 h q (prefix_of_prefix_append hq (by omega))
  have hpart : s.drop q <+: w := List.prefix_of_prefix_length_le (List.prefix_append _ _) hq hshort
  have htake : w.take (s.length - q) <:+ s := by
    rw [← List.length_drop, ← List.prefix_iff_eq_take.1 hpart]
    exact List.drop_suffix q s
  rw [List.length_drop] at hshort
  have hgreatest : s.length - q ≤ overlap w s := Nat.le_findGreatest hshort htake
  omega

/-- **A word is completed** by what the overlap lacks. -/
lemma find_overlap {w s : List α} (hw : w ≠ []) (h : find w s = none) (t : List α) :
    find w (s ++ (w.drop (overlap w s) ++ t)) = some (s.length - overlap w s) := by
  have hle := overlap_le_length w s
  have htail : s.drop (s.length - overlap w s) = w.take (overlap w s) := by
    have heq := List.suffix_iff_eq_drop.1 (take_overlap_suffix w s)
    rw [List.length_take, min_eq_left (overlap_le w s)] at heq
    exact heq.symm
  refine find_eq_some hw ?_ fun q hq hpre => ?_
  · rw [List.drop_append_of_le_length (Nat.sub_le _ _), htail, ← List.append_assoc, List.take_append_drop]
    exact List.prefix_append w t
  · have hbound := length_le_of_prefix_drop hw h hpre
    omega

omit [DecidableEq α] in
/-- A word does not reach over something that is not in it. -/
lemma add_length_le_of_notMem {w s t : List α} {v : α} (hv : v ∉ w) {p : ℕ} (hp : p ≤ s.length)
    (h : w <+: (s ++ v :: t).drop p) : p + w.length ≤ s.length := by
  by_contra hlt
  rw [List.drop_append_of_le_length hp] at h
  have hpart : s.drop p ++ [v] <+: w := by
    have hall : s.drop p ++ [v] <+: s.drop p ++ v :: t := ⟨t, by simp⟩
    refine List.prefix_of_prefix_length_le hall h ?_
    rw [List.length_append, List.length_drop, List.length_singleton]
    omega
  exact hv (hpart.subset (by simp))

/-- A character that is not in the word does not complete it. -/
lemma find_append_notMem {w s : List α} (hw : w ≠ []) {v : α} (hv : v ∉ w) : find w (s ++ [v]) = find w s := by
  cases h : find w s with
  | some k => exact find_append hw [v] h
  | none =>
      rw [find_eq_none_iff hw]
      intro q hq
      have hpos := List.length_pos_iff.2 hw
      have hlen := hq.length_le
      rw [List.length_drop, List.length_append, List.length_singleton] at hlen
      have hin := add_length_le_of_notMem hv (by omega) hq
      rw [List.drop_append_of_le_length (by omega)] at hq
      refine (find_eq_none_iff hw).1 h q (prefix_of_prefix_append hq ?_)
      rw [List.length_drop]
      omega

end Search
