/-
C strings in memory.

A C string is what stands in memory up to the first NUL byte.  The functions here are given the
memory from the start of the string on, and find its end themselves.
-/
import Mathlib

namespace CText

/-- What holds of the 256 bytes holds of all. -/
lemma forall_byte {P : UInt8 → Prop} (h : ∀ n : Fin 256, P (UInt8.ofNat n)) (c : UInt8) : P c := by
  have hc := h ⟨c.toNat, c.toNat_lt⟩
  rwa [UInt8.ofNat_toNat] at hc

/-- The characters of the string at the start of `m`. -/
def cstr (m : List UInt8) : List UInt8 := m.takeWhile (· ≠ 0)

def strlen (m : List UInt8) : ℕ := (cstr m).length

lemma cstr_cons {c : UInt8} (hc : c ≠ 0) (m : List UInt8) : cstr (c :: m) = c :: cstr m :=
  List.takeWhile_cons_of_pos (decide_eq_true hc)

lemma strlen_cons {c : UInt8} (hc : c ≠ 0) (m : List UInt8) : strlen (c :: m) = strlen m + 1 := by
  rw [strlen, cstr_cons hc]
  rfl

lemma zero_notMem_cstr (m : List UInt8) : (0 : UInt8) ∉ cstr m := by
  intro h
  simpa using List.mem_takeWhile_imp h

/-- Behind characters that are not NUL the string goes on. -/
lemma cstr_append {s : List UInt8} (hs : (0 : UInt8) ∉ s) (m : List UInt8) :
    cstr (s ++ m) = s ++ cstr m :=
  List.takeWhile_append_of_pos fun _ hc => decide_eq_true fun h => hs (h ▸ hc)

/-- What stands behind a NUL does not matter. -/
lemma cstr_append_of_mem {s : List UInt8} (hs : (0 : UInt8) ∈ s) (m : List UInt8) :
    cstr (s ++ m) = cstr s := by
  induction s with
  | nil => exact absurd hs List.not_mem_nil
  | cons c s ih =>
      by_cases hc : c = 0
      · simp [cstr, hc]
      · have hs' : (0 : UInt8) ∈ s := (List.mem_cons.1 hs).resolve_left (Ne.symm hc)
        rw [List.cons_append, cstr_cons hc, cstr_cons hc, ih hs']

@[simp] lemma cstr_zero_cons (m : List UInt8) : cstr (0 :: m) = [] := by simp [cstr]

lemma cstr_eq {s : List UInt8} (hs : (0 : UInt8) ∉ s) (m : List UInt8) : cstr (s ++ 0 :: m) = s := by
  rw [cstr_append hs, cstr_zero_cons, List.append_nil]

lemma cstr_of_notMem {m : List UInt8} (hm : (0 : UInt8) ∉ m) : cstr m = m :=
  List.takeWhile_eq_self_iff.2 fun _ hc => decide_eq_true fun h => hm (h ▸ hc)

/-- A NUL behind the memory does not change the string. -/
lemma cstr_append_zero (m r : List UInt8) : cstr (m ++ 0 :: r) = cstr m := by
  by_cases hm : (0 : UInt8) ∈ m
  · exact cstr_append_of_mem hm _
  · rw [cstr_eq hm, cstr_of_notMem hm]

lemma length_cstr_le (m : List UInt8) : (cstr m).length ≤ m.length := (List.takeWhile_prefix _).length_le

/-- As many characters as stand in the memory are there whatever follows. -/
lemma take_cstr_append {n : ℕ} {m : List UInt8} (h : n ≤ m.length) (r : List UInt8) :
    (cstr (m ++ r)).take n = (cstr m).take n := by
  by_cases hm : (0 : UInt8) ∈ m
  · rw [cstr_append_of_mem hm]
  · rw [cstr_append hm, cstr_of_notMem hm, List.take_append_of_le_length h]

lemma take_strlen (m : List UInt8) : m.take (strlen m) = cstr m :=
  (List.prefix_iff_eq_take.1 (List.takeWhile_prefix _)).symm

/-- The string ends at the first NUL. -/
lemma getElem?_strlen {m : List UInt8} (hm : (0 : UInt8) ∈ m) : m[strlen m]? = some 0 := by
  induction m with
  | nil => exact absurd hm List.not_mem_nil
  | cons c m ih =>
      by_cases hc : c = 0
      · subst hc
        rfl
      · have hm' : (0 : UInt8) ∈ m := (List.mem_cons.1 hm).resolve_left (Ne.symm hc)
        rw [strlen_cons hc, List.getElem?_cons_succ, ih hm']

/-- Two memories of one size that agree up to the end of the string of the first hold the same string. -/
lemma cstr_eq_of_take {m m' : List UInt8} (hlen : m.length = m'.length)
    (h : m.take (strlen m + 1) = m'.take (strlen m + 1)) : cstr m = cstr m' := by
  by_cases hm : (0 : UInt8) ∈ m
  · have hend : (0 : UInt8) ∈ m.take (strlen m + 1) := by
      refine List.mem_iff_getElem?.2 ⟨strlen m, ?_⟩
      rw [List.getElem?_take, if_pos (Nat.lt_succ_self _), getElem?_strlen hm]
    calc cstr m = cstr (m.take (strlen m + 1)) := by
          rw [← cstr_append_of_mem hend (m.drop (strlen m + 1)), List.take_append_drop]
      _ = cstr (m'.take (strlen m + 1)) := by rw [h]
      _ = cstr m' := by
          rw [h] at hend
          rw [← cstr_append_of_mem hend (m'.drop (strlen m + 1)), List.take_append_drop]
  · have hall : strlen m = m.length := by rw [strlen, cstr_of_notMem hm]
    rw [List.take_of_length_le (by omega), List.take_of_length_le (by omega)] at h
    rw [h]

/-- The memory `m` after the string at `s` has been copied to its start, with the NUL behind it. -/
def strcpy (m s : List UInt8) : List UInt8 := cstr s ++ 0 :: m.drop (strlen s + 1)

/-- The memory `m` after the string at `s` has been copied behind the string at its start. -/
def strcat (m s : List UInt8) : List UInt8 := cstr m ++ strcpy (m.drop (strlen m)) s

/-- Two strings copied behind each other. -/
lemma strcat_strcpy_eq {a b : List UInt8} (ha : (0 : UInt8) ∉ a) (s m t : List UInt8) (hb : cstr t = b) :
    strcat (strcpy m (a ++ 0 :: s)) t = a ++ (b ++ 0 :: m.drop (a.length + b.length + 1)) := by
  have hfirst : strcpy m (a ++ 0 :: s) = a ++ 0 :: m.drop (a.length + 1) := by
    rw [strcpy, strlen, cstr_eq ha]
  have hrest : (0 :: m.drop (a.length + 1)).drop (b.length + 1) = m.drop (a.length + b.length + 1) := by
    rw [List.drop_succ_cons, List.drop_drop]
    congr 1
    omega
  rw [hfirst, strcat, strlen, cstr_eq ha, List.drop_left, strcpy, strlen, hb, hrest]

/-- The `n` bytes that `strncpy` writes: at most `n` characters, and zeros behind them. -/
def strncpy (n : ℕ) (s : List UInt8) : List UInt8 :=
  (cstr s).take n ++ List.replicate (n - ((cstr s).take n).length) 0

@[simp] lemma length_strncpy (n : ℕ) (s : List UInt8) : (strncpy n s).length = n := by
  rw [strncpy, List.length_append, List.length_replicate, List.length_take]
  omega

lemma cstr_strncpy (n : ℕ) (s : List UInt8) : cstr (strncpy n s) = (cstr s).take n := by
  have hzero : (0 : UInt8) ∉ (cstr s).take n := fun h => zero_notMem_cstr s (List.mem_of_mem_take h)
  rw [strncpy, cstr_append hzero]
  cases n - ((cstr s).take n).length with
  | zero => exact List.append_nil _
  | succ k => rw [List.replicate_succ, cstr_zero_cons, List.append_nil]

end CText
