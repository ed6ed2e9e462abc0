/-
Names in a directory.

The files of a store are found by their names: a save thread makes the name from a date, and the
functions that delete read the names from the directory.  Names of days are compared as the dates are.
-/
import DeviceTools.Store.Flush

namespace DeviceTools

/-- The name of a file in its directory. -/
abbrev Name := List Char

/-- The list has the names of the files in a directory. -/
def Lists (d : Disk) (path : Path) (names : List Name) : Prop :=
  ∀ name, name ∈ names ↔ name ≠ [] ∧ '/' ∉ name ∧ d (path ++ '/' :: name) ≠ none

lemma name_append_lt_iff (a b : Tm) (x y : Name) :
    a.name ++ x < b.name ++ y ↔ a.name < b.name ∨ a = b ∧ x < y := by
  rw [Decimal.append_lt_append_iff (by simp), Tm.name_inj]

lemma slash_notMem_name (k : Tm) : '/' ∉ k.name := by
  intro h
  have hdigit : ('/' : Char).isDigit = true := by
    simp only [Tm.name, List.mem_append] at h
    rcases h with (h | h) | h <;> exact Decimal.all_isDigit_pad _ _ _ h
  exact absurd hdigit (by decide)

lemma slash_notMem_day (k : Tm) {ext : List Char} (h : '/' ∉ ext) : '/' ∉ k.name ++ ext := by
  rw [List.mem_append]
  exact fun hc => hc.elim (slash_notMem_name k) h

/-- The last part of a path determines it and the path of its directory. -/
lemma path_inj {p q : Path} {m n : Name} (hm : '/' ∉ m) (hn : '/' ∉ n) :
    p ++ '/' :: m = q ++ '/' :: n ↔ p = q ∧ m = n := by
  constructor
  · intro h
    rcases List.append_eq_append_iff.1 h with ⟨as, hp, hq⟩ | ⟨as, hp, hq⟩
    · cases as with
      | nil => exact ⟨by simpa using hp.symm, by simpa using hq⟩
      | cons c as =>
          simp only [List.cons_append, List.cons.injEq] at hq
          exact absurd (hq.2 ▸ List.mem_append_right as List.mem_cons_self) hm
    · cases as with
      | nil => exact ⟨by simpa using hp, by simpa using hq.symm⟩
      | cons c as =>
          simp only [List.cons_append, List.cons.injEq] at hq
          exact absurd (hq.2 ▸ List.mem_append_right as List.mem_cons_self) hn
  · rintro ⟨rfl, rfl⟩
    rfl

lemma dayPath_eq (dir : Path) (k : Tm) (ext : List Char) : dayPath dir k ext = dir ++ '/' :: (k.name ++ ext) := by
  simp [dayPath]

/-- Names of days are compared as the dates are. -/
lemma name_lt_iff (a b : Tm) : a.name < b.name ↔ a.stamp < b.stamp := by
  rw [← Tm.pad_stamp, ← Tm.pad_stamp, Decimal.pad_lt_iff a.stamp_lt b.stamp_lt]

end DeviceTools
