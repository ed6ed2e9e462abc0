/-
Maps of bounded size.

A map is kept in a list of at most `cap` entries.  An update overwrites the entry of its key; if
there is none it adds an entry, and when the list is full it overwrites an entry of some other key.
`Kept` says what is true of the list after a history of updates, whatever entries were given up: the
keys are distinct, and every entry has the value of the last update of its key.
-/
import Mathlib

namespace BoundedMap

variable {κ ν : Type} [DecidableEq κ]

/-- An update of the key `k`; `i` is the entry that is given up when the list is full. -/
def update (cap : ℕ) (entries : List (κ × ν)) (k : κ) (v : ν) (i : ℕ) : List (κ × ν) :=
  let j := entries.findIdx fun e => e.1 = k
  if j < entries.length then entries.set j (k, v)
  else if cap ≤ entries.length then entries.set i (k, v)
  else entries ++ [(k, v)]

/-- The value of the last update of a key. -/
def lastValue (us : List (κ × ν)) (k : κ) : Option ν := ((us.filter fun u => u.1 = k).getLast?).map Prod.snd

lemma lastValue_concat_self (us : List (κ × ν)) (k : κ) (v : ν) : lastValue (us ++ [(k, v)]) k = some v := by
  simp [lastValue]

lemma lastValue_concat_of_ne (us : List (κ × ν)) {k l : κ} (v : ν) (h : l ≠ k) :
    lastValue (us ++ [(k, v)]) l = lastValue us l := by
  simp [lastValue, h.symm]

/-- What is true of the entries after the updates `us`. -/
structure Kept (cap : ℕ) (us entries : List (κ × ν)) : Prop where
  length_le : entries.length ≤ cap
  nodup : (entries.map Prod.fst).Nodup
  fresh : ∀ e ∈ entries, lastValue us e.1 = some e.2

/-- An empty list has forgotten everything. -/
lemma kept_nil (cap : ℕ) (us : List (κ × ν)) : Kept cap us [] := ⟨Nat.zero_le cap, List.nodup_nil, by simp⟩

section
variable {cap i : ℕ} {us entries : List (κ × ν)} {k : κ} {v : ν}

/-- **The three ways of an update**: over the entry of the key, over another entry of a full list,
or behind the others. -/
lemma update_cases (cap : ℕ) (entries : List (κ × ν)) (k : κ) (v : ν) (i : ℕ) :
    (∃ j, ∃ hj : j < entries.length, entries[j].1 = k ∧ update cap entries k v i = entries.set j (k, v)) ∨
    k ∉ entries.map Prod.fst ∧
      (cap ≤ entries.length ∧ update cap entries k v i = entries.set i (k, v) ∨
        entries.length < cap ∧ update cap entries k v i = entries ++ [(k, v)]) := by
  simp only [update]
  by_cases hj : entries.findIdx (fun e => e.1 = k) < entries.length
  · exact Or.inl ⟨_, hj, by simpa using List.findIdx_getElem (w := hj), if_pos hj⟩
  · have hk : k ∉ entries.map Prod.fst := by
      rw [List.findIdx_lt_length] at hj
      rintro hmem
      obtain ⟨e, he, hek⟩ := List.mem_map.1 hmem
      exact hj ⟨e, he, by simpa using hek⟩
    refine Or.inr ⟨hk, ?_⟩
    rw [if_neg hj]
    by_cases hcap : cap ≤ entries.length
    · exact Or.inl ⟨hcap, if_pos hcap⟩
    · exact Or.inr ⟨not_le.1 hcap, if_neg hcap⟩

/-- The entry of the update is there. -/
lemma mem_update_self (hi : i < cap) : (k, v) ∈ update cap entries k v i := by
  obtain ⟨j, hj, -, hu⟩ | ⟨-, ⟨hcap, hu⟩ | ⟨-, hu⟩⟩ := update_cases cap entries k v i
  · rw [hu]
    exact List.mem_set hj (k, v)
  · rw [hu]
    exact List.mem_set (hi.trans_le hcap) (k, v)
  · rw [hu]
    simp

/-- An item of a list with one place changed is the new one, or stands at another place. -/
lemma mem_set_cases {α : Type} {l : List α} {j : ℕ} {a x : α} (h : x ∈ l.set j a) :
    x = a ∨ ∃ m, m ≠ j ∧ l[m]? = some x := by
  obtain ⟨m, hm⟩ := List.mem_iff_getElem?.1 h
  by_cases hmj : m = j
  · subst hmj
    rw [List.getElem?_set_self (by
      obtain ⟨hlt, -⟩ := List.getElem?_eq_some_iff.1 hm
      simpa using hlt), Option.some.injEq] at hm
    exact Or.inl hm.symm
  · rw [List.getElem?_set_ne (Ne.symm hmj)] at hm
    exact Or.inr ⟨m, hmj, hm⟩

/-- The other entries were there before, and have other keys. -/
lemma mem_update (hnodup : (entries.map Prod.fst).Nodup) {e : κ × ν} (he : e ∈ update cap entries k v i) :
    e = (k, v) ∨ e ∈ entries ∧ e.1 ≠ k := by
  obtain ⟨j, hj, hkey, hu⟩ | ⟨hk, ⟨-, hu⟩ | ⟨-, hu⟩⟩ := update_cases cap entries k v i
  · rw [hu] at he
    obtain rfl | ⟨m, hmj, hm⟩ := mem_set_cases he
    · exact Or.inl rfl
    · -- another place has another key
      refine Or.inr ⟨List.mem_of_getElem? hm, fun hc => hmj ?_⟩
      obtain ⟨hlt, rfl⟩ := List.getElem?_eq_some_iff.1 hm
      have hlt' : m < (entries.map Prod.fst).length := by simpa using hlt
      have hj' : j < (entries.map Prod.fst).length := by simpa using hj
      have hsame : (entries.map Prod.fst)[m] = (entries.map Prod.fst)[j] := by
        rw [List.getElem_map, List.getElem_map, hc, hkey]
      exact hnodup.getElem_inj_iff.1 hsame
  · rw [hu] at he
    obtain rfl | ⟨m, -, hm⟩ := mem_set_cases he
    · exact Or.inl rfl
    · have hmem := List.mem_of_getElem? hm
      exact Or.inr ⟨hmem, fun hc => hk (hc ▸ List.mem_map_of_mem hmem)⟩
  · rw [hu, List.mem_append, List.mem_singleton] at he
    obtain hmem | rfl := he
    · exact Or.inr ⟨hmem, fun hc => hk (hc ▸ List.mem_map_of_mem hmem)⟩
    · exact Or.inl rfl

/-- **An update keeps the map.** -/
lemma Kept.update (h : Kept cap us entries) :
    Kept cap (us ++ [(k, v)]) (update cap entries k v i) := by
  have hfresh : ∀ e ∈ BoundedMap.update cap entries k v i, lastValue (us ++ [(k, v)]) e.1 = some e.2 := by
    intro e he
    obtain rfl | ⟨hmem, hne⟩ := mem_update h.nodup he
    · exact lastValue_concat_self us k v
    · rw [lastValue_concat_of_ne us v hne]
      exact h.fresh e hmem
  obtain ⟨j, hj, hkey, hu⟩ | ⟨hk, ⟨-, hu⟩ | ⟨hlt, hu⟩⟩ := update_cases cap entries k v i
  · refine ⟨by rw [hu, List.length_set]; exact h.length_le, ?_, hfresh⟩
    -- the keys are the old ones
    have hkeys : (entries.map Prod.fst).set j k = entries.map Prod.fst := by
      have hget : (entries.map Prod.fst)[j]? = some k := by
        rw [List.getElem?_map, List.getElem?_eq_getElem hj, Option.map_some, hkey]
      obtain ⟨hlt, hkj⟩ := List.getElem?_eq_some_iff.1 hget
      rw [← hkj, List.set_getElem_self]
    rw [hu, List.map_set, hkeys]
    exact h.nodup
  · refine ⟨by rw [hu, List.length_set]; exact h.length_le, ?_, hfresh⟩
    rw [hu, List.map_set]
    exact h.nodup.set hk
  · refine ⟨by rw [hu, List.length_append, List.length_singleton]; exact hlt, ?_, hfresh⟩
    rw [hu, List.map_append, List.map_singleton, ← List.concat_eq_append]
    exact h.nodup.concat hk

end

end BoundedMap
