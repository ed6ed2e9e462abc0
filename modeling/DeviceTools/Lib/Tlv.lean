/-
Lists of entries with a tag, a length and data.

The tag and the length are bytes, and the length is followed by as many bytes of data.  A list of
entries ends with the byte `stop` in the place of a tag; the byte `pad` in the place of a tag stands
alone.
-/
import Mathlib

namespace Tlv

/-- An entry: the tag and the data. -/
abbrev Entry := UInt8 × List UInt8

/-- The bytes of an entry; the length is cut to a byte. -/
def bytes (e : Entry) : List UInt8 := e.1 :: UInt8.ofNat e.2.length :: e.2

/-- The entries of a byte string that ends with `stop`.  The first argument bounds the number of
steps. -/
def parseFor (pad stop : UInt8) : ℕ → List UInt8 → Option (List Entry)
  | 0, _ => none
  | _ + 1, [] => none
  | fuel + 1, tag :: rest =>
      if tag = stop then if rest = [] then some [] else none
      else if tag = pad then parseFor pad stop fuel rest
      else match rest with
        | [] => none
        | length :: data =>
            if data.length < length.toNat then none
            else (parseFor pad stop fuel (data.drop length.toNat)).map fun es => (tag, data.take length.toNat) :: es

/-- The entries of a byte string; every step takes a byte at least. -/
def parse (pad stop : UInt8) (bs : List UInt8) : Option (List Entry) := parseFor pad stop bs.length bs

variable {pad stop : UInt8}

/-- An entry whose length fits a byte is read back. -/
lemma parseFor_entry {e : Entry} (hpad : e.1 ≠ pad) (hstop : e.1 ≠ stop) (hlen : e.2.length < 256) (fuel : ℕ)
    (rest : List UInt8) :
    parseFor pad stop (fuel + 1) (bytes e ++ rest) = (parseFor pad stop fuel rest).map fun es => e :: es := by
  have hbyte : (UInt8.ofNat e.2.length).toNat = e.2.length := by
    rw [UInt8.toNat_ofNat']
    exact Nat.mod_eq_of_lt hlen
  rw [bytes, List.cons_append, List.cons_append, parseFor, if_neg hstop, if_neg hpad, hbyte,
    if_neg (by rw [List.length_append]; omega), List.drop_left, List.take_left]

/-- **A list of entries is read back**, if their lengths fit a byte. -/
lemma parseFor_entries {es : List Entry} : ∀ {fuel : ℕ}, es.length < fuel →
    (∀ e ∈ es, e.1 ≠ pad ∧ e.1 ≠ stop ∧ e.2.length < 256) →
    parseFor pad stop fuel (es.flatMap bytes ++ [stop]) = some es := by
  induction es with
  | nil =>
      intro fuel hfuel _
      obtain ⟨fuel, rfl⟩ : ∃ k, fuel = k + 1 := ⟨fuel - 1, by simp at hfuel; omega⟩
      simp [parseFor]
  | cons e es ih =>
      intro fuel hfuel h
      obtain ⟨fuel, rfl⟩ : ∃ k, fuel = k + 1 := ⟨fuel - 1, by omega⟩
      obtain ⟨hpad, hstop, hlen⟩ := h e (by simp)
      rw [List.flatMap_cons, List.append_assoc, parseFor_entry hpad hstop hlen,
        ih (by simpa using hfuel) fun e' he' => h e' (by simp [he'])]
      rfl

lemma length_le_flatMap (es : List Entry) : es.length ≤ (es.flatMap bytes).length := by
  induction es with
  | nil => exact le_rfl
  | cons e es ih =>
      rw [List.flatMap_cons, List.length_append, List.length_cons, bytes, List.length_cons]
      omega

lemma parse_entries {es : List Entry} (h : ∀ e ∈ es, e.1 ≠ pad ∧ e.1 ≠ stop ∧ e.2.length < 256) :
    parse pad stop (es.flatMap bytes ++ [stop]) = some es := by
  refine parseFor_entries ?_ h
  have := length_le_flatMap es
  rw [List.length_append, List.length_singleton]
  omega

/-- What is read has a length that fits a byte. -/
lemma length_lt_of_parseFor : ∀ {fuel : ℕ} {bs : List UInt8} {es : List Entry},
    parseFor pad stop fuel bs = some es → ∀ e ∈ es, e.2.length < 256 := by
  intro fuel
  induction fuel with
  | zero => intro bs es h; simp [parseFor] at h
  | succ fuel ih =>
      intro bs es h e he
      rcases bs with _ | ⟨tag, rest⟩
      · simp [parseFor] at h
      rw [parseFor.eq_def] at h
      dsimp only at h
      split_ifs at h with hstop hrest hpad
      · obtain rfl : [] = es := Option.some.inj h
        exact absurd he List.not_mem_nil
      · exact ih h e he
      · rcases rest with _ | ⟨length, data⟩
        · simp at h
        · dsimp only at h
          split_ifs at h
          obtain ⟨es', hes', rfl⟩ := Option.map_eq_some_iff.1 h
          rcases List.mem_cons.1 he with rfl | he'
          · have hlt := length.toNat_lt
            rw [List.length_take]
            omega
          · exact ih hes' e he'

end Tlv
