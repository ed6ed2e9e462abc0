/-
The numbers of a response head.

A number is read from where it stands on, and nothing says where it ends but the characters behind
it.  It is settled by the characters at hand when one that is no digit stands behind its digits, or
when it has left the range of an `int` already; otherwise one more digit changes it.
-/
import DeviceTools.Dns.DottedQuad

namespace DeviceTools.Http

open Dns

def INT_MAX : ℤ := 2147483647
def INT_MIN : ℤ := -2147483648

/-- The number that is read: blanks are skipped, and `atoi` is called, which stops at the bounds of
an `int`. -/
def number (m : List UInt8) : ℤ := max INT_MIN (min INT_MAX (atoi (m.dropWhile (· = 0x20))))

/-- A number converted to `unsigned int`. -/
def toUnsigned (n : ℤ) : ℕ := (n % 4294967296).toNat

/-! ### Sign and digits -/

/-- The sign of a number, and what stands behind it. -/
def signed (s : List UInt8) : ℤ × List UInt8 :=
  match s.dropWhile isSpace with
  | [] => (1, [])
  | c :: cs => if c = 0x2D then (-1, cs) else if c = 0x2B then (1, cs) else (1, c :: cs)

/-- A character behind the digits ends the number. -/
def NumberEnds (s : List UInt8) : Prop := (signed s).2.dropWhile isDigit ≠ []

/-- The number does not change when characters follow. -/
def NumberSettled (s : List UInt8) : Prop := NumberEnds s ∨ atoi s ≤ INT_MIN ∨ INT_MAX ≤ atoi s

instance (s : List UInt8) : Decidable (NumberEnds s) := inferInstanceAs (Decidable (_ ≠ _))

instance (s : List UInt8) : Decidable (NumberSettled s) := inferInstanceAs (Decidable (_ ∨ _))

lemma sign_eq_or (s : List UInt8) : (signed s).1 = 1 ∨ (signed s).1 = -1 := by
  rw [signed]
  split
  · exact Or.inl rfl
  · split_ifs
    · exact Or.inr rfl
    · exact Or.inl rfl
    · exact Or.inl rfl

lemma atoi_eq (s : List UInt8) : atoi s = (signed s).1 * digitsValue ((signed s).2.takeWhile isDigit) := by
  rw [atoi, signed]
  cases s.dropWhile isSpace with
  | nil => rfl
  | cons c cs =>
      dsimp only
      split_ifs <;> simp [leadingNumber]

/-- The blanks are skipped by `atoi`, too. -/
lemma number_eq (m : List UInt8) : number m = max INT_MIN (min INT_MAX (atoi m)) := by
  have hskip : (m.dropWhile (· = 0x20)).dropWhile isSpace = m.dropWhile isSpace := by
    induction m with
    | nil => rfl
    | cons c m ih =>
        by_cases hc : c = 0x20
        · rw [List.dropWhile_cons_of_pos (by simpa using hc), ih,
            List.dropWhile_cons_of_pos (by rw [hc]; decide)]
        · rw [List.dropWhile_cons_of_neg (by simpa using hc)]
  rw [number, atoi, hskip, ← atoi]

lemma number_mem (m : List UInt8) : INT_MIN ≤ number m ∧ number m ≤ INT_MAX := by
  rw [number_eq]
  exact ⟨le_max_left _ _, max_le (by decide) (min_le_left _ _)⟩

/-- The conversion loses nothing of an `int`. -/
lemma toUnsigned_number_inj {a b : List UInt8} :
    toUnsigned (number a) = toUnsigned (number b) ↔ number a = number b := by
  obtain ⟨ha, ha'⟩ := number_mem a
  obtain ⟨hb, hb'⟩ := number_mem b
  rw [INT_MIN] at ha hb
  rw [INT_MAX] at ha' hb'
  rw [toUnsigned, toUnsigned]
  omega

/-! ### What follows -/

/-- Behind something other than blanks the sign is as it was. -/
lemma signed_append {s : List UInt8} (h : s.dropWhile isSpace ≠ []) (t : List UInt8) :
    signed (s ++ t) = ((signed s).1, (signed s).2 ++ t) := by
  have hdrop : (s ++ t).dropWhile isSpace = s.dropWhile isSpace ++ t := by
    rw [List.dropWhile_append, if_neg (by simpa using h)]
  rw [signed, signed, hdrop]
  cases hs : s.dropWhile isSpace with
  | nil => exact absurd hs h
  | cons c cs =>
      dsimp only [List.cons_append]
      split_ifs <;> rfl

/-- A character that is neither blank nor sign does not touch the sign. -/
lemma signed_append_cons {c : UInt8} (hc : isSpace c = false) (hsign : c ≠ 0x2D ∧ c ≠ 0x2B) (s t : List UInt8) :
    signed (s ++ c :: t) = ((signed s).1, (signed s).2 ++ c :: t) := by
  by_cases h : s.dropWhile isSpace = []
  · have hdrop : (s ++ c :: t).dropWhile isSpace = c :: t := by
      rw [List.dropWhile_append, if_pos (by simpa using h), List.dropWhile_cons_of_neg (by simpa using hc)]
    rw [signed, signed, hdrop, h]
    dsimp only
    rw [if_neg hsign.1, if_neg hsign.2]
    rfl
  · exact signed_append h _

lemma digits_of_not_ends {s : List UInt8} (h : ¬NumberEnds s) : ∀ c ∈ (signed s).2, isDigit c = true := by
  rw [NumberEnds, not_not, List.dropWhile_eq_nil_iff] at h
  exact h

lemma takeWhile_of_not_ends {s : List UInt8} (h : ¬NumberEnds s) (t : List UInt8) :
    ((signed s).2 ++ t).takeWhile isDigit = (signed s).2 ++ t.takeWhile isDigit :=
  List.takeWhile_append_of_pos (digits_of_not_ends h)

/-- **A settled number stays**, whatever follows. -/
lemma number_append {s : List UInt8} (h : NumberSettled s) (t : List UInt8) : number (s ++ t) = number s := by
  have hnil : s.dropWhile isSpace = [] → ¬NumberSettled s := by
    intro hs
    have hsigned : signed s = (1, []) := by rw [signed, hs]
    have hzero : atoi s = 0 := by rw [atoi, hs]
    rw [NumberSettled, NumberEnds, hsigned, hzero]
    decide
  have hs : s.dropWhile isSpace ≠ [] := fun hs => hnil hs h
  rw [number_eq, number_eq]
  by_cases hends : NumberEnds s
  · have hsame : ((signed s).2 ++ t).takeWhile isDigit = (signed s).2.takeWhile isDigit := by
      rw [List.takeWhile_append, if_neg]
      intro hlen
      refine hends (List.dropWhile_eq_nil_iff.2 ?_)
      have hall := (List.takeWhile_prefix isDigit (l := (signed s).2)).eq_of_length hlen
      exact List.takeWhile_eq_self_iff.1 hall
    have hatoi : atoi (s ++ t) = atoi s := by rw [atoi_eq, signed_append hs, hsame, ← atoi_eq]
    rw [hatoi]
  · have hgrows := digitsValue_le_append (signed s).2 (t.takeWhile isDigit)
    have hvalue : atoi s = (signed s).1 * digitsValue (signed s).2 := by
      rw [atoi_eq, List.takeWhile_eq_self_iff.2 (digits_of_not_ends hends)]
    have hvalue' : atoi (s ++ t) = (signed s).1 * digitsValue ((signed s).2 ++ t.takeWhile isDigit) := by
      rw [atoi_eq, signed_append hs, takeWhile_of_not_ends hends]
    have hout := h.resolve_left hends
    rw [hvalue] at hout ⊢
    rw [hvalue']
    rw [INT_MIN, INT_MAX] at *
    rcases sign_eq_or s with hsign | hsign <;> rw [hsign] at hout ⊢ <;> omega

@[simp] lemma number_nil : number [] = 0 := rfl

/-- A character that ends a number, wherever it stands. -/
structure IsStop (c : UInt8) : Prop where
  isSpace_eq : isSpace c = false
  sign_ne : c ≠ 0x2D ∧ c ≠ 0x2B
  isDigit_eq : isDigit c = false

lemma isStop_zero : IsStop 0 := ⟨by decide, by decide, by decide⟩

/-- Behind the end of a number nothing counts. -/
lemma number_stop {c : UInt8} (hc : IsStop c) (s t : List UInt8) : number (s ++ c :: t) = number s := by
  have hsame : ((signed s).2 ++ c :: t).takeWhile isDigit = (signed s).2.takeWhile isDigit := by
    rw [List.takeWhile_append]
    split
    case isTrue hlen =>
      have hall := (List.takeWhile_prefix isDigit (l := (signed s).2)).eq_of_length hlen
      rw [hall, List.takeWhile_cons_of_neg (by simpa using hc.isDigit_eq), List.append_nil]
    case isFalse => rfl
  rw [number_eq, number_eq, atoi_eq, signed_append_cons hc.isSpace_eq hc.sign_ne, hsame, ← atoi_eq]

/-- **A number that is not settled** changes with one more digit. -/
lemma number_not_settled {s : List UInt8} (h : ¬NumberSettled s) (r : List UInt8) :
    number (s ++ 0x35 :: 0 :: r) ≠ number s := by
  rw [NumberSettled, not_or, not_or, not_le, not_le] at h
  obtain ⟨hends, hmin, hmax⟩ := h
  have hvalue : atoi s = (signed s).1 * digitsValue (signed s).2 := by
    rw [atoi_eq, List.takeWhile_eq_self_iff.2 (digits_of_not_ends hends)]
  have hfive : atoi (s ++ 0x35 :: 0 :: r) = (signed s).1 * (10 * digitsValue (signed s).2 + 5) := by
    have hdigits : (0x35 :: 0 :: r).takeWhile isDigit = [0x35] := by
      rw [List.takeWhile_cons_of_pos (by decide), List.takeWhile_cons_of_neg (by decide)]
    rw [atoi_eq, signed_append_cons (by decide) (by decide), takeWhile_of_not_ends hends, hdigits,
      digitsValue_append_one]
    rfl
  rw [hvalue] at hmin hmax
  rw [number_eq, number_eq, hvalue, hfive]
  rw [INT_MIN, INT_MAX] at *
  rcases sign_eq_or s with hsign | hsign <;> rw [hsign] at hmin hmax ⊢ <;> omega

/-- Digits with another character behind them. -/
lemma settled_digits {ds : List UInt8} (hds : ∀ c ∈ ds, isDigit c = true) (hne : ds ≠ []) {c : UInt8}
    (hc : isDigit c = false) (t : List UInt8) : NumberSettled (ds ++ c :: t) := by
  refine Or.inl fun hall => ?_
  have hsigned : signed (ds ++ c :: t) = (1, ds ++ c :: t) := by
    obtain ⟨d, ds, rfl⟩ := List.exists_cons_of_ne_nil hne
    have hd := hds d List.mem_cons_self
    have hsign : d ≠ 0x2D ∧ d ≠ 0x2B := by
      constructor <;> (rintro rfl; exact absurd hd (by decide))
    exact signed_append_cons (isSpace_of_isDigit hd) hsign [] (ds ++ c :: t)
  rw [hsigned, List.dropWhile_eq_nil_iff] at hall
  have hdigit := hall c (List.mem_append_right ds List.mem_cons_self)
  rw [hc] at hdigit
  cases hdigit

lemma number_digits {ds : List UInt8} (hds : ∀ c ∈ ds, isDigit c = true) (hne : ds ≠ []) {c : UInt8}
    (hc : isDigit c = false) (t : List UInt8) (hle : digitsValue ds ≤ INT_MAX) :
    number (ds ++ c :: t) = digitsValue ds := by
  have hvalue : atoi (ds ++ c :: t) = digitsValue ds := by
    refine atoi_digits (c :: t) hds hne fun d hd => ?_
    rw [← Option.some_inj.1 hd]
    exact hc
  have hmin : INT_MIN ≤ digitsValue ds := le_trans (by decide) (Int.natCast_nonneg _)
  rw [number_eq, hvalue, min_eq_right hle, max_eq_right hmin]

/-- Nothing at all is no settled number. -/
lemma not_settled_nil : ¬NumberSettled [] := by decide

end DeviceTools.Http
