/-
The search of the HTTP client.

`p_strcasestr` compares characters as they are, or folded to upper case; but the folded needle is
written `ch2&&0xdf`, which is 0 or 1, and no folded letter is.  So the function finds the first
occurrence of the needle in the very case in which it is written.
-/
import DeviceTools.Http.Session
import DeviceTools.Lib.CText
import DeviceTools.Lib.Search

namespace DeviceTools.Http

open CText Search

/-- `PQH_ISCHAR`. -/
def isChar (c : UInt8) : Bool := (0x61 ≤ c && c ≤ 0x7A) || (0x41 ≤ c && c ≤ 0x5A)

/-- The condition of the inner loop of `p_strcasestr`; the value of `ch2&&0xdf` is 0 or 1. -/
def sameChar (ch1 ch2 : UInt8) : Bool :=
  ch1 = ch2 || (isChar ch1 && isChar ch2 && (ch1 &&& 0xdf = if ch2 ≠ 0 then 1 else 0))

/-- The inner loop: whether the needle is met at the start of the memory. -/
def meets : List UInt8 → List UInt8 → Bool
  | ch1 :: str1, ch2 :: str2 => sameChar ch1 ch2 && (str2.isEmpty || meets str1 str2)
  | _, _ => false

/-- `p_strcasestr`: the offset of the pointer that is returned. -/
def pStrcasestr : List UInt8 → List UInt8 → Option ℕ
  | [], _ => none
  | ch1 :: str1, str2 =>
      if ch1 = 0 then none
      else if meets (ch1 :: str1) str2 then some 0
      else (pStrcasestr str1 str2).map (· + 1)

lemma fold_ne {c : UInt8} : isChar c = true → c &&& 0xdf ≠ 1 ∧ c &&& 0xdf ≠ 0 :=
  forall_byte (P := fun c => isChar c = true → c &&& 0xdf ≠ 1 ∧ c &&& 0xdf ≠ 0) (by decide +kernel) c

lemma sameChar_iff {ch1 ch2 : UInt8} : sameChar ch1 ch2 = true ↔ ch1 = ch2 := by
  rw [sameChar, Bool.or_eq_true, decide_eq_true_eq, or_iff_left]
  rw [Bool.and_eq_true, Bool.and_eq_true, decide_eq_true_eq]
  rintro ⟨⟨hchar, -⟩, heq⟩
  split at heq
  case isTrue => exact (fold_ne hchar).1 heq
  case isFalse => exact (fold_ne hchar).2 heq

lemma meets_iff {str2 : List UInt8} (h : str2 ≠ []) {str1 : List UInt8} :
    meets str1 str2 = true ↔ str2 <+: str1 := by
  induction str2 generalizing str1 with
  | nil => exact absurd rfl h
  | cons ch2 str2 ih =>
      cases str1 with
      | nil => simp [meets]
      | cons ch1 str1 =>
          rw [meets, Bool.and_eq_true, sameChar_iff, List.cons_prefix_cons, Bool.or_eq_true, List.isEmpty_iff]
          by_cases hnil : str2 = []
          · subst hnil
            exact ⟨fun h' => ⟨h'.1.symm, List.nil_prefix⟩, fun h' => ⟨h'.1.symm, Or.inl rfl⟩⟩
          · rw [ih hnil, or_iff_right hnil, eq_comm]

lemma prefix_cstr_iff {w m : List UInt8} (hw : (0 : UInt8) ∉ w) : w <+: m ↔ w <+: cstr m := by
  constructor
  · rintro ⟨t, rfl⟩
    rw [cstr_append hw]
    exact List.prefix_append w _
  · exact fun h => h.trans (List.takeWhile_prefix _)

/-- **The first occurrence in the string**, in the case as it is written. -/
lemma pStrcasestr_eq_find {str2 : List UInt8} (h : str2 ≠ []) (hzero : (0 : UInt8) ∉ str2) (str1 : List UInt8) :
    pStrcasestr str1 str2 = find str2 (cstr str1) := by
  induction str1 with
  | nil => rfl
  | cons ch1 str1 ih =>
      rw [pStrcasestr]
      split
      case isTrue hch => rw [hch, cstr_zero_cons, find]
      case isFalse hch =>
        rw [cstr_cons hch, find, ih]
        refine if_congr ?_ rfl rfl
        rw [meets_iff h, prefix_cstr_iff hzero, cstr_cons hch]

/-! ### Ignoring case -/

/-- A letter as a capital. -/
def capital (c : UInt8) : UInt8 := if 0x61 ≤ c ∧ c ≤ 0x7A then c - 0x20 else c

/-- The word stands at the place `q`, in any case. -/
def OccursAnyCase (w s : List UInt8) (q : ℕ) : Prop := w.map capital <+: (s.drop q).map capital

instance (w s : List UInt8) (q : ℕ) : Decidable (OccursAnyCase w s q) :=
  inferInstanceAs (Decidable (w.map capital <+: (s.drop q).map capital))

lemma capital_spec (c : UInt8) :
    (isChar c = true → capital c = c &&& 0xdf) ∧ (isChar c = false → capital c = c) ∧
      isChar (capital c) = isChar c :=
  forall_byte (P := fun c => (isChar c = true → capital c = c &&& 0xdf) ∧ (isChar c = false → capital c = c) ∧
    isChar (capital c) = isChar c) (by decide +kernel) c

/-- With the mask on both sides the condition of the inner loop would ignore the case. -/
lemma capital_eq_iff (ch1 ch2 : UInt8) : capital ch1 = capital ch2 ↔
    ch1 = ch2 ∨ (isChar ch1 && isChar ch2 && decide (ch1 &&& 0xdf = ch2 &&& 0xdf)) = true := by
  obtain ⟨hletter1, hother1, hchar1⟩ := capital_spec ch1
  obtain ⟨hletter2, hother2, hchar2⟩ := capital_spec ch2
  constructor
  · intro h
    have hsame : isChar ch1 = isChar ch2 := by rw [← hchar1, h, hchar2]
    cases hch2 : isChar ch2 with
    | false =>
        rw [hother1 (hsame.trans hch2), hother2 hch2] at h
        exact Or.inl h
    | true =>
        rw [hletter1 (hsame.trans hch2), hletter2 hch2] at h
        exact Or.inr (by simp [hsame, hch2, h])
  · rintro (rfl | h)
    · rfl
    · simp only [Bool.and_eq_true, decide_eq_true_eq] at h
      rw [hletter1 h.1.1, hletter2 h.1.2, h.2]

/-- **The first occurrence in any case** is what `p_strcasestr` returns exactly if the needle stands,
in the case in which it is written, at it or in front of it. -/
theorem pStrcasestr_isFirst_iff {str1 str2 : List UInt8} (h : str2 ≠ []) (hzero1 : (0 : UInt8) ∉ str1)
    (hzero2 : (0 : UInt8) ∉ str2) (rest : List UInt8) :
    IsFirst (OccursAnyCase str2 str1) (pStrcasestr (str1 ++ 0 :: rest) str2) ↔
      ∀ k, OccursAnyCase str2 str1 k → ∃ q ≤ k, str2 <+: str1.drop q := by
  rw [pStrcasestr_eq_find h hzero2, cstr_eq hzero1]
  exact isFirst_of_imp_iff (fun q hq => hq.map capital) (isFirst_find h str1)

/-- A word that is found. -/
theorem pStrcasestr_length_found :
    IsFirst (OccursAnyCase (text "Length:") (text "Content-Length: 5"))
      (pStrcasestr (text "Content-Length: 5" ++ 0 :: []) (text "Length:")) := by
  refine (pStrcasestr_isFirst_iff (by decide) (by decide) (by decide) []).2 fun k hk => ?_
  have hcases : k < 8 ∨ 8 ≤ k := by omega
  refine hcases.elim (fun hlt => ?_) fun hle => ⟨8, hle, by decide⟩
  interval_cases k <;> exact absurd hk (by decide)

/-- A header in small letters is not found. -/
theorem pStrcasestr_small_letters :
    ¬IsFirst (OccursAnyCase (text "Content-Length:") (text "content-length: 5"))
      (pStrcasestr (text "content-length: 5" ++ 0 :: []) (text "Content-Length:")) := by
  have hnone : pStrcasestr (text "content-length: 5" ++ 0 :: []) (text "Content-Length:") = none := by decide +kernel
  have hoccurs : OccursAnyCase (text "Content-Length:") (text "content-length: 5") 0 := by decide +kernel
  rw [hnone]
  exact fun h => h 0 hoccurs

end DeviceTools.Http
