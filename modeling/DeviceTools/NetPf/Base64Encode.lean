/-
The Base64 encoder of the platform client.

`base64_encode` writes four characters for every three bytes.  For a last group of two bytes it
fills up the third character from the byte behind them, as it does inside a whole group.  A negative
count stands for a C string, but the string is counted from the negative count on; and for a count
of 0 the function returns in front of the line that writes the terminator.
-/
import DeviceTools.Lib.Base64
import DeviceTools.Lib.CInt
import DeviceTools.Lib.CText

namespace DeviceTools.NetPf

open CInt CText

def Base64_EnCoding : List UInt8 :=
  "ABCDEFGHIJKLMNOPQRSTUVWXYZabcdefghijklmnopqrstuvwxyz0123456789+/".toList.map
    fun c => UInt8.ofNat c.toNat

/-- `Base64_EnCoding[n]`. -/
def enCoding (n : ℕ) : UInt8 := (Base64_EnCoding[n]?).getD 0

/-- What `base64_encode` leaves: the bytes that it stores from `dest` on, and the number that it
returns. -/
structure Encoded where
  dest : List UInt8
  len : ℤ
deriving DecidableEq, Repr

/-- The loop that counts the string.  A read behind the memory has no result. -/
def countString : List UInt8 → ℤ → Option ℤ
  | [], _ => none
  | c :: pt, count => if c ≠ 0 then (asInt (count + 1)).bind (countString pt) else some count

/-- The first two characters of a group. -/
def enCodingFirst (pt0 : UInt8) : UInt8 := enCoding ((pt0.toNat >>> 2) &&& 0x3F)
def enCodingSecond (pt0 pt1 : UInt8) : UInt8 := enCoding (((pt0.toNat &&& 3) <<< 4) ||| (pt1.toNat >>> 4))

/-- The third one, of three bytes and of two. -/
def enCodingThird (pt1 pt2 : UInt8) : UInt8 := enCoding (((pt1.toNat &&& 0xF) <<< 2) ||| (pt2.toNat >>> 6))

/-- The main loop, with the bytes from `pt` on. -/
def encodeLoop (pt : List UInt8) (count len : ℤ) : Option Encoded :=
  if 0 < count then
    if 2 < count then
      match pt with
      | pt0 :: pt1 :: pt2 :: pt => do
          let len ← asInt (len + 4)
          let r ← encodeLoop pt (count - 3) len
          some ⟨enCodingFirst pt0 :: enCodingSecond pt0 pt1 :: enCodingThird pt1 pt2 ::
            enCoding (pt2.toNat &&& 0x3F) :: r.dest, r.len⟩
      | _ => none
    else if count = 1 then
      match pt with
      | pt0 :: _ => do
          let len ← asInt (len + 4)
          some ⟨[enCodingFirst pt0, enCoding ((pt0.toNat &&& 3) <<< 4), 0x3D, 0x3D, 0], len⟩
      | _ => none
    else
      match pt with
      | pt0 :: pt1 :: pt2 :: _ => do
          let len ← asInt (len + 4)
          some ⟨[enCodingFirst pt0, enCodingSecond pt0 pt1, enCodingThird pt1 pt2, 0x3D, 0], len⟩
      | _ => none
  else some ⟨[0], len⟩

/-- `base64_encode`. -/
def base64Encode (src : List UInt8) (count : ℤ) : Option Encoded := do
  let count ← if count < 0 then countString src count else some count
  if count = 0 then some ⟨[], 0⟩ else encodeLoop src count 0

/-! ### What is written -/

/-- The characters for the bytes `s` when `next` stands behind them. -/
def encodeIn (next : Option UInt8) : List UInt8 → Option (List UInt8)
  | [] => some []
  | [a] => some (Base64.encode [a])
  | [a, b] => next.map fun c => [Base64.digit (Base64.first a), Base64.digit (Base64.second a b),
      Base64.digit (Base64.third b c), Base64.padding]
  | a :: b :: c :: s => (encodeIn next s).map fun t => Base64.encode [a, b, c] ++ t

lemma Base64_EnCoding_eq : Base64_EnCoding = Base64.alphabet := by decide +kernel

lemma enCoding_eq {n : ℕ} (h : n < 64) : enCoding n = Base64.digit n := by
  rw [enCoding, Base64_EnCoding_eq, Base64.getD_alphabet h]

lemma enCodingFirst_eq (a : UInt8) : enCodingFirst a = Base64.digit (Base64.first a) := by
  have hlt := Base64.first_lt a
  rw [enCodingFirst, Base64.shiftRight_first, Nat.and_two_pow_sub_one_eq_mod _ 6, Nat.mod_eq_of_lt hlt,
    enCoding_eq hlt]

lemma enCodingSecond_eq (a b : UInt8) : enCodingSecond a b = Base64.digit (Base64.second a b) := by
  rw [enCodingSecond, Base64.or_second, enCoding_eq (Base64.second_lt a b)]

lemma enCodingThird_eq (b c : UInt8) : enCodingThird b c = Base64.digit (Base64.third b c) := by
  rw [enCodingThird, Base64.or_third, enCoding_eq (Base64.third_lt b c)]

lemma encodeLoop_done {count : ℤ} (h : count ≤ 0) (pt : List UInt8) (len : ℤ) :
    encodeLoop pt count len = some ⟨[0], len⟩ := by
  rw [encodeLoop.eq_def, if_neg (by omega)]

lemma encodeLoop_three {count : ℤ} (h : 2 < count) (a b c : UInt8) (pt : List UInt8) (len : ℤ) :
    encodeLoop (a :: b :: c :: pt) count len = (asInt (len + 4)).bind fun len =>
      (encodeLoop pt (count - 3) len).map fun r => ⟨Base64.encode [a, b, c] ++ r.dest, r.len⟩ := by
  rw [encodeLoop.eq_def, if_pos (by omega), if_pos h]
  simp only [Option.bind_eq_bind, enCodingFirst_eq, enCodingSecond_eq, enCodingThird_eq, Base64.and_fourth,
    enCoding_eq (Base64.fourth_lt c)]
  congr 1
  funext len
  cases encodeLoop pt (count - 3) len <;> rfl

lemma encodeLoop_one (a : UInt8) (pt : List UInt8) (len : ℤ) :
    encodeLoop (a :: pt) 1 len = (asInt (len + 4)).map fun len => ⟨Base64.encode [a] ++ [0], len⟩ := by
  have hsecond : (a.toNat &&& 3) <<< 4 = Base64.second a 0 := by simpa using Base64.or_second a 0
  rw [encodeLoop.eq_def, if_pos one_pos, if_neg (by omega), if_pos rfl]
  simp only [enCodingFirst_eq, hsecond, enCoding_eq (Base64.second_lt a 0)]
  cases asInt (len + 4) <;> rfl

lemma encodeLoop_two (a b c : UInt8) (pt : List UInt8) (len : ℤ) :
    encodeLoop (a :: b :: c :: pt) 2 len = (asInt (len + 4)).map fun len =>
      ⟨[Base64.digit (Base64.first a), Base64.digit (Base64.second a b), Base64.digit (Base64.third b c),
        Base64.padding] ++ [0], len⟩ := by
  rw [encodeLoop.eq_def, if_pos two_pos, if_neg (by omega), if_neg (by omega)]
  simp only [enCodingFirst_eq, enCodingSecond_eq, enCodingThird_eq]
  cases asInt (len + 4) <;> rfl

lemma encodeLoop_two_nil (a b : UInt8) (len : ℤ) : encodeLoop [a, b] 2 len = none := by
  rw [encodeLoop.eq_def, if_pos two_pos, if_neg (by omega), if_neg (by omega)]

/-- **The loop** writes the characters of the bytes counted, with what stands behind them, and the
terminator, as long as the number of characters is an `int`. -/
lemma encodeLoop_eq (behind s : List UInt8) : ∀ {len : ℤ}, 0 ≤ len → len ≤ INT_MAX →
    encodeLoop (s ++ behind) s.length len =
      if len + 4 * ((s.length + 2) / 3 : ℕ) ≤ INT_MAX then
        (encodeIn behind.head? s).map fun t => ⟨t ++ [0], len + 4 * ((s.length + 2) / 3 : ℕ)⟩
      else none := by
  induction s using encodeIn.induct with
  | case1 =>
      intro len _ hmax
      rw [encodeLoop_done (by simp)]
      simp [encodeIn, hmax]
  | case2 a =>
      intro len hlen _
      have hceil : len + 4 * (([a].length + 2) / 3 : ℕ) = len + 4 := by simp
      have hrun : encodeLoop ([a] ++ behind) ([a].length : ℕ) len = _ := encodeLoop_one a behind len
      rw [hceil, hrun, asInt_of_nonneg (by omega)]
      split <;> rfl
  | case3 a b =>
      intro len hlen _
      have hceil : len + 4 * (([a, b].length + 2) / 3 : ℕ) = len + 4 := by simp
      rw [hceil]
      cases behind with
      | nil =>
          have hrun : encodeLoop ([a, b] ++ []) ([a, b].length : ℕ) len = none := encodeLoop_two_nil a b len
          rw [hrun]
          exact (ite_self none).symm
      | cons c behind =>
          have hrun : encodeLoop ([a, b] ++ c :: behind) ([a, b].length : ℕ) len = _ :=
            encodeLoop_two a b c behind len
          rw [hrun, asInt_of_nonneg (by omega)]
          split <;> rfl
  | case4 a b c s ih =>
      intro len hlen _
      have hceil : len + 4 * (((a :: b :: c :: s).length + 2) / 3 : ℕ) = len + 4 + 4 * ((s.length + 2) / 3 : ℕ) := by
        simp only [List.length_cons]
        omega
      have hcount : ((a :: b :: c :: s).length : ℤ) - 3 = s.length := by
        simp only [List.length_cons]
        omega
      rw [hceil, List.cons_append, List.cons_append, List.cons_append, encodeLoop_three (by omega), hcount,
        asInt_of_nonneg (by omega), encodeIn]
      by_cases hfits : len + 4 ≤ INT_MAX
      · rw [if_pos hfits, Option.bind_some, ih (by omega) hfits]
        split
        · cases encodeIn behind.head? s <;> simp
        · rfl
      · rw [if_neg hfits, if_neg (by omega)]
        rfl

/-! ### The standard encoding -/

/-- With a byte behind the bytes something is written. -/
lemma exists_encodeIn (next : UInt8) (s : List UInt8) : ∃ t, encodeIn (some next) s = some t := by
  induction s using encodeIn.induct with
  | case1 => exact ⟨_, rfl⟩
  | case2 a => exact ⟨_, rfl⟩
  | case3 a b => exact ⟨_, rfl⟩
  | case4 a b c s ih =>
      obtain ⟨t, ht⟩ := ih
      exact ⟨_, by rw [encodeIn, ht]; rfl⟩

/-- A last group of two bytes shows the high bits of the byte behind it. -/
lemma third_eq_iff (b c : UInt8) : Base64.third b c = Base64.third b 0 ↔ c < 0x40 := by
  have hzero : (0 : UInt8).toNat = 0 := rfl
  have hsixty : (0x40 : UInt8).toNat = 64 := rfl
  rw [Base64.third, Base64.third, hzero, UInt8.lt_iff_toNat_lt, hsixty]
  omega

/-- **The standard encoding** is written exactly if no bits of the byte behind a last group of two
are. -/
lemma encodeIn_eq_encode_iff (next : Option UInt8) (s : List UInt8) :
    encodeIn next s = some (Base64.encode s) ↔ (s.length % 3 = 2 → ∃ c, next = some c ∧ c < 0x40) := by
  induction s using encodeIn.induct with
  | case1 => simp [encodeIn, Base64.encode]
  | case2 a => simp [encodeIn]
  | case3 a b =>
      have hdigit : ∀ c, Base64.digit (Base64.third b c) = Base64.digit (Base64.third b 0) ↔ c < 0x40 := fun c => by
        rw [Base64.digit_inj (Base64.third_lt b c) (Base64.third_lt b 0), third_eq_iff]
      cases next with
      | none => simp [encodeIn]
      | some c => simp [encodeIn, Base64.encode, hdigit]
  | case4 a b c s ih =>
      have hlen : (a :: b :: c :: s).length % 3 = s.length % 3 := by
        simp only [List.length_cons]
        omega
      have hencode : Base64.encode (a :: b :: c :: s) = Base64.encode [a, b, c] ++ Base64.encode s := rfl
      rw [hlen, ← ih, encodeIn, hencode, Option.map_eq_some_iff]
      constructor
      · rintro ⟨t, ht, heq⟩
        rw [ht, List.append_cancel_left heq]
      · exact fun h => ⟨_, h, rfl⟩

lemma encodeIn_zero (s : List UInt8) : encodeIn (some 0) s = some (Base64.encode s) :=
  (encodeIn_eq_encode_iff (some 0) s).2 fun _ => ⟨0, rfl, by decide⟩

/-- How many characters are written, and how many of them are padding. -/
lemma encodeIn_shape {next : Option UInt8} {s : List UInt8} : ∀ {t : List UInt8}, encodeIn next s = some t →
    t.length = 4 * ((s.length + 2) / 3) ∧ t.count Base64.padding = (3 - s.length % 3) % 3 := by
  have hdigit : ∀ {n : ℕ}, n < 64 → (Base64.digit n == Base64.padding) = false := fun hn =>
    beq_eq_false_iff_ne.2 (Base64.digit_ne_padding hn)
  induction s using encodeIn.induct with
  | case1 =>
      rintro t ⟨⟩
      exact ⟨rfl, rfl⟩
  | case2 a =>
      rintro t ⟨⟩
      simp [Base64.encode, List.count_cons, hdigit, Base64.first_lt, Base64.second_lt]
  | case3 a b =>
      intro t h
      obtain ⟨c, -, rfl⟩ := Option.map_eq_some_iff.1 h
      simp [List.count_cons, hdigit, Base64.first_lt, Base64.second_lt, Base64.third_lt]
  | case4 a b c s ih =>
      intro t h
      obtain ⟨t', ht', rfl⟩ := Option.map_eq_some_iff.1 h
      obtain ⟨hlen, hcount⟩ := ih ht'
      have hgroup : (Base64.encode [a, b, c]).count Base64.padding = 0 := by
        simp [Base64.encode, List.count_cons, hdigit, Base64.first_lt, Base64.second_lt, Base64.third_lt,
          Base64.fourth_lt]
      rw [List.length_append, Base64.length_encode, List.count_append, hgroup, hlen, hcount]
      simp only [List.length_cons, List.length_nil]
      omega

/-- Texts of different lengths have different encodings, whatever is behind them. -/
lemma length_eq_of_encodeIn {next next' : Option UInt8} {s s' t : List UInt8} (h : encodeIn next s = some t)
    (h' : encodeIn next' s' = some t) : s.length = s'.length := by
  obtain ⟨hlen, hcount⟩ := encodeIn_shape h
  obtain ⟨hlen', hcount'⟩ := encodeIn_shape h'
  omega

/-- What a call is asked to encode: `count` bytes, or the whole string. -/
def asked (src : List UInt8) (count : ℤ) : List UInt8 := if 0 ≤ count then src.take count.toNat else cstr src

/-- The standard encoding is written, with its terminator, and its length is returned. -/
def Standard (src : List UInt8) (count : ℤ) : Prop :=
  base64Encode src count =
    some ⟨Base64.encode (asked src count) ++ [0], ((Base64.encode (asked src count)).length : ℕ)⟩

instance (src : List UInt8) (count : ℤ) : Decidable (Standard src count) :=
  inferInstanceAs (Decidable (_ = _))

lemma encodeLoop_take {src : List UInt8} {k : ℕ} (h : k ≤ src.length) :
    encodeLoop src k 0 =
      if 4 * ((k + 2) / 3 : ℕ) ≤ INT_MAX then
        (encodeIn src[k]? (src.take k)).map fun t => ⟨t ++ [0], 4 * ((k + 2) / 3 : ℕ)⟩
      else none := by
  have hloop := encodeLoop_eq (src.drop k) (src.take k) le_rfl (by decide)
  rwa [List.take_append_drop, List.length_take, min_eq_left h, List.head?_drop, zero_add] at hloop

/-- The string is counted from the given count on. -/
lemma countString_eq {m : List UInt8} : ∀ {count count' : ℤ}, countString m count = some count' →
    count' = count + strlen m := by
  induction m with
  | nil => exact fun h => by cases h
  | cons c m ih =>
      intro count count' h
      rw [countString] at h
      split at h
      case isTrue hc =>
        obtain ⟨next, hnext, hrest⟩ := Option.bind_eq_some_iff.1 h
        rw [asInt] at hnext
        split at hnext
        case isTrue =>
          rw [ih hrest, ← Option.some_inj.1 hnext, strlen_cons hc]
          omega
        case isFalse => cases hnext
      case isFalse hc =>
        obtain rfl := not_not.1 hc
        rw [← Option.some_inj.1 h, strlen, cstr_zero_cons]
        simp

lemma base64Encode_of_pos (src : List UInt8) {count : ℤ} (h : 0 < count) :
    base64Encode src count = encodeLoop src count 0 := by
  rw [base64Encode, if_neg (by omega)]
  exact if_neg (by omega)

lemma standard_natCast_iff {src : List UInt8} {k : ℕ} (hpos : 0 < k) (h : k ≤ src.length) :
    Standard src k ↔ 4 * ((k + 2) / 3 : ℕ) ≤ INT_MAX ∧ (k % 3 = 2 → ∃ c, src[k]? = some c ∧ c < 0x40) := by
  have hlen : (src.take k).length = k := by rw [List.length_take, min_eq_left h]
  have hasked : asked src k = src.take k := by rw [asked, if_pos (by omega), Int.toNat_natCast]
  rw [Standard, hasked, base64Encode_of_pos src (by omega), encodeLoop_take h, Base64.length_encode, hlen]
  have hiff := encodeIn_eq_encode_iff src[k]? (src.take k)
  rw [hlen] at hiff
  rw [← hiff]
  split
  case isTrue hfits =>
    rw [Option.map_eq_some_iff, iff_true_intro hfits, true_and]
    constructor
    · rintro ⟨t, ht, heq⟩
      rw [ht, List.append_cancel_right (Encoded.mk.inj heq).1]
    · exact fun ht => ⟨_, ht, by norm_cast⟩
  case isFalse hfits => exact iff_of_false (fun heq => by cases heq) fun hboth => hfits hboth.1

/-- A part of a string does not have the encoding of the string. -/
lemma dest_ne_of_lt {src : List UInt8} {count : ℤ} (hpos : 0 < count) (hlt : count < strlen src) {r : Encoded}
    (h : encodeLoop src count 0 = some r) : r.dest ≠ Base64.encode (cstr src) ++ [0] := by
  intro heq
  obtain ⟨k, rfl⟩ := Int.eq_ofNat_of_zero_le hpos.le
  have hle : strlen src ≤ src.length := length_cstr_le src
  rw [encodeLoop_take (by omega)] at h
  split at h
  case isTrue =>
    obtain ⟨t, ht, rfl⟩ := Option.map_eq_some_iff.1 h
    rw [List.append_cancel_right heq] at ht
    have hsame := length_eq_of_encodeIn ht (encodeIn_zero (cstr src))
    rw [List.length_take, ← strlen] at hsame
    omega
  case isFalse => cases h

/-- A negative count. -/
lemma standard_neg_iff {src : List UInt8} {count : ℤ} (hneg : count < 0) (hstring : (0 : UInt8) ∈ src) :
    Standard src count ↔ src.head? = some 0 := by
  have hasked : asked src count = cstr src := by rw [asked, if_neg (by omega)]
  rw [Standard, hasked]
  constructor
  · intro h
    rw [base64Encode, if_pos hneg] at h
    obtain ⟨count', hcount, hrun⟩ := Option.bind_eq_some_iff.1 h
    have hstrlen := countString_eq hcount
    -- a string that is not empty is longer than what is encoded
    suffices strlen src = 0 by
      have hzero := getElem?_strlen hstring
      rwa [this, ← List.head?_eq_getElem?] at hzero
    by_contra hlong
    dsimp only at hrun
    split at hrun
    case isTrue => simp at hrun
    case isFalse hne =>
      rcases lt_or_gt_of_ne hne with hcount' | hcount'
      · rw [encodeLoop_done hcount'.le] at hrun
        have hnil := congrArg List.length (Encoded.mk.inj (Option.some_inj.1 hrun)).1
        rw [List.length_append, Base64.length_encode, ← strlen] at hnil
        simp only [List.length_singleton] at hnil
        omega
      · exact dest_ne_of_lt hcount' (by omega) hrun rfl
  · intro h
    cases src with
    | nil => cases h
    | cons c src =>
        obtain rfl := Option.some_inj.1 h
        rw [base64Encode, if_pos hneg, countString, if_neg (by simp), cstr_zero_cons]
        change (if count = 0 then some ⟨[], 0⟩ else encodeLoop (0 :: src) count 0) = _
        rw [if_neg hneg.ne, encodeLoop_done hneg.le]
        rfl

/-- **When the standard encoding is written**: for a positive count, if the number of characters is
an `int` and no bits of the byte behind a last group of two are set that would show; for a negative
count, if the string is empty. -/
theorem base64Encode_standard_iff {src : List UInt8} {count : ℤ} (hbuffer : count ≤ src.length)
    (hstring : count < 0 → (0 : UInt8) ∈ src) :
    Standard src count ↔
      (0 < count ∧ 4 * ((count + 2) / 3) ≤ INT_MAX ∧
        (count % 3 = 2 → ∃ c, src[count.toNat]? = some c ∧ c < 0x40)) ∨
      (count < 0 ∧ src.head? = some 0) := by
  rcases lt_trichotomy count 0 with hneg | rfl | hpos
  · rw [standard_neg_iff hneg (hstring hneg), or_iff_right (by omega), iff_true_intro hneg, true_and]
  · -- the terminator is missing
    refine iff_of_false (fun h => ?_) (by omega)
    have hnil : [] = Base64.encode (asked src 0) ++ [0] := congrArg Encoded.dest (Option.some_inj.1 h)
    simp at hnil
  · obtain ⟨k, rfl⟩ := Int.eq_ofNat_of_zero_le hpos.le
    rw [standard_natCast_iff (by omega) (by omega), or_iff_left (by omega), iff_true_intro hpos, true_and,
      Int.toNat_natCast]
    norm_cast

/-- Two letters, with a NUL behind them. -/
theorem base64Encode_two_letters : Standard [0x61, 0x62, 0] 2 :=
  (base64Encode_standard_iff (by decide) (by decide)).2
    (Or.inl ⟨by decide, by decide, fun _ => ⟨0, by decide, by decide⟩⟩)

/-- Two letters with another byte behind them, a string with a negative count, and a count of 0. -/
theorem base64Encode_two_leak :
    base64Encode [0x61, 0x62, 0xFF] 2 = some ⟨[0x59, 0x57, 0x4C, 0x3D, 0], 4⟩ ∧
      asked [0x61, 0x62, 0xFF] 2 = [0x61, 0x62] ∧
      Base64.encode [0x61, 0x62] = [0x59, 0x57, 0x49, 0x3D] ∧
      ¬Standard [0x61, 0x62, 0xFF] 2 ∧
      ¬Standard [0x61, 0x62, 0x63, 0] (-1) ∧
      ¬Standard [0x61, 0] 0 := by
  decide +kernel

/-! ### The name of the device -/

lemma zero_notMem_encode (s : List UInt8) : (0 : UInt8) ∉ Base64.encode s := by
  have hnot : (0 : UInt8) ∉ Base64.alphabet := by decide +kernel
  have hall := Base64.forall_encode (P := fun c => c ≠ 0) (fun c hc heq => hnot (heq ▸ hc)) (by decide) s
  exact fun h => hall 0 h rfl

lemma standard_strlen {m : List UInt8} (hmem : (0 : UInt8) ∈ m) (hpos : 0 < strlen m)
    (hfits : 4 * ((strlen m + 2) / 3 : ℕ) ≤ INT_MAX) : Standard m (strlen m) :=
  (standard_natCast_iff hpos (length_cstr_le m)).2 ⟨hfits, fun _ => ⟨0, getElem?_strlen hmem, by decide⟩⟩

/-- `acName` of `create_login_json_string`: the array is cleared, and 31 characters are copied. -/
def acName (name : List UInt8) : List UInt8 := strncpy 31 name ++ [0]

/-- `acNameBase64` of `create_login_json_string`, which is cleared, too. -/
def acNameBase64 (name : List UInt8) : Option (List UInt8) := do
  let r ← base64Encode (acName name) (strlen (acName name))
  some (r.dest ++ (List.replicate 128 0).drop r.dest.length)

lemma cstr_acName (name : List UInt8) : cstr (acName name) = (cstr name).take 31 := by
  rw [acName, cstr_append_zero, cstr_strncpy]

/-- **The name of the device** is encoded as the standard has it, and the encoding fits its array. -/
lemma acNameBase64_eq (name : List UInt8) : ∃ m, acNameBase64 name = some m ∧ m.length = 128 ∧
    cstr m = Base64.encode ((cstr name).take 31) := by
  have hstrlen : strlen (acName name) ≤ 31 := by
    rw [strlen, cstr_acName, List.length_take]
    exact min_le_left _ _
  have htake : (acName name).take (strlen (acName name)) = (cstr name).take 31 := by
    rw [take_strlen, cstr_acName]
  by_cases hnil : strlen (acName name) = 0
  · -- nothing is written
    have hempty : (cstr name).take 31 = [] := by rw [← htake, hnil, List.take_zero]
    refine ⟨List.replicate 128 0, ?_, List.length_replicate, ?_⟩
    · rw [acNameBase64, hnil]
      rfl
    · rw [hempty, List.replicate_succ, cstr_zero_cons]
      rfl
  · have hmem : (0 : UInt8) ∈ acName name := List.mem_append_right _ (List.mem_singleton_self 0)
    have hstandard : Standard (acName name) (strlen (acName name)) := by
      refine standard_strlen hmem (by omega) ?_
      have hmax : INT_MAX = 2147483647 := rfl
      omega
    have hasked : asked (acName name) (strlen (acName name)) = (cstr name).take 31 := by
      rw [asked, if_pos (by omega), Int.toNat_natCast, htake]
    rw [Standard, hasked] at hstandard
    have hlen : (Base64.encode ((cstr name).take 31)).length ≤ 44 := by
      rw [Base64.length_encode, List.length_take]
      omega
    rw [acNameBase64, hstandard]
    refine ⟨_, rfl, ?_, ?_⟩
    · dsimp only
      rw [List.length_append, List.length_drop, List.length_append, List.length_replicate, List.length_singleton]
      omega
    · dsimp only
      rw [List.append_assoc, List.singleton_append, cstr_eq (zero_notMem_encode _)]

end DeviceTools.NetPf
