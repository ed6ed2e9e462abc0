/-
Dotted quads.

`dns_isip` checks an address in one loop over the string.  The loop keeps the start of the group it
is in, the number of dots, and whether the last byte was a dot.  It ends at a dot behind a dot, behind
a group of more than 255 and at a fourth digit; the last group is checked behind the loop, by its
value only.  The value of an empty group is 0.  So besides the dotted quads the function accepts
three groups with a dot behind each.
-/
import DeviceTools.Dns.Response

namespace DeviceTools.Dns

/-- A byte from '0' to '9'. -/
def isDigit (c : UInt8) : Bool := 0x30 ≤ c && c ≤ 0x39

/-- A byte that `isspace` accepts. -/
def isSpace (c : UInt8) : Bool := c = 0x20 || (0x09 ≤ c && c ≤ 0x0D)

/-- The value of digits. -/
def digitsValue (ds : List UInt8) : ℕ := ds.foldl (fun n c => 10 * n + (c.toNat - 0x30)) 0

/-- The number of the digits at the start of a string. -/
def leadingNumber (s : List UInt8) : ℤ := digitsValue (s.takeWhile isDigit)

/-- `atoi`, of a number that fits an `int`. -/
def atoi (s : List UInt8) : ℤ :=
  match s.dropWhile isSpace with
  | [] => 0
  | c :: cs =>
      if c = 0x2D then -leadingNumber cs else if c = 0x2B then leadingNumber cs else leadingNumber (c :: cs)

/-- The variables of the loop of `dns_isip`. -/
structure IsipState where
  i : ℕ
  j : ℕ
  dotnum : ℕ
  isdot : Bool

/-- The loop of `dns_isip` over the bytes that are left, `none` if it ends at a `break`. -/
def isipLoop (ipstr : List UInt8) : List UInt8 → IsipState → Option IsipState
  | [], s => some s
  | c :: cs, s =>
      if c = PERIOD then
        if s.isdot then none
        else if 255 < atoi (ipstr.drop s.j) then none
        else isipLoop ipstr cs ⟨s.i + 1, s.i + 1, s.dotnum + 1, true⟩
      else if c < 0x30 ∨ 0x39 < c then none
      else if 2 < s.i - s.j then none
      else isipLoop ipstr cs ⟨s.i + 1, s.j, s.dotnum, false⟩

/-- `dns_isip`; `none` is the null pointer. -/
def dnsIsip : Option (List UInt8) → MRJEcode
  | none => .MRJE_BAD_FUNCTION_ARGUMENT
  | some ipstr =>
      if 7 ≤ ipstr.length ∧ ipstr.length ≤ 15 then
        match isipLoop ipstr ipstr ⟨0, 0, 0, true⟩ with
        | none => .MRJE_BAD_FUNCTION_ARGUMENT
        | some s =>
            if s.dotnum = 3 ∧ atoi (ipstr.drop s.j) ≤ 255 then .MRJE_OK else .MRJE_BAD_FUNCTION_ARGUMENT
      else .MRJE_BAD_FUNCTION_ARGUMENT

/-! ### Groups -/

/-- At most three digits. -/
structure ShortDigits (g : List UInt8) : Prop where
  length_le : g.length ≤ 3
  digits : ∀ c ∈ g, isDigit c = true

/-- A group of an address. -/
structure IsGroup (g : List UInt8) : Prop extends ShortDigits g where
  ne_nil : g ≠ []
  value_le : digitsValue g ≤ 255

/-- Four groups, separated by single dots. -/
def IsDottedQuad (s : List UInt8) : Prop :=
  ∃ g₁ g₂ g₃ g₄, s = g₁ ++ PERIOD :: (g₂ ++ PERIOD :: (g₃ ++ PERIOD :: g₄)) ∧
    IsGroup g₁ ∧ IsGroup g₂ ∧ IsGroup g₃ ∧ IsGroup g₄

/-- Three groups with a dot behind each, in at least seven bytes. -/
def IsDottedTriple (s : List UInt8) : Prop :=
  7 ≤ s.length ∧ ∃ g₁ g₂ g₃, s = g₁ ++ PERIOD :: (g₂ ++ PERIOD :: (g₃ ++ [PERIOD])) ∧
    IsGroup g₁ ∧ IsGroup g₂ ∧ IsGroup g₃

/-- Groups with a dot behind each. -/
def dotted (gs : List (List UInt8)) : List UInt8 := gs.flatMap fun g => g ++ [PERIOD]

lemma dotted_cons (g : List UInt8) (gs : List (List UInt8)) : dotted (g :: gs) = g ++ PERIOD :: dotted gs := by
  simp [dotted]

lemma digitsValue_append_one (ds : List UInt8) (c : UInt8) :
    digitsValue (ds ++ [c]) = 10 * digitsValue ds + (c.toNat - 0x30) := by
  rw [digitsValue, List.foldl_append]
  rfl

lemma digitsValue_le_append (ds es : List UInt8) : digitsValue ds ≤ digitsValue (ds ++ es) := by
  induction es using List.reverseRecOn with
  | nil => rw [List.append_nil]
  | append_singleton es c ih =>
      rw [← List.append_assoc, digitsValue_append_one]
      omega

lemma isDigit_iff {c : UInt8} : isDigit c = true ↔ ¬ (c < 0x30 ∨ 0x39 < c) := by
  simp [isDigit]

lemma ne_period_of_isDigit {c : UInt8} (h : isDigit c = true) : c ≠ PERIOD := by
  rintro rfl
  exact absurd h (by decide)

lemma isSpace_of_isDigit {c : UInt8} (h : isDigit c = true) : isSpace c = false := by
  simp only [isDigit, Bool.and_eq_true, decide_eq_true_eq, UInt8.le_iff_toNat_le] at h
  have h20 : c ≠ 0x20 := by
    rintro rfl
    exact absurd h.1 (by decide)
  have h0D : ¬ c ≤ 0x0D := by
    rw [UInt8.le_iff_toNat_le]
    exact fun hc => absurd (h.1.trans hc) (by decide)
  simp [isSpace, h20, h0D]

/-- The number in front of a byte that is no digit. -/
lemma atoi_digits {g : List UInt8} (rest : List UInt8) (hg : ∀ c ∈ g, isDigit c = true) (hne : g ≠ [])
    (hrest : ∀ c ∈ rest.head?, isDigit c = false) : atoi (g ++ rest) = digitsValue g := by
  have htake : (g ++ rest).takeWhile isDigit = g := by
    have hnil : rest.takeWhile isDigit = [] := by
      cases rest with
      | nil => rfl
      | cons c cs => exact List.takeWhile_cons_of_neg (by simpa using hrest c rfl)
    rw [List.takeWhile_append_of_pos hg, hnil, List.append_nil]
  obtain ⟨c, cs, rfl⟩ := List.exists_cons_of_ne_nil hne
  have hc : isDigit c = true := hg c List.mem_cons_self
  have hsign : c ≠ 0x2D ∧ c ≠ 0x2B := by
    constructor <;> (rintro rfl; exact absurd hc (by decide))
  rw [List.cons_append] at htake ⊢
  rw [atoi, List.dropWhile_cons_of_neg (by rw [isSpace_of_isDigit hc]; simp)]
  show (if c = 0x2D then _ else _) = _
  rw [if_neg hsign.1, if_neg hsign.2, leadingNumber, htake]

/-! ### The loop -/

lemma isipLoop_digit {ipstr cs : List UInt8} {c : UInt8} {s : IsipState} (hc : isDigit c = true)
    (hroom : s.i - s.j ≤ 2) :
    isipLoop ipstr (c :: cs) s = isipLoop ipstr cs ⟨s.i + 1, s.j, s.dotnum, false⟩ := by
  rw [isipLoop, if_neg (ne_period_of_isDigit hc), if_neg (isDigit_iff.1 hc), if_neg (not_lt.2 hroom)]

/-- The digits of a group. -/
lemma isipLoop_digits (ipstr rest : List UInt8) {n j : ℕ} : ∀ {g : List UInt8} {i : ℕ} {b : Bool},
    (∀ c ∈ g, isDigit c = true) → j ≤ i → i - j + g.length ≤ 3 →
    isipLoop ipstr (g ++ rest) ⟨i, j, n, b⟩ =
      isipLoop ipstr rest ⟨i + g.length, j, n, if g = [] then b else false⟩ := by
  intro g
  induction g with
  | nil => intro i b _ _ _; rfl
  | cons c g ih =>
      intro i b hg hji hlen
      simp only [List.length_cons] at hlen
      rw [List.cons_append, isipLoop_digit (hg c List.mem_cons_self) (show i - j ≤ 2 by omega)]
      show isipLoop ipstr (g ++ rest) ⟨i + 1, j, n, false⟩ = _
      rw [ih (fun d hd => hg d (List.mem_cons_of_mem c hd)) (by omega) (by omega),
        if_neg (List.cons_ne_nil c g), ite_self, List.length_cons, Nat.add_right_comm, Nat.add_assoc]

/-- A group with the dot behind it. -/
lemma isipLoop_group {ipstr pre g rest : List UInt8} {n : ℕ} (hs : ipstr = pre ++ (g ++ PERIOD :: rest))
    (hg : IsGroup g) : isipLoop ipstr (g ++ PERIOD :: rest) ⟨pre.length, pre.length, n, true⟩ =
      isipLoop ipstr rest ⟨(pre ++ (g ++ [PERIOD])).length, (pre ++ (g ++ [PERIOD])).length, n + 1, true⟩ := by
  have hatoi : atoi (ipstr.drop pre.length) = digitsValue g := by
    rw [hs, List.drop_left]
    exact atoi_digits _ hg.digits hg.ne_nil (by simp [isDigit, PERIOD])
  have hvalue := hg.value_le
  have hpos : pre.length + g.length + 1 = (pre ++ (g ++ [PERIOD])).length := by
    rw [List.length_append, List.length_append, List.length_singleton, Nat.add_assoc]
  rw [isipLoop_digits _ _ hg.digits le_rfl (by have := hg.length_le; omega), if_neg hg.ne_nil, isipLoop,
    if_pos rfl, if_neg Bool.false_ne_true]
  show (if 255 < atoi (ipstr.drop pre.length) then _ else _) = _
  rw [hatoi, if_neg (by omega), hpos]

/-- **What the loop accepts, it reads.**  It goes over groups with dots behind them and stands behind
at most three more digits at the end. -/
lemma isipLoop_dotted {ipstr g : List UInt8} (hg : ShortDigits g) : ∀ {gs : List (List UInt8)} (pre : List UInt8)
    {n : ℕ}, ipstr = pre ++ (dotted gs ++ g) → (∀ h ∈ gs, IsGroup h) →
    isipLoop ipstr (dotted gs ++ g) ⟨pre.length, pre.length, n, true⟩ =
      some ⟨ipstr.length, (pre ++ dotted gs).length, n + gs.length, decide (g = [])⟩ := by
  intro gs
  induction gs with
  | nil =>
      intro pre n hs _
      have hloop := isipLoop_digits ipstr [] (n := n) (b := true) hg.digits
        (le_refl pre.length) (by have := hg.length_le; omega)
      rw [List.append_nil] at hloop
      simp only [dotted, List.flatMap_nil, List.nil_append] at hs ⊢
      rw [hloop, isipLoop, hs, List.append_nil, List.length_append]
      by_cases h : g = [] <;> simp [h]
  | cons h gs ih =>
      intro pre n hs hgs
      rw [dotted_cons, List.append_assoc, List.cons_append] at hs ⊢
      have hs' : ipstr = (pre ++ (h ++ [PERIOD])) ++ (dotted gs ++ g) := by simp [hs]
      rw [isipLoop_group hs (hgs h List.mem_cons_self),
        ih _ hs' fun h' hh' => hgs h' (List.mem_cons_of_mem h hh')]
      simp [Nat.add_assoc, Nat.add_comm 1]

/-- **What the loop reads, it has accepted**: if it is in the group `g` and comes to the end of the
string, the rest of the string are groups with dots behind them and at most three more digits. -/
lemma dotted_of_isipLoop {ipstr : List UInt8} {s : IsipState} : ∀ {rest : List UInt8} (pre g : List UInt8) {n : ℕ},
    ipstr = pre ++ (g ++ rest) → ShortDigits g →
    isipLoop ipstr rest ⟨pre.length + g.length, pre.length, n, decide (g = [])⟩ = some s →
    ∃ gs g', g ++ rest = dotted gs ++ g' ∧ (∀ h ∈ gs, IsGroup h) ∧ ShortDigits g' := by
  intro rest
  induction rest with
  | nil =>
      intro pre g n _ hg _
      exact ⟨[], g, by simp [dotted], by simp, hg⟩
  | cons c rest ih =>
      intro pre g n hs hg h
      rw [isipLoop] at h
      by_cases hc : c = PERIOD
      · -- a dot: the group is not empty, and its value is at most 255
        subst hc
        rw [if_pos rfl] at h
        split_ifs at h with hnil hvalue
        have hne : g ≠ [] := by simpa using hnil
        have hatoi : atoi (ipstr.drop pre.length) = digitsValue g := by
          rw [hs, List.drop_left]
          exact atoi_digits _ hg.digits hne (by simp [isDigit, PERIOD])
        have hgroup : IsGroup g := ⟨hg, hne, by
          rw [show (IsipState.mk _ pre.length n _).j = pre.length from rfl, hatoi] at hvalue
          omega⟩
        have hs' : ipstr = (pre ++ (g ++ [PERIOD])) ++ ([] ++ rest) := by simp [hs]
        obtain ⟨gs, g', hrest, hgs, hg'⟩ := ih _ [] (n := n + 1) hs' ⟨by simp, by simp⟩ (by
          simpa [Nat.add_assoc] using h)
        refine ⟨g :: gs, g', ?_, List.forall_mem_cons.2 ⟨hgroup, hgs⟩, hg'⟩
        rw [dotted_cons, List.append_assoc, List.cons_append, ← hrest, List.nil_append]
      · -- a digit, which is not the fourth
        rw [if_neg hc] at h
        split_ifs at h with hdigit hfourth
        have hlen : g.length ≤ 2 := by
          have : (IsipState.mk (pre.length + g.length) pre.length n (decide (g = []))).i - pre.length ≤ 2 :=
            not_lt.1 hfourth
          simpa using this
        have hg' : ShortDigits (g ++ [c]) := ⟨by simp; omega, by
          simpa [or_imp, forall_and] using ⟨hg.digits, isDigit_iff.2 hdigit⟩⟩
        have hs' : ipstr = pre ++ ((g ++ [c]) ++ rest) := by simp [hs]
        obtain ⟨gs, g'', hrest, hgs, hg''⟩ := ih _ _ (n := n) hs' hg' (by
          simpa [Nat.add_assoc] using h)
        exact ⟨gs, g'', by rw [← hrest]; simp, hgs, hg''⟩

/-! ### The function -/

lemma atoi_end {g : List UInt8} (hg : ShortDigits g) : atoi g = digitsValue g := by
  by_cases hne : g = []
  · subst hne
    rfl
  · have := atoi_digits [] hg.digits hne (by simp)
    rwa [List.append_nil] at this

/-- **What `dns_isip` accepts**: three groups with dots behind them, and at most three more digits of
value at most 255, in 7 to 15 bytes. -/
lemma dnsIsip_iff {s : List UInt8} : dnsIsip (some s) = .MRJE_OK ↔
    (7 ≤ s.length ∧ s.length ≤ 15) ∧ ∃ gs g, s = dotted gs ++ g ∧ gs.length = 3 ∧ (∀ h ∈ gs, IsGroup h) ∧
      ShortDigits g ∧ digitsValue g ≤ 255 := by
  have hrun : ∀ {gs g}, s = dotted gs ++ g → (∀ h ∈ gs, IsGroup h) → ShortDigits g →
      isipLoop s s ⟨0, 0, 0, true⟩ =
        some ⟨s.length, (dotted gs).length, gs.length, decide (g = [])⟩ := by
    intro gs g hs hgs hg
    have h := isipLoop_dotted hg [] (n := 0) hs hgs
    rw [← hs, List.nil_append, Nat.zero_add] at h
    exact h
  have hlast : ∀ {gs g}, s = dotted gs ++ g → ShortDigits g →
      atoi (s.drop (dotted gs).length) = digitsValue g := by
    intro gs g hs hg
    rw [hs, List.drop_left, atoi_end hg]
  constructor
  · intro h
    rw [dnsIsip] at h
    split_ifs at h with hlen
    refine ⟨hlen, ?_⟩
    cases hl : isipLoop s s ⟨0, 0, 0, true⟩ with
    | none => rw [hl] at h; exact absurd h (by simp)
    | some st =>
        obtain ⟨gs, g, hs, hgs, hg⟩ := dotted_of_isipLoop [] [] (n := 0) (by rfl)
          ⟨by simp, by simp⟩ hl
        rw [List.nil_append] at hs
        rw [hrun hs hgs hg] at h
        simp only at h
        split_ifs at h with hend
        rw [hlast hs hg] at hend
        exact ⟨gs, g, hs, hend.1, hgs, hg, by omega⟩
  · rintro ⟨hlen, gs, g, hs, hthree, hgs, hg, hvalue⟩
    rw [dnsIsip, if_pos hlen, hrun hs hgs hg]
    simp only
    rw [hlast hs hg, if_pos ⟨hthree, by omega⟩]

lemma dotted_three (g₁ g₂ g₃ g : List UInt8) :
    dotted [g₁, g₂, g₃] ++ g = g₁ ++ PERIOD :: (g₂ ++ PERIOD :: (g₃ ++ PERIOD :: g)) := by
  simp [dotted]

lemma IsGroup.length_bounds {g : List UInt8} (hg : IsGroup g) : 1 ≤ g.length ∧ g.length ≤ 3 :=
  ⟨List.length_pos_iff.2 hg.ne_nil, hg.length_le⟩

/-- **The function accepts** the dotted quads and the dotted triples. -/
lemma dnsIsip_iff_quad_or_triple {s : List UInt8} :
    dnsIsip (some s) = .MRJE_OK ↔ IsDottedQuad s ∨ IsDottedTriple s := by
  rw [dnsIsip_iff]
  constructor
  · rintro ⟨hlen, gs, g, hs, hthree, hgs, hg, hvalue⟩
    obtain ⟨g₁, g₂, g₃, rfl⟩ := List.length_eq_three.1 hthree
    simp only [List.forall_mem_cons] at hgs
    obtain ⟨h₁, h₂, h₃, -⟩ := hgs
    rw [dotted_three] at hs
    by_cases hne : g = []
    · subst hne
      exact Or.inr ⟨hlen.1, g₁, g₂, g₃, hs, h₁, h₂, h₃⟩
    · exact Or.inl ⟨g₁, g₂, g₃, g, hs, h₁, h₂, h₃, hg, hne, hvalue⟩
  · rintro (⟨g₁, g₂, g₃, g₄, hs, h₁, h₂, h₃, h₄⟩ | ⟨hlen, g₁, g₂, g₃, hs, h₁, h₂, h₃⟩)
    · have hb₁ := h₁.length_bounds
      have hb₂ := h₂.length_bounds
      have hb₃ := h₃.length_bounds
      have hb₄ := h₄.length_bounds
      refine ⟨?_, [g₁, g₂, g₃], g₄, by rw [hs, dotted_three], rfl, by simp [h₁, h₂, h₃], h₄.toShortDigits,
        h₄.value_le⟩
      simp only [hs, List.length_append, List.length_cons]
      omega
    · have hb₁ := h₁.length_bounds
      have hb₂ := h₂.length_bounds
      have hb₃ := h₃.length_bounds
      refine ⟨⟨hlen, ?_⟩, [g₁, g₂, g₃], [], by rw [hs, dotted_three], rfl, by simp [h₁, h₂, h₃],
        ⟨by simp, by simp⟩, by simp [digitsValue]⟩
      simp only [hs, List.length_append, List.length_cons, List.length_nil]
      omega

lemma IsDottedTriple.not_quad {s : List UInt8} (h : IsDottedTriple s) : ¬ IsDottedQuad s := by
  rintro ⟨g₁, g₂, g₃, g₄, hs, -, -, -, h₄⟩
  obtain ⟨-, k₁, k₂, k₃, hs', -⟩ := h
  obtain ⟨ds, d, rfl⟩ : ∃ ds d, g₄ = ds ++ [d] := (List.eq_nil_or_concat' g₄).resolve_left h₄.ne_nil
  have hdigit : s.getLast? = some d := by simp [hs, List.getLast?_append, List.getLast?_cons]
  have hdot : s.getLast? = some PERIOD := by simp [hs', List.getLast?_append, List.getLast?_cons]
  rw [hdigit, Option.some.injEq] at hdot
  exact ne_period_of_isDigit (h₄.digits d (by simp)) hdot

/-- **Dotted quads.**  For every string, `dns_isip` returns `MRJE_OK` exactly if it is a dotted quad,
unless it is a dotted triple. -/
theorem dns_isip_exact_iff (s : List UInt8) :
    (dnsIsip (some s) = .MRJE_OK ↔ IsDottedQuad s) ↔ ¬ IsDottedTriple s := by
  rw [dnsIsip_iff_quad_or_triple]
  constructor
  · rintro h htriple
    exact htriple.not_quad (h.1 (Or.inr htriple))
  · intro h
    exact or_iff_left h

/-- The string `192.168.1.`. -/
def sampleTriple : List UInt8 := [0x31, 0x39, 0x32, 0x2E, 0x31, 0x36, 0x38, 0x2E, 0x31, 0x2E]

/-- **An address that ends with a dot is accepted.** -/
theorem dns_isip_accepts_triple :
    ¬ (dnsIsip (some sampleTriple) = .MRJE_OK ↔ IsDottedQuad sampleTriple) := by
  have hgroup : IsGroup [0x31, 0x39, 0x32] ∧ IsGroup [0x31, 0x36, 0x38] ∧ IsGroup [0x31] :=
    ⟨⟨⟨by simp, by simp [isDigit]⟩, by simp, by simp [digitsValue]⟩,
      ⟨⟨by simp, by simp [isDigit]⟩, by simp, by simp [digitsValue]⟩,
      ⟨⟨by simp, by simp [isDigit]⟩, by simp, by simp [digitsValue]⟩⟩
  have htriple : IsDottedTriple sampleTriple :=
    ⟨by simp [sampleTriple], [0x31, 0x39, 0x32], [0x31, 0x36, 0x38], [0x31], rfl, hgroup⟩
  exact fun h => htriple.not_quad (h.1 (dnsIsip_iff_quad_or_triple.2 (Or.inr htriple)))

end DeviceTools.Dns
