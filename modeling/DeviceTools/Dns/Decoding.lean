/-
Reading a domain name from an arbitrary packet.

A packet from the network need not be in the format of `Dns.Name`.  Here
`dns_read_response_domainname` is run on arbitrary bytes, with its stores to the destination
recorded in place of being made (`traceLabels`; `readLabels_eq_trace` connects the two).  The
positions of the length bytes that the function looks at form a chain (`next`).  The function
terminates exactly when the chain never comes back to one of its positions, and its stores stay
inside a buffer of `MAX_DOMAIN_LENGTH + 1` bytes exactly when the labels on the chain, with one
byte more for each, have room there.
-/
import DeviceTools.Dns.Name
import DeviceTools.Lib.Chain

namespace DeviceTools.Dns

open ByteWord Memory

def RESPONSE_BUFFER_SIZE : ℕ := 1000

/-- A store to the destination: the index of the first byte, and the bytes. -/
abbrev Store := ℕ × List UInt8

/-- The loop of `dns_read_response_domainname` from a label on: the number of bytes read, `none`
for -1, and the stores in their order.  There is no result only when the fuel runs out. -/
def traceLabels (packet : Bytes) (packetSize : ℕ) :
    ℕ → ℕ → ℕ → ℕ → Option (Option ℕ × List Store)
  | 0, _, _, _ => none
  | fuel + 1, packetIndex, bytesRead, d =>
      let labelLength := (packet packetIndex).toNat
      if labelLength = 0 then some (some (bytesRead + 1), [])
      else
        let period := if 0 < bytesRead then [PERIOD] else []
        if labelLength &&& DNS_POINTER_FLAG = DNS_POINTER_FLAG then
          let offset := ntohsAt packet packetIndex &&& DNS_POINTER_OFFSET_MASK
          if packetSize ≤ offset then some (none, [(d, period)])
          else (traceLabels packet packetSize fuel offset 0 (d + period.length)).map
            fun r => (some (bytesRead + 2), (d, period) :: r.2)
        else
          let length := labelLength &&& DNS_LABEL_LENGTH_MASK
          if packetSize ≤ packetIndex + 1 + length then some (none, [(d, period)])
          else (traceLabels packet packetSize fuel (packetIndex + 1 + length)
              (bytesRead + length + 1) (d + period.length + length)).map
            fun r => (r.1, (d, period) ::
              (d + period.length, slice packet (packetIndex + 1) length ++ [0]) :: r.2)

/-- `dns_read_response_domainname`, with its stores recorded. -/
def traceDomainname (packet : Bytes) (packetSize fuel packetIndex : ℕ) :
    Option (Option ℕ × List Store) :=
  if packetSize ≤ packetIndex then some (none, [])
  else traceLabels packet packetSize fuel packetIndex 0 0

/-- The stores made to a buffer of `MAX_DOMAIN_LENGTH + 1` bytes. -/
def storeAll : Bytes → List Store → Option Bytes
  | dest, [] => some dest
  | dest, s :: ss => (store dest s.1 s.2).bind fun dest => storeAll dest ss

/-- Recording the stores and making them is the same as making each at once. -/
lemma readLabels_eq_trace (packet : Bytes) (size fuel : ℕ) :
    ∀ (pos bytesRead : ℕ) (dest : Bytes) (d : ℕ),
      readLabels packet size fuel pos bytesRead dest d =
        (traceLabels packet size fuel pos bytesRead d).bind fun r =>
          (storeAll dest r.2).map fun dest => (r.1, dest) := by
  induction fuel with
  | zero => intro pos bytesRead dest d; rfl
  | succ fuel ih =>
      intro pos bytesRead dest d
      rw [readLabels, traceLabels]
      dsimp only
      generalize hp : (if 0 < bytesRead then [PERIOD] else []) = period
      by_cases h0 : (packet pos).toNat = 0
      · simp [h0, storeAll]
      rw [if_neg h0, if_neg h0]
      -- the stores behind the period, at the target of a pointer or behind a label
      by_cases hptr : (packet pos).toNat &&& DNS_POINTER_FLAG = DNS_POINTER_FLAG
      · simp only [if_pos hptr]
        by_cases hoff : size ≤ ntohsAt packet pos &&& DNS_POINTER_OFFSET_MASK
        · simp only [if_pos hoff, Option.bind_some, storeAll]
          cases store dest d period <;> rfl
        · simp only [if_neg hoff, ih, Option.bind_map, Function.comp_def, storeAll]
          cases store dest d period <;>
            cases traceLabels packet size fuel _ 0 (d + period.length) <;> simp [Function.comp_def]
      · simp only [if_neg hptr]
        by_cases hend : size ≤ pos + 1 + ((packet pos).toNat &&& DNS_LABEL_LENGTH_MASK)
        · simp only [if_pos hend, Option.bind_some, storeAll]
          cases store dest d period <;> rfl
        · simp only [if_neg hend, ih, Option.bind_map, Function.comp_def, storeAll]
          cases store dest d period <;>
            cases traceLabels packet size fuel (pos + 1 + _) _ _ <;> simp [Option.map_bind]

/-! ### The chain of positions -/

/-- The position of the length byte that the function looks at behind the one at `pos`: the
target of a pointer, or the byte behind a label. -/
def next (packet : Bytes) (size pos : ℕ) : Option ℕ :=
  let labelLength := (packet pos).toNat
  if size ≤ pos ∨ labelLength = 0 then none
  else if labelLength &&& DNS_POINTER_FLAG = DNS_POINTER_FLAG then
    let offset := ntohsAt packet pos &&& DNS_POINTER_OFFSET_MASK
    if size ≤ offset then none else some offset
  else
    let length := labelLength &&& DNS_LABEL_LENGTH_MASK
    if size ≤ pos + 1 + length then none else some (pos + 1 + length)

/-- The room that a label at `pos` takes, with a period or a zero behind it; a pointer takes
none, nor does a label that is not copied because the packet ends too early. -/
def labelRoom (packet : Bytes) (size pos : ℕ) : ℕ :=
  let labelLength := (packet pos).toNat
  let length := labelLength &&& DNS_LABEL_LENGTH_MASK
  if size ≤ pos ∨ labelLength = 0 ∨ labelLength &&& DNS_POINTER_FLAG = DNS_POINTER_FLAG ∨
    size ≤ pos + 1 + length then 0 else length + 1

variable {packet : Bytes} {size pos : ℕ}

/-- **One turn of the loop**: it ends, without a label and with at most a period, or it goes on
at the next position behind at most a period and the label there. -/
lemma traceLabels_succ (hpos : pos < size) (fuel bytesRead d : ℕ) :
    (next packet size pos = none ∧ labelRoom packet size pos = 0 ∧
      ∃ result, traceLabels packet size (fuel + 1) pos bytesRead d = some (result, []) ∨
        traceLabels packet size (fuel + 1) pos bytesRead d = some (result, [(d, period bytesRead)])) ∨
    (∃ target, next packet size pos = some target ∧ target < size ∧ labelRoom packet size pos = 0 ∧
      traceLabels packet size (fuel + 1) pos bytesRead d =
        (traceLabels packet size fuel target 0 (d + (period bytesRead).length)).map
          fun r => (some (bytesRead + 2), (d, period bytesRead) :: r.2)) ∨
    (∃ behind label, next packet size pos = some behind ∧ behind < size ∧
      labelRoom packet size pos = label.length ∧ 0 < label.length ∧
      traceLabels packet size (fuel + 1) pos bytesRead d =
        (traceLabels packet size fuel behind (bytesRead + label.length)
          (d + (period bytesRead).length + (label.length - 1))).map
            fun r => (r.1, (d, period bytesRead) :: (d + (period bytesRead).length, label) :: r.2)) := by
  have hpos' : ¬ size ≤ pos := by omega
  by_cases h0 : (packet pos).toNat = 0
  · refine Or.inl ⟨by simp [next, h0], by simp [labelRoom, h0], some (bytesRead + 1), Or.inl ?_⟩
    simp [traceLabels, h0]
  by_cases hptr : (packet pos).toNat &&& DNS_POINTER_FLAG = DNS_POINTER_FLAG
  · by_cases hoff : size ≤ ntohsAt packet pos &&& DNS_POINTER_OFFSET_MASK
    · refine Or.inl ⟨by simp [next, hptr, hoff], by simp [labelRoom, hptr], none, Or.inr ?_⟩
      simp [traceLabels, h0, hptr, hoff, period]
    · refine Or.inr (Or.inl ⟨ntohsAt packet pos &&& DNS_POINTER_OFFSET_MASK, ?_, by omega,
        by simp [labelRoom, hptr], ?_⟩)
      · simp [next, hpos', h0, hptr, hoff]
      · simp [traceLabels, h0, hptr, hoff, period]
  · by_cases hend : size ≤ pos + 1 + ((packet pos).toNat &&& DNS_LABEL_LENGTH_MASK)
    · refine Or.inl ⟨by simp [next, hptr, hend], by simp [labelRoom, hend], none, Or.inr ?_⟩
      simp [traceLabels, h0, hptr, hend, period]
    · refine Or.inr (Or.inr ⟨pos + 1 + ((packet pos).toNat &&& DNS_LABEL_LENGTH_MASK),
        slice packet (pos + 1) ((packet pos).toNat &&& DNS_LABEL_LENGTH_MASK) ++ [0], ?_, by omega,
        ?_, by simp, ?_⟩)
      · simp [next, hpos', h0, hptr, hend]
      · simp [labelRoom, hpos', h0, hptr, hend]
      · simp only [traceLabels, if_neg h0, if_neg hptr, if_neg hend, List.length_append, length_slice,
          List.length_singleton, Nat.add_sub_cancel, ← Nat.add_assoc]
        rfl

/-! ### Termination -/

/-- The loop ends, with enough fuel, if the chain of positions does. -/
lemma traceLabels_isSome (h : Chain.Ends (next packet size) pos) : pos < size →
    ∃ fuel, ∀ bytesRead d, (traceLabels packet size fuel pos bytesRead d).isSome = true := by
  induction h with
  | @step pos _ ih =>
      intro hpos
      cases hnext : next packet size pos with
      | none =>
          refine ⟨1, fun bytesRead d => ?_⟩
          rcases traceLabels_succ hpos 0 bytesRead d with ⟨-, -, r, h | h⟩ | ⟨t, h, -⟩ | ⟨t, l, h, -⟩
          · rw [h]; rfl
          · rw [h]; rfl
          · rw [hnext] at h; simp at h
          · rw [hnext] at h; simp at h
      | some target =>
          have hlt : target < size := by
            rcases traceLabels_succ hpos 0 0 0 with ⟨h, -⟩ | ⟨t, h, hlt, -⟩ | ⟨t, l, h, hlt, -⟩
            · rw [hnext] at h; simp at h
            · rw [hnext] at h; rwa [Option.some.inj h]
            · rw [hnext] at h; rwa [Option.some.inj h]
          obtain ⟨fuel, hfuel⟩ := ih target hnext hlt
          refine ⟨fuel + 1, fun bytesRead d => ?_⟩
          rcases traceLabels_succ hpos fuel bytesRead d with
            ⟨h, -⟩ | ⟨t, h, -, -, htrace⟩ | ⟨t, l, h, -, -, -, htrace⟩
          · rw [hnext] at h; simp at h
          · rw [hnext] at h
            rw [htrace, ← Option.some.inj h, Option.isSome_map, hfuel]
          · rw [hnext] at h
            rw [htrace, ← Option.some.inj h, Option.isSome_map, hfuel]

/-- If the loop ends, so does the chain of positions. -/
lemma ends_of_traceLabels (fuel : ℕ) : ∀ {pos bytesRead d : ℕ}, pos < size →
    (traceLabels packet size fuel pos bytesRead d).isSome = true →
    Chain.Ends (next packet size) pos := by
  induction fuel with
  | zero => intro pos bytesRead d _ h; simp [traceLabels] at h
  | succ fuel ih =>
      intro pos bytesRead d hpos hsome
      refine .step fun target hnext => ?_
      rcases traceLabels_succ hpos fuel bytesRead d with
        ⟨h, -⟩ | ⟨t, h, hlt, -, htrace⟩ | ⟨t, l, h, hlt, -, -, htrace⟩
      · rw [hnext] at h; simp at h
      · rw [hnext, Option.some.injEq] at h
        subst h
        rw [htrace, Option.isSome_map] at hsome
        exact ih hlt hsome
      · rw [hnext, Option.some.injEq] at h
        subst h
        rw [htrace, Option.isSome_map] at hsome
        exact ih hlt hsome

lemma next_lt {a b : ℕ} (h : next packet size a = some b) : b < size := by
  have ha : a < size := by
    by_contra hc
    simp [next, not_lt.1 hc] at h
  rcases traceLabels_succ ha 0 0 0 with ⟨hn, -⟩ | ⟨t, hn, hlt, -⟩ | ⟨t, l, hn, hlt, -⟩
  · rw [h] at hn; simp at hn
  · rw [h] at hn; rwa [Option.some.inj hn]
  · rw [h] at hn; rwa [Option.some.inj hn]

/-- **When the decoding of a name terminates.**  On every packet and from every start index,
`dns_read_response_domainname` terminates if and only if the chain of positions from the start
index on -- a label leads to the byte behind it, a pointer to its target -- never comes back to
a position. -/
theorem name_decoding_terminates_iff (packet : Bytes) (packetSize packetIndex : ℕ) :
    (∃ fuel, (traceDomainname packet packetSize fuel packetIndex).isSome = true) ↔
      Chain.Acyclic (next packet packetSize) packetIndex := by
  rw [← Chain.ends_iff (Set.finite_lt_nat packetSize) fun _ _ h => next_lt h]
  by_cases hpos : packetSize ≤ packetIndex
  · -- the start index is behind the packet: the function returns at once
    refine ⟨fun _ => .step fun b hb => ?_, fun _ => ⟨0, by rw [traceDomainname, if_pos hpos]; rfl⟩⟩
    simp [next, hpos] at hb
  · have hlt : packetIndex < packetSize := by omega
    simp only [traceDomainname, if_neg hpos]
    constructor
    · rintro ⟨fuel, h⟩
      exact ends_of_traceLabels fuel hlt h
    · intro h
      obtain ⟨fuel, hfuel⟩ := traceLabels_isSome h hlt
      exact ⟨fuel, hfuel 0 0⟩

/-- A packet of 14 bytes whose last two bytes are a pointer to themselves. -/
def selfPointer : Bytes := fun i => if i = 12 then 0xC0 else if i = 13 then 12 else 0

lemma traceLabels_selfPointer (fuel : ℕ) : ∀ bytesRead d,
    traceLabels selfPointer 14 fuel 12 bytesRead d = none := by
  induction fuel with
  | zero => intro bytesRead d; rfl
  | succ fuel ih =>
      intro bytesRead d
      have hflag : (selfPointer 12).toNat &&& DNS_POINTER_FLAG = DNS_POINTER_FLAG := by decide
      have htarget : ntohsAt selfPointer 12 &&& DNS_POINTER_OFFSET_MASK = 12 := by decide
      simp only [traceLabels, if_pos hflag, htarget, ih]
      simp [selfPointer]

/-- **A pointer to itself is followed forever.** -/
theorem self_pointer_never_ends :
    14 ≤ RESPONSE_BUFFER_SIZE ∧
    ¬ ∃ fuel, (traceDomainname selfPointer 14 fuel 12).isSome = true := by
  refine ⟨by decide, ?_⟩
  rintro ⟨fuel, h⟩
  simp [traceDomainname, traceLabels_selfPointer] at h

/-! ### The extent of the stores -/

/-- The bytes of the destination that are written. -/
def touched : List Store → Finset ℕ
  | [] => ∅
  | s :: ss => Finset.Ico s.1 (s.1 + s.2.length) ∪ touched ss

/-- The stores of the loop, together with the place of the next period, take up the room of the
labels on the chain and of the period. -/
lemma touched_traceLabels (fuel : ℕ) : ∀ {pos bytesRead d : ℕ} {r : Option ℕ × List Store},
    pos < size → traceLabels packet size fuel pos bytesRead d = some r →
    Finset.Ico d (d + (period bytesRead).length) ∪ touched r.2 =
      Finset.Ico d (d + (period bytesRead).length +
        Chain.total (next packet size) (labelRoom packet size) fuel pos) := by
  induction fuel with
  | zero => intro pos bytesRead d r _ h; simp [traceLabels] at h
  | succ fuel ih =>
      intro pos bytesRead d r hpos hr
      rcases traceLabels_succ hpos fuel bytesRead d with
        ⟨hnext, hroom, result, htrace | htrace⟩ | ⟨t, hnext, hlt, hroom, htrace⟩ |
        ⟨t, label, hnext, hlt, hroom, hlabel, htrace⟩
      · rw [htrace, Option.some.injEq] at hr
        rw [Chain.total_of_none hnext, hroom, ← hr]
        simp [touched]
      · rw [htrace, Option.some.injEq] at hr
        rw [Chain.total_of_none hnext, hroom, ← hr]
        simp [touched]
      · -- a pointer: the name at the target is written behind the period
        rw [htrace, Option.map_eq_some_iff] at hr
        obtain ⟨r', hr', rfl⟩ := hr
        have hrec := ih hlt hr'
        rw [period_zero, List.length_nil, Nat.add_zero, Finset.Ico_self, Finset.empty_union] at hrec
        rw [Chain.total_of_some hnext, hroom, Nat.zero_add, touched, hrec, ← Finset.union_assoc,
          Finset.union_self, Finset.Ico_union_Ico_eq_Ico (by omega) (by omega)]
      · -- a label: the zero behind it stands in the place of the next period
        rw [htrace, Option.map_eq_some_iff] at hr
        obtain ⟨r', hr', rfl⟩ := hr
        have hrec := ih hlt hr'
        have hone : (period (bytesRead + label.length)).length = 1 := by
          simp only [period]
          rw [if_pos (by omega), List.length_singleton]
        rw [hone] at hrec
        rw [Chain.total_of_some hnext, hroom, touched, touched]
        generalize (period bytesRead).length = p at hrec ⊢
        generalize Chain.total (next packet size) (labelRoom packet size) fuel t = total at hrec ⊢
        have hsplit : Finset.Ico (d + p) (d + p + label.length) =
            Finset.Ico (d + p) (d + p + (label.length - 1)) ∪
              Finset.Ico (d + p + (label.length - 1)) (d + p + (label.length - 1) + 1) := by
          rw [Finset.Ico_union_Ico_eq_Ico (by omega) (by omega)]
          congr 1
          omega
        rw [← Finset.union_assoc, Finset.union_self, hsplit, Finset.union_assoc, hrec,
          Finset.Ico_union_Ico_eq_Ico (by omega) (by omega),
          Finset.Ico_union_Ico_eq_Ico (by omega) (by omega)]
        congr 1
        omega

/-- The sum along a chain that has ended does not grow. -/
lemma total_eq_of_traceLabels (fuel : ℕ) : ∀ {pos bytesRead d : ℕ} {r : Option ℕ × List Store}
    (m : ℕ), pos < size → traceLabels packet size fuel pos bytesRead d = some r →
    Chain.total (next packet size) (labelRoom packet size) (fuel + m) pos =
      Chain.total (next packet size) (labelRoom packet size) fuel pos := by
  induction fuel with
  | zero => intro pos bytesRead d r m _ h; simp [traceLabels] at h
  | succ fuel ih =>
      intro pos bytesRead d r m hpos hr
      rw [Nat.add_right_comm]
      rcases traceLabels_succ hpos fuel bytesRead d with
        ⟨hnext, -⟩ | ⟨t, hnext, hlt, -, htrace⟩ | ⟨t, label, hnext, hlt, -, -, htrace⟩
      · rw [Chain.total_of_none hnext, Chain.total_of_none hnext]
      · rw [htrace, Option.map_eq_some_iff] at hr
        obtain ⟨r', hr', -⟩ := hr
        rw [Chain.total_of_some hnext, Chain.total_of_some hnext, ih m hlt hr']
      · rw [htrace, Option.map_eq_some_iff] at hr
        obtain ⟨r', hr', -⟩ := hr
        rw [Chain.total_of_some hnext, Chain.total_of_some hnext, ih m hlt hr']

/-- What the function writes is the start of the destination. -/
lemma touched_traceDomainname {packetSize fuel packetIndex : ℕ} {result : Option ℕ}
    {stores : List Store}
    (h : traceDomainname packet packetSize fuel packetIndex = some (result, stores)) :
    touched stores = Finset.range
      (Chain.total (next packet packetSize) (labelRoom packet packetSize) fuel packetIndex) := by
  by_cases hpos : packetSize ≤ packetIndex
  · rw [traceDomainname, if_pos hpos, Option.some.injEq, Prod.mk.injEq] at h
    have hzero : Chain.total (next packet packetSize) (labelRoom packet packetSize) fuel packetIndex = 0 := by
      cases fuel with
      | zero => rfl
      | succ n => rw [Chain.total_of_none (by simp [next, hpos])]; simp [labelRoom, hpos]
    rw [hzero, ← h.2]
    rfl
  · rw [traceDomainname, if_neg hpos] at h
    have htouched := touched_traceLabels fuel (by omega) h
    rwa [period_zero, List.length_nil, Nat.add_zero, Finset.Ico_self, Finset.empty_union,
      Nat.zero_add, ← Finset.range_eq_Ico] at htouched

/-- When the function has returned, no more labels are on the chain. -/
lemma total_le_of_traceDomainname {packetSize fuel packetIndex : ℕ} {r : Option ℕ × List Store}
    (h : traceDomainname packet packetSize fuel packetIndex = some r) (n : ℕ) :
    Chain.total (next packet packetSize) (labelRoom packet packetSize) n packetIndex ≤
      Chain.total (next packet packetSize) (labelRoom packet packetSize) fuel packetIndex := by
  by_cases hpos : packetSize ≤ packetIndex
  · cases n with
    | zero => simp [Chain.total]
    | succ n => rw [Chain.total_of_none (by simp [next, hpos])]; simp [labelRoom, hpos]
  · rw [traceDomainname, if_neg hpos] at h
    calc Chain.total (next packet packetSize) (labelRoom packet packetSize) n packetIndex
        ≤ Chain.total (next packet packetSize) (labelRoom packet packetSize) (n + fuel) packetIndex :=
          Chain.total_mono fuel n packetIndex
      _ = Chain.total (next packet packetSize) (labelRoom packet packetSize) fuel packetIndex := by
          rw [Nat.add_comm, total_eq_of_traceLabels fuel n (by omega) h]

/-- **When the decoding of a name stays inside its destination.**  Whenever
`dns_read_response_domainname` returns, it has written the first bytes of the destination, and
their number is at most `MAX_DOMAIN_LENGTH + 1` if and only if the labels on the chain of
positions from the start index on, with one byte more for each label, have at most that length
together. -/
theorem name_decoding_inside_iff (packet : Bytes) (packetSize fuel packetIndex : ℕ)
    (result : Option ℕ) (stores : List Store)
    (h : traceDomainname packet packetSize fuel packetIndex = some (result, stores)) :
    touched stores = Finset.range (touched stores).card ∧
    ((touched stores).card ≤ MAX_DOMAIN_LENGTH + 1 ↔
      ∀ n, Chain.total (next packet packetSize) (labelRoom packet packetSize) n packetIndex ≤
        MAX_DOMAIN_LENGTH + 1) := by
  have htouched := touched_traceDomainname h
  have hcard : (touched stores).card =
      Chain.total (next packet packetSize) (labelRoom packet packetSize) fuel packetIndex := by
    rw [htouched, Finset.card_range]
  refine ⟨by rw [hcard]; exact htouched, ?_⟩
  rw [hcard]
  exact ⟨fun hle n => (total_le_of_traceDomainname h n).trans hle, fun hle => hle fuel⟩

/-- A name of `k` labels of 63 bytes behind a header of 12 bytes. -/
def longName (k : ℕ) : Bytes := fun i =>
  if 12 ≤ i ∧ i < 12 + 64 * k then (if (i - 12) % 64 = 0 then 63 else 0x61) else 0

/-- A name of three labels of 63 bytes has room. -/
theorem name_decoding_inside_three : ∃ result stores,
    traceDomainname (longName 3) 205 4 12 = some (result, stores) ∧
    (touched stores).card ≤ MAX_DOMAIN_LENGTH + 1 := by
  have hsome : (traceDomainname (longName 3) 205 4 12).isSome = true := by decide +kernel
  obtain ⟨⟨result, stores⟩, hr⟩ := Option.isSome_iff_exists.1 hsome
  refine ⟨result, stores, hr, (name_decoding_inside_iff _ _ _ _ _ _ hr).2.2 fun n => ?_⟩
  exact (total_le_of_traceDomainname hr n).trans (by decide +kernel)

/-- **A long name is written behind the destination**: five labels of 63 bytes, in a packet of
333 bytes, take 320 bytes. -/
theorem long_name_outside : ∃ result stores,
    333 ≤ RESPONSE_BUFFER_SIZE ∧
    traceDomainname (longName 5) 333 6 12 = some (result, stores) ∧
    MAX_DOMAIN_LENGTH + 1 < (touched stores).card := by
  have hsome : (traceDomainname (longName 5) 333 6 12).isSome = true := by decide +kernel
  obtain ⟨⟨result, stores⟩, hr⟩ := Option.isSome_iff_exists.1 hsome
  refine ⟨result, stores, by decide, hr, ?_⟩
  rw [touched_traceDomainname hr, Finset.card_range]
  decide +kernel

end DeviceTools.Dns
