/-
What stands behind the packet.

The buffer of `dns_recv_response_packet` is larger than most packets, and behind the packet and
its terminating zero it has whatever was there before.  `dns_parse_response` looks at its index
before each field, but only so far that one byte of the packet is left.  A field of two bytes
then ends with the terminating zero at the latest, and the bytes of a label are compared with
the end of the packet.  The four bytes of an address are not: they may reach behind the zero.

`addressData` are the places of the addresses that the function reads, found from the packet
alone.  The result does not depend on the bytes behind the packet exactly if all of these
places are followed by three more bytes, up to the zero.
-/
import DeviceTools.Dns.Response

namespace DeviceTools.Dns

open ByteWord Memory

/-- The number of bytes of the name at `pos`, up to its root or its first pointer. -/
def nameLength (packet : Bytes) (size pos : ℕ) : Option ℕ :=
  let labelLength := (packet pos).toNat
  if size ≤ pos then none
  else if labelLength = 0 then some 1
  else if labelLength &&& DNS_POINTER_FLAG = DNS_POINTER_FLAG then
    if size ≤ ntohsAt packet pos &&& DNS_POINTER_OFFSET_MASK then none else some 2
  else (nameLength packet size (pos + 1 + (labelLength &&& DNS_LABEL_LENGTH_MASK))).map
    ((labelLength &&& DNS_LABEL_LENGTH_MASK) + 1 + ·)
termination_by size - pos

section
variable (packet : Bytes) (size : ℕ)

/-- The place of the data of the answer at `i`, if its fields are there and its class is that of
the internet. -/
def dataIndex (i : ℕ) : Option ℕ :=
  (nameLength packet size i).bind fun m =>
    if i + m + 10 < size ∧ ntohsAt packet (i + m + 2) = DNS_INET_ADDR then some (i + m + 10) else none

/-- The type of the answer with its data at `p`. -/
def typeOf (p : ℕ) : ℕ := ntohsAt packet (p - 10)

/-- The place behind the answer with its data at `p`, if the names in the data are there. -/
def answerEnd (p : ℕ) : Option ℕ :=
  let rdataLength := ntohsAt packet (p - 2)
  if typeOf packet p = DNS_NS_RECORD ∨ typeOf packet p = DNS_CNAME_RECORD then
    (nameLength packet size p).map fun _ => p + rdataLength
  else if typeOf packet p = DNS_MX_RECORD then
    (nameLength packet size (p + 2)).map fun _ => p + 2 + (rdataLength + 2 ^ 16 - 2) % 2 ^ 16
  else some (p + rdataLength)

/-- The places of the addresses in at most `count` answers from `i` on, as far as the answers
can be followed. -/
def addressData : ℕ → ℕ → List ℕ
  | 0, _ => []
  | count + 1, i =>
      match dataIndex packet size i with
      | none => []
      | some p => (if typeOf packet p = DNS_A_RECORD then [p] else []) ++
          match answerEnd packet size p with
          | none => []
          | some next => addressData count next

end

/-! ### Names -/

section
variable {recv recv' : Bytes} {n : ℕ}

/-- The buffers agree on the packet and its terminating zero. -/
def SamePacket (recv recv' : Bytes) (n : ℕ) : Prop := ∀ k ≤ n, recv' k = recv k

lemma SamePacket.ntohsAt_eq (h : SamePacket recv recv' n) {i : ℕ} (hi : i < n) :
    ntohsAt recv' i = ntohsAt recv i := by
  rw [ntohsAt, ntohsAt, slice_congr fun k _ hk => h k (by omega)]

/-- The decoding of a name does not look behind the terminating zero. -/
lemma SamePacket.readLabels_eq (h : SamePacket recv recv' n) (fuel : ℕ) : ∀ {pos : ℕ}, pos < n →
    ∀ (bytesRead : ℕ) (dest : Bytes) (d : ℕ),
      readLabels recv' n fuel pos bytesRead dest d = readLabels recv n fuel pos bytesRead dest d := by
  induction fuel with
  | zero => intro pos _ bytesRead dest d; rfl
  | succ fuel ih =>
      intro pos hpos bytesRead dest d
      rw [readLabels, readLabels, h pos hpos.le, h.ntohsAt_eq hpos]
      dsimp only
      by_cases h0 : (recv pos).toNat = 0
      · rw [if_pos h0, if_pos h0]
      rw [if_neg h0, if_neg h0]
      congr 1
      funext dest
      by_cases hptr : (recv pos).toNat &&& DNS_POINTER_FLAG = DNS_POINTER_FLAG
      · rw [if_pos hptr, if_pos hptr]
        by_cases hoff : n ≤ ntohsAt recv pos &&& DNS_POINTER_OFFSET_MASK
        · rw [if_pos hoff, if_pos hoff]
        · rw [if_neg hoff, if_neg hoff, ih (not_le.1 hoff)]
      · rw [if_neg hptr, if_neg hptr]
        by_cases hend : n ≤ pos + 1 + ((recv pos).toNat &&& DNS_LABEL_LENGTH_MASK)
        · rw [if_pos hend, if_pos hend]
        · -- the label ends in the packet
          rw [if_neg hend, if_neg hend, slice_congr fun k _ hk => h k (by omega)]
          congr 1
          funext dest
          exact ih (not_le.1 hend) _ _ _

lemma SamePacket.dnsReadResponseDomainname_eq (h : SamePacket recv recv' n) (fuel i : ℕ) (dest : Bytes) :
    dnsReadResponseDomainname recv' n fuel i dest = dnsReadResponseDomainname recv n fuel i dest := by
  rw [dnsReadResponseDomainname, dnsReadResponseDomainname]
  by_cases hi : n ≤ i
  · rw [if_pos hi, if_pos hi]
  · rw [if_neg hi, if_neg hi, h.readLabels_eq fuel (not_le.1 hi)]

/-- The number of bytes read is that of the name. -/
lemma readLabels_bytesRead (fuel : ℕ) : ∀ {pos bytesRead : ℕ} {dest dest' : Bytes} {d : ℕ}
    {r : Option ℕ}, pos < n → readLabels recv n fuel pos bytesRead dest d = some (r, dest') →
      r = (nameLength recv n pos).map (bytesRead + ·) := by
  induction fuel with
  | zero => intro pos bytesRead dest dest' d r _ h; simp [readLabels] at h
  | succ fuel ih =>
      intro pos bytesRead dest dest' d r hpos h
      rw [readLabels] at h
      rw [nameLength, if_neg (not_le.2 hpos)]
      dsimp only at h ⊢
      by_cases h0 : (recv pos).toNat = 0
      · rw [if_pos h0] at h ⊢
        obtain ⟨rfl, -⟩ := Prod.mk.inj (Option.some.inj h)
        rfl
      rw [if_neg h0] at h ⊢
      obtain ⟨dest₁, -, h⟩ := Option.bind_eq_some_iff.1 h
      by_cases hptr : (recv pos).toNat &&& DNS_POINTER_FLAG = DNS_POINTER_FLAG
      · rw [if_pos hptr] at h ⊢
        by_cases hoff : n ≤ ntohsAt recv pos &&& DNS_POINTER_OFFSET_MASK
        · rw [if_pos hoff] at h ⊢
          obtain ⟨rfl, -⟩ := Prod.mk.inj (Option.some.inj h)
          rfl
        · -- what the call at the target returns is not looked at
          rw [if_neg hoff] at h ⊢
          obtain ⟨r', -, hr⟩ := Option.map_eq_some_iff.1 h
          obtain ⟨rfl, -⟩ := Prod.mk.inj hr
          rfl
      · rw [if_neg hptr] at h ⊢
        by_cases hend : n ≤ pos + 1 + ((recv pos).toNat &&& DNS_LABEL_LENGTH_MASK)
        · rw [if_pos hend] at h
          obtain ⟨rfl, -⟩ := Prod.mk.inj (Option.some.inj h)
          rw [nameLength, if_pos hend]
          rfl
        · rw [if_neg hend] at h
          obtain ⟨dest₂, -, h⟩ := Option.bind_eq_some_iff.1 h
          rw [ih (not_le.1 hend) h, Option.map_map]
          congr 1
          funext m
          simp only [Function.comp_apply]
          omega

/-- **Reading a name** has no result, or fails, or gives the number of its bytes. -/
lemma readName_cases {ε : Type} (fuel : ℕ) (e : Bytes → ε) (i : ℕ) (dest : Bytes) :
    readName recv n fuel e i dest = .undefined ∨
    (nameLength recv n i = none ∧ ∃ dest', readName recv n fuel e i dest = .error (e dest')) ∨
    (∃ m dest', nameLength recv n i = some m ∧ readName recv n fuel e i dest = .ok (m, dest')) := by
  rw [readName]
  rcases h : dnsReadResponseDomainname recv n fuel i dest with _ | ⟨r, dest'⟩
  · exact Or.inl rfl
  rw [dnsReadResponseDomainname] at h
  have hr : r = nameLength recv n i := by
    by_cases hi : n ≤ i
    · rw [if_pos hi] at h
      obtain ⟨rfl, -⟩ := Prod.mk.inj (Option.some.inj h)
      rw [nameLength, if_pos hi]
    · rw [if_neg hi] at h
      rw [readLabels_bytesRead fuel (not_le.1 hi) h]
      simp
  subst hr
  cases hm : nameLength recv n i with
  | none => exact Or.inr (Or.inl ⟨rfl, dest', rfl⟩)
  | some m => exact Or.inr (Or.inr ⟨m, dest', rfl, rfl⟩)

/-! ### Answers -/

lemma moveOn_error {ε : Type} (e : ε) {i bytes : ℕ} (h : n ≤ i + bytes) :
    moveOn n e i bytes = .error e := by
  rw [moveOn, dnsIncrementBufferIndex, decide_eq_true h]

/-- The response of an answer with its data at `p`, as far as the address goes. -/
def HasAddress (recv : Bytes) (p : ℕ) (resp : DnsResponse) : Prop :=
  resp.responseType = typeOf recv p ∧
    (typeOf recv p = DNS_A_RECORD → resp.ipAddress = beNat (slice recv p 4))

/-- A name in the data of an answer. -/
lemma readName_bind_cases (fuel : ℕ) (resp : DnsResponse) (i rdataLength : ℕ) :
    let read : Outcome (String × DnsResponse) (DnsResponse × ℕ × ℕ) := do
      let (_, name) ← readName recv n fuel (fun dest => (invalidFormat, { resp with name := dest })) i
        resp.name
      pure ({ resp with name }, rdataLength, i)
    read = .undefined ∨
    (nameLength recv n i = none ∧ ∃ name, read = .error (invalidFormat, { resp with name })) ∨
    (∃ m name, nameLength recv n i = some m ∧ read = .ok ({ resp with name }, rdataLength, i)) := by
  intro read
  rcases @readName_cases recv n _ fuel (fun dest => (invalidFormat, { resp with name := dest })) i
    resp.name with h | ⟨hlen, dest', h⟩ | ⟨m, dest', hlen, h⟩
  · exact Or.inl (by simp only [read, h, Outcome.undefined_bind])
  · exact Or.inr (Or.inl ⟨hlen, dest', by simp only [read, h, Outcome.error_bind]⟩)
  · exact Or.inr (Or.inr ⟨m, dest', hlen, by simp only [read, h, Outcome.ok_bind]; rfl⟩)

/-- **The data of an answer** has no result, or fails, or leads to the end of the answer. -/
lemma readRdata_cases (fuel : ℕ) {p : ℕ} {resp : DnsResponse}
    (htype : resp.responseType = typeOf recv p) :
    readRdata recv n fuel resp (ntohsAt recv (p - 2)) p = .undefined ∨
    (∃ message resp', readRdata recv n fuel resp (ntohsAt recv (p - 2)) p = .error (message, resp') ∧
      answerEnd recv n p = none ∧ HasAddress recv p resp') ∨
    (∃ resp' rdataLength i,
      readRdata recv n fuel resp (ntohsAt recv (p - 2)) p = .ok (resp', rdataLength, i) ∧
      answerEnd recv n p = some (i + rdataLength) ∧ HasAddress recv p resp') := by
  rw [readRdata]
  by_cases hA : resp.responseType = DNS_A_RECORD
  · rw [if_pos hA]
    rw [htype] at hA
    refine Or.inr (Or.inr ⟨_, _, _, rfl, ?_, htype, fun _ => rfl⟩)
    rw [answerEnd, hA, if_neg (by decide), if_neg (by decide)]
  rw [if_neg hA]
  rw [htype] at hA
  -- nothing is read of an address in the other cases
  have haddress : ∀ resp' : DnsResponse, resp'.responseType = resp.responseType →
      HasAddress recv p resp' := fun resp' h => ⟨h.trans htype, fun hc => absurd hc hA⟩
  by_cases hNS : resp.responseType = DNS_NS_RECORD
  · rw [if_pos hNS]
    rw [htype] at hNS
    rw [answerEnd, if_pos (Or.inl hNS)]
    rcases readName_bind_cases fuel resp p _ with h | ⟨hlen, name, h⟩ | ⟨m, name, hlen, h⟩
    · exact Or.inl h
    · exact Or.inr (Or.inl ⟨_, _, h, by rw [hlen]; rfl, haddress _ rfl⟩)
    · exact Or.inr (Or.inr ⟨_, _, _, h, by rw [hlen]; rfl, haddress _ rfl⟩)
  rw [if_neg hNS]
  by_cases hCNAME : resp.responseType = DNS_CNAME_RECORD
  · rw [if_pos hCNAME]
    rw [htype] at hCNAME
    rw [answerEnd, if_pos (Or.inr hCNAME)]
    rcases readName_bind_cases fuel resp p _ with h | ⟨hlen, name, h⟩ | ⟨m, name, hlen, h⟩
    · exact Or.inl h
    · exact Or.inr (Or.inl ⟨_, _, h, by rw [hlen]; rfl, haddress _ rfl⟩)
    · exact Or.inr (Or.inr ⟨_, _, _, h, by rw [hlen]; rfl, haddress _ rfl⟩)
  rw [if_neg hCNAME]
  have hnone : ¬ (typeOf recv p = DNS_NS_RECORD ∨ typeOf recv p = DNS_CNAME_RECORD) := by
    rw [← htype]
    exact fun h => h.elim hNS hCNAME
  rw [answerEnd, if_neg hnone]
  by_cases hMX : resp.responseType = DNS_MX_RECORD
  · rw [if_pos hMX]
    rw [htype] at hMX
    rw [if_pos hMX]
    by_cases hp : n ≤ p + 2
    · refine Or.inr (Or.inl ⟨invalidFormat, { resp with preference := ntohsAt recv p }, ?_, ?_,
        haddress _ rfl⟩)
      · simp only [moveOn_error _ hp, Outcome.error_bind]
      · rw [nameLength, if_pos hp]
        rfl
    simp only [moveOn_eq _ (not_le.1 hp), Outcome.ok_bind]
    rcases readName_bind_cases fuel { resp with preference := ntohsAt recv p } (p + 2) _ with
      h | ⟨hlen, name, h⟩ | ⟨m, name, hlen, h⟩
    · exact Or.inl h
    · exact Or.inr (Or.inl ⟨_, _, h, by rw [hlen]; rfl, haddress _ rfl⟩)
    · exact Or.inr (Or.inr ⟨_, _, _, h, by rw [hlen]; rfl, haddress _ rfl⟩)
  · rw [if_neg hMX]
    rw [htype] at hMX
    rw [if_neg hMX]
    exact Or.inr (Or.inr ⟨_, _, _, rfl, rfl, haddress _ rfl⟩)

lemma dataIndex_eq_some {i p : ℕ} : dataIndex recv n i = some p ↔ ∃ m, nameLength recv n i = some m ∧
    i + m + 10 < n ∧ ntohsAt recv (i + m + 2) = DNS_INET_ADDR ∧ i + m + 10 = p := by
  rw [dataIndex, Option.bind_eq_some_iff]
  refine exists_congr fun m => and_congr_right fun _ => ?_
  rw [Option.ite_none_right_eq_some, Option.some.injEq, and_assoc]

/-- The fields in front of the data. -/
lemma readFields_cases (resp : DnsResponse) (i : ℕ) :
    (¬ (i + 8 < n ∧ ntohsAt recv i = DNS_INET_ADDR) ∧ ∃ e, readFields recv n resp i = .error e) ∨
    (i + 8 < n ∧ ntohsAt recv i = DNS_INET_ADDR ∧ ∃ cacheTime, readFields recv n resp i =
      .ok ({ resp with cacheTime }, ntohsAt recv (i + 6), i + 8)) := by
  by_cases hclass : ntohsAt recv i = DNS_INET_ADDR
  · by_cases hi : i + 8 < n
    · exact Or.inr ⟨hi, hclass, _, readFields_eq resp hclass hi⟩
    · refine Or.inl ⟨fun h => hi h.1, ?_⟩
      rw [readFields, if_neg (not_not.2 hclass)]
      by_cases h2 : n ≤ i + 2
      · exact ⟨_, by rw [moveOn_error _ h2]; rfl⟩
      rw [moveOn_eq _ (not_le.1 h2)]
      by_cases h6 : n ≤ i + 2 + 4
      · exact ⟨_, by simp only [Outcome.ok_bind]; rw [moveOn_error _ h6]; rfl⟩
      · simp only [Outcome.ok_bind]
        rw [moveOn_eq _ (not_le.1 h6)]
        simp only [Outcome.ok_bind]
        exact ⟨_, by rw [moveOn_error _ (by omega)]; rfl⟩
  · exact Or.inl ⟨fun h => hclass h.2, _, by rw [readFields, if_pos hclass]⟩

/-- **An answer** has no result, or fails in front of its data, or has data and fails or is
followed by the next answer. -/
lemma readAnswer_cases (fuel : ℕ) (authoritative last : Bool) (i : ℕ) (buffer : Bytes) :
    readAnswer recv n fuel authoritative last i buffer = .undefined ∨
    (dataIndex recv n i = none ∧
      ∃ e, readAnswer recv n fuel authoritative last i buffer = .error e) ∨
    (∃ p resp, dataIndex recv n i = some p ∧ HasAddress recv p resp ∧
      ((∃ message, readAnswer recv n fuel authoritative last i buffer = .error (message, resp) ∧
          ∀ next, answerEnd recv n p = some next → ¬ next < n) ∨
        ∃ next buffer', readAnswer recv n fuel authoritative last i buffer =
          .ok (resp, next, buffer') ∧ answerEnd recv n p = some next)) := by
  rw [readAnswer]
  rcases @readName_cases recv n _ fuel
    (fun _ => (invalidFormat, { DnsResponse.cleared with authoritative })) i buffer with
    h | ⟨hlen, dest', h⟩ | ⟨m, dest', hlen, h⟩
  · exact Or.inl (by simp only [h, Outcome.undefined_bind])
  · refine Or.inr (Or.inl ⟨?_, _, by simp only [h, Outcome.error_bind]; rfl⟩)
    rw [dataIndex, hlen]
    rfl
  simp only [h, Outcome.ok_bind]
  -- there is no data behind the name unless all fields are there
  have hnone : ¬ (i + m + 2 + 8 < n ∧ ntohsAt recv (i + m + 2) = DNS_INET_ADDR) →
      dataIndex recv n i = none := by
    intro hc
    rw [dataIndex, hlen, Option.bind_some, if_neg fun hp => hc ⟨by omega, hp.2⟩]
  by_cases h0 : n ≤ i + m
  · exact Or.inr (Or.inl ⟨hnone fun hc => by omega, _, by rw [moveOn_error _ h0]; rfl⟩)
  rw [moveOn_eq _ (not_le.1 h0)]
  simp only [Outcome.ok_bind]
  by_cases h2 : n ≤ i + m + 2
  · exact Or.inr (Or.inl ⟨hnone fun hc => by omega, _, by rw [moveOn_error _ h2]; rfl⟩)
  rw [moveOn_eq _ (not_le.1 h2)]
  simp only [Outcome.ok_bind]
  rcases @readFields_cases recv n ⟨ntohsAt recv (i + m), 0, 0, 0, fun _ => 0, authoritative⟩
    (i + m + 2) with
    ⟨hno, e, hfields⟩ | ⟨hp, hclass, cacheTime, hfields⟩
  · exact Or.inr (Or.inl ⟨hnone hno, e, by rw [DnsResponse.cleared, hfields]; rfl⟩)
  rw [DnsResponse.cleared, hfields, show i + m + 2 + 6 = i + m + 2 + 8 - 2 from rfl]
  simp only [Outcome.ok_bind]
  have hdata : dataIndex recv n i = some (i + m + 2 + 8) :=
    dataIndex_eq_some.2 ⟨m, hlen, by omega, hclass, by omega⟩
  rcases @readRdata_cases recv n fuel (i + m + 2 + 8) ⟨ntohsAt recv (i + m), 0, cacheTime, 0,
    fun _ => 0, authoritative⟩ rfl with hr | ⟨message, resp, hr, hend, haddress⟩ |
    ⟨resp, rdataLength, j, hr, hend, haddress⟩
  · exact Or.inl (by rw [hr]; rfl)
  · refine Or.inr (Or.inr ⟨_, resp, hdata, haddress, Or.inl ⟨message, by rw [hr]; rfl, ?_⟩⟩)
    intro next hnext
    rw [hend] at hnext
    simp at hnext
  refine Or.inr (Or.inr ⟨_, resp, hdata, haddress, ?_⟩)
  rw [hr]
  simp only [Outcome.ok_bind, dnsIncrementBufferIndex]
  by_cases hj : n ≤ j + rdataLength
  · rw [decide_eq_true hj]
    cases last with
    | true => exact Or.inr ⟨_, dest', rfl, hend⟩
    | false =>
        refine Or.inl ⟨_, rfl, fun next hnext => ?_⟩
        rw [hend, Option.some.injEq] at hnext
        omega
  · rw [decide_eq_false hj]
    exact Or.inr ⟨_, dest', by cases last <;> rfl, hend⟩

/-- There is no answer behind the packet. -/
lemma addressData_behind (count : ℕ) {i : ℕ} (h : n ≤ i) : addressData recv n count i = [] := by
  cases count with
  | zero => rfl
  | succ count =>
      have hdata : dataIndex recv n i = none := by
        rw [dataIndex, nameLength, if_pos h]
        rfl
      rw [addressData, hdata]

/-- **The addresses read** are among those of the responses, in front and in their order. -/
lemma addressData_prefix (fuel : ℕ) (authoritative : Bool) (count : ℕ) : ∀ {i : ℕ} {buffer : Bytes}
    {resps : List DnsResponse} {message : Option String},
    readAnswers recv n fuel authoritative count i buffer = some (resps, message) →
      (addressData recv n count i).map (fun p => beNat (slice recv p 4)) <+:
        (resps.filter (·.responseType = DNS_A_RECORD)).map (·.ipAddress) := by
  induction count with
  | zero => intro i buffer resps message _; exact List.nil_prefix
  | succ count ih =>
      intro i buffer resps message h
      rw [readAnswers] at h
      rcases readAnswer_cases fuel authoritative (count = 0) i buffer with
        hr | ⟨hdata, e, hr⟩ | ⟨p, resp, hdata, ⟨htype, haddress⟩, hr⟩
      · rw [hr] at h
        simp at h
      · rw [addressData, hdata]
        exact List.nil_prefix
      rw [addressData, hdata]
      simp only [List.map_append]
      -- the response of the answer stands first, and has its address if there is one
      have hfirst : ∀ resps' : List DnsResponse,
          ((resp :: resps').filter (·.responseType = DNS_A_RECORD)).map (·.ipAddress) =
            (if typeOf recv p = DNS_A_RECORD then [p] else []).map (fun p => beNat (slice recv p 4)) ++
              (resps'.filter (·.responseType = DNS_A_RECORD)).map (·.ipAddress) := by
        intro resps'
        by_cases hA : typeOf recv p = DNS_A_RECORD
        · simp [htype, hA, haddress hA]
        · simp [htype, hA]
      rcases hr with ⟨message, hr, hend⟩ | ⟨next, buffer', hr, hend⟩
      · rw [hr, Option.some.injEq, Prod.mk.injEq] at h
        obtain ⟨rfl, -⟩ := h
        rw [hfirst, List.prefix_append_right_inj]
        cases hnext : answerEnd recv n p with
        | none => exact List.nil_prefix
        | some next =>
            simp only [addressData_behind count (not_lt.1 (hend next hnext))]
            exact List.nil_prefix
      · rw [hr] at h
        obtain ⟨⟨resps', message'⟩, hrest, hres⟩ := Option.map_eq_some_iff.1 h
        obtain ⟨rfl, -⟩ := Prod.mk.inj hres
        rw [hfirst, List.prefix_append_right_inj, hend]
        exact ih hrest

/-! ### Two buffers with the same packet -/

lemma SamePacket.readName_eq (h : SamePacket recv recv' n) {ε : Type} (fuel : ℕ) (e : Bytes → ε)
    (i : ℕ) (dest : Bytes) : readName recv' n fuel e i dest = readName recv n fuel e i dest := by
  rw [readName, readName, h.dnsReadResponseDomainname_eq]

lemma moveOn_lt {ε : Type} {e : ε} {i bytes j : ℕ} (h : moveOn n e i bytes = .ok j) :
    j = i + bytes ∧ j < n := by
  by_cases hlt : i + bytes < n
  · rw [moveOn_eq e hlt, Outcome.ok.injEq] at h
    exact ⟨h.symm, h ▸ hlt⟩
  · rw [moveOn_error e (not_lt.1 hlt)] at h
    simp at h

lemma SamePacket.readFields_eq (h : SamePacket recv recv' n) (resp : DnsResponse) {i : ℕ} (hi : i < n) :
    readFields recv' n resp i = readFields recv n resp i := by
  rw [readFields, readFields, h.ntohsAt_eq hi]
  by_cases hclass : ntohsAt recv i ≠ DNS_INET_ADDR
  · rw [if_pos hclass, if_pos hclass]
  rw [if_neg hclass, if_neg hclass]
  refine Outcome.bind_congr fun j hj => ?_
  obtain ⟨-, hj⟩ := moveOn_lt hj
  rw [slice_congr fun k _ hk => h k (by omega)]
  refine Outcome.bind_congr fun k hk => ?_
  obtain ⟨-, hk⟩ := moveOn_lt hk
  rw [h.ntohsAt_eq hk]

lemma SamePacket.readRdata_eq (h : SamePacket recv recv' n) (fuel : ℕ) (resp : DnsResponse)
    (rdataLength : ℕ) {p : ℕ} (hp : p < n) (hA : resp.responseType = DNS_A_RECORD → p + 3 ≤ n) :
    readRdata recv' n fuel resp rdataLength p = readRdata recv n fuel resp rdataLength p := by
  rw [readRdata, readRdata]
  by_cases hA' : resp.responseType = DNS_A_RECORD
  · have hend := hA hA'
    rw [if_pos hA', if_pos hA', slice_congr fun k _ hk => h k (by omega)]
  · simp only [if_neg hA', h.readName_eq, h.ntohsAt_eq hp]

/-- An answer is read as the same if it has no address that reaches behind the zero. -/
lemma SamePacket.readAnswer_eq (h : SamePacket recv recv' n) (fuel : ℕ) (authoritative last : Bool)
    (i : ℕ) (buffer : Bytes)
    (hA : ∀ p, dataIndex recv n i = some p → typeOf recv p = DNS_A_RECORD → p + 3 ≤ n) :
    readAnswer recv' n fuel authoritative last i buffer =
      readAnswer recv n fuel authoritative last i buffer := by
  rw [readAnswer, readAnswer]
  dsimp only
  rw [h.readName_eq]
  refine Outcome.bind_congr fun a ha => ?_
  obtain ⟨m, dest'⟩ := a
  dsimp only
  have hlen : nameLength recv n i = some m := by
    rcases @readName_cases recv n _ fuel
      (fun _ => (invalidFormat, { DnsResponse.cleared with authoritative })) i buffer with
      hr | ⟨-, dest', hr⟩ | ⟨m', dest', hlen, hr⟩
    · rw [hr] at ha; simp at ha
    · rw [hr] at ha; simp at ha
    · rw [hr, Outcome.ok.injEq, Prod.mk.injEq] at ha
      rw [hlen, ha.1]
  refine Outcome.bind_congr fun j hj => ?_
  obtain ⟨rfl, hj⟩ := moveOn_lt hj
  rw [h.ntohsAt_eq hj]
  refine Outcome.bind_congr fun k hk => ?_
  obtain ⟨rfl, hk⟩ := moveOn_lt hk
  rw [h.readFields_eq _ hk]
  refine Outcome.bind_congr fun b hb => ?_
  rcases @readFields_cases recv n ⟨ntohsAt recv (i + m), 0, 0, 0, fun _ => 0, authoritative⟩
    (i + m + 2) with ⟨-, e, hfields⟩ | ⟨hp, hclass, cacheTime, hfields⟩
  · rw [DnsResponse.cleared, hfields] at hb
    simp at hb
  · rw [DnsResponse.cleared, hfields, Outcome.ok.injEq] at hb
    subst hb
    dsimp only
    rw [h.readRdata_eq fuel _ _ hp]
    intro htype
    exact hA (i + m + 2 + 8) (dataIndex_eq_some.2 ⟨m, hlen, by omega, hclass, by omega⟩) htype

/-- **The answers are read as the same** if no address reaches behind the zero. -/
lemma SamePacket.readAnswers_eq (h : SamePacket recv recv' n) (fuel : ℕ) (authoritative : Bool)
    (count : ℕ) : ∀ (i : ℕ) (buffer : Bytes), (∀ p ∈ addressData recv n count i, p + 3 ≤ n) →
      readAnswers recv' n fuel authoritative count i buffer =
        readAnswers recv n fuel authoritative count i buffer := by
  induction count with
  | zero => intro i buffer _; rfl
  | succ count ih =>
      intro i buffer hA
      rw [readAnswers, readAnswers, h.readAnswer_eq]
      · rcases @readAnswer_cases recv n fuel authoritative (count = 0) i buffer with
          hr | ⟨-, e, hr⟩ | ⟨p, resp, hdata, -, ⟨message, hr, -⟩ | ⟨next, buffer', hr, hend⟩⟩
        · rw [hr]
        · rw [hr]
        · rw [hr]
        · rw [hr]
          dsimp only
          rw [ih]
          intro q hq
          refine hA q ?_
          simp [addressData, hdata, hend, hq]
      · intro p hdata htype
        refine hA p ?_
        simp [addressData, hdata, htype]

lemma SamePacket.nameLength_eq (h : SamePacket recv recv' n) (pos : ℕ) :
    nameLength recv' n pos = nameLength recv n pos := by
  fun_induction nameLength recv n pos with
  | case1 pos hpos => rw [nameLength, if_pos hpos]
  | case2 pos _ hpos h0 =>
      rw [nameLength, if_neg hpos, h pos (not_le.1 hpos).le, if_pos h0]
  | case3 pos _ hpos h0 hptr hoff =>
      rw [nameLength, if_neg hpos, h pos (not_le.1 hpos).le, h.ntohsAt_eq (not_le.1 hpos), if_neg h0,
        if_pos hptr, if_pos hoff]
  | case4 pos _ hpos h0 hptr hoff =>
      rw [nameLength, if_neg hpos, h pos (not_le.1 hpos).le, h.ntohsAt_eq (not_le.1 hpos), if_neg h0,
        if_pos hptr, if_neg hoff]
  | case5 pos _ hpos h0 hptr ih =>
      rw [nameLength, if_neg hpos, h pos (not_le.1 hpos).le, if_neg h0, if_neg hptr]
      exact congrArg _ ih

lemma SamePacket.dataIndex_eq (h : SamePacket recv recv' n) (i : ℕ) :
    dataIndex recv' n i = dataIndex recv n i := by
  rw [dataIndex, dataIndex, h.nameLength_eq]
  congr 1
  funext m
  by_cases hm : i + m + 10 < n
  · rw [h.ntohsAt_eq (by omega)]
  · rw [if_neg fun hc => hm hc.1, if_neg fun hc => hm hc.1]

lemma SamePacket.typeOf_eq (h : SamePacket recv recv' n) {p : ℕ} (hp : p < n) :
    typeOf recv' p = typeOf recv p := by
  rw [typeOf, typeOf, h.ntohsAt_eq (by omega)]

lemma SamePacket.answerEnd_eq (h : SamePacket recv recv' n) {p : ℕ} (hp : p < n) :
    answerEnd recv' n p = answerEnd recv n p := by
  rw [answerEnd, answerEnd, h.typeOf_eq hp, h.ntohsAt_eq (by omega), h.nameLength_eq, h.nameLength_eq]

/-- The places of the addresses are found from the packet alone. -/
lemma SamePacket.addressData_eq (h : SamePacket recv recv' n) (count : ℕ) : ∀ i : ℕ,
    addressData recv' n count i = addressData recv n count i := by
  induction count with
  | zero => intro i; rfl
  | succ count ih =>
      intro i
      rw [addressData, addressData, h.dataIndex_eq]
      cases hdata : dataIndex recv n i with
      | none => rfl
      | some p =>
          obtain ⟨m, -, hlt, -, rfl⟩ := dataIndex_eq_some.1 hdata
          simp only [h.typeOf_eq hlt, h.answerEnd_eq hlt, ih]

end

/-! ### The response -/

section
variable (malloc : Bool) (stack : Bytes) (fuel : ℕ) (data : SessionHandle)

/-- The number of answers that are read. -/
def answersRead : ℕ := min (ntohsAt data.recv 6) MAX_AN_COUNT

/-- The header and the question of the packet are those of a response to the request, there is
memory for the answers, and these start at `start`. -/
structure ReachesAnswers (start : ℕ) (buffer : Bytes) : Prop where
  size : headerSize ≤ data.recvLen
  header : headerError data = none
  question : ∃ bytesRead, start = headerSize + bytesRead + 4 ∧
    dnsReadResponseDomainname data.recv data.recvLen fuel headerSize stack = some (some bytesRead, buffer)
  requested : slice buffer 0 (data.domainName.length + 1) = data.domainName ++ [0]
  room : start < data.recvLen
  memory : malloc = true

/-- The code and the responses. -/
def codeAndResps (r : MRJEcode × Option String × SessionHandle) : MRJEcode × List DnsResponse :=
  (r.1, r.2.2.resps)

variable {malloc stack fuel data}

lemma ReachesAnswers.dnsParseResponse_eq {start : ℕ} {buffer : Bytes}
    (h : ReachesAnswers malloc stack fuel data start buffer) :
    (dnsParseResponse malloc stack fuel data).map codeAndResps =
      (readAnswers data.recv data.recvLen fuel (decide (ntohsAt data.recv 2 &&& DNS_AUTH_ANS ≠ 0))
        (answersRead data) start buffer).map fun r =>
          (if r.2.isSome then .MRJE_FUNC_PARSE_ERR else .MRJE_OK, r.1) := by
  obtain ⟨hsize, hheader, ⟨bytesRead, rfl, hquestion⟩, hrequested, hroom, rfl⟩ := h
  rw [dnsParseResponse, if_neg (not_lt.2 hsize), hheader]
  simp only [hquestion]
  rw [if_neg (by omega), if_neg (not_not.2 hrequested), if_neg (not_le.2 hroom), if_neg (by decide),
    Option.map_map]
  rfl

section
variable {recv' : Bytes} (h : SamePacket data.recv recv' data.recvLen)
include h

lemma SamePacket.headerError_eq (hsize : headerSize ≤ data.recvLen) :
    headerError { data with recv := recv' } = headerError data := by
  have hlt : ∀ i < headerSize, i < data.recvLen := fun i hi => lt_of_lt_of_le hi hsize
  simp only [headerError, h.ntohsAt_eq (hlt 0 (by decide)), h.ntohsAt_eq (hlt 2 (by decide)),
    h.ntohsAt_eq (hlt 6 (by decide))]

lemma SamePacket.reachesAnswers {start : ℕ} {buffer : Bytes}
    (hr : ReachesAnswers malloc stack fuel data start buffer) :
    ReachesAnswers malloc stack fuel { data with recv := recv' } start buffer := by
  refine ⟨hr.size, (h.headerError_eq hr.size).trans hr.header, ?_, hr.requested, hr.room, hr.memory⟩
  obtain ⟨bytesRead, hstart, hread⟩ := hr.question
  exact ⟨bytesRead, hstart, (h.dnsReadResponseDomainname_eq fuel headerSize stack).trans hread⟩

lemma SamePacket.dnsParseResponse_of_reaches {start : ℕ} {buffer : Bytes}
    (hr : ReachesAnswers malloc stack fuel data start buffer) :
    (dnsParseResponse malloc stack fuel { data with recv := recv' }).map codeAndResps =
      (readAnswers recv' data.recvLen fuel (decide (ntohsAt data.recv 2 &&& DNS_AUTH_ANS ≠ 0))
        (answersRead data) start buffer).map fun r =>
          (if r.2.isSome then .MRJE_FUNC_PARSE_ERR else .MRJE_OK, r.1) := by
  have hlt : ∀ i < headerSize, i < data.recvLen := fun i hi => lt_of_lt_of_le hi hr.size
  rw [(h.reachesAnswers hr).dnsParseResponse_eq]
  simp only [answersRead, h.ntohsAt_eq (hlt 2 (by decide)), h.ntohsAt_eq (hlt 6 (by decide))]

/-- Up to the answers the function does not look behind the zero. -/
lemma SamePacket.dnsParseResponse_eq
    (hno : ∀ start buffer, ¬ ReachesAnswers malloc stack fuel data start buffer) :
    (dnsParseResponse malloc stack fuel { data with recv := recv' }).map codeAndResps =
      (dnsParseResponse malloc stack fuel data).map codeAndResps := by
  rw [dnsParseResponse, dnsParseResponse]
  by_cases hsize : data.recvLen < headerSize
  · rw [if_pos hsize, if_pos hsize]
    rfl
  rw [if_neg hsize, if_neg hsize, h.headerError_eq (not_lt.1 hsize)]
  cases hheader : headerError data with
  | some e => rfl
  | none =>
      simp only [h.dnsReadResponseDomainname_eq]
      rcases hread : dnsReadResponseDomainname data.recv data.recvLen fuel headerSize stack with
        _ | ⟨_ | bytesRead, buffer⟩
      · rfl
      · rfl
      dsimp only
      by_cases h0 : data.recvLen ≤ headerSize + bytesRead
      · rw [if_pos h0, if_pos h0]
        rfl
      rw [if_neg h0, if_neg h0]
      by_cases hreq : slice buffer 0 (data.domainName.length + 1) = data.domainName ++ [0]
      · rw [if_neg (not_not.2 hreq), if_neg (not_not.2 hreq)]
        by_cases h4 : data.recvLen ≤ headerSize + bytesRead + 4
        · rw [if_pos h4, if_pos h4]
          rfl
        rw [if_neg h4, if_neg h4]
        cases malloc with
        | false => rfl
        | true =>
            exact absurd ⟨not_lt.1 hsize, hheader, ⟨bytesRead, rfl, hread⟩, hreq, not_le.1 h4, rfl⟩
              (hno _ buffer)
      · rw [if_pos hreq, if_pos hreq]
        rfl

end

/-- The byte behind the first three of an address counts. -/
lemma address_ne (m : Bytes) (p : ℕ) :
    beNat (slice (poke m (p + 3) [m (p + 3) + 1]) p 4) ≠ beNat (slice m p 4) := by
  have hfront : slice (poke m (p + 3) [m (p + 3) + 1]) p 3 = slice m p 3 := by
    refine slice_congr fun k _ hk => ?_
    rw [poke, if_neg (by omega)]
  have hlast : poke m (p + 3) [m (p + 3) + 1] (p + 3) = m (p + 3) + 1 := by
    rw [poke, if_pos le_rfl, Nat.sub_self]
    rfl
  have hne : (m (p + 3) + 1).toNat ≠ (m (p + 3)).toNat := by
    rw [Ne, UInt8.toNat_inj]
    simp
  have hsplit : ∀ m : Bytes, beNat (slice m p 4) = 256 * beNat (slice m p 3) + (m (p + 3)).toNat := by
    intro m
    rw [show 4 = 3 + 1 from rfl, slice_add, beNat, List.foldl_append]
    rfl
  rw [hsplit, hsplit, hfront, hlast]
  omega

/-- **When the result depends on the packet alone.**  Where `dns_parse_response` has a result,
every buffer with the same packet and a zero behind it leads to the same code and the same
responses if and only if no address of the answers reaches behind the zero. -/
theorem parse_ignores_stale_bytes_iff (malloc : Bool) (stack : Bytes) (fuel : ℕ) (data : SessionHandle)
    (hzero : data.recv data.recvLen = 0) (hresult : (dnsParseResponse malloc stack fuel data).isSome) :
    (∀ recv' : Bytes, (∀ k < data.recvLen, recv' k = data.recv k) → recv' data.recvLen = 0 →
      (dnsParseResponse malloc stack fuel { data with recv := recv' }).map codeAndResps =
        (dnsParseResponse malloc stack fuel data).map codeAndResps) ↔
    ∀ start buffer, ReachesAnswers malloc stack fuel data start buffer →
      ∀ p ∈ addressData data.recv data.recvLen (answersRead data) start, p + 3 ≤ data.recvLen := by
  have hsame : ∀ {recv' : Bytes}, (∀ k < data.recvLen, recv' k = data.recv k) →
      recv' data.recvLen = 0 → SamePacket data.recv recv' data.recvLen := by
    intro recv' hagree h0 k hk
    rcases Nat.lt_or_eq_of_le hk with hlt | rfl
    · exact hagree k hlt
    · rw [h0, hzero]
  constructor
  · intro hignore start buffer hr p hp
    by_contra hlt
    -- another byte in the last place of the address
    let recv' := poke data.recv (p + 3) [data.recv (p + 3) + 1]
    have hfront : ∀ k ≤ data.recvLen, recv' k = data.recv k := by
      intro k hk
      simp only [recv', poke]
      rw [if_neg (by omega)]
    have h := hsame (fun k hk => hfront k hk.le) ((hfront _ le_rfl).trans hzero)
    have heq := hignore recv' (fun k hk => hfront k hk.le) ((hfront _ le_rfl).trans hzero)
    -- the addresses read from the two buffers are those of the same responses
    rw [← Option.isSome_map (f := codeAndResps), hr.dnsParseResponse_eq, Option.isSome_map] at hresult
    obtain ⟨⟨resps, message⟩, hread⟩ := Option.isSome_iff_exists.1 hresult
    rw [h.dnsParseResponse_of_reaches hr, hr.dnsParseResponse_eq, hread, Option.map_some] at heq
    obtain ⟨⟨resps', message'⟩, hread', hout⟩ := Option.map_eq_some_iff.1 heq
    obtain ⟨-, hresps⟩ := Prod.mk.inj hout
    dsimp only at hresps
    subst hresps
    have hprefix := addressData_prefix fuel _ _ hread
    have hprefix' := addressData_prefix fuel _ _ hread'
    rw [h.addressData_eq] at hprefix'
    have hmap := (List.prefix_of_prefix_length_le hprefix' hprefix (by simp)).eq_of_length (by simp)
    exact address_ne data.recv p (List.map_inj_left.1 hmap p hp)
  · intro haddress recv' hagree h0
    have h := hsame hagree h0
    by_cases hr : ∃ start buffer, ReachesAnswers malloc stack fuel data start buffer
    · obtain ⟨start, buffer, hr⟩ := hr
      rw [h.dnsParseResponse_of_reaches hr, hr.dnsParseResponse_eq,
        h.readAnswers_eq _ _ _ _ _ (haddress start buffer hr)]
    · exact h.dnsParseResponse_eq fun start buffer hc => hr ⟨start, buffer, hc⟩

end

/-- A response to a request for "a", with one answer that is an address and of which only the
first byte of the address is there. -/
def truncatedAnswer : List UInt8 :=
  [0, 0, 0x80, 0x80, 0, 1, 0, 1, 0, 0, 0, 0, 1, 0x61, 0, 0, 1, 0, 1,
    0xC0, 12, 0, 1, 0, 1, 0, 0, 0, 0, 0, 4, 192]

/-- A session that has received the first bytes of a packet, into a buffer with one byte
throughout. -/
def receivedSession (packet : List UInt8) (stale : UInt8) : SessionHandle where
  recv := poke (fun _ => stale) 0 (packet ++ [0])
  recvLen := packet.length
  domainName := [0x61]
  requestId := 0
  answerCount := 0
  resps := []

theorem truncated_address_is_stale : ¬ ∀ (malloc : Bool) (stack : Bytes) (fuel : ℕ)
    (data : SessionHandle) (recv' : Bytes), data.recv data.recvLen = 0 →
      (∀ k < data.recvLen, recv' k = data.recv k) → recv' data.recvLen = 0 →
      (dnsParseResponse malloc stack fuel data).isSome →
      (dnsParseResponse malloc stack fuel { data with recv := recv' }).map codeAndResps =
        (dnsParseResponse malloc stack fuel data).map codeAndResps := by
  intro h
  have heq := h true (fun _ => 0) 10 (receivedSession truncatedAnswer 1)
    (receivedSession truncatedAnswer 2).recv (by decide +kernel) (by decide +kernel)
    (by decide +kernel) (by decide +kernel)
  -- the two addresses are 192.0.2.2 and 192.0.1.1
  have hips := congrArg (fun r => r.map fun r => r.2.map (·.ipAddress)) heq
  revert hips
  decide +kernel

/-- The session that has received the whole answer. -/
def completeSession : SessionHandle := receivedSession (truncatedAnswer ++ [0, 2, 1]) 1

theorem parse_ignores_stale_bytes_complete :
    (dnsParseResponse true (fun _ => 0) 10 completeSession).isSome ∧
    ∀ recv' : Bytes, (∀ k < completeSession.recvLen, recv' k = completeSession.recv k) →
      recv' completeSession.recvLen = 0 →
      (dnsParseResponse true (fun _ => 0) 10 { completeSession with recv := recv' }).map codeAndResps =
        (dnsParseResponse true (fun _ => 0) 10 completeSession).map codeAndResps := by
  have hresult : (dnsParseResponse true (fun _ => 0) 10 completeSession).isSome := by decide +kernel
  refine ⟨hresult, (parse_ignores_stale_bytes_iff true (fun _ => 0) 10 completeSession
    (by decide +kernel) hresult).2 ?_⟩
  rintro start buffer ⟨-, -, ⟨bytesRead, rfl, hread⟩, -, -, -⟩ p hp
  have hbytes := congrArg (fun r => r.map Prod.fst) hread
  have hthree : (dnsReadResponseDomainname completeSession.recv completeSession.recvLen 10 headerSize
    fun _ => 0).map Prod.fst = some (some 3) := by decide +kernel
  rw [hthree] at hbytes
  obtain rfl : 3 = bytesRead := by simpa using hbytes
  have hlen : nameLength completeSession.recv completeSession.recvLen 19 = some 2 := by
    rw [nameLength]
    decide +kernel
  have hdata : dataIndex completeSession.recv completeSession.recvLen 19 = some 31 :=
    dataIndex_eq_some.2 ⟨2, hlen, by decide +kernel, by decide +kernel, rfl⟩
  have hcount : answersRead completeSession = 1 := by decide +kernel
  rw [hcount, addressData, show headerSize + 3 + 4 = 19 from rfl, hdata] at hp
  have hp31 : p = 31 := by
    cases hend : answerEnd completeSession.recv completeSession.recvLen 31 with
    | none =>
        simp [hend] at hp
        exact hp.2
    | some next =>
        simp [hend, addressData] at hp
        exact hp.2
  subst hp31
  decide +kernel

end DeviceTools.Dns
