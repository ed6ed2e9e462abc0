/-
DNS requests.

`dns_build_request_packet` cuts the domain name at its periods with `strtok_r` and writes each
part behind its length, in a block whose size it has computed before from the length of the
name.  For a name in the usual notation the request fills the block, and
`dns_read_response_domainname` reads the name back from the request.
-/
import DeviceTools.Dns.Response

namespace DeviceTools.Dns

open ByteWord Memory

def MAX_SUBDOMAIN_LENGTH : ℕ := 63
def DNS_USE_RECURSION : ℕ := 0x0100

/-- `sizeof(struct dns_question_trailer)`. -/
def questionTrailerSize : ℕ := 4

/-- What `dns_build_request_packet` uses of `struct session_handle`.  The domain name is a
string, without its terminating zero. -/
structure RequestHandle where
  domainName : List UInt8
  zero_notMem : 0 ∉ domainName
  requestQType : ℕ
  requestId : ℕ
  send : Option Bytes
  sendLen : ℕ

/-- `strtok_r` with the delimiter ".", called on the string that is left: the next token, and
what is left behind it. -/
def strtokR (s : List UInt8) : Option (List UInt8 × List UInt8) :=
  match s.dropWhile (· == PERIOD) with
  | [] => none
  | c :: cs => some ((c :: cs).takeWhile (· != PERIOD), ((c :: cs).dropWhile (· != PERIOD)).tail)

/-- A store to a block of `size` bytes, with no result behind its end. -/
def put (size : ℕ) (block : Bytes) (pos : ℕ) (xs : List UInt8) : Option Bytes :=
  if size < pos + xs.length then none else some (poke block pos xs)

/-- The loop over the tokens.  A token is copied with its zero, and the next one is written over
the zero. -/
def writeLabels (size : ℕ) : ℕ → List UInt8 → Bytes → ℕ → Outcome (String × Bytes) (Bytes × ℕ)
  | 0, _, _, _ => .undefined
  | fuel + 1, s, send, buffp =>
      match strtokR s with
      | none => .ok (send, buffp)
      | some (token, s) =>
          if MAX_SUBDOMAIN_LENGTH < token.length then .error ("subdomain is too long", send)
          else match put size send buffp (UInt8.ofNat token.length :: (token ++ [0])) with
            | none => .undefined
            | some send => writeLabels size fuel s send (buffp + 1 + token.length)

/-- The header of a request. -/
def requestHeader (requestId : ℕ) : List UInt8 :=
  beBytes 2 requestId ++ beBytes 2 DNS_USE_RECURSION ++ beBytes 2 1 ++ beBytes 2 0 ++ beBytes 2 0 ++
    beBytes 2 0

/-- The trailer of a question. -/
def questionTrailer (requestQType : ℕ) : List UInt8 :=
  beBytes 2 requestQType ++ beBytes 2 DNS_INET_ADDR

/-- `dns_build_request_packet`, with the block that `malloc` returns and the number that `rand`
returns: the code, the message traced, and the session. -/
def dnsBuildRequestPacket (malloc : Option Bytes) (rand : ℕ) (data : RequestHandle) :
    Option (MRJEcode × Option String × RequestHandle) :=
  let domainLength := data.domainName.length
  if MAX_DOMAIN_LENGTH < domainLength then
    some (.MRJE_BAD_FUNCTION_ARGUMENT, some "domain name too long", data)
  else
    let totalSize := domainLength + questionTrailerSize + 2 + headerSize
    match malloc with
    | none => some (.MRJE_OUT_OF_MEMORY, some "error allocating memory",
        { data with send := none, sendLen := totalSize })
    | some block =>
        let requestId := rand % 65535
        (put totalSize block 0 (List.replicate totalSize 0)).bind fun send =>
          (put totalSize send 0 (requestHeader requestId)).bind fun send =>
            match writeLabels totalSize (domainLength + 1) data.domainName send headerSize with
            | .undefined => none
            | .error (message, send) => some (.MRJE_BAD_FUNCTION_ARGUMENT, some message,
                { data with send := some send, sendLen := totalSize, requestId })
            | .ok (send, buffp) =>
                (put totalSize send buffp (0 :: questionTrailer data.requestQType)).map fun send =>
                  (.MRJE_OK, none, { data with send := some send, sendLen := totalSize, requestId })

/-! ### Names on the wire -/

/-- A label of a name in the usual notation. -/
def IsLabel (l : List UInt8) : Prop := 0 < l.length ∧ l.length ≤ MAX_SUBDOMAIN_LENGTH ∧ PERIOD ∉ l

/-- The labels, each behind its length. -/
def wire (labels : List (List UInt8)) : List UInt8 :=
  labels.flatMap fun l => UInt8.ofNat l.length :: l

lemma wire_cons (l : List UInt8) (ls : List (List UInt8)) :
    wire (l :: ls) = UInt8.ofNat l.length :: (l ++ wire ls) := by
  simp [wire]

lemma length_wire (labels : List (List UInt8)) : (wire labels).length + 1 = wireLength labels := by
  simp [wire, wireLength, List.length_flatMap]

/-- The first token of a name is its first label. -/
lemma strtokR_text {l : List UInt8} (hl : IsLabel l) (ls : List (List UInt8)) :
    strtokR (text (l :: ls)) = some (l, text ls) := by
  obtain ⟨hpos, -, hperiod⟩ := hl
  -- the bytes of the label are no periods, and what stands behind them starts with one
  have hne : ∀ b ∈ l, (b != PERIOD) = true := by
    intro b hb
    simpa using fun h : b = PERIOD => hperiod (h ▸ hb)
  have hcut : ∀ rest : List UInt8, rest.takeWhile (· != PERIOD) = [] →
      (l ++ rest).takeWhile (· != PERIOD) = l ∧ (l ++ rest).dropWhile (· != PERIOD) = rest := by
    intro rest hrest
    have hdrop := List.takeWhile_append_dropWhile (p := (· != PERIOD)) (l := rest)
    rw [hrest, List.nil_append] at hdrop
    rw [List.takeWhile_append_of_pos hne, List.dropWhile_append_of_pos hne, hrest, hdrop,
      List.append_nil]
    exact ⟨rfl, rfl⟩
  obtain ⟨rest, htext, hrest, htail⟩ : ∃ rest, text (l :: ls) = l ++ rest ∧
      rest.takeWhile (· != PERIOD) = [] ∧ rest.tail = text ls := by
    cases ls with
    | nil => exact ⟨[], by simp [text], rfl, rfl⟩
    | cons l' ls => exact ⟨PERIOD :: text (l' :: ls), rfl, by simp, rfl⟩
  obtain ⟨htake, hdrop⟩ := hcut rest hrest
  cases l with
  | nil => simp at hpos
  | cons b l =>
      have hb : (b == PERIOD) = false := by simpa using hne b (List.mem_cons_self ..)
      rw [strtokR, htext, List.cons_append, List.dropWhile_cons, hb]
      simp only [Bool.false_eq_true, if_false]
      rw [← List.cons_append, htake, hdrop, htail]

lemma put_eq {size pos : ℕ} {xs : List UInt8} (h : pos + xs.length ≤ size) (block : Bytes) :
    put size block pos xs = some (poke block pos xs) := by
  rw [put, if_neg (by omega)]

/-- **The loop over the tokens of a name** writes the labels, each behind its length, and a zero
behind the last. -/
lemma writeLabels_text (size : ℕ) : ∀ {labels : List (List UInt8)}, labels ≠ [] →
    (∀ l ∈ labels, IsLabel l) → ∀ (fuel pos : ℕ), labels.length < fuel →
    pos + (wire labels).length + 1 ≤ size → ∀ send : Bytes,
      writeLabels size fuel (text labels) send pos =
        .ok (poke send pos (wire labels ++ [0]), pos + (wire labels).length) := by
  intro labels
  induction labels with
  | nil => intro h; exact absurd rfl h
  | cons l ls ih =>
      intro _ hlabel fuel pos hfuel hroom send
      have hl := hlabel l (List.mem_cons_self ..)
      have hlen : (wire (l :: ls)).length = 1 + l.length + (wire ls).length := by
        rw [wire_cons, List.length_cons, List.length_append]
        omega
      obtain ⟨fuel, rfl⟩ : ∃ k, fuel = k + 1 := ⟨fuel - 1, by omega⟩
      have hput : put size send pos (UInt8.ofNat l.length :: (l ++ [0])) =
          some (poke send pos (UInt8.ofNat l.length :: l ++ [0])) := by
        apply put_eq
        simp only [List.length_cons, List.length_append, List.length_nil]
        omega
      rw [writeLabels, strtokR_text hl]
      simp only [if_neg (not_lt.2 hl.2.1), hput]
      by_cases hls : ls = []
      · subst hls
        obtain ⟨fuel, rfl⟩ : ∃ k, fuel = k + 1 := ⟨fuel - 1, by simp at hfuel; omega⟩
        simp [writeLabels, text, strtokR, wire, Nat.add_assoc, Nat.add_comm 1]
      · -- the labels behind are written over the zero
        have hover := poke_over send pos (UInt8.ofNat l.length :: l) 0
        rw [ih hls (fun l' hl' => hlabel l' (List.mem_cons_of_mem _ hl')) _ _
          (by simp at hfuel; omega) (by omega)]
        obtain ⟨y, ys, hy⟩ : ∃ y ys, wire ls ++ [0] = y :: ys := List.exists_cons_of_ne_nil (by simp)
        have hpos : pos + 1 + l.length = pos + (UInt8.ofNat l.length :: l).length := by
          rw [List.length_cons]
          omega
        have hend : pos + 1 + l.length + (wire ls).length = pos + (wire (l :: ls)).length := by
          rw [hlen]
          omega
        rw [hend, hpos, hy, hover, ← hy, wire_cons, List.cons_append, List.cons_append,
          List.append_assoc]

/-- A name on the wire is a name of the packet. -/
lemma nameAt_wire {packet : Bytes} {size : ℕ} : ∀ {labels : List (List UInt8)},
    (∀ l ∈ labels, IsLabel l) → ∀ {pos : ℕ}, pos + (wire labels).length < size →
    slice packet pos ((wire labels).length + 1) = wire labels ++ [0] →
      NameAt packet size pos labels false ((wire labels).length + 1) := by
  intro labels
  induction labels with
  | nil =>
      intro _ pos hsize hslice
      have h0 : packet pos = 0 := by simpa [wire, slice] using hslice
      exact .root (by simpa [wire] using hsize) h0
  | cons l ls ih =>
      intro hlabel pos hsize hslice
      obtain ⟨hpos, h63, -⟩ := hlabel l (List.mem_cons_self ..)
      have h63 : l.length ≤ 63 := h63
      have hlen : (wire (l :: ls)).length + 1 = l.length + ((wire ls).length + 1) + 1 := by
        rw [wire_cons, List.length_cons, List.length_append]
        omega
      -- the length, the label, and the labels behind it
      rw [hlen, slice_succ, slice_add, wire_cons, List.cons_append, List.cons.injEq,
        List.append_assoc] at hslice
      obtain ⟨hb, hslice⟩ := hslice
      obtain ⟨hl, hrest⟩ := List.append_inj hslice (length_slice ..)
      have hname := ih (fun l' hl' => hlabel l' (List.mem_cons_of_mem _ hl')) (by omega) hrest
      have hdangling : (ls.isEmpty && packet (pos + 1 + l.length) != 0) = false := by
        cases ls with
        | nil =>
            have h0 : packet (pos + 1 + l.length) = 0 := by simpa [wire, slice] using hrest
            simp [h0]
        | cons l' ls => rfl
      have hat := NameAt.label hpos h63 (by rw [hb]; simp; omega) hl hname
      rw [Bool.false_or, hdangling] at hat
      rw [hlen, Nat.add_right_comm]
      exact hat

lemma length_requestHeader (requestId : ℕ) : (requestHeader requestId).length = headerSize := by
  simp [requestHeader, headerSize]

lemma length_questionTrailer (requestQType : ℕ) :
    (questionTrailer requestQType).length = questionTrailerSize := by
  simp [questionTrailer, questionTrailerSize]

lemma two_mul_length_le_wire {labels : List (List UInt8)} (h : ∀ l ∈ labels, IsLabel l) :
    2 * labels.length ≤ (wire labels).length := by
  induction labels with
  | nil => simp
  | cons l ls ih =>
      have hl := (h l (List.mem_cons_self ..)).1
      have := ih fun l' hl' => h l' (List.mem_cons_of_mem _ hl')
      rw [wire_cons, List.length_cons, List.length_cons, List.length_append]
      omega

section
variable {labels : List (List UInt8)} {data : RequestHandle}

/-- The bytes of a request: the header, the labels, the root and the trailer. -/
def requestBytes (requestId requestQType : ℕ) (labels : List (List UInt8)) : List UInt8 :=
  requestHeader requestId ++ (wire labels ++ 0 :: questionTrailer requestQType)

/-- The size of the block, computed from the length of the name, is that of the request. -/
lemma length_requestBytes (requestId requestQType : ℕ) (hne : labels ≠ []) :
    (requestBytes requestId requestQType labels).length =
      (text labels).length + questionTrailerSize + 2 + headerSize := by
  have htext := length_text hne
  rw [← length_wire] at htext
  rw [requestBytes, List.length_append, List.length_append, List.length_cons,
    length_requestHeader, length_questionTrailer]
  omega

/-- **The request for a name** fills its block. -/
lemma dnsBuildRequestPacket_text (hne : labels ≠ []) (hlabel : ∀ l ∈ labels, IsLabel l)
    (hname : data.domainName = text labels) (hlen : data.domainName.length ≤ MAX_DOMAIN_LENGTH)
    (block : Bytes) (rand : ℕ) : ∃ send sendLen,
      dnsBuildRequestPacket (some block) rand data = some (.MRJE_OK, none,
        { data with send := some send, sendLen, requestId := rand % 65535 }) ∧
      slice send 0 sendLen = requestBytes (rand % 65535) data.requestQType labels := by
  have htext := length_text hne
  rw [← length_wire, ← hname] at htext
  have hcount := two_mul_length_le_wire hlabel
  have hheader := length_requestHeader (rand % 65535)
  have htrailer := length_questionTrailer data.requestQType
  have hsize := length_requestBytes (rand % 65535) data.requestQType hne
  rw [← hname] at hsize
  generalize htotal : data.domainName.length + questionTrailerSize + 2 + headerSize = totalSize at hsize
  refine ⟨poke (poke block 0 (List.replicate totalSize 0)) 0
    (requestBytes (rand % 65535) data.requestQType labels), totalSize, ?_, ?_⟩
  · have hloop := writeLabels_text totalSize hne hlabel (data.domainName.length + 1)
      headerSize (by omega) (by omega)
    rw [← hname] at hloop
    rw [dnsBuildRequestPacket]
    simp only [if_neg (not_lt.2 hlen), htotal]
    rw [put_eq (by rw [List.length_replicate, Nat.zero_add]), Option.bind_some,
      put_eq (by omega), Option.bind_some, hloop]
    simp only
    -- the root is written over the zero of the last label, and the labels stand behind the header
    have happend := poke_append (poke block 0 (List.replicate totalSize 0)) 0
      (requestHeader (rand % 65535)) (wire labels ++ 0 :: questionTrailer data.requestQType)
    rw [hheader, Nat.zero_add] at happend
    rw [put_eq (by rw [List.length_cons]; omega), Option.map_some, poke_over, happend, requestBytes]
  · rw [← hsize, slice_poke]

lemma slice_of_requestBytes {send : Bytes} {sendLen requestId requestQType : ℕ}
    (h : slice send 0 sendLen = requestBytes requestId requestQType labels) :
    slice send headerSize (sendLen - headerSize) = wire labels ++ 0 :: questionTrailer requestQType := by
  have hdrop := drop_slice send headerSize 0 sendLen
  rw [h, requestBytes, ← length_requestHeader requestId, List.drop_left, Nat.zero_add] at hdrop
  rw [← length_requestHeader requestId]
  exact hdrop.symm

/-- **Domain names survive the round trip.**  A name of non-empty labels of at most 63 bytes,
joined by single periods, with at most 255 bytes, is written to a request: from the end of the
header up to the end of the packet stand the labels, the root and the trailer.  The name is
read back from the request, and the number of bytes read is that of the labels and the root. -/
theorem query_name_round_trip (labels : List (List UInt8)) (data : RequestHandle) (block : Bytes)
    (rand : ℕ) (hne : labels ≠ []) (hlabel : ∀ l ∈ labels, IsLabel l)
    (hname : data.domainName = text labels) (hlen : data.domainName.length ≤ MAX_DOMAIN_LENGTH) :
    ∃ data' send, dnsBuildRequestPacket (some block) rand data = some (.MRJE_OK, none, data') ∧
      data'.send = some send ∧
      slice send headerSize (data'.sendLen - headerSize) =
        wire labels ++ 0 :: questionTrailer data.requestQType ∧
      ∃ f₀, ∀ fuel ≥ f₀, ∀ dest, ∃ dest',
        dnsReadResponseDomainname send data'.sendLen fuel headerSize dest =
          some (some ((wire labels).length + 1), dest') ∧
        slice dest' 0 (data.domainName.length + 1) = data.domainName ++ [0] := by
  obtain ⟨send, sendLen, hbuild, hbytes⟩ := dnsBuildRequestPacket_text hne hlabel hname hlen block rand
  have hwire := slice_of_requestBytes hbytes
  have hlength := congrArg List.length hwire
  rw [length_slice, List.length_append, List.length_cons, length_questionTrailer] at hlength
  -- the name stands behind the header
  have hat : NameAt send sendLen headerSize labels false ((wire labels).length + 1) := by
    apply nameAt_wire hlabel
    · omega
    · rw [← take_slice send headerSize (show (wire labels).length + 1 ≤ sendLen - headerSize by omega),
        hwire, List.take_append]
      simp
  have hwritten : written labels false = data.domainName ++ [0] := by
    rw [written, if_neg hne, hname]
    rfl
  have h0 : send headerSize ≠ 0 := fun hz => hne (hat.eq_nil hz).1
  obtain ⟨f₀, hread⟩ := readLabels_eq hat
  refine ⟨_, send, hbuild, rfl, hwire, f₀, fun fuel hfuel dest =>
    ⟨poke dest 0 (data.domainName ++ [0]), ?_, ?_⟩⟩
  · have hroom : 0 + (period 0).length + (written labels false).length ≤ 256 := by
      rw [hwritten, period_zero, List.length_append, List.length_singleton, List.length_nil]
      simp only [MAX_DOMAIN_LENGTH] at hlen
      omega
    rw [dnsReadResponseDomainname, if_neg (not_le.2 hat.pos_lt), hread fuel hfuel 0 dest 0 hroom,
      if_neg h0, hwritten, period_zero, List.nil_append, Nat.zero_add]
  · have hslice := slice_poke dest 0 (data.domainName ++ [0])
    rwa [List.length_append, List.length_singleton] at hslice

end

lemma zero_notMem_sample : (0 : UInt8) ∉ [0x61, PERIOD, 0x62, 0x63] := by decide

/-- A session that asks for the address of "a.bc". -/
def sampleRequest : RequestHandle :=
  ⟨[0x61, PERIOD, 0x62, 0x63], zero_notMem_sample, DNS_A_RECORD, 0, none, 0⟩

theorem query_name_round_trip_sample : ∃ data' send,
    dnsBuildRequestPacket (some fun _ => 7) 41 sampleRequest = some (.MRJE_OK, none, data') ∧
      data'.send = some send ∧
      slice send 12 (data'.sendLen - 12) = [1, 0x61, 2, 0x62, 0x63, 0, 0, 1, 0, 1] ∧
      ∃ f₀, ∀ fuel ≥ f₀, ∀ dest, ∃ dest',
        dnsReadResponseDomainname send data'.sendLen fuel 12 dest = some (some 6, dest') ∧
        slice dest' 0 5 = [0x61, PERIOD, 0x62, 0x63, 0] :=
  query_name_round_trip [[0x61], [0x62, 0x63]] sampleRequest (fun _ => 7) 41 (by decide)
    (by simp [IsLabel, MAX_SUBDOMAIN_LENGTH, PERIOD]) rfl (by decide)

end DeviceTools.Dns
