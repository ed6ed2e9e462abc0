/-
DNS responses.

`dns_parse_response` reads the header, the question and the answers of a response with one
index into the packet.  `IsResponse` is the format of a well-formed response to the pending
request.  On such a response the function fills in the answers as `response` says: everything
is as the packet has it, except that the TTL loses its low 16 bits, and that the name of an
answer is not terminated if it is dangling.
-/
import DeviceTools.Dns.Name
import DeviceTools.Lib.Outcome

namespace DeviceTools.Dns

open ByteWord Memory

def DNS_QR_RESPONSE : ℕ := 0x8000
def DNS_AUTH_ANS : ℕ := 0x0400
def DNS_TRUNCATED : ℕ := 0x0200
def DNS_RECURSION_AVAIL : ℕ := 0x0080
def DNS_FORMAT_ERROR : ℕ := 0x0001
def DNS_SERVER_FAILURE : ℕ := 0x0002
def DNS_NAME_ERROR : ℕ := 0x0003
def DNS_NOT_IMPLEMENTED : ℕ := 0x0004
def DNS_REFUSED : ℕ := 0x0005
def DNS_ERROR_MASK : ℕ := 0x000f
def DNS_INET_ADDR : ℕ := 0x0001
def DNS_A_RECORD : ℕ := 0x0001
def DNS_NS_RECORD : ℕ := 0x0002
def DNS_CNAME_RECORD : ℕ := 0x0005
def DNS_MX_RECORD : ℕ := 0x000f
def MAX_AN_COUNT : ℕ := 50

/-- `sizeof(struct dns_header)`. -/
def headerSize : ℕ := 12

/-- `MRJEcode`. -/
inductive MRJEcode where
  | MRJE_OK
  | MRJE_UNKNOW
  | MRJE_SEND_ERR
  | MRJE_RECV_ERR
  | MRJE_BAD_FUNCTION_ARGUMENT
  | MRJE_OUT_OF_MEMORY
  | MRJE_FUNC_SOCKET_ERR
  | MRJE_FUNC_SELECT_ERR
  | MRJE_FUNC_PARSE_ERR
  | MRJE_TIMEOUT
  | MRJE_UNKNOW_OPTION
deriving DecidableEq, Repr

/-- `struct dns_response`. -/
structure DnsResponse where
  responseType : ℕ
  preference : ℕ
  cacheTime : ℕ
  ipAddress : ℕ
  name : Bytes
  authoritative : Bool

/-- A response after `memset`. -/
def DnsResponse.cleared : DnsResponse := ⟨0, 0, 0, 0, fun _ => 0, false⟩

/-- What `dns_parse_response` uses of `struct session_handle`.  The domain name is the string
without its terminating zero. -/
structure SessionHandle where
  recv : Bytes
  recvLen : ℕ
  domainName : List UInt8
  requestId : ℕ
  answerCount : ℕ
  resps : List DnsResponse

/-- `dns_increment_buffer_index`: the new index, and whether it is behind the packet. -/
def dnsIncrementBufferIndex (bufferIndex maxIndex bytes : ℕ) : ℕ × Bool :=
  (bufferIndex + bytes, maxIndex ≤ bufferIndex + bytes)

/-- The message of most errors. -/
def invalidFormat : String := "response has invalid format"

section
variable (recv : Bytes) (packetLength fuel : ℕ)

/-- The next index, or an error. -/
def moveOn {ε : Type} (e : ε) (bufferIndex bytes : ℕ) : Outcome ε ℕ :=
  match dnsIncrementBufferIndex bufferIndex packetLength bytes with
  | (_, true) => .error e
  | (i, false) => .ok i

/-- A name with the number of its bytes, or an error that has the buffer. -/
def readName {ε : Type} (e : Bytes → ε) (bufferIndex : ℕ) (dest : Bytes) : Outcome ε (ℕ × Bytes) :=
  match dnsReadResponseDomainname recv packetLength fuel bufferIndex dest with
  | none => .undefined
  | some (none, dest) => .error (e dest)
  | some (some bytesRead, dest) => .ok (bytesRead, dest)

/-- The fields of an answer behind the type, up to its data: the response and the length of the
data.  The TTL is copied to a 16-bit variable, whose two bytes `ntohl` takes for the first two
of four. -/
def readFields (resp : DnsResponse) (i : ℕ) : Outcome (String × DnsResponse) (DnsResponse × ℕ × ℕ) := do
  if ntohsAt recv i ≠ DNS_INET_ADDR then .error ("invalid response class", resp)
  else
    let i ← moveOn packetLength (invalidFormat, resp) i 2
    let resp := { resp with cacheTime := beNat (slice recv i 2 ++ [0, 0]) }
    let i ← moveOn packetLength (invalidFormat, resp) i 4
    let rdataLength := ntohsAt recv i
    let i ← moveOn packetLength (invalidFormat, resp) i 2
    pure (resp, rdataLength, i)

/-- The data of an answer, by its type: the response, the length of the data that is still to
be skipped, and the index. -/
def readRdata (resp : DnsResponse) (rdataLength i : ℕ) :
    Outcome (String × DnsResponse) (DnsResponse × ℕ × ℕ) :=
  let readsName (resp : DnsResponse) (i : ℕ) := readName recv packetLength fuel
    (fun dest => (invalidFormat, { resp with name := dest })) i resp.name
  if resp.responseType = DNS_A_RECORD then
    pure ({ resp with ipAddress := beNat (slice recv i 4) }, rdataLength, i)
  else if resp.responseType = DNS_NS_RECORD then do
    let (_, name) ← readsName resp i
    pure ({ resp with name }, rdataLength, i)
  else if resp.responseType = DNS_CNAME_RECORD then do
    let (_, name) ← readsName resp i
    pure ({ resp with name }, rdataLength, i)
  else if resp.responseType = DNS_MX_RECORD then do
    let resp := { resp with preference := ntohsAt recv i }
    let i ← moveOn packetLength (invalidFormat, resp) i 2
    let (_, name) ← readsName resp i
    pure ({ resp with name }, (rdataLength + 2 ^ 16 - 2) % 2 ^ 16, i)
  else pure (resp, rdataLength, i)

/-- The body of the loop over the answers.  The index may move behind the packet at the last
answer. -/
def readAnswer (authoritative last : Bool) (i : ℕ) (buffer : Bytes) :
    Outcome (String × DnsResponse) (DnsResponse × ℕ × Bytes) := do
  let resp := { DnsResponse.cleared with authoritative }
  let (bytesRead, buffer) ← readName recv packetLength fuel (fun _ => (invalidFormat, resp)) i buffer
  let i ← moveOn packetLength (invalidFormat, resp) i bytesRead
  let resp := { resp with responseType := ntohsAt recv i }
  let i ← moveOn packetLength (invalidFormat, resp) i 2
  let (resp, rdataLength, i) ← readFields recv packetLength resp i
  let (resp, rdataLength, i) ← readRdata recv packetLength fuel resp rdataLength i
  match dnsIncrementBufferIndex i packetLength rdataLength, last with
  | (_, true), false => .error (invalidFormat, resp)
  | (i, _), _ => pure (resp, i, buffer)

/-- The loop over the answers: the array, and the message if it ends with an error. -/
def readAnswers (authoritative : Bool) : ℕ → ℕ → Bytes → Option (List DnsResponse × Option String)
  | 0, _, _ => some ([], none)
  | count + 1, i, buffer =>
      match readAnswer recv packetLength fuel authoritative (count = 0) i buffer with
      | .undefined => none
      | .error (message, resp) => some (resp :: List.replicate count .cleared, some message)
      | .ok (resp, i, buffer) =>
          (readAnswers authoritative count i buffer).map fun r => (resp :: r.1, r.2)

end

/-- The errors found in the header: the message, and the answer count if it is changed. -/
def headerError (data : SessionHandle) : Option (Option String × ℕ) :=
  let flags := ntohsAt data.recv 2
  let errorCode := flags &&& DNS_ERROR_MASK
  if ntohsAt data.recv 0 ≠ data.requestId then
    some (some "response id does not match request id", data.answerCount)
  else if flags &&& DNS_QR_RESPONSE = 0 then
    some (some "header does not contain response flag", data.answerCount)
  else if flags &&& DNS_TRUNCATED ≠ 0 then some (some "response was truncated", data.answerCount)
  else if flags &&& DNS_RECURSION_AVAIL = 0 then
    some (some "no recursion available", data.answerCount)
  else if errorCode = DNS_FORMAT_ERROR then
    some (some "server unable to interpret query", data.answerCount)
  else if errorCode = DNS_SERVER_FAILURE then
    some (some "unable to process due to server error", data.answerCount)
  else if errorCode = DNS_NOT_IMPLEMENTED then
    some (some "server does not support requested query type", data.answerCount)
  else if errorCode = DNS_REFUSED then some (some "server refused query", data.answerCount)
  else if errorCode = DNS_NAME_ERROR then some (none, 0)
  else if ntohsAt data.recv 6 < 1 then some (none, 0)
  else none

/-- `dns_parse_response`, with what `malloc` returns and what is in the uninitialised name
buffer: the code, the message traced, and the session. -/
def dnsParseResponse (malloc : Bool) (stack : Bytes) (fuel : ℕ) (data : SessionHandle) :
    Option (MRJEcode × Option String × SessionHandle) :=
  if data.recvLen < headerSize then some (.MRJE_FUNC_PARSE_ERR, some invalidFormat, data)
  else match headerError data with
  | some (message, answerCount) =>
      some (.MRJE_FUNC_PARSE_ERR, message, { data with answerCount := answerCount })
  | none =>
      let anCount := min (ntohsAt data.recv 6) MAX_AN_COUNT
      let authoritative := decide (ntohsAt data.recv 2 &&& DNS_AUTH_ANS ≠ 0)
      match dnsReadResponseDomainname data.recv data.recvLen fuel headerSize stack with
      | none => none
      | some (none, _) => some (.MRJE_FUNC_PARSE_ERR, some invalidFormat, data)
      | some (some bytesRead, buffer) =>
          if data.recvLen ≤ headerSize + bytesRead then
            some (.MRJE_FUNC_PARSE_ERR, some invalidFormat, data)
          else if slice buffer 0 (data.domainName.length + 1) ≠ data.domainName ++ [0] then
            some (.MRJE_FUNC_PARSE_ERR, some "the response domain does not match the request", data)
          else if data.recvLen ≤ headerSize + bytesRead + 4 then
            some (.MRJE_FUNC_PARSE_ERR, some invalidFormat, data)
          else if malloc = false then
            some (.MRJE_OUT_OF_MEMORY, some "unable to allocate memory for response",
              { data with answerCount := anCount, resps := [] })
          else
            (readAnswers data.recv data.recvLen fuel authoritative anCount
              (headerSize + bytesRead + 4) buffer).map fun (resps, message) =>
              (if message.isSome then .MRJE_FUNC_PARSE_ERR else .MRJE_OK, message,
                { data with answerCount := anCount, resps := resps })

/-! ### The format -/

/-- A name, and whether it is written in a dangling way (`NameAt`). -/
structure Name where
  labels : List (List UInt8)
  dangling : Bool

/-- The data of an answer. -/
inductive RData where
  | a (address : ℕ)
  | ns (name : Name)
  | cname (name : Name)
  | mx (preference : ℕ) (name : Name)

/-- The type of an answer with given data. -/
def RData.type : RData → ℕ
  | .a _ => DNS_A_RECORD
  | .ns _ => DNS_NS_RECORD
  | .cname _ => DNS_CNAME_RECORD
  | .mx _ _ => DNS_MX_RECORD

/-- The name in the data of an answer. -/
def RData.name : RData → Option Name
  | .a _ => none
  | .ns name => some name
  | .cname name => some name
  | .mx _ name => some name

/-- An answer. -/
structure Answer where
  owner : Name
  ttl : ℕ
  rdata : RData

section
variable (recv : Bytes) (size : ℕ)

/-- A name of at most 255 bytes stands at `i`, in `n` bytes. -/
def HasName (i : ℕ) (name : Name) (n : ℕ) : Prop :=
  NameAt recv size i name.labels name.dangling n ∧ wireLength name.labels ≤ 255

/-- The data of an answer stands at `i`, in `n` bytes. -/
def HasRData (i n : ℕ) : RData → Prop
  | .a address => n = 4 ∧ beNat (slice recv i 4) = address
  | .ns name => HasName recv size i name n
  | .cname name => HasName recv size i name n
  | .mx preference name => ntohsAt recv i = preference ∧ 2 ≤ n ∧ HasName recv size (i + 2) name (n - 2)

/-- From `i` on the packet has the answers. -/
def HasAnswers : ℕ → List Answer → Prop
  | i, [] => i ≤ size
  | i, a :: as => ∃ n rdataLength, HasName recv size i a.owner n ∧
      ntohsAt recv (i + n) = a.rdata.type ∧ ntohsAt recv (i + n + 2) = DNS_INET_ADDR ∧
      beNat (slice recv (i + n + 4) 4) = a.ttl ∧ ntohsAt recv (i + n + 8) = rdataLength ∧
      HasRData recv size (i + n + 10) rdataLength a.rdata ∧
      HasAnswers (i + n + 10 + rdataLength) as

end

/-- The session has received a well-formed response to its request, with these answers. -/
structure IsResponse (data : SessionHandle) (question : Name) (answers : List Answer) : Prop where
  id : ntohsAt data.recv 0 = data.requestId
  qr : ntohsAt data.recv 2 &&& DNS_QR_RESPONSE ≠ 0
  tc : ntohsAt data.recv 2 &&& DNS_TRUNCATED = 0
  ra : ntohsAt data.recv 2 &&& DNS_RECURSION_AVAIL ≠ 0
  rcode : ntohsAt data.recv 2 &&& DNS_ERROR_MASK = 0
  qdCount : ntohsAt data.recv 4 = 1
  anCount : ntohsAt data.recv 6 = answers.length
  count_pos : 1 ≤ answers.length
  count_le : answers.length ≤ MAX_AN_COUNT
  requested : data.domainName = text question.labels
  sections : ∃ n, HasName data.recv data.recvLen headerSize question n ∧
    HasAnswers data.recv data.recvLen (headerSize + n + 4) answers

/-- The buffer has the text of the name as a string. -/
def HasText (buffer : Bytes) (labels : List (List UInt8)) : Prop :=
  slice buffer 0 ((text labels).length + 1) = text labels ++ [0]

/-- The response has what the answer says. -/
def Decodes (answer : Answer) (resp : DnsResponse) : Prop :=
  resp.responseType = answer.rdata.type ∧ resp.cacheTime = answer.ttl ∧
    match answer.rdata with
    | .a address => resp.ipAddress = address
    | .ns name => HasText resp.name name.labels
    | .cname name => HasText resp.name name.labels
    | .mx preference name => resp.preference = preference ∧ HasText resp.name name.labels

/-! ### What the function fills in -/

/-- The name buffer of an answer. -/
def nameBuffer (name : Name) : Bytes := poke (fun _ => 0) 0 (written name.labels name.dangling)

/-- The response that the function fills in for an answer. -/
def response (authoritative : Bool) (answer : Answer) : DnsResponse :=
  let resp := { DnsResponse.cleared with
    responseType := answer.rdata.type, cacheTime := answer.ttl / 2 ^ 16 * 2 ^ 16, authoritative }
  match answer.rdata with
  | .a address => { resp with ipAddress := address }
  | .ns name => { resp with name := nameBuffer name }
  | .cname name => { resp with name := nameBuffer name }
  | .mx preference name => { resp with preference, name := nameBuffer name }

section
variable {recv : Bytes} {size : ℕ}

/-- A name of the packet is read, with enough fuel. -/
lemma readName_eq (ε : Type) {i n : ℕ} {name : Name} (h : HasName recv size i name n) :
    ∃ f₀, ∀ fuel ≥ f₀, ∀ (e : Bytes → ε) (dest : Bytes), readName recv size fuel e i dest =
      .ok (n, poke dest 0 (written name.labels name.dangling)) := by
  obtain ⟨hname, hlen⟩ := h
  obtain ⟨f₀, hread⟩ := readLabels_eq hname
  refine ⟨f₀, fun fuel hfuel e dest => ?_⟩
  have hroom := length_written_le name.labels name.dangling
  have hwritten : (if recv i = 0 then [] else written name.labels name.dangling) =
      written name.labels name.dangling := by
    split
    · next h0 => rw [(hname.eq_nil h0).1]; rfl
    · rfl
  rw [readName, dnsReadResponseDomainname, if_neg (not_le.2 hname.pos_lt),
    hread fuel hfuel 0 dest 0 (by rw [period_zero, List.length_nil]; omega), period_zero,
    List.nil_append, hwritten, Nat.zero_add]

lemma moveOn_eq {ε : Type} (e : ε) {i bytes : ℕ} (h : i + bytes < size) :
    moveOn size e i bytes = .ok (i + bytes) := by
  rw [moveOn, dnsIncrementBufferIndex, decide_eq_false (not_le.2 h)]

/-- The two bytes that are kept of the TTL. -/
lemma cacheTime_eq (m : Bytes) (i : ℕ) :
    beNat (slice m i 2 ++ [0, 0]) = beNat (slice m i 4) / 2 ^ 16 * 2 ^ 16 := by
  have h2 := (m (i + 2)).toNat_lt
  have h3 := (m (i + 3)).toNat_lt
  simp only [slice, List.range, List.range.loop, List.map_cons, List.map_nil, List.cons_append,
    List.nil_append, beNat, List.foldl_cons, List.foldl_nil, Nat.add_zero]
  simp only [UInt8.toNat_zero]
  omega

lemma ntohsAt_lt (m : Bytes) (i : ℕ) : ntohsAt m i < 2 ^ 16 := by
  simpa [ntohsAt] using beNat_lt (slice m i 2)

lemma HasAnswers.le {i : ℕ} {answers : List Answer} (h : HasAnswers recv size i answers) :
    i ≤ size := by
  cases answers with
  | nil => exact h
  | cons a as =>
      obtain ⟨n, rdataLength, hname, -⟩ := h
      exact hname.1.pos_lt.le

lemma HasAnswers.lt {i : ℕ} {answers : List Answer} (h : HasAnswers recv size i answers)
    (hne : answers ≠ []) : i < size := by
  cases answers with
  | nil => exact absurd rfl hne
  | cons a as =>
      obtain ⟨n, rdataLength, hname, -⟩ := h
      exact hname.1.pos_lt

lemma HasRData.lt {i n : ℕ} {rdata : RData} (h : HasRData recv size i n rdata)
    (hend : i + n ≤ size) : i < size := by
  cases rdata with
  | a address => have := h.1; omega
  | ns name => exact h.1.pos_lt
  | cname name => exact h.1.pos_lt
  | mx preference name => have := h.2.2.1.pos_lt; omega

lemma readFields_eq (resp : DnsResponse) {i : ℕ} (hclass : ntohsAt recv i = DNS_INET_ADDR)
    (hi : i + 8 < size) : readFields recv size resp i =
      .ok ({ resp with cacheTime := beNat (slice recv (i + 2) 4) / 2 ^ 16 * 2 ^ 16 },
        ntohsAt recv (i + 6), i + 8) := by
  rw [readFields, if_neg (not_not.2 hclass), moveOn_eq _ (by omega), Outcome.ok_bind]
  have h6 : i + 2 + 4 < size := by omega
  have h8 : i + 2 + 4 + 2 < size := by omega
  simp only [moveOn_eq _ h6, moveOn_eq _ h8, Outcome.ok_bind, cacheTime_eq]
  rfl

lemma readRdata_a (fuel : ℕ) {resp : DnsResponse} (h : resp.responseType = DNS_A_RECORD) (n i : ℕ) :
    readRdata recv size fuel resp n i =
      .ok ({ resp with ipAddress := beNat (slice recv i 4) }, n, i) := by
  rw [readRdata, if_pos h]
  rfl

lemma readRdata_name {i n : ℕ} {name : Name} (hname : HasName recv size i name n) :
    ∃ f₀, ∀ fuel ≥ f₀, ∀ resp : DnsResponse,
      resp.responseType = DNS_NS_RECORD ∨ resp.responseType = DNS_CNAME_RECORD →
      readRdata recv size fuel resp n i =
        .ok ({ resp with name := poke resp.name 0 (written name.labels name.dangling) }, n, i) := by
  obtain ⟨f₀, hread⟩ := readName_eq (String × DnsResponse) hname
  refine ⟨f₀, fun fuel hfuel resp h => ?_⟩
  rw [readRdata]
  rcases h with h | h
  · rw [if_neg (by rw [h]; decide), if_pos h]
    simp only [hread fuel hfuel, Outcome.ok_bind]
    rfl
  · rw [if_neg (by rw [h]; decide), if_neg (by rw [h]; decide), if_pos h]
    simp only [hread fuel hfuel, Outcome.ok_bind]
    rfl

lemma readRdata_mx {i n : ℕ} {name : Name} (hname : HasName recv size (i + 2) name n) :
    ∃ f₀, ∀ fuel ≥ f₀, ∀ resp : DnsResponse, resp.responseType = DNS_MX_RECORD →
      ∀ rdataLength, readRdata recv size fuel resp rdataLength i =
        .ok ({ resp with
          preference := ntohsAt recv i, name := poke resp.name 0 (written name.labels name.dangling) },
          (rdataLength + 2 ^ 16 - 2) % 2 ^ 16, i + 2) := by
  obtain ⟨f₀, hread⟩ := readName_eq (String × DnsResponse) hname
  have hlt := hname.1.pos_lt
  refine ⟨f₀, fun fuel hfuel resp h rdataLength => ?_⟩
  rw [readRdata, if_neg (by rw [h]; decide), if_neg (by rw [h]; decide), if_neg (by rw [h]; decide),
    if_pos h]
  simp only [moveOn_eq _ hlt, hread fuel hfuel, Outcome.ok_bind]
  rfl

/-- The data of an answer: the response is that of the answer, and the rest of the data ends
where the data does. -/
lemma readRdata_eq (answer : Answer) {i n : ℕ} (h : HasRData recv size i n answer.rdata)
    (hn : n < 2 ^ 16) : ∃ f₀, ∀ fuel ≥ f₀, ∀ authoritative, ∃ n' i', i' + n' = i + n ∧
      readRdata recv size fuel ⟨answer.rdata.type, 0, answer.ttl / 2 ^ 16 * 2 ^ 16, 0, fun _ => 0,
        authoritative⟩ n i = .ok (response authoritative answer, n', i') := by
  rcases hr : answer.rdata with address | name | name | ⟨preference, name⟩
  · rw [hr] at h
    refine ⟨0, fun fuel _ authoritative => ⟨n, i, rfl, ?_⟩⟩
    rw [readRdata_a fuel rfl, h.2]
    simp only [response, hr]
    rfl
  · rw [hr] at h
    obtain ⟨f₀, hread⟩ := readRdata_name h
    refine ⟨f₀, fun fuel hfuel authoritative => ⟨n, i, rfl, ?_⟩⟩
    rw [hread fuel hfuel _ (Or.inl rfl)]
    simp only [response, hr]
    rfl
  · rw [hr] at h
    obtain ⟨f₀, hread⟩ := readRdata_name h
    refine ⟨f₀, fun fuel hfuel authoritative => ⟨n, i, rfl, ?_⟩⟩
    rw [hread fuel hfuel _ (Or.inr rfl)]
    simp only [response, hr]
    rfl
  · rw [hr] at h
    obtain ⟨hpref, h2, hname⟩ := h
    obtain ⟨f₀, hread⟩ := readRdata_mx hname
    refine ⟨f₀, fun fuel hfuel authoritative => ⟨(n + 2 ^ 16 - 2) % 2 ^ 16, i + 2, by omega, ?_⟩⟩
    rw [hread fuel hfuel _ rfl, hpref]
    simp only [response, hr]
    rfl

/-- **An answer of the packet** is filled in, and the index moves to its end. -/
lemma readAnswer_eq {i : ℕ} {answer : Answer} {answers : List Answer}
    (h : HasAnswers recv size i (answer :: answers)) : ∃ f₀ i', HasAnswers recv size i' answers ∧
      ∀ fuel ≥ f₀, ∀ authoritative buffer, ∃ buffer',
        readAnswer recv size fuel authoritative (answers.length = 0) i buffer =
          .ok (response authoritative answer, i', buffer') := by
  obtain ⟨n, rdataLength, hname, htype, hclass, httl, hlength, hrdata, hrest⟩ := h
  obtain ⟨f₁, hread⟩ := readName_eq (String × DnsResponse) hname
  obtain ⟨f₂, hdata⟩ := readRdata_eq answer hrdata (by rw [← hlength]; exact ntohsAt_lt _ _)
  have hlt := hrdata.lt hrest.le
  refine ⟨max f₁ f₂, _, hrest, fun fuel hfuel authoritative buffer =>
    ⟨poke buffer 0 (written answer.owner.labels answer.owner.dangling), ?_⟩⟩
  obtain ⟨n', i', hsum, hdata⟩ := hdata fuel (le_trans (le_max_right _ _) hfuel) authoritative
  have h0 : i + n < size := by omega
  have h2 : i + n + 2 < size := by omega
  have h10 : i + n + 2 + 8 < size := by omega
  simp only [readAnswer, hread fuel (le_trans (le_max_left _ _) hfuel), Outcome.ok_bind,
    moveOn_eq _ h0, moveOn_eq _ h2, readFields_eq _ hclass h10, DnsResponse.cleared, htype, httl,
    hlength, hdata]
  rw [dnsIncrementBufferIndex, hsum]
  by_cases hlast : answers = []
  · subst hlast
    cases decide (size ≤ i + n + 10 + rdataLength) <;> rfl
  · rw [decide_eq_false (not_le.2 (hrest.lt hlast))]
    cases decide (answers.length = 0) <;> rfl

/-- **The answers of the packet** are filled in. -/
lemma readAnswers_eq : ∀ {answers : List Answer} {i : ℕ}, HasAnswers recv size i answers →
    ∃ f₀, ∀ fuel ≥ f₀, ∀ authoritative buffer,
      readAnswers recv size fuel authoritative answers.length i buffer =
        some (answers.map (response authoritative), none) := by
  intro answers
  induction answers with
  | nil => intro i _; exact ⟨0, fun fuel _ authoritative buffer => rfl⟩
  | cons answer answers ih =>
      intro i h
      obtain ⟨f₁, i', hrest, hread⟩ := readAnswer_eq h
      obtain ⟨f₂, ih⟩ := ih hrest
      refine ⟨max f₁ f₂, fun fuel hfuel authoritative buffer => ?_⟩
      obtain ⟨buffer', hread⟩ := hread fuel (le_trans (le_max_left _ _) hfuel) authoritative buffer
      rw [List.length_cons, readAnswers, hread]
      simp only
      rw [ih fuel (le_trans (le_max_right _ _) hfuel), Option.map_some, List.map_cons]

/-- The text left in a buffer is terminated if the name is not dangling; nothing is written of
the root. -/
lemma hasText_poke {i n : ℕ} {name : Name} (h : HasName recv size i name n) (m : Bytes) :
    HasText (poke m 0 (written name.labels name.dangling)) name.labels ↔
      name.dangling = false ∧ (name.labels = [] → m 0 = 0) := by
  by_cases hls : name.labels = []
  · have hd : name.dangling = false := by
      have hname := h.1
      rw [hls] at hname
      exact hname.not_dangling
    simp [HasText, hls, written, text, slice, hd]
  · have hslice : slice (poke m 0 (written name.labels name.dangling)) 0
        ((text name.labels).length + 1) = written name.labels name.dangling := by
      have hlen : (written name.labels name.dangling).length = (text name.labels).length + 1 := by
        simp [written, hls]
      rw [← hlen, slice_poke]
    rw [HasText, hslice, written, if_neg hls, List.append_cancel_left_eq]
    cases name.dangling <;> simp [hls, PERIOD]

/-- The response filled in for an answer has what the answer says exactly if the low 16 bits of
the TTL are zero and the name of the data is not dangling. -/
lemma decodes_response_iff {i n : ℕ} {answer : Answer} (h : HasRData recv size i n answer.rdata)
    (authoritative : Bool) : Decodes answer (response authoritative answer) ↔
      answer.ttl % 2 ^ 16 = 0 ∧ ∀ name ∈ answer.rdata.name, name.dangling = false := by
  obtain ⟨owner, ttl, rdata⟩ := answer
  have httl : ttl / 65536 * 65536 = ttl ↔ ttl % 65536 = 0 := by omega
  cases rdata with
  | a address => simp [Decodes, response, RData.name, httl]
  | ns name => simp [Decodes, response, RData.name, httl, nameBuffer, hasText_poke h]
  | cname name => simp [Decodes, response, RData.name, httl, nameBuffer, hasText_poke h]
  | mx preference name =>
      simp [Decodes, response, RData.name, httl, nameBuffer, hasText_poke h.2.2]

lemma HasAnswers.rdata : ∀ {answers : List Answer} {i : ℕ}, HasAnswers recv size i answers →
    ∀ answer ∈ answers, ∃ i' n, HasRData recv size i' n answer.rdata := by
  intro answers
  induction answers with
  | nil => intro i _ answer hmem; simp at hmem
  | cons a as ih =>
      rintro i ⟨n, rdataLength, -, -, -, -, -, hrdata, hrest⟩ answer hmem
      rcases List.mem_cons.1 hmem with rfl | hmem
      · exact ⟨_, _, hrdata⟩
      · exact ih hrest answer hmem

end

section
variable {data : SessionHandle} {question : Name} {answers : List Answer}

lemma IsResponse.headerError_eq (h : IsResponse data question answers) : headerError data = none := by
  have hcount : ¬ ntohsAt data.recv 6 < 1 := by
    rw [h.anCount]
    have := h.count_pos
    omega
  simp [headerError, h.id, h.qr, h.tc, h.ra, h.rcode, hcount, DNS_FORMAT_ERROR, DNS_SERVER_FAILURE,
    DNS_NOT_IMPLEMENTED, DNS_REFUSED, DNS_NAME_ERROR]

/-- **The result on a well-formed response.**  It depends on whether the question has been read
as a string and on `malloc`. -/
lemma IsResponse.parse_eq (h : IsResponse data question answers) (malloc : Bool) (stack : Bytes) :
    ∃ authoritative f₀, ∀ fuel ≥ f₀, dnsParseResponse malloc stack fuel data =
      if question.dangling = false ∧ (question.labels = [] → stack 0 = 0) then
        if malloc = false then some (.MRJE_OUT_OF_MEMORY,
          some "unable to allocate memory for response",
          { data with answerCount := answers.length, resps := [] })
        else some (.MRJE_OK, none, { data with
          answerCount := answers.length, resps := answers.map (response authoritative) })
      else some (.MRJE_FUNC_PARSE_ERR, some "the response domain does not match the request", data) := by
  obtain ⟨n, hname, hanswers⟩ := h.sections
  have hne : answers ≠ [] := by
    have := h.count_pos
    rintro rfl
    simp at this
  have hlt := hanswers.lt hne
  obtain ⟨f₁, hread⟩ := readName_eq Unit hname
  obtain ⟨f₂, hfill⟩ := readAnswers_eq hanswers
  refine ⟨decide (ntohsAt data.recv 2 &&& DNS_AUTH_ANS ≠ 0), max f₁ f₂, fun fuel hfuel => ?_⟩
  have hquestion : dnsReadResponseDomainname data.recv data.recvLen fuel headerSize stack =
      some (some n, poke stack 0 (written question.labels question.dangling)) := by
    have hr := hread fuel (le_trans (le_max_left _ _) hfuel) (fun _ => ()) stack
    rw [readName] at hr
    split at hr
    · simp at hr
    · simp at hr
    · next heq =>
        simp only [Outcome.ok.injEq, Prod.mk.injEq] at hr
        rw [heq, hr.1, hr.2]
  have hmin : min (ntohsAt data.recv 6) MAX_AN_COUNT = answers.length := by
    rw [h.anCount]
    exact min_eq_left h.count_le
  rw [dnsParseResponse, if_neg (by have := hname.1.pos_lt; omega), h.headerError_eq]
  simp only [hquestion, hmin]
  rw [if_neg (by omega), h.requested]
  have htext := hasText_poke hname stack
  rw [HasText] at htext
  by_cases hq : question.dangling = false ∧ (question.labels = [] → stack 0 = 0)
  · rw [if_neg (not_not.2 (htext.2 hq)), if_pos hq, if_neg (by omega),
      hfill fuel (le_trans (le_max_right _ _) hfuel)]
    rfl
  · rw [if_pos fun hc => hq (htext.1 hc), if_neg hq]

end

/-- **Decoding of a response.**  For every well-formed response to the pending request,
`dns_parse_response` returns `MRJE_OK` and fills in exactly the answers of the packet if and
only if the memory for them is allocated, the question is not written in a dangling way and is
not the root (or the uninitialised buffer happens to start with a zero), and every answer has a
TTL whose low 16 bits are zero and no dangling name in its data. -/
theorem dns_response_decoded_iff (data : SessionHandle) (question : Name) (answers : List Answer)
    (h : IsResponse data question answers) (malloc : Bool) (stack : Bytes) :
    (∃ f₀, ∀ fuel ≥ f₀, ∃ data', dnsParseResponse malloc stack fuel data = some (.MRJE_OK, none, data') ∧
      data'.answerCount = answers.length ∧ List.Forall₂ Decodes answers data'.resps) ↔
    malloc = true ∧ question.dangling = false ∧ (question.labels = [] → stack 0 = 0) ∧
      ∀ answer ∈ answers, answer.ttl % 2 ^ 16 = 0 ∧
        ∀ name ∈ answer.rdata.name, name.dangling = false := by
  obtain ⟨authoritative, f₀, hparse⟩ := h.parse_eq malloc stack
  obtain ⟨n, -, hanswers⟩ := h.sections
  have hdecodes : List.Forall₂ Decodes answers (answers.map (response authoritative)) ↔
      ∀ answer ∈ answers, answer.ttl % 2 ^ 16 = 0 ∧
        ∀ name ∈ answer.rdata.name, name.dangling = false := by
    rw [List.forall₂_map_right_iff, List.forall₂_same]
    refine forall₂_congr fun answer hmem => ?_
    obtain ⟨i', n', hrdata⟩ := hanswers.rdata answer hmem
    exact decodes_response_iff hrdata authoritative
  constructor
  · rintro ⟨f₁, hall⟩
    obtain ⟨data', hdata', -, hforall⟩ := hall (max f₀ f₁) (le_max_right _ _)
    rw [hparse _ (le_max_left _ _)] at hdata'
    split at hdata'
    · next hq =>
        split at hdata'
        · simp at hdata'
        · next hm =>
            simp only [Option.some.injEq, Prod.mk.injEq, true_and] at hdata'
            rw [← hdata'] at hforall
            exact ⟨by simpa using hm, hq.1, hq.2, hdecodes.1 hforall⟩
    · simp at hdata'
  · rintro ⟨hm, hd, hroot, hall⟩
    refine ⟨f₀, fun fuel hfuel => ⟨{ data with
      answerCount := answers.length, resps := answers.map (response authoritative) }, ?_, rfl,
      hdecodes.2 hall⟩⟩
    rw [hparse fuel hfuel, if_pos ⟨hd, hroot⟩, if_neg (by simp [hm])]

/-- A session that asked for the address of `a` and has received the answer 1.2.3.4 with the
given TTL. -/
def sampleSession (t₀ t₁ t₂ t₃ : UInt8) : SessionHandle where
  recv i := [0x12, 0x34, 0x81, 0x80, 0x00, 0x01, 0x00, 0x01, 0x00, 0x00, 0x00, 0x00,
    0x01, 0x61, 0x00, 0x00, 0x01, 0x00, 0x01,
    0xC0, 0x0C, 0x00, 0x01, 0x00, 0x01, t₀, t₁, t₂, t₃, 0x00, 0x04, 0x01, 0x02, 0x03, 0x04].getD i 0
  recvLen := 35
  domainName := [0x61]
  requestId := 0x1234
  answerCount := 0
  resps := []

/-- The question of the sample session. -/
def sampleName : Name := ⟨[[0x61]], false⟩

/-- The answer of the sample session. -/
def sampleAnswer (t₀ t₁ t₂ t₃ : UInt8) : Answer :=
  ⟨sampleName, beNat [t₀, t₁, t₂, t₃], .a 0x01020304⟩

lemma isResponse_sampleSession (t₀ t₁ t₂ t₃ : UInt8) :
    IsResponse (sampleSession t₀ t₁ t₂ t₃) sampleName [sampleAnswer t₀ t₁ t₂ t₃] := by
  have hname : NameAt (sampleSession t₀ t₁ t₂ t₃).recv 35 12 [[0x61]] false 3 :=
    .label (by decide) (by decide) rfl rfl (.root (by decide) rfl)
  have hptr : ntohsAt (sampleSession t₀ t₁ t₂ t₃).recv 19 = 0xC00C := rfl
  have htarget : ntohsAt (sampleSession t₀ t₁ t₂ t₃).recv 19 % 2 ^ 14 = 12 := by
    rw [hptr]
    decide
  have howner : NameAt (sampleSession t₀ t₁ t₂ t₃).recv 35 19 [[0x61]] false 2 :=
    .pointer (by decide) (show 192 ≤ 192 from le_rfl) htarget (by decide) hname
  have hlen : wireLength sampleName.labels ≤ 255 := by decide
  have haddr : beNat (slice (sampleSession t₀ t₁ t₂ t₃).recv 31 4) = 0x01020304 := by
    show beNat [0x01, 0x02, 0x03, 0x04] = 0x01020304
    decide +kernel
  have hflags : ntohsAt (sampleSession t₀ t₁ t₂ t₃).recv 2 = 0x8180 := rfl
  refine ⟨rfl, by rw [hflags]; decide, by rw [hflags]; decide, by rw [hflags]; decide,
    by rw [hflags]; decide, rfl, rfl, by simp, by simp [MAX_AN_COUNT], rfl, 3, ⟨hname, hlen⟩,
    2, 4, ⟨howner, hlen⟩, rfl, rfl, rfl, rfl, ⟨rfl, haddr⟩, ?_⟩
  show 35 ≤ 35
  exact le_rfl

/-- A TTL of 65536 seconds. -/
theorem dns_response_decoded_sample : ∃ f₀, ∀ fuel ≥ f₀, ∃ data',
    dnsParseResponse true (fun _ => 0) fuel (sampleSession 0 1 0 0) = some (.MRJE_OK, none, data') ∧
      data'.answerCount = 1 ∧ List.Forall₂ Decodes [sampleAnswer 0 1 0 0] data'.resps := by
  refine (dns_response_decoded_iff _ _ _ (isResponse_sampleSession 0 1 0 0) true fun _ => 0).2
    ⟨rfl, rfl, fun _ => rfl, ?_⟩
  intro answer hmem
  rw [List.mem_singleton.1 hmem]
  exact ⟨by decide, by simp [sampleAnswer, RData.name]⟩

/-- **The TTL is cut.**  An answer with a TTL of 300 seconds is filled in with the cache time 0. -/
theorem cache_time_cut :
    IsResponse (sampleSession 0 0 1 44) sampleName [sampleAnswer 0 0 1 44] ∧
    (sampleAnswer 0 0 1 44).ttl = 300 ∧
    ((dnsParseResponse true (fun _ => 0) 10 (sampleSession 0 0 1 44)).any fun r =>
      decide (r.1 = .MRJE_OK ∧ r.2.2.resps.map (·.cacheTime) = [0])) = true :=
  ⟨isResponse_sampleSession 0 0 1 44, by decide, by decide +kernel⟩

end DeviceTools.Dns
