/-
The jobs of the DNS client.

A job asks one of two servers for the address of a domain name.  A variable with static storage says which
server is next: `dns_set_serverip` takes the two in turn.  The first address of the response is written as
a dotted quad to an array of 16 bytes, with a `snprintf` that is given one byte less than the array has,
and goes into the cache.
-/
import DeviceTools.Dns.Cache
import DeviceTools.Dns.Decoding
import DeviceTools.Dns.DottedQuad
import DeviceTools.Dns.Request

namespace DeviceTools.Dns

open Memory

/-! ### The text of an address -/

/-- The last decimal digit of a number. -/
def digit (n : ℕ) : UInt8 := UInt8.ofNat (0x30 + n % 10)

/-- A byte as `%d` prints it. -/
def printByte (n : ℕ) : List UInt8 :=
  if n < 10 then [digit n]
  else if n < 100 then [digit (n / 10), digit n]
  else [digit (n / 100), digit (n / 10), digit n]

/-- The byte `segments[i]` of `ipaddr`. -/
def segment (ipaddr i : ℕ) : ℕ := ipaddr / 256 ^ i % 256

/-- The first three segments with the dots behind them. -/
def networkText (ipaddr : ℕ) : List UInt8 :=
  printByte (segment ipaddr 3) ++ PERIOD :: (printByte (segment ipaddr 2) ++
    PERIOD :: (printByte (segment ipaddr 1) ++ [PERIOD]))

/-- An address in the format `"%d.%d.%d.%d"`. -/
def addressText (ipaddr : ℕ) : List UInt8 := networkText ipaddr ++ printByte (segment ipaddr 0)

/-- What `dns_format_ipaddress` writes in front of the zero: `snprintf` is given `ip_buf_len - 1`. -/
def formatted (ipaddr ipBufLen : ℕ) : List UInt8 := (addressText ipaddr).take (ipBufLen - 1 - 1)

lemma digit_toNat (n : ℕ) : (digit n).toNat = 0x30 + n % 10 := by
  rw [digit, UInt8.toNat_ofNat']
  omega

lemma isDigit_digit (n : ℕ) : isDigit (digit n) = true := by
  have h := digit_toNat n
  simp only [isDigit, Bool.and_eq_true, decide_eq_true_eq, UInt8.le_iff_toNat_le, h]
  exact ⟨Nat.le_add_right _ _, show 0x30 + n % 10 ≤ 0x39 by omega⟩

lemma digitsValue_concat_digit (ds : List UInt8) (n : ℕ) :
    digitsValue (ds ++ [digit n]) = 10 * digitsValue ds + n % 10 := by
  rw [digitsValue_append_one, digit_toNat, Nat.add_sub_cancel_left]

lemma length_printByte (n : ℕ) : 1 ≤ (printByte n).length ∧ (printByte n).length ≤ 3 ∧
    ((printByte n).length = 3 ↔ 100 ≤ n) := by
  rw [printByte]
  split_ifs <;> simp <;> omega

lemma isDigit_printByte (n : ℕ) : ∀ c ∈ printByte n, isDigit c = true := by
  rw [printByte]
  split_ifs <;> simp [isDigit_digit]

lemma digitsValue_printByte {n : ℕ} (h : n < 256) : digitsValue (printByte n) = n := by
  have hnil : digitsValue [] = 0 := rfl
  have hone (a : ℕ) : digitsValue [digit a] = a % 10 := by
    rw [← List.nil_append [digit a], digitsValue_concat_digit, hnil]
    omega
  have htwo (a b : ℕ) : digitsValue [digit a, digit b] = 10 * (a % 10) + b % 10 := by
    rw [← hone a]
    exact digitsValue_concat_digit [digit a] b
  have hthree (a b c : ℕ) : digitsValue [digit a, digit b, digit c] = 10 * (10 * (a % 10) + b % 10) + c % 10 := by
    rw [← htwo a b]
    exact digitsValue_concat_digit [digit a, digit b] c
  rw [printByte]
  split_ifs
  · rw [hone]
    omega
  · rw [htwo]
    omega
  · rw [hthree]
    omega

/-- A byte is a group, and so are its first digits. -/
lemma isGroup_take_printByte {n k : ℕ} (h : n < 256) (hk : 0 < k) : IsGroup ((printByte n).take k) where
  length_le := (List.length_take_le' k _).trans (length_printByte n).2.1
  digits c hc := isDigit_printByte n c (List.mem_of_mem_take hc)
  ne_nil := by
    have hpos := (length_printByte n).1
    rw [← List.length_pos_iff, List.length_take]
    omega
  value_le := by
    have hvalue := digitsValue_printByte h
    have hle := digitsValue_le_append ((printByte n).take k) ((printByte n).drop k)
    rw [List.take_append_drop] at hle
    omega

lemma isGroup_printByte {n : ℕ} (h : n < 256) : IsGroup (printByte n) := by
  have hgroup := isGroup_take_printByte h (k := 3) (by decide)
  rwa [List.take_of_length_le (length_printByte n).2.1] at hgroup

lemma segment_lt (ipaddr i : ℕ) : segment ipaddr i < 256 := Nat.mod_lt _ (by decide)

lemma length_networkText (ipaddr : ℕ) : (networkText ipaddr).length =
    (printByte (segment ipaddr 3)).length + (printByte (segment ipaddr 2)).length +
      (printByte (segment ipaddr 1)).length + 3 := by
  simp only [networkText, List.length_append, List.length_cons, List.length_nil]
  omega

lemma formatted_eq (ipaddr : ℕ) : formatted ipaddr MAX_IP_STRING_SIZE =
    networkText ipaddr ++ (printByte (segment ipaddr 0)).take (14 - (networkText ipaddr).length) := by
  have h₃ := (length_printByte (segment ipaddr 3)).2.1
  have h₂ := (length_printByte (segment ipaddr 2)).2.1
  have h₁ := (length_printByte (segment ipaddr 1)).2.1
  have hlen := length_networkText ipaddr
  rw [formatted, addressText, List.take_append, List.take_of_length_le]
  · rfl
  · show (networkText ipaddr).length ≤ 14
    omega

/-- **What is written is an address**, also if it is cut. -/
lemma isDottedQuad_formatted (ipaddr : ℕ) : IsDottedQuad (formatted ipaddr MAX_IP_STRING_SIZE) := by
  have h₃ := (length_printByte (segment ipaddr 3)).2.1
  have h₂ := (length_printByte (segment ipaddr 2)).2.1
  have h₁ := (length_printByte (segment ipaddr 1)).2.1
  have hlen := length_networkText ipaddr
  refine ⟨printByte (segment ipaddr 3), printByte (segment ipaddr 2), printByte (segment ipaddr 1), _, ?_,
    isGroup_printByte (segment_lt _ _), isGroup_printByte (segment_lt _ _), isGroup_printByte (segment_lt _ _),
    isGroup_take_printByte (segment_lt ipaddr 0) (by omega : 0 < 14 - (networkText ipaddr).length)⟩
  rw [formatted_eq]
  simp [networkText]

/-- **The address is cut** if all its segments have three digits. -/
lemma formatted_eq_iff (ipaddr : ℕ) :
    formatted ipaddr MAX_IP_STRING_SIZE = addressText ipaddr ↔ ∃ i < 4, segment ipaddr i < 100 := by
  have h₃ := length_printByte (segment ipaddr 3)
  have h₂ := length_printByte (segment ipaddr 2)
  have h₁ := length_printByte (segment ipaddr 1)
  have h₀ := length_printByte (segment ipaddr 0)
  have hlen : (addressText ipaddr).length = (printByte (segment ipaddr 3)).length +
      (printByte (segment ipaddr 2)).length + (printByte (segment ipaddr 1)).length + 3 +
      (printByte (segment ipaddr 0)).length := by
    rw [addressText, List.length_append, length_networkText]
  rw [formatted, List.take_eq_self_iff, hlen]
  show _ ≤ 14 ↔ _
  constructor
  · intro hle
    by_contra hall
    have hsegment : ∀ i < 4, 100 ≤ segment ipaddr i := fun i hi => not_lt.1 fun h => hall ⟨i, hi, h⟩
    have e₃ := h₃.2.2.2 (hsegment 3 (by decide))
    have e₂ := h₂.2.2.2 (hsegment 2 (by decide))
    have e₁ := h₁.2.2.2 (hsegment 1 (by decide))
    have e₀ := h₀.2.2.2 (hsegment 0 (by decide))
    omega
  · rintro ⟨i, hi, hsmall⟩
    have hne : (printByte (segment ipaddr i)).length ≠ 3 := fun h =>
      absurd ((length_printByte (segment ipaddr i)).2.2.1 h) (not_le.2 hsmall)
    interval_cases i <;> omega

/-- Of `192.168.100.200` the last digit is missing. -/
example : formatted 0xC0A864C8 MAX_IP_STRING_SIZE =
    [0x31, 0x39, 0x32, 0x2E, 0x31, 0x36, 0x38, 0x2E, 0x31, 0x30, 0x30, 0x2E, 0x32, 0x30] := by decide

lemma zero_notMem_formatted (ipaddr ipBufLen : ℕ) : 0 ∉ formatted ipaddr ipBufLen := by
  intro h
  have hmem := List.mem_of_mem_take h
  have hbyte : ∀ n, 0 ∉ printByte n := fun n hn => absurd (isDigit_printByte n 0 hn) (by decide)
  have hperiod : (0 : UInt8) ≠ PERIOD := by decide
  simp [addressText, networkText, hbyte, hperiod] at hmem

lemma length_formatted_le (ipaddr : ℕ) : (formatted ipaddr MAX_IP_STRING_SIZE).length ≤ 15 :=
  (List.length_take_le _ _).trans (by decide)


/-! ### The functions -/

/-- A string, without its terminating zero. -/
def CString := { s : List UInt8 // 0 ∉ s }

/-- The `result_ip` of a session: a string in its array. -/
structure ResultIp where
  text : List UInt8
  zero_notMem : 0 ∉ text
  length_le : text.length ≤ 15

lemma zero_notMem_cleared : (0 : UInt8) ∉ [] := List.not_mem_nil

/-- The array after `memset`. -/
def ResultIp.cleared : ResultIp := ⟨[], zero_notMem_cleared, Nat.zero_le _⟩

/-- `dns_format_ipaddress`, to `result_ip`. -/
def dnsFormatIpaddress (ipaddr : ℕ) : ResultIp :=
  ⟨formatted ipaddr MAX_IP_STRING_SIZE, zero_notMem_formatted _ _, length_formatted_le _⟩

/-- The loop of `dns_get_result` over the responses, up to their count.  There is no result if it reads behind
the array. -/
def getResultLoop : ℕ → List DnsResponse → ResultIp → Option (MRJEcode × ResultIp)
  | 0, _, resultIp => some (.MRJE_UNKNOW, resultIp)
  | _ + 1, [], _ => none
  | count + 1, resp :: resps, resultIp =>
      if resp.responseType = DNS_A_RECORD then
        let resultIp := dnsFormatIpaddress resp.ipAddress
        if dnsIsip (some resultIp.text) = .MRJE_OK then some (.MRJE_OK, resultIp)
        else getResultLoop count resps resultIp
      else getResultLoop count resps resultIp

/-- `dns_get_result`. -/
def dnsGetResult (data : SessionHandle) (resultIp : ResultIp) : Option (MRJEcode × ResultIp) :=
  getResultLoop data.answerCount data.resps resultIp

/-- The strings that a job sets. -/
structure Useset where
  server1 : Option CString
  server2 : Option CString
  domainName : Option CString

/-- The options of `dns_setopt` that are strings. -/
inductive DNSoption where
  | DNSOPT_SERVER_1
  | DNSOPT_SERVER_2
  | DNSOPT_DOMAIN_NAME

/-- `dns_setstropt`, with whether `strdup` finds memory. -/
def dnsSetstropt (strdup : Bool) (s : CString) : MRJEcode × Option CString :=
  if strdup then (.MRJE_OK, some s) else (.MRJE_OUT_OF_MEMORY, none)

/-- `dns_setopt`. -/
def dnsSetopt (useset : Useset) (strdup : Bool) : DNSoption → CString → MRJEcode × Useset
  | .DNSOPT_SERVER_1, s =>
      if dnsIsip (some s.1) ≠ .MRJE_OK then (.MRJE_BAD_FUNCTION_ARGUMENT, useset)
      else
        let r := dnsSetstropt strdup s
        (r.1, { useset with server1 := r.2 })
  | .DNSOPT_SERVER_2, s =>
      if dnsIsip (some s.1) ≠ .MRJE_OK then (.MRJE_BAD_FUNCTION_ARGUMENT, useset)
      else
        let r := dnsSetstropt strdup s
        (r.1, { useset with server2 := r.2 })
  | .DNSOPT_DOMAIN_NAME, s =>
      let r := dnsSetstropt strdup s
      (r.1, { useset with domainName := r.2 })

/-- `dns_set_serverip`: the code, the server and `now_serv`.  If there is only one server it is taken always. -/
def dnsSetServerip (useset : Useset) (nowServ : ℕ) :
    MRJEcode × CharArray MAX_IP_STRING_SIZE × ℕ :=
  let server := CharArray.cleared MAX_IP_STRING_SIZE
  let copied (s : CString) := server.strncpy s.1 (MAX_IP_STRING_SIZE - 1)
  match useset.server1, useset.server2 with
  | none, none => (.MRJE_BAD_FUNCTION_ARGUMENT, server, nowServ)
  | some s, none => (.MRJE_OK, copied s, if nowServ = 1 then 2 else 1)
  | none, some s => (.MRJE_OK, copied s, if nowServ = 1 then 2 else 1)
  | some s₁, some s₂ =>
      if nowServ = 1 then (.MRJE_OK, copied s₂, 2)
      else if nowServ = 2 then (.MRJE_OK, copied s₁, 1)
      else (.MRJE_OK, copied s₁, 1)

/-- What the calls of a job return. -/
structure Env where
  /-- Whether `malloc` and `strdup` find memory for the session and its strings. -/
  session : Bool
  server1 : Bool
  server2 : Bool
  domainName : Bool
  socket : ℤ
  /-- The block for the request, and the number for its id. -/
  send : Option Bytes
  rand : ℕ
  sendto : ℤ
  /-- The block for the response. -/
  recv : Option Bytes
  select : ℤ
  rset : Bool
  eset : Bool
  recvfrom : ℤ
  packet : Bytes
  /-- Whether there is memory for the answers. -/
  resps : Bool
  /-- What is in the uninitialised name buffer of `dns_parse_response`. -/
  stack : Bytes
  dnsRand : ℕ

/-- A `ssize_t` in a variable of type `size_t`. -/
def toSizeT (n : ℤ) : ℕ := (n % 2 ^ 32).toNat

/-- `dns_open_socket`. -/
def dnsOpenSocket (env : Env) : Outcome MRJEcode Unit :=
  if env.socket < 0 then .error .MRJE_FUNC_SOCKET_ERR else .ok ()

/-- `dns_send_request_packet`. -/
def dnsSendRequestPacket (env : Env) (data : RequestHandle) : Outcome MRJEcode Unit :=
  if toSizeT env.sendto ≠ data.sendLen then .error .MRJE_SEND_ERR else .ok ()

/-- `dns_select`. -/
def dnsSelect (env : Env) : Outcome MRJEcode Unit :=
  if env.select = 0 then .error .MRJE_TIMEOUT
  else if env.select < 0 ∨ env.eset = true then .error .MRJE_FUNC_SELECT_ERR
  else if env.rset = true then .ok ()
  else .error .MRJE_FUNC_SELECT_ERR

/-- `dns_recv_response_packet`: the response with a zero behind it, and its length.  If `recvfrom` fails the
length is not less than that of a header, and the zero is stored outside of the block. -/
def dnsRecvResponsePacket (env : Env) : Outcome MRJEcode (Bytes × ℕ) :=
  match env.recv with
  | none => .error .MRJE_OUT_OF_MEMORY
  | some block => do
      dnsSelect env
      let bytesRecv := toSizeT env.recvfrom
      if bytesRecv < headerSize then .error .MRJE_RECV_ERR
      else if RESPONSE_BUFFER_SIZE ≤ bytesRecv then .undefined
      else pure (poke block 0 (slice env.packet 0 bytesRecv ++ [0]), bytesRecv)

/-- A code that is not `MRJE_OK` ends the transfer. -/
def checked {α β : Type} (f : α → β) : Option (MRJEcode × α) → Outcome MRJEcode β
  | none => .undefined
  | some (.MRJE_OK, a) => .ok (f a)
  | some (code, _) => .error code

/-- The part of `dns_transfer` from `dns_open_socket` to `dns_build_request_packet`. -/
def request (env : Env) (name : CString) : Outcome MRJEcode RequestHandle := do
  dnsOpenSocket env
  checked Prod.snd (dnsBuildRequestPacket env.send env.rand ⟨name.1, name.2, DNS_A_RECORD, 0, none, 0⟩)

/-- The part of `dns_transfer` from `dns_send_request_packet` to `dns_get_result`. -/
def answer (fuel : ℕ) (env : Env) (data : RequestHandle) : Outcome MRJEcode ResultIp := do
  dnsSendRequestPacket env data
  let (recv, recvLen) ← dnsRecvResponsePacket env
  let session ← checked Prod.snd
    (dnsParseResponse env.resps env.stack fuel ⟨recv, recvLen, data.domainName, data.requestId, 0, []⟩)
  checked id (dnsGetResult session .cleared)

/-- The variables with static storage, and the servers and the packets of the calls of `sendto`. -/
structure Client where
  nowServ : ℕ
  cache : CacheState
  sent : List (List UInt8 × List UInt8)

/-- The client at the start of the program. -/
def Client.start : Client := ⟨0, .start, []⟩

/-- `dns_transfer`. -/
def dnsTransfer (fuel : ℕ) (env : Env) (useset : Useset) (c : Client) : Option (MRJEcode × Client) :=
  match useset.domainName with
  | none => none
  | some name =>
      if h : MAX_DOMAIN_LENGTH < name.1.length then some (.MRJE_BAD_FUNCTION_ARGUMENT, c)
      else
        let (code, server, nowServ) := dnsSetServerip useset c.nowServ
        let c := { c with nowServ }
        if code ≠ .MRJE_OK then some (code, c)
        else match request env name with
        | .undefined => none
        | .error code => some (code, c)
        | .ok data =>
            let packet := data.send.elim [] fun send => slice send 0 data.sendLen
            let c := { c with sent := c.sent ++ [(server.text, packet)] }
            match answer fuel env data with
            | .undefined => none
            | .error code => some (code, c)
            | .ok resultIp =>
                (dnsUpdataCache c.cache ⟨name.1, resultIp.text, env.dnsRand, name.2, resultIp.zero_notMem,
                  not_lt.1 h, resultIp.length_le⟩).map fun cache => (.MRJE_OK, { c with cache })

/-- The address `202.96.134.133`. -/
def servIpFirst : CString :=
  ⟨[0x32, 0x30, 0x32, 0x2E, 0x39, 0x36, 0x2E, 0x31, 0x33, 0x34, 0x2E, 0x31, 0x33, 0x33], by decide⟩

/-- The address `8.8.8.8`. -/
def servIpLast : CString := ⟨[0x38, 0x2E, 0x38, 0x2E, 0x38, 0x2E, 0x38], by decide⟩

/-- `mrj_dns_jobs`; the name `none` is the null pointer. -/
def mrjDnsJobs (fuel : ℕ) (c : Client) (pDomainName : Option CString) (env : Env) : Option (ℤ × Client) :=
  match pDomainName with
  | none => some (-1, c)
  | some name =>
      if env.session = false then some (-1, c)
      else
        let useset := (dnsSetopt ⟨none, none, none⟩ env.server1 .DNSOPT_SERVER_1 servIpFirst).2
        let useset := (dnsSetopt useset env.server2 .DNSOPT_SERVER_2 servIpLast).2
        let useset := (dnsSetopt useset env.domainName .DNSOPT_DOMAIN_NAME name).2
        (dnsTransfer fuel env useset c).map fun r => (if r.1 = .MRJE_OK then 0 else -1, r.2)


/-! ### One job -/

lemma checked_eq_ok {α β : Type} {f : α → β} {r : Option (MRJEcode × α)} {b : β} (h : checked f r = .ok b) :
    ∃ a, r = some (.MRJE_OK, a) ∧ f a = b := by
  rcases r with _ | ⟨code, a⟩
  · cases h
  · cases code <;> first | exact ⟨a, rfl, Outcome.ok.inj h⟩ | cases h

/-- What `dns_get_result` accepts it has written. -/
lemma isDottedQuad_getResultLoop {count : ℕ} : ∀ {resps : List DnsResponse} {resultIp r : ResultIp},
    getResultLoop count resps resultIp = some (.MRJE_OK, r) → IsDottedQuad r.text := by
  induction count with
  | zero =>
      intro resps resultIp r h
      cases congrArg (Option.map Prod.fst) h
  | succ count ih =>
      intro resps resultIp r h
      cases resps with
      | nil => cases h
      | cons resp resps =>
          rw [getResultLoop] at h
          dsimp only at h
          split_ifs at h
          · rw [← (Prod.mk.inj (Option.some.inj h)).2]
            exact isDottedQuad_formatted _
          · exact ih h
          · exact ih h

lemma isDottedQuad_answer {fuel : ℕ} {env : Env} {data : RequestHandle} {r : ResultIp}
    (h : answer fuel env data = .ok r) : IsDottedQuad r.text := by
  obtain ⟨-, -, h⟩ := Outcome.ok_of_bind h
  obtain ⟨⟨recv, recvLen⟩, -, h⟩ := Outcome.ok_of_bind h
  obtain ⟨session, -, h⟩ := Outcome.ok_of_bind h
  obtain ⟨r', hr', rfl⟩ := checked_eq_ok h
  exact isDottedQuad_getResultLoop hr'

lemma useset_eq (env : Env) (name : CString) :
    (dnsSetopt (dnsSetopt (dnsSetopt ⟨none, none, none⟩ env.server1 .DNSOPT_SERVER_1 servIpFirst).2
        env.server2 .DNSOPT_SERVER_2 servIpLast).2 env.domainName .DNSOPT_DOMAIN_NAME name).2 =
      ⟨if env.server1 then some servIpFirst else none, if env.server2 then some servIpLast else none,
        if env.domainName then some name else none⟩ := by
  have hfirst : dnsIsip (some servIpFirst.1) = .MRJE_OK := by decide
  have hlast : dnsIsip (some servIpLast.1) = .MRJE_OK := by decide
  cases env.server1 <;> cases env.server2 <;> cases env.domainName <;>
    simp [dnsSetopt, dnsSetstropt, hfirst, hlast]

/-- A job: the name, and what its calls return. -/
structure Job where
  pDomainName : Option CString
  env : Env

/-- The client after a job. -/
def jobStep (fuel : ℕ) (c : Client) (job : Job) : Option Client :=
  (mrjDnsJobs fuel c job.pDomainName job.env).map Prod.snd

lemma dnsTransfer_cases {fuel : ℕ} {env : Env} {useset : Useset} {c c' : Client} {code : MRJEcode}
    (h : dnsTransfer fuel env useset c = some (code, c')) :
    c'.cache = c.cache ∨ ∃ u, dnsUpdataCache c.cache u = some c'.cache ∧ IsDottedQuad u.resultIp := by
  rw [dnsTransfer] at h
  cases hname : useset.domainName with
  | none =>
      rw [hname] at h
      cases h
  | some name =>
      rw [hname] at h
      dsimp only at h
      split_ifs at h with hlen hcode
      · cases h
        exact Or.inl rfl
      · cases h
        exact Or.inl rfl
      · cases hrequest : request env name with
        | undefined =>
            rw [hrequest] at h
            cases h
        | error code =>
            rw [hrequest] at h
            cases h
            exact Or.inl rfl
        | ok data =>
            rw [hrequest] at h
            dsimp only at h
            cases hanswer : answer fuel env data with
            | undefined =>
                rw [hanswer] at h
                cases h
            | error code =>
                rw [hanswer] at h
                cases h
                exact Or.inl rfl
            | ok resultIp =>
                rw [hanswer] at h
                obtain ⟨cache, hcache, heq⟩ := Option.map_eq_some_iff.1 h
                cases heq
                exact Or.inr ⟨_, hcache, isDottedQuad_answer hanswer⟩

/-- **A job** leaves the cache, or puts a dotted quad into it. -/
lemma jobStep_cases {fuel : ℕ} {c c' : Client} {job : Job} (h : jobStep fuel c job = some c') :
    c'.cache = c.cache ∨ ∃ u, dnsUpdataCache c.cache u = some c'.cache ∧ IsDottedQuad u.resultIp := by
  obtain ⟨r, hr, rfl⟩ := Option.map_eq_some_iff.1 h
  obtain ⟨pDomainName, env⟩ := job
  cases pDomainName with
  | none =>
      rw [← Option.some.inj hr]
      exact Or.inl rfl
  | some name =>
      rw [mrjDnsJobs] at hr
      dsimp only at hr
      split_ifs at hr
      · cases hr
        exact Or.inl rfl
      · obtain ⟨⟨code, c'⟩, htransfer, rfl⟩ := Option.map_eq_some_iff.1 hr
        exact dnsTransfer_cases htransfer

/-! ### The cache over all jobs -/

/-- The cache follows updates to dotted quads. -/
def HoldsAddresses (c : Client) : Prop :=
  ∃ us, FollowsUpdates us c.cache.cache ∧ ∀ u ∈ us, IsDottedQuad u.resultIp

lemma holdsAddresses_start : HoldsAddresses .start :=
  ⟨[], ⟨valid_cleared, BoundedMap.kept_nil _ _⟩, fun _ hu => absurd hu List.not_mem_nil⟩

lemma HoldsAddresses.step {fuel : ℕ} {c c' : Client} {job : Job} (hc : HoldsAddresses c)
    (h : jobStep fuel c job = some c') : HoldsAddresses c' := by
  obtain ⟨us, hus, hquads⟩ := hc
  rcases jobStep_cases h with heq | ⟨u, hu, hquad⟩
  · exact ⟨us, by rwa [heq], hquads⟩
  · obtain ⟨s, hs, hfollows, -⟩ := hus.step u
    obtain rfl : c'.cache = s := Option.some.inj (hu.symm.trans hs)
    refine ⟨us ++ [u], hfollows, fun v hv => ?_⟩
    rcases List.mem_append.1 hv with hv | hv
    · exact hquads v hv
    · rw [List.mem_singleton.1 hv]
      exact hquad

lemma HoldsAddresses.entries {c : Client} (hc : HoldsAddresses c) :
    c.cache.cache.Valid ∧ (c.cache.cache.entries.map Prod.fst).Nodup ∧
      ∀ e ∈ c.cache.cache.entries, IsDottedQuad e.2 := by
  obtain ⟨us, hus, hquads⟩ := hc
  refine ⟨hus.valid, hus.kept.nodup, fun e he => ?_⟩
  have hlast := hus.kept.fresh e he
  rw [lastResult_eq, lastResult, Option.map_eq_some_iff] at hlast
  obtain ⟨u, hu, hip⟩ := hlast
  rw [← hip]
  exact hquads u (List.mem_of_mem_filter (List.mem_of_getLast? hu))

/-! ### Jobs that ask -/

/-- A job whose request is sent: the name is in the usual notation, and there are memory and a socket. -/
structure Asking where
  labels : List (List UInt8)
  name : CString
  env : Env
  block : Bytes
  ne_nil : labels ≠ []
  isLabel : ∀ l ∈ labels, IsLabel l
  name_eq : name.1 = text labels
  length_le : name.1.length ≤ MAX_DOMAIN_LENGTH
  session : env.session = true
  server1 : env.server1 = true
  server2 : env.server2 = true
  domainName : env.domainName = true
  socket : 0 ≤ env.socket
  send : env.send = some block

namespace Asking

/-- The job. -/
def job (a : Asking) : Job := ⟨some a.name, a.env⟩

/-- The bytes of the request. -/
def packet (a : Asking) : List UInt8 := requestBytes (a.env.rand % 65535) DNS_A_RECORD a.labels

/-- The session when the request is sent. -/
def Pending (a : Asking) (data : RequestHandle) : Prop :=
  request a.env a.name = .ok data ∧ data.domainName = a.name.1 ∧ data.requestId = a.env.rand % 65535 ∧
    data.sendLen = a.packet.length ∧ ∃ send, data.send = some send ∧ slice send 0 data.sendLen = a.packet

lemma exists_pending (a : Asking) : ∃ data, a.Pending data := by
  obtain ⟨send, sendLen, hbuild, hbytes⟩ := @dnsBuildRequestPacket_text a.labels
    ⟨a.name.1, a.name.2, DNS_A_RECORD, 0, none, 0⟩ a.ne_nil a.isLabel a.name_eq a.length_le a.block a.env.rand
  have hlength := congrArg List.length hbytes
  rw [length_slice] at hlength
  refine ⟨⟨a.name.1, a.name.2, DNS_A_RECORD, a.env.rand % 65535, some send, sendLen⟩, ?_, rfl, rfl, hlength, send,
    rfl, hbytes⟩
  rw [request, dnsOpenSocket, if_neg (not_lt.2 a.socket), Outcome.ok_bind, a.send, hbuild]
  rfl

end Asking

/-- The server whose turn it is. -/
def turn (nowServ : ℕ) : CString := if nowServ = 1 then servIpLast else servIpFirst

/-- The client when the request of a job is sent. -/
def Client.asked (c : Client) (a : Asking) : Client :=
  ⟨if c.nowServ = 1 then 2 else 1, c.cache, c.sent ++ [((turn c.nowServ).1, a.packet)]⟩

/-- **A job asks** the server whose turn it is, and the response decides on the rest. -/
lemma mrjDnsJobs_asking (fuel : ℕ) (c : Client) (a : Asking) {data : RequestHandle} (h : a.Pending data) :
    mrjDnsJobs fuel c a.job.pDomainName a.job.env = match answer fuel a.env data with
      | .undefined => none
      | .error code => some (if code = .MRJE_OK then 0 else -1, c.asked a)
      | .ok resultIp => (dnsUpdataCache c.cache ⟨a.name.1, resultIp.text, a.env.dnsRand, a.name.2,
          resultIp.zero_notMem, a.length_le, resultIp.length_le⟩).map fun cache =>
            (0, { c.asked a with cache }) := by
  obtain ⟨hrequest, -, -, -, send, hsend, hbytes⟩ := h
  have hserver (s : CString) (hs : s.1.length ≤ 15) :
      ((CharArray.cleared MAX_IP_STRING_SIZE).strncpy s.1 (MAX_IP_STRING_SIZE - 1)).text = s.1 :=
    CharArray.text_strncpy s.2 hs (by decide)
  have hset : dnsSetServerip ⟨some servIpFirst, some servIpLast, some a.name⟩ c.nowServ =
      (.MRJE_OK, (CharArray.cleared MAX_IP_STRING_SIZE).strncpy (turn c.nowServ).1 (MAX_IP_STRING_SIZE - 1),
        if c.nowServ = 1 then 2 else 1) := by
    rw [dnsSetServerip, turn]
    dsimp only
    split_ifs <;> rfl
  have hturn : ((CharArray.cleared MAX_IP_STRING_SIZE).strncpy (turn c.nowServ).1 (MAX_IP_STRING_SIZE - 1)).text =
      (turn c.nowServ).1 := by
    refine hserver _ ?_
    rw [turn]
    split_ifs <;> decide
  rw [Asking.job, mrjDnsJobs]
  dsimp only
  rw [if_neg (by rw [a.session]; decide), useset_eq, a.server1, a.server2, a.domainName, if_pos rfl, if_pos rfl,
    if_pos rfl, dnsTransfer]
  dsimp only
  rw [dif_neg (not_lt.2 a.length_le), hset]
  dsimp only
  rw [if_neg (not_not.2 rfl), hrequest]
  dsimp only
  rw [hsend, hturn]
  dsimp only [Option.elim]
  rw [hbytes]
  cases answer fuel a.env data with
  | undefined => rfl
  | error code => rfl
  | ok resultIp => rw [Option.map_map]; rfl

/-! ### The servers over all jobs -/

/-- The server that is asked after `n` others. -/
def serverAt (n : ℕ) : CString := if n % 2 = 0 then servIpFirst else servIpLast

lemma asked_of_step {fuel : ℕ} {c c' : Client} {a : Asking} (h : jobStep fuel c a.job = some c') :
    c'.nowServ = (c.asked a).nowServ ∧ c'.sent = (c.asked a).sent := by
  obtain ⟨data, hdata⟩ := a.exists_pending
  obtain ⟨r, hr, rfl⟩ := Option.map_eq_some_iff.1 h
  rw [mrjDnsJobs_asking fuel c a hdata] at hr
  cases hanswer : answer fuel a.env data with
  | undefined =>
      rw [hanswer] at hr
      cases hr
  | error code =>
      rw [hanswer] at hr
      rw [← Option.some.inj hr]
      exact ⟨rfl, rfl⟩
  | ok resultIp =>
      rw [hanswer] at hr
      obtain ⟨cache, -, rfl⟩ := Option.map_eq_some_iff.1 hr
      exact ⟨rfl, rfl⟩

/-- **The run**: the requests of the jobs, from a client that has asked `n` times. -/
lemma sent_of_run {fuel : ℕ} {jobs : List Asking} : ∀ {n : ℕ} {c c' : Client}, (c.nowServ = 1 ↔ n % 2 = 1) →
    Runs.run (jobStep fuel) c (jobs.map Asking.job) = some c' →
    c'.sent = c.sent ++ (jobs.zipIdx n).map fun p => ((serverAt p.2).1, p.1.packet) := by
  induction jobs with
  | nil =>
      intro n c c' _ h
      rw [← Option.some.inj h, List.zipIdx_nil, List.map_nil, List.append_nil]
  | cons a jobs ih =>
      intro n c c' hn h
      rw [List.map_cons, Runs.run_cons, Option.bind_eq_some_iff] at h
      obtain ⟨c₁, hc₁, h⟩ := h
      obtain ⟨hnow, hsent⟩ := asked_of_step hc₁
      have hturn : turn c.nowServ = serverAt n := by
        rw [turn, serverAt]
        by_cases hone : n % 2 = 1
        · rw [if_pos (hn.2 hone), if_neg (by omega)]
        · rw [if_neg (fun h => hone (hn.1 h)), if_pos (by omega)]
      have hnext : c₁.nowServ = 1 ↔ (n + 1) % 2 = 1 := by
        rw [hnow, Client.asked]
        dsimp only
        by_cases hone : n % 2 = 1
        · rw [if_pos (hn.2 hone)]
          omega
        · rw [if_neg (fun h => hone (hn.1 h))]
          omega
      rw [ih hnext h, hsent, Client.asked, hturn, List.zipIdx_cons, List.map_cons, List.append_assoc]
      rfl

/-! ### The result of a job -/

/-- The address in the data of an answer. -/
def RData.address : RData → Option ℕ
  | .a address => some address
  | .ns _ => none
  | .cname _ => none
  | .mx _ _ => none

/-- The first address of the answers is the result. -/
lemma getResultLoop_response (authoritative : Bool) {ipaddr : ℕ} (resultIp : ResultIp) :
    ∀ {answers : List Answer},
    answers.findSome? (fun a => a.rdata.address) = some ipaddr →
    getResultLoop answers.length (answers.map (response authoritative)) resultIp =
      some (.MRJE_OK, dnsFormatIpaddress ipaddr) := by
  intro answers
  induction answers with
  | nil =>
      intro h
      cases h
  | cons a answers ih =>
      intro h
      obtain ⟨owner, ttl, rdata⟩ := a
      cases rdata with
      | a address =>
          obtain rfl : address = ipaddr := Option.some.inj h
          have haccepted : dnsIsip (some (dnsFormatIpaddress address).text) = .MRJE_OK :=
            dnsIsip_iff_quad_or_triple.2 (Or.inl (isDottedQuad_formatted address))
          rw [List.length_cons, List.map_cons, getResultLoop]
          exact (if_pos rfl).trans (if_pos haccepted)
      | ns name => exact ih h
      | cname name => exact ih h
      | mx preference name => exact ih h

/-- The session of a job when a packet of `size` bytes has been received. -/
def Asking.received (a : Asking) (block : Bytes) (size : ℕ) : SessionHandle :=
  ⟨poke block 0 (slice a.env.packet 0 size ++ [0]), size, a.name.1, a.env.rand % 65535, 0, []⟩

/-- A job gets a well-formed response. -/
structure Asking.Answered (a : Asking) (block : Bytes) (size : ℕ) (question : Name) (answers : List Answer) :
    Prop where
  sendto : a.env.sendto = a.packet.length
  recv : a.env.recv = some block
  select : 0 < a.env.select
  rset : a.env.rset = true
  eset : a.env.eset = false
  recvfrom : a.env.recvfrom = size
  size_lt : size < RESPONSE_BUFFER_SIZE
  resps : a.env.resps = true
  response : IsResponse (a.received block size) question answers
  whole : question.dangling = false

lemma toSizeT_natCast {n : ℕ} (h : n < 2 ^ 32) : toSizeT n = n := by
  rw [toSizeT, Int.emod_eq_of_lt (Int.natCast_nonneg n) (by exact_mod_cast h), Int.toNat_natCast]

lemma Asking.Answered.answer_eq {a : Asking} {block : Bytes} {size : ℕ} {question : Name} {answers : List Answer}
    (h : a.Answered block size question answers) {ipaddr : ℕ}
    (hfirst : answers.findSome? (fun x => x.rdata.address) = some ipaddr) {data : RequestHandle}
    (hdata : a.Pending data) :
    ∃ f₀, ∀ fuel ≥ f₀, answer fuel a.env data = .ok (dnsFormatIpaddress ipaddr) := by
  obtain ⟨-, hname, hid, hlen, -⟩ := hdata
  obtain ⟨n, hquestion, -⟩ := h.response.sections
  obtain ⟨authoritative, f₀, hparse⟩ := h.response.parse_eq a.env.resps a.env.stack
  have hroot : question.labels ≠ [] := by
    intro hnil
    have htext := h.response.requested
    have hlength := length_text a.ne_nil
    rw [Asking.received, hnil, a.name_eq] at htext
    have hpos := (a.isLabel _ (List.head_mem a.ne_nil)).1
    rw [← length_wire] at hlength
    have hwire := two_mul_length_le_wire a.isLabel
    have hzero : (text a.labels).length = 0 := by
      rw [show text a.labels = text [] from htext]
      rfl
    have hcount := List.length_pos_iff.2 a.ne_nil
    omega
  have hpacket : a.packet.length < 2 ^ 32 := by
    have hrequest := length_requestBytes (a.env.rand % 65535) DNS_A_RECORD a.ne_nil
    have hle := a.length_le
    rw [a.name_eq] at hle
    rw [Asking.packet, hrequest]
    exact (Nat.add_le_add_right (Nat.add_le_add_right (Nat.add_le_add_right hle _) _) _).trans_lt (by decide)
  have hsize : size < 2 ^ 32 := h.size_lt.trans (by decide)
  have hselect : dnsSelect a.env = .ok () := by
    rw [dnsSelect, if_neg (ne_of_gt h.select), if_neg (by simp [h.eset, h.select.le]), if_pos h.rset]
  have hheader : ¬ size < headerSize := not_lt.2 hquestion.1.pos_lt.le
  refine ⟨f₀, fun fuel hfuel => ?_⟩
  have hparsed := hparse fuel hfuel
  rw [if_pos ⟨h.whole, fun hnil => absurd hnil hroot⟩, if_neg (by simp [h.resps])] at hparsed
  rw [answer, dnsSendRequestPacket, h.sendto, toSizeT_natCast hpacket, hlen, if_neg (not_not.2 rfl), Outcome.ok_bind,
    dnsRecvResponsePacket, h.recv]
  dsimp only
  rw [hselect, Outcome.ok_bind, h.recvfrom, toSizeT_natCast hsize, if_neg hheader, if_neg (not_le.2 h.size_lt)]
  show (checked Prod.snd (dnsParseResponse a.env.resps a.env.stack fuel
    ⟨_, size, data.domainName, data.requestId, 0, []⟩) >>= _) = _
  rw [hname, hid]
  rw [Asking.received] at hparsed
  rw [hparsed]
  show checked id (getResultLoop answers.length (answers.map (Dns.response authoritative)) .cleared) = _
  rw [getResultLoop_response authoritative .cleared hfirst]
  rfl

/-- **A job with a response** puts the text of the first address into the cache. -/
lemma Asking.Answered.job_result {a : Asking} {block : Bytes} {size : ℕ} {question : Name} {answers : List Answer}
    (h : a.Answered block size question answers) {ipaddr : ℕ}
    (hfirst : answers.findSome? (fun x => x.rdata.address) = some ipaddr) :
    ∃ f₀, ∀ fuel ≥ f₀, ∀ c, HoldsAddresses c → ∃ c', mrjDnsJobs fuel c a.job.pDomainName a.job.env = some (0, c') ∧
      (a.name.1, formatted ipaddr MAX_IP_STRING_SIZE) ∈ c'.cache.cache.entries ∧
      (c'.cache.cache.entries.map Prod.fst).Nodup := by
  obtain ⟨data, hdata⟩ := a.exists_pending
  obtain ⟨f₀, hanswer⟩ := h.answer_eq hfirst hdata
  refine ⟨f₀, fun fuel hfuel c hc => ?_⟩
  obtain ⟨us, hus, -⟩ := hc
  have hjob := mrjDnsJobs_asking fuel c a hdata
  rw [hanswer fuel hfuel] at hjob
  dsimp only at hjob
  obtain ⟨s, hs, hfollows, hmem⟩ := hus.step ⟨a.name.1, (dnsFormatIpaddress ipaddr).text, a.env.dnsRand, a.name.2,
    (dnsFormatIpaddress ipaddr).zero_notMem, a.length_le, (dnsFormatIpaddress ipaddr).length_le⟩
  rw [hs, Option.map_some] at hjob
  exact ⟨_, hjob, hmem, hfollows.kept.nodup⟩

/-! ### Samples -/

lemma poke_slice (m : Bytes) (d n : ℕ) : poke m d (slice m d n) = m := by
  funext i
  rw [poke, slice, List.getElem?_map]
  split_ifs with hd
  · by_cases hi : i - d < n
    · rw [List.getElem?_range hi, Option.map_some, Option.getD_some, Nat.add_sub_cancel' hd]
    · rw [List.getElem?_eq_none (by rw [List.length_range]; omega), Option.map_none, Option.getD_none]
  · rfl

/-- Calls that go through; the response of the name server is that of `sampleSession`. -/
def sampleEnv : Env where
  session := true
  server1 := true
  server2 := true
  domainName := true
  socket := 3
  send := some fun _ => 7
  rand := 0x1234
  sendto := 19
  recv := some (sampleSession 0 1 0 0).recv
  select := 1
  rset := true
  eset := false
  recvfrom := 35
  packet := (sampleSession 0 1 0 0).recv
  resps := true
  stack := fun _ => 0
  dnsRand := 0

lemma zero_notMem_sampleName : (0 : UInt8) ∉ [0x61] := by decide

/-- A job that asks for the address of `a`, with other results of `sendto`. -/
def sampleAsking (sendto : ℤ) : Asking where
  labels := [[0x61]]
  name := ⟨[0x61], zero_notMem_sampleName⟩
  env := { sampleEnv with sendto }
  block := fun _ => 7
  ne_nil := List.cons_ne_nil _ _
  isLabel := by simp [IsLabel, MAX_SUBDOMAIN_LENGTH, PERIOD]
  name_eq := rfl
  length_le := by decide
  session := rfl
  server1 := rfl
  server2 := rfl
  domainName := rfl
  socket := (by decide : (0 : ℤ) ≤ 3)
  send := rfl

lemma answered_sample :
    (sampleAsking 19).Answered (sampleSession 0 1 0 0).recv 35 sampleName [sampleAnswer 0 1 0 0] where
  sendto := rfl
  recv := rfl
  select := by decide
  rset := rfl
  eset := rfl
  recvfrom := rfl
  size_lt := by decide
  resps := rfl
  response := by
    have hrecv : poke (sampleSession 0 1 0 0).recv 0 (slice (sampleSession 0 1 0 0).recv 0 35 ++ [0]) =
        (sampleSession 0 1 0 0).recv := poke_slice _ 0 36
    have heq : (sampleAsking 19).received (sampleSession 0 1 0 0).recv 35 = sampleSession 0 1 0 0 :=
      congrArg (fun recv => SessionHandle.mk recv 35 [0x61] 0x1234 0 []) hrecv
    rw [heq]
    exact isResponse_sampleSession 0 1 0 0
  whole := rfl

/-! ### What the jobs do -/

/-- **The servers are asked in turn.**  For jobs with a defined result whose names are in the usual notation, and
which have memory and a socket, the requests go to the two servers alternately, the first one to the first server.
Each packet is the request for the name.  A run in which `recvfrom` fails has no result. -/
theorem servers_alternate (fuel : ℕ) (jobs : List Asking) (c : Client)
    (h : Runs.run (jobStep fuel) .start (jobs.map Asking.job) = some c) :
    c.sent = jobs.zipIdx.map fun p => ((serverAt p.2).1, p.1.packet) := by
  have hsent := sent_of_run (n := 0) (by decide) h
  rwa [Client.start, List.nil_append] at hsent

/-- Two jobs whose requests are not sent. -/
theorem servers_alternate_two : ∃ c,
    Runs.run (jobStep 0) .start [(sampleAsking (-1)).job, (sampleAsking (-1)).job] = some c ∧
      c.sent.map Prod.fst = [servIpFirst.1, servIpLast.1] := by
  obtain ⟨c, hrun⟩ : ∃ c, Runs.run (jobStep 0) .start ([sampleAsking (-1), sampleAsking (-1)].map Asking.job) =
      some c := ⟨_, rfl⟩
  have hsent := servers_alternate 0 [sampleAsking (-1), sampleAsking (-1)] c hrun
  exact ⟨c, hrun, by rw [hsent]; rfl⟩

/-- **The cache holds addresses.**  After any jobs, whatever their calls return, it has at most ten entries with
distinct names, and each of them is a dotted quad. -/
theorem cache_holds_addresses (fuel : ℕ) (jobs : List Job) (c : Client)
    (h : Runs.run (jobStep fuel) .start jobs = some c) : c.cache.cache.Valid ∧
      (c.cache.cache.entries.map Prod.fst).Nodup ∧ ∀ e ∈ c.cache.cache.entries, IsDottedQuad e.2 :=
  (Runs.invariant (I := HoldsAddresses) (fun _ _ _ hc hstep => hc.step hstep) holdsAddresses_start h).entries

/-- A job with the response 1.2.3.4. -/
theorem cache_holds_addresses_one : ∃ fuel c, Runs.run (jobStep fuel) .start [(sampleAsking 19).job] = some c ∧
    c.cache.cache.entries ≠ [] ∧ ∀ e ∈ c.cache.cache.entries, IsDottedQuad e.2 := by
  obtain ⟨f₀, hjob⟩ := answered_sample.job_result
    (rfl : [sampleAnswer 0 1 0 0].findSome? (fun x => x.rdata.address) = some 0x01020304)
  obtain ⟨c, hc, hmem, -⟩ := hjob f₀ le_rfl .start holdsAddresses_start
  have hrun : Runs.run (jobStep f₀) .start [(sampleAsking 19).job] = some c := by
    rw [Runs.run_cons, jobStep, hc]
    rfl
  exact ⟨f₀, c, hrun, List.ne_nil_of_mem hmem, (cache_holds_addresses f₀ _ c hrun).2.2⟩

/-- **The result of a job.**  After any other jobs, a job that gets a well-formed response with an address returns
0, and the cache then has the first address for the name, as a dotted quad, if and only if one of its four bytes
is less than 100: of the text of the others the last digit is missing. -/
theorem job_result_exact_iff (a : Asking) (block : Bytes) (size : ℕ) (question : Name) (answers : List Answer)
    (h : a.Answered block size question answers) (ipaddr : ℕ)
    (hfirst : answers.findSome? (fun x => x.rdata.address) = some ipaddr) :
    ∃ f₀, ∀ fuel ≥ f₀, ∀ (jobs : List Job) (c : Client), Runs.run (jobStep fuel) .start jobs = some c →
      ∃ c', mrjDnsJobs fuel c a.job.pDomainName a.job.env = some (0, c') ∧
        ((a.name.1, addressText ipaddr) ∈ c'.cache.cache.entries ↔ ∃ i < 4, segment ipaddr i < 100) := by
  obtain ⟨f₀, hjob⟩ := h.job_result hfirst
  refine ⟨f₀, fun fuel hfuel jobs c hrun => ?_⟩
  obtain ⟨c', hc', hmem, hnodup⟩ := hjob fuel hfuel c
    (Runs.invariant (I := HoldsAddresses) (fun _ _ _ hc hstep => hc.step hstep) holdsAddresses_start hrun)
  refine ⟨c', hc', ?_⟩
  rw [← formatted_eq_iff]
  constructor
  · intro haddress
    -- the names of the entries are distinct
    exact congrArg Prod.snd (List.inj_on_of_nodup_map hnodup hmem haddress rfl)
  · intro heq
    rw [← heq]
    exact hmem

/-- The response 1.2.3.4. -/
theorem job_result_exact_sample : ∃ f₀, ∀ fuel ≥ f₀, ∃ c',
    mrjDnsJobs fuel .start (some (sampleAsking 19).name) (sampleAsking 19).env = some (0, c') ∧
      ([0x61], [0x31, 0x2E, 0x32, 0x2E, 0x33, 0x2E, 0x34]) ∈ c'.cache.cache.entries := by
  obtain ⟨f₀, hjob⟩ := job_result_exact_iff (sampleAsking 19) _ 35 sampleName _ answered_sample 0x01020304 rfl
  refine ⟨f₀, fun fuel hfuel => ?_⟩
  obtain ⟨c', hc', hiff⟩ := hjob fuel hfuel [] .start rfl
  exact ⟨c', hc', hiff.2 ⟨3, by decide, by decide⟩⟩

end DeviceTools.Dns
