/-
The options of a message that is sent.

`dhclient_option` clears the option area of the session and lets one writer after the other append
its option, at a running offset.  The writers of texts put the number of characters into the length
byte of the option, of which only the low byte is copied, and copy all characters.  Among the values
that `mrj_dhclient_setopt` sets the host name is the only text, and its length is not checked.
-/
import DeviceTools.Dhcp.Receive
import DeviceTools.Lib.Tlv

namespace DeviceTools.Dhcp.Build

open ByteWord Memory

/-- `sizeof(data->opt.opt_buff)`. -/
def OPT_BUFF_SIZE : ℕ := 500

def DHCP_HOSTNAME : UInt8 := 0x0c
def DHCP_DOMAINNAME : UInt8 := 0x0f
def DHCP_REQUESTEDIP : UInt8 := 0x32
def DHCP_MESSAGETYPE : UInt8 := 0x35
def DHCP_PARAMREQUEST : UInt8 := 0x37
def DHCP_CLASSSID : UInt8 := 0x3c
def DHCP_MSGDISCOVER : UInt8 := 0x01
def DHCP_MSGREQUEST : UInt8 := 0x03
def DHCP_MSGRELEASE : UInt8 := 0x07
def FQDN_N_FLAG : UInt8 := 0x08
def FQDN_S_FLAG : UInt8 := 0x1a
def INADDR_NONE : UInt32 := 0xffffffff

/-- A string up to its terminating zero. -/
structure CString where
  chars : List UInt8
  zero_notMem : 0 ∉ chars

lemma CString.zero_notMem_nil : (0 : UInt8) ∉ [] := List.not_mem_nil

/-- The empty string. -/
def CString.empty : CString := ⟨[], zero_notMem_nil⟩

/-- `strlen`, as the code stores it in a 32-bit variable. -/
def CString.strlen (s : CString) : ℕ := s.chars.length % 2 ^ 32

/-- `struct DhclientOptions`; addresses are in network order, and the pointer to the host name may be
`NULL`. -/
structure DhclientOptions where
  serverIdentFlag : ℕ
  serverIdent : UInt32
  dhcpXid : UInt32
  bcastFlag : UInt16
  vciBuff : CString
  vciFlag : ℕ
  hostnameFlag : ℕ
  hostnameBuff : Option CString
  fqdnBuff : CString
  fqdnFlag : ℕ
  fqdnN : ℕ
  fqdnS : ℕ
  option50IpFlag : ℕ
  option50Ip : UInt32
  option51Flag : ℕ
  option51LeaseTime : UInt32
  releaseFlag : ℕ
  unicastIp : UInt32
  unicastIpFlag : ℕ
  vlan : UInt16
  paddingFlag : ℕ
  optBuff : Bytes
  optSize : ℕ

/-- What the functions use of `struct SessionHandle`. -/
structure SessionHandle where
  srcmac : Vector UInt8 6
  dstmac : Vector UInt8 6
  ifname : Option CString
  sendBuf : Bytes
  opt : DhclientOptions
  verbose : Bool
  timeout : ℤ
  sendmsg : MRJDhcpMsg

/-! ### The settings -/

/-- `dhclient_init`. -/
def dhclientInit : SessionHandle where
  srcmac := .replicate 6 0
  dstmac := .replicate 6 0
  ifname := none
  sendBuf := fun _ => 0
  opt := ⟨0, 0, 0, 0, .empty, 0, 0, none, .empty, 0, 0, 0, 0, 0, 0, 0, 0, 0, 0, 0, 0, fun _ => 0, 0⟩
  verbose := false
  timeout := 0
  sendmsg := .DHCPMSG_NONE

/-- The calls that set values of a session: `mrj_dhclient_setopt` with its options, and the functions
that take the addresses of a lease or of an offer over.  For an address there is what `inet_addr`
or `inet_pton` makes of it; `memory` tells whether `strdup` gets memory. -/
inductive Setting where
  | verbose (arg : ℤ)
  | timeout (arg : ℤ)
  | ifname (s : Option CString) (memory : Bool)
  | hostname (s : Option CString) (memory : Bool)
  | unicastIp (addr : UInt32)
  | serverIp (addr : UInt32)
  | other
  | converOpt5054 (requestip serverip : Option UInt32)
  | parseOffer (dhcpYip : UInt32) (serverIdents : List UInt32)

/-- `dhclient_setstropt`: the string behind it, and whether the code is `MRJE_OK`.  The old string is
freed in any case. -/
def dhclientSetstropt (s : Option CString) (memory : Bool) : Option CString × Bool :=
  match s with
  | none => (none, true)
  | some s => if memory then (some s, true) else (none, false)

/-- The session behind a setting. -/
def setting (data : SessionHandle) : Setting → SessionHandle
  | .verbose arg => { data with verbose := decide (arg ≠ 0) }
  | .timeout arg => { data with timeout := arg * 1000 }
  | .ifname s memory => { data with ifname := (dhclientSetstropt s memory).1 }
  | .hostname s memory =>
      let (hostnameBuff, ok) := dhclientSetstropt s memory
      { data with opt := { data.opt with hostnameBuff, hostnameFlag := if ok then 1 else 0 } }
  | .unicastIp addr =>
      { data with opt := { data.opt with
          unicastIp := addr, unicastIpFlag := if addr = INADDR_NONE then 0 else 1 } }
  | .serverIp addr =>
      { data with opt := { data.opt with
          serverIdent := addr, serverIdentFlag := if addr = INADDR_NONE then 0 else 1 } }
  | .other => data
  | .converOpt5054 requestip serverip =>
      match requestip with
      | none => data
      | some ip =>
          let opt := { data.opt with option50Ip := ip, option50IpFlag := 1 }
          match serverip with
          | none => { data with opt }
          | some ip => { data with opt := { opt with serverIdent := ip, serverIdentFlag := 1 } }
  | .parseOffer dhcpYip serverIdents =>
      let opt := { data.opt with option50IpFlag := 1, option50Ip := dhcpYip }
      { data with opt := serverIdents.foldl (fun opt ip => { opt with serverIdent := ip, serverIdentFlag := 1 }) opt }

/-- A session after a number of settings. -/
def session (settings : List Setting) : SessionHandle := settings.foldl setting dhclientInit

/-! ### The writers -/

/-- The bytes are appended to the option area, if it has room for them. -/
def DhclientOptions.put (opt : DhclientOptions) (bs : List UInt8) : Option DhclientOptions :=
  if opt.optSize + bs.length ≤ OPT_BUFF_SIZE then
    some { opt with optBuff := poke opt.optBuff opt.optSize bs, optSize := opt.optSize + bs.length }
  else none

/-- `dhclient_opt53_msgtype`, which stores at the start of the area. -/
def dhclientOpt53Msgtype (sendmsg : MRJDhcpMsg) (opt : DhclientOptions) : MRJEcode × DhclientOptions :=
  let write (msg : UInt8) := (.MRJE_OK,
    { opt with optBuff := poke opt.optBuff 0 [DHCP_MESSAGETYPE, 1, msg], optSize := opt.optSize + 3 })
  match sendmsg with
  | .DHCPMSG_DISCOVER => write DHCP_MSGDISCOVER
  | .DHCPMSG_REQUEST => write DHCP_MSGREQUEST
  | .DHCPMSG_RELEASE => write DHCP_MSGRELEASE
  | _ => (.MRJE_UNSUPPORTED_PROTOCOL, opt)

/-- The writers of an address. -/
def putAddress (tag : UInt8) (flag : ℕ) (ip : UInt32) (opt : DhclientOptions) : Option DhclientOptions :=
  if flag = 0 then some opt else opt.put ([tag, 4] ++ leBytes 4 ip.toNat)

/-- `dhclient_opt50_requestip`. -/
def dhclientOpt50Requestip (opt : DhclientOptions) : Option DhclientOptions :=
  putAddress DHCP_REQUESTEDIP opt.option50IpFlag opt.option50Ip opt

/-- `dhclient_opt54_servident`. -/
def dhclientOpt54Servident (opt : DhclientOptions) : Option DhclientOptions :=
  putAddress DHCP_SERVIDENT opt.serverIdentFlag opt.serverIdent opt

/-- `dhclient_opt55_paramrequest`. -/
def dhclientOpt55Paramrequest (opt : DhclientOptions) : Option DhclientOptions :=
  opt.put [DHCP_PARAMREQUEST, 4, DHCP_SUBNETMASK, DHCP_ROUTER, DHCP_DOMAINNAME, DHCP_DNS]

/-- The bytes of an option with a text: the low byte of its length, and all of it. -/
def textBytes (tag : UInt8) (s : CString) : List UInt8 :=
  [tag, UInt8.ofNat s.strlen] ++ s.chars.take s.strlen

/-- `dhclient_opt12_hostname`.  There is no result for the length of `NULL`. -/
def dhclientOpt12Hostname (opt : DhclientOptions) : Option DhclientOptions :=
  if opt.hostnameFlag = 0 then some opt
  else opt.hostnameBuff.bind fun s => opt.put (textBytes DHCP_HOSTNAME s)

/-- `dhclient_opt81_fqdn`. -/
def dhclientOpt81Fqdn (opt : DhclientOptions) : Option DhclientOptions :=
  if opt.fqdnFlag = 0 then some opt
  else
    let flags := (if opt.fqdnN ≠ 0 then FQDN_N_FLAG else 0) ||| (if opt.fqdnS ≠ 0 then FQDN_S_FLAG else 0)
    opt.put ([DHCP_FQDN, UInt8.ofNat (opt.fqdnBuff.strlen + 3), flags, 0, 0] ++ opt.fqdnBuff.chars)

/-- `dhclient_opt60_vci`. -/
def dhclientOpt60Vci (opt : DhclientOptions) : Option DhclientOptions :=
  if opt.vciFlag = 0 then some opt else opt.put (textBytes DHCP_CLASSSID opt.vciBuff)

/-- `dhclient_opt51_leasetime`. -/
def dhclientOpt51Leasetime (opt : DhclientOptions) : Option DhclientOptions :=
  if opt.option51Flag = 0 then some opt
  else opt.put ([DHCP_LEASETIME, 4] ++ beBytes 4 opt.option51LeaseTime.toNat)

/-- `dhclient_opt_endof`. -/
def dhclientOptEndof (opt : DhclientOptions) : Option DhclientOptions := opt.put [DHCP_END]

/-- The writers for a request. -/
def requestWriters (sendmsg : MRJDhcpMsg) (opt : DhclientOptions) : Option DhclientOptions :=
  if sendmsg = .DHCPMSG_REQUEST then do
    let opt ← dhclientOpt50Requestip opt
    let opt ← dhclientOpt54Servident opt
    dhclientOpt55Paramrequest opt
  else some opt

/-- The writers behind the type of the message. -/
def writers (sendmsg : MRJDhcpMsg) (opt : DhclientOptions) : Option DhclientOptions := do
  let opt ← requestWriters sendmsg opt
  let opt ← dhclientOpt12Hostname opt
  let opt ← dhclientOpt81Fqdn opt
  let opt ← dhclientOpt60Vci opt
  let opt ← dhclientOpt51Leasetime opt
  dhclientOptEndof opt

/-- The transaction number is drawn once. -/
def drawXid (rand : ℕ) (opt : DhclientOptions) : DhclientOptions :=
  if opt.dhcpXid = 0 then { opt with dhcpXid := UInt32.ofNat (rand % 0xffffffff) } else opt

/-- `dhclient_option`.  There is no result if a writer reads from `NULL` or stores outside the area. -/
def dhclientOption (rand : ℕ) (data : SessionHandle) : Option (MRJEcode × SessionHandle) :=
  let opt := drawXid rand data.opt
  let opt := { opt with optBuff := poke opt.optBuff 0 (List.replicate OPT_BUFF_SIZE 0), optSize := 0 }
  match dhclientOpt53Msgtype data.sendmsg opt with
  | (.MRJE_OK, opt) => (writers data.sendmsg opt).map fun opt => (.MRJE_OK, { data with opt })
  | (res, opt) => some (res, { data with opt })

/-! ### What the writers append -/

/-- With another content of the option area. -/
def DhclientOptions.withArea (opt : DhclientOptions) (optBuff : Bytes) (optSize : ℕ) : DhclientOptions :=
  { opt with optBuff, optSize }

lemma put_withArea {opt : DhclientOptions} {buff : Bytes} {size : ℕ} {bs : List UInt8}
    (h : size + bs.length ≤ OPT_BUFF_SIZE) :
    (opt.withArea buff size).put bs = some (opt.withArea (poke buff size bs) (size + bs.length)) := if_pos h

lemma put_full {opt : DhclientOptions} {buff : Bytes} {size : ℕ} {bs : List UInt8}
    (h : OPT_BUFF_SIZE < size + bs.length) : (opt.withArea buff size).put bs = none := if_neg (not_le.2 h)

/-- A writer appends the bytes, for the values of the session. -/
def Appends (w : DhclientOptions → Option DhclientOptions) (bs : List UInt8) (opt : DhclientOptions) : Prop :=
  ∀ buff size, size ≤ OPT_BUFF_SIZE → w (opt.withArea buff size) = (opt.withArea buff size).put bs

variable {opt : DhclientOptions}

lemma appends_nil (opt : DhclientOptions) : Appends some [] opt := by
  intro buff size h
  rw [put_withArea h, poke_nil]
  rfl

/-- Two writers behind each other. -/
lemma Appends.bind {w w' : DhclientOptions → Option DhclientOptions} {xs ys : List UInt8} (h : Appends w xs opt)
    (h' : Appends w' ys opt) : Appends (fun o => (w o).bind w') (xs ++ ys) opt := by
  intro buff size hsize
  dsimp only
  rw [h buff size hsize]
  have hlen : (xs ++ ys).length = xs.length + ys.length := List.length_append
  rcases Nat.lt_or_ge OPT_BUFF_SIZE (size + xs.length) with hx | hx
  · rw [put_full hx, Option.bind_none, put_full (by omega)]
  rw [put_withArea hx, Option.bind_some, h' _ _ hx]
  rcases Nat.lt_or_ge OPT_BUFF_SIZE (size + xs.length + ys.length) with hy | hy
  · rw [put_full hy, put_full (by omega)]
  · rw [put_withArea hy, put_withArea (by omega), poke_append, hlen, Nat.add_assoc]

/-- The entry of an address, if it is set. -/
def addressEntry (tag : UInt8) (flag : ℕ) (ip : UInt32) : List Tlv.Entry :=
  if flag = 0 then [] else [(tag, leBytes 4 ip.toNat)]

/-- The type of a message, as a number in option 53. -/
def typeOf : MRJDhcpMsg → Option UInt8
  | .DHCPMSG_DISCOVER => some DHCP_MSGDISCOVER
  | .DHCPMSG_REQUEST => some DHCP_MSGREQUEST
  | .DHCPMSG_RELEASE => some DHCP_MSGRELEASE
  | _ => none

/-- The options of a request besides its type. -/
def requestEntries (sendmsg : MRJDhcpMsg) (opt : DhclientOptions) : List Tlv.Entry :=
  if sendmsg = .DHCPMSG_REQUEST then
    addressEntry DHCP_REQUESTEDIP opt.option50IpFlag opt.option50Ip ++
      addressEntry DHCP_SERVIDENT opt.serverIdentFlag opt.serverIdent ++
      [(DHCP_PARAMREQUEST, [DHCP_SUBNETMASK, DHCP_ROUTER, DHCP_DOMAINNAME, DHCP_DNS])]
  else []

/-- The option with the host name, if it is set. -/
def hostnameEntry (opt : DhclientOptions) : List Tlv.Entry :=
  if opt.hostnameFlag = 0 then [] else opt.hostnameBuff.toList.map fun s => (DHCP_HOSTNAME, s.chars)

/-- The options of a message. -/
def messageEntries (sendmsg : MRJDhcpMsg) (opt : DhclientOptions) : List Tlv.Entry :=
  ((typeOf sendmsg).toList.map fun msg => (DHCP_MESSAGETYPE, [msg])) ++
    (requestEntries sendmsg opt ++ hostnameEntry opt)

lemma appends_address (tag : UInt8) {flag : DhclientOptions → ℕ} {ip : DhclientOptions → UInt32}
    (hflag : ∀ buff size, flag (opt.withArea buff size) = flag opt)
    (hip : ∀ buff size, ip (opt.withArea buff size) = ip opt) :
    Appends (fun o => putAddress tag (flag o) (ip o) o) ((addressEntry tag (flag opt) (ip opt)).flatMap Tlv.bytes)
      opt := by
  intro buff size hsize
  dsimp only
  rw [hflag, hip, putAddress, addressEntry]
  split
  · exact appends_nil opt buff size hsize
  · rfl

lemma appends_request (sendmsg : MRJDhcpMsg) (opt : DhclientOptions) :
    Appends (requestWriters sendmsg) ((requestEntries sendmsg opt).flatMap Tlv.bytes) opt := by
  intro buff size hsize
  rw [requestEntries, requestWriters]
  split
  · rw [List.append_assoc, List.flatMap_append, List.flatMap_append]
    exact (appends_address DHCP_REQUESTEDIP (fun _ _ => rfl) fun _ _ => rfl).bind
      ((appends_address DHCP_SERVIDENT (fun _ _ => rfl) fun _ _ => rfl).bind fun _ _ _ => rfl) buff size hsize
  · exact appends_nil opt buff size hsize

/-- The host name is not set, or it is a string whose length fits a byte. -/
def HostnameFits (opt : DhclientOptions) : Prop :=
  opt.hostnameFlag ≠ 0 → ∃ s ∈ opt.hostnameBuff, s.chars.length < 256

/-- The host name is appended with its length, if that fits. -/
lemma appends_hostname (h : HostnameFits opt) :
    Appends dhclientOpt12Hostname ((hostnameEntry opt).flatMap Tlv.bytes) opt := by
  intro buff size hsize
  show (if opt.hostnameFlag = 0 then some (opt.withArea buff size)
    else opt.hostnameBuff.bind fun s => (opt.withArea buff size).put (textBytes DHCP_HOSTNAME s)) = _
  rw [hostnameEntry]
  by_cases hflag : opt.hostnameFlag = 0
  · rw [if_pos hflag, if_pos hflag]
    exact appends_nil opt buff size hsize
  · obtain ⟨s, hs, hlen⟩ := h hflag
    have hstrlen : s.strlen = s.chars.length := Nat.mod_eq_of_lt (by omega)
    rw [if_neg hflag, if_neg hflag, Option.mem_def.1 hs, Option.bind_some, textBytes, hstrlen, List.take_length]
    simp [Tlv.bytes]

/-- The writers that no setting turns on. -/
structure Plain (opt : DhclientOptions) : Prop where
  fqdn : opt.fqdnFlag = 0
  vci : opt.vciFlag = 0
  option51 : opt.option51Flag = 0

lemma appends_rest (h : Plain opt) :
    Appends (fun o => (dhclientOpt81Fqdn o).bind fun o => (dhclientOpt60Vci o).bind fun o =>
      (dhclientOpt51Leasetime o).bind dhclientOptEndof) [DHCP_END] opt := by
  intro buff size hsize
  have hfqdn : dhclientOpt81Fqdn (opt.withArea buff size) = some (opt.withArea buff size) := if_pos h.fqdn
  have hvci : dhclientOpt60Vci (opt.withArea buff size) = some (opt.withArea buff size) := if_pos h.vci
  have h51 : dhclientOpt51Leasetime (opt.withArea buff size) = some (opt.withArea buff size) := if_pos h.option51
  dsimp only
  rw [hfqdn, Option.bind_some, hvci, Option.bind_some, h51, Option.bind_some]
  rfl

/-- **The writers append the options and `END`.** -/
lemma appends_writers (sendmsg : MRJDhcpMsg) (hplain : Plain opt) (hname : HostnameFits opt) :
    Appends (writers sendmsg)
      ((requestEntries sendmsg opt ++ hostnameEntry opt).flatMap Tlv.bytes ++ [DHCP_END]) opt := by
  rw [List.flatMap_append, List.append_assoc]
  exact (appends_request sendmsg opt).bind ((appends_hostname hname).bind (appends_rest hplain))

/-- Without a string there is no host name to append. -/
lemma writers_null (sendmsg : MRJDhcpMsg) (hflag : opt.hostnameFlag ≠ 0) (hnull : opt.hostnameBuff = none)
    (buff : Bytes) {size : ℕ} (hsize : size ≤ OPT_BUFF_SIZE) : writers sendmsg (opt.withArea buff size) = none := by
  have hhost : ∀ buff size, dhclientOpt12Hostname (opt.withArea buff size) = none := by
    intro buff size
    show (if opt.hostnameFlag = 0 then _ else opt.hostnameBuff.bind _) = none
    rw [if_neg hflag, hnull, Option.bind_none]
  have hrequest := appends_request sendmsg opt buff size hsize
  rw [writers, hrequest, Option.bind_eq_bind]
  generalize (requestEntries sendmsg opt).flatMap Tlv.bytes = bs
  rcases Nat.lt_or_ge OPT_BUFF_SIZE (size + bs.length) with hx | hx
  · rw [put_full hx, Option.bind_none]
  · rw [put_withArea hx, Option.bind_some, hhost]
    rfl

/-! ### The option area -/

/-- The option area is a list of the entries, and of one `END` at its end. -/
structure OptionsWritten (data : SessionHandle) (es : List Tlv.Entry) : Prop where
  room : data.opt.optSize ≤ OPT_BUFF_SIZE
  parses : Tlv.parse DHCP_PAD DHCP_END (slice data.opt.optBuff 0 data.opt.optSize) = some es
  last : 0 < data.opt.optSize ∧ data.opt.optBuff (data.opt.optSize - 1) = DHCP_END

/-- No setting turns the other writers on. -/
lemma plain_session (settings : List Setting) : Plain (session settings).opt := by
  induction settings using List.reverseRecOn with
  | nil => exact ⟨rfl, rfl, rfl⟩
  | append_singleton settings s ih =>
      obtain ⟨hfqdn, hvci, h51⟩ := ih
      rw [session, List.foldl_append, List.foldl_cons, List.foldl_nil]
      change Plain (setting (session settings) s).opt
      cases s with
      | converOpt5054 requestip serverip => cases requestip <;> cases serverip <;> exact ⟨hfqdn, hvci, h51⟩
      | parseOffer dhcpYip serverIdents =>
          have hfold : ∀ (ips : List UInt32) (opt : DhclientOptions), Plain opt →
              Plain (ips.foldl (fun opt ip => { opt with serverIdent := ip, serverIdentFlag := 1 }) opt) := by
            intro ips
            induction ips with
            | nil => intro opt h; exact h
            | cons ip ips ihips => intro opt h; exact ihips _ ⟨h.fqdn, h.vci, h.option51⟩
          exact hfold serverIdents _ ⟨hfqdn, hvci, h51⟩
      | _ => exact ⟨hfqdn, hvci, h51⟩

/-- What the writers get: the area is cleared, and the type of the message is stored. -/
lemma dhclientOption_eq (data : SessionHandle) {msg : UInt8} (h : typeOf data.sendmsg = some msg) (rand : ℕ) :
    dhclientOption rand data = (writers data.sendmsg ((drawXid rand data.opt).withArea
      (poke (poke (drawXid rand data.opt).optBuff 0 (List.replicate OPT_BUFF_SIZE 0)) 0
        [DHCP_MESSAGETYPE, 1, msg]) 3)).map fun opt => (.MRJE_OK, { data with opt }) := by
  rw [dhclientOption]
  cases hmsg : data.sendmsg with
  | DHCPMSG_DISCOVER =>
      rw [hmsg] at h
      obtain rfl : DHCP_MSGDISCOVER = msg := Option.some.inj h
      rfl
  | DHCPMSG_REQUEST =>
      rw [hmsg] at h
      obtain rfl : DHCP_MSGREQUEST = msg := Option.some.inj h
      rfl
  | DHCPMSG_RELEASE =>
      rw [hmsg] at h
      obtain rfl : DHCP_MSGRELEASE = msg := Option.some.inj h
      rfl
  | _ =>
      rw [hmsg] at h
      exact absurd h (by simp [typeOf])

lemma drawXid_fields (rand : ℕ) (opt : DhclientOptions) (sendmsg : MRJDhcpMsg) :
    requestEntries sendmsg (drawXid rand opt) = requestEntries sendmsg opt ∧
      hostnameEntry (drawXid rand opt) = hostnameEntry opt ∧
      (drawXid rand opt).hostnameFlag = opt.hostnameFlag ∧ (drawXid rand opt).hostnameBuff = opt.hostnameBuff ∧
      (Plain opt → Plain (drawXid rand opt)) := by
  rw [drawXid]
  split
  · exact ⟨rfl, rfl, rfl, rfl, fun h => ⟨h.fqdn, h.vci, h.option51⟩⟩
  · exact ⟨rfl, rfl, rfl, rfl, id⟩

/-- The tags are tags of options, and the lengths fit. -/
lemma entry_fits (sendmsg : MRJDhcpMsg) (hname : HostnameFits opt) :
    ∀ e ∈ messageEntries sendmsg opt, e.1 ≠ DHCP_PAD ∧ e.1 ≠ DHCP_END ∧ e.2.length < 256 := by
  have haddress : ∀ {tag : UInt8} {flag : ℕ} {ip : UInt32}, tag ≠ DHCP_PAD → tag ≠ DHCP_END →
      ∀ e ∈ addressEntry tag flag ip, e.1 ≠ DHCP_PAD ∧ e.1 ≠ DHCP_END ∧ e.2.length < 256 := by
    intro tag flag ip hpad hend e he
    rw [addressEntry] at he
    split_ifs at he
    · exact absurd he List.not_mem_nil
    · rw [List.mem_singleton.1 he]
      exact ⟨hpad, hend, by rw [leBytes_length]; decide⟩
  intro e he
  rw [messageEntries, List.mem_append, List.mem_append] at he
  rcases he with he | he | he
  · obtain ⟨msg, -, rfl⟩ := List.mem_map.1 he
    have htag : DHCP_MESSAGETYPE ≠ DHCP_PAD ∧ DHCP_MESSAGETYPE ≠ DHCP_END := by decide
    exact ⟨htag.1, htag.2, by simp⟩
  · rw [requestEntries] at he
    split_ifs at he
    · rw [List.mem_append, List.mem_append, List.mem_singleton] at he
      rcases he with (he | he) | rfl
      · exact haddress (by decide) (by decide) e he
      · exact haddress (by decide) (by decide) e he
      · exact ⟨by decide, by decide, by decide⟩
    · exact absurd he List.not_mem_nil
  · rw [hostnameEntry] at he
    split_ifs at he with hflag
    · exact absurd he List.not_mem_nil
    · obtain ⟨s, hs, hlen⟩ := hname hflag
      rw [Option.mem_def.1 hs] at he
      obtain rfl := List.mem_singleton.1 he
      have htag : DHCP_HOSTNAME ≠ DHCP_PAD ∧ DHCP_HOSTNAME ≠ DHCP_END := by decide
      exact ⟨htag.1, htag.2, hlen⟩

lemma length_address (tag : UInt8) (flag : ℕ) (ip : UInt32) :
    ((addressEntry tag flag ip).flatMap Tlv.bytes).length ≤ 6 := by
  rw [addressEntry]
  split
  · exact Nat.zero_le _
  · simp [Tlv.bytes]

/-- The options and `END` have room in the area. -/
lemma length_entries (sendmsg : MRJDhcpMsg) (hname : HostnameFits opt) :
    ((requestEntries sendmsg opt ++ hostnameEntry opt).flatMap Tlv.bytes ++ [DHCP_END]).length ≤ 276 := by
  have hrequest : ((requestEntries sendmsg opt).flatMap Tlv.bytes).length ≤ 18 := by
    rw [requestEntries]
    split
    · have h50 := length_address DHCP_REQUESTEDIP opt.option50IpFlag opt.option50Ip
      have h54 := length_address DHCP_SERVIDENT opt.serverIdentFlag opt.serverIdent
      rw [List.flatMap_append, List.flatMap_append, List.length_append, List.length_append, List.flatMap_singleton]
      simp only [Tlv.bytes, List.length_cons, List.length_nil]
      omega
    · exact Nat.zero_le _
  have hhost : ((hostnameEntry opt).flatMap Tlv.bytes).length ≤ 257 := by
    rw [hostnameEntry]
    split
    · exact Nat.zero_le _
    · next hflag =>
        obtain ⟨s, hs, hlen⟩ := hname hflag
        rw [Option.mem_def.1 hs]
        simp only [Option.toList_some, List.map_cons, List.map_nil, List.flatMap_singleton, Tlv.bytes,
          List.length_cons]
        omega
  rw [List.length_append, List.flatMap_append, List.length_append, List.length_singleton]
  omega

/-- **The area of a message whose host name fits.** -/
lemma dhclientOption_fits (data : SessionHandle) {msg : UInt8} (htype : typeOf data.sendmsg = some msg)
    (hplain : Plain data.opt) (hname : HostnameFits data.opt) (rand : ℕ) :
    ∃ data', dhclientOption rand data = some (.MRJE_OK, data') ∧
      OptionsWritten data' (messageEntries data.sendmsg data.opt) := by
  obtain ⟨hrequest, hhost, hflag, hbuff, hplain'⟩ := drawXid_fields rand data.opt data.sendmsg
  have hname' : HostnameFits (drawXid rand data.opt) := by
    rw [HostnameFits, hflag, hbuff]
    exact hname
  have happend := appends_writers data.sendmsg (hplain' hplain) hname'
  have hlen := length_entries data.sendmsg hname'
  rw [hrequest, hhost] at happend hlen
  have hbytes : (messageEntries data.sendmsg data.opt).flatMap Tlv.bytes ++ [DHCP_END] =
      [DHCP_MESSAGETYPE, 1, msg] ++
        ((requestEntries data.sendmsg data.opt ++ hostnameEntry data.opt).flatMap Tlv.bytes ++ [DHCP_END]) := by
    rw [messageEntries, htype]
    rfl
  have hfits := entry_fits data.sendmsg hname
  rw [dhclientOption_eq data htype, happend _ _ (by decide), put_withArea (by
    have : OPT_BUFF_SIZE = 500 := rfl
    omega)]
  generalize (requestEntries data.sendmsg data.opt ++ hostnameEntry data.opt).flatMap Tlv.bytes ++ [DHCP_END] = bs
    at hbytes hlen
  generalize poke (drawXid rand data.opt).optBuff 0 (List.replicate OPT_BUFF_SIZE 0) = cleared
  have harea : poke (poke cleared 0 [DHCP_MESSAGETYPE, 1, msg]) 3 bs =
      poke cleared 0 ((messageEntries data.sendmsg data.opt).flatMap Tlv.bytes ++ [DHCP_END]) := by
    rw [hbytes, ← poke_append]
    rfl
  have hsize : 3 + bs.length = ((messageEntries data.sendmsg data.opt).flatMap Tlv.bytes ++ [DHCP_END]).length := by
    rw [hbytes, List.length_append]
    rfl
  refine ⟨_, rfl, ?_⟩
  constructor
  · show 3 + bs.length ≤ 500
    omega
  · show Tlv.parse DHCP_PAD DHCP_END (slice (poke _ 3 bs) 0 (3 + bs.length)) = _
    rw [harea, hsize, slice_poke, Tlv.parse_entries hfits]
  · show 0 < 3 + bs.length ∧ poke _ 3 bs (3 + bs.length - 1) = DHCP_END
    refine ⟨by omega, ?_⟩
    rw [harea, hsize, List.length_append, List.length_singleton, Nat.add_sub_cancel,
      ← Nat.zero_add ((messageEntries data.sendmsg data.opt).flatMap Tlv.bytes).length]
    exact poke_add _ _ _ (by simp)

/-- **The option area is well-formed if and only if the host name fits.**  In a session with any settings,
`dhclient_option` writes the options of the message and `END`, as a list that is read back, exactly
if no host name is set or it is a string of at most 255 characters. -/
theorem dhclient_option_written_iff (settings : List Setting) (sendmsg : MRJDhcpMsg) (rand : ℕ)
    (htype : (dhclientOpt53Msgtype sendmsg (session settings).opt).1 = .MRJE_OK) :
    (∃ data', dhclientOption rand { session settings with sendmsg := sendmsg } = some (.MRJE_OK, data') ∧
      OptionsWritten data' (messageEntries sendmsg (session settings).opt)) ↔
    HostnameFits (session settings).opt := by
  obtain ⟨msg, hmsg⟩ : ∃ msg, typeOf sendmsg = some msg := by
    cases sendmsg with
    | DHCPMSG_DISCOVER => exact ⟨_, rfl⟩
    | DHCPMSG_REQUEST => exact ⟨_, rfl⟩
    | DHCPMSG_RELEASE => exact ⟨_, rfl⟩
    | _ => exact absurd htype (by simp [dhclientOpt53Msgtype])
  constructor
  · rintro ⟨data', hoption, hwritten⟩ hflag
    cases hbuff : (session settings).opt.hostnameBuff with
    | none =>
        obtain ⟨-, -, hflag', hbuff', -⟩ := drawXid_fields rand (session settings).opt sendmsg
        rw [dhclientOption_eq { session settings with sendmsg := sendmsg } hmsg,
          writers_null sendmsg (by rw [hflag']; exact hflag) (by rw [hbuff', hbuff]) _ (by decide)] at hoption
        exact absurd hoption (by simp)
    | some s =>
        -- the entry with the host name was read back, so its length fits
        have hmem : (DHCP_HOSTNAME, s.chars) ∈ messageEntries sendmsg (session settings).opt := by
          rw [messageEntries, hostnameEntry, if_neg hflag, hbuff]
          simp
        exact ⟨s, rfl, Tlv.length_lt_of_parseFor hwritten.parses _ hmem⟩
  · intro hname
    exact dhclientOption_fits { session settings with sendmsg := sendmsg } hmsg
      (plain_session settings) hname rand

/-- The host name `MRJ_M1`. -/
theorem dhclient_option_written_name :
    ∃ data', dhclientOption 7 { session [.hostname (some ⟨[77, 82, 74, 95, 77, 49], by decide⟩) true] with
        sendmsg := .DHCPMSG_DISCOVER } = some (.MRJE_OK, data') ∧
      OptionsWritten data' (messageEntries .DHCPMSG_DISCOVER
        (session [.hostname (some ⟨[77, 82, 74, 95, 77, 49], by decide⟩) true]).opt) :=
  (dhclient_option_written_iff [.hostname (some ⟨[77, 82, 74, 95, 77, 49], by decide⟩) true] .DHCPMSG_DISCOVER 7
    rfl).mpr fun _ => ⟨⟨[77, 82, 74, 95, 77, 49], by decide⟩, rfl, by decide⟩

/-- A host name of 256 letters. -/
def longName : CString := ⟨List.replicate 256 0x61, fun h => absurd (List.eq_of_mem_replicate h) (by decide)⟩

/-- **For a host name of 256 characters the length byte is 0**, and the letters behind it are no
options. -/
theorem long_hostname_breaks_list :
    ((dhclientOption 7 { session [.hostname (some longName) true] with sendmsg := .DHCPMSG_DISCOVER }).map fun r =>
      (r.2.opt.optBuff 3, r.2.opt.optBuff 4, Tlv.parse DHCP_PAD DHCP_END (slice r.2.opt.optBuff 0 r.2.opt.optSize))) =
        some (DHCP_HOSTNAME, 0, none) := by
  decide +kernel

end DeviceTools.Dhcp.Build
