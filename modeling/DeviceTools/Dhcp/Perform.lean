/-
The transactions of a session.

`dhclient_perform` asks for the address of the last lease again, with one message and its
acknowledgement, and if this fails starts anew with a discovery.  Both transactions use the same
session, and `dhclient_parse_ack` only overwrites the values of `resout` that it finds in the
acknowledgement.  So a result may be made of two acknowledgements.  Here a run records each
acknowledgement that is parsed and each result that is set; the main theorem says when every
result is that of the last acknowledgement.
-/
import DeviceTools.Dhcp.Receive

namespace DeviceTools.Dhcp

open ByteWord Memory

/-- What the functions use of `struct SessionHandle`, with the part that is used by parsing. -/
structure Session where
  data : SessionHandle
  timeout : ℤ
  vlan : ℕ
  dhcpXid : ℕ
  sendmsg : MRJDhcpMsg
  recvmsg : MRJDhcpMsg

/-- What a turn of the loop of `dhclient_recv_pack` meets: `select` or `recvfrom` fails, or a frame
is received and `select` leaves a number of seconds to wait. -/
inductive Arrival where
  | selectFails
  | recvFails
  | frame (bytes : List UInt8) (left : ℤ)

/-- What `dhclient_transfer_pack` meets: the number drawn, the codes of `dhclient_build_packet` and
`dhclient_send_pack`, and the arrivals.  When nothing more arrives, `select` times out. -/
structure PackEnv where
  rand : ℕ
  build : MRJEcode
  send : MRJEcode
  arrivals : List Arrival

/-- What `dhclient_transfer` meets: the codes of the functions that change the interface or the
leases, and the two exchanges of messages. -/
structure TransferEnv where
  socketopt : MRJEcode
  first : PackEnv
  second : PackEnv
  setResult : MRJEcode
  updateLeases : MRJEcode

/-- What `dhclient_perform` uses of `struct DhclientLeases`; of the addresses there is what
`inet_pton` makes of them. -/
structure DhclientLeases where
  ifName : String
  fixedAddress : Option (List UInt8)
  serverAddress : Option (List UInt8)
  rebind : String
  expire : String

/-- What `dhclient_perform` meets. -/
structure PerformEnv where
  initLeases : MRJEcode
  getIfleases : MRJEcode
  leases : DhclientLeases
  nowTimeBuf : String
  request : TransferEnv
  discover : TransferEnv

/-- What a run records: the session when `dhclient_parse_ack` is called, and `resout` when
`dhclient_set_result` is. -/
inductive Event where
  | ack (data : SessionHandle)
  | result (resout : DhclientOut)

/-- The events of a function, its code, and the session behind it.  There is no code if the
behaviour is undefined. -/
abbrev Effects := List Event × Option (MRJEcode × Session)

/-- The session with a frame in the receive buffer. -/
def Session.receive (s : Session) (frame : List UInt8) : Session :=
  { s with data := { s.data with
      dhcpYip := slice (octets frame) DHCP_HDR_YIP 4
      dhcpOpt := slice (octets frame) DHCP_OPT (RECV_BUF_SIZE - DHCP_OPT) } }

/-- The loop of `dhclient_recv_pack`.  A frame as long as the buffer makes it store outside.  A frame
of less than 60 bytes is not checked; if it is the last one the function succeeds, and parsing
finds no `END` in what was received. -/
def recvLoop (arrivals : List Arrival) (tvSec : ℤ) (res : MRJEcode) (s : Session) :
    Option (MRJEcode × Session) :=
  if tvSec = 0 then some (res, s)
  else match arrivals with
    | [] => some (.MRJE_TIME_OUT, s)
    | .selectFails :: _ => some (.MRJE_SELECTFAL, s)
    | .recvFails :: _ => some (.MRJE_RECV_ERROR, s.receive [])
    | .frame bytes left :: arrivals =>
        if RECV_BUF_SIZE ≤ bytes.length then none
        else if bytes.length = 0 then some (.MRJE_RECV_ERROR, s.receive [])
        else if 60 ≤ bytes.length then
          let res := dhclientCheckPack s.recvmsg s.vlan s.dhcpXid (octets bytes)
          if res = .MRJE_OK then some (res, s.receive bytes)
          else recvLoop arrivals left res (s.receive bytes)
        else recvLoop arrivals left .MRJE_OK (s.receive bytes)

/-- `dhclient_recv_pack`. -/
def dhclientRecvPack (arrivals : List Arrival) (s : Session) : Option (MRJEcode × Session) :=
  recvLoop arrivals (s.timeout.tdiv 1000) .MRJE_UNKNOWN s

/-- What `dhclient_option` changes: the transaction number is drawn once. -/
def dhclientOption (rand : ℕ) (s : Session) : Session :=
  if s.dhcpXid = 0 then { s with dhcpXid := rand % 0xffffffff } else s

/-- `dhclient_transfer_pack`. -/
def dhclientTransferPack (env : PackEnv) (s : Session) : Option (MRJEcode × Session) :=
  let s := dhclientOption env.rand s
  if env.build ≠ .MRJE_OK then some (env.build, s)
  else if env.send ≠ .MRJE_OK then some (env.send, s)
  else dhclientRecvPack env.arrivals s

/-- The end of `dhclient_transfer`: the acknowledgement is parsed and the result is set. -/
def finish (env : TransferEnv) (s : Session) : Effects :=
  match dhclientParseAck s.data with
  | none => ([.ack s.data], none)
  | some (res, data) =>
      if res ≠ .MRJE_OK then ([.ack s.data], some (res, { s with data }))
      else ([.ack s.data, .result data.resout],
        some (if env.setResult ≠ .MRJE_OK then env.setResult else env.updateLeases, { s with data }))

/-- `dhclient_transfer`. -/
def dhclientTransfer (env : TransferEnv) (s : Session) : Effects :=
  if env.socketopt ≠ .MRJE_OK then ([], some (env.socketopt, s))
  else match dhclientTransferPack env.first s with
    | none => ([], none)
    | some (res, s) =>
        if res ≠ .MRJE_OK then ([], some (res, s))
        else if s.sendmsg = .DHCPMSG_DISCOVER then
          let s := { s with sendmsg := .DHCPMSG_REQUEST, recvmsg := .DHCPMSG_ACK }
          match dhclientParseOffer s.data with
          | none => ([], none)
          | some (res, data) =>
              if res ≠ .MRJE_OK then ([], some (res, { s with data }))
              else match dhclientTransferPack env.second { s with data } with
                | none => ([], none)
                | some (res, s) => if res ≠ .MRJE_OK then ([], some (res, s)) else finish env s
        else finish env s

/-- `dhclient_perform_request`. -/
def dhclientPerformRequest (env : TransferEnv) (s : Session) : Effects :=
  dhclientTransfer env { s with sendmsg := .DHCPMSG_REQUEST, recvmsg := .DHCPMSG_ACK }

/-- `dhclient_perform_discover`. -/
def dhclientPerformDiscover (env : TransferEnv) (s : Session) : Effects :=
  dhclientTransfer env { s with sendmsg := .DHCPMSG_DISCOVER, recvmsg := .DHCPMSG_OFFER }

/-- `dhclient_conver_opt5054`. -/
def dhclientConverOpt5054 (requestip serverip : Option (List UInt8)) (opt : DhclientOptions) :
    MRJEcode × DhclientOptions :=
  match requestip with
  | none => (.MRJE_UNKNOWN, opt)
  | some ip =>
      let opt := { opt with option50Ip := ip, option50IpFlag := 1 }
      match serverip with
      | none => (.MRJE_UNKNOWN, opt)
      | some ip => (.MRJE_OK, { opt with serverIdent := ip, serverIdentFlag := 1 })

/-- The time lies between the two times of the lease, in either order. -/
def leaseRuns (nowTimeBuf : String) (leases : DhclientLeases) : Prop :=
  (leases.expire < nowTimeBuf ∧ nowTimeBuf < leases.rebind) ∨
    (leases.rebind < nowTimeBuf ∧ nowTimeBuf < leases.expire)

instance (nowTimeBuf : String) (leases : DhclientLeases) : Decidable (leaseRuns nowTimeBuf leases) :=
  inferInstanceAs (Decidable (_ ∨ _))

/-- `dhclient_perform`. -/
def dhclientPerform (env : PerformEnv) (s : Session) : Effects :=
  if env.initLeases ≠ .MRJE_OK then ([], some (env.initLeases, s))
  else if env.getIfleases ≠ .MRJE_OK then ([], some (env.getIfleases, s))
  else if env.leases.ifName ≠ s.data.ifname then dhclientPerformDiscover env.discover s
  else if leaseRuns env.nowTimeBuf env.leases then
    let (res, opt) := dhclientConverOpt5054 env.leases.fixedAddress env.leases.serverAddress s.data.opt
    let s := { s with data := { s.data with opt } }
    if res ≠ .MRJE_OK then ([], some (res, s))
    else match dhclientPerformRequest env.request s with
      | (events, none) => (events, none)
      | (events, some (res, s)) =>
          if res ≠ .MRJE_OK then
            let (events', end') := dhclientPerformDiscover env.discover s
            (events ++ events', end')
          else (events, some (res, s))
  else dhclientPerformDiscover env.discover s

/-! ### The values of an acknowledgement -/

/-- The values that an acknowledgement carries. -/
structure AckValues where
  servIdent : Option String
  leaseTime : Option ℤ
  subNetmask : Option String
  router : Option String
deriving DecidableEq

/-- The value that an option carries. -/
def noteBody (tag : UInt8) (length : ℕ) (data : List UInt8) (v : AckValues) : Option AckValues :=
  if tag = DHCP_SERVIDENT then
    (copy4 data 0).map fun ip => { v with servIdent := some (dhclientGetipstr ip) }
  else if tag = DHCP_LEASETIME then
    (copy4 data 0).map fun time => { v with leaseTime := some (toInt32 (beNat time)) }
  else if tag = DHCP_SUBNETMASK then
    (copy4 data 0).map fun ip => { v with subNetmask := some (dhclientGetipstr ip) }
  else if tag = DHCP_ROUTER then
    (addresses length data).map fun ips => { v with router := ips.getLast?.or v.router }
  else if tag = DHCP_DNS then (addresses length data).map fun _ => v
  else if tag = DHCP_FQDN then if copiesFqdn length data then some v else none
  else some v

/-- The values that the options of an acknowledgement carry, if the walk has a result. -/
def carried (dhcpOpt : List UInt8) : Option AckValues := walkOptions noteBody dhcpOpt ⟨none, none, none, none⟩

/-- A value that is not carried stays as it is. -/
def AckValues.over (v : AckValues) (out : DhclientOut) : DhclientOut :=
  { out with
    servIdent := v.servIdent.getD out.servIdent
    leaseTime := v.leaseTime.getD out.leaseTime
    subNetmask := v.subNetmask.getD out.subNetmask
    router := v.router.getD out.router }

/-- The loop of `dhclient_parse_ack` overwrites what the option carries. -/
lemma ackBody_over (out : DhclientOut) (tag : UInt8) (length : ℕ) (data : List UInt8) (v : AckValues) :
    ackBody tag length data (v.over out) = (noteBody tag length data v).map fun v => v.over out := by
  rw [ackBody, noteBody]
  split_ifs
  · cases copy4 data 0 <;> rfl
  · cases copy4 data 0 <;> rfl
  · cases copy4 data 0 <;> rfl
  · cases addresses length data with
    | none => rfl
    | some ips =>
        simp only [Option.map_some, AckValues.over, Option.some.injEq, DhclientOut.mk.injEq, true_and,
          and_true]
        cases ips.getLast? <;> rfl
  · cases addresses length data <;> rfl
  · rfl
  · rfl
  · rfl

lemma walk_ackBody_eq (dhcpOpt : List UInt8) (out : DhclientOut) :
    walkOptions ackBody dhcpOpt out = (carried dhcpOpt).map fun v => v.over out :=
  walk_map (fun v : AckValues => v.over out) (ackBody_over out) (dhcpOpt.length + 1) dhcpOpt
    ⟨none, none, none, none⟩

lemma dhclientGetipstr_ne_empty {ip : List UInt8} (h : ip ≠ []) : dhclientGetipstr ip ≠ "" := by
  rcases ip with _ | ⟨b, _ | ⟨b', ip⟩⟩
  · exact absurd rfl h
  · simp [dhclientGetipstr]
  · have hne : toString b.toNat ≠ "" := Nat.repr_ne_empty
    simp only [dhclientGetipstr, List.map_cons, String.intercalate_cons_cons, ne_eq,
      String.append_eq_empty_iff, hne, false_and, not_false_eq_true]

/-- The texts carried are not empty. -/
def AckValues.Texts (v : AckValues) : Prop :=
  v.servIdent ≠ some "" ∧ v.subNetmask ≠ some "" ∧ v.router ≠ some ""

lemma copy4_ne_nil {data ip : List UInt8} {off : ℕ} (h : copy4 data off = some ip) : ip ≠ [] := by
  rw [copy4] at h
  split_ifs at h with hlen
  rw [← Option.some.inj h]
  exact List.ne_nil_of_length_pos (by rw [List.length_take, List.length_drop]; omega)

lemma mem_mapM {α β : Type} {f : α → Option β} :
    ∀ {l : List α} {bs : List β}, l.mapM f = some bs → ∀ b ∈ bs, ∃ a, f a = some b := by
  intro l
  induction l with
  | nil =>
      intro bs h b hb
      obtain rfl : [] = bs := Option.some.inj h
      exact absurd hb List.not_mem_nil
  | cons a l ih =>
      intro bs h b hb
      rw [List.mapM_cons] at h
      obtain ⟨b', hb', h⟩ := Option.bind_eq_some_iff.1 h
      obtain ⟨bs', hbs', h⟩ := Option.bind_eq_some_iff.1 h
      obtain rfl : b' :: bs' = bs := Option.some.inj h
      rcases List.mem_cons.1 hb with rfl | hb
      · exact ⟨a, hb'⟩
      · exact ih hbs' b hb

lemma addresses_ne_empty {length : ℕ} {data : List UInt8} {ips : List String}
    (h : addresses length data = some ips) : "" ∉ ips := by
  intro hmem
  obtain ⟨k, hk⟩ := mem_mapM h "" hmem
  obtain ⟨ip, hip, htext⟩ := Option.map_eq_some_iff.1 hk
  exact dhclientGetipstr_ne_empty (copy4_ne_nil hip) htext

lemma noteBody_texts (tag : UInt8) (length : ℕ) (data : List UInt8) (v v' : AckValues) (hv : v.Texts)
    (h : noteBody tag length data v = some v') : v'.Texts := by
  obtain ⟨hserv, hmask, hrouter⟩ := hv
  have hword : ∀ {ip}, copy4 data 0 = some ip → some (dhclientGetipstr ip) ≠ some "" := by
    intro ip hip heq
    exact dhclientGetipstr_ne_empty (copy4_ne_nil hip) (Option.some.inj heq)
  rw [noteBody] at h
  split_ifs at h
  · obtain ⟨ip, hip, rfl⟩ := Option.map_eq_some_iff.1 h
    exact ⟨hword hip, hmask, hrouter⟩
  · obtain ⟨time, -, rfl⟩ := Option.map_eq_some_iff.1 h
    exact ⟨hserv, hmask, hrouter⟩
  · obtain ⟨ip, hip, rfl⟩ := Option.map_eq_some_iff.1 h
    exact ⟨hserv, hword hip, hrouter⟩
  · obtain ⟨ips, hips, rfl⟩ := Option.map_eq_some_iff.1 h
    refine ⟨hserv, hmask, ?_⟩
    dsimp only
    cases hlast : ips.getLast? with
    | none => exact hrouter
    | some ip =>
        rintro heq
        obtain rfl : ip = "" := Option.some.inj heq
        exact addresses_ne_empty hips (List.mem_of_getLast? hlast)
  · obtain ⟨ips, -, rfl⟩ := Option.map_eq_some_iff.1 h
    exact ⟨hserv, hmask, hrouter⟩
  · rw [← Option.some.inj h]
    exact ⟨hserv, hmask, hrouter⟩
  · rw [← Option.some.inj h]
    exact ⟨hserv, hmask, hrouter⟩

lemma carried_texts {dhcpOpt : List UInt8} {v : AckValues} (h : carried dhcpOpt = some v) : v.Texts :=
  walk_invariant noteBody_texts (by simp [AckValues.Texts]) h

/-! ### Results and acknowledgements -/

/-- The address of the result is that in the header of the acknowledgement, and its options carry
the other four values. -/
structure FromAck (data : SessionHandle) (out : DhclientOut) : Prop where
  header : out.fixedAddress = dhclientGetipstr data.dhcpYip
  options : carried data.dhcpOpt =
    some ⟨some out.servIdent, some out.leaseTime, some out.subNetmask, some out.router⟩

/-- Every result has its values from the acknowledgement that was parsed last. -/
def ResultsFromLastAck : Option SessionHandle → List Event → Prop
  | _, [] => True
  | _, .ack data :: events => ResultsFromLastAck (some data) events
  | last, .result out :: events => (∃ data ∈ last, FromAck data out) ∧ ResultsFromLastAck last events

/-- The acknowledgement carries all four values, or lacks a text that is empty in `resout` too, or
the lease time is not positive. -/
def NoMix (data : SessionHandle) : Prop :=
  ∀ v ∈ carried data.dhcpOpt,
    (v.servIdent.isSome ∧ v.leaseTime.isSome ∧ v.subNetmask.isSome ∧ v.router.isSome) ∨
    (v.servIdent = none ∧ data.resout.servIdent = "") ∨
    (v.subNetmask = none ∧ data.resout.subNetmask = "") ∨
    (v.router = none ∧ data.resout.router = "") ∨
    v.leaseTime.getD data.resout.leaseTime ≤ 0

instance (data : SessionHandle) : Decidable (NoMix data) :=
  inferInstanceAs (Decidable (∀ v ∈ carried data.dhcpOpt, _))

lemma getD_eq_empty_iff {x : Option String} (hx : x ≠ some "") (old : String) :
    x.getD old = "" ↔ x = none ∧ old = "" := by
  cases x <;> simp_all

lemma getD_of_isSome {α : Type} {x : Option α} (h : x.isSome) (a : α) : x = some (x.getD a) := by
  cases x <;> simp_all

/-- The values over the old ones are those of the acknowledgement exactly if it carries all of
them. -/
lemma fromAck_over_iff {data : SessionHandle} {v : AckValues} (hv : carried data.dhcpOpt = some v) :
    FromAck data (v.over (ackStart data)) ↔
      v.servIdent.isSome ∧ v.leaseTime.isSome ∧ v.subNetmask.isSome ∧ v.router.isSome := by
  constructor
  · rintro ⟨-, h⟩
    rw [Option.some.inj (hv.symm.trans h)]
    exact ⟨rfl, rfl, rfl, rfl⟩
  · rintro ⟨hserv, hlease, hmask, hrouter⟩
    refine ⟨rfl, hv.trans ?_⟩
    rw [AckValues.over]
    dsimp only
    rw [← getD_of_isSome hserv, ← getD_of_isSome hlease, ← getD_of_isSome hmask, ← getD_of_isSome hrouter]

/-- What `dhclient_parse_ack` accepts. -/
def Accepted (out : DhclientOut) : Prop :=
  out.fixedAddress ≠ "" ∧ out.servIdent ≠ "" ∧ out.router ≠ "" ∧ out.subNetmask ≠ "" ∧ 0 < out.leaseTime

instance (out : DhclientOut) : Decidable (Accepted out) := inferInstanceAs (Decidable (_ ∧ _))

/-- `dhclient_parse_ack` puts the values carried over the old ones. -/
lemma dhclientParseAck_eq (data : SessionHandle) :
    dhclientParseAck data = (carried data.dhcpOpt).map fun v =>
      (if Accepted (v.over (ackStart data)) then .MRJE_OK else .MRJE_UNKNOWN,
        { data with resout := v.over (ackStart data) }) := by
  rw [dhclientParseAck, walk_ackBody_eq, Option.map_map]
  rfl

lemma accepted_iff {data : SessionHandle} {v : AckValues} (hv : carried data.dhcpOpt = some v)
    (hyip : data.dhcpYip ≠ []) : Accepted (v.over (ackStart data)) ↔
    ¬ ((v.servIdent = none ∧ data.resout.servIdent = "") ∨
      (v.subNetmask = none ∧ data.resout.subNetmask = "") ∨
      (v.router = none ∧ data.resout.router = "") ∨
      v.leaseTime.getD data.resout.leaseTime ≤ 0) := by
  obtain ⟨hserv, hmask, hrouter⟩ := carried_texts hv
  have hfixed : (v.over (ackStart data)).fixedAddress ≠ "" := dhclientGetipstr_ne_empty hyip
  simp only [← getD_eq_empty_iff hserv, ← getD_eq_empty_iff hmask, ← getD_eq_empty_iff hrouter]
  rw [← not_lt, not_or, not_or, not_or, not_not]
  constructor
  · rintro ⟨-, h54, h3, h1, h51⟩
    exact ⟨h54, h1, h3, h51⟩
  · rintro ⟨h54, h1, h3, h51⟩
    exact ⟨hfixed, h54, h3, h1, h51⟩

/-- **One acknowledgement.**  The result set is its own if and only if nothing is mixed. -/
lemma finish_iff (env : TransferEnv) {s : Session} (hyip : s.data.dhcpYip ≠ []) :
    ResultsFromLastAck none (finish env s).1 ↔ NoMix s.data := by
  rw [finish, dhclientParseAck_eq, NoMix]
  cases hc : carried s.data.dhcpOpt with
  | none => simp [ResultsFromLastAck]
  | some v =>
      have haccepted := accepted_iff hc hyip
      have hfrom := fromAck_over_iff hc
      simp only [Option.map_some, Option.mem_def, Option.some.injEq, forall_eq']
      by_cases hok : Accepted (v.over (ackStart s.data))
      · -- the result is set
        rw [if_pos hok, if_neg (not_not.2 rfl)]
        simp only [ResultsFromLastAck, Option.mem_def, Option.some.injEq, exists_eq_left', and_true]
        rw [hfrom]
        exact (or_iff_left (haccepted.1 hok)).symm
      · rw [if_neg hok, if_pos (by decide)]
        simp only [ResultsFromLastAck, true_iff]
        exact Or.inr (not_not.1 fun h => hok (haccepted.2 h))

lemma receive_dhcpYip_ne_nil (s : Session) (frame : List UInt8) : (s.receive frame).data.dhcpYip ≠ [] :=
  List.ne_nil_of_length_pos (by rw [Session.receive]; simp)

/-- When the loop succeeds there is a frame in the receive buffer. -/
lemma recvLoop_ok : ∀ {arrivals : List Arrival} {tvSec : ℤ} {res : MRJEcode} {s s' : Session},
    (res = .MRJE_OK → s.data.dhcpYip ≠ []) → recvLoop arrivals tvSec res s = some (.MRJE_OK, s') →
    s'.data.dhcpYip ≠ [] := by
  intro arrivals
  induction arrivals with
  | nil =>
      intro tvSec res s s' hres h
      rw [recvLoop] at h
      split_ifs at h
      · simp only [Option.some.injEq, Prod.mk.injEq] at h
        rw [← h.2]
        exact hres h.1
      · simp at h
  | cons arrival arrivals ih =>
      intro tvSec res s s' hres h
      rw [recvLoop.eq_def] at h
      split_ifs at h
      · simp only [Option.some.injEq, Prod.mk.injEq] at h
        rw [← h.2]
        exact hres h.1
      · cases arrival with
        | selectFails => simp at h
        | recvFails => simp at h
        | frame bytes left =>
            dsimp only at h
            split_ifs at h
            · simp at h
            · simp only [Option.some.injEq, Prod.mk.injEq] at h
              rw [← h.2]
              exact receive_dhcpYip_ne_nil s bytes
            · exact ih (fun _ => receive_dhcpYip_ne_nil s bytes) h
            · exact ih (fun _ => receive_dhcpYip_ne_nil s bytes) h

lemma dhclientTransferPack_ok {env : PackEnv} {s s' : Session}
    (h : dhclientTransferPack env s = some (.MRJE_OK, s')) : s'.data.dhcpYip ≠ [] := by
  rw [dhclientTransferPack] at h
  split_ifs at h with hbuild hsend
  · exact absurd (Prod.mk.inj (Option.some.inj h)).1 hbuild
  · exact absurd (Prod.mk.inj (Option.some.inj h)).1 hsend
  · exact recvLoop_ok (by simp) h

/-- The events of a transaction: if there are any, the first is that an acknowledgement is parsed,
and every result is its own if and only if nothing is mixed. -/
structure Transaction (events : List Event) : Prop where
  head : events = [] ∨ ∃ data rest, events = .ack data :: rest
  results : ResultsFromLastAck none events ↔ ∀ data, Event.ack data ∈ events → NoMix data

lemma transaction_nil : Transaction [] := ⟨Or.inl rfl, by simp [ResultsFromLastAck]⟩

lemma finish_events (env : TransferEnv) (s : Session) :
    ∃ rest, (finish env s).1 = .ack s.data :: rest ∧ ∀ data, Event.ack data ∉ rest := by
  rw [finish]
  split
  · exact ⟨[], rfl, by simp⟩
  · split
    · exact ⟨[], rfl, by simp⟩
    · exact ⟨[_], rfl, by simp⟩

lemma transaction_finish (env : TransferEnv) {s : Session} (hyip : s.data.dhcpYip ≠ []) :
    Transaction (finish env s).1 := by
  obtain ⟨rest, hevents, hrest⟩ := finish_events env s
  refine ⟨Or.inr ⟨s.data, rest, hevents⟩, ?_⟩
  rw [finish_iff env hyip, hevents]
  constructor
  · intro h data hdata
    rcases List.mem_cons.1 hdata with heq | hmem
    · rwa [Event.ack.inj heq]
    · exact absurd hmem (hrest data)
  · intro h
    exact h s.data List.mem_cons_self

lemma transaction_dhclientTransfer (env : TransferEnv) (s : Session) :
    Transaction (dhclientTransfer env s).1 := by
  rw [dhclientTransfer]
  split_ifs with hsocket
  · exact transaction_nil
  cases hfirst : dhclientTransferPack env.first s with
  | none => exact transaction_nil
  | some r =>
      obtain ⟨res, s₁⟩ := r
      dsimp only
      split_ifs with hres hdiscover
      · exact transaction_nil
      · -- an offer, and the second exchange
        cases hoffer : dhclientParseOffer s₁.data with
        | none => exact transaction_nil
        | some r =>
            obtain ⟨res', data⟩ := r
            dsimp only
            split_ifs
            · exact transaction_nil
            cases hsecond : dhclientTransferPack env.second { s₁ with
                data, sendmsg := .DHCPMSG_REQUEST, recvmsg := .DHCPMSG_ACK } with
            | none => exact transaction_nil
            | some r =>
                obtain ⟨res'', s₂⟩ := r
                dsimp only
                split_ifs with hres''
                · exact transaction_nil
                · rw [not_not] at hres''
                  exact transaction_finish env (dhclientTransferPack_ok (hres'' ▸ hsecond))
      · rw [not_not] at hres
        exact transaction_finish env (dhclientTransferPack_ok (hres ▸ hfirst))

/-- A transaction that starts with an acknowledgement does not depend on what was before. -/
lemma resultsFromLastAck_of_head {events : List Event}
    (h : events = [] ∨ ∃ data rest, events = .ack data :: rest) (last : Option SessionHandle) :
    ResultsFromLastAck last events ↔ ResultsFromLastAck none events := by
  rcases h with rfl | ⟨data, rest, rfl⟩ <;> rfl

lemma resultsFromLastAck_append {events' : List Event}
    (h : events' = [] ∨ ∃ data rest, events' = .ack data :: rest) (events : List Event) :
    ∀ last, ResultsFromLastAck last (events ++ events') ↔
      ResultsFromLastAck last events ∧ ResultsFromLastAck none events' := by
  induction events with
  | nil =>
      intro last
      rw [List.nil_append, resultsFromLastAck_of_head h]
      simp [ResultsFromLastAck]
  | cons event events ih =>
      intro last
      cases event with
      | ack data => exact ih (some data)
      | result out =>
          rw [List.cons_append, ResultsFromLastAck, ResultsFromLastAck, ih last, and_assoc]

lemma Transaction.append {events events' : List Event} (h : Transaction events)
    (h' : Transaction events') : Transaction (events ++ events') := by
  constructor
  · rcases h.head with rfl | ⟨data, rest, rfl⟩
    · exact h'.head
    · exact Or.inr ⟨data, rest ++ events', rfl⟩
  · rw [resultsFromLastAck_append h'.head, h.results, h'.results]
    simp only [List.mem_append, or_imp, forall_and]

lemma transaction_dhclientPerform (env : PerformEnv) (s : Session) :
    Transaction (dhclientPerform env s).1 := by
  have hdiscover : ∀ s, Transaction (dhclientPerformDiscover env.discover s).1 :=
    fun s => transaction_dhclientTransfer env.discover _
  rw [dhclientPerform]
  dsimp only
  split_ifs
  · exact transaction_nil
  · exact transaction_nil
  · exact hdiscover s
  · exact transaction_nil
  · -- the request, and the discovery if it fails
    generalize { s with data := _ } = s₁
    have hrequest : Transaction (dhclientPerformRequest env.request s₁).1 :=
      transaction_dhclientTransfer env.request _
    rcases hr : dhclientPerformRequest env.request s₁ with ⟨events, _ | ⟨res, s₂⟩⟩
    · rw [hr] at hrequest
      exact hrequest
    · rw [hr] at hrequest
      dsimp only
      split_ifs
      · exact hrequest.append (hdiscover s₂)
      · exact hrequest
  · exact hdiscover s

/-- An exchange in which one frame arrives. -/
def oneFrame (frame : List UInt8) : PackEnv where
  rand := 0x01020304
  build := .MRJE_OK
  send := .MRJE_OK
  arrivals := [.frame frame 4]

/-- The lease still runs.  The acknowledgement of the request has no router, so the request fails.
In the discovery another server answers, and its acknowledgement has no subnet mask. -/
def twoServers : PerformEnv where
  initLeases := .MRJE_OK
  getIfleases := .MRJE_OK
  leases := ⟨"eth0", some [192, 168, 0, 17], some [192, 168, 0, 1],
    "2020-01-01 10:45:00", "2020-01-01 11:00:00"⟩
  nowTimeBuf := "2020-01-01 10:50:00"
  request :=
    { socketopt := .MRJE_OK
      first := oneFrame (frameOf [1, 2, 3, 4] [192, 168, 0, 17]
        [0x35, 1, DHCP_MSGACK, DHCP_SERVIDENT, 4, 192, 168, 0, 1, DHCP_LEASETIME, 4, 0, 0, 14, 16,
          DHCP_SUBNETMASK, 4, 255, 255, 255, 0, DHCP_END])
      second := oneFrame []
      setResult := .MRJE_OK
      updateLeases := .MRJE_OK }
  discover :=
    { socketopt := .MRJE_OK
      first := oneFrame (frameOf [1, 2, 3, 4] [10, 0, 0, 17]
        [0x35, 1, DHCP_MSGOFFER, DHCP_SERVIDENT, 4, 10, 0, 0, 1, DHCP_END])
      second := oneFrame (frameOf [1, 2, 3, 4] [10, 0, 0, 17]
        [0x35, 1, DHCP_MSGACK, DHCP_SERVIDENT, 4, 10, 0, 0, 1, DHCP_LEASETIME, 4, 0, 0, 14, 16,
          DHCP_ROUTER, 4, 10, 0, 0, 1, DHCP_END])
      setResult := .MRJE_OK
      updateLeases := .MRJE_OK }

/-- A session as `dhclient_init` makes it, with an interface and a time to wait. -/
def freshSession : Session where
  data := ⟨[], [], "eth0", false, ⟨0, [], [], 0⟩, ⟨"", "", "", "", "", 0⟩⟩
  timeout := 5000
  vlan := 0
  dhcpXid := 0
  sendmsg := .DHCPMSG_NONE
  recvmsg := .DHCPMSG_NONE

end DeviceTools.Dhcp
