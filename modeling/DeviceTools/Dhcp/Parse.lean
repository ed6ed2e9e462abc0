/-
The options of offers and acknowledgements.

`dhclient_parse_offer` takes the server identifier from an offer, and `dhclient_parse_ack` takes
the server identifier, the lease time, the subnet mask and the router from an acknowledgement.
Besides the `PAD` bytes there are three more things that the option list and the functions may
not agree on: of several routers the last one is taken, a lease time is stored in a signed
variable, and the number of bytes copied of option 81 is computed from its length and the three
bytes behind it.
-/
import DeviceTools.Dhcp.Options

namespace DeviceTools.Dhcp

open ByteWord

/-- The codes that the functions return. -/
inductive MRJEcode where
  | MRJE_OK
  | MRJE_UNKNOWN
  | MRJE_SELECTFAL
  | MRJE_TIME_OUT
  | MRJE_UNSUPPORTED_PROTOCOL
  | MRJE_RECV_ERROR
  | MRJE_RECV_NAK
deriving DecidableEq, Repr

/-- What the functions set of `struct DhclientOptions`; addresses are in network order. -/
structure DhclientOptions where
  option50IpFlag : ℕ
  option50Ip : List UInt8
  serverIdent : List UInt8
  serverIdentFlag : ℕ
deriving DecidableEq

/-- `struct DhclientOut`. -/
structure DhclientOut where
  ifName : String
  fixedAddress : String
  servIdent : String
  subNetmask : String
  router : String
  leaseTime : ℤ
deriving DecidableEq

/-- What the functions use of `struct SessionHandle`.  `dhcpOpt` is the receive buffer from
`dhcp_optp` on. -/
structure SessionHandle where
  dhcpYip : List UInt8
  dhcpOpt : List UInt8
  ifname : String
  verbose : Bool
  opt : DhclientOptions
  resout : DhclientOut

/-- `dhclient_getipstr`: `inet_ntop` on four bytes, which fits the buffer. -/
def dhclientGetipstr (ip : List UInt8) : String :=
  ".".intercalate (ip.map fun b => toString b.toNat)

/-- Four bytes of the receive buffer. -/
def copy4 (data : List UInt8) (off : ℕ) : Option (List UInt8) :=
  if data.length < off + 4 then none else some ((data.drop off).take 4)

/-- The texts of the addresses in the data of an option. -/
def addresses (length : ℕ) (data : List UInt8) : Option (List String) :=
  (List.range (length / 4)).mapM fun k => (copy4 data (4 * k)).map dhclientGetipstr

/-- The value of a variable of type `int` after a 32-bit number was stored in it. -/
def toInt32 (n : ℕ) : ℤ := if n < 2 ^ 31 then n else n - 2 ^ 32

/-- The number of bytes copied of option 81: four bytes are read from the length on, of which
the length is the lowest one. -/
def fqdnSize (length : ℕ) (data : List UInt8) : ℕ :=
  (leNat (UInt8.ofNat length :: data.take 3) + 2 ^ 32 - 3) % 2 ^ 32

/-- The copies made of option 81, from behind its flags on. -/
def copiesFqdn (length : ℕ) (data : List UInt8) : Bool :=
  3 ≤ data.length && 3 + fqdnSize length data ≤ data.length

/-- The first loop of `dhclient_parse_offer`. -/
def offerBody (tag : UInt8) (_length : ℕ) (data : List UInt8) (opt : DhclientOptions) :
    Option DhclientOptions :=
  if tag = DHCP_SERVIDENT then
    (copy4 data 0).map fun ip => { opt with serverIdent := ip, serverIdentFlag := 1 }
  else some opt

/-- The second loop of `dhclient_parse_offer`, which prints the options. -/
def offerDetails (tag : UInt8) (length : ℕ) (data : List UInt8) (_ : Unit) : Option Unit :=
  if tag = DHCP_SERVIDENT ∨ tag = DHCP_LEASETIME ∨ tag = DHCP_SUBNETMASK then
    (copy4 data 0).map fun _ => ()
  else if tag = DHCP_ROUTER ∨ tag = DHCP_DNS then (addresses length data).map fun _ => ()
  else if tag = DHCP_FQDN then if copiesFqdn length data then some () else none
  else some ()

/-- `dhclient_parse_offer`. -/
def dhclientParseOffer (data : SessionHandle) : Option (MRJEcode × SessionHandle) :=
  let opt := { data.opt with option50IpFlag := 1, option50Ip := data.dhcpYip }
  (walkOptions offerBody data.dhcpOpt opt).bind fun opt =>
    if data.verbose then
      (walkOptions offerDetails data.dhcpOpt ()).map fun _ => (.MRJE_OK, { data with opt })
    else some (.MRJE_OK, { data with opt })

/-- The loop of `dhclient_parse_ack`. -/
def ackBody (tag : UInt8) (length : ℕ) (data : List UInt8) (out : DhclientOut) :
    Option DhclientOut :=
  if tag = DHCP_SERVIDENT then
    (copy4 data 0).map fun ip => { out with servIdent := dhclientGetipstr ip }
  else if tag = DHCP_LEASETIME then
    (copy4 data 0).map fun time => { out with leaseTime := toInt32 (beNat time) }
  else if tag = DHCP_SUBNETMASK then
    (copy4 data 0).map fun ip => { out with subNetmask := dhclientGetipstr ip }
  else if tag = DHCP_ROUTER then
    (addresses length data).map fun ips => { out with router := ips.getLast?.getD out.router }
  else if tag = DHCP_DNS then (addresses length data).map fun _ => out
  else if tag = DHCP_FQDN then if copiesFqdn length data then some out else none
  else some out

/-- The result before the loop of `dhclient_parse_ack`. -/
def ackStart (data : SessionHandle) : DhclientOut :=
  { data.resout with
    fixedAddress := dhclientGetipstr data.dhcpYip, ifName := String.ofList (data.ifname.toList.take 31) }

/-- `dhclient_parse_ack`. -/
def dhclientParseAck (data : SessionHandle) : Option (MRJEcode × SessionHandle) :=
  (walkOptions ackBody data.dhcpOpt (ackStart data)).map fun resout =>
    (if resout.fixedAddress ≠ "" ∧ resout.servIdent ≠ "" ∧ resout.router ≠ "" ∧
        resout.subNetmask ≠ "" ∧ 0 < resout.leaseTime then .MRJE_OK else .MRJE_UNKNOWN,
      { data with resout })

/-! ### The options as the list defines them -/

/-- The options that the functions take values from occur at most once and have the length that
their value requires. -/
structure WellFormed (items : List Item) : Prop where
  once : ∀ tag ∈ [DHCP_SERVIDENT, DHCP_LEASETIME, DHCP_SUBNETMASK, DHCP_ROUTER],
    ((options items).filter fun o => o.tag = tag).length ≤ 1
  word : ∀ o ∈ options items,
    o.tag = DHCP_SERVIDENT ∨ o.tag = DHCP_LEASETIME ∨ o.tag = DHCP_SUBNETMASK → o.data.length = 4
  routers : ∀ o ∈ options items, o.tag = DHCP_ROUTER → o.data ≠ [] ∧ 4 ∣ o.data.length

/-- The bytes copied of every option 81 are in the receive buffer. -/
def FqdnInside (rest : List UInt8) (items : List Item) : Prop :=
  AtOptions (fun o after => o.tag = DHCP_FQDN → copiesFqdn o.data.length (o.data ++ after) = true)
    rest items

/-- The last address of an option. -/
def lastAddress (data : List UInt8) : List UInt8 := data.drop (data.length - 4)

/-- What an option of an acknowledgement sets. -/
def ackEffect (o : DhcpOption) (out : DhclientOut) : DhclientOut :=
  if o.tag = DHCP_SERVIDENT then { out with servIdent := dhclientGetipstr o.data }
  else if o.tag = DHCP_LEASETIME then { out with leaseTime := toInt32 (beNat o.data) }
  else if o.tag = DHCP_SUBNETMASK then { out with subNetmask := dhclientGetipstr o.data }
  else if o.tag = DHCP_ROUTER then { out with router := dhclientGetipstr (lastAddress o.data) }
  else out

/-- What an option of an offer sets. -/
def offerEffect (o : DhcpOption) (opt : DhclientOptions) : DhclientOptions :=
  if o.tag = DHCP_SERVIDENT then { opt with serverIdent := o.data, serverIdentFlag := 1 } else opt

lemma copy4_word {data : List UInt8} (h : data.length = 4) (after : List UInt8) :
    copy4 (data ++ after) 0 = some data := by
  rw [copy4, if_neg (by rw [List.length_append]; omega), List.drop_zero, ← h, List.take_left]

lemma mapM_some {α β : Type} {f : α → Option β} {g : α → β} :
    ∀ {l : List α}, (∀ a ∈ l, f a = some (g a)) → l.mapM f = some (l.map g) := by
  intro l
  induction l with
  | nil => intro _; rfl
  | cons a l ih =>
      intro h
      rw [List.mapM_cons, h a (by simp), ih fun b hb => h b (by simp [hb])]
      rfl

lemma addresses_eq (data after : List UInt8) : addresses data.length (data ++ after) =
    some ((List.range (data.length / 4)).map fun k => dhclientGetipstr ((data.drop (4 * k)).take 4)) := by
  refine mapM_some fun k hk => ?_
  have hlt : 4 * k + 4 ≤ data.length := by
    rw [List.mem_range] at hk
    omega
  rw [copy4, if_neg (by rw [List.length_append]; omega), Option.map_some,
    List.drop_append_of_le_length (by omega), List.take_append_of_le_length (by
      rw [List.length_drop]; omega)]

/-- The address that is left of several ones is the last. -/
lemma getLast_addresses {data : List UInt8} (hne : data ≠ []) (hdvd : 4 ∣ data.length) (old : String) :
    (((List.range (data.length / 4)).map fun k =>
      dhclientGetipstr ((data.drop (4 * k)).take 4)).getLast?).getD old =
        dhclientGetipstr (lastAddress data) := by
  have hpos := List.length_pos_iff.2 hne
  obtain ⟨m, hm⟩ := hdvd
  obtain ⟨k, rfl⟩ : ∃ k, m = k + 1 := ⟨m - 1, by omega⟩
  rw [hm, Nat.mul_div_cancel_left _ (by decide), List.range_succ, List.map_append, List.map_singleton,
    List.getLast?_concat, Option.getD_some, lastAddress, hm, Nat.mul_succ, Nat.add_sub_cancel,
    List.take_of_length_le]
  rw [List.length_drop]
  omega

/-- What the loop of `dhclient_parse_ack` does at an option. -/
lemma ackBody_eq {items : List Item} (h : WellFormed items) {o : DhcpOption} (ho : o ∈ options items)
    {after : List UInt8}
    (hfqdn : o.tag = DHCP_FQDN → copiesFqdn o.data.length (o.data ++ after) = true)
    (out : DhclientOut) :
    ackBody o.tag o.data.length (o.data ++ after) out = some (ackEffect o out) := by
  rw [ackBody, ackEffect]
  by_cases h54 : o.tag = DHCP_SERVIDENT
  · rw [if_pos h54, if_pos h54, copy4_word (h.word o ho (Or.inl h54))]
    rfl
  rw [if_neg h54, if_neg h54]
  by_cases h51 : o.tag = DHCP_LEASETIME
  · rw [if_pos h51, if_pos h51, copy4_word (h.word o ho (Or.inr (Or.inl h51)))]
    rfl
  rw [if_neg h51, if_neg h51]
  by_cases h1 : o.tag = DHCP_SUBNETMASK
  · rw [if_pos h1, if_pos h1, copy4_word (h.word o ho (Or.inr (Or.inr h1)))]
    rfl
  rw [if_neg h1, if_neg h1]
  by_cases h3 : o.tag = DHCP_ROUTER
  · obtain ⟨hne, hdvd⟩ := h.routers o ho h3
    rw [if_pos h3, if_pos h3, addresses_eq, Option.map_some, getLast_addresses hne hdvd]
  rw [if_neg h3, if_neg h3]
  by_cases h6 : o.tag = DHCP_DNS
  · rw [if_pos h6, addresses_eq, Option.map_some]
  rw [if_neg h6]
  by_cases h81 : o.tag = DHCP_FQDN
  · rw [if_pos h81, if_pos (hfqdn h81)]
  · rw [if_neg h81]

lemma offerBody_eq {items : List Item} (h : WellFormed items) {o : DhcpOption} (ho : o ∈ options items)
    (after : List UInt8) (opt : DhclientOptions) :
    offerBody o.tag o.data.length (o.data ++ after) opt = some (offerEffect o opt) := by
  rw [offerBody, offerEffect]
  by_cases h54 : o.tag = DHCP_SERVIDENT
  · rw [if_pos h54, if_pos h54, copy4_word (h.word o ho (Or.inl h54))]
    rfl
  · rw [if_neg h54, if_neg h54]

lemma offerDetails_eq {items : List Item} (h : WellFormed items) {o : DhcpOption}
    (ho : o ∈ options items) {after : List UInt8}
    (hfqdn : o.tag = DHCP_FQDN → copiesFqdn o.data.length (o.data ++ after) = true) (u : Unit) :
    offerDetails o.tag o.data.length (o.data ++ after) u = some () := by
  rw [offerDetails]
  split
  · next hword =>
      have hlen := h.word o ho (by tauto)
      rw [copy4_word hlen]
      rfl
  · split
    · rw [addresses_eq, Option.map_some]
    · split
      · next h81 => rw [if_pos (hfqdn h81)]
      · rfl

/-- The values of an acknowledgement are as the option list defines them.  Routers are listed in
order of preference, so the first one is the router.  Without an option the old value stays. -/
structure AckDecodes (items : List Item) (old out : DhclientOut) : Prop where
  servIdent : out.servIdent = ((value items DHCP_SERVIDENT).map dhclientGetipstr).getD old.servIdent
  leaseTime : out.leaseTime = ((value items DHCP_LEASETIME).map fun d => (beNat d : ℤ)).getD old.leaseTime
  subNetmask : out.subNetmask = ((value items DHCP_SUBNETMASK).map dhclientGetipstr).getD old.subNetmask
  router : out.router =
    ((value items DHCP_ROUTER).map fun d => dhclientGetipstr (d.take 4)).getD old.router

section
variable {items : List Item} {rest : List UInt8}

/-- The bytes copied of option 81 are in the receive buffer if the walk has a result. -/
lemma fqdnInside_of_walk {σ : Type} {body : UInt8 → ℕ → List UInt8 → σ → Option σ}
    (hpad : ∀ n data s, body DHCP_PAD n data s = some s)
    (hfqdn : ∀ length data s, body DHCP_FQDN length data s = if copiesFqdn length data then some s else none)
    (hpairs : PaddedInPairs items) {s s' : σ}
    (h : walkOptions body (optionArea items rest) s = some s') : FqdnInside rest items := by
  refine AtOptions.imp (fun o _ after hbody h81 => ?_) (body_of_walkOptions hpad rest items s s' hpairs h)
  obtain ⟨s₁, s₂, hs⟩ := hbody
  rw [h81, hfqdn] at hs
  by_contra hc
  rw [if_neg hc] at hs
  simp at hs

lemma walk_offerBody (hwf : WellFormed items) (hpairs : PaddedInPairs items) (opt : DhclientOptions) :
    walkOptions offerBody (optionArea items rest) opt =
      some ((options items).foldl (fun opt o => offerEffect o opt) opt) := by
  refine walkOptions_area (fun _ _ _ => rfl) rest offerEffect items opt hpairs ?_
  exact AtOptions.imp (fun o ho after _ opt => offerBody_eq hwf ho after opt) (atOptions_true rest items)

lemma walk_offerDetails (hwf : WellFormed items) (hpairs : PaddedInPairs items)
    (hfqdn : FqdnInside rest items) : walkOptions offerDetails (optionArea items rest) () = some () :=
  walkOptions_area (fun _ _ _ => rfl) rest (fun _ u => u) items () hpairs
    (AtOptions.imp (fun _ ho _ h81 u => offerDetails_eq hwf ho h81 u) hfqdn)

lemma walk_ackBody (hwf : WellFormed items) (hpairs : PaddedInPairs items)
    (hfqdn : FqdnInside rest items) (out : DhclientOut) :
    walkOptions ackBody (optionArea items rest) out =
      some ((options items).foldl (fun out o => ackEffect o out) out) :=
  walkOptions_area (fun _ _ _ => rfl) rest ackEffect items out hpairs
    (AtOptions.imp (fun _ ho _ h81 out => ackBody_eq hwf ho h81 out) hfqdn)

lemma foldl_offerEffect (hwf : WellFormed items) (opt : DhclientOptions) :
    ((options items).foldl (fun opt o => offerEffect o opt) opt).serverIdent =
      (value items DHCP_SERVIDENT).getD opt.serverIdent := by
  have hget : ∀ o opt, (offerEffect o opt).serverIdent =
      if o.tag = DHCP_SERVIDENT then id o.data else opt.serverIdent := by
    intro o opt
    rw [offerEffect]
    split <;> rfl
  rw [foldl_value DhclientOptions.serverIdent hget (options items) opt (hwf.once _ (by simp)), Option.map_id, value]
  rfl

/-- The values of an acknowledgement that the walk leaves. -/
lemma foldl_ackEffect (hwf : WellFormed items) (out : DhclientOut) :
    let out' := (options items).foldl (fun out o => ackEffect o out) out
    out'.servIdent = ((value items DHCP_SERVIDENT).map dhclientGetipstr).getD out.servIdent ∧
    out'.leaseTime =
      ((value items DHCP_LEASETIME).map fun d => toInt32 (beNat d)).getD out.leaseTime ∧
    out'.subNetmask = ((value items DHCP_SUBNETMASK).map dhclientGetipstr).getD out.subNetmask ∧
    out'.router =
      ((value items DHCP_ROUTER).map fun d => dhclientGetipstr (lastAddress d)).getD out.router := by
  refine ⟨foldl_value DhclientOut.servIdent (fun o out => ?_) _ out (hwf.once _ (by simp)),
    foldl_value DhclientOut.leaseTime (fun o out => ?_) _ out (hwf.once _ (by simp)),
    foldl_value DhclientOut.subNetmask (fun o out => ?_) _ out (hwf.once _ (by simp)),
    foldl_value DhclientOut.router (fun o out => ?_) _ out (hwf.once _ (by simp))⟩
  all_goals
    simp only [ackEffect]
    split_ifs <;> simp_all [DHCP_SERVIDENT, DHCP_LEASETIME, DHCP_SUBNETMASK, DHCP_ROUTER]

lemma toInt32_eq_iff (n : ℕ) : toInt32 n = n ↔ n < 2 ^ 31 := by
  rw [toInt32]
  split <;> omega

lemma map_getD_eq_iff {α β : Type} {f g : α → β} {x : Option α} {y : β} :
    (x.map f).getD y = (x.map g).getD y ↔ ∀ a ∈ x, f a = g a := by
  cases x <;> simp

/-- What the walk leaves is as the list defines it exactly if the first and the last router are
the same and the lease time is less than `2 ^ 31`. -/
lemma ackDecodes_iff (hwf : WellFormed items) (out : DhclientOut) :
    AckDecodes items out ((options items).foldl (fun out o => ackEffect o out) out) ↔
      (∀ d ∈ value items DHCP_ROUTER,
        dhclientGetipstr (lastAddress d) = dhclientGetipstr (d.take 4)) ∧
      ∀ d ∈ value items DHCP_LEASETIME, beNat d < 2 ^ 31 := by
  obtain ⟨hserv, hlease, hmask, hrouter⟩ := foldl_ackEffect hwf out
  rw [← map_getD_eq_iff (y := out.router)]
  have hleaseIff : (((value items DHCP_LEASETIME).map fun d => toInt32 (beNat d)).getD out.leaseTime =
      ((value items DHCP_LEASETIME).map fun d => (beNat d : ℤ)).getD out.leaseTime) ↔
        ∀ d ∈ value items DHCP_LEASETIME, beNat d < 2 ^ 31 := by
    rw [map_getD_eq_iff]
    simp only [toInt32_eq_iff]
  rw [← hleaseIff]
  constructor
  · intro h
    exact ⟨hrouter.symm.trans h.router, hlease.symm.trans h.leaseTime⟩
  · rintro ⟨hr, hl⟩
    exact ⟨hserv, hlease.trans hl, hmask, hrouter.trans hr⟩

end

/-- **Decoding of the options.**  Let the options that matter be well-formed and the `PAD` bytes
come in pairs, with any other options in between and any bytes behind `END`.  Then
`dhclient_parse_offer` takes the server identifier from option 54 if and only if, when it prints
the options, the copies made of option 81 stay in the receive buffer; and `dhclient_parse_ack`
takes its values from options 54, 51, 1 and 3 if and only if these copies stay in the receive
buffer, the first and the last router are the same, and the lease time is less than `2 ^ 31`. -/
theorem dhcp_options_decoded_iff (items : List Item) (rest : List UInt8) (hwf : WellFormed items)
    (hpairs : PaddedInPairs items) (data : SessionHandle)
    (hdata : data.dhcpOpt = optionArea items rest) :
    ((∃ data', dhclientParseOffer data = some (.MRJE_OK, data') ∧
        data'.opt.serverIdent = (value items DHCP_SERVIDENT).getD data.opt.serverIdent) ↔
      (data.verbose = true → FqdnInside rest items)) ∧
    ((∃ code data', dhclientParseAck data = some (code, data') ∧
        AckDecodes items data.resout data'.resout) ↔
      FqdnInside rest items ∧
      (∀ d ∈ value items DHCP_ROUTER,
        dhclientGetipstr (lastAddress d) = dhclientGetipstr (d.take 4)) ∧
      ∀ d ∈ value items DHCP_LEASETIME, beNat d < 2 ^ 31) := by
  constructor
  · rw [dhclientParseOffer, hdata, walk_offerBody hwf hpairs, Option.bind_some]
    by_cases hv : data.verbose = true
    · rw [if_pos hv]
      constructor
      · rintro ⟨data', h, -⟩ _
        rw [Option.map_eq_some_iff] at h
        obtain ⟨u, hu, -⟩ := h
        exact fqdnInside_of_walk (fun _ _ _ => rfl) (fun _ _ _ => rfl) hpairs hu
      · intro hfqdn
        rw [walk_offerDetails hwf hpairs (hfqdn hv)]
        exact ⟨_, rfl, foldl_offerEffect hwf _⟩
    · rw [if_neg hv]
      exact ⟨fun _ hc => absurd hc hv, fun _ => ⟨_, rfl, foldl_offerEffect hwf _⟩⟩
  · rw [dhclientParseAck, hdata]
    constructor
    · rintro ⟨code, data', h, hdecodes⟩
      rw [Option.map_eq_some_iff] at h
      obtain ⟨out, hwalk, h⟩ := h
      have hfqdn := fqdnInside_of_walk (fun _ _ _ => rfl) (fun _ _ _ => rfl) hpairs hwalk
      rw [walk_ackBody hwf hpairs hfqdn] at hwalk
      simp only [Prod.mk.injEq] at h
      rw [← h.2, ← Option.some.inj hwalk] at hdecodes
      refine ⟨hfqdn, (ackDecodes_iff hwf (ackStart data)).1 ?_⟩
      exact ⟨hdecodes.servIdent, hdecodes.leaseTime, hdecodes.subNetmask, hdecodes.router⟩
    · rintro ⟨hfqdn, hcond⟩
      rw [walk_ackBody hwf hpairs hfqdn, Option.map_some]
      have hdecodes := (ackDecodes_iff hwf (ackStart data)).2 hcond
      exact ⟨_, _, rfl, hdecodes.servIdent, hdecodes.leaseTime, hdecodes.subNetmask, hdecodes.router⟩

/-- A session that has received the option area. -/
def sampleSession (items : List Item) (rest : List UInt8) : SessionHandle where
  dhcpYip := [192, 168, 0, 17]
  dhcpOpt := optionArea items rest
  ifname := "eth0"
  verbose := false
  opt := ⟨0, [0, 0, 0, 0], [0, 0, 0, 0], 0⟩
  resout := ⟨"", "", "", "", "", 0⟩

/-- The options of an acknowledgement, with two `PAD` bytes. -/
def sampleItems : List Item :=
  [.option ⟨0x35, [5], by decide, by decide, by decide⟩, .pad, .pad,
    .option ⟨DHCP_SERVIDENT, [192, 168, 0, 1], by decide, by decide, by decide⟩,
    .option ⟨DHCP_LEASETIME, [0, 0, 14, 16], by decide, by decide, by decide⟩,
    .option ⟨DHCP_SUBNETMASK, [255, 255, 255, 0], by decide, by decide, by decide⟩,
    .option ⟨DHCP_ROUTER, [192, 168, 0, 254], by decide, by decide, by decide⟩]

/-- The type of a message. -/
def typeOption (type : UInt8) : DhcpOption := ⟨0x35, [type], by decide, by decide, by simp⟩

/-- A lease time. -/
def leaseOption (time : List UInt8) (h : time.length < 256) : DhcpOption :=
  ⟨DHCP_LEASETIME, time, by decide, by decide, h⟩

/-- The server, the mask and the router of the sample. -/
def serverOption : DhcpOption := ⟨DHCP_SERVIDENT, [192, 168, 0, 1], by decide, by decide, by decide⟩
def maskOption : DhcpOption := ⟨DHCP_SUBNETMASK, [255, 255, 255, 0], by decide, by decide, by decide⟩
def routerOption : DhcpOption := ⟨DHCP_ROUTER, [192, 168, 0, 254], by decide, by decide, by decide⟩

lemma wellFormed_sampleItems : WellFormed sampleItems :=
  ⟨by decide +kernel, by decide +kernel, by decide +kernel⟩

/-- All values are taken from a packet with two `PAD` bytes. -/
theorem dhcp_options_decoded_sample :
    (∃ data', dhclientParseOffer (sampleSession sampleItems []) = some (.MRJE_OK, data') ∧
      data'.opt.serverIdent = [192, 168, 0, 1]) ∧
    ∃ code data', dhclientParseAck (sampleSession sampleItems []) = some (code, data') ∧
      AckDecodes sampleItems (sampleSession sampleItems []).resout data'.resout := by
  have hfqdn : FqdnInside [] sampleItems := by
    simp [FqdnInside, sampleItems, AtOptions, DHCP_FQDN, DHCP_SERVIDENT, DHCP_LEASETIME,
      DHCP_SUBNETMASK, DHCP_ROUTER]
  have h := dhcp_options_decoded_iff sampleItems [] wellFormed_sampleItems trivial
    (sampleSession sampleItems []) rfl
  exact ⟨h.1.2 fun _ => hfqdn, h.2.2 ⟨hfqdn, by decide, by decide⟩⟩

/-- Option 54 behind one `PAD`, and a host name. -/
def paddedItems : List Item :=
  [.pad, .option ⟨DHCP_SERVIDENT, [192, 168, 0, 1], by decide, by decide, by decide⟩,
    .option ⟨0x0c, List.replicate 47 0x61, by decide, by decide, by decide⟩]

/-- **An option behind a `PAD` is skipped.**  The tag 54 is taken for the length of the `PAD`; the
loop goes on 56 bytes further, which is at `END`, and the server identifier is not set. -/
theorem option_behind_pad_skipped :
    WellFormed paddedItems ∧ value paddedItems DHCP_SERVIDENT = some [192, 168, 0, 1] ∧
    ((dhclientParseOffer (sampleSession paddedItems [])).any fun r =>
      decide (r.1 = .MRJE_OK ∧ r.2.opt.serverIdent = [0, 0, 0, 0])) = true :=
  ⟨⟨by decide +kernel, by decide +kernel, by decide +kernel⟩, by decide +kernel, by decide +kernel⟩

end DeviceTools.Dhcp
