/-
The memory that receiving and parsing a packet touches.

The loops of `dhclient_parse_offer` and `dhclient_parse_ack` go from option to option by the
length bytes of the packet, and have no other bound than the tag `END`.  Here they are run on a
memory that does not end at the receive buffer, with the accesses recorded.  They stay inside
the buffer exactly when the walk from the first option on comes to `END` there and the options
on the way have room for what is copied of them (`EndsInside`).  It is also when the walk of
`Dhcp.Options`, which stops at the end of the buffer, has a result.
-/
import DeviceTools.Dhcp.Receive

namespace DeviceTools.Dhcp

open ByteWord Memory

/-- An access to memory: the first address, counted from `recv_buf` on, and the number of bytes. -/
abbrev Access := ℕ × ℕ

/-- Every byte of the access is in the receive buffer. -/
def Inside (a : Access) : Prop := ∀ i, a.1 ≤ i → i < a.1 + a.2 → i < RECV_BUF_SIZE

lemma inside_iff {p n : ℕ} (h : 0 < n) : Inside (p, n) ↔ p + n ≤ RECV_BUF_SIZE := by
  constructor
  · intro hin
    have hlast := hin (p + n - 1) (by dsimp only; omega) (by dsimp only; omega)
    omega
  · intro hle i _ hi
    exact lt_of_lt_of_le hi hle

/-- The stores of `dhclient_recv_pack`: the buffer is cleared, the frame is received, and a zero
is stored behind it. -/
def recvWrites (frame : List UInt8) : List Access :=
  [(0, RECV_BUF_SIZE), (0, frame.length), (frame.length, 1)]

/-! ### The loops -/

section
variable (reads : Bytes → ℕ → List Access) (m : Bytes)

/-- `while (*(optbufp) != DHCP_END) { ...; optbufp = optbufp + *(optbufp + 1) + 2; }`, with the
reads of its body.  There is no result only when the fuel runs out. -/
def loopReads : ℕ → ℕ → Option (List Access)
  | 0, _ => none
  | fuel + 1, p =>
      if m p = DHCP_END then some [(p, 1)]
      else (loopReads fuel (p + (m (p + 1)).toNat + 2)).map fun rest =>
        (p, 1) :: (reads m p ++ (p + 1, 1) :: rest)

end

/-- The number of bytes copied of option 81, from the four bytes behind the tag. -/
def fqdnSizeAt (m : Bytes) (p : ℕ) : ℕ := (leNat (slice m (p + 1) 4) + 2 ^ 32 - 3) % 2 ^ 32

/-- The addresses of an option are read one after the other. -/
def addressReads (m : Bytes) (p : ℕ) : List Access :=
  (p + 1, 1) :: (List.range ((m (p + 1)).toNat / 4)).map fun k => (p + 2 + 4 * k, 4)

/-- The body of the loop of `dhclient_parse_ack`, and of the second loop of
`dhclient_parse_offer`. -/
def optionReads (m : Bytes) (p : ℕ) : List Access :=
  if m p = DHCP_SERVIDENT ∨ m p = DHCP_LEASETIME ∨ m p = DHCP_SUBNETMASK then [(p + 2, 4)]
  else if m p = DHCP_ROUTER ∨ m p = DHCP_DNS then addressReads m p
  else if m p = DHCP_FQDN then [(p + 1, 4), (p + 5, fqdnSizeAt m p)]
  else []

/-- The body of the first loop of `dhclient_parse_offer`. -/
def servIdentReads (m : Bytes) (p : ℕ) : List Access :=
  if m p = DHCP_SERVIDENT then [(p + 2, 4)] else []

/-- The addresses of the next server and of the relay, which are printed. -/
def nextServerReads (m : Bytes) : List Access :=
  [(DHCP_HDR_SIP, 4), (DHCP_HDR_GIP, 4)] ++
    if slice m DHCP_HDR_GIP 4 ≠ [0, 0, 0, 0] then [(DHCP_HDR_GIP, 4)] else []

/-- The reads of `dhclient_parse_offer`. -/
def dhclientParseOfferReads (verbose : Bool) (m : Bytes) (fuel : ℕ) : Option (List Access) :=
  (loopReads servIdentReads m fuel DHCP_OPT).bind fun options =>
    if verbose then
      (loopReads optionReads m fuel DHCP_OPT).map fun details =>
        (DHCP_HDR_YIP, 4) :: (options ++ (DHCP_HDR_YIP, 4) :: (nextServerReads m ++ details))
    else some ((DHCP_HDR_YIP, 4) :: options)

/-- The reads of `dhclient_parse_ack`. -/
def dhclientParseAckReads (verbose : Bool) (m : Bytes) (fuel : ℕ) : Option (List Access) :=
  (loopReads optionReads m fuel DHCP_OPT).map fun options =>
    (DHCP_HDR_YIP, 4) :: ((if verbose then nextServerReads m else []) ++ options)

/-- The reads of the function that parses the message received. -/
def parseReads (recvmsg : MRJDhcpMsg) (verbose : Bool) (m : Bytes) (fuel : ℕ) :
    Option (List Access) :=
  match recvmsg with
  | .DHCPMSG_OFFER => dhclientParseOfferReads verbose m fuel
  | .DHCPMSG_ACK => dhclientParseAckReads verbose m fuel
  | _ => none

/-- Receiving and parsing the frame terminates and touches no byte outside of the buffer; `m` is
the memory before. -/
structure Confined (recvmsg : MRJDhcpMsg) (verbose : Bool) (m : Bytes) (frame : List UInt8) : Prop where
  writes : ∀ a ∈ recvWrites frame, Inside a
  reads : ∃ fuel accesses, parseReads recvmsg verbose (received m frame) fuel = some accesses ∧
    ∀ a ∈ accesses, Inside a

/-! ### The options that are walked over -/

/-- The walk from the option at `p` on comes to `END` in the receive buffer, and at each option
on the way there holds `fits`. -/
inductive EndsInside (fits : Bytes → ℕ → Prop) (m : Bytes) : ℕ → Prop
  | atEnd {p : ℕ} (hp : p < RECV_BUF_SIZE) (hend : m p = DHCP_END) : EndsInside fits m p
  | option {p : ℕ} (htag : m p ≠ DHCP_END) (hfits : fits m p)
      (hrest : EndsInside fits m (p + (m (p + 1)).toNat + 2)) : EndsInside fits m p

/-- An option whose data is copied as a word has room for it, and so has an option 81 for as many
bytes as are copied. -/
def optionFits (m : Bytes) (p : ℕ) : Prop :=
  (m p = DHCP_SERVIDENT ∨ m p = DHCP_LEASETIME ∨ m p = DHCP_SUBNETMASK → p + 6 ≤ RECV_BUF_SIZE) ∧
  (m p = DHCP_FQDN → p + 5 + fqdnSizeAt m p ≤ RECV_BUF_SIZE)

/-- A server identifier has room for a word. -/
def servIdentFits (m : Bytes) (p : ℕ) : Prop := m p = DHCP_SERVIDENT → p + 6 ≤ RECV_BUF_SIZE

/-- What has to fit at an option: without the details only the server identifier of an offer. -/
def fits (recvmsg : MRJDhcpMsg) (verbose : Bool) : Bytes → ℕ → Prop :=
  if recvmsg = .DHCPMSG_OFFER ∧ verbose = false then servIdentFits else optionFits

lemma EndsInside.lt {fits : Bytes → ℕ → Prop} {m : Bytes} {p : ℕ} (h : EndsInside fits m p) :
    p < RECV_BUF_SIZE := by
  induction h with
  | atEnd hp _ => exact hp
  | option _ _ _ ih => omega

lemma EndsInside.lt_of_no_end {fits : Bytes → ℕ → Prop} {m : Bytes} {p q : ℕ}
    (h : EndsInside fits m p) (hm : ∀ i, q ≤ i → m i ≠ DHCP_END) : p < q := by
  induction h with
  | @atEnd p _ hend =>
      by_contra hle
      exact hm p (by omega) hend
  | option _ _ _ ih => omega

lemma EndsInside.imp {P Q : Bytes → ℕ → Prop} {m : Bytes} (hPQ : ∀ p, P m p → Q m p) {p : ℕ}
    (h : EndsInside P m p) : EndsInside Q m p := by
  induction h with
  | atEnd hp hend => exact .atEnd hp hend
  | option htag hfits _ ih => exact .option htag (hPQ _ hfits) ih

lemma EndsInside.congr {P : Bytes → ℕ → Prop} {m m' : Bytes}
    (hm : ∀ i < RECV_BUF_SIZE, m i = m' i)
    (hP : ∀ p, p + 1 < RECV_BUF_SIZE → P m p → P m' p) {p : ℕ} (h : EndsInside P m p) :
    EndsInside P m' p := by
  induction h with
  | atEnd hp hend => exact .atEnd hp (by rw [← hm _ hp, hend])
  | @option p htag hfits hrest ih =>
      have hlt := hrest.lt
      refine .option (by rwa [← hm p (by omega)]) (hP p (by omega) hfits) ?_
      rwa [← hm (p + 1) (by omega)]

lemma optionFits_congr {m m' : Bytes} (hm : ∀ i < RECV_BUF_SIZE, m i = m' i) {p : ℕ}
    (hp : p + 1 < RECV_BUF_SIZE) (h : optionFits m p) : optionFits m' p := by
  rw [optionFits, ← hm p (by omega)]
  refine ⟨h.1, fun h81 => ?_⟩
  have hroom := h.2 h81
  have hslice : slice m (p + 1) 4 = slice m' (p + 1) 4 :=
    slice_congr fun k _ hk => hm k (by omega)
  rwa [fqdnSizeAt, ← hslice]

lemma fits_congr {m m' : Bytes} (hm : ∀ i < RECV_BUF_SIZE, m i = m' i) (recvmsg : MRJDhcpMsg)
    (verbose : Bool) {p : ℕ} (hp : p + 1 < RECV_BUF_SIZE) (h : fits recvmsg verbose m p) :
    fits recvmsg verbose m' p := by
  rw [fits] at h ⊢
  split_ifs at h ⊢
  · rwa [servIdentFits, ← hm p (by omega)]
  · exact optionFits_congr hm hp h

lemma endsInside_received (recvmsg : MRJDhcpMsg) (verbose : Bool) (m : Bytes) (frame : List UInt8)
    (p : ℕ) : EndsInside (fits recvmsg verbose) (received m frame) p ↔
      EndsInside (fits recvmsg verbose) (octets frame) p := by
  have hm : ∀ i < RECV_BUF_SIZE, received m frame i = octets frame i := fun i hi => received_eq m frame hi
  exact ⟨EndsInside.congr hm fun p hp => fits_congr hm recvmsg verbose hp,
    EndsInside.congr (fun i hi => (hm i hi).symm) fun p hp =>
      fits_congr (fun i hi => (hm i hi).symm) recvmsg verbose hp⟩

section
variable {reads : Bytes → ℕ → List Access} {P : Bytes → ℕ → Prop} {m : Bytes}
  (hreads : ∀ p, p + (m (p + 1)).toNat + 2 < RECV_BUF_SIZE →
    ((∀ a ∈ reads m p, Inside a) ↔ P m p))
include hreads

/-- A loop that ends and stays inside has come to `END`. -/
lemma endsInside_of_loopReads (fuel : ℕ) : ∀ {p : ℕ} {accesses : List Access},
    loopReads reads m fuel p = some accesses → (∀ a ∈ accesses, Inside a) → EndsInside P m p := by
  induction fuel with
  | zero => intro p accesses h; exact absurd h (by simp [loopReads])
  | succ fuel ih =>
      intro p accesses h hin
      rw [loopReads] at h
      split_ifs at h with hend
      · rw [← Option.some.inj h] at hin
        have hp := (inside_iff (by decide)).1 (hin (p, 1) (by simp))
        exact .atEnd (Nat.lt_of_succ_le hp) hend
      · rw [Option.map_eq_some_iff] at h
        obtain ⟨rest, hrest, rfl⟩ := h
        have hends := ih hrest fun a ha => hin a (by simp [ha])
        exact .option hend ((hreads p hends.lt).1 fun a ha => hin a (by simp [ha])) hends

/-- A loop that comes to `END` with as much fuel as there are options stays inside. -/
lemma loopReads_of_endsInside {p : ℕ} (h : EndsInside P m p) :
    ∃ n, ∀ fuel, n ≤ fuel → ∃ accesses, loopReads reads m fuel p = some accesses ∧
      ∀ a ∈ accesses, Inside a := by
  induction h with
  | @atEnd p hp hend =>
      refine ⟨1, fun fuel hfuel => ⟨[(p, 1)], ?_, ?_⟩⟩
      · obtain ⟨k, rfl⟩ : ∃ k, fuel = k + 1 := ⟨fuel - 1, by omega⟩
        rw [loopReads, if_pos hend]
      · rintro a ha
        rw [List.mem_singleton] at ha
        subst ha
        exact (inside_iff (by decide)).2 hp
  | @option p htag hfits hrest ih =>
      obtain ⟨n, ih⟩ := ih
      refine ⟨n + 1, fun fuel hfuel => ?_⟩
      obtain ⟨k, rfl⟩ : ∃ k, fuel = k + 1 := ⟨fuel - 1, by omega⟩
      obtain ⟨rest, hloop, hin⟩ := ih k (by omega)
      refine ⟨(p, 1) :: (reads m p ++ (p + 1, 1) :: rest), by rw [loopReads, if_neg htag, hloop]; rfl, ?_⟩
      have hlt := hrest.lt
      intro a ha
      rw [List.mem_cons, List.mem_append, List.mem_cons] at ha
      rcases ha with rfl | ha | rfl | ha
      · exact (inside_iff (by decide)).2 (show p + 1 ≤ RECV_BUF_SIZE by omega)
      · exact (hreads p hlt).2 hfits a ha
      · exact (inside_iff (by decide)).2 (show p + 1 + 1 ≤ RECV_BUF_SIZE by omega)
      · exact hin a ha

end

/-- The reads at an option, if the next option starts inside. -/
lemma optionReads_inside (m : Bytes) (p : ℕ) (hnext : p + (m (p + 1)).toNat + 2 < RECV_BUF_SIZE) :
    (∀ a ∈ optionReads m p, Inside a) ↔ optionFits m p := by
  rw [optionReads, optionFits]
  split_ifs with hword haddr h81
  · -- a word
    have hne : m p ≠ DHCP_FQDN := by
      rcases hword with h | h | h <;> rw [h] <;> decide
    rw [List.forall_mem_singleton, inside_iff (by decide)]
    simp [hword, hne]
  · -- addresses, which end where the next option starts
    have hne : m p ≠ DHCP_FQDN := by
      rcases haddr with h | h <;> rw [h] <;> decide
    refine iff_of_true ?_ ⟨fun h => absurd h hword, fun h => absurd h hne⟩
    intro a ha
    rw [addressReads, List.mem_cons, List.mem_map] at ha
    rcases ha with rfl | ⟨k, hk, rfl⟩
    · exact (inside_iff (by decide)).2 (show p + 1 + 1 ≤ RECV_BUF_SIZE by omega)
    · rw [List.mem_range] at hk
      exact (inside_iff (by decide)).2 (show p + 2 + 4 * k + 4 ≤ RECV_BUF_SIZE by omega)
  · -- the four bytes that the size is taken from, and the copy
    rw [List.forall_mem_cons, List.forall_mem_singleton, inside_iff (by decide)]
    constructor
    · rintro ⟨h4, hcopy⟩
      refine ⟨fun h => absurd h hword, fun _ => ?_⟩
      rcases Nat.eq_zero_or_pos (fqdnSizeAt m p) with h0 | hpos
      · rw [h0]
        exact h4
      · exact (inside_iff hpos).1 hcopy
    · rintro ⟨-, hcopy⟩
      exact ⟨by have := hcopy h81; omega, fun i _ hi => lt_of_lt_of_le hi (hcopy h81)⟩
  · exact iff_of_true (by simp) ⟨fun h => absurd h hword, fun h => absurd h h81⟩

lemma servIdentReads_inside (m : Bytes) (p : ℕ) :
    (∀ a ∈ servIdentReads m p, Inside a) ↔ servIdentFits m p := by
  rw [servIdentReads, servIdentFits]
  split_ifs with h54
  · rw [List.forall_mem_singleton, inside_iff (by decide)]
    simp [h54]
  · simp [h54]

lemma inside_nextServerReads (m : Bytes) : ∀ a ∈ nextServerReads m, Inside a := by
  have hword : ∀ p, p + 4 ≤ RECV_BUF_SIZE → Inside (p, 4) := fun p hp => (inside_iff (by decide)).2 hp
  intro a ha
  rw [nextServerReads] at ha
  split_ifs at ha
  · simp only [List.cons_append, List.nil_append, List.mem_cons, List.not_mem_nil, or_false] at ha
    rcases ha with rfl | rfl | rfl <;> exact hword _ (by decide)
  · simp only [List.append_nil, List.mem_cons, List.not_mem_nil, or_false] at ha
    rcases ha with rfl | rfl <;> exact hword _ (by decide)

section
variable {m : Bytes}

/-- The reads of `dhclient_parse_ack`. -/
lemma ackReads_inside_iff (verbose : Bool) :
    (∃ fuel accesses, dhclientParseAckReads verbose m fuel = some accesses ∧
      ∀ a ∈ accesses, Inside a) ↔ EndsInside optionFits m DHCP_OPT := by
  constructor
  · rintro ⟨fuel, accesses, h, hin⟩
    rw [dhclientParseAckReads, Option.map_eq_some_iff] at h
    obtain ⟨options, hloop, rfl⟩ := h
    exact endsInside_of_loopReads (optionReads_inside m) fuel hloop fun a ha => hin a (by simp [ha])
  · intro h
    obtain ⟨fuel, hfuel⟩ := loopReads_of_endsInside (optionReads_inside m) h
    obtain ⟨options, hloop, hin⟩ := hfuel fuel le_rfl
    refine ⟨fuel, _, by rw [dhclientParseAckReads, hloop, Option.map_some], ?_⟩
    intro a ha
    rw [List.mem_cons, List.mem_append] at ha
    rcases ha with rfl | ha | ha
    · exact (inside_iff (by decide)).2 (by decide)
    · split_ifs at ha
      · exact inside_nextServerReads m a ha
      · simp at ha
    · exact hin a ha

/-- The reads of `dhclient_parse_offer`. -/
lemma offerReads_inside_iff (verbose : Bool) :
    (∃ fuel accesses, dhclientParseOfferReads verbose m fuel = some accesses ∧
      ∀ a ∈ accesses, Inside a) ↔ EndsInside (fits .DHCPMSG_OFFER verbose) m DHCP_OPT := by
  have hserv := fun p (_ : p + (m (p + 1)).toNat + 2 < RECV_BUF_SIZE) => servIdentReads_inside m p
  have hyip : Inside (DHCP_HDR_YIP, 4) := (inside_iff (by decide)).2 (by decide)
  cases verbose with
  | false =>
      constructor
      · rintro ⟨fuel, accesses, h, hin⟩
        rw [dhclientParseOfferReads, Option.bind_eq_some_iff] at h
        obtain ⟨options, hloop, h⟩ := h
        obtain rfl := Option.some.inj h
        exact endsInside_of_loopReads hserv fuel hloop fun a ha => hin a (by simp [ha])
      · intro h
        obtain ⟨fuel, hfuel⟩ := loopReads_of_endsInside hserv h
        obtain ⟨options, hloop, hin⟩ := hfuel fuel le_rfl
        refine ⟨fuel, _, by rw [dhclientParseOfferReads, hloop, Option.bind_some]; rfl, ?_⟩
        exact List.forall_mem_cons.2 ⟨hyip, hin⟩
  | true =>
      constructor
      · rintro ⟨fuel, accesses, h, hin⟩
        rw [dhclientParseOfferReads, Option.bind_eq_some_iff] at h
        obtain ⟨options, -, h⟩ := h
        rw [if_pos rfl, Option.map_eq_some_iff] at h
        obtain ⟨details, hloop, rfl⟩ := h
        exact endsInside_of_loopReads (optionReads_inside m) fuel hloop fun a ha => hin a (by simp [ha])
      · intro h
        -- the first loop needs no more room than the second
        have hfirst : EndsInside servIdentFits m DHCP_OPT := h.imp fun p hp h54 => hp.1 (Or.inl h54)
        obtain ⟨n, hn⟩ := loopReads_of_endsInside hserv hfirst
        obtain ⟨n', hn'⟩ := loopReads_of_endsInside (optionReads_inside m) h
        obtain ⟨options, hloop, hin⟩ := hn (n + n') (by omega)
        obtain ⟨details, hloop', hin'⟩ := hn' (n + n') (by omega)
        refine ⟨n + n', _, by rw [dhclientParseOfferReads, hloop, Option.bind_some, if_pos rfl, hloop',
          Option.map_some], ?_⟩
        intro a ha
        simp only [List.mem_cons, List.mem_append] at ha
        rcases ha with rfl | ha | rfl | ha | ha
        · exact hyip
        · exact hin a ha
        · exact hyip
        · exact inside_nextServerReads m a ha
        · exact hin' a ha

end

/-- The stores stay inside if there is room for the zero behind the frame. -/
lemma writes_inside_iff (frame : List UInt8) :
    (∀ a ∈ recvWrites frame, Inside a) ↔ frame.length < RECV_BUF_SIZE := by
  constructor
  · intro h
    exact (inside_iff (by decide)).1 (h (frame.length, 1) (by simp [recvWrites]))
  · intro hlt a ha
    simp only [recvWrites, List.mem_cons, List.not_mem_nil, or_false] at ha
    rcases ha with rfl | rfl | rfl
    · exact fun i _ hi => by simpa using hi
    · exact fun i _ hi => lt_trans (by simpa using hi) hlt
    · exact (inside_iff (by decide)).2 hlt

/-- **Confinement.**  For every frame that passes the check, whatever the memory around the receive
buffer is, `dhclient_recv_pack` and the function that parses the message terminate and touch no
byte outside of the buffer if and only if the frame is shorter than the buffer, the walk over its
options comes to an `END`, and each option met before has room for what is copied of it. -/
theorem dhcp_parsing_confined_iff (recvmsg : MRJDhcpMsg) (verbose : Bool) (vlan xid : ℕ) (m : Bytes)
    (frame : List UInt8)
    (hcheck : dhclientCheckPack recvmsg vlan xid (received m frame) = .MRJE_OK) :
    Confined recvmsg verbose m frame ↔
      frame.length < RECV_BUF_SIZE ∧ EndsInside (fits recvmsg verbose) (octets frame) DHCP_OPT := by
  have hreads : (∃ fuel accesses, parseReads recvmsg verbose (received m frame) fuel = some accesses ∧
      ∀ a ∈ accesses, Inside a) ↔ EndsInside (fits recvmsg verbose) (octets frame) DHCP_OPT := by
    rw [← endsInside_received]
    rcases recvmsg_of_check hcheck with ⟨rfl, -⟩ | ⟨rfl, -⟩
    · exact offerReads_inside_iff verbose
    · exact ackReads_inside_iff verbose
  rw [← hreads, ← writes_inside_iff]
  exact ⟨fun h => ⟨h.writes, h.reads⟩, fun h => ⟨h.1, h.2⟩⟩

/-! ### The walk that stops at the end of the buffer -/

section
variable {σ : Type} {body : UInt8 → ℕ → List UInt8 → σ → Option σ} {P : Bytes → ℕ → Prop} {m : Bytes}
  (hbody : ∀ p s, p + (m (p + 1)).toNat + 2 < RECV_BUF_SIZE →
    ((body (m p) (m (p + 1)).toNat (slice m (p + 2) (RECV_BUF_SIZE - (p + 2))) s).isSome ↔ P m p))

/-- One round of the walk over the rest of the buffer. -/
lemma walkOptions_slice {p : ℕ} (hp : p + 1 < RECV_BUF_SIZE) (htag : m p ≠ DHCP_END) (s : σ) :
    walkOptions body (slice m p (RECV_BUF_SIZE - p)) s =
      (body (m p) (m (p + 1)).toNat (slice m (p + 2) (RECV_BUF_SIZE - (p + 2))) s).bind
        (walkOptions body (slice m (p + (m (p + 1)).toNat + 2)
          (RECV_BUF_SIZE - (p + (m (p + 1)).toNat + 2)))) := by
  obtain ⟨n, hn⟩ : ∃ n, RECV_BUF_SIZE - p = n + 1 + 1 := ⟨RECV_BUF_SIZE - p - 2, by omega⟩
  have hrest : n = RECV_BUF_SIZE - (p + 2) := by omega
  rw [hn, slice_succ, slice_succ, walkOptions_cons htag, drop_slice, ← hrest]
  have hpos : p + 1 + 1 + (m (p + 1)).toNat = p + (m (p + 1)).toNat + 2 := by omega
  have hlen : n - (m (p + 1)).toNat = RECV_BUF_SIZE - (p + (m (p + 1)).toNat + 2) := by omega
  rw [hpos, hlen]

include hbody

/-- **The walk has a result** exactly when it comes to `END` and every option on the way fits. -/
lemma isSome_walkOptions_iff (p : ℕ) (s : σ) :
    (walkOptions body (slice m p (RECV_BUF_SIZE - p)) s).isSome ↔ EndsInside P m p := by
  constructor
  · -- each round leaves fewer bytes
    induction hn : RECV_BUF_SIZE - p using Nat.strong_induction_on generalizing p s with
    | _ n ih =>
        subst hn
        intro h
        by_cases hp : p < RECV_BUF_SIZE
        swap
        · rw [Nat.sub_eq_zero_of_le (by omega)] at h
          exact absurd h (by simp [slice, walkOptions, walk])
        by_cases htag : m p = DHCP_END
        · exact .atEnd hp htag
        by_cases hlen : p + 1 < RECV_BUF_SIZE
        swap
        · rw [show RECV_BUF_SIZE - p = 1 by omega] at h
          exact absurd h (by simp [slice, walkOptions, walk, htag])
        rw [walkOptions_slice hlen htag, Option.isSome_iff_exists] at h
        obtain ⟨s', h⟩ := h
        obtain ⟨s₁, hs₁, h⟩ := Option.bind_eq_some_iff.1 h
        have hends := ih (RECV_BUF_SIZE - (p + (m (p + 1)).toNat + 2)) (by omega) _ s₁ rfl (by rw [h]; rfl)
        exact .option htag ((hbody p s hends.lt).1 (by rw [hs₁]; rfl)) hends
  · intro h
    induction h generalizing s with
    | @atEnd p hp hend =>
        obtain ⟨n, hn⟩ : ∃ n, RECV_BUF_SIZE - p = n + 1 := ⟨RECV_BUF_SIZE - p - 1, by omega⟩
        rw [hn, slice_succ, hend, walkOptions_end]
        rfl
    | @option p htag hfits hrest ih =>
        have hlt := hrest.lt
        obtain ⟨s₁, hs₁⟩ := Option.isSome_iff_exists.1 ((hbody p s hlt).2 hfits)
        rw [walkOptions_slice (by omega) htag, hs₁, Option.bind_some]
        exact ih s₁

end

section
variable {m : Bytes} {p : ℕ}

lemma isSome_copy4_slice : (copy4 (slice m (p + 2) (RECV_BUF_SIZE - (p + 2))) 0).isSome ↔
    p + 6 ≤ RECV_BUF_SIZE := by
  rw [copy4, length_slice]
  split_ifs with h
  · exact iff_of_false (by simp) (by omega)
  · exact iff_of_true rfl (by omega)

lemma isSome_addresses_slice (hnext : p + (m (p + 1)).toNat + 2 < RECV_BUF_SIZE) :
    (addresses (m (p + 1)).toNat (slice m (p + 2) (RECV_BUF_SIZE - (p + 2)))).isSome := by
  have hsome := addresses_eq ((slice m (p + 2) (RECV_BUF_SIZE - (p + 2))).take (m (p + 1)).toNat)
    ((slice m (p + 2) (RECV_BUF_SIZE - (p + 2))).drop (m (p + 1)).toNat)
  rw [List.take_append_drop, List.length_take, length_slice, Nat.min_eq_left (by omega)] at hsome
  rw [hsome]
  rfl

lemma copiesFqdn_slice : copiesFqdn (m (p + 1)).toNat (slice m (p + 2) (RECV_BUF_SIZE - (p + 2))) = true ↔
    p + 5 + fqdnSizeAt m p ≤ RECV_BUF_SIZE := by
  rw [copiesFqdn, Bool.and_eq_true, decide_eq_true_eq, decide_eq_true_eq, length_slice]
  have hsize : 3 ≤ RECV_BUF_SIZE - (p + 2) →
      fqdnSize (m (p + 1)).toNat (slice m (p + 2) (RECV_BUF_SIZE - (p + 2))) = fqdnSizeAt m p := by
    intro h3
    rw [fqdnSize, take_slice m (p + 2) h3, UInt8.ofNat_toNat, fqdnSizeAt, slice_succ m (p + 1)]
  constructor
  · rintro ⟨h3, hcopy⟩
    rw [hsize h3] at hcopy
    omega
  · intro h
    have h3 : 3 ≤ RECV_BUF_SIZE - (p + 2) := by omega
    rw [hsize h3]
    omega

/-- The body of the loop of `dhclient_parse_ack` has a result if the option fits. -/
lemma isSome_ackBody (out : DhclientOut) (hnext : p + (m (p + 1)).toNat + 2 < RECV_BUF_SIZE) :
    (ackBody (m p) (m (p + 1)).toNat (slice m (p + 2) (RECV_BUF_SIZE - (p + 2))) out).isSome ↔
      optionFits m p := by
  have haddr := isSome_addresses_slice hnext
  have hcopy := isSome_copy4_slice (m := m) (p := p)
  rw [ackBody, optionFits]
  split_ifs with h54 h51 h1 h3 h6 h81 hfqdn
  · rw [Option.isSome_map, hcopy, h54]
    simp [DHCP_SERVIDENT, DHCP_FQDN]
  · rw [Option.isSome_map, hcopy, h51]
    simp [DHCP_LEASETIME, DHCP_FQDN]
  · rw [Option.isSome_map, hcopy, h1]
    simp [DHCP_SUBNETMASK, DHCP_FQDN]
  · rw [Option.isSome_map, h3]
    exact iff_of_true haddr (by simp [DHCP_ROUTER, DHCP_SERVIDENT, DHCP_LEASETIME, DHCP_SUBNETMASK, DHCP_FQDN])
  · rw [Option.isSome_map, h6]
    exact iff_of_true haddr (by simp [DHCP_DNS, DHCP_SERVIDENT, DHCP_LEASETIME, DHCP_SUBNETMASK, DHCP_FQDN])
  · exact iff_of_true rfl ⟨by tauto, fun _ => copiesFqdn_slice.1 hfqdn⟩
  · exact iff_of_false (by simp) fun hfits => hfqdn (copiesFqdn_slice.2 (hfits.2 h81))
  · exact iff_of_true rfl ⟨by tauto, fun h => absurd h h81⟩

lemma isSome_offerBody (opt : DhclientOptions) :
    (offerBody (m p) (m (p + 1)).toNat (slice m (p + 2) (RECV_BUF_SIZE - (p + 2))) opt).isSome ↔
      servIdentFits m p := by
  rw [offerBody, servIdentFits]
  split_ifs with h54
  · rw [Option.isSome_map, isSome_copy4_slice]
    simp [h54]
  · simp [h54]

lemma isSome_offerDetails (u : Unit) (hnext : p + (m (p + 1)).toNat + 2 < RECV_BUF_SIZE) :
    (offerDetails (m p) (m (p + 1)).toNat (slice m (p + 2) (RECV_BUF_SIZE - (p + 2))) u).isSome ↔
      optionFits m p := by
  have haddr := isSome_addresses_slice hnext
  rw [offerDetails, optionFits]
  split_ifs with hword haddrs h81 hfqdn
  · have hne : m p ≠ DHCP_FQDN := by
      rcases hword with h | h | h <;> rw [h] <;> decide
    rw [Option.isSome_map, isSome_copy4_slice]
    simp [hword, hne]
  · have hne : m p ≠ DHCP_FQDN := by
      rcases haddrs with h | h <;> rw [h] <;> decide
    rw [Option.isSome_map]
    exact iff_of_true haddr ⟨fun h => absurd h hword, fun h => absurd h hne⟩
  · exact iff_of_true rfl ⟨fun h => absurd h hword, fun _ => copiesFqdn_slice.1 hfqdn⟩
  · exact iff_of_false (by simp) fun hfits => hfqdn (copiesFqdn_slice.2 (hfits.2 h81))
  · exact iff_of_true rfl ⟨fun h => absurd h hword, fun h => absurd h h81⟩

end

/-- `dhclient_parse_ack` on the rest of the receive buffer has a result exactly when its reads stay
inside. -/
lemma isSome_dhclientParseAck {m : Bytes} {data : SessionHandle}
    (hopt : data.dhcpOpt = slice m DHCP_OPT (RECV_BUF_SIZE - DHCP_OPT)) :
    (dhclientParseAck data).isSome ↔ EndsInside optionFits m DHCP_OPT := by
  rw [dhclientParseAck, Option.isSome_map, hopt]
  exact isSome_walkOptions_iff (fun p out hnext => isSome_ackBody out hnext) DHCP_OPT _

/-- The same for `dhclient_parse_offer`. -/
lemma isSome_dhclientParseOffer {m : Bytes} {data : SessionHandle}
    (hopt : data.dhcpOpt = slice m DHCP_OPT (RECV_BUF_SIZE - DHCP_OPT)) :
    (dhclientParseOffer data).isSome ↔ EndsInside (fits .DHCPMSG_OFFER data.verbose) m DHCP_OPT := by
  have hfirst := isSome_walkOptions_iff (m := m) (fun p opt _ => isSome_offerBody (p := p) opt) DHCP_OPT
    { data.opt with option50IpFlag := 1, option50Ip := data.dhcpYip }
  have hsecond := isSome_walkOptions_iff (m := m) (fun p u hnext => isSome_offerDetails (p := p) u hnext)
    DHCP_OPT ()
  rw [dhclientParseOffer, hopt]
  cases hv : data.verbose with
  | false =>
      refine Iff.trans ?_ hfirst
      simp only [Bool.false_eq_true, if_false]
      cases walkOptions offerBody _ _ <;> rfl
  | true =>
      refine Iff.trans ?_ (show EndsInside optionFits m DHCP_OPT ↔ _ from Iff.rfl)
      constructor
      · intro h
        obtain ⟨r, h⟩ := Option.isSome_iff_exists.1 h
        obtain ⟨opt, -, h⟩ := Option.bind_eq_some_iff.1 h
        rw [if_pos rfl, Option.map_eq_some_iff] at h
        obtain ⟨u, hu, -⟩ := h
        exact hsecond.1 (by rw [hu]; rfl)
      · intro h
        -- the first loop needs no more room than the second
        obtain ⟨opt, hopt'⟩ := Option.isSome_iff_exists.1
          (hfirst.2 (h.imp fun p hp h54 => hp.1 (Or.inl h54)))
        rw [hopt', Option.bind_some, if_pos rfl, Option.isSome_map]
        exact hsecond.2 h

/-- An acknowledgement with a server identifier and `END`. -/
def endedAck : List UInt8 :=
  frameOf [1, 2, 3, 4] [192, 168, 0, 17] [0x35, 1, DHCP_MSGACK, DHCP_SERVIDENT, 4, 192, 168, 0, 1, DHCP_END]

/-- An acknowledgement with no option but the type of the message, and without `END`. -/
def endlessAck : List UInt8 := frameOf [1, 2, 3, 4] [192, 168, 0, 17] [0x35, 1, DHCP_MSGACK]

/-- The first acknowledgement is parsed inside the buffer. -/
theorem dhcp_parsing_confined_ended :
    dhclientCheckPack .DHCPMSG_ACK 0 0x01020304 (received (fun _ => 0) endedAck) = .MRJE_OK ∧
    Confined .DHCPMSG_ACK true (fun _ => 0) endedAck := by
  have hcheck : dhclientCheckPack .DHCPMSG_ACK 0 0x01020304 (received (fun _ => 0) endedAck) = .MRJE_OK := by
    decide +kernel
  refine ⟨hcheck, (dhcp_parsing_confined_iff _ true _ _ _ _ hcheck).2 ⟨by decide +kernel, ?_⟩⟩
  -- the walk: the type of the message, the server identifier, `END`
  refine .option (by decide +kernel) ⟨by decide +kernel, by decide +kernel⟩ ?_
  refine .option (by decide +kernel) ⟨by decide +kernel, by decide +kernel⟩ ?_
  exact .atEnd (by decide +kernel) (by decide +kernel)

/-- **A frame without `END`** passes the check, and the loop of `dhclient_parse_ack` leaves the
receive buffer: behind the frame there are only zeros. -/
theorem endless_ack_outside :
    ¬ ∀ (recvmsg : MRJDhcpMsg) (verbose : Bool) (vlan xid : ℕ) (m : Bytes) (frame : List UInt8),
      frame.length ≤ RECV_BUF_SIZE →
      dhclientCheckPack recvmsg vlan xid (received m frame) = .MRJE_OK →
      Confined recvmsg verbose m frame := by
  intro h
  obtain ⟨-, fuel, accesses, hreads, hin⟩ :=
    h .DHCPMSG_ACK false 0 0x01020304 (fun _ => 0) endlessAck (by decide +kernel)
      (by decide +kernel)
  have hends := (endsInside_received .DHCPMSG_ACK false (fun _ => 0) endlessAck DHCP_OPT).1
    ((ackReads_inside_iff false).1 ⟨fuel, accesses, hreads, hin⟩)
  have hlength : endlessAck.length = 285 := by decide +kernel
  have hnone : ∀ i, DHCP_OPT ≤ i → octets endlessAck i ≠ DHCP_END := by
    intro i hi
    rw [DHCP_OPT] at hi
    by_cases hlt : i < 285
    · interval_cases i <;> decide +kernel
    · have hzero : octets endlessAck i = 0 := poke_behind _ (by omega)
      rw [hzero]
      decide
  exact absurd (hends.lt_of_no_end hnone) (lt_irrefl _)

end DeviceTools.Dhcp
