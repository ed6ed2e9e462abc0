/-
What a session starts with when there is a lease.

`dhclient_perform` compares the text of the current time with the texts that were stored with the
lease, and asks for the address of the lease if the time lies between the time to bind again and the
end of the lease, or else starts with a discovery.  Texts of times in one zone are in the order of
the times.  So before the time to bind again a lease that runs is not asked for.
-/
import DeviceTools.Dhcp.Leases

namespace DeviceTools.Dhcp

open Leases

/-! ### The order of the texts -/

/-- Texts are compared by the date and then by the time of day. -/
lemma stampText_lt_iff {a b : Tm} {s t : ℕ} (hs : s < DAY) (ht : t < DAY) :
    stampText a s < stampText b t ↔ a.stamp < b.stamp ∨ a.stamp = b.stamp ∧ s < t := by
  have ha1 := a.year_le; have ha2 := a.mon_lt; have ha3 := a.mday_le
  have hb1 := b.year_le; have hb2 := b.mon_lt; have hb3 := b.mday_le
  have hday : DAY = 86400 := rfl
  have hcons : ∀ (c : Char) (x y : List Char), c :: x < c :: y ↔ x < y := by
    intro c x y
    rw [List.cons_lt_cons_iff]
    simp
  rw [stampText, stampText, Decimal.pad_append_lt_iff (by omega) (by omega), hcons,
    Decimal.pad_append_lt_iff (by omega) (by omega), hcons,
    Decimal.pad_append_lt_iff (by omega) (by omega), hcons,
    Decimal.pad_append_lt_iff (by omega) (by omega), hcons,
    Decimal.pad_append_lt_iff (by omega) (by omega), hcons,
    Decimal.pad_lt_iff (by omega) (by omega), Tm.stamp, Tm.stamp]
  omega

/-- **Texts of times are in the order of the times.** -/
lemma text_lt_iff (Z : FixedZone) {t u : ℕ} (ht : Z.dayOf t ≤ Tm.LAST_DAY) (hu : Z.dayOf u ≤ Tm.LAST_DAY) :
    stampText (Z.zone.localtime t) (secondOf Z t) < stampText (Z.zone.localtime u) (secondOf Z u) ↔ t < u := by
  have hday : 0 < DAY := by decide
  have hsplit : ∀ v, DAY * Z.dayOf v + secondOf Z v = v + Z.east := fun v => Nat.div_add_mod _ _
  have hst := hsplit t
  have hsu := hsplit u
  have hlt : secondOf Z t < DAY := Nat.mod_lt _ hday
  have hlu : secondOf Z u < DAY := Nat.mod_lt _ hday
  rw [stampText_lt_iff hlt hlu]
  show (Tm.ofDays (Z.dayOf t)).stamp < (Tm.ofDays (Z.dayOf u)).stamp ∨ _ ↔ _
  rcases Nat.lt_trichotomy (Z.dayOf t) (Z.dayOf u) with h | h | h
  · -- an earlier day
    have hmul := Nat.mul_le_mul_left DAY h
    rw [Nat.mul_succ] at hmul
    exact iff_of_true (Or.inl (Tm.stamp_ofDays_lt h hu)) (by omega)
  · have hdate : Z.zone.localtime t = Z.zone.localtime u := congrArg Tm.ofDays h
    rw [h] at hst ⊢
    rw [hdate]
    constructor
    · rintro (hstamp | ⟨-, hsec⟩)
      · exact absurd hstamp (lt_irrefl _)
      · omega
    · intro htu
      exact Or.inr ⟨rfl, by omega⟩
  · have hmul := Nat.mul_le_mul_left DAY h
    rw [Nat.mul_succ] at hmul
    have hstamp := Tm.stamp_ofDays_lt h ht
    refine iff_of_false ?_ (by omega)
    rintro (hlt' | ⟨heq, -⟩)
    · exact absurd hlt' (lt_asymm hstamp)
    · exact absurd heq hstamp.ne'

/-- What the comparison of two texts of times says. -/
lemma dhclientConverTime_lt_iff {Z : FixedZone} {t u : ℤ} (ht : 0 < t) (hu : 0 < u) {buft bufu textt textu : String}
    (htextt : dhclientConverTime Z t buft = some textt) (htextu : dhclientConverTime Z u bufu = some textu) :
    textt < textu ↔ t < u := by
  rw [dhclientConverTime, if_neg (by omega)] at htextt htextu
  split_ifs at htextt with hdt
  split_ifs at htextu with hdu
  rw [← Option.some.inj htextt, ← Option.some.inj htextu, String.lt_iff_toList_lt, String.toList_ofList,
    String.toList_ofList, text_lt_iff Z hdt hdu]
  omega

/-! ### Addresses -/

/-- A part of an address, as `inet_pton` reads it: a number up to 255 without leading zeros. -/
def inetOctet (ds : List Char) : Option UInt8 :=
  if ds ≠ [] ∧ ds.all Char.isDigit = true ∧ (ds.head? = some '0' → ds.length = 1) ∧ Decimal.value ds ≤ 255 then
    some (UInt8.ofNat (Decimal.value ds))
  else none

/-- `inet_pton` for `AF_INET`. -/
def inetPton (s : String) : Option (List UInt8) :=
  let parts := s.toList.splitOn '.'
  if parts.length = 4 then parts.mapM inetOctet else none

lemma inetOctet_toString (b : UInt8) : inetOctet (toString b.toNat).toList = some b ∧
    (toString b.toNat).toList.length ≤ 3 ∧ '.' ∉ (toString b.toNat).toList := by
  have hall : ∀ n : Fin 256, inetOctet (toString n.val).toList = some (UInt8.ofNat n.val) ∧
      (toString n.val).toList.length ≤ 3 ∧ '.' ∉ (toString n.val).toList := by decide +kernel
  have hb := hall ⟨b.toNat, b.toNat_lt⟩
  rwa [UInt8.ofNat_toNat] at hb

lemma dhclientGetipstr_toList (a b c d : UInt8) : (dhclientGetipstr [a, b, c, d]).toList =
    ['.'].intercalate [(toString a.toNat).toList, (toString b.toNat).toList, (toString c.toNat).toList,
      (toString d.toNat).toList] := by
  simp [dhclientGetipstr, String.intercalate_cons_cons, List.intercalate]

/-- **The text of an address is read back**, also from the array of the record. -/
lemma inetPton_dhclientGetipstr {ip : List UInt8} (h : ip.length = 4) :
    inetPton (Leases.strncpy 16 (dhclientGetipstr ip)) = some ip := by
  obtain ⟨a, b, c, d, rfl⟩ : ∃ a b c d, ip = [a, b, c, d] := by
    rcases ip with _ | ⟨a, _ | ⟨b, _ | ⟨c, _ | ⟨d, _ | ⟨e, ip⟩⟩⟩⟩⟩ <;> simp_all
  obtain ⟨ha, hla, hda⟩ := inetOctet_toString a
  obtain ⟨hb, hlb, hdb⟩ := inetOctet_toString b
  obtain ⟨hc, hlc, hdc⟩ := inetOctet_toString c
  obtain ⟨hd, hld, hdd⟩ := inetOctet_toString d
  have htext := dhclientGetipstr_toList a b c d
  generalize (toString a.toNat).toList = as at ha hla hda htext
  generalize (toString b.toNat).toList = bs at hb hlb hdb htext
  generalize (toString c.toNat).toList = cs at hc hlc hdc htext
  generalize (toString d.toNat).toList = ds at hd hld hdd htext
  have hcopy : Leases.strncpy 16 (dhclientGetipstr [a, b, c, d]) = dhclientGetipstr [a, b, c, d] := by
    rw [Leases.strncpy, List.take_of_length_le, String.ofList_toList]
    rw [htext]
    simp only [List.intercalate, List.intersperse, List.flatten_cons, List.flatten_nil, List.length_append,
      List.length_singleton, List.length_nil]
    omega
  have hsplit : (dhclientGetipstr [a, b, c, d]).toList.splitOn '.' = [as, bs, cs, ds] := by
    rw [htext]
    refine List.splitOn_intercalate '.' ?_ (by simp)
    simp only [List.mem_cons, List.not_mem_nil, or_false, forall_eq_or_imp, forall_eq]
    exact ⟨hda, hdb, hdc, hdd⟩
  rw [hcopy, inetPton, hsplit]
  simp [ha, hb, hc, hd]

/-! ### The start of a session -/

/-- What `dhclient_perform` does first: it fails, asks for the address of the lease, or starts with
a discovery. -/
inductive FirstCall where
  | fails (res : MRJEcode) (s : Session)
  | request (s : Session)
  | discover (s : Session)

/-- The start of `dhclient_perform`, up to its first message. -/
def firstCall (env : PerformEnv) (s : Session) : FirstCall :=
  if env.initLeases ≠ .MRJE_OK then .fails env.initLeases s
  else if env.getIfleases ≠ .MRJE_OK then .fails env.getIfleases s
  else if env.leases.ifName ≠ s.data.ifname then .discover s
  else if leaseRuns env.nowTimeBuf env.leases then
    let (res, opt) := dhclientConverOpt5054 env.leases.fixedAddress env.leases.serverAddress s.data.opt
    let s := { s with data := { s.data with opt } }
    if res ≠ .MRJE_OK then .fails res s else .request s
  else .discover s

/-- `dhclient_perform` goes on from its start. -/
lemma dhclientPerform_eq (env : PerformEnv) (s : Session) :
    dhclientPerform env s = match firstCall env s with
      | .fails res s => ([], some (res, s))
      | .discover s => dhclientPerformDiscover env.discover s
      | .request s =>
          match dhclientPerformRequest env.request s with
          | (events, none) => (events, none)
          | (events, some (res, s)) =>
              if res ≠ .MRJE_OK then
                let (events', end') := dhclientPerformDiscover env.discover s
                (events ++ events', end')
              else (events, some (res, s)) := by
  rw [dhclientPerform, firstCall]
  split_ifs <;> dsimp only
  split_ifs <;> rfl

/-- What `dhclient_perform` uses of the record of a lease. -/
def readLeases (leases : Leases.DhclientLeases) : DhclientLeases where
  ifName := leases.ifName
  fixedAddress := inetPton leases.fixedAddress
  serverAddress := inetPton leases.serverAddress
  rebind := leases.rebind
  expire := leases.expire

/-- The lease of the address `ip` was stored at the time `obtained`, with its three texts, and its
times are in order. -/
structure Obtained (Z : FixedZone) (obtained : ℕ) (ip : List UInt8) (leases : Leases.DhclientLeases)
    (store : LeaseStore) : Prop where
  update : ∃ resout old store₀ server, dhclientUpdateLeases Z obtained resout old store₀ = some (leases, store) ∧
    resout.fixedAddress = dhclientGetipstr ip ∧ ip.length = 4 ∧
    resout.servIdent = dhclientGetipstr server ∧ server.length = 4
  renew_written : 0 < obtained + leases.renewalTime
  renew_le : leases.renewalTime ≤ leases.rebindingTime
  rebind_le : leases.rebindingTime ≤ leases.leaseTime

/-- What the session meets at the time `now`: the leases were read, and the interface has a record in
the store. -/
structure Meets (Z : FixedZone) (now : ℕ) (store : LeaseStore) (s : Session) (env : PerformEnv) : Prop where
  initLeases : env.initLeases = .MRJE_OK
  getIfleases : env.getIfleases = .MRJE_OK
  leases : (dhclientGetIfleases s.data.ifname store).map readLeases = some env.leases
  now : dhclientConverTime Z now "" = some env.nowTimeBuf

/-- The session starts with a request for the address. -/
def Requests (env : PerformEnv) (s : Session) (ip : List UInt8) : Prop :=
  ∃ s', firstCall env s = .request s' ∧ s'.data.opt.option50Ip = ip ∧ s'.data.opt.option50IpFlag = 1

/-- The session starts with a discovery. -/
def Discovers (env : PerformEnv) (s : Session) : Prop := ∃ s', firstCall env s = .discover s'

lemma get_set {store : LeaseStore} {leases leases' : Leases.DhclientLeases}
    (h : dhclientGetIfleases leases.ifName (store.set leases) = some leases') : leases' = leases := by
  rw [dhclientGetIfleases, LeaseStore.set] at h
  split_ifs at h <;> exact (Option.some.inj h).symm

section
variable {Z : FixedZone} {obtained now : ℕ} {ip : List UInt8} {leases : Leases.DhclientLeases} {store : LeaseStore}
  {env : PerformEnv} {s : Session}

lemma Obtained.read (h : Obtained Z obtained ip leases store) (hname : leases.ifName = s.data.ifname)
    (henv : Meets Z now store s env) : env.leases = readLeases leases := by
  obtain ⟨resout, old, store₀, server, hupdate, -⟩ := h.update
  obtain ⟨-, rfl⟩ := updated_of_update hupdate
  obtain ⟨leases', hget, hread⟩ := Option.map_eq_some_iff.1 henv.leases
  rw [← hname] at hget
  rw [← hread, get_set hget]

lemma Obtained.addresses (h : Obtained Z obtained ip leases store) :
    inetPton leases.fixedAddress = some ip ∧ ∃ server, inetPton leases.serverAddress = some server := by
  obtain ⟨resout, old, store₀, server, hupdate, hfixed, hip, hserv, hserver⟩ := h.update
  have hupdated := (updated_of_update hupdate).1
  rw [hupdated.fixedAddress, hupdated.serverAddress, hfixed, hserv]
  exact ⟨inetPton_dhclientGetipstr hip, server, inetPton_dhclientGetipstr hserver⟩

/-- **The comparison**: the lease is taken to run between the time to bind again and its end. -/
lemma Obtained.leaseRuns_iff (h : Obtained Z obtained ip leases store) (hname : leases.ifName = s.data.ifname)
    (henv : Meets Z now store s env) (hnow : obtained < now) : leaseRuns env.nowTimeBuf env.leases ↔
      obtained + leases.rebindingTime < now ∧ (now : ℤ) < obtained + leases.leaseTime := by
  obtain ⟨resout, old, store₀, server, hupdate, -⟩ := h.update
  have hupdated := (updated_of_update hupdate).1
  have hwritten := h.renew_written
  have hrenew := h.renew_le
  have hrebind := h.rebind_le
  rw [h.read hname henv, leaseRuns, readLeases]
  dsimp only
  rw [dhclientConverTime_lt_iff (by omega) (by omega) hupdated.expire henv.now,
    dhclientConverTime_lt_iff (by omega) (by omega) henv.now hupdated.rebind,
    dhclientConverTime_lt_iff (by omega) (by omega) hupdated.rebind henv.now,
    dhclientConverTime_lt_iff (by omega) (by omega) henv.now hupdated.expire]
  omega

/-- The session asks for the address of the lease if it is taken to run, and else starts anew. -/
lemma Obtained.firstCall (h : Obtained Z obtained ip leases store) (hname : leases.ifName = s.data.ifname)
    (henv : Meets Z now store s env) :
    (Requests env s ip ↔ leaseRuns env.nowTimeBuf env.leases) ∧
      (Discovers env s ↔ ¬ leaseRuns env.nowTimeBuf env.leases) := by
  have hread := h.read hname henv
  obtain ⟨hfixed, server, hserver⟩ := h.addresses
  have hifName : env.leases.ifName = s.data.ifname := by rw [hread, readLeases, hname]
  have hopt (opt : DhclientOptions) : dhclientConverOpt5054 env.leases.fixedAddress env.leases.serverAddress opt =
      (.MRJE_OK, { opt with option50Ip := ip, option50IpFlag := 1, serverIdent := server, serverIdentFlag := 1 }) := by
    rw [hread, readLeases, hfixed, hserver]
    rfl
  rw [Requests, Discovers, Dhcp.firstCall, if_neg (not_not.2 henv.initLeases), if_neg (not_not.2 henv.getIfleases),
    if_neg (not_not.2 hifName), hopt]
  by_cases hruns : leaseRuns env.nowTimeBuf env.leases
  · rw [if_pos hruns]
    simp [hruns]
  · rw [if_neg hruns]
    simp [hruns]

end

/-- **A lease that runs is renewed only after the time to bind again.**  A session starts with a request for
the leased address exactly before the end of the lease, and else with a discovery, if and only if the
time to bind again is over or the lease is. -/
theorem dhclient_perform_start_iff (Z : FixedZone) (obtained now : ℕ) (ip : List UInt8)
    (leases : Leases.DhclientLeases) (store : LeaseStore) (hlease : Obtained Z obtained ip leases store)
    (env : PerformEnv) (s : Session) (hname : leases.ifName = s.data.ifname)
    (henv : Meets Z now store s env) (hnow : obtained < now) :
    ((Requests env s ip ↔ (now : ℤ) < obtained + leases.leaseTime) ∧
      (Discovers env s ↔ obtained + leases.leaseTime ≤ (now : ℤ))) ↔
    (obtained + leases.rebindingTime < (now : ℤ) ∨ obtained + leases.leaseTime ≤ (now : ℤ)) := by
  obtain ⟨hrequest, hdiscover⟩ := hlease.firstCall hname henv
  rw [hrequest, hdiscover, hlease.leaseRuns_iff hname henv hnow]
  omega

/-! ### A lease of one hour -/

/-- The record of a lease of one hour, obtained 1000 seconds after the start of 1970. -/
def hourLease : Leases.DhclientLeases where
  ifName := "eth0"
  fixedAddress := "192.168.0.17"
  subnetMask := "255.255.255.0"
  routers := "192.168.0.254"
  serverAddress := "192.168.0.1"
  broadcastAddress := ""
  leaseTime := 3600
  renewalTime := 1800
  rebindingTime := 2700
  renew := "1970-01-01 00:46:40"
  rebind := "1970-01-01 01:01:40"
  expire := "1970-01-01 01:16:40"

def hourStore : LeaseStore := ⟨hourLease, noLease⟩

def hourSession : Session := ⟨sampleSession [] [], 1000, 0, 0, .DHCPMSG_NONE, .DHCPMSG_NONE⟩

/-- The lease is read at some time, and no message gets through. -/
def hourEnv (nowTimeBuf : String) : PerformEnv :=
  let transfer := ⟨.MRJE_UNKNOWN, ⟨0, .MRJE_OK, .MRJE_OK, []⟩, ⟨0, .MRJE_OK, .MRJE_OK, []⟩, .MRJE_OK, .MRJE_OK⟩
  ⟨.MRJE_OK, .MRJE_OK, readLeases hourLease, nowTimeBuf, transfer, transfer⟩

lemma obtained_hourLease : Obtained .utc 1000 [192, 168, 0, 17] hourLease hourStore where
  update := ⟨⟨"eth0", "192.168.0.17", "192.168.0.1", "255.255.255.0", "192.168.0.254", 3600⟩, noLease,
    ⟨noLease, noLease⟩, [192, 168, 0, 1], by decide +kernel, by decide +kernel, rfl, by decide +kernel, rfl⟩
  renew_written := by decide
  renew_le := by decide
  rebind_le := by decide

lemma meets_hourEnv {now : ℕ} {nowTimeBuf : String} (h : dhclientConverTime .utc now "" = some nowTimeBuf) :
    Meets .utc now hourStore hourSession (hourEnv nowTimeBuf) where
  initLeases := rfl
  getIfleases := rfl
  leases := by
    have hget : dhclientGetIfleases hourSession.data.ifname hourStore = some hourLease := by decide +kernel
    rw [hget]
    rfl
  now := h

/-- Five minutes behind the time to bind again the session asks for the leased address. -/
theorem dhclient_perform_start_hour :
    (Requests (hourEnv "1970-01-01 01:06:40") hourSession [192, 168, 0, 17] ↔ (4000 : ℤ) < 1000 + 3600) ∧
      (Discovers (hourEnv "1970-01-01 01:06:40") hourSession ↔ 1000 + 3600 ≤ (4000 : ℤ)) :=
  (dhclient_perform_start_iff .utc 1000 4000 [192, 168, 0, 17] hourLease hourStore obtained_hourLease _ _ rfl
    (meets_hourEnv (by decide +kernel)) (by decide)).mpr (Or.inl (by decide))

/-- **Ten seconds after the lease was obtained the session starts with a discovery**, though the
lease runs for nearly an hour. -/
theorem running_lease_discovered :
    Obtained .utc 1000 [192, 168, 0, 17] hourLease hourStore ∧
      Meets .utc 1010 hourStore hourSession (hourEnv "1970-01-01 00:16:50") ∧
      (1010 : ℤ) < 1000 + hourLease.leaseTime ∧
      Discovers (hourEnv "1970-01-01 00:16:50") hourSession := by
  have hmeets : Meets .utc 1010 hourStore hourSession (hourEnv "1970-01-01 00:16:50") :=
    meets_hourEnv (by decide +kernel)
  have hruns : ¬ leaseRuns "1970-01-01 00:16:50" (readLeases hourLease) := by decide +kernel
  exact ⟨obtained_hourLease, hmeets, by decide, (obtained_hourLease.firstCall rfl hmeets).2.mpr hruns⟩

end DeviceTools.Dhcp
