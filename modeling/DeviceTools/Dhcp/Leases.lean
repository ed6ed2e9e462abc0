/-
The leases that are stored.

Behind an acknowledgement `dhclient_update_leases` fills in the record of the lease: the addresses,
the times until the lease is to be renewed, to be bound again, and over -- half, three quarters and
the whole of the lease time -- and the texts of these three points of time.  The record is kept for
the kind of the interface, and `dhclient_get_ifleases` gets it back from there.

The lease time is multiplied by three in an `int` before it is divided by four.  `long` and `time_t` are
those of the 64-bit build, and the sums of a point of time and a lease time stay in them.
-/
import DeviceTools.Dhcp.Perform
import DeviceTools.Platform.FixedZone

namespace DeviceTools.Dhcp.Leases

/-- `struct DhclientLeases`; the texts are those in front of the terminating zeros. -/
structure DhclientLeases where
  ifName : String
  fixedAddress : String
  subnetMask : String
  routers : String
  serverAddress : String
  broadcastAddress : String
  leaseTime : ℤ
  renewalTime : ℤ
  rebindingTime : ℤ
  renew : String
  rebind : String
  expire : String
deriving DecidableEq

/-- `g_ethxLeases` and `g_raxLeases`. -/
structure LeaseStore where
  ethxLeases : DhclientLeases
  raxLeases : DhclientLeases
deriving DecidableEq

/-- `strncpy` of all but the last byte of an array whose last byte is zero. -/
def strncpy (size : ℕ) (s : String) : String := String.ofList (s.toList.take (size - 1))

/-! ### Points of time -/

/-- The seconds of the local day. -/
def secondOf (Z : FixedZone) (t : ℕ) : ℕ := (t + Z.east) % DAY

/-- A date and a time of day, as printed by `%d-%02d-%02d %02d:%02d:%02d`; years have four digits. -/
def stampText (tm : Tm) (second : ℕ) : List Char :=
  Decimal.pad 4 (tm.tm_year + 1900) ++ '-' :: (Decimal.pad 2 (tm.tm_mon + 1) ++ '-' ::
    (Decimal.pad 2 tm.tm_mday ++ ' ' :: (Decimal.pad 2 (second / 3600) ++ ':' ::
      (Decimal.pad 2 (second / 60 % 60) ++ ':' :: Decimal.pad 2 (second % 60)))))

/-- `dhclient_conver_time`: the text in the buffer behind it.  Nothing is written for a time that is
not positive.  The buffer has room for a year of four digits, and there is no result for a later
one. -/
def dhclientConverTime (Z : FixedZone) (time : ℤ) (bufp : String) : Option String :=
  if time ≤ 0 then some bufp
  else if Z.dayOf time.toNat ≤ Tm.LAST_DAY then
    some (String.ofList (stampText (Z.zone.localtime time.toNat) (secondOf Z time.toNat)))
  else none

/-! ### The store -/

/-- `strstr(s, part) != NULL`. -/
def strstr (s part : String) : Prop := part.toList <:+: s.toList

instance (s part : String) : Decidable (strstr s part) := inferInstanceAs (Decidable (_ <:+: _))

/-- `dhclient_get_iftype`. -/
def dhclientGetIftype (ifName : String) : ℤ :=
  if strstr ifName "eth" then 0 else if strstr ifName "ra" ∨ strstr ifName "wlan" then 1 else -1

/-- `dhclient_set_ethxleases` or `dhclient_set_raxleases`, by the kind of the interface. -/
def LeaseStore.set (store : LeaseStore) (leases : DhclientLeases) : LeaseStore :=
  if dhclientGetIftype leases.ifName = 0 then { store with ethxLeases := leases }
  else if dhclientGetIftype leases.ifName = 1 then { store with raxLeases := leases }
  else store

/-- `dhclient_get_ifleases`, which fails for an interface of an unknown kind. -/
def dhclientGetIfleases (ifName : String) (store : LeaseStore) : Option DhclientLeases :=
  if dhclientGetIftype ifName = 0 then some store.ethxLeases
  else if dhclientGetIftype ifName = 1 then some store.raxLeases
  else none

/-- The times of a lease: `lease_time * 3` is an `int`, which wraps around. -/
def setTimes (leaseTime : ℤ) (leases : DhclientLeases) : DhclientLeases :=
  { leases with
    leaseTime := leaseTime
    renewalTime := leaseTime.tdiv 2
    rebindingTime := (Int.bmod (leaseTime * 3) (2 ^ 32)).tdiv 4 }

/-- `dhclient_update_leases`: the record of the session and the store behind it.  Whether the file
with the records is written is told by the code, which is left out. -/
def dhclientUpdateLeases (Z : FixedZone) (timenow : ℤ) (resout : DhclientOut) (leases : DhclientLeases)
    (store : LeaseStore) : Option (DhclientLeases × LeaseStore) := do
  let leases := { leases with
    ifName := strncpy 32 resout.ifName
    fixedAddress := strncpy 16 resout.fixedAddress
    subnetMask := strncpy 16 resout.subNetmask
    routers := strncpy 16 resout.router
    serverAddress := strncpy 16 resout.servIdent }
  let leases := setTimes resout.leaseTime leases
  let renew ← dhclientConverTime Z (timenow + leases.renewalTime) leases.renew
  let rebind ← dhclientConverTime Z (timenow + leases.rebindingTime) leases.rebind
  let expire ← dhclientConverTime Z (timenow + leases.leaseTime) leases.expire
  let leases := { leases with renew, rebind, expire }
  return (leases, store.set leases)

/-- What `dhclient_update_leases` leaves in the record. -/
structure Updated (Z : FixedZone) (timenow : ℤ) (resout : DhclientOut) (old leases : DhclientLeases) : Prop where
  ifName : leases.ifName = strncpy 32 resout.ifName
  fixedAddress : leases.fixedAddress = strncpy 16 resout.fixedAddress
  serverAddress : leases.serverAddress = strncpy 16 resout.servIdent
  leaseTime : leases.leaseTime = resout.leaseTime
  renewalTime : leases.renewalTime = resout.leaseTime.tdiv 2
  rebindingTime : leases.rebindingTime = (Int.bmod (resout.leaseTime * 3) (2 ^ 32)).tdiv 4
  renew : dhclientConverTime Z (timenow + leases.renewalTime) old.renew = some leases.renew
  rebind : dhclientConverTime Z (timenow + leases.rebindingTime) old.rebind = some leases.rebind
  expire : dhclientConverTime Z (timenow + leases.leaseTime) old.expire = some leases.expire

lemma updated_of_update {Z : FixedZone} {timenow : ℤ} {resout : DhclientOut} {old leases : DhclientLeases}
    {store store' : LeaseStore} (h : dhclientUpdateLeases Z timenow resout old store = some (leases, store')) :
    Updated Z timenow resout old leases ∧ store' = store.set leases := by
  simp only [dhclientUpdateLeases, setTimes, Option.bind_eq_bind, Option.bind_eq_some_iff, Option.pure_def,
    Option.some.injEq, Prod.mk.injEq] at h
  obtain ⟨renew, hrenew, rebind, hrebind, expire, hexpire, rfl, rfl⟩ := h
  exact ⟨⟨rfl, rfl, rfl, rfl, rfl, rfl, hrenew, hrebind, hexpire⟩, rfl⟩

lemma tdiv_four_lt {x : ℤ} (h : x < 2 ^ 31) : x.tdiv 4 < 2 ^ 29 := by
  rw [Int.tdiv_eq_ediv]
  split
  · omega
  · have hsign : Int.sign 4 = 1 := rfl
    omega

/-- For 32-bit times the texts have room, whatever the lease time. -/
lemma dhclientUpdateLeases_isSome (Z : FixedZone) {timenow : ℤ} (hnow : timenow < 2 ^ 31) (resout : DhclientOut)
    (hlease : 0 < resout.leaseTime) (hint : resout.leaseTime < 2 ^ 31) (old : DhclientLeases) (store : LeaseStore) :
    ∃ leases, dhclientUpdateLeases Z timenow resout old store = some (leases, store.set leases) := by
  have htext : ∀ (time : ℤ) (bufp : String), time < 2 ^ 32 → ∃ text, dhclientConverTime Z time bufp = some text := by
    intro time bufp ht
    rw [dhclientConverTime]
    split
    · exact ⟨_, rfl⟩
    · have hday := Z.dayOf_lt (t := time.toNat) (by omega)
      rw [if_pos (hday.le.trans (by decide))]
      exact ⟨_, rfl⟩
  have hhalf := Int.tdiv_eq_ediv_of_nonneg (b := 2) hlease.le
  have hwrap := tdiv_four_lt (Int.bmod_lt (x := resout.leaseTime * 3) (m := 2 ^ 32) (by decide))
  obtain ⟨renew, hrenew⟩ := htext (timenow + resout.leaseTime.tdiv 2) old.renew (by omega)
  obtain ⟨rebind, hrebind⟩ :=
    htext (timenow + (Int.bmod (resout.leaseTime * 3) (2 ^ 32)).tdiv 4) old.rebind (by omega)
  obtain ⟨expire, hexpire⟩ := htext (timenow + resout.leaseTime) old.expire (by omega)
  rw [dhclientUpdateLeases]
  simp only [setTimes, hrenew, hrebind, hexpire, Option.bind_eq_bind, Option.bind_some, Option.pure_def]
  exact ⟨_, rfl⟩

/-! ### The order of the times -/

/-- The times of a lease are in order, and they are the half and three quarters of the lease time. -/
structure TimersOrdered (leases : DhclientLeases) : Prop where
  nonneg : 0 ≤ leases.renewalTime
  renewal_le : leases.renewalTime ≤ leases.rebindingTime
  rebinding_le : leases.rebindingTime ≤ leases.leaseTime
  half : leases.renewalTime = leases.leaseTime / 2
  quarters : leases.rebindingTime = 3 * leases.leaseTime / 4

lemma bmod_mul_three {time : ℤ} (hpos : 0 < time) (h : time ≤ 715827882) :
    Int.bmod (time * 3) (2 ^ 32) = time * 3 :=
  Int.bmod_eq_of_le (by omega) (by omega)

/-- The times that are stored, if three times the lease time is an `int`. -/
lemma Updated.times {Z : FixedZone} {timenow : ℤ} {resout : DhclientOut} {old leases : DhclientLeases}
    (h : Updated Z timenow resout old leases) (hpos : 0 < resout.leaseTime) :
    TimersOrdered leases ↔ resout.leaseTime ≤ 715827882 := by
  obtain ⟨-, -, -, hlease, hrenewal, hrebinding, -, -, -⟩ := h
  rw [← hlease] at hrenewal hrebinding hpos ⊢
  have hhalf : leases.leaseTime.tdiv 2 = leases.leaseTime / 2 := Int.tdiv_eq_ediv_of_nonneg hpos.le
  constructor
  · intro hordered
    -- what is left of a larger product is less than a quarter of it
    have hlt := tdiv_four_lt (Int.bmod_lt (x := leases.leaseTime * 3) (m := 2 ^ 32) (by decide))
    have hquarters := hordered.quarters
    rw [hrebinding] at hquarters
    omega
  · intro hle
    have hquarters : leases.rebindingTime = 3 * leases.leaseTime / 4 := by
      rw [hrebinding, bmod_mul_three hpos hle, Int.tdiv_eq_ediv_of_nonneg (by omega), mul_comm]
    rw [hhalf] at hrenewal
    exact ⟨by omega, by omega, by omega, hrenewal, hquarters⟩

lemma leaseTime_pos_of_ack {data data' : SessionHandle} (h : dhclientParseAck data = some (.MRJE_OK, data')) :
    0 < data'.resout.leaseTime := by
  rw [dhclientParseAck, Option.map_eq_some_iff] at h
  obtain ⟨resout, -, h⟩ := h
  rw [Prod.mk.injEq] at h
  obtain ⟨hcode, rfl⟩ := h
  split_ifs at hcode with hvalues
  exact hvalues.2.2.2.2

/-- **The times of a lease are ordered if and only if three times the lease time is an `int`.** -/
theorem lease_timers_ordered_iff (Z : FixedZone) (timenow : ℤ) (data data' : SessionHandle)
    (hack : dhclientParseAck data = some (.MRJE_OK, data')) (old leases : DhclientLeases)
    (store store' : LeaseStore)
    (hupdate : dhclientUpdateLeases Z timenow data'.resout old store = some (leases, store')) :
    TimersOrdered leases ↔ data'.resout.leaseTime ≤ 715827882 :=
  (updated_of_update hupdate).1.times (leaseTime_pos_of_ack hack)

/-- A record of zeros. -/
def noLease : DhclientLeases := ⟨"", "", "", "", "", "", 0, 0, 0, "", "", ""⟩

/-- The options of an acknowledgement for a time. -/
def leaseItems (time : List UInt8) (h : time.length < 256) : List Item :=
  [.option (typeOption 5), .option serverOption, .option (leaseOption time h), .option maskOption,
    .option routerOption]

lemma ack_of_any (data : SessionHandle) (time : ℤ)
    (h : ((dhclientParseAck data).any fun r => decide (r.1 = .MRJE_OK ∧ r.2.resout.leaseTime = time)) = true) :
    ∃ data', dhclientParseAck data = some (.MRJE_OK, data') ∧ data'.resout.leaseTime = time := by
  rcases hparse : dhclientParseAck data with _ | ⟨code, data'⟩
  · rw [hparse] at h
    exact absurd h (by simp)
  · rw [hparse, Option.any_some, decide_eq_true_eq] at h
    obtain ⟨rfl, htime⟩ := h
    exact ⟨data', rfl, htime⟩

/-- A lease of one hour. -/
theorem lease_timers_ordered_hour :
    ∃ data' leases store', dhclientParseAck (sampleSession (leaseItems [0, 0, 14, 16] (by decide)) []) =
        some (.MRJE_OK, data') ∧
      dhclientUpdateLeases .utc 1000 data'.resout noLease ⟨noLease, noLease⟩ = some (leases, store') ∧
      TimersOrdered leases := by
  obtain ⟨data', hack, htime⟩ :=
    ack_of_any (sampleSession (leaseItems [0, 0, 14, 16] (by decide)) []) 3600 (by decide +kernel)
  obtain ⟨leases, hupdate⟩ := dhclientUpdateLeases_isSome .utc (show (1000 : ℤ) < 2 ^ 31 by decide)
    data'.resout (by omega) (by omega) noLease ⟨noLease, noLease⟩
  exact ⟨data', leases, _, hack, hupdate,
    (lease_timers_ordered_iff _ _ _ _ hack _ _ _ _ hupdate).mpr (by omega)⟩

/-- **For the longest lease time the product wraps around**: the lease is bound again before it is
renewed. -/
theorem lease_timers_wrap :
    ∃ data' leases store', dhclientParseAck (sampleSession (leaseItems [0x7f, 0xff, 0xff, 0xff] (by decide)) []) =
        some (.MRJE_OK, data') ∧ data'.resout.leaseTime = 0x7fffffff ∧
      dhclientUpdateLeases .utc 1000 data'.resout noLease ⟨noLease, noLease⟩ = some (leases, store') ∧
      leases.renewalTime = 1073741823 ∧ leases.rebindingTime = 536870911 ∧ ¬ TimersOrdered leases := by
  obtain ⟨data', hack, htime⟩ :=
    ack_of_any (sampleSession (leaseItems [0x7f, 0xff, 0xff, 0xff] (by decide)) []) 0x7fffffff (by decide +kernel)
  obtain ⟨leases, hupdate⟩ := dhclientUpdateLeases_isSome .utc (show (1000 : ℤ) < 2 ^ 31 by decide)
    data'.resout (by omega) (by omega) noLease ⟨noLease, noLease⟩
  have hupdated := (updated_of_update hupdate).1
  have hrenewal := hupdated.renewalTime
  have hrebinding := hupdated.rebindingTime
  rw [htime] at hrenewal hrebinding
  refine ⟨data', leases, _, hack, htime, hupdate, hrenewal, hrebinding, fun hordered => ?_⟩
  have hle := hordered.renewal_le
  rw [hrenewal, hrebinding] at hle
  exact absurd hle (by decide)

end DeviceTools.Dhcp.Leases
