/-
The cache of DNS results.

`dns_updata_cache` keeps the results in a fixed array, with the number of entries in use: it overwrites
the address of the entry of the domain name, or fills the next entry, or overwrites an entry chosen
at random when all are in use.  Names and addresses are stored as strings in cleared arrays.  The
entries in use, read as strings, are a `BoundedMap`, and a call is an update of it.
-/
import DeviceTools.Dns.Response
import DeviceTools.Lib.BoundedMap
import DeviceTools.Lib.Runs

namespace DeviceTools.Dns

def MAX_CACHE_NUM : ℕ := 10
def MAX_IP_STRING_SIZE : ℕ := 16

/-! ### Arrays of characters -/

/-- An array of `n` characters. -/
structure CharArray (n : ℕ) where
  chars : List UInt8
  length_chars : chars.length = n

namespace CharArray

variable {n : ℕ}

/-- The array after `memset`. -/
def cleared (n : ℕ) : CharArray n := ⟨List.replicate n 0, List.length_replicate⟩

/-- `strncpy` of at most `k` bytes, where `k` is at most `n`: the bytes of the string, and zeros up
to `k` bytes. -/
def strncpy (a : CharArray n) (s : List UInt8) (k : ℕ) : CharArray n where
  chars := (s.take k ++ List.replicate (k - s.length) 0 ++ a.chars.drop k).take n
  length_chars := by
    have := a.length_chars
    simp only [List.length_take, List.length_append, List.length_replicate, List.length_drop]
    omega

/-- The string in the array, which ends before the first zero. -/
def text (a : CharArray n) : List UInt8 := a.chars.takeWhile (· ≠ 0)

/-- A string of at most `k` bytes in an array that has more than `k` is stored with a zero behind
it. -/
lemma strncpy_cleared {s : List UInt8} {k : ℕ} (hs : s.length ≤ k) (hk : k < n) :
    ∃ zs, (strncpy (cleared n) s k).chars = s ++ 0 :: zs := by
  obtain ⟨m, hm⟩ : ∃ m, n - s.length = m + 1 := ⟨n - s.length - 1, by omega⟩
  refine ⟨List.replicate m 0, ?_⟩
  rw [← List.replicate_succ, ← hm]
  simp only [strncpy, cleared, List.take_of_length_le hs, List.drop_replicate, List.append_assoc,
    List.replicate_append_replicate]
  rw [List.take_of_length_le]
  · congr 2
    omega
  · simp only [List.length_append, List.length_replicate]
    omega

lemma text_strncpy {s : List UInt8} {k : ℕ} (hzero : 0 ∉ s) (hs : s.length ≤ k) (hk : k < n) :
    (strncpy (cleared n) s k).text = s := by
  obtain ⟨zs, hzs⟩ := strncpy_cleared hs hk
  have hall : ∀ c ∈ s, decide (c ≠ 0) = true := by
    rintro c hc
    exact decide_eq_true fun h => hzero (h ▸ hc)
  rw [text, hzs, List.takeWhile_append_of_pos hall, List.takeWhile_cons_of_neg (by simp), List.append_nil]

lemma zero_mem_strncpy {s : List UInt8} {k : ℕ} (hs : s.length ≤ k) (hk : k < n) :
    0 ∈ (strncpy (cleared n) s k).chars := by
  obtain ⟨zs, hzs⟩ := strncpy_cleared hs hk
  simp [hzs]

end CharArray

/-! ### The cache -/

/-- `struct dns_result`. -/
structure DnsResult where
  domainName : CharArray (MAX_DOMAIN_LENGTH + 1)
  resultIp : CharArray MAX_IP_STRING_SIZE

/-- An entry after `memset`. -/
def DnsResult.cleared : DnsResult := ⟨.cleared _, .cleared _⟩

/-- `struct dns_result_cache`. -/
structure DnsResultCache where
  count : ℕ
  result : List DnsResult
  length_result : result.length = MAX_CACHE_NUM

/-- The cache after `memset`. -/
def DnsResultCache.cleared : DnsResultCache := ⟨0, List.replicate MAX_CACHE_NUM .cleared, List.length_replicate⟩

/-- The variables with static storage: the number of calls of `dns_init_cache`, which wraps around, and
`g_cache`. -/
structure CacheState where
  initCount : Int32
  cache : DnsResultCache

/-- The state at the start of the program. -/
def CacheState.start : CacheState := ⟨0, .cleared⟩

/-- `dns_init_cache`. -/
def dnsInitCache (s : CacheState) : CacheState :=
  if 0 < s.initCount then { s with initCount := s.initCount + 1 }
  else ⟨s.initCount + 1, .cleared⟩

/-- What a call of `dns_updata_cache` uses: the domain name and the result of the session, strings without
their terminating zeros, and the number that `dns_rand` returns. -/
structure CacheUpdate where
  domainName : List UInt8
  resultIp : List UInt8
  rand : ℕ
  zero_notMem_name : 0 ∉ domainName
  zero_notMem_ip : 0 ∉ resultIp
  length_name : domainName.length ≤ MAX_DOMAIN_LENGTH
  length_ip : resultIp.length ≤ 15

/-- The loop over `n` entries from the `i`-th on that compares the names: the value of `i` behind it.
There is no result if it reads behind the array. -/
def findDomain (result : List DnsResult) (domainName : List UInt8) : ℕ → ℕ → Option ℕ
  | 0, i => some i
  | n + 1, i => (result[i]?).bind fun r =>
      if r.domainName.text = domainName then some i else findDomain result domainName n (i + 1)

/-- The new content of an entry. -/
def newEntry (u : CacheUpdate) : DnsResult where
  domainName := (CharArray.cleared _).strncpy u.domainName MAX_DOMAIN_LENGTH
  resultIp := (CharArray.cleared _).strncpy u.resultIp (MAX_IP_STRING_SIZE - 1)

/-- A store to an entry of the array. -/
def DnsResultCache.store (c : DnsResultCache) (i : ℕ) (r : DnsResult) : Option DnsResultCache :=
  if i < MAX_CACHE_NUM then
    some ⟨c.count, c.result.set i r, by rw [List.length_set, c.length_result]⟩
  else none

/-- `dns_updata_cache` behind the call of `dns_init_cache`; it always returns `MRJE_OK`. -/
def updataCachep (cachep : DnsResultCache) (u : CacheUpdate) : Option DnsResultCache :=
  (findDomain cachep.result u.domainName cachep.count 0).bind fun i =>
    if i < cachep.count then
      -- the entry of the name
      (cachep.result[i]?).bind fun r => cachep.store i { r with resultIp := (newEntry u).resultIp }
    else if MAX_CACHE_NUM ≤ cachep.count then
      -- an entry chosen at random
      cachep.store (u.rand % MAX_CACHE_NUM) (newEntry u)
    else
      -- the next entry
      (cachep.store cachep.count (newEntry u)).map fun c => { c with count := cachep.count + 1 }

/-- `dns_updata_cache`. -/
def dnsUpdataCache (s : CacheState) (u : CacheUpdate) : Option CacheState :=
  let s := dnsInitCache s
  (updataCachep s.cache u).map fun cache => { s with cache }

/-- The calls of `dns_updata_cache`, one after the other. -/
def runUpdates (s : CacheState) (us : List CacheUpdate) : Option CacheState := Runs.run dnsUpdataCache s us

/-! ### The entries as a map -/

/-- The name and the address of an entry. -/
def DnsResult.entry (r : DnsResult) : List UInt8 × List UInt8 := (r.domainName.text, r.resultIp.text)

/-- The entries in use. -/
def DnsResultCache.entries (c : DnsResultCache) : List (List UInt8 × List UInt8) :=
  (c.result.take c.count).map DnsResult.entry

/-- The update as an update of a map. -/
def CacheUpdate.pair (u : CacheUpdate) : List UInt8 × List UInt8 := (u.domainName, u.resultIp)

/-- The number of entries is at most the size of the array, and the strings in the entries in use are
terminated. -/
structure DnsResultCache.Valid (c : DnsResultCache) : Prop where
  count_le : c.count ≤ MAX_CACHE_NUM
  terminated : ∀ r ∈ c.result.take c.count, 0 ∈ r.domainName.chars ∧ 0 ∈ r.resultIp.chars

lemma entry_newEntry (u : CacheUpdate) : (newEntry u).entry = u.pair := by
  have hname := CharArray.text_strncpy u.zero_notMem_name u.length_name (Nat.lt_succ_self MAX_DOMAIN_LENGTH)
  have hip := CharArray.text_strncpy (n := MAX_IP_STRING_SIZE) u.zero_notMem_ip u.length_ip (by decide)
  exact Prod.ext hname hip

lemma terminated_newEntry (u : CacheUpdate) :
    0 ∈ (newEntry u).domainName.chars ∧ 0 ∈ (newEntry u).resultIp.chars :=
  ⟨CharArray.zero_mem_strncpy u.length_name (Nat.lt_succ_self MAX_DOMAIN_LENGTH),
    CharArray.zero_mem_strncpy u.length_ip (by decide)⟩

lemma valid_cleared : DnsResultCache.cleared.Valid := ⟨Nat.zero_le _, by simp [DnsResultCache.cleared]⟩

lemma length_entries {c : DnsResultCache} (h : c.Valid) : c.entries.length = c.count := by
  have := h.count_le
  rw [DnsResultCache.entries, List.length_map, List.length_take, c.length_result]
  omega

/-- The loop stands at the entry of the name, or behind the entries in use. -/
lemma findDomain_eq (result : List DnsResult) (name : List UInt8) : ∀ {n i : ℕ}, i + n ≤ result.length →
    findDomain result name n i =
      some (i + (((result.drop i).take n).map DnsResult.entry).findIdx fun e => e.1 = name) := by
  intro n
  induction n with
  | zero => intro i _; simp [findDomain]
  | succ n ih =>
      intro i hlen
      have hi : i < result.length := by omega
      rw [findDomain, List.getElem?_eq_getElem hi, Option.bind_some, List.drop_eq_getElem_cons hi,
        List.take_succ_cons, List.map_cons, List.findIdx_cons]
      by_cases h : result[i].domainName.text = name
      · rw [if_pos h]
        simp [DnsResult.entry, h]
      · rw [if_neg h, ih (by omega)]
        simp [DnsResult.entry, h, Nat.add_assoc, Nat.add_comm 1]

lemma store_spec {c : DnsResultCache} (hv : c.Valid) {i : ℕ} (hi : i < MAX_CACHE_NUM) {r : DnsResult}
    (hr : 0 ∈ r.domainName.chars ∧ 0 ∈ r.resultIp.chars) :
    ∃ c', c.store i r = some c' ∧ c'.count = c.count ∧ c'.result = c.result.set i r ∧ c'.Valid ∧
      c'.entries = c.entries.set i r.entry := by
  refine ⟨_, if_pos hi, rfl, rfl, ⟨hv.count_le, fun x hx => ?_⟩, ?_⟩
  · rw [List.take_set] at hx
    obtain rfl | ⟨m, -, hm⟩ := BoundedMap.mem_set_cases hx
    · exact hr
    · exact hv.terminated x (List.mem_of_getElem? hm)
  · rw [DnsResultCache.entries, List.take_set, List.map_set, DnsResultCache.entries]

/-- The entry at which the loop stops. -/
lemma entry_found {c : DnsResultCache} (hv : c.Valid) {name : List UInt8}
    (hi : (c.entries.findIdx fun e => e.1 = name) < c.count) :
    ∃ r, c.result[c.entries.findIdx fun e => e.1 = name]? = some r ∧ r ∈ c.result.take c.count ∧
      r.domainName.text = name := by
  have hlt : (c.entries.findIdx fun e => e.1 = name) < c.entries.length := by rwa [length_entries hv]
  obtain ⟨e, hget, hname⟩ : ∃ e, c.entries[c.entries.findIdx fun e => e.1 = name]? = some e ∧ e.1 = name :=
    ⟨_, List.getElem?_eq_getElem hlt, of_decide_eq_true (List.findIdx_getElem (w := hlt))⟩
  generalize (c.entries.findIdx fun e => e.1 = name) = i at hi hget
  rw [DnsResultCache.entries, List.getElem?_map, Option.map_eq_some_iff] at hget
  obtain ⟨r, hr, hentry⟩ := hget
  refine ⟨r, ?_, List.mem_of_getElem? hr, ?_⟩
  · rwa [List.getElem?_take_of_lt hi] at hr
  · rw [← hname, ← congrArg Prod.fst hentry]
    rfl

/-- **A call is an update of the map.** -/
lemma updataCachep_spec {c : DnsResultCache} (hv : c.Valid) (u : CacheUpdate) :
    ∃ c', updataCachep c u = some c' ∧ c'.Valid ∧ c'.entries =
      BoundedMap.update MAX_CACHE_NUM c.entries u.domainName u.resultIp (u.rand % MAX_CACHE_NUM) := by
  have hcount := hv.count_le
  have hfind : findDomain c.result u.domainName c.count 0 =
      some (c.entries.findIdx fun e => e.1 = u.domainName) := by
    have h := findDomain_eq c.result u.domainName (n := c.count) (i := 0) (by
      rw [c.length_result, Nat.zero_add]
      exact hcount)
    rwa [List.drop_zero, Nat.zero_add] at h
  simp only [updataCachep, hfind, Option.bind_some, BoundedMap.update, length_entries hv]
  by_cases hi : (c.entries.findIdx fun e => e.1 = u.domainName) < c.count
  · -- the name stays, the address is new
    obtain ⟨r, hr, hmem, hname⟩ := entry_found hv hi
    have hentry : DnsResult.entry ⟨r.domainName, (newEntry u).resultIp⟩ = u.pair := by
      have := congrArg Prod.snd (entry_newEntry u)
      exact Prod.ext hname this
    obtain ⟨c', hc', -, -, hvalid, hentries⟩ := store_spec hv (hi.trans_le hcount)
      (r := ⟨r.domainName, (newEntry u).resultIp⟩) ⟨(hv.terminated r hmem).1, (terminated_newEntry u).2⟩
    rw [if_pos hi, if_pos hi, hr]
    exact ⟨c', hc', hvalid, by rw [hentries, hentry]; rfl⟩
  rw [if_neg hi, if_neg hi]
  by_cases hfull : MAX_CACHE_NUM ≤ c.count
  · obtain ⟨c', hc', -, -, hvalid, hentries⟩ := store_spec hv
      (Nat.mod_lt u.rand (by decide : 0 < MAX_CACHE_NUM)) (terminated_newEntry u)
    rw [if_pos hfull, if_pos hfull]
    exact ⟨c', hc', hvalid, by rw [hentries, entry_newEntry]; rfl⟩
  · -- the entry behind those in use
    obtain ⟨c', hc', -, hresult, -, -⟩ := store_spec hv (not_le.1 hfull) (terminated_newEntry u)
    have htake : c'.result.take (c.count + 1) = c.result.take c.count ++ [newEntry u] := by
      rw [hresult, List.take_add_one, List.getElem?_set_self (by rw [c.length_result]; omega),
        Option.toList_some, List.take_set_of_le le_rfl]
    rw [if_neg hfull, if_neg hfull, hc']
    refine ⟨_, rfl, ⟨not_le.1 hfull, ?_⟩, ?_⟩
    · rintro r hr
      rw [htake, List.mem_append, List.mem_singleton] at hr
      rcases hr with hr | rfl
      · exact hv.terminated r hr
      · exact terminated_newEntry u
    · rw [DnsResultCache.entries, htake, List.map_append, List.map_singleton, entry_newEntry]
      rfl

/-! ### The cache over all calls -/

/-- The cache is a map that follows the updates. -/
structure FollowsUpdates (us : List CacheUpdate) (c : DnsResultCache) : Prop where
  valid : c.Valid
  kept : BoundedMap.Kept MAX_CACHE_NUM (us.map CacheUpdate.pair) c.entries

/-- What `dns_init_cache` leaves follows the updates too, also if it clears the cache. -/
lemma followsUpdates_dnsInitCache {us : List CacheUpdate} {s : CacheState} (h : FollowsUpdates us s.cache) :
    FollowsUpdates us (dnsInitCache s).cache := by
  rw [dnsInitCache]
  split
  · exact h
  · exact ⟨valid_cleared, BoundedMap.kept_nil _ _⟩

/-- **The step**: a call goes through, the cache follows the updates, and has the last one. -/
lemma FollowsUpdates.step {us : List CacheUpdate} {s : CacheState} (h : FollowsUpdates us s.cache)
    (u : CacheUpdate) : ∃ s', dnsUpdataCache s u = some s' ∧ FollowsUpdates (us ++ [u]) s'.cache ∧
      u.pair ∈ s'.cache.entries := by
  obtain ⟨hvalid, hkept⟩ := followsUpdates_dnsInitCache h
  obtain ⟨c', hc', hvalid', hentries⟩ := updataCachep_spec hvalid u
  refine ⟨⟨(dnsInitCache s).initCount, c'⟩, by rw [dnsUpdataCache, hc', Option.map_some], ⟨hvalid', ?_⟩, ?_⟩
  · show BoundedMap.Kept _ _ c'.entries
    rw [hentries, List.map_append]
    exact hkept.update
  · show u.pair ∈ c'.entries
    rw [hentries]
    exact BoundedMap.mem_update_self (Nat.mod_lt u.rand (by decide))

/-- The result of the last update of a name. -/
def lastResult (us : List CacheUpdate) (name : List UInt8) : Option (List UInt8) :=
  ((us.filter fun u => u.domainName = name).getLast?).map CacheUpdate.resultIp

lemma lastResult_eq (us : List CacheUpdate) (name : List UInt8) :
    BoundedMap.lastValue (us.map CacheUpdate.pair) name = lastResult us name := by
  rw [BoundedMap.lastValue, lastResult, List.filter_map, List.getLast?_map, Option.map_map]
  rfl

/-- The cache after the updates: it does not exceed its size, its strings are terminated, the names are
distinct, the last update is there, and every entry has the result of the last update of its name. -/
structure CacheIsMap (us : List CacheUpdate) (c : DnsResultCache) : Prop where
  count_le : c.count ≤ MAX_CACHE_NUM
  terminated : ∀ r ∈ c.result.take c.count, 0 ∈ r.domainName.chars ∧ 0 ∈ r.resultIp.chars
  distinct : (c.entries.map Prod.fst).Nodup
  last : ∀ u ∈ us.getLast?, u.pair ∈ c.entries
  fresh : ∀ e ∈ c.entries, lastResult us e.1 = some e.2

/-- **The run**: the calls go through, from any state that follows earlier updates. -/
lemma FollowsUpdates.run (us : List CacheUpdate) : ∀ {before : List CacheUpdate} {s : CacheState},
    FollowsUpdates before s.cache → (∀ u ∈ before.getLast?, u.pair ∈ s.cache.entries) →
    ∃ s', runUpdates s us = some s' ∧ FollowsUpdates (before ++ us) s'.cache ∧
      ∀ u ∈ (before ++ us).getLast?, u.pair ∈ s'.cache.entries := by
  induction us with
  | nil =>
      rintro before s h hlast
      exact ⟨s, rfl, by rwa [List.append_nil], by rwa [List.append_nil]⟩
  | cons u us ih =>
      rintro before s h -
      obtain ⟨s₁, hs₁, h₁, hmem⟩ := h.step u
      obtain ⟨s', hs', h', hlast'⟩ := ih h₁ (by simpa using hmem)
      rw [List.append_assoc, List.singleton_append] at h' hlast'
      exact ⟨s', by rw [runUpdates, Runs.run_cons_of_step hs₁]; exact hs', h', hlast'⟩

/-- **The cache stays a map.**  For every sequence of calls of `dns_updata_cache`, whatever entries are
given up. -/
theorem dns_cache_is_map (us : List CacheUpdate) :
    ∃ s, runUpdates .start us = some s ∧ CacheIsMap us s.cache := by
  have hstart : FollowsUpdates [] CacheState.start.cache := ⟨valid_cleared, BoundedMap.kept_nil _ _⟩
  obtain ⟨s, hs, ⟨hvalid, hkept⟩, hlast⟩ := hstart.run us (by simp)
  refine ⟨s, hs, hvalid.count_le, hvalid.terminated, hkept.nodup, hlast, ?_⟩
  rintro e he
  rw [← lastResult_eq]
  exact hkept.fresh e he

end DeviceTools.Dns
