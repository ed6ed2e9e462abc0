/-
How a URL is taken apart.

Behind the scheme `parse_url` looks for the first `:` in all that is left of the URL.  With at
least one character in front of it this is the end of the host, and a port follows.  Otherwise the
host ends at the first `/`.  What is left is the path.  A host or a path that is longer than its
buffer is written over what is behind the buffer, and has no result here.
-/
import DeviceTools.Http.Session

namespace DeviceTools.Http

open Dns

def COLON : UInt8 := 0x3A
def SLASH : UInt8 := 0x2F

/-- The members of the session that `parse_url` sets. -/
structure Target where
  host : List UInt8
  port : ℕ
  remotePath : List UInt8
deriving DecidableEq, Repr

/-- A character in lower case. -/
def toLower (c : UInt8) : UInt8 := if 0x41 ≤ c ∧ c ≤ 0x5A then c + 0x20 else c

/-- `!strncasecmp(url, s, strlen(s))`. -/
def startsWith (s url : List UInt8) : Bool := (url.take s.length).map toLower = s.map toLower

/-- The number of characters of the scheme. -/
def schemeLength (url : List UInt8) : ℕ :=
  if startsWith (text "http://") url then 7 else if startsWith (text "https://") url then 8 else 0

/-- The loops that look for the end of the host: the characters in front of the first `stop`, and
the string from there on. -/
def scanTo (stop : UInt8) : List UInt8 → Option (List UInt8 × List UInt8)
  | [] => none
  | ch :: s => if ch = stop then some ([], ch :: s) else (scanTo stop s).map fun r => (ch :: r.1, r.2)

/-- The loop over the digits of the port. -/
def scanPort : ℕ → List UInt8 → ℕ × List UInt8
  | port, [] => (port, [])
  | port, ch :: s => if isDigit ch then scanPort (port * 10 + (ch.toNat - 0x30)) s else (port, ch :: s)

/-- The host is copied, and the path behind it. -/
def store (host : List UInt8) (port : ℕ) (path : List UInt8) : Option (MRJEcode × Target) :=
  if host.length < MRJ_MAX_HOST ∧ path.length < MRJ_MAX_PATH then
    some (.MRJE_OK, ⟨host, if port = 0 then MRJ_DEF_PORT else port, path⟩)
  else none

/-- `parse_url`, for a session in which the members have the values `old`. -/
def parseUrl (url : List UInt8) (old : Target) : Option (MRJEcode × Target) :=
  let s := url.drop (schemeLength url)
  match scanTo COLON s with
  | some (ch :: host, rest) =>
      let (port, path) := scanPort 0 rest.tail
      store (ch :: host) port path
  | _ =>
      match scanTo SLASH s with
      | some (ch :: host, path) => store (ch :: host) 0 path
      | _ => some (.MRJE_URLINLEGAL, { old with port := 0 })

/-! ### The loops -/

lemma scanTo_eq {stop : UInt8} {a : List UInt8} (ha : stop ∉ a) (b : List UInt8) :
    scanTo stop (a ++ stop :: b) = some (a, stop :: b) := by
  induction a with
  | nil => exact if_pos rfl
  | cons c a ih =>
      have hc : ¬c = stop := fun h => ha (h ▸ List.mem_cons_self)
      rw [List.cons_append, scanTo, if_neg hc, ih fun h => ha (List.mem_cons_of_mem _ h)]
      rfl

lemma scanTo_eq_none {stop : UInt8} {s : List UInt8} (hs : stop ∉ s) : scanTo stop s = none := by
  induction s with
  | nil => rfl
  | cons c s ih =>
      have hc : ¬c = stop := fun h => hs (h ▸ List.mem_cons_self)
      rw [scanTo, if_neg hc, ih fun h => hs (List.mem_cons_of_mem _ h)]
      rfl

lemma scanPort_digits {ds : List UInt8} (hds : ∀ c ∈ ds, isDigit c = true) (rest : List UInt8) : ∀ port,
    scanPort port (ds ++ SLASH :: rest) =
      (ds.foldl (fun n c => 10 * n + (c.toNat - 0x30)) port, SLASH :: rest) := by
  induction ds with
  | nil =>
      intro port
      exact if_neg (by decide)
  | cons c ds ih =>
      intro port
      rw [List.cons_append, scanPort, if_pos (hds c List.mem_cons_self),
        ih fun d hd => hds d (List.mem_cons_of_mem _ hd), List.foldl_cons, Nat.mul_comm port]

lemma parseUrl_of_colon {url a rest : List UInt8} (ha : a ≠ [])
    (hscan : scanTo COLON (url.drop (schemeLength url)) = some (a, rest)) (old : Target) :
    parseUrl url old = store a (scanPort 0 rest.tail).1 (scanPort 0 rest.tail).2 := by
  obtain ⟨c, a, rfl⟩ := List.exists_cons_of_ne_nil ha
  simp only [parseUrl, hscan]

lemma parseUrl_of_slash {url a path : List UInt8} (ha : a ≠ [])
    (hnone : scanTo COLON (url.drop (schemeLength url)) = none)
    (hscan : scanTo SLASH (url.drop (schemeLength url)) = some (a, path)) (old : Target) :
    parseUrl url old = store a 0 path := by
  obtain ⟨c, a, rfl⟩ := List.exists_cons_of_ne_nil ha
  simp only [parseUrl, hnone, hscan]

/-! ### The scheme -/

lemma toLower_eq {c x : UInt8} (hx : x < 0x41) (h : toLower c = x) : c = x := by
  rw [toLower] at h
  split at h
  case isTrue hc =>
    have hnat := congrArg UInt8.toNat h
    simp only [UInt8.lt_iff_toNat_lt, UInt8.le_iff_toNat_le, UInt8.toNat_add, UInt8.toNat_ofNat] at hx hc hnat
    omega
  case isFalse => exact h

lemma startsWith_cons {x c : UInt8} {s url : List UInt8} :
    startsWith (x :: s) (c :: url) = true ↔ toLower c = toLower x ∧ startsWith s url = true := by
  simp [startsWith]

lemma startsWith_append (s t : List UInt8) : startsWith s (s ++ t) = true := by
  rw [startsWith, List.take_left]
  exact decide_eq_true rfl

/-- Where a host ends at `c`, a scheme is seen only if a colon and a slash stand there. -/
lemma startsWith_host {w : List UInt8} (hw : ∀ x ∈ w, 0x41 ≤ toLower x) (e : List UInt8) {c : UInt8}
    (hc : c < 0x41) {t host : List UInt8} (hhost : COLON ∉ host)
    (h : startsWith (w ++ COLON :: SLASH :: e) (host ++ c :: t) = true) :
    c = COLON ∧ t.head? = some SLASH := by
  induction w generalizing host with
  | nil =>
      cases host with
      | nil =>
          rw [List.nil_append, List.nil_append, startsWith_cons] at h
          obtain ⟨hcolon, hslash⟩ := h
          cases t with
          | nil => exact absurd hslash (by simp [startsWith])
          | cons d t =>
              rw [startsWith_cons] at hslash
              exact ⟨toLower_eq (by decide) hcolon, congrArg some (toLower_eq (by decide) hslash.1)⟩
      | cons d host =>
          rw [List.nil_append, List.cons_append, startsWith_cons] at h
          have hd : d = COLON := toLower_eq (by decide) h.1
          exact absurd (hd ▸ List.mem_cons_self) hhost
  | cons x w ih =>
      cases host with
      | nil =>
          rw [List.nil_append, List.cons_append, startsWith_cons] at h
          have hc' : toLower c = c := if_neg fun h' => absurd h'.1 (UInt8.not_le.2 hc)
          have hx := hw x List.mem_cons_self
          rw [← h.1, hc'] at hx
          exact absurd hx (UInt8.not_le.2 hc)
      | cons d host =>
          rw [List.cons_append, List.cons_append, startsWith_cons] at h
          exact ih (fun y hy => hw y (List.mem_cons_of_mem _ hy)) (fun hm => hhost (List.mem_cons_of_mem _ hm)) h.2

/-! ### URLs -/

/-- The port of a URL as it is written, with the colon in front of it. -/
def portText : Option (List UInt8) → List UInt8
  | none => []
  | some ds => COLON :: ds

def urlText (scheme host : List UInt8) (port : Option (List UInt8)) (rest : List UInt8) : List UInt8 :=
  scheme ++ (host ++ (portText port ++ SLASH :: rest))

/-- The number of the port of a URL. -/
def portNumber : Option (List UInt8) → ℕ
  | none => MRJ_DEF_PORT
  | some ds => digitsValue ds

/-- A URL of the form `[http://|https://]host[:port]/rest` whose parts fit their buffers. -/
structure IsUrl (scheme host : List UInt8) (port : Option (List UInt8)) (rest : List UInt8) : Prop where
  scheme_eq : scheme = [] ∨ scheme = text "http://" ∨ scheme = text "https://"
  host_ne_nil : host ≠ []
  colon_notMem : COLON ∉ host
  slash_notMem : SLASH ∉ host
  port_digits : ∀ ds ∈ port, ds ≠ [] ∧ ∀ c ∈ ds, isDigit c = true
  port_range : ∀ ds ∈ port, 1 ≤ digitsValue ds ∧ digitsValue ds ≤ 65535
  host_fits : host.length < MRJ_MAX_HOST
  rest_fits : rest.length + 1 < MRJ_MAX_PATH

/-- What `parse_url` is to make of a URL. -/
def target (host : List UInt8) (port : Option (List UInt8)) (rest : List UInt8) : Target :=
  ⟨host, portNumber port, SLASH :: rest⟩

section

variable {scheme host rest : List UInt8} {port : Option (List UInt8)}

/-- Behind the host stands a slash, or a colon and a digit. -/
lemma portText_append (h : IsUrl scheme host port rest) :
    ∃ c t, portText port ++ SLASH :: rest = c :: t ∧ c < 0x41 ∧ ¬(c = COLON ∧ t.head? = some SLASH) := by
  cases port with
  | none => exact ⟨SLASH, rest, rfl, by decide, fun h' => absurd h'.1 (by decide)⟩
  | some ds =>
      obtain ⟨hne, hds⟩ := h.port_digits ds rfl
      obtain ⟨d, ds, rfl⟩ := List.exists_cons_of_ne_nil hne
      refine ⟨COLON, d :: (ds ++ SLASH :: rest), rfl, by decide, fun h' => ?_⟩
      have hd := hds d List.mem_cons_self
      rw [Option.some_inj.1 h'.2] at hd
      exact absurd hd (by decide)

/-- The scheme is found, and no other. -/
lemma schemeLength_urlText (h : IsUrl scheme host port rest) :
    schemeLength (urlText scheme host port rest) = scheme.length := by
  rcases h.scheme_eq with rfl | rfl | rfl
  · obtain ⟨c, t, htext, hc, hnot⟩ := portText_append h
    have hhttp : ¬startsWith (text "http://") (host ++ c :: t) = true := fun hs =>
      hnot (startsWith_host (w := text "http") (by decide +kernel) [SLASH] hc h.colon_notMem hs)
    have hhttps : ¬startsWith (text "https://") (host ++ c :: t) = true := fun hs =>
      hnot (startsWith_host (w := text "https") (by decide +kernel) [SLASH] hc h.colon_notMem hs)
    rw [urlText, List.nil_append, htext, schemeLength, if_neg hhttp, if_neg hhttps]
    rfl
  · rw [schemeLength, urlText, if_pos (startsWith_append _ _)]
    rfl
  · have hhttp : startsWith (text "http://") (text "https://" ++ (host ++ (portText port ++ SLASH :: rest))) = false :=
      rfl
    rw [schemeLength, urlText, if_neg (Bool.eq_false_iff.1 hhttp), if_pos (startsWith_append _ _)]
    rfl

lemma drop_urlText (h : IsUrl scheme host port rest) :
    (urlText scheme host port rest).drop (schemeLength (urlText scheme host port rest)) =
      host ++ (portText port ++ SLASH :: rest) := by
  rw [schemeLength_urlText h, urlText, List.drop_left]

lemma store_eq (h : IsUrl scheme host port rest) (n : ℕ) :
    store host n (SLASH :: rest) = some (.MRJE_OK, ⟨host, if n = 0 then MRJ_DEF_PORT else n, SLASH :: rest⟩) :=
  if_pos ⟨h.host_fits, h.rest_fits⟩

/-- With a port the first colon is behind the host. -/
lemma parseUrl_port {ds : List UInt8} (h : IsUrl scheme host (some ds) rest) (old : Target) :
    parseUrl (urlText scheme host (some ds) rest) old = some (.MRJE_OK, target host (some ds) rest) := by
  have hne : digitsValue ds ≠ 0 := by
    have := (h.port_range ds rfl).1
    omega
  have hport : scanPort 0 (ds ++ SLASH :: rest) = (digitsValue ds, SLASH :: rest) :=
    scanPort_digits (h.port_digits ds rfl).2 rest 0
  have hscan := scanTo_eq h.colon_notMem (ds ++ SLASH :: rest)
  rw [parseUrl_of_colon h.host_ne_nil (by rw [drop_urlText h]; exact hscan), List.tail_cons, hport,
    store_eq h, if_neg hne]
  rfl

/-- Without a port and without a colon in the rest the first slash is behind the host. -/
lemma parseUrl_no_port (h : IsUrl scheme host none rest) (hrest : COLON ∉ rest) (old : Target) :
    parseUrl (urlText scheme host none rest) old = some (.MRJE_OK, target host none rest) := by
  have hnone : scanTo COLON (host ++ SLASH :: rest) = none := scanTo_eq_none (by
    simp only [List.mem_append, List.mem_cons, not_or]
    exact ⟨h.colon_notMem, by decide, hrest⟩)
  have hscan := scanTo_eq h.slash_notMem rest
  rw [parseUrl_of_slash h.host_ne_nil (by rw [drop_urlText h]; exact hnone)
    (by rw [drop_urlText h]; exact hscan), store_eq h]
  rfl

/-- Without a port a colon in the rest is taken for the one behind the host, and the characters
in front of it become part of the host. -/
lemma parseUrl_colon (h : IsUrl scheme host none rest) (hrest : COLON ∈ rest) (old : Target) :
    ∃ pre n path, parseUrl (urlText scheme host none rest) old = store (host ++ SLASH :: pre) n path := by
  obtain ⟨pre, post, rfl, hpre⟩ := List.eq_append_cons_of_mem hrest
  have hnot : COLON ∉ host ++ SLASH :: pre := by
    simp only [List.mem_append, List.mem_cons, not_or]
    exact ⟨h.colon_notMem, by decide, hpre⟩
  have hscan : scanTo COLON (host ++ (portText none ++ SLASH :: (pre ++ COLON :: post))) =
      some (host ++ SLASH :: pre, COLON :: post) := by
    have hs := scanTo_eq hnot post
    rwa [List.append_assoc, List.cons_append] at hs
  exact ⟨pre, _, _, parseUrl_of_colon (by simp) (by rw [drop_urlText h]; exact hscan) old⟩

lemma store_host {host path : List UInt8} {n : ℕ} {t : MRJEcode × Target} (h : store host n path = some t) :
    t.2.host = host := by
  rw [store] at h
  split at h
  case isTrue => rw [← Option.some_inj.1 h]
  case isFalse => exact absurd h (by simp)

/-- **Which URLs are taken apart as they are meant.**  The host, the port and the path are found
exactly when the URL has a port, or no colon behind the host. -/
theorem parseUrl_eq_target_iff (h : IsUrl scheme host port rest) (old : Target) :
    parseUrl (urlText scheme host port rest) old = some (.MRJE_OK, target host port rest) ↔
      port.isSome = true ∨ COLON ∉ rest := by
  cases port with
  | some ds => exact iff_of_true (parseUrl_port h old) (Or.inl rfl)
  | none =>
      by_cases hrest : COLON ∈ rest
      · refine iff_of_false (fun heq => ?_) (by simpa using hrest)
        obtain ⟨pre, n, path, hstore⟩ := parseUrl_colon h hrest old
        rw [hstore] at heq
        have hhost : host = host ++ SLASH :: pre := store_host heq
        exact absurd hhost (by simp)
      · exact iff_of_true (parseUrl_no_port h hrest old) (Or.inr hrest)

end

/-- In `http://a:81/x:y` the first colon is the one in front of the port. -/
theorem parseUrl_with_port :
    parseUrl (urlText (text "http://") [0x61] (some [0x38, 0x31]) [0x78, COLON, 0x79]) ⟨[], 0, []⟩ =
      some (.MRJE_OK, target [0x61] (some [0x38, 0x31]) [0x78, COLON, 0x79]) :=
  (parseUrl_eq_target_iff ⟨Or.inr (Or.inl rfl), by decide, by decide, by decide, by simp [isDigit],
    by simp [digitsValue], by decide, by decide⟩ ⟨[], 0, []⟩).2 (Or.inl rfl)

/-- The URL `http://a/x:y`: the host becomes `a/x`, and the path becomes `y`. -/
theorem parseUrl_colon_in_path :
    IsUrl (text "http://") [0x61] none [0x78, COLON, 0x79] ∧
      parseUrl (urlText (text "http://") [0x61] none [0x78, COLON, 0x79]) ⟨[], 0, []⟩ =
        some (.MRJE_OK, ⟨[0x61, SLASH, 0x78], MRJ_DEF_PORT, [0x79]⟩) ∧
      target [0x61] none [0x78, COLON, 0x79] ≠ ⟨[0x61, SLASH, 0x78], MRJ_DEF_PORT, [0x79]⟩ := by
  refine ⟨⟨Or.inr (Or.inl rfl), by decide, by decide, by decide, by simp, by simp, by decide, by decide⟩, ?_, ?_⟩
  · decide +kernel
  · decide

end DeviceTools.Http
