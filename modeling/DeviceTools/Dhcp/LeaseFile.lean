/-
The leases in a file.

When a lease is stored, `dhclient_create_ethxleases` writes its twelve fields to a file, and a new
process loads them over a default lease.  Writer and reader list the fields each for itself; the
reader takes the first field whose name the name of an element starts with, and skips an element
without a text.  Nothing ever gives a lease a broadcast address, so that this text is empty when it
is written, and the new process has the default one.

TinyXML is a parameter: a document that has been saved is loaded as it was.  A file that exists is
not empty.
-/
import DeviceTools.Dhcp.Leases

namespace DeviceTools.Dhcp.Leases

/-! ### Documents -/

/-- An element, with the text in it. -/
structure Element where
  value : String
  text : String
deriving DecidableEq, Repr

/-- `GetText`, which is NULL for an empty text. -/
def Element.getText (e : Element) : Option String := if e.text = "" then none else some e.text

/-- The root element of a document, and the elements of each of its children. -/
structure Document where
  rootElement : String
  children : List (String × List Element)
deriving DecidableEq, Repr

/-- What is used of TinyXML. -/
structure TinyXml where
  File : Type
  saveFile : Document → File
  loadFile : File → Option Document
  load_save : ∀ doc, loadFile (saveFile doc) = some doc

/-! ### Fields -/

/-- The fields of `struct DhclientLeases`. -/
inductive Field where
  | ifName
  | fixedAddress
  | subnetMask
  | routers
  | serverAddress
  | broadcastAddress
  | leaseTime
  | renewalTime
  | rebindingTime
  | renew
  | rebind
  | expire
deriving DecidableEq, Repr

/-- The name of its element. -/
def Field.name : Field → String
  | .ifName => "if_name"
  | .fixedAddress => "fixed_address"
  | .subnetMask => "subnet_mask"
  | .routers => "routers"
  | .serverAddress => "server_address"
  | .broadcastAddress => "broadcast_address"
  | .leaseTime => "lease_time"
  | .renewalTime => "renewal_time"
  | .rebindingTime => "rebinding_time"
  | .renew => "renew"
  | .rebind => "rebind"
  | .expire => "expire"

/-- What a field holds. -/
inductive Value where
  | text (s : String)
  | number (n : ℤ)
deriving DecidableEq, Repr

def Field.get : Field → DhclientLeases → Value
  | .ifName, leases => .text leases.ifName
  | .fixedAddress, leases => .text leases.fixedAddress
  | .subnetMask, leases => .text leases.subnetMask
  | .routers, leases => .text leases.routers
  | .serverAddress, leases => .text leases.serverAddress
  | .broadcastAddress, leases => .text leases.broadcastAddress
  | .leaseTime, leases => .number leases.leaseTime
  | .renewalTime, leases => .number leases.renewalTime
  | .rebindingTime, leases => .number leases.rebindingTime
  | .renew, leases => .text leases.renew
  | .rebind, leases => .text leases.rebind
  | .expire, leases => .text leases.expire

/-! ### Writing -/

/-- `%d`. -/
def sprintf (n : ℤ) : String :=
  String.ofList (if n < 0 then '-' :: Decimal.print n.natAbs else Decimal.print n.natAbs)

/-- The text that is written for a value. -/
def Value.content : Value → String
  | .text s => s
  | .number n => sprintf n

/-- The fields in the order in which they are written. -/
def written : List Field :=
  [.ifName, .fixedAddress, .subnetMask, .routers, .serverAddress, .broadcastAddress, .leaseTime, .renewalTime,
    .rebindingTime, .renew, .rebind, .expire]

def element (leases : DhclientLeases) (f : Field) : Element := ⟨f.name, (f.get leases).content⟩

/-- The document for a lease. -/
def createDocument (child : String) (leases : DhclientLeases) : Document :=
  ⟨"HHProtocol", [(child, written.map (element leases))]⟩

def dhclientCreateEthxleases (X : TinyXml) (leases : DhclientLeases) : X.File :=
  X.saveFile (createDocument "ethx_leases" leases)

def dhclientCreateRaxleases (X : TinyXml) (leases : DhclientLeases) : X.File :=
  X.saveFile (createDocument "rax_leases" leases)

/-! ### Loading -/

/-- `isspace`. -/
def isSpace (c : Char) : Bool := c = ' ' || (9 ≤ c.toNat && c.toNat ≤ 13)

/-- The number of the digits at the start of a text. -/
def leadingNumber (s : List Char) : ℤ := Decimal.value (s.takeWhile Char.isDigit)

/-- `atoi`, of a number that fits an `int`. -/
def atoi (s : String) : ℤ :=
  match s.toList.dropWhile isSpace with
  | [] => 0
  | c :: cs => if c = '-' then -leadingNumber cs else if c = '+' then leadingNumber cs else leadingNumber (c :: cs)

/-- `strncmp(contactType, name, strlen(name)) == 0`. -/
def startsWith (contactType name : String) : Bool := name.toList.isPrefixOf contactType.toList

/-- The fields in the order in which their names are tested. -/
def tested : List Field :=
  [.ifName, .fixedAddress, .subnetMask, .routers, .serverAddress, .broadcastAddress, .leaseTime, .renewalTime,
    .rebindingTime, .renew, .rebind, .expire]

/-- The branch that is taken for the name of an element. -/
def Field.ofType (contactType : String) : Option Field := tested.find? fun f => startsWith contactType f.name

/-- What this branch does. -/
def Field.load (contactValue : String) (leases : DhclientLeases) : Field → DhclientLeases
  | .ifName => { leases with ifName := strncpy 32 contactValue }
  | .fixedAddress => { leases with fixedAddress := strncpy 16 contactValue }
  | .subnetMask => { leases with subnetMask := strncpy 16 contactValue }
  | .routers => { leases with routers := strncpy 16 contactValue }
  | .serverAddress => { leases with serverAddress := strncpy 16 contactValue }
  | .broadcastAddress => { leases with broadcastAddress := strncpy 16 contactValue }
  | .leaseTime => { leases with leaseTime := atoi contactValue }
  | .renewalTime => { leases with renewalTime := atoi contactValue }
  | .rebindingTime => { leases with rebindingTime := atoi contactValue }
  | .renew => { leases with renew := strncpy 20 contactValue }
  | .rebind => { leases with rebind := strncpy 20 contactValue }
  | .expire => { leases with expire := strncpy 20 contactValue }

/-- An element of the loop; one without a text, or of another name, is skipped. -/
def loadElement (leases : DhclientLeases) (e : Element) : DhclientLeases :=
  match e.getText, Field.ofType e.value with
  | some contactValue, some f => f.load contactValue leases
  | _, _ => leases

/-- `dhclient_load_ethxleases`, and `dhclient_load_raxleases`: all children of the root are gone over,
whatever their names are. -/
def loadLeases (X : TinyXml) (file : X.File) (leases : DhclientLeases) : DhclientLeases :=
  match X.loadFile file with
  | some doc => doc.children.foldl (fun leases child => child.2.foldl loadElement leases) leases
  | none => leases

/-! ### Starting -/

/-- `dhclient_init_ethxleases` and `dhclient_init_raxleases`, for the name of the interface. -/
def initLeases (ifName : String) (Z : FixedZone) (timenow : ℤ) : Option DhclientLeases := do
  let renew ← dhclientConverTime Z timenow ""
  let rebind ← dhclientConverTime Z timenow ""
  let expire ← dhclientConverTime Z timenow ""
  return { ifName := strncpy 32 ifName
           fixedAddress := strncpy 16 "192.168.0.230"
           subnetMask := strncpy 16 "255.255.255.0"
           routers := strncpy 16 "192.168.0.1"
           serverAddress := strncpy 16 "192.168.0.1"
           broadcastAddress := strncpy 16 "192.168.0.255"
           leaseTime := 43200
           renewalTime := 21600
           rebindingTime := 37800
           renew, rebind, expire }

def dhclientInitEthxleases (Z : FixedZone) (timenow : ℤ) : Option DhclientLeases := initLeases "eth0" Z timenow

def dhclientInitRaxleases (Z : FixedZone) (timenow : ℤ) : Option DhclientLeases := initLeases "ra0" Z timenow

/-- The files with the leases, `none` for one that does not exist. -/
structure Files (X : TinyXml) where
  ethx : Option X.File
  rax : Option X.File

/-- The static variables of a process. -/
structure Process where
  runningCount : ℕ
  store : LeaseStore

/-- A new process: its variables are zeroed. -/
def Process.fresh : Process := ⟨0, ⟨noLease, noLease⟩⟩

/-- `dhclient_read_ethxleases`: the lease is loaded, or written if there is no file. -/
def dhclientReadEthxleases (X : TinyXml) (leases : DhclientLeases) : Option X.File → DhclientLeases × X.File
  | some file => (loadLeases X file leases, file)
  | none => (leases, dhclientCreateEthxleases X leases)

def dhclientReadRaxleases (X : TinyXml) (leases : DhclientLeases) : Option X.File → DhclientLeases × X.File
  | some file => (loadLeases X file leases, file)
  | none => (leases, dhclientCreateRaxleases X leases)

/-- `dhclient_init_leases`; the clock is read for each of the two leases. -/
def dhclientInitLeases (X : TinyXml) (Z : FixedZone) (timenow timenow' : ℤ) (files : Files X) (p : Process) :
    Option (Process × Files X) :=
  if 0 < p.runningCount then some ({ p with runningCount := p.runningCount + 1 }, files)
  else do
    let ethx ← dhclientInitEthxleases Z timenow
    let rax ← dhclientInitRaxleases Z timenow'
    let (ethx, ethxFile) := dhclientReadEthxleases X ethx files.ethx
    let (rax, raxFile) := dhclientReadRaxleases X rax files.rax
    return (⟨p.runningCount + 1, ⟨ethx, rax⟩⟩, ⟨some ethxFile, some raxFile⟩)

/-! ### One field -/

/-- The branch for a field is the one for its name: the names with which others begin are tested
behind these. -/
lemma Field.ofType_name (f : Field) : Field.ofType f.name = some f := by cases f <;> decide +kernel

lemma Field.get_load (f g : Field) (v : String) (leases : DhclientLeases) :
    g.get (f.load v leases) = if g = f then f.get (f.load v noLease) else g.get leases := by
  cases f <;> cases g <;> rfl

lemma leadingNumber_print (n : ℕ) : leadingNumber (Decimal.print n) = n := by
  have hall : (Decimal.print n).takeWhile Char.isDigit = Decimal.print n :=
    List.takeWhile_eq_self_iff.2 (Decimal.all_isDigit_pad _ n)
  rw [leadingNumber, hall, Decimal.print, Decimal.value_pad_of_lt (Nat.lt_pow_succ_log_self (by norm_num) n)]

/-- A number is read back. -/
lemma atoi_sprintf (n : ℤ) : atoi (sprintf n) = n := by
  rw [atoi, sprintf, String.toList_ofList]
  by_cases hn : n < 0
  · rw [if_pos hn, List.dropWhile_cons_of_neg (by decide)]
    dsimp only
    rw [if_pos rfl, leadingNumber_print]
    omega
  · rw [if_neg hn]
    have hnumber := leadingNumber_print n.natAbs
    have hdigits : ∀ c ∈ Decimal.print n.natAbs, c.isDigit = true := Decimal.all_isDigit_pad _ _
    cases hprint : Decimal.print n.natAbs with
    | nil =>
        have hlen := congrArg List.length hprint
        rw [Decimal.print, Decimal.length_pad] at hlen
        cases hlen
    | cons c cs =>
        rw [hprint] at hnumber hdigits
        have hc := hdigits c List.mem_cons_self
        have hspace : isSpace c = false := by
          have hlow : 48 ≤ c.toNat := by
            simp only [Char.isDigit, Bool.and_eq_true, decide_eq_true_eq, ge_iff_le, UInt32.le_iff_toNat_le] at hc
            exact hc.1
          have hblank : c ≠ ' ' := by
            rintro rfl
            exact absurd hlow (by decide)
          rw [isSpace, decide_eq_false hblank, Bool.false_or, Bool.and_eq_false_iff]
          exact Or.inr (decide_eq_false (by omega))
        have hsign : c ≠ '-' ∧ c ≠ '+' := by
          constructor <;> (rintro rfl; exact absurd hc (by decide))
        rw [List.dropWhile_cons_of_neg (by rw [hspace]; decide)]
        dsimp only
        rw [if_neg hsign.1, if_neg hsign.2, hnumber]
        omega

lemma strncpy_eq_self {size : ℕ} {s : String} (h : s.toList.length ≤ size - 1) : strncpy size s = s := by
  rw [strncpy, List.take_of_length_le h, String.ofList_toList]

lemma length_strncpy_le (size : ℕ) (s : String) : (strncpy size s).toList.length ≤ size - 1 := by
  rw [strncpy, String.toList_ofList]
  exact List.length_take_le _ _

/-- The texts fit their arrays. -/
structure Fits (leases : DhclientLeases) : Prop where
  ifName : leases.ifName.toList.length ≤ 31
  fixedAddress : leases.fixedAddress.toList.length ≤ 15
  subnetMask : leases.subnetMask.toList.length ≤ 15
  routers : leases.routers.toList.length ≤ 15
  serverAddress : leases.serverAddress.toList.length ≤ 15
  broadcastAddress : leases.broadcastAddress.toList.length ≤ 15
  renew : leases.renew.toList.length ≤ 19
  rebind : leases.rebind.toList.length ≤ 19
  expire : leases.expire.toList.length ≤ 19

/-- What is written for a field that fits is what is read for it. -/
lemma Fits.get_load_content {leases : DhclientLeases} (h : Fits leases) (f : Field) :
    f.get (f.load (f.get leases).content noLease) = f.get leases := by
  cases f with
  | ifName => exact congrArg Value.text (strncpy_eq_self h.ifName)
  | fixedAddress => exact congrArg Value.text (strncpy_eq_self h.fixedAddress)
  | subnetMask => exact congrArg Value.text (strncpy_eq_self h.subnetMask)
  | routers => exact congrArg Value.text (strncpy_eq_self h.routers)
  | serverAddress => exact congrArg Value.text (strncpy_eq_self h.serverAddress)
  | broadcastAddress => exact congrArg Value.text (strncpy_eq_self h.broadcastAddress)
  | leaseTime => exact congrArg Value.number (atoi_sprintf _)
  | renewalTime => exact congrArg Value.number (atoi_sprintf _)
  | rebindingTime => exact congrArg Value.number (atoi_sprintf _)
  | renew => exact congrArg Value.text (strncpy_eq_self h.renew)
  | rebind => exact congrArg Value.text (strncpy_eq_self h.rebind)
  | expire => exact congrArg Value.text (strncpy_eq_self h.expire)

/-! ### The whole file -/

/-- Records are the same if all their fields are. -/
lemma ext_fields {leases leases' : DhclientLeases} (h : ∀ f : Field, f.get leases = f.get leases') :
    leases = leases' := by
  have htext : ∀ {a b : String}, Value.text a = Value.text b → a = b := fun h => Value.text.inj h
  have hnumber : ∀ {a b : ℤ}, Value.number a = Value.number b → a = b := fun h => Value.number.inj h
  obtain ⟨⟩ := leases
  obtain ⟨⟩ := leases'
  congr 1
  · exact htext (h .ifName)
  · exact htext (h .fixedAddress)
  · exact htext (h .subnetMask)
  · exact htext (h .routers)
  · exact htext (h .serverAddress)
  · exact htext (h .broadcastAddress)
  · exact hnumber (h .leaseTime)
  · exact hnumber (h .renewalTime)
  · exact hnumber (h .rebindingTime)
  · exact htext (h .renew)
  · exact htext (h .rebind)
  · exact htext (h .expire)

lemma loadElement_element (leases init : DhclientLeases) (f : Field) :
    loadElement init (element leases f) =
      if (f.get leases).content = "" then init else f.load (f.get leases).content init := by
  have hname : Field.ofType (element leases f).value = some f := f.ofType_name
  rw [loadElement, hname, Element.getText]
  change (match if (f.get leases).content = "" then none else some (f.get leases).content, some f with
    | some contactValue, some f => f.load contactValue init
    | _, _ => init) = _
  split_ifs <;> rfl

/-- What the loop over elements leaves in a field. -/
lemma get_foldl_loadElement {leases : DhclientLeases} (h : Fits leases) (g : Field) : ∀ (fs : List Field)
    (init : DhclientLeases), g.get ((fs.map (element leases)).foldl loadElement init) =
      if g ∈ fs ∧ (g.get leases).content ≠ "" then g.get leases else g.get init := by
  intro fs
  induction fs with
  | nil => exact fun init => by simp
  | cons f fs ih =>
      intro init
      rw [List.map_cons, List.foldl_cons, ih, loadElement_element]
      by_cases hg : g = f
      · subst hg
        by_cases hempty : (g.get leases).content = ""
        · simp [hempty]
        · rw [if_neg hempty, g.get_load, if_pos rfl, h.get_load_content]
          simp [hempty]
      · have hsame : g.get (if (f.get leases).content = "" then init else f.load (f.get leases).content init) =
            g.get init := by
          split_ifs
          · rfl
          · rw [f.get_load, if_neg hg]
        rw [hsame]
        simp [hg]

lemma mem_written (f : Field) : f ∈ written := by cases f <;> decide

/-- **A file that has been written** gives every field back that has a text. -/
lemma get_loadLeases (X : TinyXml) (child : String) {leases : DhclientLeases} (h : Fits leases)
    (init : DhclientLeases) (f : Field) :
    f.get (loadLeases X (X.saveFile (createDocument child leases)) init) =
      if (f.get leases).content ≠ "" then f.get leases else f.get init := by
  rw [loadLeases, X.load_save]
  change f.get ((written.map (element leases)).foldl loadElement init) = _
  rw [get_foldl_loadElement h]
  simp [mem_written]

/-! ### Texts that are empty -/

lemma ofList_eq_empty {cs : List Char} : String.ofList cs = "" ↔ cs = [] := by
  constructor
  · intro h
    have hlist := congrArg String.toList h
    rwa [String.toList_ofList] at hlist
  · rintro rfl
    rfl

lemma sprintf_ne_empty (n : ℤ) : sprintf n ≠ "" := by
  have hprint : Decimal.print n.natAbs ≠ [] := fun h => by
    have hlen := congrArg List.length h
    rw [Decimal.print, Decimal.length_pad] at hlen
    cases hlen
  rw [sprintf, Ne, ofList_eq_empty]
  by_cases hn : n < 0
  · rw [if_pos hn]
    exact List.cons_ne_nil _ _
  · rw [if_neg hn]
    exact hprint

lemma strncpy_eq_empty {size : ℕ} (hsize : 1 < size) {s : String} : strncpy size s = "" ↔ s = "" := by
  rw [strncpy, ofList_eq_empty, List.take_eq_nil_iff, or_iff_right (by omega)]
  exact String.toList_eq_nil_iff

lemma length_stampText (tm : Tm) (second : ℕ) : (stampText tm second).length = 19 := by
  simp [stampText]

/-- The text of a time: it is empty only if nothing is written to an empty buffer. -/
lemma converTime_eq_empty {Z : FixedZone} {time : ℤ} {bufp text : String}
    (h : dhclientConverTime Z time bufp = some text) :
    text = "" ↔ time ≤ 0 ∧ bufp = "" := by
  rw [dhclientConverTime] at h
  split_ifs at h with hpos
  · obtain rfl := Option.some_inj.1 h
    exact (and_iff_right hpos).symm
  · obtain rfl := Option.some_inj.1 h
    refine iff_of_false (fun hempty => ?_) fun hand => hpos hand.1
    have hlen := length_stampText (Z.zone.localtime time.toNat) (secondOf Z time.toNat)
    rw [ofList_eq_empty.1 hempty] at hlen
    cases hlen

lemma length_converTime_le {Z : FixedZone} {time : ℤ} {bufp text : String}
    (h : dhclientConverTime Z time bufp = some text) (hbuf : bufp.toList.length ≤ 19) :
    text.toList.length ≤ 19 := by
  rw [dhclientConverTime] at h
  split_ifs at h
  · rwa [← Option.some_inj.1 h]
  · rw [← Option.some_inj.1 h, String.toList_ofList, length_stampText]

/-! ### Restarting -/

/-- The record of a session: it is zeroed, and `dhclient_update_leases` fills it in. -/
inductive SessionLeases (Z : FixedZone) : DhclientLeases → Prop
  | init : SessionLeases Z noLease
  | update {timenow : ℤ} {resout : DhclientOut} {old leases : DhclientLeases} {store store' : LeaseStore} :
      SessionLeases Z old → dhclientUpdateLeases Z timenow resout old store = some (leases, store') →
      SessionLeases Z leases

/-- There is something to be written for every text: an address for each of the four that the server
gives, a broadcast address from before, and the times are positive or have a text from before; or a
text for the time would be empty in the new process, too. -/
structure TextsGiven (timenow restart : ℤ) (resout : DhclientOut) (old : DhclientLeases) : Prop where
  fixedAddress : resout.fixedAddress ≠ ""
  subNetmask : resout.subNetmask ≠ ""
  router : resout.router ≠ ""
  servIdent : resout.servIdent ≠ ""
  broadcastAddress : old.broadcastAddress ≠ ""
  renew : (timenow + resout.leaseTime.tdiv 2 ≤ 0 ∧ old.renew = "") → restart ≤ 0
  rebind : (timenow + (Int.bmod (resout.leaseTime * 3) (2 ^ 32)).tdiv 4 ≤ 0 ∧ old.rebind = "") → restart ≤ 0
  expire : (timenow + resout.leaseTime ≤ 0 ∧ old.expire = "") → restart ≤ 0

section

variable {X : TinyXml} {Z : FixedZone} {timenow : ℤ} {resout : DhclientOut} {old leases : DhclientLeases}
  {store store' : LeaseStore}

/-- The addresses that are stored; the broadcast address is the one from before. -/
lemma addresses_of_update (h : dhclientUpdateLeases Z timenow resout old store = some (leases, store')) :
    leases.subnetMask = strncpy 16 resout.subNetmask ∧ leases.routers = strncpy 16 resout.router ∧
      leases.broadcastAddress = old.broadcastAddress := by
  simp only [dhclientUpdateLeases, setTimes, Option.bind_eq_bind, Option.bind_eq_some_iff, Option.pure_def,
    Option.some.injEq, Prod.mk.injEq] at h
  obtain ⟨renew, -, rebind, -, expire, -, rfl, -⟩ := h
  exact ⟨rfl, rfl, rfl⟩

lemma fits_of_update (h : dhclientUpdateLeases Z timenow resout old store = some (leases, store'))
    (hold : Fits old) : Fits leases := by
  have hupdated := (updated_of_update h).1
  obtain ⟨hmask, hrouters, hbroadcast⟩ := addresses_of_update h
  exact
    { ifName := by rw [hupdated.ifName]; exact length_strncpy_le 32 _
      fixedAddress := by rw [hupdated.fixedAddress]; exact length_strncpy_le 16 _
      subnetMask := by rw [hmask]; exact length_strncpy_le 16 _
      routers := by rw [hrouters]; exact length_strncpy_le 16 _
      serverAddress := by rw [hupdated.serverAddress]; exact length_strncpy_le 16 _
      broadcastAddress := by rw [hbroadcast]; exact hold.broadcastAddress
      renew := length_converTime_le hupdated.renew hold.renew
      rebind := length_converTime_le hupdated.rebind hold.rebind
      expire := length_converTime_le hupdated.expire hold.expire }

/-- No session has a broadcast address. -/
lemma SessionLeases.broadcastAddress_eq (h : SessionLeases Z leases) : leases.broadcastAddress = "" := by
  induction h with
  | init => rfl
  | update _ hupdate ih => rw [(addresses_of_update hupdate).2.2, ih]

lemma ethxLeases_of_update (h : dhclientUpdateLeases Z timenow resout old store = some (leases, store'))
    (heth : dhclientGetIftype leases.ifName = 0) : store'.ethxLeases = leases := by
  rw [(updated_of_update h).2, LeaseStore.set, if_pos heth]

/-- A new process loads the file over the default lease. -/
lemma ethxLeases_of_init {restart raxTime : ℤ} {rax : Option X.File} {p : Process} {files : Files X}
    (hinit : dhclientInitLeases X Z restart raxTime ⟨some (dhclientCreateEthxleases X leases), rax⟩ .fresh =
      some (p, files)) :
    ∃ init, dhclientInitEthxleases Z restart = some init ∧
      p.store.ethxLeases = loadLeases X (dhclientCreateEthxleases X leases) init := by
  rw [dhclientInitLeases, if_neg (by decide)] at hinit
  simp only [Option.bind_eq_bind, Option.bind_eq_some_iff, Option.pure_def, Option.some.injEq,
    Prod.mk.injEq] at hinit
  obtain ⟨init, hethx, _, -, rfl, -⟩ := hinit
  exact ⟨init, hethx, rfl⟩

/-- The default lease: its addresses, and the texts of its times. -/
lemma init_eq {restart : ℤ} {init : DhclientLeases} (h : dhclientInitEthxleases Z restart = some init) :
    init.fixedAddress ≠ "" ∧ init.subnetMask ≠ "" ∧ init.routers ≠ "" ∧ init.serverAddress ≠ "" ∧
      init.broadcastAddress = "192.168.0.255" ∧ (init.renew = "" ↔ restart ≤ 0) ∧
      (init.rebind = "" ↔ restart ≤ 0) ∧ (init.expire = "" ↔ restart ≤ 0) := by
  simp only [dhclientInitEthxleases, initLeases, Option.bind_eq_bind, Option.bind_eq_some_iff, Option.pure_def,
    Option.some.injEq] at h
  obtain ⟨renew, hrenew, rebind, hrebind, expire, hexpire, rfl⟩ := h
  have hempty : ∀ {text : String}, dhclientConverTime Z restart "" = some text → (text = "" ↔ restart ≤ 0) := by
    intro text htext
    rw [converTime_eq_empty htext, and_iff_left rfl]
  have hgiven : ∀ {s : String}, s ≠ "" → strncpy 16 s ≠ "" := fun hs => (strncpy_eq_empty (by decide)).not.2 hs
  exact ⟨hgiven (by decide), hgiven (by decide), hgiven (by decide), hgiven (by decide),
    strncpy_eq_self (by decide +kernel), hempty hrenew, hempty hrebind, hempty hexpire⟩

/-- The lease of a session comes back with the default broadcast address. -/
lemma broadcastAddress_of_init (hfits : Fits leases) (hbroadcast : leases.broadcastAddress = "")
    {restart raxTime : ℤ} {rax : Option X.File} {p : Process} {files : Files X}
    (hinit : dhclientInitLeases X Z restart raxTime ⟨some (dhclientCreateEthxleases X leases), rax⟩ .fresh =
      some (p, files)) :
    p.store.ethxLeases.broadcastAddress = "192.168.0.255" := by
  obtain ⟨init, hdefault, hload⟩ := ethxLeases_of_init hinit
  have hget := get_loadLeases X "ethx_leases" hfits init .broadcastAddress
  have hcontent : (Field.broadcastAddress.get leases).content = "" := hbroadcast
  rw [if_neg (not_not.2 hcontent)] at hget
  rw [hload]
  exact (Value.text.inj hget).trans (init_eq hdefault).2.2.2.2.1

/-- A lease comes back if every text that is empty is so by default. -/
lemma restored_iff (hfits : Fits leases) {restart raxTime : ℤ} {rax : Option X.File} {p : Process}
    {files : Files X}
    (hinit : dhclientInitLeases X Z restart raxTime ⟨some (dhclientCreateEthxleases X leases), rax⟩ .fresh =
      some (p, files)) :
    ∃ init, dhclientInitEthxleases Z restart = some init ∧ (p.store.ethxLeases = leases ↔
      ∀ f : Field, (f.get leases).content = "" → f.get init = f.get leases) := by
  obtain ⟨init, hdefault, hload⟩ := ethxLeases_of_init hinit
  refine ⟨init, hdefault, ?_⟩
  rw [hload]
  constructor
  · intro heq f hempty
    have hget := get_loadLeases X "ethx_leases" hfits init f
    rw [if_neg (not_not.2 hempty)] at hget
    rw [← hget]
    exact congrArg f.get heq
  · refine fun h => ext_fields fun f => ?_
    rw [dhclientCreateEthxleases, get_loadLeases X _ hfits]
    split_ifs with hempty
    · rfl
    · exact h f (not_not.1 hempty)

/-- An empty text is met by an empty one exactly if the one condition implies the other. -/
lemma empty_imp_eq_iff {a b : String} {P Q : Prop} (ha : a = "" ↔ P) (hb : b = "" ↔ Q) :
    (a = "" → b = a) ↔ (P → Q) := by
  rw [ha, ← hb]
  exact forall_congr' fun hP => by rw [ha.2 hP]

/-- The texts that are given are there, and conversely. -/
lemma textsGiven_iff {restart : ℤ} {init : DhclientLeases} (hinit : dhclientInitEthxleases Z restart = some init)
    (h : dhclientUpdateLeases Z timenow resout old store = some (leases, store'))
    (heth : dhclientGetIftype leases.ifName = 0) :
    (∀ f : Field, (f.get leases).content = "" → f.get init = f.get leases) ↔
      TextsGiven timenow restart resout old := by
  have hupdated := (updated_of_update h).1
  obtain ⟨hmask, hrouters, hbroadcast⟩ := addresses_of_update h
  obtain ⟨hfixed₀, hmask₀, hrouters₀, hserver₀, hbroadcast₀, hrenew₀, hrebind₀, hexpire₀⟩ := init_eq hinit
  have hsize : 1 < 16 := by decide
  have hrenew := empty_imp_eq_iff (converTime_eq_empty hupdated.renew) hrenew₀
  have hrebind := empty_imp_eq_iff (converTime_eq_empty hupdated.rebind) hrebind₀
  have hexpire := empty_imp_eq_iff (converTime_eq_empty hupdated.expire) hexpire₀
  rw [hupdated.renewalTime] at hrenew
  rw [hupdated.rebindingTime] at hrebind
  rw [hupdated.leaseTime] at hexpire
  constructor
  · intro hall
    have htext : ∀ {a b : String}, b ≠ "" → (a = "" → Value.text b = Value.text a) → a ≠ "" := by
      intro a b hb hsame ha
      exact hb ((Value.text.inj (hsame ha)).trans ha)
    have hgiven : ∀ {s : String}, strncpy 16 s ≠ "" → s ≠ "" := fun hs => (strncpy_eq_empty hsize).not.1 hs
    exact
      { fixedAddress := hgiven (hupdated.fixedAddress ▸ htext hfixed₀ (hall .fixedAddress))
        subNetmask := hgiven (hmask ▸ htext hmask₀ (hall .subnetMask))
        router := hgiven (hrouters ▸ htext hrouters₀ (hall .routers))
        servIdent := hgiven (hupdated.serverAddress ▸ htext hserver₀ (hall .serverAddress))
        broadcastAddress := hbroadcast ▸ htext (by rw [hbroadcast₀]; decide) (hall .broadcastAddress)
        renew := hrenew.1 fun hempty => Value.text.inj (hall .renew hempty)
        rebind := hrebind.1 fun hempty => Value.text.inj (hall .rebind hempty)
        expire := hexpire.1 fun hempty => Value.text.inj (hall .expire hempty) }
  · intro hgiven f hempty
    have hne : ∀ {s : String}, s ≠ "" → strncpy 16 s ≠ "" := fun hs => (strncpy_eq_empty hsize).not.2 hs
    cases f with
    | ifName =>
        have hname : leases.ifName = "" := hempty
        rw [hname] at heth
        exact absurd heth (by decide +kernel)
    | fixedAddress => exact absurd (hupdated.fixedAddress.symm.trans hempty) (hne hgiven.fixedAddress)
    | subnetMask => exact absurd (hmask.symm.trans hempty) (hne hgiven.subNetmask)
    | routers => exact absurd (hrouters.symm.trans hempty) (hne hgiven.router)
    | serverAddress => exact absurd (hupdated.serverAddress.symm.trans hempty) (hne hgiven.servIdent)
    | broadcastAddress => exact absurd (hbroadcast.symm.trans hempty) hgiven.broadcastAddress
    | leaseTime => exact absurd hempty (sprintf_ne_empty _)
    | renewalTime => exact absurd hempty (sprintf_ne_empty _)
    | rebindingTime => exact absurd hempty (sprintf_ne_empty _)
    | renew => exact congrArg Value.text (hrenew.2 hgiven.renew hempty)
    | rebind => exact congrArg Value.text (hrebind.2 hgiven.rebind hempty)
    | expire => exact congrArg Value.text (hexpire.2 hgiven.expire hempty)

end

/-- **A lease survives a restart exactly if there is something to be written for every text**; so a
session's lease, which has no broadcast address, never does. -/
theorem lease_survives_iff (X : TinyXml) (Z : FixedZone) (timenow : ℤ) (resout : DhclientOut)
    (old leases : DhclientLeases) (hold : Fits old) (store store' : LeaseStore)
    (hupdate : dhclientUpdateLeases Z timenow resout old store = some (leases, store'))
    (heth : dhclientGetIftype leases.ifName = 0) (restart raxTime : ℤ) (rax : Option X.File) (p : Process)
    (files : Files X)
    (hinit : dhclientInitLeases X Z restart raxTime ⟨some (dhclientCreateEthxleases X store'.ethxLeases), rax⟩
      .fresh = some (p, files)) :
    (p.store.ethxLeases = store'.ethxLeases ↔ TextsGiven timenow restart resout old) ∧
      (SessionLeases Z old → p.store.ethxLeases ≠ store'.ethxLeases) := by
  have hfits := fits_of_update hupdate hold
  rw [ethxLeases_of_update hupdate heth] at hinit ⊢
  constructor
  · obtain ⟨init, hdefault, hiff⟩ := restored_iff hfits hinit
    rw [hiff, textsGiven_iff hdefault hupdate heth]
  · intro hsession heq
    have hnone := (hsession.update hupdate).broadcastAddress_eq
    have hdefault := broadcastAddress_of_init hfits hnone hinit
    rw [heq, hnone] at hdefault
    exact absurd hdefault (by decide)

/-- TinyXML, with the documents themselves for the files. -/
def plainXml : TinyXml := ⟨Document, id, some, fun _ => rfl⟩

/-- For 32-bit times a new process starts. -/
lemma dhclientInitLeases_isSome (X : TinyXml) (Z : FixedZone) {timenow timenow' : ℤ} (hnow : timenow < 2 ^ 31)
    (hnow' : timenow' < 2 ^ 31) (files : Files X) :
    ∃ p files', dhclientInitLeases X Z timenow timenow' files .fresh = some (p, files') := by
  have hinit : ∀ (ifName : String) {time : ℤ}, time < 2 ^ 31 →
      ∃ leases, initLeases ifName Z time = some leases := by
    intro ifName time ht
    obtain ⟨text, htext⟩ : ∃ text, dhclientConverTime Z time "" = some text := by
      rw [dhclientConverTime]
      split
      · exact ⟨_, rfl⟩
      · have hday := Z.dayOf_lt (t := time.toNat) (by omega)
        rw [if_pos (hday.le.trans (by decide))]
        exact ⟨_, rfl⟩
    simp only [initLeases, htext, Option.bind_eq_bind, Option.bind_some, Option.pure_def]
    exact ⟨_, rfl⟩
  obtain ⟨ethx, hethx⟩ := hinit "eth0" hnow
  obtain ⟨rax, hrax⟩ := hinit "ra0" hnow'
  rw [dhclientInitLeases, if_neg (by decide)]
  simp only [dhclientInitEthxleases, dhclientInitRaxleases, hethx, hrax, Option.bind_eq_bind, Option.bind_some,
    Option.pure_def]
  exact ⟨_, _, rfl⟩

/-- What an acknowledgement has given. -/
def sampleOut : DhclientOut := ⟨"eth0", "192.168.1.20", "192.168.1.1", "255.255.255.0", "192.168.1.1", 3600⟩

lemma fits_noLease : Fits noLease := by constructor <;> decide

/-- A record with a broadcast address. -/
def withBroadcast : DhclientLeases := { noLease with broadcastAddress := "192.168.1.255" }

/-- Storing the sample, and restarting a day later. -/
lemma sample_restart (old : DhclientLeases) : ∃ leases store' p files,
    dhclientUpdateLeases .utc 1000 sampleOut old ⟨noLease, noLease⟩ = some (leases, store') ∧
      dhclientGetIftype leases.ifName = 0 ∧
      dhclientInitLeases plainXml .utc 90000 90000
        ⟨some (dhclientCreateEthxleases plainXml store'.ethxLeases), none⟩ .fresh = some (p, files) := by
  obtain ⟨leases, hupdate⟩ := dhclientUpdateLeases_isSome .utc (show (1000 : ℤ) < 2 ^ 31 by decide)
    sampleOut (by decide) (by decide) old ⟨noLease, noLease⟩
  have heth : dhclientGetIftype leases.ifName = 0 := by
    rw [(updated_of_update hupdate).1.ifName]
    decide +kernel
  obtain ⟨p, files, hinit⟩ := dhclientInitLeases_isSome plainXml .utc (show (90000 : ℤ) < 2 ^ 31 by decide)
    (show (90000 : ℤ) < 2 ^ 31 by decide)
    ⟨some (dhclientCreateEthxleases plainXml (LeaseStore.set ⟨noLease, noLease⟩ leases).ethxLeases), none⟩
  exact ⟨leases, _, p, files, hupdate, heth, hinit⟩

/-- A record with a broadcast address comes back. -/
theorem lease_survives_sample : ∃ leases store' p files,
    dhclientUpdateLeases .utc 1000 sampleOut withBroadcast ⟨noLease, noLease⟩ = some (leases, store') ∧
      dhclientInitLeases plainXml .utc 90000 90000
        ⟨some (dhclientCreateEthxleases plainXml store'.ethxLeases), none⟩ .fresh = some (p, files) ∧
      p.store.ethxLeases = store'.ethxLeases := by
  obtain ⟨leases, store', p, files, hupdate, heth, hinit⟩ := sample_restart withBroadcast
  have hold : Fits withBroadcast := by constructor <;> decide
  refine ⟨leases, store', p, files, hupdate, hinit, ?_⟩
  refine (lease_survives_iff plainXml .utc 1000 sampleOut withBroadcast leases hold _ store' hupdate heth
    90000 90000 none p files hinit).1.2 ?_
  constructor <;> decide

/-- The lease of a new session comes back with another broadcast address. -/
theorem lease_session_changed : ∃ leases store' p files,
    SessionLeases .utc noLease ∧
      dhclientUpdateLeases .utc 1000 sampleOut noLease ⟨noLease, noLease⟩ = some (leases, store') ∧
      dhclientGetIftype leases.ifName = 0 ∧
      dhclientInitLeases plainXml .utc 90000 90000
        ⟨some (dhclientCreateEthxleases plainXml store'.ethxLeases), none⟩ .fresh = some (p, files) ∧
      store'.ethxLeases.broadcastAddress = "" ∧ p.store.ethxLeases.broadcastAddress = "192.168.0.255" ∧
      p.store.ethxLeases ≠ store'.ethxLeases := by
  obtain ⟨leases, store', p, files, hupdate, heth, hinit⟩ := sample_restart noLease
  have hstored := ethxLeases_of_update hupdate heth
  have hnone : store'.ethxLeases.broadcastAddress = "" := by
    rw [hstored, (addresses_of_update hupdate).2.2]
    rfl
  have hfits : Fits store'.ethxLeases := by
    rw [hstored]
    exact fits_of_update hupdate fits_noLease
  have hdefault := broadcastAddress_of_init hfits hnone hinit
  refine ⟨leases, store', p, files, .init, hupdate, heth, hinit, hnone, hdefault, fun heq => ?_⟩
  rw [heq, hnone] at hdefault
  exact absurd hdefault (by decide)

end DeviceTools.Dhcp.Leases
