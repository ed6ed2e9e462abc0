/-
The functions of logLib that delete.

A record is deleted by setting its member `logFileStatus` to 1 where it is.  The functions on one index
file read it record by record, and write a record back that is to be deleted.  The functions on a store
go over the names in its directory, in the order of the names; those that delete by time stop at the
first name behind that of the day.  `delManLogsByUserNo` calls the function that deletes by time, with
the number of the user for the time.
-/
import DeviceTools.LogLib.Search
import DeviceTools.Store.Directory

namespace DeviceTools

open ByteWord

/-! ### One index file -/

section
-- the number of bytes that the device takes of a `write` at a position of a file
variable (size : ℕ) (wanted : List UInt8 → Bool) (write : ℕ → ℕ)

/-- The loop over the index structures of an open file.  Each iteration ends with an `lseek` to
`iIndexAddr`.  The result is the contents of the file, `none` if `fuel` iterations do not suffice. -/
def delLoop : ℕ → List UInt8 → ℕ → Option (List UInt8)
  | 0, _, _ => none
  | fuel + 1, bs, iIndexAddr =>
      let strLogIndex := field bs iIndexAddr size
      if strLogIndex.length ≠ size then some bs
      else if wanted strLogIndex then
        let n := min (write iIndexAddr) size
        let bs := overwrite bs iIndexAddr ((strLogIndex.set 4 1).take n)
        if n ≠ size then some bs else delLoop fuel bs (iIndexAddr + size)
      else delLoop fuel bs (iIndexAddr + size)

end

/-- The functions on one file, with their return value. -/
def delLogFile (size : ℕ) (wanted : List UInt8 → Bool) (write : Path → ℕ → ℕ) (fuel : ℕ) (pFile : Path)
    (d : Disk) : Option (ℤ × Disk) :=
  match d.openRead pFile with
  | none => some (-1, d)
  | some bs => (delLoop size wanted (write pFile) fuel bs 0).map fun bs' =>
      (0, Function.update d pFile (some bs'))

/-- The test of `delSysLogTime`. -/
def sysLogUpTo (tTime : UInt32) (b : List UInt8) : Bool :=
  logTypeAt b = LogType.eSysLog.code && logFileStatusAt b = 0 && logTimeAt b ≤ tTime.toNat

/-- The test of `delManLogTime`. -/
def manLogUpTo (tTime : UInt32) (b : List UInt8) : Bool :=
  logTypeAt b = LogType.eManLog.code && logFileStatusAt b = 0 && logTimeAt b ≤ tTime.toNat

/-- The test of `delManLogUserNo`. -/
def manLogOf (iUserNo : UInt32) (b : List UInt8) : Bool :=
  logTypeAt b = LogType.eManLog.code && logFileStatusAt b = 0 && logUserNoAt b = iUserNo.toNat

/-- `delSysLogTime`. -/
def delSysLogTime (write : Path → ℕ → ℕ) (fuel : ℕ) (pFile : Path) (tTime : UInt32) (d : Disk) :
    Option (ℤ × Disk) :=
  delLogFile SYSLOG_INDEX_SIZE (sysLogUpTo tTime) write fuel pFile d

/-- `delManLogTime`. -/
def delManLogTime (write : Path → ℕ → ℕ) (fuel : ℕ) (pFile : Path) (tTime : UInt32) (d : Disk) :
    Option (ℤ × Disk) :=
  delLogFile MANLOG_INDEX_SIZE (manLogUpTo tTime) write fuel pFile d

/-- `delManLogUserNo`. -/
def delManLogUserNo (write : Path → ℕ → ℕ) (fuel : ℕ) (pFile : Path) (iUserNo : UInt32) (d : Disk) :
    Option (ℤ × Disk) :=
  delLogFile MANLOG_INDEX_SIZE (manLogOf iUserNo) write fuel pFile d

/-! ### All files of a directory -/

/-- The name is one of the two that every directory has. -/
def isDots (name : Name) : Bool := name = ['.'] || name = ['.', '.']

/-- The loop over the names of a directory: `go` says where to go on, and `del` what is done with a
file. -/
def delNames (go : Name → Bool) (del : Path → Disk → Option (ℤ × Disk)) (tmpPath : Path) :
    List Name → Disk → Option Disk
  | [], d => some d
  | name :: names, d =>
      if isDots name then delNames go del tmpPath names d
      else if go name then
        (del (tmpPath ++ '/' :: name) d).bind fun r => delNames go del tmpPath names r.2
      else some d

/-- The functions on a store.  `namelist` is what `scandir` gives, `none` if it fails. -/
def delLogs (go : Name → Bool) (del : Path → Disk → Option (ℤ × Disk)) (tmpPath : Path)
    (namelist : Option (List Name)) (d : Disk) : Option (ℤ × Disk) :=
  match namelist with
  | none => some (-1, d)
  | some names => (delNames go del tmpPath names d).map fun d' => (0, d')

/-- The name of the index file of a day is not behind that of the day of a time. -/
def upToDay (zone : Zone) (tCurtime : UInt32) (name : Name) : Bool :=
  name ≤ Decimal.pad 8 (zone.localtime tCurtime.toNat).stamp ++ dotIndex

/-- `delSysLogsByTime`. -/
def delSysLogsByTime (sysLogIndexPath : Path) (zone : Zone) (namelist : Option (List Name))
    (write : Path → ℕ → ℕ) (fuel : ℕ) (tCurtime : UInt32) (d : Disk) : Option (ℤ × Disk) :=
  delLogs (upToDay zone tCurtime) (fun p => delSysLogTime write fuel p tCurtime) sysLogIndexPath namelist d

/-- `delManLogsByTime`. -/
def delManLogsByTime (manLogIndexPath : Path) (zone : Zone) (namelist : Option (List Name))
    (write : Path → ℕ → ℕ) (fuel : ℕ) (tCurtime : UInt32) (d : Disk) : Option (ℤ × Disk) :=
  delLogs (upToDay zone tCurtime) (fun p => delManLogTime write fuel p tCurtime) manLogIndexPath namelist d

/-- `delManLogsByUserNo`. -/
def delManLogsByUserNo (manLogIndexPath : Path) (namelist : Option (List Name)) (write : Path → ℕ → ℕ)
    (fuel : ℕ) (iUserNo : UInt32) (d : Disk) : Option (ℤ × Disk) :=
  delLogs (fun _ => true) (fun p => delManLogTime write fuel p iUserNo) manLogIndexPath namelist d

/-! ### What becomes of a file -/

/-- The file with the records marked deleted that meet the condition, everything else as it is. -/
def markDeleted (size : ℕ) (wanted : List UInt8 → Bool) (bs : List UInt8) : List UInt8 :=
  ((records size bs).map fun b => if wanted b then b.set 4 1 else b).flatten ++
    bs.drop (bs.length / size * size)

section
variable {size : ℕ} {wanted : List UInt8 → Bool}

lemma markDeleted_of_short {bs : List UInt8} (h : bs.length < size) : markDeleted size wanted bs = bs := by
  rw [markDeleted, records_of_short h, Nat.div_eq_of_lt h]
  simp

lemma markDeleted_append (hpos : 0 < size) {b : List UInt8} (hb : b.length = size) (rest : List UInt8) :
    markDeleted size wanted (b ++ rest) =
      (if wanted b then b.set 4 1 else b) ++ markDeleted size wanted rest := by
  have hlen : (b ++ rest).length / size = rest.length / size + 1 := by
    rw [List.length_append, hb, Nat.add_comm, Nat.add_div_right _ hpos]
  have hdrop : (b ++ rest).drop ((rest.length / size + 1) * size) = rest.drop (rest.length / size * size) := by
    rw [Nat.succ_mul, Nat.add_comm, ← List.drop_drop, List.drop_left' hb]
  rw [markDeleted, records_append hpos hb, List.map_cons, List.flatten_cons, hlen, hdrop, markDeleted,
    List.append_assoc]

/-- **The loop over an open file** marks the records that meet the condition, from the address on, if no
`write` falls short. -/
lemma delLoop_eq (hpos : 0 < size) {write : ℕ → ℕ} (hwrite : ∀ pos, size ≤ write pos) {fuel : ℕ} :
    ∀ (pre rest : List UInt8), rest.length / size < fuel →
      delLoop size wanted write fuel (pre ++ rest) pre.length = some (pre ++ markDeleted size wanted rest) := by
  induction fuel with
  | zero =>
      intro pre rest hfuel
      exact absurd hfuel (Nat.not_lt_zero _)
  | succ fuel ih =>
      intro pre rest hfuel
      have hread : field (pre ++ rest) pre.length size = rest.take size := by
        rw [field, List.drop_left]
      rw [delLoop]
      dsimp only
      rw [hread, List.length_take]
      by_cases hshort : rest.length < size
      · rw [if_pos (by omega), markDeleted_of_short hshort]
      · obtain ⟨b, rest', rfl, hb⟩ : ∃ b rest', rest = b ++ rest' ∧ b.length = size :=
          ⟨rest.take size, rest.drop size, (List.take_append_drop _ _).symm, by rw [List.length_take]; omega⟩
        have hfuel' : rest'.length / size < fuel := by
          rw [List.length_append, hb, Nat.add_comm, Nat.add_div_right _ hpos] at hfuel
          omega
        rw [if_neg (by omega), List.take_left' hb, markDeleted_append hpos hb]
        by_cases hwanted : wanted b = true
        · have hset : ((b.set 4 1).take size).length = b.length := by
            rw [List.length_take, List.length_set, hb, Nat.min_self]
          have htake : (b.set 4 1).take size = b.set 4 1 := List.take_of_length_le (by rw [List.length_set, hb])
          rw [if_pos hwanted, if_pos hwanted, Nat.min_eq_right (hwrite _), if_neg (by simp),
            overwrite_append hset, htake]
          have hrec := ih (pre ++ b.set 4 1) rest' hfuel'
          rw [List.length_append, List.length_set, hb, List.append_assoc] at hrec
          rw [hrec, List.append_assoc]
        · rw [if_neg hwanted, if_neg hwanted]
          have hrec := ih (pre ++ b) rest' hfuel'
          rw [List.length_append, hb, List.append_assoc] at hrec
          rw [hrec, List.append_assoc]

lemma delLogFile_eq (wanted : List UInt8 → Bool) (hpos : 0 < size) {write : Path → ℕ → ℕ} (hwrite : ∀ p pos, size ≤ write p pos) {fuel : ℕ}
    {pFile : Path} {d : Disk} {bs : List UInt8} (hfile : d pFile = some bs) (hlen : bs.length ≤ OFF_MAX)
    (hfuel : OFF_MAX < fuel) : delLogFile size wanted write fuel pFile d =
      some (0, Function.update d pFile (some (markDeleted size wanted bs))) := by
  have hopen : d.openRead pFile = some bs := by
    rw [Disk.openRead, hfile]
    exact if_pos hlen
  have hbound : bs.length / size < fuel := lt_of_le_of_lt ((Nat.div_le_self _ _).trans hlen) hfuel
  have hloop : delLoop size wanted (write pFile) fuel bs 0 = some (markDeleted size wanted bs) :=
    delLoop_eq hpos (hwrite pFile) [] bs hbound
  rw [delLogFile, hopen]
  dsimp only
  rw [hloop, Option.map_some]

end

/-! ### The records behind -/

section
variable {size : ℕ}

lemma logTypeAt_set (b : List UInt8) : logTypeAt (b.set 4 1) = logTypeAt b := by
  rw [logTypeAt, logTypeAt, List.getD_eq_getElem?_getD, List.getD_eq_getElem?_getD,
    List.getElem?_set_ne (by decide)]

lemma logTimeAt_set (b : List UInt8) : logTimeAt (b.set 4 1) = logTimeAt b := by
  rw [logTimeAt, logTimeAt, field, field, List.drop_set_of_lt (by decide)]

lemma logFileStatusAt_set {b : List UInt8} (h : 4 < b.length) : logFileStatusAt (b.set 4 1) = 1 := by
  rw [logFileStatusAt, List.getD_eq_getElem?_getD, List.getElem?_set_self (by simpa using h)]
  rfl

lemma set_eq_self {b : List UInt8} (h : 4 < b.length) (hstatus : logFileStatusAt b = 1) : b.set 4 1 = b := by
  refine List.ext_getElem? fun i => ?_
  by_cases hi : i = 4
  · subst hi
    rw [logFileStatusAt, List.getD_eq_getElem?_getD, List.getElem?_eq_getElem h, Option.getD_some] at hstatus
    rw [List.getElem?_set_self h, List.getElem?_eq_getElem h, hstatus]
  · rw [List.getElem?_set_ne (Ne.symm hi)]

lemma set_ne_self {b : List UInt8} (h : 4 < b.length) (hstatus : logFileStatusAt b = 0) : b.set 4 1 ≠ b := by
  intro heq
  have hone := logFileStatusAt_set h
  rw [heq, hstatus] at hone
  exact absurd hone (by decide)

lemma length_of_mem_records {bs b : List UInt8} (h : b ∈ records size bs) : b.length = size := by
  obtain ⟨i, hi, rfl⟩ := List.mem_map.1 h
  rw [List.mem_range] at hi
  refine field_length ?_
  calc i * size + size = (i + 1) * size := by rw [Nat.succ_mul]
    _ ≤ bs.length / size * size := Nat.mul_le_mul_right _ hi
    _ ≤ bs.length := Nat.div_mul_le_self _ _

lemma length_mark {wanted : List UInt8 → Bool} (b : List UInt8) :
    (if wanted b then b.set 4 1 else b).length = b.length := by
  split
  · rw [List.length_set]
  · rfl

lemma length_of_mem_marked {wanted : List UInt8 → Bool} {bs b : List UInt8}
    (h : b ∈ (records size bs).map fun b => if wanted b then b.set 4 1 else b) : b.length = size := by
  obtain ⟨a, ha, rfl⟩ := List.mem_map.1 h
  rw [length_mark, length_of_mem_records ha]

lemma length_flatten_marked (wanted : List UInt8 → Bool) (bs : List UInt8) :
    ((records size bs).map fun b => if wanted b then b.set 4 1 else b).flatten.length =
      bs.length / size * size := by
  rw [length_flatten_blocks fun b => length_of_mem_marked, List.length_map, records, List.length_map,
    List.length_range]

/-- **The records of the file behind** are those before, with the marks. -/
lemma records_markDeleted (hpos : 0 < size) (wanted : List UInt8 → Bool) (bs : List UInt8) :
    records size (markDeleted size wanted bs) =
      (records size bs).map fun b => if wanted b then b.set 4 1 else b := by
  have htail : (bs.drop (bs.length / size * size)).length < size := by
    rw [List.length_drop, Nat.mul_comm, ← Nat.mod_def]
    exact Nat.mod_lt _ hpos
  have hblocks := fun b => @length_of_mem_marked size wanted bs b
  rw [markDeleted]
  generalize (records size bs).map (fun b => if wanted b then b.set 4 1 else b) = blocks at hblocks ⊢
  induction blocks with
  | nil => rw [List.flatten_nil, List.nil_append, records_of_short htail]
  | cons b blocks ih =>
      rw [List.flatten_cons, List.append_assoc, records_append hpos (hblocks b List.mem_cons_self),
        ih fun x hx => hblocks x (List.mem_cons_of_mem _ hx)]

lemma length_markDeleted (wanted : List UInt8 → Bool) (bs : List UInt8) :
    (markDeleted size wanted bs).length = bs.length := by
  rw [markDeleted, List.length_append, length_flatten_marked, List.length_drop]
  exact Nat.add_sub_of_le (Nat.div_mul_le_self _ _)

/-- A condition that a mark does not change marks the same records again. -/
lemma markDeleted_markDeleted (hpos : 0 < size) {wanted : List UInt8 → Bool}
    (hset : ∀ b : List UInt8, wanted (b.set 4 1) = wanted b) (bs : List UInt8) :
    markDeleted size wanted (markDeleted size wanted bs) = markDeleted size wanted bs := by
  have hdrop : (markDeleted size wanted bs).drop (bs.length / size * size) =
      bs.drop (bs.length / size * size) := by
    rw [markDeleted, List.drop_left' (length_flatten_marked wanted bs)]
  rw [markDeleted, records_markDeleted hpos, length_markDeleted, hdrop, List.map_map, markDeleted]
  congr 2
  refine List.map_congr_left fun b _ => ?_
  rw [Function.comp_apply]
  by_cases hb : wanted b = true
  · rw [if_pos hb, if_pos (by rw [hset, hb]), List.set_set]
  · rw [if_neg hb, if_neg hb]

/-- Where no record meets the condition the file stays as it is. -/
lemma markDeleted_eq_self (hpos : 0 < size) {wanted : List UInt8 → Bool} {bs : List UInt8}
    (h : ∀ b ∈ records size bs, wanted b = false) : markDeleted size wanted bs = bs := by
  induction hn : bs.length / size generalizing bs with
  | zero =>
      rw [Nat.div_eq_zero_iff] at hn
      exact markDeleted_of_short (hn.resolve_left (by omega))
  | succ n ih =>
      have hle : size ≤ bs.length := by
        by_contra hlt
        rw [Nat.div_eq_of_lt (not_le.1 hlt)] at hn
        omega
      obtain ⟨b, rest, rfl, hb⟩ : ∃ b rest, bs = b ++ rest ∧ b.length = size :=
        ⟨bs.take size, bs.drop size, (List.take_append_drop _ _).symm, by rw [List.length_take]; omega⟩
      rw [List.length_append, hb, Nat.add_comm, Nat.add_div_right _ hpos] at hn
      rw [records_append hpos hb] at h
      rw [markDeleted_append hpos hb, h b List.mem_cons_self, if_neg Bool.false_ne_true,
        ih (fun x hx => h x (List.mem_cons_of_mem _ hx)) (by omega)]

/-- Two conditions mark a file in the same way exactly if they do so with each record. -/
lemma markDeleted_eq_iff (hpos : 0 < size) {p q : List UInt8 → Bool} {bs : List UInt8} :
    markDeleted size p bs = markDeleted size q bs ↔
      ∀ b ∈ records size bs, (if p b then b.set 4 1 else b) = if q b then b.set 4 1 else b := by
  constructor
  · intro h b hb
    have hrecords := congrArg (records size) h
    rw [records_markDeleted hpos, records_markDeleted hpos, List.map_inj_left] at hrecords
    exact hrecords b hb
  · intro h
    rw [markDeleted, markDeleted, List.map_congr_left h]

end

/-! ### The files of a directory -/

/-- A path of a file in a directory. -/
def InDirectory (path p : Path) : Prop :=
  ∃ name : Name, name ≠ [] ∧ '/' ∉ name ∧ isDots name = false ∧ p = path ++ '/' :: name

/-- What `scandir` with `alphasort` gives: the names in the directory, in ascending order, with the two
that every directory has. -/
structure Scans (d : Disk) (path : Path) (namelist : List Name) : Prop where
  sorted : namelist.Pairwise (· < ·)
  mem_iff : ∀ name, name ∈ namelist ↔
    isDots name = true ∨ name ≠ [] ∧ '/' ∉ name ∧ d (path ++ '/' :: name) ≠ none

/-- In the files of the directory exactly the records that meet the condition have been marked deleted,
and every other file is as it was. -/
def DeletesExactly (size : ℕ) (wanted : List UInt8 → Bool) (path : Path) (d d' : Disk) : Prop :=
  ∀ p, (InDirectory path p → d' p = (d p).map (markDeleted size wanted)) ∧
    (¬ InDirectory path p → d' p = d p)

section
variable {path : Path} {d : Disk}

/-- Once the loop stops at a name, no name behind is one to go on with: the loop does with the whole list
what it does with the names to go on with. -/
lemma delNames_filter {go : Name → Bool} {del : Path → Disk → Option (ℤ × Disk)}
    (hgo : ∀ a b, a < b → go b = true → go a = true) {names : List Name} (hsorted : names.Pairwise (· < ·)) :
    delNames go del path names d =
      delNames (fun _ => true) del path (names.filter fun n => !isDots n && go n) d := by
  induction names generalizing d with
  | nil => rfl
  | cons name names ih =>
      rw [List.pairwise_cons] at hsorted
      rw [delNames]
      by_cases hdots : isDots name = true
      · rw [if_pos hdots, List.filter_cons_of_neg (by simp [hdots]), ih hsorted.2]
      · rw [if_neg hdots]
        by_cases hname : go name = true
        · rw [if_pos hname, List.filter_cons_of_pos (by simp [hdots, hname]), delNames, if_neg hdots,
            if_pos rfl]
          refine congrArg _ (funext fun r => ?_)
          exact ih hsorted.2
        · have hrest : (names.filter fun n => !isDots n && go n) = [] := by
            rw [List.filter_eq_nil_iff]
            intro n hn hboth
            rw [Bool.and_eq_true] at hboth
            exact hname (hgo name n (hsorted.1 n hn) hboth.2)
          rw [if_neg hname, List.filter_cons_of_neg (by simp [hname]), hrest]
          rfl

/-- The loop over names of files in the directory, each of them once. -/
lemma delNames_eq {size : ℕ} (wanted : List UInt8 → Bool) (hpos : 0 < size) {write : Path → ℕ → ℕ}
    (hwrite : ∀ p pos, size ≤ write p pos) {fuel : ℕ} (hfuel : OFF_MAX < fuel) {names : List Name}
    (hnodup : names.Nodup) (hnames : ∀ n ∈ names, isDots n = false ∧ '/' ∉ n ∧
      ∃ bs, d (path ++ '/' :: n) = some bs ∧ bs.length ≤ OFF_MAX) :
    ∃ d', delNames (fun _ => true) (delLogFile size wanted write fuel) path names d = some d' ∧
      (∀ n ∈ names, d' (path ++ '/' :: n) = (d (path ++ '/' :: n)).map (markDeleted size wanted)) ∧
      ∀ p, (∀ n ∈ names, p ≠ path ++ '/' :: n) → d' p = d p := by
  induction names generalizing d with
  | nil => exact ⟨d, rfl, by simp, fun _ _ => rfl⟩
  | cons name names ih =>
      obtain ⟨hdots, hslash, bs, hfile, hlen⟩ := hnames name List.mem_cons_self
      rw [List.nodup_cons] at hnodup
      have hother : ∀ n ∈ names, path ++ '/' :: n ≠ path ++ '/' :: name := by
        intro n hn heq
        have hnslash := (hnames n (List.mem_cons_of_mem _ hn)).2.1
        rw [path_inj hnslash hslash] at heq
        exact hnodup.1 (heq.2 ▸ hn)
      have hdel := delLogFile_eq wanted hpos hwrite hfile hlen hfuel
      set d₁ := Function.update d (path ++ '/' :: name) (some (markDeleted size wanted bs)) with hd₁
      obtain ⟨d', hrun, hin, hout⟩ := ih (d := d₁) hnodup.2 fun n hn => by
        obtain ⟨h1, h2, bs', h3, h4⟩ := hnames n (List.mem_cons_of_mem _ hn)
        exact ⟨h1, h2, bs', by rw [hd₁, Function.update_of_ne (hother n hn), h3], h4⟩
      refine ⟨d', ?_, fun n hn => ?_, fun p hp => ?_⟩
      · rw [delNames, if_neg (by simp [hdots]), if_pos rfl, hdel, Option.bind_some]
        exact hrun
      · rcases List.mem_cons.1 hn with rfl | hn
        · rw [hout _ fun n hn => (hother n hn).symm, hd₁, Function.update_self, hfile, Option.map_some]
        · rw [hin n hn, hd₁, Function.update_of_ne (hother n hn)]
      · rw [hout p fun n hn => hp n (List.mem_cons_of_mem _ hn), hd₁,
          Function.update_of_ne (hp name List.mem_cons_self)]

/-- **What becomes of the store**: the loop marks the files whose names it goes on with. -/
lemma delLogs_eq {size : ℕ} (wanted : List UInt8 → Bool) (hpos : 0 < size) {write : Path → ℕ → ℕ}
    (hwrite : ∀ p pos, size ≤ write p pos) {fuel : ℕ} (hfuel : OFF_MAX < fuel) (go : Name → Bool)
    (hgo : ∀ a b, a < b → go b = true → go a = true) {namelist : List Name} (hscan : Scans d path namelist)
    (hlen : ∀ p bs, InDirectory path p → d p = some bs → bs.length ≤ OFF_MAX) :
    ∃ d', delLogs go (delLogFile size wanted write fuel) path (some namelist) d = some (0, d') ∧
      (∀ n : Name, n ≠ [] → '/' ∉ n → isDots n = false → go n = true →
        d' (path ++ '/' :: n) = (d (path ++ '/' :: n)).map (markDeleted size wanted)) ∧
      ∀ p, (∀ n : Name, n ≠ [] → '/' ∉ n → isDots n = false → go n = true → p ≠ path ++ '/' :: n) →
        d' p = d p := by
  have hnodup : (namelist.filter fun n => !isDots n && go n).Nodup :=
    List.Nodup.filter _ (hscan.sorted.imp fun h => ne_of_lt h)
  have hmem : ∀ n, n ∈ (namelist.filter fun n => !isDots n && go n) ↔
      (n ≠ [] ∧ '/' ∉ n ∧ d (path ++ '/' :: n) ≠ none) ∧ isDots n = false ∧ go n = true := by
    intro n
    rw [List.mem_filter, hscan.mem_iff, Bool.and_eq_true, Bool.not_eq_true']
    constructor
    · rintro ⟨hdots | hfile, hnot, hn⟩
      · rw [hnot] at hdots
        exact absurd hdots Bool.false_ne_true
      · exact ⟨hfile, hnot, hn⟩
    · rintro ⟨hfile, hnot, hn⟩
      exact ⟨Or.inr hfile, hnot, hn⟩
  obtain ⟨d', hrun, hin, hout⟩ := delNames_eq (d := d) wanted hpos hwrite hfuel hnodup fun n hn => by
    obtain ⟨⟨hne, hslash, hfile⟩, hdots, -⟩ := (hmem n).1 hn
    obtain ⟨bs, hbs⟩ := Option.ne_none_iff_exists'.1 hfile
    exact ⟨hdots, hslash, bs, hbs, hlen _ bs ⟨n, hne, hslash, hdots, rfl⟩ hbs⟩
  refine ⟨d', ?_, fun n hne hslash hdots hn => ?_, fun p hp => ?_⟩
  · rw [delLogs, delNames_filter hgo hscan.sorted, hrun, Option.map_some]
  · cases hfile : d (path ++ '/' :: n) with
    | none =>
        -- a name without a file is not in the list
        rw [hout, hfile, Option.map_none]
        intro m hm heq
        obtain ⟨⟨-, hmslash, hmfile⟩, -, -⟩ := (hmem m).1 hm
        rw [← heq] at hmfile
        exact hmfile hfile
    | some bs =>
        rw [hin n ((hmem n).2 ⟨⟨hne, hslash, by rw [hfile]; exact Option.some_ne_none _⟩, hdots, hn⟩), hfile]
  · refine hout p fun n hn => ?_
    obtain ⟨⟨hne, hslash, -⟩, hdots, hgon⟩ := (hmem n).1 hn
    exact hp n hne hslash hdots hgon

end

/-! ### By user number -/

/-- The two tests on a management log record lead to the same file exactly if they agree on the records that
are not deleted yet. -/
lemma markDeleted_upTo_eq_iff (u : UInt32) (bs : List UInt8) :
    markDeleted MANLOG_INDEX_SIZE (manLogUpTo u) bs = markDeleted MANLOG_INDEX_SIZE (manLogOf u) bs ↔
      ∀ b ∈ records MANLOG_INDEX_SIZE bs, logTypeAt b = LogType.eManLog.code → logFileStatusAt b = 0 →
        (logTimeAt b ≤ u.toNat ↔ logUserNoAt b = u.toNat) := by
  rw [markDeleted_eq_iff MANLOG_INDEX_SIZE_pos]
  refine forall₂_congr fun b hb => ?_
  have hne : logFileStatusAt b = 0 → b.set 4 1 ≠ b :=
    set_ne_self (by rw [length_of_mem_records hb]; decide)
  by_cases htype : logTypeAt b = LogType.eManLog.code
  · by_cases hstatus : logFileStatusAt b = 0
    · have hset := hne hstatus
      by_cases htime : logTimeAt b ≤ u.toNat
      · by_cases huser : logUserNoAt b = u.toNat
        · simp [manLogUpTo, manLogOf, htype, hstatus, htime, huser]
        · simp [manLogUpTo, manLogOf, htype, hstatus, htime, huser, hset]
      · by_cases huser : logUserNoAt b = u.toNat
        · simp [manLogUpTo, manLogOf, htype, hstatus, htime, huser, hset.symm]
        · simp [manLogUpTo, manLogOf, htype, hstatus, htime, huser]
    · simp [manLogUpTo, manLogOf, hstatus]
  · simp [manLogUpTo, manLogOf, htype]

/-- What `delManLogsByUserNo` does: it deletes by time. -/
lemma delManLogsByUserNo_eq {path : Path} {namelist : List Name} {write : Path → ℕ → ℕ} {d : Disk} (u : UInt32)
    (hscan : Scans d path namelist) (hlen : ∀ p bs, InDirectory path p → d p = some bs → bs.length ≤ OFF_MAX)
    (hwrite : ∀ p pos, MANLOG_INDEX_SIZE ≤ write p pos) {fuel : ℕ} (hfuel : OFF_MAX < fuel) :
    ∃ d', delManLogsByUserNo path (some namelist) write fuel u d = some (0, d') ∧
      DeletesExactly MANLOG_INDEX_SIZE (manLogUpTo u) path d d' := by
  obtain ⟨d', hd', hin, hout⟩ := delLogs_eq (manLogUpTo u) MANLOG_INDEX_SIZE_pos hwrite hfuel
    (fun _ => true) (fun _ _ _ h => h) hscan hlen
  refine ⟨d', hd', fun p => ⟨?_, fun hp => hout p fun n hne hslash hdots _ heq => ?_⟩⟩
  · rintro ⟨n, hne, hslash, hdots, rfl⟩
    exact hin n hne hslash hdots rfl
  · exact hp ⟨n, hne, hslash, hdots, heq⟩

/-- **When deletion by user number is exact.**  Over any files that `scandir` lists, none of them longer
than `open` allows, and without a short `write`, `delManLogsByUserNo` marks exactly the records of the
user deleted if and only if, of the management log records that are not deleted yet, exactly those of
the user have a time up to the number of the user. -/
theorem del_by_user_no_exact_iff (manLogIndexPath : Path) (namelist : List Name) (write : Path → ℕ → ℕ)
    (iUserNo : UInt32) (d : Disk) (hscan : Scans d manLogIndexPath namelist)
    (hlen : ∀ p bs, InDirectory manLogIndexPath p → d p = some bs → bs.length ≤ OFF_MAX)
    (hwrite : ∀ p pos, MANLOG_INDEX_SIZE ≤ write p pos) :
    (∃ enough, ∀ fuel ≥ enough, ∃ d',
        delManLogsByUserNo manLogIndexPath (some namelist) write fuel iUserNo d = some (0, d') ∧
        DeletesExactly MANLOG_INDEX_SIZE (manLogOf iUserNo) manLogIndexPath d d') ↔
      ∀ p bs, InDirectory manLogIndexPath p → d p = some bs → ∀ b ∈ records MANLOG_INDEX_SIZE bs,
        logTypeAt b = LogType.eManLog.code → logFileStatusAt b = 0 →
          (logTimeAt b ≤ iUserNo.toNat ↔ logUserNoAt b = iUserNo.toNat) := by
  have hrun := fun fuel (hfuel : OFF_MAX < fuel) => delManLogsByUserNo_eq iUserNo hscan hlen hwrite hfuel
  constructor
  · rintro ⟨enough, h⟩ p bs hp hbs
    obtain ⟨d', hd', hexact⟩ := h (enough + OFF_MAX + 1) (by omega)
    obtain ⟨d'', hd'', hupTo⟩ := hrun (enough + OFF_MAX + 1) (by omega)
    rw [hd', Option.some.injEq, Prod.mk.injEq] at hd''
    have heq := ((hexact p).1 hp).symm.trans (hd''.2 ▸ (hupTo p).1 hp)
    rw [hbs, Option.map_some, Option.map_some, Option.some.injEq] at heq
    exact (markDeleted_upTo_eq_iff iUserNo bs).1 heq.symm
  · intro h
    refine ⟨OFF_MAX + 1, fun fuel hfuel => ?_⟩
    obtain ⟨d', hd', hupTo⟩ := hrun fuel (by omega)
    refine ⟨d', hd', fun p => ⟨fun hp => ?_, (hupTo p).2⟩⟩
    rw [(hupTo p).1 hp]
    cases hbs : d p with
    | none => rfl
    | some bs => rw [Option.map_some, Option.map_some, (markDeleted_upTo_eq_iff iUserNo bs).2 (h p bs hp hbs)]

/-- The name of the index file of the sample store. -/
def sampleName : Name := (Tm.ofDays 1).name ++ dotIndex

lemma sampleLogDisk_eq_some {p : Path} {bs : List UInt8} (h : sampleLogDisk p = some bs) :
    p = ['/', 'm'] ++ '/' :: sampleName ∧ bs = [sampleManLog 5, sampleManLog 6].flatten := by
  rw [sampleLogDisk, Function.update_apply] at h
  split at h
  · next hp =>
      rw [Option.some.injEq] at h
      exact ⟨hp, by rw [← h]; simp⟩
  · exact absurd h.symm (Option.some_ne_none _)

lemma sampleLogDisk_file :
    sampleLogDisk (['/', 'm'] ++ '/' :: sampleName) = some [sampleManLog 5, sampleManLog 6].flatten := by
  rw [sampleLogDisk, sampleName, ← dayPath_eq, Function.update_self]
  simp

lemma records_sample : records MANLOG_INDEX_SIZE [sampleManLog 5, sampleManLog 6].flatten =
    [sampleManLog 5, sampleManLog 6] := by
  refine records_flatten MANLOG_INDEX_SIZE_pos fun b hb => ?_
  rcases List.mem_cons.1 hb with rfl | hb
  · exact ManlogEvent.length_logIndex _ _
  · rw [List.mem_singleton.1 hb]
    exact ManlogEvent.length_logIndex _ _

lemma sample_inDirectory : InDirectory ['/', 'm'] (['/', 'm'] ++ '/' :: sampleName) :=
  ⟨sampleName, by decide, by decide, by decide, rfl⟩

/-- The names in a directory with one file. -/
lemma scans_single {path : Path} {name : Name} {bs : List UInt8} (hne : name ≠ []) (hslash : '/' ∉ name)
    (hlt : ['.', '.'] < name) :
    Scans (Function.update (fun _ => none) (path ++ '/' :: name) (some bs)) path [['.'], ['.', '.'], name] := by
  have hdot : (['.'] : Name) < ['.', '.'] := by decide
  refine ⟨by simp [hlt, hdot, hdot.trans hlt], fun n => ?_⟩
  constructor
  · intro h
    simp only [List.mem_cons, List.not_mem_nil, or_false] at h
    rcases h with rfl | rfl | rfl
    · exact Or.inl rfl
    · exact Or.inl rfl
    · exact Or.inr ⟨hne, hslash, by rw [Function.update_self]; exact Option.some_ne_none _⟩
  · rintro (hdots | ⟨-, hnslash, hfile⟩)
    · simp only [isDots, Bool.or_eq_true, decide_eq_true_eq] at hdots
      rcases hdots with rfl | rfl <;> simp
    · have hpath : path ++ '/' :: n = path ++ '/' :: name := by
        by_contra hother
        rw [Function.update_of_ne hother] at hfile
        exact hfile rfl
      rw [path_inj hnslash hslash] at hpath
      simp [hpath.2]

lemma sample_scans : Scans sampleLogDisk ['/', 'm'] [['.'], ['.', '.'], sampleName] := by
  rw [sampleLogDisk, dayPath_eq]
  exact scans_single (by decide) (by decide) (by decide)

lemma sample_length_le (p : Path) (bs : List UInt8) (h : sampleLogDisk p = some bs) : bs.length ≤ OFF_MAX := by
  rw [(sampleLogDisk_eq_some h).2]
  decide +kernel

/-- The two records of the sample store are of the user with number 7 and have the times 5 and 6: the
deletion for this user is exact. -/
theorem del_by_user_no_exact_sample : ∃ enough, ∀ fuel ≥ enough, ∃ d',
    delManLogsByUserNo ['/', 'm'] (some [['.'], ['.', '.'], sampleName]) (fun _ _ => MANLOG_INDEX_SIZE) fuel 7
      sampleLogDisk = some (0, d') ∧
    DeletesExactly MANLOG_INDEX_SIZE (manLogOf 7) ['/', 'm'] sampleLogDisk d' := by
  refine (del_by_user_no_exact_iff ['/', 'm'] [['.'], ['.', '.'], sampleName] (fun _ _ => MANLOG_INDEX_SIZE) 7
    sampleLogDisk sample_scans (fun p bs _ => sample_length_le p bs) fun _ _ => le_rfl).2 ?_
  intro p bs _ hbs b hb _ _
  rw [(sampleLogDisk_eq_some hbs).2, records_sample] at hb
  rcases List.mem_cons.1 hb with rfl | hb
  · decide +kernel
  · rw [List.mem_singleton.1 hb]
    decide +kernel

/-- For the user with number 5, who has no record, the record of another user with the time 5 is marked
deleted. -/
theorem del_by_user_no_hits_other : Scans sampleLogDisk ['/', 'm'] [['.'], ['.', '.'], sampleName] ∧
    ∀ fuel > OFF_MAX, ∃ d',
      delManLogsByUserNo ['/', 'm'] (some [['.'], ['.', '.'], sampleName]) (fun _ _ => MANLOG_INDEX_SIZE) fuel 5
        sampleLogDisk = some (0, d') ∧
      ¬ DeletesExactly MANLOG_INDEX_SIZE (manLogOf 5) ['/', 'm'] sampleLogDisk d' := by
  refine ⟨sample_scans, fun fuel hfuel => ?_⟩
  obtain ⟨d', hd', hupTo⟩ := delManLogsByUserNo_eq 5 sample_scans (fun p bs _ => sample_length_le p bs)
    (fun _ _ => le_rfl) hfuel
  refine ⟨d', hd', fun hexact => ?_⟩
  have heq := ((hupTo _).1 sample_inDirectory).symm.trans ((hexact _).1 sample_inDirectory)
  rw [sampleLogDisk_file, Option.map_some, Option.map_some, Option.some.injEq, markDeleted_upTo_eq_iff,
    records_sample] at heq
  have huser := (heq (sampleManLog 5) List.mem_cons_self (by decide +kernel) (by decide +kernel)).1
    (by decide +kernel)
  exact absurd huser (by decide +kernel)

end DeviceTools
