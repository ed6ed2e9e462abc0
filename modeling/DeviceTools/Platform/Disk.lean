/-
Files.

A disk maps a path to the contents of the file there, if there is one.  The programs run
with a 32-bit `off_t`: a file longer than `OFF_MAX` bytes can be neither opened nor
`stat`ed, and no write takes a file past that length.  Everything else that can go wrong
with an append -- the open fails, the device takes only a part of the data -- is chosen by
the environment.
-/
import DeviceTools.Lib.ByteWord

namespace DeviceTools

/-- A path, as the text that `sprintf` wrote. -/
abbrev Path := List Char

/-- The files of the device. -/
abbrev Disk := Path → Option (List UInt8)

/-- The largest file size of a 32-bit `off_t`. -/
def OFF_MAX : ℕ := 2 ^ 31 - 1

namespace Disk

/-- The contents of a file, empty if the file does not exist. -/
def contents (d : Disk) (p : Path) : List UInt8 := (d p).getD []

/-- The member `st_size` of a successful `stat`. -/
def stat (d : Disk) (p : Path) : Option ℕ :=
  match d p with
  | some bs => if bs.length ≤ OFF_MAX then some bs.length else none
  | none => none

/-- `open` for reading: the contents of the file. -/
def openRead (d : Disk) (p : Path) : Option (List UInt8) :=
  match d p with
  | some bs => if bs.length ≤ OFF_MAX then some bs else none
  | none => none

end Disk

/-- What the environment does with an append: the `open` fails, or it succeeds and the
device takes at most `k` bytes. -/
inductive AppendIo where
  | openFails
  | writes (k : ℕ)
deriving DecidableEq, Repr

/-- The number of bytes that `write` transfers to a file of the given size, `none` if the
file could not be opened. -/
def AppendIo.written (io : AppendIo) (size len : ℕ) : Option ℕ :=
  match io with
  | .openFails => none
  | .writes k => if size ≤ OFF_MAX then some (min k (min len (OFF_MAX - size))) else none

/-- `open` with `O_APPEND | O_CREAT` and one `write` of `bs`.  The result is the disk and
what `write` returned. -/
def appendFile (d : Disk) (p : Path) (bs : List UInt8) (io : AppendIo) : Disk × Option ℕ :=
  match io.written (d.contents p).length bs.length with
  | none => (d, none)
  | some n => (Function.update d p (some (d.contents p ++ bs.take n)), some n)

namespace Disk

@[simp] lemma contents_update_self (d : Disk) (p : Path) (bs : List UInt8) :
    contents (Function.update d p (some bs)) p = bs := by
  simp [contents]

lemma contents_update_of_ne (d : Disk) {p q : Path} (h : q ≠ p) (bs : List UInt8) :
    contents (Function.update d p (some bs)) q = contents d q := by
  simp [contents, Function.update_of_ne h]

lemma stat_eq_some {d : Disk} {p : Path} (h : (d.contents p).length ≤ OFF_MAX) :
    (d.stat p).getD 0 = (d.contents p).length := by
  rcases hp : d p with _ | bs
  · simp [stat, contents, hp]
  · simp only [contents, hp, Option.getD_some] at h
    simp [stat, contents, hp, h]

end Disk

lemma AppendIo.written_le {io : AppendIo} {size len n : ℕ} (h : io.written size len = some n) :
    n ≤ len := by
  cases io with
  | openFails => simp [written] at h
  | writes k =>
      simp only [written] at h
      split at h
      · simp only [Option.some.injEq] at h
        omega
      · simp at h

/-- A complete write leaves the file within the limits of `off_t`. -/
lemma AppendIo.written_full {io : AppendIo} {size len : ℕ} (h : io.written size len = some len) :
    size + len ≤ OFF_MAX := by
  cases io with
  | openFails => simp [written] at h
  | writes k =>
      simp only [written] at h
      split at h
      · simp only [Option.some.injEq] at h
        omega
      · simp at h

lemma appendFile_full {d : Disk} {p : Path} {bs : List UInt8} {io : AppendIo}
    (h : io.written (d.contents p).length bs.length = some bs.length) :
    appendFile d p bs io =
      (Function.update d p (some (d.contents p ++ bs)), some bs.length) := by
  simp [appendFile, h]

/-- An append only adds bytes at the end of the file it names. -/
lemma appendFile_contents (d : Disk) (p : Path) (bs : List UInt8) (io : AppendIo) (q : Path) :
    (appendFile d p bs io).1.contents q =
      d.contents q ++ if q = p then
        bs.take (((appendFile d p bs io).2).getD 0) else [] := by
  rw [appendFile]
  rcases hw : io.written (d.contents p).length bs.length with _ | n
  · simp
  · by_cases hq : q = p
    · subst hq
      simp
    · simp [Disk.contents_update_of_ne d hq, hq]

/-- An append does not take a file past the limit of `off_t`. -/
lemma appendFile_length_le {d : Disk} {p : Path} {bs : List UInt8} {io : AppendIo} {q : Path}
    (h : (d.contents q).length ≤ OFF_MAX) :
    ((appendFile d p bs io).1.contents q).length ≤ OFF_MAX := by
  rw [appendFile]
  rcases hw : io.written (d.contents p).length bs.length with _ | n
  · exact h
  · by_cases hq : q = p
    · subst hq
      cases io with
      | openFails => simp [AppendIo.written] at hw
      | writes k =>
          simp only [AppendIo.written, if_pos h, Option.some.injEq] at hw
          simp only [Disk.contents_update_self, List.length_append, List.length_take]
          omega
    · simpa [Disk.contents_update_of_ne d hq] using h

/-- A file behind a `write` of bytes at a position in it. -/
def overwrite (bs : List UInt8) (pos : ℕ) (data : List UInt8) : List UInt8 :=
  bs.take pos ++ data ++ bs.drop (pos + data.length)

lemma overwrite_append {pre old data : List UInt8} (h : data.length = old.length) (rest : List UInt8) :
    overwrite (pre ++ (old ++ rest)) pre.length data = pre ++ (data ++ rest) := by
  rw [overwrite, List.take_left, h, ← List.drop_drop, List.drop_left, List.drop_left, List.append_assoc]

/-! ### Files of records -/

open ByteWord

/-- The complete records in a file. -/
def records (size : ℕ) (bs : List UInt8) : List (List UInt8) :=
  (List.range (bs.length / size)).map fun i => field bs (i * size) size

lemma length_flatten_blocks {size : ℕ} {blocks : List (List UInt8)} (h : ∀ b ∈ blocks, b.length = size) :
    blocks.flatten.length = blocks.length * size := by
  rw [List.length_flatten, List.map_eq_replicate_iff.2 h, List.sum_replicate, smul_eq_mul]

lemma records_of_short {size : ℕ} {bs : List UInt8} (h : bs.length < size) : records size bs = [] := by
  rw [records, Nat.div_eq_of_lt h]
  rfl

/-- The first record, and those of the rest of the file. -/
lemma records_append {size : ℕ} (hpos : 0 < size) {b : List UInt8} (hb : b.length = size) (rest : List UInt8) :
    records size (b ++ rest) = b :: records size rest := by
  have hlen : (b ++ rest).length / size = rest.length / size + 1 := by
    rw [List.length_append, hb, Nat.add_comm, Nat.add_div_right _ hpos]
  rw [records, records, hlen, List.range_succ_eq_map, List.map_cons, List.map_map, Nat.zero_mul,
    field_zero_append _ hb]
  congr 1
  refine List.map_congr_left fun i _ => ?_
  rw [Function.comp_apply, field_append_right _ _ (by rw [hb]; exact Nat.le_mul_of_pos_left _ (by omega)), hb,
    Nat.succ_mul, Nat.add_sub_cancel]

lemma records_flatten {size : ℕ} (hpos : 0 < size) {blocks : List (List UInt8)}
    (h : ∀ b ∈ blocks, b.length = size) : records size blocks.flatten = blocks := by
  induction blocks with
  | nil => simp [records]
  | cons b blocks ih =>
      rw [List.flatten_cons, records_append hpos (h b List.mem_cons_self),
        ih fun x hx => h x (List.mem_cons_of_mem _ hx)]

/-- Behind a number of records come the records behind them. -/
lemma drop_flatten_blocks {size : ℕ} {blocks : List (List UInt8)} (h : ∀ b ∈ blocks, b.length = size)
    (j : ℕ) : blocks.flatten.drop (j * size) = (blocks.drop j).flatten := by
  induction blocks generalizing j with
  | nil => simp
  | cons b blocks ih =>
      cases j with
      | zero => simp
      | succ j =>
          have hb : b.length = size := h b List.mem_cons_self
          rw [List.flatten_cons, List.drop_succ_cons, ← ih fun x hx => h x (List.mem_cons_of_mem _ hx),
            List.drop_append, List.drop_eq_nil_of_le (by rw [hb, Nat.add_mul]; omega), hb, Nat.add_mul,
            Nat.one_mul, Nat.add_sub_cancel, List.nil_append]

end DeviceTools
