/-
The codes of files and of data.

Both functions take the digest of the bytes, write it in hexadecimal digits, put the constant `Mutex`
behind the digits and take the digest of that string once more.  The file is read in pieces of
`1024 * 50` bytes until it has been read to its size, or a read falls short.  In
`sprintf(buf, "%s%s", buf, Mutex)` the first string is in its place already.  A `char` is unsigned on
the device.
-/
import DeviceTools.Md5.Digest

namespace DeviceTools.Md5

open Memory BlockHash

/-- The size of `buf`. -/
def bufSize : ℕ := 1024 * 50

/-- `"www.pfly.cn"`. -/
def Mutex : List UInt8 := [119, 119, 119, 46, 112, 102, 108, 121, 46, 99, 110]

/-- A hexadecimal digit, in small letters. -/
def hexDigit (n : ℕ) : UInt8 := if n < 10 then UInt8.ofNat (48 + n) else UInt8.ofNat (87 + n)

/-- `sprintf(tmp, "%02x", c)`. -/
def hex2 (c : UInt8) : List UInt8 := [hexDigit (c.toNat / 16), hexDigit (c.toNat % 16)]

/-- `buf` after `memset` and the sixteen `strcat`. -/
def hexBuf (buf : Bytes) (key : List UInt8) : Bytes :=
  poke (poke buf 0 (List.replicate bufSize 0)) 0 (key.flatMap hex2)

/-- What stands behind `MD5Final` in both functions: `buf` at the end, from `key`. -/
def secondDigest (context : MD5_CONTEXT) (buf : Bytes) (key : List UInt8) : Option Bytes :=
  let buf := hexBuf buf key
  let context := MD5Init context
  let buf := poke buf (key.flatMap hex2).length (Mutex ++ [0])
  match MD5Update context buf ((key.flatMap hex2).length + Mutex.length) with
  | none => none
  | some context =>
      match MD5Final context with
      | none => none
      | some (key, _) => some (hexBuf buf key)

/-- What `GetDataMd5Code` returns and the bytes that it writes to `pMd5code`. -/
structure DataResult where
  ret : ℤ
  pMd5code : Option (List UInt8)
deriving DecidableEq, Repr

/-- `GetDataMd5Code`, or nothing when it does not return; `mtx` and `buf` are what the stack holds, and
`pMd5code` says whether the pointer is there. -/
def GetDataMd5Code (mtx : MD5_CONTEXT) (buf : Bytes) (pSrcData : Option Bytes) (iDataSize : ℤ) (pMd5code : Bool)
    (iCodeSize : ℤ) : Option DataResult :=
  match pSrcData with
  | none => some ⟨-1, none⟩
  | some data =>
      if iDataSize ≤ 0 ∨ ¬pMd5code ∨ iCodeSize < 32 then some ⟨-1, none⟩
      else
        match MD5Update (MD5Init mtx) data iDataSize.toNat with
        | none => none
        | some mtx =>
            match MD5Final mtx with
            | none => none
            | some (key, mtx) =>
                match secondDigest mtx buf key with
                | none => none
                | some buf => some ⟨0, some (slice buf 0 iCodeSize.toNat)⟩

/-- What the file system answers. -/
structure Files where
  /-- `open(pMd5File, O_CREAT|O_WRONLY|O_TRUNC, 0777)` gives a descriptor. -/
  openDst : Bool
  /-- `open(pSrcFile, O_RDONLY)` gives a descriptor. -/
  openSrc : Bool
  /-- `st_size`, when `fstat` succeeds. -/
  size : Option ℤ
  /-- The bytes of one `read` after the other; then nothing more comes. -/
  reads : List (List UInt8)

/-- What becomes of the file `pMd5File`. -/
inductive DstFile
  | untouched
  | written (bytes : List UInt8)
  | unlinked
deriving DecidableEq, Repr

/-- What `GetFileMd5Code` returns, the bytes that it writes to `pMd5Code`, the file `pMd5File` and the
number of descriptors that it leaves open. -/
structure FileResult where
  ret : ℤ
  pMd5Code : Option (List UInt8)
  dst : DstFile
  descriptors : ℤ
deriving DecidableEq, Repr

/-- The sum of two `int`. -/
def addInt (a b : ℤ) : ℤ := Int.bmod (a + b) (2 ^ 32)

/-- The loop over the reads: the context and `ret`. -/
def readLoop (size : ℤ) (mtx : MD5_CONTEXT) (nSizeRead ret : ℤ) : List (List UInt8) → Option (MD5_CONTEXT × ℤ)
  | [] => some (mtx, ret)
  | buf :: reads =>
      if buf.length = 0 then some (mtx, ret)
      else
        match MD5Update mtx (fun i => buf.getD i 0) buf.length with
        | none => none
        | some mtx =>
            let nSizeRead := addInt nSizeRead buf.length
            if nSizeRead ≥ size then some (mtx, 0)
            else if buf.length < bufSize then some (mtx, 0)
            else readLoop size mtx nSizeRead 0 reads

/-- `GetFileMd5Code`; `pMd5File` says whether there is a name of a file for the code, `pSrcFile` and
`pMd5Code` whether the pointers are there. -/
def GetFileMd5Code (files : Files) (mtx : MD5_CONTEXT) (buf : Bytes) (pSrcFile pMd5File pMd5Code : Bool)
    (iCodeSize : ℤ) : Option FileResult :=
  if ¬pSrcFile ∨ ¬pMd5Code ∨ iCodeSize < 32 then some ⟨-1, none, .untouched, 0⟩
  else if pMd5File ∧ ¬files.openDst then some ⟨-1, none, .untouched, 0⟩
  else
    let hDst : ℤ := if pMd5File then 1 else 0
    let dst : DstFile := if pMd5File then .written [] else .untouched
    if ¬files.openSrc then some ⟨-1, none, dst, hDst - hDst⟩
    else
      let hSrc : ℤ := 1
      -- The contents are invalid, or what the loop leaves.
      let loop : Option (MD5_CONTEXT × ℤ) :=
        match files.size with
        | none => some (mtx, -1)
        | some size => if size ≤ 0 then some (mtx, -1) else readLoop size (MD5Init mtx) 0 (-1) files.reads
      match loop with
      | none => none
      | some (mtx, ret) =>
          if ret = 0 then
            match MD5Final mtx with
            | none => none
            | some (key, mtx) =>
                match secondDigest mtx buf key with
                | none => none
                | some buf =>
                    let dst : DstFile := if pMd5File then .written (slice buf 0 32) else .untouched
                    some ⟨ret, some (slice buf 0 iCodeSize.toNat), dst, hSrc + hDst - hSrc - hDst⟩
          else
            let dst : DstFile := if pMd5File then .unlinked else .untouched
            some ⟨ret, none, dst, hSrc + hDst - hSrc - hDst⟩

/-! ### The code of a byte string -/

/-- The bytes in hexadecimal digits. -/
def hex (key : List UInt8) : List UInt8 := key.flatMap hex2

/-- The code of a byte string. -/
def code (m : List UInt8) : List UInt8 := hex (md5 (hex (md5 m) ++ Mutex))

lemma length_md5 (m : List UInt8) : (md5 m).length = 16 := by
  rw [md5, List.length_flatMap]
  simp only [ByteWord.leBytes_length, List.map_const', List.sum_replicate, Vector.length_toList]
  rfl

lemma length_hex (key : List UInt8) : (hex key).length = 2 * key.length := by
  rw [hex, List.length_flatMap]
  simp only [hex2, List.length_cons, List.length_nil, List.map_const', List.sum_replicate, smul_eq_mul]
  omega

lemma length_code (m : List UInt8) : (code m).length = 32 := by
  rw [code, length_hex, length_md5]

lemma slice_hexBuf (buf : Bytes) (key : List UInt8) {n : ℕ} (hkey : (hex key).length ≤ n) (hn : n ≤ bufSize) :
    slice (hexBuf buf key) 0 n = hex key ++ List.replicate (n - (hex key).length) 0 := by
  have hlen : (hex key).length ≤ (List.replicate bufSize (0 : UInt8)).length := by
    rw [List.length_replicate]
    omega
  have hall := congrArg (List.take n) (slice_poke_poke buf 0 hlen)
  rw [List.length_replicate, take_slice _ _ hn, List.drop_replicate, List.take_append, List.take_of_length_le hkey,
    List.take_replicate, Nat.min_eq_left (by omega)] at hall
  exact hall

lemma MD5Final_one (mtx : MD5_CONTEXT) (input : Bytes) {n : ℕ} (hn : n ≤ 2 ^ 32 - 64) :
    ∃ mtx', MD5Update (MD5Init mtx) input n = some mtx' ∧
      ∃ mtx'', MD5Final mtx' = some (md5 (slice input 0 n), mtx'') := by
  obtain ⟨mtx', hupdate, hholds⟩ := MD5Update_spec (holds_MD5Init mtx) input hn
  rw [List.nil_append] at hholds
  obtain ⟨mtx'', hfinal, -⟩ := MD5Final_spec hholds
  exact ⟨mtx', hupdate, mtx'', hfinal⟩

/-- The second digest is that of the digits and the constant. -/
lemma secondDigest_spec (mtx : MD5_CONTEXT) (buf : Bytes) (m : List UInt8) {n : ℕ} (hn : 32 ≤ n) (hsize : n ≤ bufSize) :
    ∃ buf', secondDigest mtx buf (md5 m) = some buf' ∧
      slice buf' 0 n = code m ++ List.replicate (n - 32) 0 := by
  have hlen : (hex (md5 m)).length = 32 := by rw [length_hex, length_md5]
  have hmessage : slice (poke (hexBuf buf (md5 m)) (hex (md5 m)).length (Mutex ++ [0])) 0
      ((hex (md5 m)).length + Mutex.length) = hex (md5 m) ++ Mutex := by
    have hfront := slice_poke_front (hexBuf buf (md5 m)) (hex (md5 m)).length (Mutex ++ [0])
    have htake := congrArg (List.take ((hex (md5 m)).length + Mutex.length)) hfront
    rw [take_slice _ _ (by rw [List.length_append]; omega), slice_hexBuf buf (md5 m) le_rfl (by rw [hlen]; decide),
      Nat.sub_self, List.replicate_zero, List.append_nil, ← List.append_assoc, List.take_left' List.length_append]
      at htake
    exact htake
  obtain ⟨c, hupdate, c', hfinal⟩ := MD5Final_one mtx
    (poke (hexBuf buf (md5 m)) (hex (md5 m)).length (Mutex ++ [0])) (n := (hex (md5 m)).length + Mutex.length)
    (by rw [hlen]; decide)
  rw [hmessage] at hfinal
  refine ⟨hexBuf (poke (hexBuf buf (md5 m)) (hex (md5 m)).length (Mutex ++ [0])) (md5 (hex (md5 m) ++ Mutex)), ?_, ?_⟩
  · rw [secondDigest, ← hex, hupdate]
    dsimp only
    rw [hfinal]
  · have hlast := slice_hexBuf (poke (hexBuf buf (md5 m)) (hex (md5 m)).length (Mutex ++ [0]))
      (md5 (hex (md5 m) ++ Mutex)) (n := n) (by rw [length_hex, length_md5]; exact hn) hsize
    rwa [length_hex (md5 (hex (md5 m) ++ Mutex)), length_md5] at hlast

/-- **The code of data.** -/
lemma GetDataMd5Code_spec (mtx : MD5_CONTEXT) (buf data : Bytes) {iDataSize iCodeSize : ℤ} (hpos : 0 < iDataSize)
    (hdata : iDataSize < 2 ^ 31) (hcode : 32 ≤ iCodeSize) (hsize : iCodeSize ≤ bufSize) :
    GetDataMd5Code mtx buf (some data) iDataSize true iCodeSize =
      some ⟨0, some (code (slice data 0 iDataSize.toNat) ++ List.replicate (iCodeSize.toNat - 32) 0)⟩ := by
  obtain ⟨c, hupdate, c', hfinal⟩ := MD5Final_one mtx data (n := iDataSize.toNat) (by omega)
  obtain ⟨buf', hsecond, hslice⟩ := secondDigest_spec c' buf (slice data 0 iDataSize.toNat) (n := iCodeSize.toNat)
    (by omega) (by omega)
  rw [GetDataMd5Code, if_neg (by simp; omega), hupdate]
  dsimp only
  rw [hfinal]
  dsimp only
  rw [hsecond]
  dsimp only
  rw [hslice]

/-! ### The code of a file -/

/-- What a file of the bytes `c` gives to one `read` after the other. -/
def pieces (c : List UInt8) : List (List UInt8) :=
  if c = [] then [] else c.take bufSize :: pieces (c.drop bufSize)
termination_by c.length
decreasing_by
  rw [List.length_drop]
  have hpos := List.length_pos_of_ne_nil ‹_›
  have hsize : 0 < bufSize := by decide
  omega

/-- The loop reads the file to its end. -/
lemma readLoop_pieces (n : ℕ) : ∀ (c m : List UInt8) (mtx : MD5_CONTEXT) (ret : ℤ), c.length ≤ n → c ≠ [] →
    m.length + c.length < 2 ^ 31 → Holds mtx m →
    ∃ mtx', readLoop ((m.length + c.length : ℕ) : ℤ) mtx m.length ret (pieces c) = some (mtx', 0) ∧
      Holds mtx' (m ++ c) := by
  induction n with
  | zero => exact fun c _ _ _ hn hc => absurd (List.eq_nil_of_length_eq_zero (Nat.le_zero.1 hn)) hc
  | succ n ih =>
      intro c m mtx ret hn hc hsize hholds
      have hpos := List.length_pos_of_ne_nil hc
      have hbuf : bufSize = 51200 := rfl
      have htake : (c.take bufSize).length = min bufSize c.length := List.length_take
      obtain ⟨mtx', hupdate, hholds'⟩ := MD5Update_spec hholds (fun i => (c.take bufSize).getD i 0)
        (n := (c.take bufSize).length) (by omega)
      rw [slice_getD] at hholds'
      have hsum : addInt m.length (c.take bufSize).length = ((m.length + (c.take bufSize).length : ℕ) : ℤ) := by
        rw [addInt, Int.bmod_eq_of_le (by omega) (by omega)]
        omega
      rw [pieces, if_neg hc, readLoop, if_neg (by omega), hupdate]
      dsimp only
      rw [hsum]
      by_cases hlast : c.length ≤ bufSize
      · rw [List.take_of_length_le hlast] at hholds' ⊢
        rw [if_pos le_rfl]
        exact ⟨mtx', rfl, hholds'⟩
      · have hrest := ih (c.drop bufSize) (m ++ c.take bufSize) mtx' 0 (by rw [List.length_drop]; omega)
          (fun h => hlast (List.drop_eq_nil_iff.1 h))
          (by rw [List.length_append, List.length_drop]; omega) hholds'
        rw [List.append_assoc, List.take_append_drop, List.length_append, List.length_drop,
          show m.length + (c.take bufSize).length + (c.length - bufSize) = m.length + c.length by omega] at hrest
        rw [if_neg (by omega), if_neg (by omega)]
        exact hrest

/-- **A file has the code of its bytes.**  When the file can be read to its end, the code is written to
the buffer and to the file of the code as for the same bytes in memory, and both descriptors are closed. -/
theorem GetFileMd5Code_eq_data (mtx mtx' : MD5_CONTEXT) (buf buf' : Bytes) (c : List UInt8) (pMd5File openDst : Bool)
    (iCodeSize : ℤ) (hopen : pMd5File → openDst) (hc : c ≠ []) (hlen : c.length < 2 ^ 31) (hcode : 32 ≤ iCodeSize)
    (hsize : iCodeSize ≤ bufSize) :
    ∃ bytes, GetDataMd5Code mtx buf (some fun i => c.getD i 0) c.length true iCodeSize = some ⟨0, some bytes⟩ ∧
      GetFileMd5Code ⟨openDst, true, some c.length, pieces c⟩ mtx' buf' true pMd5File true iCodeSize =
        some ⟨0, some bytes, if pMd5File then .written (bytes.take 32) else .untouched, 0⟩ := by
  have hpos := List.length_pos_of_ne_nil hc
  refine ⟨_, GetDataMd5Code_spec mtx buf _ (by omega) (by omega) hcode hsize, ?_⟩
  obtain ⟨c1, hloop, hholds⟩ := readLoop_pieces c.length c [] (MD5Init mtx') (-1) le_rfl hc
    (by rw [List.length_nil]; omega) (holds_MD5Init mtx')
  rw [List.nil_append] at hholds
  rw [List.length_nil, Nat.zero_add, Nat.cast_zero] at hloop
  obtain ⟨c2, hfinal, -⟩ := MD5Final_spec hholds
  obtain ⟨b, hsecond, hslice⟩ := secondDigest_spec c2 buf' c (n := iCodeSize.toNat) (by omega) (by omega)
  have hslice32 : slice b 0 32 = code c := by
    have htake := congrArg (List.take 32) hslice
    rwa [take_slice _ _ (by omega), List.take_left' (length_code c)] at htake
  have hdata : slice (fun i => c.getD i 0) 0 (c.length : ℤ).toNat = c := by rw [Int.toNat_natCast, slice_getD]
  rw [GetFileMd5Code, if_neg (by simp; omega), if_neg (by simpa using hopen), if_neg (by simp)]
  dsimp only
  rw [if_neg (by omega), hloop]
  dsimp only
  rw [if_pos rfl, hfinal]
  dsimp only
  rw [hsecond]
  dsimp only
  rw [hslice, hslice32, hdata, List.take_left' (length_code c)]
  cases pMd5File <;> rfl

lemma pieces_sample :
    pieces (List.replicate 60000 0x61) = [List.replicate 51200 0x61, List.replicate 8800 0x61] := by
  have hne (n : ℕ) : List.replicate (n + 1) (0x61 : UInt8) ≠ [] := List.cons_ne_nil _ _
  have hrest : 60000 - bufSize = 8800 := rfl
  have hend : List.replicate (8800 - bufSize) (0x61 : UInt8) = [] := rfl
  rw [pieces, if_neg (hne 59999), List.take_replicate, List.drop_replicate, hrest, pieces, if_neg (hne 8799),
    List.take_replicate, List.drop_replicate, hend, pieces, if_pos rfl]
  rfl

/-- A file of 60000 bytes, for which there are two reads. -/
theorem GetFileMd5Code_eq_data_pieces :
    ∃ bytes, GetDataMd5Code ⟨#v[0, 0, 0, 0], #v[0, 0], fun _ => 0⟩ (fun _ => 0)
        (some fun i => (List.replicate 60000 0x61).getD i 0) 60000 true 64 = some ⟨0, some bytes⟩ ∧
      GetFileMd5Code ⟨true, true, some 60000, [List.replicate 51200 0x61, List.replicate 8800 0x61]⟩
        ⟨#v[1, 2, 3, 4], #v[5, 6], fun _ => 7⟩ (fun _ => 8) true true true 64 =
          some ⟨0, some bytes, .written (bytes.take 32), 0⟩ := by
  have hlen : (List.replicate 60000 (0x61 : UInt8)).length = 60000 := List.length_replicate
  have h := GetFileMd5Code_eq_data ⟨#v[0, 0, 0, 0], #v[0, 0], fun _ => 0⟩ ⟨#v[1, 2, 3, 4], #v[5, 6], fun _ => 7⟩
    (fun _ => 0) (fun _ => 8) (List.replicate 60000 0x61) true true 64 (fun _ => rfl)
    (List.ne_nil_of_length_pos (by rw [hlen]; decide)) (by rw [hlen]; decide) (by decide) (by decide)
  rw [hlen, pieces_sample] at h
  exact h

/-- The loop stops behind some of the reads, and `ret` is 0 when it has read anything. -/
lemma readLoop_spec (size : ℤ) : ∀ (reads : List (List UInt8)) (m : List UInt8) (mtx : MD5_CONTEXT) (nSizeRead ret : ℤ),
    (∀ r ∈ reads, r.length ≤ bufSize) → Holds mtx m →
    ∃ k mtx' ret', readLoop size mtx nSizeRead ret reads = some (mtx', ret') ∧ Holds mtx' (m ++ (reads.take k).flatten) ∧
      (ret' = ret ∧ k = 0 ∨ ret' = 0 ∧ (reads.take k).flatten ≠ []) := by
  intro reads
  induction reads with
  | nil =>
      intro m mtx _ ret _ hholds
      exact ⟨0, mtx, ret, rfl, by rwa [List.take_nil, List.flatten_nil, List.append_nil], Or.inl ⟨rfl, rfl⟩⟩
  | cons buf reads ih =>
      intro m mtx nSizeRead ret hreads hholds
      obtain ⟨hbuf, hrest⟩ := List.forall_mem_cons.1 hreads
      have hsize : bufSize = 51200 := rfl
      rw [readLoop]
      by_cases hnil : buf.length = 0
      · rw [if_pos hnil]
        exact ⟨0, mtx, ret, rfl, by rwa [List.take_zero, List.flatten_nil, List.append_nil], Or.inl ⟨rfl, rfl⟩⟩
      · have hne : buf ≠ [] := fun h => hnil (by rw [h, List.length_nil])
        obtain ⟨mtx', hupdate, hholds'⟩ := MD5Update_spec hholds (fun i => buf.getD i 0) (n := buf.length)
          (by omega)
        rw [slice_getD] at hholds'
        have hone : ([buf] : List (List UInt8)).flatten = buf := by simp
        rw [if_neg hnil, hupdate]
        dsimp only
        split_ifs with hlast hshort
        · exact ⟨1, mtx', 0, rfl, by rwa [List.take_succ_cons, List.take_zero, hone],
            Or.inr ⟨rfl, by rwa [List.take_succ_cons, List.take_zero, hone]⟩⟩
        · exact ⟨1, mtx', 0, rfl, by rwa [List.take_succ_cons, List.take_zero, hone],
            Or.inr ⟨rfl, by rwa [List.take_succ_cons, List.take_zero, hone]⟩⟩
        · obtain ⟨k, mtx'', ret', hloop, hholds'', hret⟩ :=
            ih (m ++ buf) mtx' (addInt nSizeRead buf.length) 0 hrest hholds'
          refine ⟨k + 1, mtx'', ret', hloop, ?_, Or.inr ⟨?_, ?_⟩⟩
          · rwa [List.take_succ_cons, List.flatten_cons, ← List.append_assoc]
          · rcases hret with ⟨h, -⟩ | ⟨h, -⟩ <;> exact h
          · rw [List.take_succ_cons, List.flatten_cons]
            exact fun h => hne (List.append_eq_nil_iff.1 h).1

/-- **Whatever the file system answers**, the function returns with both descriptors closed, and
either nothing is written, to the buffer or to the file of the code, or the code is that of the bytes
of the first reads: a read that fails behind the first is taken for the end of the file. -/
theorem GetFileMd5Code_reads (files : Files) (mtx : MD5_CONTEXT) (buf : Bytes) (pSrcFile pMd5File pMd5Code : Bool)
    (iCodeSize : ℤ) (hreads : ∀ r ∈ files.reads, r.length ≤ bufSize) (hsize : iCodeSize ≤ bufSize) :
    ∃ r, GetFileMd5Code files mtx buf pSrcFile pMd5File pMd5Code iCodeSize = some r ∧ r.descriptors = 0 ∧
      (r.ret = -1 ∧ r.pMd5Code = none ∧ (∀ bytes, r.dst = .written bytes → bytes = []) ∨
        r.ret = 0 ∧ ∃ k, (files.reads.take k).flatten ≠ [] ∧
          r.pMd5Code = some (code (files.reads.take k).flatten ++ List.replicate (iCodeSize.toNat - 32) 0) ∧
          (∀ bytes, r.dst = .written bytes → bytes = code (files.reads.take k).flatten)) := by
  have hbuf : bufSize = 51200 := rfl
  have hclosed (hDst : ℤ) : 1 + hDst - 1 - hDst = 0 := by omega
  rw [GetFileMd5Code]
  by_cases hargs : ¬(pSrcFile = true) ∨ ¬(pMd5Code = true) ∨ iCodeSize < 32
  · rw [if_pos hargs]
    exact ⟨_, rfl, rfl, Or.inl ⟨rfl, rfl, fun _ h => by cases h⟩⟩
  rw [if_neg hargs]
  by_cases hdst : pMd5File = true ∧ ¬(files.openDst = true)
  · rw [if_pos hdst]
    exact ⟨_, rfl, rfl, Or.inl ⟨rfl, rfl, fun _ h => by cases h⟩⟩
  rw [if_neg hdst]
  by_cases hsrc : ¬(files.openSrc = true)
  · rw [if_pos hsrc]
    refine ⟨_, rfl, Int.sub_self _, Or.inl ⟨rfl, rfl, fun bytes h => ?_⟩⟩
    cases pMd5File with
    | true => exact (DstFile.written.inj h).symm
    | false => cases h
  rw [if_neg hsrc]
  -- The loop has read nothing, or the context holds what it has read.
  obtain ⟨c, ret, hloop, hret⟩ : ∃ c ret, (match files.size with
      | none => some (mtx, (-1 : ℤ))
      | some size => if size ≤ 0 then some (mtx, -1) else readLoop size (MD5Init mtx) 0 (-1) files.reads) = some (c, ret) ∧
      (ret = -1 ∨ ret = 0 ∧ ∃ k, Holds c (files.reads.take k).flatten ∧ (files.reads.take k).flatten ≠ []) := by
    cases files.size with
    | none => exact ⟨mtx, -1, rfl, Or.inl rfl⟩
    | some size =>
        dsimp only
        by_cases hpos : size ≤ 0
        · rw [if_pos hpos]
          exact ⟨mtx, -1, rfl, Or.inl rfl⟩
        · obtain ⟨k, c, ret, hloop, hholds, hret⟩ := readLoop_spec size files.reads [] (MD5Init mtx) 0 (-1) hreads
            (holds_MD5Init mtx)
          rw [List.nil_append] at hholds
          rw [if_neg hpos, hloop]
          rcases hret with ⟨hret, -⟩ | ⟨hret, hne⟩
          · exact ⟨c, ret, rfl, Or.inl hret⟩
          · exact ⟨c, ret, rfl, Or.inr ⟨hret, k, hholds, hne⟩⟩
  dsimp only
  rw [hloop]
  dsimp only
  rcases hret with rfl | ⟨rfl, k, hholds, hne⟩
  · rw [if_neg (by decide)]
    refine ⟨_, rfl, hclosed _, Or.inl ⟨rfl, rfl, fun bytes h => ?_⟩⟩
    cases pMd5File <;> cases h
  · obtain ⟨c2, hfinal, -⟩ := MD5Final_spec hholds
    obtain ⟨b, hsecond, hslice⟩ := secondDigest_spec c2 buf (files.reads.take k).flatten (n := iCodeSize.toNat)
      (by omega) (by omega)
    have hslice32 : slice b 0 32 = code (files.reads.take k).flatten := by
      have htake := congrArg (List.take 32) hslice
      rwa [take_slice _ _ (by omega), List.take_left' (length_code _)] at htake
    rw [if_pos rfl, hfinal]
    dsimp only
    rw [hsecond]
    refine ⟨_, rfl, hclosed _, Or.inr ⟨rfl, k, hne, congrArg some hslice, fun bytes h => ?_⟩⟩
    cases pMd5File with
    | true => exact (DstFile.written.inj h).symm.trans hslice32
    | false => cases h

/-- A second read that fails. -/
theorem GetFileMd5Code_reads_failed :
    ∃ r, GetFileMd5Code ⟨true, true, some 100000, [List.replicate 51200 1, [], [2]]⟩ ⟨#v[1, 2, 3, 4], #v[5, 6], fun _ => 7⟩
        (fun _ => 8) true true true 32 = some r ∧ r.descriptors = 0 ∧
      (r.ret = -1 ∧ r.pMd5Code = none ∧ (∀ bytes, r.dst = .written bytes → bytes = []) ∨
        r.ret = 0 ∧ ∃ k, (([List.replicate 51200 1, [], [2]] : List (List UInt8)).take k).flatten ≠ [] ∧
          r.pMd5Code = some (code (([List.replicate 51200 1, [], [2]] : List (List UInt8)).take k).flatten ++
            List.replicate ((32 : ℤ).toNat - 32) 0) ∧
          (∀ bytes, r.dst = .written bytes →
            bytes = code (([List.replicate 51200 1, [], [2]] : List (List UInt8)).take k).flatten)) :=
  GetFileMd5Code_reads ⟨true, true, some 100000, [List.replicate 51200 1, [], [2]]⟩ ⟨#v[1, 2, 3, 4], #v[5, 6], fun _ => 7⟩
    (fun _ => 8) true true true 32
    (List.forall_mem_cons.2 ⟨List.length_replicate.le, List.forall_mem_cons.2 ⟨by decide, List.forall_mem_cons.2
      ⟨by decide, fun _ h => absurd h List.not_mem_nil⟩⟩⟩) (by decide)

end DeviceTools.Md5
