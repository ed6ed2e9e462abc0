/-
The body of a photo upload.

`create_report_photo_content` copies the photo to memory, allocates twice as many bytes, and stores
there `data=`, the Base64 text of the photo and its terminator.  Base64 needs a third more than the
photo has, so that twice as much is enough for a long photo, but not for a short one.
-/
import DeviceTools.Lib.Memory
import DeviceTools.NetPf.Base64Encode

namespace DeviceTools.NetPf

open CInt CText Memory

/-- What the calls in `create_report_photo_content` give: the size of the file, or that there is
none; whether there is memory for the photo, and what stands behind it; the contents of the file, if
it can be opened; and whether there is memory for the text. -/
structure PhotoCalls where
  st_size : Option ℕ
  filep : Bool
  next : UInt8
  behind : List UInt8
  file : Option (List UInt8)
  encodep : Bool

/-- `CopyFileToBuf`: the bytes in the buffer, when 0 is returned. -/
def copyFileToBuf (n : ℤ) (file : Option (List UInt8)) : Option (List UInt8) :=
  if 0 < n then
    match file with
    | some content => if (content.take n.toNat).length = n.toNat then some (content.take n.toNat) else none
    | none => none
  else none

/-- The memory at `encodep`: how much is allocated, and what is stored there. -/
structure EncodeBuffer where
  encodesize : ℕ
  stores : List (ℕ × List UInt8)
deriving DecidableEq, Repr

/-- The characters `data=`. -/
def DATA : List UInt8 := [0x64, 0x61, 0x74, 0x61, 0x3D]

/-- `create_report_photo_content`: a null pointer or the memory at `encodep`. -/
def createReportPhotoContent (c : PhotoCalls) : Option (Option EncodeBuffer) :=
  match c.st_size with
  | none => some none
  | some st_size =>
      let filesize := Int.bmod st_size (2 ^ 32)
      if c.filep then
        match copyFileToBuf filesize c.file with
        | none => some none
        | some filep => do
            let encodesize ← asInt (filesize * 2)
            if c.encodep then
              let r ← base64Encode (filep ++ c.next :: c.behind) filesize
              some (some ⟨encodesize.toNat,
                [(0, List.replicate encodesize.toNat 0), (0, DATA), (DATA.length, r.dest)]⟩)
            else some none
      else some none

/-- Every byte that is stored lies in the memory allocated. -/
def EncodeBuffer.Inside (b : EncodeBuffer) : Prop := ∀ w ∈ b.stores, Span.Inside ⟨w.1, w.2.length⟩ b.encodesize

/-- There is no text, or it has been stored in its memory. -/
def StaysInside : Option (Option EncodeBuffer) → Prop
  | some (some b) => b.Inside
  | some none => True
  | none => False

/-- A file that can be read. -/
structure Photo (content : List UInt8) (c : PhotoCalls) : Prop where
  ne_nil : content ≠ []
  double_le : 2 * (content.length : ℤ) ≤ INT_MAX
  st_size : c.st_size = some content.length
  file : c.file = some content

section

variable {content : List UInt8} {c : PhotoCalls}

/-- The calls for a photo. -/
lemma createReportPhotoContent_photo (h : Photo content c) :
    createReportPhotoContent c =
      if c.filep = true ∧ c.encodep = true then
        (base64Encode (content ++ c.next :: c.behind) content.length).map fun r =>
          some ⟨2 * content.length, [(0, List.replicate (2 * content.length) 0), (0, DATA), (DATA.length, r.dest)]⟩
      else some none := by
  have hmax : INT_MAX = 2147483647 := rfl
  have hpos := List.length_pos_iff.2 h.ne_nil
  have hdouble := h.double_le
  have hsize : Int.bmod (content.length : ℤ) (2 ^ 32) = content.length :=
    Int.bmod_eq_of_le (by omega) (by omega)
  have hcopy : copyFileToBuf content.length c.file = some content := by
    rw [h.file, copyFileToBuf, if_pos (by omega), Int.toNat_natCast, List.take_length, if_pos rfl]
  have hint : asInt ((content.length : ℤ) * 2) = some ((content.length : ℤ) * 2) := by
    rw [asInt_of_nonneg (by omega), if_pos (by omega)]
  have htwice : ((content.length : ℤ) * 2).toNat = 2 * content.length := by omega
  rw [createReportPhotoContent, h.st_size]
  simp only [hsize, hcopy, hint, htwice, Option.bind_eq_bind, Option.bind_some]
  by_cases hfilep : c.filep = true
  · by_cases hencodep : c.encodep = true
    · rw [if_pos hfilep, if_pos hencodep, if_pos ⟨hfilep, hencodep⟩]
      cases base64Encode (content ++ c.next :: c.behind) content.length <;> rfl
    · rw [if_pos hfilep, if_neg hencodep, if_neg fun hboth => hencodep hboth.2]
  · rw [if_neg hfilep, if_neg fun hboth => hfilep hboth.1]

/-- **What is stored**: the characters of the photo, with what stands behind it. -/
lemma createReportPhotoContent_stores (h : Photo content c) (hmem : c.filep = true ∧ c.encodep = true) :
    ∃ t, encodeIn (some c.next) content = some t ∧
      createReportPhotoContent c = some (some ⟨2 * content.length,
        [(0, List.replicate (2 * content.length) 0), (0, DATA), (DATA.length, t ++ [0])]⟩) := by
  have hmax : INT_MAX = 2147483647 := rfl
  have hpos := List.length_pos_iff.2 h.ne_nil
  have hdouble := h.double_le
  obtain ⟨t, ht⟩ := exists_encodeIn c.next content
  refine ⟨t, ht, ?_⟩
  rw [createReportPhotoContent_photo h, if_pos hmem, base64Encode_of_pos _ (by omega),
    encodeLoop_eq (c.next :: c.behind) content le_rfl (by omega), if_pos (by omega), List.head?_cons, ht]
  rfl

/-- **When a photo fits**: there is no memory for it, or it has nine bytes, or eleven or more. -/
theorem staysInside_iff (h : Photo content c) :
    StaysInside (createReportPhotoContent c) ↔
      ¬(c.filep = true ∧ c.encodep = true) ∨ content.length = 9 ∨ 11 ≤ content.length := by
  by_cases hmem : c.filep = true ∧ c.encodep = true
  · obtain ⟨t, ht, hrun⟩ := createReportPhotoContent_stores h hmem
    have hpos := List.length_pos_iff.2 h.ne_nil
    have hlen := (encodeIn_shape ht).1
    have hdata : DATA.length = 5 := rfl
    rw [hrun, or_iff_right (not_not.2 hmem)]
    constructor
    · intro hin
      have hlast := hin (DATA.length, t ++ [0]) (by simp)
      rw [Span.inside_iff (by simp), List.length_append, List.length_singleton] at hlast
      dsimp only at hlast
      omega
    · intro hn w hw
      simp only [List.mem_cons, List.not_mem_nil, or_false] at hw
      refine Span.inside_of_le ?_
      rcases hw with rfl | rfl | rfl
      · simp
      · dsimp only
        omega
      · rw [List.length_append, List.length_singleton]
        dsimp only
        omega
  · rw [createReportPhotoContent_photo h, if_neg hmem]
    exact iff_of_true trivial (Or.inl hmem)

/-- The memory at `encodep`, and behind it. -/
def EncodeBuffer.memory (b : EncodeBuffer) (heap : Bytes) : Bytes := Memory.stores heap b.stores

lemma EncodeBuffer.Inside.memory_behind {b : EncodeBuffer} (h : b.Inside) (heap : Bytes) {i : ℕ}
    (hi : b.encodesize ≤ i) : b.memory heap i = heap i := stores_behind h hi

/-- **The text** of a photo that fits is the standard one, if the byte behind the photo does not show. -/
lemma cstr_memory (h : Photo content c) (hfits : content.length = 9 ∨ 11 ≤ content.length)
    (hnext : content.length % 3 = 2 → c.next < 0x40) {b : EncodeBuffer}
    (hb : createReportPhotoContent c = some (some b)) (heap : Bytes) :
    cstr (slice (b.memory heap) 0 b.encodesize) = DATA ++ Base64.encode content := by
  have hmem : c.filep = true ∧ c.encodep = true := by
    by_contra hnot
    rw [createReportPhotoContent_photo h, if_neg hnot] at hb
    cases hb
  obtain ⟨t, ht, hrun⟩ := createReportPhotoContent_stores h hmem
  have hencode := (encodeIn_eq_encode_iff (some c.next) content).2 fun hmod => ⟨c.next, rfl, hnext hmod⟩
  obtain rfl := Option.some_inj.1 (ht.symm.trans hencode)
  obtain rfl := Option.some_inj.1 (Option.some_inj.1 (hrun.symm.trans hb))
  have hlen := Base64.length_encode content
  have hdata : DATA.length = 5 := rfl
  have hall : (DATA ++ (Base64.encode content ++ [0])).length ≤
      (List.replicate (2 * content.length) (0 : UInt8)).length := by
    rw [List.length_append, List.length_append, List.length_singleton, List.length_replicate]
    omega
  have hslice := slice_poke_poke heap 0 hall
  rw [List.length_replicate] at hslice
  have hmemory : EncodeBuffer.memory ⟨2 * content.length, [(0, List.replicate (2 * content.length) 0), (0, DATA),
      (DATA.length, Base64.encode content ++ [0])]⟩ heap =
      poke (poke heap 0 (List.replicate (2 * content.length) 0)) 0 (DATA ++ (Base64.encode content ++ [0])) := by
    rw [← poke_append, Nat.zero_add]
    rfl
  have hzero : (0 : UInt8) ∉ DATA ++ Base64.encode content := by
    rw [List.mem_append, not_or]
    exact ⟨by decide, zero_notMem_encode content⟩
  rw [hmemory]
  dsimp only
  rw [hslice, ← List.append_assoc, List.append_assoc, List.singleton_append, cstr_eq hzero]

end

/-- A photo of `n` bytes, when there is memory. -/
def photoCalls (n : ℕ) : PhotoCalls := ⟨some n, true, 0, [], some (List.replicate n 0xFF), true⟩

/-- A photo of twelve bytes. -/
theorem staysInside_twelve : StaysInside (createReportPhotoContent (photoCalls 12)) :=
  (staysInside_iff (⟨by decide, by decide, rfl, rfl⟩ : Photo (List.replicate 12 0xFF) (photoCalls 12))).2
    (Or.inr (Or.inr (by decide)))

/-- A photo of ten bytes: 22 bytes are stored where 20 are allocated. -/
theorem photo_of_ten : Photo (List.replicate 10 0xFF) (photoCalls 10) ∧
    createReportPhotoContent (photoCalls 10) =
      some (some ⟨20, [(0, List.replicate 20 0), (0, DATA),
        (5, Base64.encode (List.replicate 10 0xFF) ++ [0])]⟩) ∧
    ¬StaysInside (createReportPhotoContent (photoCalls 10)) := by
  have hrun : createReportPhotoContent (photoCalls 10) =
      some (some ⟨20, [(0, List.replicate 20 0), (0, DATA),
        (5, Base64.encode (List.replicate 10 0xFF) ++ [0])]⟩) := by
    decide +kernel
  refine ⟨⟨by decide, by decide, rfl, rfl⟩, hrun, ?_⟩
  rw [hrun]
  intro h
  exact absurd (h (5, Base64.encode (List.replicate 10 0xFF) ++ [0]) (by simp)) (by decide +kernel)

end DeviceTools.NetPf
