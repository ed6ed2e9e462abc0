/-
NMEA sentences and the division of the stream into reads.

`nmea_parse_packet` takes the `$GPRMC` sentences out of a stream when each of its windows
meets `NmeaWindowOk`.  The conditions are about the first `$` of the window: if the header is
not complete, the `$` is not among the bytes skipped, and a sentence that is not complete has
at most as many bytes in the window as are saved of it.
-/
import DeviceTools.Gps.Link

namespace DeviceTools

open Framing Memory

/-- A hexadecimal digit. -/
def isHexDigit (b : UInt8) : Bool :=
  (0x30 ≤ b && b ≤ 0x39) || (0x41 ≤ b && b ≤ 0x46) || (0x61 ≤ b && b ≤ 0x66)

/-- A sentence `$GPRMC...*hh\r\n` of at most 82 bytes. -/
def IsSentence (f : List UInt8) : Prop :=
  ∃ payload h₁ h₂, f = NMEA_HEAD ++ (payload ++ [NMEA_TAIL_2A, h₁, h₂, NMEA_TAIL_0D, NMEA_TAIL_0A]) ∧
    f.length ≤ 82 ∧ isHexDigit h₁ = true ∧ isHexDigit h₂ = true ∧
    ∀ b ∈ payload, b ≠ NMEA_HEAD_24 ∧ b ≠ NMEA_TAIL_2A ∧ b ≠ NMEA_TAIL_0D ∧ b ≠ NMEA_TAIL_0A

/-- The condition on the window of a call. -/
structure NmeaWindowOk (w : List UInt8) : Prop where
  /-- The scan looks at up to five bytes behind the window. -/
  room : w.length + 5 ≤ MAX_BUFF_LEN
  /-- A `$` whose header is not complete is not among the bytes skipped. -/
  head : w.findIdx (· = NMEA_HEAD_24) < w.length →
    w.length < w.findIdx (· = NMEA_HEAD_24) + 6 → 6 ≤ w.findIdx (· = NMEA_HEAD_24)
  /-- A sentence without its end is saved as a whole. -/
  keep : NMEA_TAIL_0A ∉ w.drop (w.findIdx (· = NMEA_HEAD_24)) →
    w.length ≤ w.findIdx (· = NMEA_HEAD_24) + PART_VALID_BUFF_LEN

instance : DecidablePred NmeaWindowOk := fun w =>
  decidable_of_iff (w.length + 5 ≤ MAX_BUFF_LEN ∧
    (w.findIdx (· = NMEA_HEAD_24) < w.length →
      w.length < w.findIdx (· = NMEA_HEAD_24) + 6 → 6 ≤ w.findIdx (· = NMEA_HEAD_24)) ∧
    (NMEA_TAIL_0A ∉ w.drop (w.findIdx (· = NMEA_HEAD_24)) →
      w.length ≤ w.findIdx (· = NMEA_HEAD_24) + PART_VALID_BUFF_LEN))
    ⟨fun ⟨h1, h2, h3⟩ => ⟨h1, h2, h3⟩, fun ⟨h1, h2, h3⟩ => ⟨h1, h2, h3⟩⟩

lemma ne_star_of_isHexDigit {b : UInt8} (h : isHexDigit b = true) : b ≠ NMEA_TAIL_2A := by
  rintro rfl
  simp [isHexDigit, NMEA_TAIL_2A] at h

lemma ne_lf_of_isHexDigit {b : UInt8} (h : isHexDigit b = true) : b ≠ NMEA_TAIL_0A := by
  rintro rfl
  simp [isHexDigit, NMEA_TAIL_0A] at h

/-- Sentences start with `$`, and their first `*` tells where they end. -/
lemma sentenceCode : Code IsSentence NMEA_HEAD_24 where
  starts f hf := by
    obtain ⟨p, h₁, h₂, rfl, -⟩ := hf
    rfl
  free f f' r r' hf hf' h := by
    obtain ⟨p, h₁, h₂, hfp, -, -, -, hp⟩ := hf
    obtain ⟨p', h₁', h₂', hfp', -, -, -, hp'⟩ := hf'
    rw [hfp, hfp'] at h
    simp only [List.append_assoc, List.append_cancel_left_eq, List.cons_append] at h
    obtain ⟨hpp, htail⟩ := cut_unique (fun hc => (hp _ hc).2.1 rfl) (fun hc => (hp' _ hc).2.1 rfl) h
    simp only [List.cons.injEq] at htail
    rw [hfp, hfp', hpp, htail.1, htail.2.1]

/-! ### The bytes of a sentence -/

section
variable {f payload : List UInt8} {h₁ h₂ : UInt8}

/-- The last five bytes of a sentence. -/
def sentenceTail (h₁ h₂ : UInt8) : List UInt8 := [NMEA_TAIL_2A, h₁, h₂, NMEA_TAIL_0D, NMEA_TAIL_0A]

lemma sentence_tail (hf : f = NMEA_HEAD ++ (payload ++ sentenceTail h₁ h₂)) (k : ℕ) :
    f[6 + payload.length + k]? = (sentenceTail h₁ h₂)[k]? := by
  have h6 : NMEA_HEAD.length = 6 := rfl
  rw [hf, List.getElem?_append_right (by omega), List.getElem?_append_right (by omega)]
  congr 1
  omega

lemma sentence_length (hf : f = NMEA_HEAD ++ (payload ++ sentenceTail h₁ h₂)) :
    f.length = payload.length + 11 := by
  rw [hf]
  simp only [List.length_append, NMEA_HEAD, sentenceTail, List.length_cons, List.length_nil]
  omega

/-- The only `*` of a sentence is that before the checksum. -/
lemma sentence_star (hf : f = NMEA_HEAD ++ (payload ++ sentenceTail h₁ h₂))
    (hp : ∀ b ∈ payload, b ≠ NMEA_TAIL_2A) (h1 : isHexDigit h₁ = true) (h2 : isHexDigit h₂ = true)
    {k : ℕ} (hk : 6 ≤ k) (hstar : f[k]? = some NMEA_TAIL_2A) : k = 6 + payload.length := by
  have h6 : NMEA_HEAD.length = 6 := rfl
  rw [hf, List.getElem?_append_right (by omega)] at hstar
  rcases Nat.lt_or_ge (k - NMEA_HEAD.length) payload.length with hlt | hge
  · rw [List.getElem?_append_left hlt] at hstar
    exact absurd rfl (hp _ (List.mem_of_getElem? hstar))
  · rw [List.getElem?_append_right hge] at hstar
    obtain ⟨j, hj⟩ : ∃ j, k = 6 + payload.length + j := ⟨k - 6 - payload.length, by omega⟩
    rw [show k - NMEA_HEAD.length - payload.length = j by omega] at hstar
    rcases j with _ | _ | _ | _ | _ | j
    · exact hj
    · simp [sentenceTail, ne_star_of_isHexDigit h1] at hstar
    · simp [sentenceTail, ne_star_of_isHexDigit h2] at hstar
    · simp [sentenceTail, NMEA_TAIL_0D, NMEA_TAIL_2A] at hstar
    · simp [sentenceTail, NMEA_TAIL_0A, NMEA_TAIL_2A] at hstar
    · simp [sentenceTail] at hstar

/-- The only line feed of a sentence is its last byte. -/
lemma sentence_lf (hf : f = NMEA_HEAD ++ (payload ++ sentenceTail h₁ h₂))
    (hp : ∀ b ∈ payload, b ≠ NMEA_TAIL_0A) (h1 : isHexDigit h₁ = true) (h2 : isHexDigit h₂ = true)
    {v : List UInt8} (hpre : v <+: f) (hlt : v.length < f.length) : NMEA_TAIL_0A ∉ v := by
  have hinit : f = (NMEA_HEAD ++ (payload ++ [NMEA_TAIL_2A, h₁, h₂, NMEA_TAIL_0D])) ++
      [NMEA_TAIL_0A] := by
    rw [hf]
    simp [sentenceTail]
  have hv : v <+: NMEA_HEAD ++ (payload ++ [NMEA_TAIL_2A, h₁, h₂, NMEA_TAIL_0D]) := by
    have hp' := List.prefix_append (NMEA_HEAD ++ (payload ++ [NMEA_TAIL_2A, h₁, h₂, NMEA_TAIL_0D]))
      [NMEA_TAIL_0A]
    rw [← hinit] at hp'
    refine List.prefix_of_prefix_length_le hpre hp' ?_
    rw [hinit, List.length_append, List.length_singleton] at hlt
    omega
  intro hc
  have hmem := hv.subset hc
  simp only [List.mem_append, List.mem_cons, List.not_mem_nil, or_false] at hmem
  rcases hmem with hm | hm | hm | hm | hm | hm
  · simp [NMEA_HEAD, NMEA_TAIL_0A] at hm
  · exact hp _ hm rfl
  · simp [NMEA_TAIL_0A, NMEA_TAIL_2A] at hm
  · exact ne_lf_of_isHexDigit h1 hm.symm
  · exact ne_lf_of_isHexDigit h2 hm.symm
  · simp [NMEA_TAIL_0A, NMEA_TAIL_0D] at hm

end

/-! ### The scan -/

section
variable (behind : Bytes)

lemma nmeaHeadAt_gap {g v : List UInt8} (hg : NMEA_HEAD_24 ∉ g) {j : ℕ} (hj : j < g.length) :
    nmeaHeadAt (checkBuff behind (g ++ v)) j = false := by
  have hb := checkBuff_append_left behind g v hj
  have h0 : (slice (checkBuff behind (g ++ v)) j NMEA_HEAD.length)[0]? = some (g.get ⟨j, hj⟩) := by
    rw [← hb]
    rfl
  rw [nmeaHeadAt, decide_eq_false_iff_not]
  intro hc
  rw [hc] at h0
  exact hg (by rw [show NMEA_HEAD_24 = g.get ⟨j, hj⟩ from Option.some.inj h0]; exact List.get_mem _ _)

/-- The header at the start of a sentence of which at least six bytes are in the window. -/
lemma nmeaHeadAt_sentence {g v f : List UInt8} (hf : IsSentence f) (hpre : v <+: f ∨ f <+: v)
    (hv : 6 ≤ v.length) : nmeaHeadAt (checkBuff behind (g ++ v)) g.length = true := by
  obtain ⟨p, h₁, h₂, hfp, -⟩ := hf
  have htake : v.take 6 = NMEA_HEAD := by
    have hfl : 6 ≤ f.length := by rw [sentence_length hfp]; omega
    have hft : f.take 6 = NMEA_HEAD := by rw [hfp]; rfl
    rw [← hft]
    rcases hpre with ⟨t, rfl⟩ | ⟨t, rfl⟩
    · rw [List.take_append_of_le_length hv]
    · rw [List.take_append_of_le_length hfl]
  rw [nmeaHeadAt, slice_checkBuff behind (by simpa [NMEA_HEAD] using hv), List.drop_left]
  exact decide_eq_true htake

/-- The end of a sentence in the window: where the last byte but four is, if the last byte is
in the window. -/
lemma nmeaTailAt_sentence {g v f : List UInt8} (hf : IsSentence f) (hpre : v <+: f ∨ f <+: v)
    (hroom : (g ++ v).length + 5 ≤ MAX_BUFF_LEN) {j : ℕ} (hj : 6 ≤ j) (hjv : j < v.length)
    (hjf : j < f.length) :
    nmeaTailAt (checkBuff behind (g ++ v)) (g.length + j) = true ↔
      j + 5 = f.length ∧ f.length ≤ v.length := by
  obtain ⟨p, h₁, h₂, hfp, -, hh1, hh2, hp⟩ := hf
  have hlen := sentence_length hfp
  rw [List.length_append] at hroom
  have hbyte : ∀ k, k < v.length → k < f.length →
      some (checkBuff behind (g ++ v) (g.length + k)) = f[k]? := by
    intro k hk hkf
    rw [checkBuff_append behind g v hk]
    rcases hpre with ⟨t, rfl⟩ | ⟨t, rfl⟩
    · rw [List.getElem?_append_left hk, List.getElem?_eq_getElem hk]
      rfl
    · rw [List.get_eq_getElem, List.getElem_append_left hkf, List.getElem?_eq_getElem hkf]
  have htail := fun k => sentence_tail hfp k
  constructor
  · intro h
    simp only [nmeaTailAt, Bool.and_eq_true, decide_eq_true_eq] at h
    have hstar := hbyte j hjv (by omega)
    rw [h.1.1] at hstar
    have hjp := sentence_star hfp (fun b hb => (hp b hb).2.1) hh1 hh2 hj hstar.symm
    refine ⟨by omega, ?_⟩
    -- otherwise the line feed is behind the window
    by_contra hlt
    have h0 := checkBuff_of_ge behind (w := g ++ v) (i := g.length + j + 4)
      (by rw [List.length_append]; omega) (by omega)
    rw [h.2] at h0
    exact absurd h0 (by decide)
  · rintro ⟨hjl, hle⟩
    have hj' : j = 6 + p.length := by omega
    have h0 := hbyte j hjv (by omega)
    have h3 := hbyte (j + 3) (by omega) (by omega)
    have h4 := hbyte (j + 4) (by omega) (by omega)
    rw [hj'] at h0 h3 h4
    rw [show f[6 + p.length]? = some NMEA_TAIL_2A from htail 0] at h0
    rw [htail 3] at h3
    rw [htail 4] at h4
    rw [hj', nmeaTailAt, Nat.add_assoc g.length, Nat.add_assoc g.length, Option.some.inj h0,
      Option.some.inj h3, Option.some.inj h4]
    rfl

lemma nmeaParseContent_gap {w : List UInt8} (hw : NMEA_HEAD_24 ∉ w) (h6 : 6 ≤ w.length) :
    nmeaParseContent (checkBuff behind w) w.length = .nothing := by
  rw [nmeaParseContent, if_pos h6]
  refine scan_eq_nothing fun j _ hj => ?_
  have := nmeaHeadAt_gap behind (v := []) hw (j := j) (by omega)
  rw [List.append_nil] at this
  rw [nmeaParseBody, if_neg (by simp [this])]

/-- The scan over a window that ends within the header of a sentence. -/
lemma nmeaParseContent_short {g v : List UInt8} (hg : NMEA_HEAD_24 ∉ g) (hv : v.length < 6)
    (hroom : (g ++ v).length + 5 ≤ MAX_BUFF_LEN) (h6 : 6 ≤ (g ++ v).length) :
    nmeaParseContent (checkBuff behind (g ++ v)) (g ++ v).length = .nothing := by
  rw [nmeaParseContent, if_pos h6]
  refine scan_eq_nothing fun j _ hj => ?_
  have hhead : nmeaHeadAt (checkBuff behind (g ++ v)) j = false := by
    rcases Nat.lt_or_ge j g.length with hjg | hjg
    · exact nmeaHeadAt_gap behind hg hjg
    · rw [Nat.zero_add] at hj
      refine nmeaHeadAt_short behind (by omega) hj ?_
      rw [List.length_append]
      omega
  rw [nmeaParseBody, if_neg (by simp [hhead])]

/-- The scan over a window with the first six bytes of a sentence: the sentence is found if it
is complete, and otherwise it is divided. -/
lemma nmeaParseContent_sentence {g v f : List UInt8} (hg : NMEA_HEAD_24 ∉ g) (hf : IsSentence f)
    (hpre : v <+: f ∨ f <+: v) (hroom : (g ++ v).length + 5 ≤ MAX_BUFF_LEN) (hv : 6 ≤ v.length) :
    nmeaParseContent (checkBuff behind (g ++ v)) (g ++ v).length =
      if f.length ≤ v.length then .found g.length f.length else .divided := by
  have hfl : 11 ≤ f.length := by
    obtain ⟨p, h₁, h₂, hfp, -⟩ := hf
    rw [sentence_length hfp]
    omega
  have htail := fun j => nmeaTailAt_sentence behind hf hpre hroom (j := j)
  have hnone : ∀ j < g.length, nmeaParseBody (checkBuff behind (g ++ v)) (g ++ v).length j = none := by
    intro j hj
    rw [nmeaParseBody, if_neg (by simp [nmeaHeadAt_gap behind hg hj])]
  rw [nmeaParseContent, if_pos (by rw [List.length_append]; omega)]
  refine scan_of_first (k := g.length) ?_ (fun j _ hj => hnone j hj) (by omega)
    (by rw [List.length_append]; omega)
  rw [nmeaParseBody, if_pos (nmeaHeadAt_sentence behind hf hpre hv)]
  by_cases hcmp : f.length ≤ v.length
  · -- the first end of a sentence is that of this one
    have hfind : findOffset (nmeaTailAt (checkBuff behind (g ++ v))) ((g ++ v).length - (g.length + 6))
        (g.length + 6) = some (g.length + (f.length - 5)) := by
      refine findOffset_of_first ((htail (f.length - 5) (by omega) (by omega) (by omega)).2
        ⟨by omega, hcmp⟩) ?_ (by omega) (by rw [List.length_append]; omega)
      intro j hj hjk
      obtain ⟨i, rfl⟩ : ∃ i, j = g.length + i := ⟨j - g.length, by omega⟩
      rw [← Bool.not_eq_true, htail i (by omega) (by omega) (by omega)]
      omega
    rw [hfind, if_pos hcmp]
    simp only [Option.some.injEq, Content.found.injEq, true_and]
    omega
  · have hfind : findOffset (nmeaTailAt (checkBuff behind (g ++ v))) ((g ++ v).length - (g.length + 6))
        (g.length + 6) = none := by
      refine findOffset_eq_none fun j hj hjk => ?_
      rw [List.length_append] at hjk
      obtain ⟨i, rfl⟩ : ∃ i, j = g.length + i := ⟨j - g.length, by omega⟩
      rw [← Bool.not_eq_true, htail i (by omega) (by omega) (by omega)]
      omega
    rw [hfind, if_neg hcmp]

/-- A sentence that is not complete is saved, if it is not too long. -/
lemma nmeaParsePartContent_sentence {g v f : List UInt8} (hg : NMEA_HEAD_24 ∉ g)
    (hf : IsSentence f) (hpre : v <+: f) (hv : 6 ≤ v.length) (h80 : v.length ≤ PART_VALID_BUFF_LEN) :
    nmeaParsePartContent (checkBuff behind (g ++ v)) (g ++ v).length = v := by
  have hfind : findOffset (nmeaHeadAt (checkBuff behind (g ++ v))) (g ++ v).length 0 =
      some g.length :=
    findOffset_of_first (nmeaHeadAt_sentence behind hf (Or.inl hpre) hv)
      (fun j _ hj => nmeaHeadAt_gap behind hg hj) (by omega) (by rw [List.length_append]; omega)
  rw [nmeaParsePartContent, hfind]
  simp only [List.length_append, Nat.add_sub_cancel_left, min_eq_left h80]
  rw [slice_checkBuff behind (by simp), List.drop_left, List.take_length]

lemma nmeaParsePartContent_gap {w : List UInt8} (hw : NMEA_HEAD_24 ∉ w) :
    nmeaParsePartContent (checkBuff behind w) w.length = [] := by
  have hfind : findOffset (nmeaHeadAt (checkBuff behind w)) w.length 0 = none := by
    refine findOffset_eq_none fun j _ hj => ?_
    have := nmeaHeadAt_gap behind (v := []) hw (j := j) (by omega)
    rwa [List.append_nil] at this
  rw [nmeaParsePartContent, hfind]

lemma nmeaParsePacket_scans_gap {w rest : List UInt8} (hw : NMEA_HEAD_24 ∉ w) :
    nmeaParsePacket.Scans behind IsSentence NMEA_HEAD_24 6 w rest := by
  by_cases h6 : 6 ≤ w.length
  · exact .skip (nmeaParseContent_gap behind hw h6) h6 fun hc => hw (List.mem_of_mem_take hc)
  · refine .divided ?_ (nmeaParsePartContent_gap behind hw) (List.append_nil w).symm hw (Or.inl rfl)
    show nmeaParseContent _ _ = _
    rw [nmeaParseContent, if_neg h6]

/-- A window that ends with less than the header of a sentence. -/
lemma nmeaParsePacket_scans_short {g v rest : List UInt8} (hok : NmeaWindowOk (g ++ v))
    (hg : NMEA_HEAD_24 ∉ g) (hidx : (g ++ v).findIdx (· = NMEA_HEAD_24) = g.length) (hv : v ≠ [])
    (h6 : v.length < 6) : nmeaParsePacket.Scans behind IsSentence NMEA_HEAD_24 6 (g ++ v) rest := by
  have hvpos : 1 ≤ v.length := List.length_pos_iff.2 hv
  have hgw : (g ++ v).length = g.length + v.length := List.length_append
  -- the bytes before it are enough for the skip
  have hg6 : 6 ≤ g.length := by
    have := hok.head (by rw [hidx, hgw]; omega) (by rw [hidx, hgw]; omega)
    rwa [hidx] at this
  refine .skip (nmeaParseContent_short behind hg h6 hok.room (by omega)) (show 6 ≤ _ by omega) ?_
  show NMEA_HEAD_24 ∉ (g ++ v).take 6
  rw [List.take_append_of_le_length hg6]
  exact fun hc => hg (List.mem_of_mem_take hc)

/-- A window that ends with the header of a sentence and not with the whole sentence. -/
lemma nmeaParsePacket_scans_prefix {g v rest f s : List UInt8} (hok : NmeaWindowOk (g ++ v))
    (hg : NMEA_HEAD_24 ∉ g) (hidx : (g ++ v).findIdx (· = NMEA_HEAD_24) = g.length)
    (h6 : 6 ≤ v.length) (hf : IsSentence f) (hfs : v ++ rest = f ++ s) (hlt : v.length < f.length) :
    nmeaParsePacket.Scans behind IsSentence NMEA_HEAD_24 6 (g ++ v) rest := by
  have hpre : v <+: f := prefix_of_append_eq hfs hlt.le
  have hcontent := nmeaParseContent_sentence behind hg hf (Or.inl hpre) hok.room h6
  rw [if_neg (not_le.2 hlt)] at hcontent
  have hlf : NMEA_TAIL_0A ∉ v := by
    obtain ⟨p, h₁, h₂, hfp, -, hh1, hh2, hpay⟩ := hf
    exact sentence_lf hfp (fun b hb => (hpay b hb).2.2.2) hh1 hh2 hpre hlt
  have h80 : v.length ≤ PART_VALID_BUFF_LEN := by
    have := hok.keep (by rwa [hidx, List.drop_left])
    rw [hidx, List.length_append] at this
    omega
  exact .divided hcontent (nmeaParsePartContent_sentence behind hg hf hpre h6 h80) rfl hg
    (Or.inr ⟨h6, f, s, hf, hfs, hlt⟩)

/-- **Every call on an allowed window does to the stream what it should.** -/
lemma nmeaParsePacket_reads :
    nmeaParsePacket.Reads behind IsSentence NMEA_HEAD_24 6 NmeaWindowOk := by
  refine Framer.reads_of_scans sentenceCode (by decide) (fun w hok => ?_) ?_
  · have := hok.room
    omega
  intro w rest fs _ hok ht
  by_cases hB : NMEA_HEAD_24 ∈ w
  · obtain ⟨g, v, f, s, rfl, hg, hidx, hv, hf, hfs⟩ := ht.in_window sentenceCode hB
    by_cases h6 : v.length < 6
    · exact nmeaParsePacket_scans_short behind hok hg hidx hv h6
    by_cases hcmp : f.length ≤ v.length
    · -- a whole sentence
      obtain ⟨t, rfl⟩ := prefix_of_append_eq hfs.symm hcmp
      have hcontent := nmeaParseContent_sentence behind hg hf (Or.inr (List.prefix_append f t))
        hok.room (not_lt.1 h6)
      rw [if_pos hcmp] at hcontent
      exact .found hcontent rfl hg hf
    · exact nmeaParsePacket_scans_prefix behind hok hg hidx (not_lt.1 h6) hf hfs (not_le.1 hcmp)
  · exact nmeaParsePacket_scans_gap behind hB

end

/-- **NMEA framing and reads.**  For every stream of `$GPRMC` sentences and other bytes without
`$`, every division of it into reads that stay behind the reader, and calls of
`nmea_parse_packet` in between whose windows meet `NmeaWindowOk`: at each point of the run,
whatever of the stream is still to come, the sentences returned are the first sentences of the
stream.  When nothing more comes, as many calls as there are unread bytes read them all, and the
sentences returned are all sentences of the stream. -/
theorem nmea_sentences_delivered (behind : Bytes) (sentences : List (List UInt8))
    (acts : List LinkAction) (rest : List UInt8)
    (hstream : Tiles IsSentence NMEA_HEAD_24 sentences (Link.received acts ++ rest))
    (hallowed : Runs.Along (Link.step nmeaParsePacket behind) (Link.Allowed NmeaWindowOk) Link.init
      acts) :
    ∃ s, Runs.run (Link.step nmeaParsePacket behind) Link.init acts = some s ∧ s.delivered <+: sentences ∧
      (rest = [] → ∀ n ≥ s.unread,
        Runs.Along (Link.step nmeaParsePacket behind) (Link.Allowed NmeaWindowOk) s (List.replicate n .parse) →
          ∃ s', Runs.run (Link.step nmeaParsePacket behind) s (List.replicate n .parse) = some s' ∧
            s'.ring.head = s'.ring.tail ∧ s'.delivered = sentences) :=
  Link.delivers sentenceCode (nmeaParsePacket_reads behind) hstream hallowed

/-- The sentence `$GPRMC,V*00`. -/
def sampleSentence : List UInt8 :=
  NMEA_HEAD ++ ([0x2C, 0x56] ++ [NMEA_TAIL_2A, 0x30, 0x30, NMEA_TAIL_0D, NMEA_TAIL_0A])

lemma isSentence_sampleSentence : IsSentence sampleSentence :=
  ⟨[0x2C, 0x56], 0x30, 0x30, rfl, by decide, by decide, by decide, by decide +kernel⟩

/-- A sentence that comes in two reads is returned by the calls behind the second one. -/
theorem nmea_sentences_delivered_divided : ∃ s s',
    Runs.run (Link.step nmeaParsePacket fun _ => 0) Link.init
      [.recv (sampleSentence.take 8), .parse, .recv (sampleSentence.drop 8)] = some s ∧
    Runs.run (Link.step nmeaParsePacket fun _ => 0) s (List.replicate 5 .parse) = some s' ∧
    s.delivered = [] ∧ s'.delivered = [sampleSentence] := by
  have hstream : Tiles IsSentence NMEA_HEAD_24 [sampleSentence] (Link.received
      [.recv (sampleSentence.take 8), .parse, .recv (sampleSentence.drop 8)] ++ []) :=
    .frame (g := []) (s := []) (by simp) isSentence_sampleSentence (.gap (by simp))
  obtain ⟨s, hs, -, hall⟩ := nmea_sentences_delivered (fun _ => 0) [sampleSentence] _ [] hstream
    (by decide +kernel)
  have hcalls : ((Runs.run (Link.step nmeaParsePacket fun _ => 0) Link.init
      [.recv (sampleSentence.take 8), .parse, .recv (sampleSentence.drop 8)]).all fun s =>
        decide (s.delivered = [] ∧ 5 ≥ s.unread ∧ Runs.Along (Link.step nmeaParsePacket fun _ => 0)
          (Link.Allowed NmeaWindowOk) s (List.replicate 5 .parse))) = true := by decide +kernel
  rw [hs, Option.all_some, decide_eq_true_eq] at hcalls
  obtain ⟨s', hs', -, hd⟩ := hall rfl 5 hcalls.2.1 hcalls.2.2
  exact ⟨s, s', hs, hs', hcalls.1, hd⟩

/-- **A sentence that is cut within its header is lost.**  The first read brings `$GP`; these
bytes are read, and nothing is saved of them. -/
theorem nmea_sentence_lost :
    Tiles IsSentence NMEA_HEAD_24 [sampleSentence] (Link.received
      [.recv (sampleSentence.take 3), .parse, .recv (sampleSentence.drop 3), .parse, .parse]) ∧
    ((Runs.run (Link.step nmeaParsePacket fun _ => 0) Link.init
      [.recv (sampleSentence.take 3), .parse, .recv (sampleSentence.drop 3), .parse, .parse]).any
        fun s => decide (s.ring.head = s.ring.tail ∧ s.delivered = [])) = true := by
  constructor
  · exact .frame (g := []) (s := []) (by simp) isSentence_sampleSentence (.gap (by simp))
  · decide +kernel

end DeviceTools
