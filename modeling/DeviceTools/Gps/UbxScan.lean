/-
What the scan for NAV packets accepts.

`ubx_data_content` looks for a packet from every offset on.  The places that it reads at an offset
are relative to the offset, except the two bytes of the checksum: for a packet of length `len` these
are the bytes `len - 2` and `len - 1` of the buffer.  So a packet behind other bytes is judged by
bytes that do not belong to it.  The scan is exact if and only if these bytes agree with the end
of the packet wherever it matters: at a valid packet with no `B5 62` in front of it, and at the
packet that the scan takes.
-/
import DeviceTools.Gps.UbxFraming

namespace DeviceTools

open Memory

variable {buffer : Bytes} {dataLen : ℕ}

/-- At offset `o` starts a packet of class NAV, of length `len`, that ends within the first `dataLen`
bytes. -/
structure NavPacketAt (buffer : Bytes) (dataLen o len : ℕ) : Prop where
  header : ubxHeaderAt buffer o = true
  nav : buffer (o + 2) = UBX_CLASS_NAV
  length : navPackLen (buffer (o + 3)) = some len
  inside : o + len ≤ dataLen

/-- The checksum of the packet at `o` stands in the two bytes in front of `pos`. -/
def SumBefore (buffer : Bytes) (o len pos : ℕ) : Prop :=
  ubxChecksum (slice buffer (o + 2) (len - 4)) = (buffer (pos - 2), buffer (pos - 1))

instance (buffer : Bytes) (o len pos : ℕ) : Decidable (SumBefore buffer o len pos) :=
  inferInstanceAs (Decidable (_ = _))

/-- A packet with a correct checksum. -/
def ValidPacketAt (buffer : Bytes) (dataLen o len : ℕ) : Prop :=
  NavPacketAt buffer dataLen o len ∧ SumBefore buffer o len (o + len)

/-- At offset `o` starts a packet of which the buffer has only a part. -/
def CutAt (buffer : Bytes) (dataLen o : ℕ) : Prop :=
  ubxHeaderAt buffer o = true ∧ (dataLen < o + 3 ∨
    buffer (o + 2) = UBX_CLASS_NAV ∧ ∃ len ∈ navPackLen (buffer (o + 3)), dataLen < o + len)

/-- The scan ends neither with a part of a packet nor with a packet before offset `o`. -/
def ScanReaches (buffer : Bytes) (dataLen o : ℕ) : Prop :=
  ∀ j < o, ¬ CutAt buffer dataLen j ∧ ∀ len, NavPacketAt buffer dataLen j len → ¬ SumBefore buffer j len len

/-- The two bytes that are compared are equal to the last two bytes of the packet. -/
def TailsAgree (buffer : Bytes) (o len : ℕ) : Prop :=
  buffer (len - 2) = buffer (o + len - 2) ∧ buffer (len - 1) = buffer (o + len - 1)

/-! ### The body of the loop -/

/-- **What the body does at an offset**: it stops at a packet that is cut off, it looks at the checksum of
a packet that is not, and it goes on elsewhere. -/
lemma ubxDataBody_cases (buffer : Bytes) (dataLen o : ℕ) :
    (CutAt buffer dataLen o ∧ (∀ len, ¬ NavPacketAt buffer dataLen o len) ∧
      ubxDataBody buffer dataLen o = some .divided) ∨
    (¬ CutAt buffer dataLen o ∧ ∃ len, (∀ l, NavPacketAt buffer dataLen o l ↔ l = len) ∧
      ubxDataBody buffer dataLen o = if SumBefore buffer o len len then some (.found o len) else none) ∨
    (¬ CutAt buffer dataLen o ∧ (∀ len, ¬ NavPacketAt buffer dataLen o len) ∧
      ubxDataBody buffer dataLen o = none) := by
  by_cases hhead : ubxHeaderAt buffer o = true
  swap
  · exact Or.inr (Or.inr ⟨fun hc => hhead hc.1, fun len hp => hhead hp.header, by rw [ubxDataBody, if_neg hhead]⟩)
  rw [ubxDataBody, if_pos hhead]
  by_cases h3 : dataLen < o + 3
  · -- the class is behind the data
    refine Or.inl ⟨⟨hhead, Or.inl h3⟩, fun len hp => ?_, if_pos h3⟩
    have hb := navPackLen_bounds hp.length
    have hin := hp.inside
    omega
  rw [if_neg h3]
  by_cases hnav : buffer (o + 2) = UBX_CLASS_NAV
  swap
  · refine Or.inr (Or.inr ⟨?_, fun len hp => hnav hp.nav, if_neg hnav⟩)
    rintro ⟨-, hc | ⟨hc, -⟩⟩
    · exact h3 hc
    · exact hnav hc
  rw [if_pos hnav]
  cases hlen : navPackLen (buffer (o + 3)) with
  | none =>
      refine Or.inr (Or.inr ⟨?_, fun len hp => ?_, rfl⟩)
      · rintro ⟨-, hc | ⟨-, len, hl, -⟩⟩
        · exact h3 hc
        · simp [hlen] at hl
      · have := hp.length
        simp [hlen] at this
  | some len =>
      have hunique : ∀ {l}, navPackLen (buffer (o + 3)) = some l → l = len := by
        intro l hl
        exact Option.some.inj (hl.symm.trans hlen)
      by_cases hcut : dataLen < o + len
      · refine Or.inl ⟨⟨hhead, Or.inr ⟨hnav, len, hlen, hcut⟩⟩, fun l hp => ?_, if_pos hcut⟩
        rw [hunique hp.length] at hp
        exact absurd hp.inside (not_le.2 hcut)
      · refine Or.inr (Or.inl ⟨?_, len, fun l => ⟨fun hp => hunique hp.length, ?_⟩, if_neg hcut⟩)
        · rintro ⟨-, hc | ⟨-, l, hl, hc⟩⟩
          · exact h3 hc
          · rw [hunique hl] at hc
            exact hcut hc
        · rintro rfl
          exact ⟨hhead, hnav, hlen, not_lt.1 hcut⟩

lemma ubxDataBody_found_iff {o i len : ℕ} : ubxDataBody buffer dataLen o = some (.found i len) ↔
    i = o ∧ NavPacketAt buffer dataLen o len ∧ SumBefore buffer o len len := by
  rcases ubxDataBody_cases buffer dataLen o with ⟨-, hno, hb⟩ | ⟨-, l, hl, hb⟩ | ⟨-, hno, hb⟩
  · simp [hb, hno]
  · rw [hb, hl]
    constructor
    · intro h
      split_ifs at h with hsum
      simp only [Option.some.injEq, Content.found.injEq] at h
      obtain ⟨rfl, rfl⟩ := h
      exact ⟨rfl, rfl, hsum⟩
    · rintro ⟨rfl, rfl, hsum⟩
      exact if_pos hsum
  · simp [hb, hno]

lemma ubxDataBody_none_iff {o : ℕ} : ubxDataBody buffer dataLen o = none ↔
    ¬ CutAt buffer dataLen o ∧ ∀ len, NavPacketAt buffer dataLen o len → ¬ SumBefore buffer o len len := by
  rcases ubxDataBody_cases buffer dataLen o with ⟨hcut, -, hb⟩ | ⟨hcut, l, hl, hb⟩ | ⟨hcut, hno, hb⟩
  · simp [hb, hcut]
  · rw [hb]
    by_cases hsum : SumBefore buffer o l l
    · simp [hsum, hl]
    · simp [hsum, hl, hcut]
  · simp [hb, hcut, hno]

lemma scanReaches_iff {o : ℕ} :
    ScanReaches buffer dataLen o ↔ ∀ j < o, ubxDataBody buffer dataLen j = none :=
  forall₂_congr fun _ _ => ubxDataBody_none_iff.symm

lemma scanReaches_of_no_header {o : ℕ} (h : ∀ j < o, ubxHeaderAt buffer j = false) :
    ScanReaches buffer dataLen o := by
  intro j hj
  exact ⟨fun hc => absurd (hc.1.symm.trans (h j hj)) (by simp),
    fun len hp => absurd (hp.header.symm.trans (h j hj)) (by simp)⟩

/-! ### The scan -/

/-- **What the scan takes**: the first packet that it reaches whose checksum stands where the code
looks for it. -/
lemma ubxDataContent_found_iff {o len : ℕ} : ubxDataContent buffer dataLen = .found o len ↔
    NavPacketAt buffer dataLen o len ∧ SumBefore buffer o len len ∧ ScanReaches buffer dataLen o := by
  constructor
  · intro h
    rw [ubxDataContent] at h
    split_ifs at h with h4
    obtain ⟨k, -, -, hk, hnone⟩ := scan_eq (by simp) h
    obtain ⟨rfl, hp, hsum⟩ := ubxDataBody_found_iff.1 hk
    exact ⟨hp, hsum, scanReaches_iff.2 fun j hj => hnone j (Nat.zero_le j) hj⟩
  · rintro ⟨hp, hsum, hreach⟩
    have hb := navPackLen_bounds hp.length
    have hin := hp.inside
    rw [ubxDataContent, if_pos (by omega)]
    exact scan_of_first (ubxDataBody_found_iff.2 ⟨rfl, hp, hsum⟩)
      (fun j _ hj => scanReaches_iff.1 hreach j hj) (Nat.zero_le o) (by omega)

/-- The bytes that are compared are the right ones exactly if both comparisons come out the same. -/
lemma tailsAgree_iff {o len pos pos' : ℕ} (h : SumBefore buffer o len pos) :
    SumBefore buffer o len pos' ↔
      buffer (pos - 2) = buffer (pos' - 2) ∧ buffer (pos - 1) = buffer (pos' - 1) := by
  rw [SumBefore] at h ⊢
  rw [h, Prod.mk.injEq]

/-- The scan is exact: what it returns is a valid packet, and a valid packet with no `B5 62` in front
of it is returned. -/
structure ScanExact (buffer : Bytes) (dataLen : ℕ) : Prop where
  sound : ∀ o len, ubxDataContent buffer dataLen = .found o len → ValidPacketAt buffer dataLen o len
  complete : ∀ o len, ValidPacketAt buffer dataLen o len → (∀ j < o, ubxHeaderAt buffer j = false) →
    ubxDataContent buffer dataLen = .found o len

/-- The condition on the bytes that are compared: they agree with the end of the packet at a valid
packet with no `B5 62` in front of it, and at a packet that the scan reaches if they are its
checksum. -/
structure TailsOk (buffer : Bytes) (dataLen : ℕ) : Prop where
  first : ∀ o len, ValidPacketAt buffer dataLen o len → (∀ j < o, ubxHeaderAt buffer j = false) →
    TailsAgree buffer o len
  reached : ∀ o len, NavPacketAt buffer dataLen o len → ScanReaches buffer dataLen o →
    SumBefore buffer o len len → TailsAgree buffer o len

/-- **The scanner accepts exactly the valid packets** if and only if the bytes that it compares agree
with the ends of the packets. -/
theorem ubx_scan_exact_iff (buffer : Bytes) (dataLen : ℕ) :
    ScanExact buffer dataLen ↔ TailsOk buffer dataLen := by
  constructor
  · rintro ⟨hsound, hcomplete⟩
    refine ⟨fun o len hv hfirst => ?_, fun o len hp hreach hsum => ?_⟩
    · obtain ⟨-, hsum, -⟩ := ubxDataContent_found_iff.1 (hcomplete o len hv hfirst)
      exact (tailsAgree_iff hsum).1 hv.2
    · obtain ⟨-, hend⟩ := hsound o len (ubxDataContent_found_iff.2 ⟨hp, hsum, hreach⟩)
      exact (tailsAgree_iff hsum).1 hend
  · rintro ⟨hfirst, hreached⟩
    refine ⟨fun o len h => ?_, fun o len hv hno => ?_⟩
    · obtain ⟨hp, hsum, hreach⟩ := ubxDataContent_found_iff.1 h
      exact ⟨hp, (tailsAgree_iff hsum).2 (hreached o len hp hreach hsum)⟩
    · obtain ⟨h2, h1⟩ := hfirst o len hv hno
      have hsum := (tailsAgree_iff hv.2).2 ⟨h2.symm, h1.symm⟩
      exact ubxDataContent_found_iff.2 ⟨hv.1, hsum, scanReaches_of_no_header hno⟩

/-- A byte and a NAV-STATUS packet. -/
def shiftedStatus : Bytes := checkBuff (fun _ => 0) (0x00 :: sampleStatus)

/-- **A valid packet at offset 1 is not found.**  The bytes compared are those at the offsets 22 and
23, the last byte of the payload and the first of the checksum. -/
theorem valid_packet_not_found : ¬ ScanExact shiftedStatus 25 := by
  rintro ⟨-, hcomplete⟩
  have hvalid : ValidPacketAt shiftedStatus 25 1 24 := ⟨⟨by decide, by decide, by decide, by decide⟩, by
    rw [SumBefore]
    decide +kernel⟩
  have hfound := hcomplete 1 24 hvalid (by decide)
  exact absurd hfound (by decide +kernel)

end DeviceTools
