/-
UBX packets and the division of the stream into reads.

`ubx_data_pack` takes the NAV packets out of a stream when each of its windows -- the saved
part with the unread bytes up to the end of the ring -- meets `ubxWindowOk`.  The conditions
are about the first `B5` of the window: if a whole packet starts there, it is the first byte
of the window, and the window does not end with the first byte or the first three bytes of a
packet unless it is long enough.
-/
import DeviceTools.Gps.Link

namespace DeviceTools

open Framing Memory

/-- A packet of class NAV that `ubx_data_pack` looks for, with a correct checksum. -/
def IsNavFrame (f : List UInt8) : Prop :=
  ∃ id body, f = UBX_HEADER_B5 :: UBX_HEADER_62 :: UBX_CLASS_NAV :: id :: body ∧
    navPackLen id = some f.length ∧
    f.drop (f.length - 2) = [(ubxChecksum ((f.drop 2).take (f.length - 4))).1,
      (ubxChecksum ((f.drop 2).take (f.length - 4))).2]

/-- The condition on the window of a call. -/
structure UbxWindowOk (w : List UInt8) : Prop where
  room : w.length < MAX_BUFF_LEN
  /-- A window that ends with a single `B5` is longer than the bytes skipped. -/
  sync : w.findIdx (· = UBX_HEADER_B5) + 1 = w.length → 5 ≤ w.length
  /-- The same of a window that ends with `B5 62` and the class. -/
  head : w.findIdx (· = UBX_HEADER_B5) + 3 = w.length → w.length = 3 ∨ 7 ≤ w.length
  /-- A whole packet stands at the start of the window. -/
  whole : ∀ len ∈ (w[w.findIdx (· = UBX_HEADER_B5) + 3]?).bind navPackLen,
    w.findIdx (· = UBX_HEADER_B5) + len ≤ w.length → w.findIdx (· = UBX_HEADER_B5) = 0

instance : DecidablePred UbxWindowOk := fun w =>
  decidable_of_iff (w.length < MAX_BUFF_LEN ∧
    (w.findIdx (· = UBX_HEADER_B5) + 1 = w.length → 5 ≤ w.length) ∧
    (w.findIdx (· = UBX_HEADER_B5) + 3 = w.length → w.length = 3 ∨ 7 ≤ w.length) ∧
    ∀ len ∈ (w[w.findIdx (· = UBX_HEADER_B5) + 3]?).bind navPackLen,
      w.findIdx (· = UBX_HEADER_B5) + len ≤ w.length → w.findIdx (· = UBX_HEADER_B5) = 0)
    ⟨fun ⟨h1, h2, h3, h4⟩ => ⟨h1, h2, h3, h4⟩, fun ⟨h1, h2, h3, h4⟩ => ⟨h1, h2, h3, h4⟩⟩

/-- NAV packets start with `B5`, and the message id tells their length. -/
lemma navCode : Code IsNavFrame UBX_HEADER_B5 where
  starts f hf := by
    obtain ⟨id, body, rfl, -⟩ := hf
    rfl
  free f f' r r' hf hf' h := by
    obtain ⟨id, body, hfb, hlen, -⟩ := hf
    obtain ⟨id', body', hfb', hlen', -⟩ := hf'
    have hid : id = id' := by
      rw [hfb, hfb'] at h
      simp only [List.cons_append, List.cons.injEq, true_and] at h
      exact h.1
    rw [hid, hlen', Option.some.injEq] at hlen
    exact (List.append_inj h hlen.symm).1

section
variable (behind : Bytes)

lemma ubxHeaderAt_gap {g v : List UInt8} (hg : UBX_HEADER_B5 ∉ g) {j : ℕ} (hj : j < g.length) :
    ubxHeaderAt (checkBuff behind (g ++ v)) j = false := by
  have hne : g.get ⟨j, hj⟩ ≠ UBX_HEADER_B5 := fun hc => hg (hc ▸ List.get_mem _ _)
  simp only [ubxHeaderAt, checkBuff_append_left behind g v hj, hne, decide_false, Bool.false_and]

lemma ubxDataBody_gap {g v : List UInt8} (hg : UBX_HEADER_B5 ∉ g) {n j : ℕ} (hj : j < g.length) :
    ubxDataBody (checkBuff behind (g ++ v)) n j = none := by
  rw [ubxDataBody, if_neg (by simp [ubxHeaderAt_gap behind hg hj])]

lemma ubxDataContent_gap {w : List UInt8} (hw : UBX_HEADER_B5 ∉ w) (h4 : 4 ≤ w.length) :
    ubxDataContent (checkBuff behind w) w.length = .nothing := by
  rw [ubxDataContent, if_pos h4]
  refine scan_eq_nothing fun j _ hj => ?_
  have := ubxDataBody_gap behind (v := []) (n := w.length) hw (j := j) (by omega)
  rwa [List.append_nil] at this

/-- The part saved of a window that ends with at least two bytes of a packet. -/
lemma ubxDataPartContent_eq {g v : List UInt8} (hg : UBX_HEADER_B5 ∉ g) (h2 : 2 ≤ v.length)
    (h44 : v.length ≤ UBX_SIGNAL_PACK_LEN) {t : List UInt8}
    (hv : v = UBX_HEADER_B5 :: UBX_HEADER_62 :: t) :
    ubxDataPartContent (checkBuff behind (g ++ v)) (g ++ v).length = v := by
  have hhead : ubxHeaderAt (checkBuff behind (g ++ v)) g.length = true := by
    have h0 := checkBuff_append behind g v (k := 0) (by omega)
    have h1 := checkBuff_append behind g v (k := 1) (by omega)
    simp only [hv, List.get_eq_getElem, List.getElem_cons_zero, List.getElem_cons_succ,
      Nat.add_zero] at h0 h1
    simp only [ubxHeaderAt, hv, h0, h1, decide_true, Bool.and_true]
  have hfind : findOffset (ubxHeaderAt (checkBuff behind (g ++ v)))
      (min UBX_SIGNAL_PACK_LEN (g ++ v).length) ((g ++ v).length - UBX_SIGNAL_PACK_LEN)
        = some g.length := by
    refine findOffset_of_first hhead (fun j _ hj => ubxHeaderAt_gap behind hg hj) ?_ ?_
    · simp only [List.length_append]
      omega
    · simp only [List.length_append]
      omega
  rw [ubxDataPartContent, ubxPartContent, hfind]
  simp only [List.length_append, Nat.add_sub_cancel_left, min_eq_left h44]
  rw [slice_checkBuff behind (by simp), List.drop_left, List.take_length]

lemma ubxDataPartContent_gap {w : List UInt8} (hw : UBX_HEADER_B5 ∉ w) :
    ubxDataPartContent (checkBuff behind w) w.length = [] := by
  have hfind : findOffset (ubxHeaderAt (checkBuff behind w)) (min UBX_SIGNAL_PACK_LEN w.length)
      (w.length - UBX_SIGNAL_PACK_LEN) = none := by
    refine findOffset_eq_none fun j _ hj => ?_
    have := ubxHeaderAt_gap behind (v := []) hw (j := j) (by omega)
    rwa [List.append_nil] at this
  rw [ubxDataPartContent, ubxPartContent, hfind]

/-- The bytes of a packet at the end of the window, as the scan sees them: those of the
packet, and zeros behind the window. -/
lemma checkBuff_frame {g v f : List UInt8} (hpre : v <+: f) {k : ℕ} (hk : k < v.length) :
    some (checkBuff behind (g ++ v) (g.length + k)) = f[k]? := by
  obtain ⟨t, rfl⟩ := hpre
  rw [checkBuff_append behind g v hk, List.getElem?_append_left hk, List.getElem?_eq_getElem hk]
  rfl

/-- The scan over a window that ends with the beginning of a packet: with one byte or three
bytes of it nothing is found, with two or with four and more the packet is divided. -/
lemma ubxDataContent_begun {g v f : List UInt8} (hg : UBX_HEADER_B5 ∉ g) (hf : IsNavFrame f)
    (hpre : v <+: f) (hlt : v.length < f.length) (hv : 1 ≤ v.length)
    (hroom : (g ++ v).length < MAX_BUFF_LEN) (h4 : 4 ≤ (g ++ v).length) :
    ubxDataContent (checkBuff behind (g ++ v)) (g ++ v).length =
      if v.length = 1 ∨ v.length = 3 then .nothing else .divided := by
  obtain ⟨id, body, hfb, hlen, -⟩ := hf
  have hbyte := fun k hk => checkBuff_frame behind (g := g) hpre (k := k) hk
  rw [List.length_append] at hroom h4
  have h0 : checkBuff behind (g ++ v) g.length = UBX_HEADER_B5 := by
    simpa [hfb] using hbyte 0 (by omega)
  have hbehind : ∀ k, v.length ≤ k → g.length + k < MAX_BUFF_LEN →
      checkBuff behind (g ++ v) (g.length + k) = 0 := by
    intro k hk hk'
    exact checkBuff_of_ge behind (by rw [List.length_append]; omega) hk'
  rw [ubxDataContent, if_pos (by rw [List.length_append]; omega), List.length_append]
  by_cases hone : v.length = 1
  · -- the second byte is behind the window
    rw [if_pos (Or.inl hone)]
    have h1 := hbehind 1 (by omega) (by omega)
    refine scan_eq_nothing fun j _ hj => ?_
    rcases Nat.lt_or_ge j g.length with hjg | hjg
    · exact ubxDataBody_gap behind hg hjg
    · -- at the packet itself the header is not seen
      obtain rfl : j = g.length := by omega
      rw [ubxDataBody, if_neg]
      simp only [ubxHeaderAt, h1, Bool.and_eq_true, decide_eq_true_eq, not_and]
      intro _
      decide
  have h1 : checkBuff behind (g ++ v) (g.length + 1) = UBX_HEADER_62 := by
    simpa [hfb] using hbyte 1 (by omega)
  have hhead : ubxHeaderAt (checkBuff behind (g ++ v)) g.length = true := by
    simp [ubxHeaderAt, h0, h1]
  by_cases htwo : v.length = 2
  · -- the header is seen, and the class is behind the window
    rw [if_neg (by omega)]
    refine scan_of_first (k := g.length) ?_ (fun j _ hj => ubxDataBody_gap behind hg hj) (by omega)
      (by omega)
    rw [ubxDataBody, if_pos hhead, if_pos (by omega)]
  have h2 : checkBuff behind (g ++ v) (g.length + 2) = UBX_CLASS_NAV := by
    simpa [hfb] using hbyte 2 (by omega)
  by_cases hthree : v.length = 3
  · -- the message id is behind the window
    rw [if_pos (Or.inr hthree)]
    have h3 := hbehind 3 (by omega) (by omega)
    refine scan_eq_nothing fun j _ hj => ?_
    rcases Nat.lt_or_ge j g.length with hjg | hjg
    · exact ubxDataBody_gap behind hg hjg
    · rcases Nat.lt_or_ge g.length j with hjg' | hjg'
      · -- the other bytes of the packet are no `B5`
        rw [ubxDataBody, if_neg]
        have hcase : j = g.length + 1 ∨ j = g.length + 2 := by omega
        rcases hcase with rfl | rfl
        · simp [ubxHeaderAt, h1, UBX_HEADER_62, UBX_HEADER_B5]
        · simp [ubxHeaderAt, h2, UBX_CLASS_NAV, UBX_HEADER_B5]
      · obtain rfl : j = g.length := by omega
        rw [ubxDataBody, if_pos hhead, if_neg (by omega), if_pos h2, h3]
        rfl
  · -- the id gives the length, and the packet ends behind the window
    rw [if_neg (by omega)]
    have h3 : checkBuff behind (g ++ v) (g.length + 3) = id := by
      simpa [hfb] using hbyte 3 (by omega)
    refine scan_of_first (k := g.length) ?_ (fun j _ hj => ubxDataBody_gap behind hg hj) (by omega)
      (by omega)
    rw [ubxDataBody, if_pos hhead, if_neg (by omega), if_pos h2, h3, hlen]
    simp only
    rw [if_pos (by omega)]

/-- The scan over a window that starts with a whole packet. -/
lemma ubxDataContent_whole {f v : List UInt8} (hf : IsNavFrame f) :
    ubxDataContent (checkBuff behind (f ++ v)) (f ++ v).length = .found 0 f.length := by
  have hfr := hf
  obtain ⟨id, body, hfb, hlen, hck⟩ := hf
  have hb := navPackLen_bounds hlen
  have hbyte : ∀ k, k < f.length → some (checkBuff behind (f ++ v) k) = f[k]? := by
    intro k hk
    rw [checkBuff_append_left behind f v hk, List.getElem?_eq_getElem hk]
    rfl
  have h0 : checkBuff behind (f ++ v) 0 = UBX_HEADER_B5 := by
    simpa [hfb] using hbyte 0 (by omega)
  have h1 : checkBuff behind (f ++ v) 1 = UBX_HEADER_62 := by
    simpa [hfb] using hbyte 1 (by omega)
  have h2 : checkBuff behind (f ++ v) 2 = UBX_CLASS_NAV := by
    simpa [hfb] using hbyte 2 (by omega)
  have h3 : checkBuff behind (f ++ v) 3 = id := by
    simpa [hfb] using hbyte 3 (by omega)
  have hslice : slice (checkBuff behind (f ++ v)) 2 (f.length - 4) =
      (f.drop 2).take (f.length - 4) := by
    rw [slice_checkBuff behind (by rw [List.length_append]; omega),
      List.drop_append_of_le_length (by omega), List.take_append_of_le_length]
    rw [List.length_drop]
    omega
  -- the last two bytes of the packet are the checksum
  have hsum : ∀ k, k < 2 → some (checkBuff behind (f ++ v) (f.length - 2 + k)) =
      (f.drop (f.length - 2))[k]? := by
    intro k hk
    rw [hbyte _ (by omega), List.getElem?_drop]
  have hs0 : checkBuff behind (f ++ v) (f.length - 2) =
      (ubxChecksum ((f.drop 2).take (f.length - 4))).1 := by
    have := hsum 0 (by omega)
    rw [hck] at this
    simpa using this
  have hs1 : checkBuff behind (f ++ v) (f.length - 1) =
      (ubxChecksum ((f.drop 2).take (f.length - 4))).2 := by
    have := hsum 1 (by omega)
    rw [hck, show f.length - 2 + 1 = f.length - 1 by omega] at this
    simpa using this
  rw [ubxDataContent, if_pos (by rw [List.length_append]; omega)]
  refine scan_of_first (k := 0) ?_ (fun j _ hj => by omega) le_rfl
    (by rw [List.length_append]; omega)
  rw [ubxDataBody, if_pos (by simp [ubxHeaderAt, h0, h1]),
    if_neg (by rw [List.length_append]; omega), if_pos h2, h3, hlen]
  simp only
  rw [if_neg (by rw [List.length_append]; omega), hslice, hs0, hs1, if_pos rfl]

lemma ubxDataPack_scans_gap {w rest : List UInt8} (hw : UBX_HEADER_B5 ∉ w) :
    ubxDataPack.Scans behind IsNavFrame UBX_HEADER_B5 2 w rest := by
  by_cases h4 : 4 ≤ w.length
  · exact .skip (ubxDataContent_gap behind hw h4) h4 fun hc => hw (List.mem_of_mem_take hc)
  · -- a window of less than four bytes is not scanned
    refine .divided ?_ (ubxDataPartContent_gap behind hw) (List.append_nil w).symm hw (Or.inl rfl)
    show ubxDataContent _ _ = _
    rw [ubxDataContent, if_neg h4]

/-- A window that ends with the beginning of a packet. -/
lemma ubxDataPack_scans_prefix {g v rest f s : List UInt8} (hok : UbxWindowOk (g ++ v))
    (hg : UBX_HEADER_B5 ∉ g) (hidx : (g ++ v).findIdx (· = UBX_HEADER_B5) = g.length) (hv : v ≠ [])
    (hf : IsNavFrame f) (hfs : v ++ rest = f ++ s) (hlt : v.length < f.length) :
    ubxDataPack.Scans behind IsNavFrame UBX_HEADER_B5 2 (g ++ v) rest := by
  have hvpos : 1 ≤ v.length := List.length_pos_iff.2 hv
  have hgw : (g ++ v).length = g.length + v.length := List.length_append
  have hpre : v <+: f := prefix_of_append_eq hfs hlt.le
  by_cases hskip : v.length = 1 ∨ (v.length = 3 ∧ 4 ≤ (g ++ v).length)
  · -- too little of the packet: bytes before it are skipped
    have hg4 : 4 ≤ g.length := by
      rcases hskip with h1 | ⟨h3, h4⟩
      · have := hok.sync (by rw [hidx, hgw, h1])
        omega
      · have := hok.head (by rw [hidx, hgw, h3])
        omega
    have hcontent := ubxDataContent_begun behind hg hf hpre hlt hvpos hok.room (by omega)
    rw [if_pos (by tauto)] at hcontent
    refine .skip hcontent (show 4 ≤ _ by omega) ?_
    show UBX_HEADER_B5 ∉ (g ++ v).take 4
    rw [List.take_append_of_le_length hg4]
    exact fun hc => hg (List.mem_of_mem_take hc)
  · -- the beginning is saved
    have h2 : 2 ≤ v.length := by omega
    have hcontent : ubxDataContent (checkBuff behind (g ++ v)) (g ++ v).length = .divided := by
      by_cases h4 : 4 ≤ (g ++ v).length
      · rw [ubxDataContent_begun behind hg hf hpre hlt hvpos hok.room h4, if_neg (by omega)]
      · rw [ubxDataContent, if_neg h4]
    refine .divided hcontent ?_ rfl hg (Or.inr ⟨h2, f, s, hf, hfs, hlt⟩)
    obtain ⟨id, body, hfb, hflen, -⟩ := hf
    have hfl := navPackLen_bounds hflen
    obtain ⟨t, ht⟩ : ∃ t, v = UBX_HEADER_B5 :: UBX_HEADER_62 :: t := by
      obtain ⟨z, hz⟩ := hpre
      rw [hfb] at hz
      rcases v with _ | ⟨a, _ | ⟨b, v⟩⟩
      · simp at h2
      · simp at h2
      · simp only [List.cons_append, List.cons.injEq] at hz
        exact ⟨v, by rw [hz.1, hz.2.1]⟩
    refine ubxDataPartContent_eq behind hg h2 ?_ ht
    simp only [UBX_SIGNAL_PACK_LEN]
    omega

/-- A whole packet in the window is its beginning. -/
lemma UbxWindowOk.eq_nil {g f t : List UInt8} (hok : UbxWindowOk (g ++ (f ++ t)))
    (hidx : (g ++ (f ++ t)).findIdx (· = UBX_HEADER_B5) = g.length) (hf : IsNavFrame f) : g = [] := by
  obtain ⟨id, body, hfb, hflen, -⟩ := hf
  have hfl := navPackLen_bounds hflen
  have hid : (g ++ (f ++ t))[(g ++ (f ++ t)).findIdx (· = UBX_HEADER_B5) + 3]? = some id := by
    rw [hidx, List.getElem?_append_right (by omega), Nat.add_sub_cancel_left,
      List.getElem?_append_left (by omega), hfb]
    rfl
  have hg0 := hok.whole f.length (by rw [hid]; exact hflen) (by
    rw [hidx, List.length_append, List.length_append]
    omega)
  rwa [hidx, List.length_eq_zero_iff] at hg0

/-- **Every call on an allowed window does to the stream what it should.** -/
lemma ubxDataPack_reads : ubxDataPack.Reads behind IsNavFrame UBX_HEADER_B5 2 UbxWindowOk := by
  refine Framer.reads_of_scans navCode (by decide) (fun w hok => hok.room.le) ?_
  intro w rest fs _ hok ht
  by_cases hB : UBX_HEADER_B5 ∈ w
  · obtain ⟨g, v, f, s, rfl, hg, hidx, hv, hf, hfs⟩ := ht.in_window navCode hB
    by_cases hcmp : f.length ≤ v.length
    · -- a whole packet: it stands at the start of the window
      obtain ⟨t, rfl⟩ := prefix_of_append_eq hfs.symm hcmp
      obtain rfl := hok.eq_nil hidx hf
      exact .found (g := []) (f := f) (t := t) (ubxDataContent_whole behind hf) rfl hg hf
    · exact ubxDataPack_scans_prefix behind hok hg hidx hv hf hfs (not_le.1 hcmp)
  · exact ubxDataPack_scans_gap behind hB

end

/-- **UBX framing and reads.**  For every stream of NAV packets and other bytes without
`B5`, every division of it into reads that stay behind the reader, and calls of
`ubx_data_pack` in between whose windows meet `UbxWindowOk`: at each point of the run, whatever
of the stream is still to come, the packets returned are the first packets of the stream.  When
nothing more comes, as many calls as there are unread bytes read them all, and the packets
returned are all packets of the stream. -/
theorem ubx_frames_delivered (behind : Bytes) (frames : List (List UInt8))
    (acts : List LinkAction) (rest : List UInt8)
    (hstream : Tiles IsNavFrame UBX_HEADER_B5 frames (Link.received acts ++ rest))
    (hallowed : Runs.Along (Link.step ubxDataPack behind) (Link.Allowed UbxWindowOk) Link.init acts) :
    ∃ s, Runs.run (Link.step ubxDataPack behind) Link.init acts = some s ∧ s.delivered <+: frames ∧
      (rest = [] → ∀ n ≥ s.unread,
        Runs.Along (Link.step ubxDataPack behind) (Link.Allowed UbxWindowOk) s (List.replicate n .parse) →
          ∃ s', Runs.run (Link.step ubxDataPack behind) s (List.replicate n .parse) = some s' ∧
            s'.ring.head = s'.ring.tail ∧ s'.delivered = frames) :=
  Link.delivers navCode (ubxDataPack_reads behind) hstream hallowed

/-- A NAV-STATUS packet with a cleared payload. -/
def sampleStatus : List UInt8 :=
  [0xB5, 0x62, 0x01, 0x03, 0x10, 0x00] ++ List.replicate 16 0 ++ [0x14, 0x6D]

lemma isNavFrame_sampleStatus : IsNavFrame sampleStatus :=
  ⟨0x03, _, rfl, by decide, by decide⟩

/-- A packet that comes in two reads is returned by the calls behind the second one. -/
theorem ubx_frames_delivered_divided : ∃ s s',
    Runs.run (Link.step ubxDataPack fun _ => 0) Link.init
      [.recv (sampleStatus.take 10), .parse, .recv (sampleStatus.drop 10)] = some s ∧
    Runs.run (Link.step ubxDataPack fun _ => 0) s (List.replicate 14 .parse) = some s' ∧
    s.delivered = [] ∧ s'.delivered = [sampleStatus] := by
  have hstream : Tiles IsNavFrame UBX_HEADER_B5 [sampleStatus] (Link.received
      [.recv (sampleStatus.take 10), .parse, .recv (sampleStatus.drop 10)] ++ []) :=
    .frame (g := []) (s := []) (by simp) isNavFrame_sampleStatus (.gap (by simp))
  obtain ⟨s, hs, -, hall⟩ := ubx_frames_delivered (fun _ => 0) [sampleStatus] _ [] hstream (by decide +kernel)
  have hcalls : ((Runs.run (Link.step ubxDataPack fun _ => 0) Link.init
      [.recv (sampleStatus.take 10), .parse, .recv (sampleStatus.drop 10)]).all fun s =>
        decide (s.delivered = [] ∧ 14 ≥ s.unread ∧ Runs.Along (Link.step ubxDataPack fun _ => 0)
          (Link.Allowed UbxWindowOk) s (List.replicate 14 .parse))) = true := by decide +kernel
  rw [hs, Option.all_some, decide_eq_true_eq] at hcalls
  obtain ⟨s', hs', -, hd⟩ := hall rfl 14 hcalls.2.1 hcalls.2.2
  exact ⟨s, s', hs, hs', hcalls.1, hd⟩

/-- **A packet behind another byte is lost.**  The stream is one byte and a packet, read at
once.  The checksum is looked for at the wrong place, and the calls skip the packet. -/
theorem ubx_frame_lost :
    Tiles IsNavFrame UBX_HEADER_B5 [sampleStatus] (0x00 :: sampleStatus) ∧
    ((Runs.run (Link.step ubxDataPack fun _ => 0) Link.init
      (.recv (0x00 :: sampleStatus) :: List.replicate 7 .parse)).any fun s =>
        decide (s.ring.head = s.ring.tail ∧ s.delivered = [])) = true := by
  constructor
  · exact .frame (g := [0x00]) (s := []) (by decide) isNavFrame_sampleStatus (.gap (by simp))
  · decide +kernel

end DeviceTools
