/-
A receiver and one parser.

The receiver stores bytes in the ring, the parser is called when there are unread bytes, and
the packets that it returns are collected.  The main result is about an arbitrary parser: if
each of its calls drops bytes before the next frame, keeps the beginning of a frame, or takes
a whole frame out of the stream, and moves on in the ring (`Reads`), then the packets returned
are the frames of the stream, however the stream is divided into reads and whenever the parser
is called, and as many calls as there are unread bytes return all that are left.
-/
import DeviceTools.Gps.Parser
import DeviceTools.Lib.Framing
import DeviceTools.Lib.Runs

namespace DeviceTools

open Framing Memory

/-- The ring, the saved part of a packet, and the packets returned so far. -/
structure Link where
  ring : RingBuffer UInt8
  part : List UInt8
  delivered : List (List UInt8)

/-- The steps: the receiver reads bytes, or the parser is called. -/
inductive LinkAction where
  | recv (bytes : List UInt8)
  | parse

namespace Link

/-- The state after the threads have cleared their buffers. -/
def init : Link := ⟨⟨fun _ => 0, 0, 0⟩, [], []⟩

/-- One step.  `read` returns at most the bytes up to the end of the ring; the parser is
called only if the two positions differ. -/
def step (F : Framer) (behind : Bytes) (s : Link) : LinkAction → Option Link
  | .recv bytes =>
      if MAX_BUFF_LEN - s.ring.head < bytes.length then none
      else some { s with ring := s.ring.write MAX_BUFF_LEN bytes }
  | .parse =>
      if s.ring.head = s.ring.tail then some s
      else (F.pack behind s.part s.ring).map fun r =>
        ⟨r.ring, r.part, s.delivered ++ if r.offset.isSome then [r.data] else []⟩

/-- The bytes that the reads of a run bring, in order. -/
def received (acts : List LinkAction) : List UInt8 :=
  acts.flatMap fun a =>
    match a with
    | .recv bytes => bytes
    | .parse => []

/-- The number of unread bytes. -/
def unread (s : Link) : ℕ := (s.ring.head + MAX_BUFF_LEN - s.ring.tail) % MAX_BUFF_LEN

/-- The reads do not go past the end of the ring or up to the reader, and the window of
each call meets a condition. -/
def Allowed (windowOk : List UInt8 → Prop) (s : Link) : LinkAction → Prop
  | .recv bytes => bytes.length ≤ MAX_BUFF_LEN - s.ring.head ∧ s.unread + bytes.length < MAX_BUFF_LEN
  | .parse => s.ring.head ≠ s.ring.tail → windowOk (s.part ++ s.ring.fresh MAX_BUFF_LEN)

instance (windowOk : List UInt8 → Prop) [DecidablePred windowOk] (s : Link) :
    ∀ a, Decidable (s.Allowed windowOk a)
  | .recv _ => inferInstanceAs (Decidable (_ ∧ _))
  | .parse => inferInstanceAs (Decidable (_ → _))

end Link

/-- The saved part is empty, or it has at least `m` bytes and is a proper beginning of the
frame that the stream starts with. -/
def PartOk (IsFrame : List UInt8 → Prop) (m : ℕ) (part stream : List UInt8) : Prop :=
  part = [] ∨ m ≤ part.length ∧ ∃ f s, IsFrame f ∧ stream = f ++ s ∧ part.length < f.length

/-- What a call does to a stream: it takes the next frame, or it drops bytes before the next
frame and saves the beginning of the frame. -/
def Taken (IsFrame : List UInt8 → Prop) (sync : UInt8) (m : ℕ) (r : PackResult) (n : ℕ)
    (stream : List UInt8) : Prop :=
  (∃ g f s, stream = g ++ (f ++ s) ∧ sync ∉ g ∧ IsFrame f ∧ r.offset.isSome = true ∧ r.data = f ∧
    r.part = [] ∧ n = g.length + f.length) ∨
  (∃ g s, stream = g ++ (r.part ++ s) ∧ sync ∉ g ∧ r.offset = none ∧
    PartOk IsFrame m r.part (r.part ++ s) ∧ n = g.length + r.part.length)

/-- Every call on an allowed window of a stream of frames is defined, moves the read
position on within the bytes it saw, by at least one, and does to the stream what it should. -/
def Framer.Reads (F : Framer) (behind : Bytes) (IsFrame : List UInt8 → Prop) (sync : UInt8) (m : ℕ)
    (windowOk : List UInt8 → Prop) : Prop :=
  ∀ (part rest : List UInt8) (r : RingBuffer UInt8) (fs : List (List UInt8)),
    r.fresh MAX_BUFF_LEN ≠ [] → windowOk (part ++ r.fresh MAX_BUFF_LEN) →
    Tiles IsFrame sync fs (part ++ r.fresh MAX_BUFF_LEN ++ rest) →
    PartOk IsFrame m part (part ++ r.fresh MAX_BUFF_LEN ++ rest) →
    ∃ res n, F.pack behind part r = some res ∧
      res.ring = r.setTail MAX_BUFF_LEN (r.tail + n) ∧ 0 < n ∧ n ≤ (r.fresh MAX_BUFF_LEN).length ∧
      Taken IsFrame sync m res (part.length + n) (part ++ r.fresh MAX_BUFF_LEN ++ rest)

/-- What the scans of a call make of a window: they drop bytes before the next frame, they find the
next frame, or they save the beginning of it, which is empty if no frame begins in the window. -/
inductive Framer.Scans (F : Framer) (behind : Bytes) (IsFrame : List UInt8 → Prop) (sync : UInt8) (m : ℕ)
    (w rest : List UInt8) : Prop
  | skip (hc : F.content (checkBuff behind w) w.length = .nothing) (hk : F.skip ≤ w.length)
      (hg : sync ∉ w.take F.skip)
  | found {g f t : List UInt8}
      (hc : F.content (checkBuff behind w) w.length = .found g.length f.length)
      (heq : w = g ++ (f ++ t)) (hg : sync ∉ g) (hf : IsFrame f)
  | divided {g v : List UInt8} (hc : F.content (checkBuff behind w) w.length = .divided)
      (hsaved : F.partContent (checkBuff behind w) w.length = v) (heq : w = g ++ v) (hg : sync ∉ g)
      (hv : PartOk IsFrame m v (v ++ rest))

section
variable {IsFrame : List UInt8 → Prop} {sync : UInt8} {m : ℕ}

lemma taken_skip {w rest : List UInt8} {k : ℕ} (ring : RingBuffer UInt8) (hk : k ≤ w.length)
    (hg : sync ∉ w.take k) : Taken IsFrame sync m ⟨none, [], ring, []⟩ k (w ++ rest) := by
  refine Or.inr ⟨w.take k, w.drop k ++ rest, ?_, hg, rfl, Or.inl rfl, ?_⟩
  · rw [List.nil_append, ← List.append_assoc, List.take_append_drop]
  · simp [hk]

/-- A call that drops bytes before the next frame and saves the beginning of the frame. -/
lemma taken_keep {g v rest : List UInt8} (ring : RingBuffer UInt8) (hg : sync ∉ g)
    (hv : PartOk IsFrame m v (v ++ rest)) :
    Taken IsFrame sync m ⟨none, [], ring, v⟩ (g.length + v.length) (g ++ v ++ rest) :=
  Or.inr ⟨g, rest, by simp, hg, rfl, hv, rfl⟩

/-- A window that starts with a saved part starts with `sync`. -/
lemma PartOk.starts (C : Code IsFrame sync) {part fresh rest : List UInt8}
    (h : PartOk IsFrame m part (part ++ fresh ++ rest)) (hne : part ≠ []) :
    ∃ t, part = sync :: t := by
  rcases h with h | ⟨-, f, s, hf, hfs, -⟩
  · exact absurd h hne
  · obtain ⟨t, rfl⟩ := C.cons hf
    cases part with
    | nil => exact absurd rfl hne
    | cons a part =>
        simp only [List.cons_append, List.cons.injEq] at hfs
        exact ⟨part, by rw [hfs.1]⟩

lemma PartOk.eq_nil (C : Code IsFrame sync) {part fresh rest g : List UInt8}
    (h : PartOk IsFrame m part (part ++ fresh ++ rest)) (hpre : g <+: part ++ fresh) (hne : g ≠ [])
    (hg : sync ∉ g) : part = [] := by
  by_contra hpart
  obtain ⟨t, rfl⟩ := h.starts C hpart
  obtain ⟨b, g, rfl⟩ := List.exists_cons_of_ne_nil hne
  rw [List.cons_append, List.cons_prefix_cons] at hpre
  exact hg (by simp [hpre.1])

lemma PartOk.length_lt (C : Code IsFrame sync) {part f s : List UInt8} (hf : IsFrame f)
    (h : PartOk IsFrame m part (f ++ s)) : part.length < f.length := by
  rcases h with rfl | ⟨-, f', s', hf', hfs, hlt⟩
  · exact List.length_pos_of_mem (C.mem hf)
  · rw [C.free _ _ _ _ hf hf' hfs]
    exact hlt

variable {F : Framer} {behind : Bytes} {windowOk : List UInt8 → Prop}

/-- **From windows to calls.**  A call does to the stream what it should if the scans of its window
do. -/
lemma Framer.reads_of_scans (C : Code IsFrame sync) (hskip : 0 < F.skip)
    (hroom : ∀ w, windowOk w → w.length ≤ MAX_BUFF_LEN)
    (hscans : ∀ w rest fs, w ≠ [] → windowOk w → Tiles IsFrame sync fs (w ++ rest) →
      F.Scans behind IsFrame sync m w rest) :
    F.Reads behind IsFrame sync m windowOk := by
  intro part rest r fs hne hok ht hp
  have hlen := hroom _ hok
  have hw : part ++ r.fresh MAX_BUFF_LEN ≠ [] := fun hc => hne (List.append_eq_nil_iff.1 hc).2
  have hsplit : (part ++ r.fresh MAX_BUFF_LEN).length = part.length + (r.fresh MAX_BUFF_LEN).length :=
    List.length_append
  cases hscans _ rest fs hw hok ht with
  | skip hc hk hg =>
      -- the bytes skipped are not those of a saved part
      have hpart : part = [] := by
        refine hp.eq_nil C (List.take_prefix F.skip _) ?_ hg
        rw [ne_eq, List.take_eq_nil_iff, not_or]
        exact ⟨hskip.ne', hw⟩
      subst hpart
      refine ⟨_, F.skip, pack_skip hlen hc hk, rfl, hskip, hk, ?_⟩
      rw [List.length_nil, Nat.zero_add]
      exact taken_skip _ hk hg
  | @found g f t hc heq hg hf =>
      have hplt : part.length < g.length + f.length := by
        by_cases hgne : g = []
        · subst hgne
          rw [heq, List.nil_append, List.append_assoc] at hp
          exact (hp.length_lt C hf).trans_le (Nat.le_add_left _ _)
        · rw [hp.eq_nil C (heq ▸ List.prefix_append _ _) hgne hg]
          exact Nat.add_pos_left (List.length_pos_iff.2 hgne) _
      have hgf : g.length + f.length ≤ (part ++ r.fresh MAX_BUFF_LEN).length := by
        rw [heq, List.length_append, List.length_append]
        omega
      refine ⟨_, g.length + f.length - part.length, pack_found hlen hc hplt.le, rfl, by omega, by omega, ?_⟩
      refine Or.inl ⟨g, f, t ++ rest, ?_, hg, hf, rfl, ?_, rfl, by omega⟩
      · rw [heq]
        simp
      · dsimp only
        rw [slice_checkBuff behind hgf, heq, List.drop_left, List.take_left]
  | @divided g v hc hsaved heq hg hv =>
      refine ⟨_, (r.fresh MAX_BUFF_LEN).length, pack_divided hlen hc, rfl, List.length_pos_iff.2 hne, le_rfl, ?_⟩
      rw [hsaved, ← hsplit, heq, List.length_append]
      exact taken_keep _ hg hv

/-- What a call does to the frames that are still to come. -/
lemma Taken.tiles (C : Code IsFrame sync) {r : PackResult} {n : ℕ} {stream : List UInt8}
    {fs : List (List UInt8)} (h : Taken IsFrame sync m r n stream)
    (ht : Tiles IsFrame sync fs stream) :
    ∃ fs', fs = (if r.offset.isSome then [r.data] else []) ++ fs' ∧
      Tiles IsFrame sync fs' (r.part ++ stream.drop n) ∧
      PartOk IsFrame m r.part (r.part ++ stream.drop n) := by
  rcases h with ⟨g, f, s, rfl, hg, hf, hoff, hdata, hpart, rfl⟩ | ⟨g, s, rfl, hg, hoff, hok, rfl⟩
  · obtain ⟨fs', rfl, ht'⟩ := (ht.drop_gap C hg).take_frame C hf
    have hdrop : (g ++ (f ++ s)).drop (g.length + f.length) = s := by
      rw [← List.append_assoc, ← List.length_append, List.drop_left]
    refine ⟨fs', by simp [hoff, hdata], ?_, Or.inl hpart⟩
    rw [hpart, hdrop]
    exact ht'
  · have hdrop : (g ++ (r.part ++ s)).drop (g.length + r.part.length) = s := by
      rw [← List.append_assoc, ← List.length_append, List.drop_left]
    rw [hdrop]
    exact ⟨fs, by simp [hoff], ht.drop_gap C hg, hok⟩

lemma RingBuffer.Holds.unread_eq {s : Link} {u : List UInt8} (h : s.ring.Holds MAX_BUFF_LEN u) :
    s.unread = u.length := by
  have ht := h.tail_lt; have hl := h.length_lt; have hhead := h.head_eq
  rw [Link.unread, hhead]
  simp only [MAX_BUFF_LEN] at *
  omega

/-! ### Runs -/

/-- Where a run stands: the unread bytes, the bytes that are still to be received, and the frames
that are still to be returned. -/
structure Link.Stands (IsFrame : List UInt8 → Prop) (sync : UInt8) (m : ℕ) (s : Link) (u rest : List UInt8)
    (fs : List (List UInt8)) : Prop where
  holds : s.ring.Holds MAX_BUFF_LEN u
  tiles : Tiles IsFrame sync fs (s.part ++ (u ++ rest))
  part : PartOk IsFrame m s.part (s.part ++ (u ++ rest))

section
variable {s : Link} {u rest : List UInt8} {fs : List (List UInt8)}

/-- The receiver reads bytes. -/
lemma Link.Stands.recv {bytes : List UInt8} (h : Link.Stands IsFrame sync m s u (bytes ++ rest) fs)
    (hallowed : s.Allowed windowOk (.recv bytes)) :
    ∃ s', Link.step F behind s (.recv bytes) = some s' ∧ s'.delivered = s.delivered ∧
      Link.Stands IsFrame sync m s' (u ++ bytes) rest fs := by
  obtain ⟨hend, hroom⟩ := hallowed
  rw [RingBuffer.Holds.unread_eq h.holds] at hroom
  refine ⟨{ s with ring := s.ring.write MAX_BUFF_LEN bytes }, ?_, rfl, h.holds.write hend hroom, ?_, ?_⟩
  · rw [Link.step, if_neg (not_lt.2 hend)]
  · rw [List.append_assoc u]
    exact h.tiles
  · rw [List.append_assoc u]
    exact h.part

/-- **A call with unread bytes** reads at least one of them, and returns what it takes out of the
frames. -/
lemma Link.Stands.parse (C : Code IsFrame sync) (hF : F.Reads behind IsFrame sync m windowOk)
    (h : Link.Stands IsFrame sync m s u rest fs) (hne : u ≠ []) (hallowed : s.Allowed windowOk .parse) :
    ∃ s' n ds fs', Link.step F behind s .parse = some s' ∧ 0 < n ∧ s'.delivered = s.delivered ++ ds ∧
      fs = ds ++ fs' ∧ Link.Stands IsFrame sync m s' (u.drop n) rest fs' := by
  obtain ⟨hu, ht, hp⟩ := h
  have heq : s.ring.head ≠ s.ring.tail := fun hc => hne (hu.head_eq_tail_iff.1 hc)
  have hfresh := hu.fresh_eq hne
  have htl := hu.tail_lt
  -- the unread bytes are those of the window and those behind the end of the ring
  obtain ⟨v, hv⟩ : ∃ v, u = s.ring.fresh MAX_BUFF_LEN ++ v :=
    ⟨u.drop (MAX_BUFF_LEN - s.ring.tail), by rw [hfresh, List.take_append_drop]⟩
  have hfne : s.ring.fresh MAX_BUFF_LEN ≠ [] := by
    have hpos := List.length_pos_iff.2 hne
    rw [hfresh, ne_eq, ← List.length_eq_zero_iff, List.length_take]
    omega
  have hstream : s.part ++ (u ++ rest) = s.part ++ s.ring.fresh MAX_BUFF_LEN ++ (v ++ rest) := by
    conv_lhs => rw [hv]
    simp
  rw [hstream] at ht hp
  obtain ⟨res, n, hpack, hring, hpos, hn, htaken⟩ := hF s.part _ s.ring fs hfne (hallowed heq) ht hp
  obtain ⟨fs', hfs, ht', hp'⟩ := htaken.tiles C ht
  have hnu : n ≤ u.length := by
    rw [hv, List.length_append]
    omega
  have hntail : s.ring.tail + n ≤ MAX_BUFF_LEN := by
    rw [hfresh, List.length_take] at hn
    omega
  have hdrop : (s.part ++ s.ring.fresh MAX_BUFF_LEN ++ (v ++ rest)).drop (s.part.length + n) =
      u.drop n ++ rest := by
    rw [← hstream, ← List.drop_drop, List.drop_left, List.drop_append_of_le_length hnu]
  rw [hdrop] at ht' hp'
  refine ⟨⟨res.ring, res.part, s.delivered ++ if res.offset.isSome then [res.data] else []⟩, n, _, fs', ?_,
    hpos, rfl, hfs, ?_, ht', hp'⟩
  · rw [Link.step, if_neg heq, hpack, Option.map_some]
  · rw [hring]
    exact hu.setTail hnu hntail

lemma Link.Stands.idle (h : Link.Stands IsFrame sync m s [] rest fs) : Link.step F behind s .parse = some s := by
  rw [Link.step, if_pos (h.holds.head_eq_tail_iff.2 rfl)]

/-- When everything has been read, no frame is left. -/
lemma Link.Stands.eq_nil (C : Code IsFrame sync) (h : Link.Stands IsFrame sync m s [] [] fs) : fs = [] := by
  have ht := h.tiles
  have hp := h.part
  simp only [List.append_nil] at ht hp
  -- a saved part would be a whole frame
  have hpart : s.part = [] := by
    rcases hp with hp | ⟨-, f, t, -, hft, hlt⟩
    · exact hp
    · have hlen := congrArg List.length hft
      rw [List.length_append] at hlen
      omega
  rw [hpart] at ht
  exact ht.eq_nil C List.not_mem_nil

end

/-- **A run takes the frames out of the stream one after the other.** -/
lemma Link.run_reads (C : Code IsFrame sync) (hF : F.Reads behind IsFrame sync m windowOk) {rest : List UInt8}
    (acts : List LinkAction) : ∀ {s : Link} {u : List UInt8} {fs : List (List UInt8)},
      Link.Stands IsFrame sync m s u (Link.received acts ++ rest) fs →
      Runs.Along (Link.step F behind) (Link.Allowed windowOk) s acts →
      ∃ s' u' ds fs', Runs.run (Link.step F behind) s acts = some s' ∧ s'.delivered = s.delivered ++ ds ∧
        fs = ds ++ fs' ∧ Link.Stands IsFrame sync m s' u' rest fs' := by
  induction acts with
  | nil =>
      intro s u fs h _
      exact ⟨s, u, [], fs, rfl, (List.append_nil _).symm, rfl, h⟩
  | cons a acts ih =>
      rintro s u fs h ⟨hallowed, hrest⟩
      cases a with
      | recv bytes =>
          have hreceived : Link.received (.recv bytes :: acts) ++ rest = bytes ++ (Link.received acts ++ rest) := by
            simp [Link.received]
          rw [hreceived] at h
          obtain ⟨s₁, hs₁, hd₁, h₁⟩ := h.recv hallowed
          obtain ⟨s', u', ds, fs', hr, hd, hfs, h'⟩ := ih h₁ (hrest s₁ hs₁)
          exact ⟨s', u', ds, fs', by rw [Runs.run_cons_of_step hs₁, hr], by rw [hd, hd₁], hfs, h'⟩
      | parse =>
          by_cases hne : u = []
          · subst hne
            obtain ⟨s', u', ds, fs', hr, hd, hfs, h'⟩ := ih h (hrest s h.idle)
            exact ⟨s', u', ds, fs', by rw [Runs.run_cons_of_step h.idle, hr], hd, hfs, h'⟩
          · obtain ⟨s₁, n, ds₁, fs₁, hs₁, -, hd₁, hfs₁, h₁⟩ := Link.Stands.parse C hF h hne hallowed
            obtain ⟨s', u', ds, fs', hr, hd, hfs, h'⟩ := ih h₁ (hrest s₁ hs₁)
            refine ⟨s', u', ds₁ ++ ds, fs', by rw [Runs.run_cons_of_step hs₁, hr], ?_, ?_, h'⟩
            · rw [hd, hd₁, List.append_assoc]
            · rw [hfs₁, hfs, List.append_assoc]

/-- **Enough calls read everything.**  As many calls as there are unread bytes return all frames that
are left. -/
lemma Link.run_drains (C : Code IsFrame sync) (hF : F.Reads behind IsFrame sync m windowOk) {n : ℕ} :
    ∀ {s : Link} {u : List UInt8} {fs : List (List UInt8)}, Link.Stands IsFrame sync m s u [] fs → u.length ≤ n →
      Runs.Along (Link.step F behind) (Link.Allowed windowOk) s (List.replicate n .parse) →
      ∃ s', Runs.run (Link.step F behind) s (List.replicate n .parse) = some s' ∧
        s'.ring.head = s'.ring.tail ∧ s'.delivered = s.delivered ++ fs := by
  induction n with
  | zero =>
      intro s u fs h hlen _
      obtain rfl := List.length_eq_zero_iff.1 (Nat.le_zero.1 hlen)
      exact ⟨s, rfl, h.holds.head_eq_tail_iff.2 rfl, by rw [h.eq_nil C, List.append_nil]⟩
  | succ n ih =>
      rintro s u fs h hlen ⟨hallowed, hrest⟩
      by_cases hne : u = []
      · subst hne
        obtain ⟨s', hr, heq, hd⟩ := ih h (Nat.zero_le n) (hrest s h.idle)
        exact ⟨s', by rw [List.replicate_succ, Runs.run_cons_of_step h.idle, hr], heq, hd⟩
      · obtain ⟨s₁, k, ds, fs', hs₁, hpos, hd₁, hfs, h₁⟩ := Link.Stands.parse C hF h hne hallowed
        have hlen₁ : (u.drop k).length ≤ n := by
          rw [List.length_drop]
          omega
        obtain ⟨s', hr, heq, hd⟩ := ih h₁ hlen₁ (hrest s₁ hs₁)
        exact ⟨s', by rw [List.replicate_succ, Runs.run_cons_of_step hs₁, hr], heq,
          by rw [hd, hd₁, hfs, List.append_assoc]⟩

/-- **The packets returned are the frames of the stream.**  At every point of an allowed run they
are the first frames of the stream, and when nothing more comes, as many calls as there are unread
bytes make them all of the frames. -/
lemma Link.delivers (C : Code IsFrame sync) (hF : F.Reads behind IsFrame sync m windowOk)
    {acts : List LinkAction} {rest : List UInt8} {fs : List (List UInt8)}
    (ht : Tiles IsFrame sync fs (Link.received acts ++ rest))
    (halong : Runs.Along (Link.step F behind) (Link.Allowed windowOk) Link.init acts) :
    ∃ s, Runs.run (Link.step F behind) Link.init acts = some s ∧ s.delivered <+: fs ∧
      (rest = [] → ∀ n ≥ s.unread,
        Runs.Along (Link.step F behind) (Link.Allowed windowOk) s (List.replicate n .parse) →
          ∃ s', Runs.run (Link.step F behind) s (List.replicate n .parse) = some s' ∧
            s'.ring.head = s'.ring.tail ∧ s'.delivered = fs) := by
  obtain ⟨s, u, ds, fs', hr, hd, hfs, h⟩ := Link.run_reads C hF acts
    ⟨RingBuffer.holds_nil (by decide) _, ht, Or.inl rfl⟩ halong
  refine ⟨s, hr, ⟨fs', by rw [hfs, hd]; rfl⟩, ?_⟩
  rintro rfl n hn hcalls
  rw [RingBuffer.Holds.unread_eq h.holds] at hn
  obtain ⟨s', hr', heq, hd'⟩ := Link.run_drains C hF h hn hcalls
  exact ⟨s', hr', heq, by rw [hd', hd, hfs]; rfl⟩

end

end DeviceTools
