/-
The download of a response.

`recv_data_dl` waits with `wselect`, receives up to 1440 bytes into a cleared buffer and hands them
to the write callback, until `content_len` bytes have come.  What is too much in the last piece is
taken off again.  The result of `recv` is kept in a `size_t`, so that the branch for a negative
result is never taken: a failed `recv` is dealt with as a piece of 2^32 - 1 bytes.

The environment decides each turn of the loop, and a write callback is set.
-/
import DeviceTools.Http.Session

namespace DeviceTools.Http

/-- A piece of the stream, as one call of `recv` gives it. -/
structure Chunk where
  bytes : List UInt8
  ne_nil : bytes ≠ []
  length_le : bytes.length ≤ MRJ_DOWN_PERSIZE
deriving DecidableEq

/-- What `recv` does: it gives bytes, finds the connection closed, or fails. -/
inductive Recv where
  | gives (chunk : Chunk)
  | closed
  | fails
deriving DecidableEq

/-- A turn of the loop: what `wselect` and `recv` do, whether the callback returns the length it is
given, and whether the time is over behind it. -/
structure Turn where
  select : Select
  recv : Recv
  accepts : Bool
  timeUp : Bool
deriving DecidableEq

/-- The bytes that `recv` has just received. -/
def Recv.bytes : Recv → List UInt8
  | .gives chunk => chunk.bytes
  | .closed => []
  | .fails => []

/-- The result of `recv`, as a `size_t`. -/
def Recv.perBytes : Recv → ℕ
  | .gives chunk => chunk.bytes.length
  | .closed => 0
  | .fails => MINUS_ONE

/-- A call of the write callback: the bytes just received, the content of `recv_buff`, and the
length that is passed. -/
structure Call where
  received : List UInt8
  recvBuff : List UInt8
  len : ℕ
deriving DecidableEq, Repr

/-- The data that is passed, as far as the buffer goes. -/
def Call.data (c : Call) : List UInt8 := c.recvBuff.take c.len

/-- The cleared buffer, with the received bytes at its start. -/
def recvBuff (bytes : List UInt8) : List UInt8 :=
  bytes ++ List.replicate (MRJ_MAX_BUFSIZE - bytes.length) 0

/-- A download: the calls of the callback, the bytes received, and the value returned, `none` while
the loop is running. -/
structure Download where
  calls : List Call
  stream : List UInt8
  status : Option MRJEcode
deriving DecidableEq

/-- A turn that has made a call in front of what follows. -/
def Download.after (d : Download) (call : Call) : Download :=
  ⟨call :: d.calls, call.received ++ d.stream, d.status⟩

/-- The counter and the length that is left of `perBytes`, when the counter has passed
`contentLen` or not. -/
def takeOff (contentLen alreadyBytes perBytes : ℕ) : ℕ × ℕ :=
  if contentLen < alreadyBytes then
    (contentLen, (perBytes + SIZE_T - (alreadyBytes - contentLen)) % SIZE_T)
  else (alreadyBytes, perBytes)

/-- The loop of `recv_data_dl`. -/
def recvLoopDl (contentLen : ℕ) : List Turn → ℕ → Download
  | [], _ => ⟨[], [], none⟩
  | t :: turns, alreadyBytes =>
      -- the end of the loop body, with the counter that it has left
      let next := fun alreadyBytes =>
        if t.timeUp then ⟨[], [], some .MRJE_TIME_OUT⟩
        else if alreadyBytes < contentLen then recvLoopDl contentLen turns alreadyBytes
        else ⟨[], [], some .MRJE_OK⟩
      match t.select with
      | .timeout => ⟨[], [], some .MRJE_TIME_OUT⟩
      | .fails => ⟨[], [], some .MRJE_SELECTFAL⟩
      | .ready =>
          let perBytes := t.recv.perBytes
          if 0 < perBytes then
            let (already, len) := takeOff contentLen ((alreadyBytes + perBytes) % SIZE_T) perBytes
            let call := ⟨t.recv.bytes, recvBuff t.recv.bytes, len⟩
            if t.accepts then (next already).after call
            else ⟨[call], t.recv.bytes, some .MRJE_WRITE_ERROR⟩
          else if perBytes = 0 then
            if alreadyBytes < contentLen then ⟨[], [], some .MRJE_DISCONNHOST⟩ else next alreadyBytes
          else
            if alreadyBytes < contentLen then ⟨[], [], some .MRJE_NOCOMPLETERES⟩ else next alreadyBytes

/-- `recv_data_dl`. -/
def recvDataDl (contentLen : ℕ) (turns : List Turn) : Download := recvLoopDl contentLen turns 0

/-- What a download is to keep: success is reported only when exactly the first `content_len` bytes
of the stream have been passed, and no call has a length above the number of bytes received. -/
structure Truthful (contentLen : ℕ) (d : Download) : Prop where
  exact : d.status = some .MRJE_OK → d.calls.flatMap Call.data = d.stream.take contentLen
  bounded : ∀ c ∈ d.calls, c.len ≤ c.received.length

/-- The turns do not lead the counter astray.  Behind a turn that ends the loop nothing matters;
in a turn that `select` has reported `recv` must not fail, and the counter must not have been taken
past `SIZE_T` when it comes to the end. -/
def CountsRight (contentLen : ℕ) : List Turn → Bool → ℕ → Prop
  | [], _, _ => True
  | t :: turns, wrapped, alreadyBytes =>
      t.select = .ready →
        match t.recv with
        | .closed => True
        | .fails => False
        | .gives chunk =>
            t.accepts = true → t.timeUp = false →
              let next := alreadyBytes + chunk.bytes.length
              if SIZE_T ≤ next then CountsRight contentLen turns true (next - SIZE_T)
              else if contentLen ≤ next then wrapped = false
              else CountsRight contentLen turns wrapped next

/-! ### One turn -/

lemma SIZE_T_eq : SIZE_T = 4294967296 := rfl

lemma Chunk.length_pos (chunk : Chunk) : 0 < chunk.bytes.length := List.length_pos_iff.2 chunk.ne_nil

lemma data_chunk {bytes : List UInt8} {len : ℕ} (h : len ≤ bytes.length) :
    Call.data ⟨bytes, recvBuff bytes, len⟩ = bytes.take len := by
  rw [Call.data, recvBuff, List.take_append_of_le_length h]

section

variable {contentLen alreadyBytes : ℕ}

/-- A counter that passes `SIZE_T` becomes small, and nothing is taken off. -/
lemma takeOff_wrapped {k : ℕ} (hn : contentLen < SIZE_T) (ha : alreadyBytes < contentLen) (hk : k ≤ MRJ_DOWN_PERSIZE)
    (h : SIZE_T ≤ alreadyBytes + k) :
    takeOff contentLen ((alreadyBytes + k) % SIZE_T) k = (alreadyBytes + k - SIZE_T, k) := by
  have hsize := SIZE_T_eq
  have hmod : (alreadyBytes + k) % SIZE_T = alreadyBytes + k - SIZE_T := by
    rw [MRJ_DOWN_PERSIZE] at hk
    rw [Nat.mod_eq_sub_mod h, Nat.mod_eq_of_lt (by omega)]
  rw [hmod, takeOff, if_neg (by rw [MRJ_DOWN_PERSIZE] at hk; omega)]

lemma takeOff_short {k : ℕ} (hn : contentLen < SIZE_T) (h : alreadyBytes + k < contentLen) :
    takeOff contentLen ((alreadyBytes + k) % SIZE_T) k = (alreadyBytes + k, k) := by
  rw [Nat.mod_eq_of_lt (h.trans hn), takeOff, if_neg (by omega)]

lemma takeOff_last {k : ℕ} (ha : alreadyBytes < contentLen) (hlt : alreadyBytes + k < SIZE_T)
    (h : contentLen ≤ alreadyBytes + k) :
    takeOff contentLen ((alreadyBytes + k) % SIZE_T) k = (contentLen, contentLen - alreadyBytes) := by
  rw [Nat.mod_eq_of_lt hlt, takeOff]
  split
  case isTrue hpast =>
    rw [show k + SIZE_T - (alreadyBytes + k - contentLen) = contentLen - alreadyBytes + SIZE_T by omega,
      Nat.add_mod_right, Nat.mod_eq_of_lt (by omega)]
  case isFalse hpast =>
    rw [show contentLen = alreadyBytes + k by omega, Nat.add_sub_cancel_left]

lemma takeOff_le {k : ℕ} (hn : contentLen < SIZE_T) (ha : alreadyBytes < contentLen) (hk : k ≤ MRJ_DOWN_PERSIZE) :
    (takeOff contentLen ((alreadyBytes + k) % SIZE_T) k).2 ≤ k := by
  by_cases hwrap : SIZE_T ≤ alreadyBytes + k
  · exact (congrArg Prod.snd (takeOff_wrapped hn ha hk hwrap)).le
  · by_cases hlast : contentLen ≤ alreadyBytes + k
    · rw [takeOff_last ha (not_le.1 hwrap) hlast]
      exact Nat.sub_le_iff_le_add'.2 hlast
    · exact (congrArg Prod.snd (takeOff_short hn (not_le.1 hlast))).le

/-- Of a failed `recv` a positive length is left. -/
lemma takeOff_fails (hpos : 0 < contentLen) (hn : contentLen < SIZE_T) (ha : alreadyBytes < contentLen) :
    0 < (takeOff contentLen ((alreadyBytes + MINUS_ONE) % SIZE_T) MINUS_ONE).2 := by
  have hminus : MINUS_ONE = 4294967295 := rfl
  rw [SIZE_T_eq] at hn
  rw [takeOff, hminus, SIZE_T_eq]
  split
  case isTrue h => dsimp only; omega
  case isFalse => exact Nat.succ_pos _

/-! ### What a turn does -/

variable {t : Turn} (turns : List Turn)

lemma recvLoopDl_not_ready (h : t.select ≠ .ready) :
    (recvLoopDl contentLen (t :: turns) alreadyBytes).calls = [] ∧
      (recvLoopDl contentLen (t :: turns) alreadyBytes).status ≠ some .MRJE_OK := by
  rw [recvLoopDl]
  cases hs : t.select with
  | ready => exact absurd hs h
  | timeout => exact ⟨rfl, fun h' => by cases h'⟩
  | fails => exact ⟨rfl, fun h' => by cases h'⟩

lemma recvLoopDl_closed (h : t.select = .ready) (hr : t.recv = .closed) (ha : alreadyBytes < contentLen) :
    recvLoopDl contentLen (t :: turns) alreadyBytes = ⟨[], [], some .MRJE_DISCONNHOST⟩ := by
  simp only [recvLoopDl, h, hr, Recv.perBytes, lt_irrefl, if_false, if_true, if_pos ha]

/-- What follows a turn, with the counter that it has left. -/
def follow (contentLen : ℕ) (t : Turn) (turns : List Turn) (alreadyBytes : ℕ) : Download :=
  if t.timeUp then ⟨[], [], some .MRJE_TIME_OUT⟩
  else if alreadyBytes < contentLen then recvLoopDl contentLen turns alreadyBytes
  else ⟨[], [], some .MRJE_OK⟩

lemma recvLoopDl_call (h : t.select = .ready) (hpos : 0 < t.recv.perBytes) {already len : ℕ}
    (htake : takeOff contentLen ((alreadyBytes + t.recv.perBytes) % SIZE_T) t.recv.perBytes = (already, len)) :
    recvLoopDl contentLen (t :: turns) alreadyBytes =
      if t.accepts then (follow contentLen t turns already).after ⟨t.recv.bytes, recvBuff t.recv.bytes, len⟩
      else ⟨[⟨t.recv.bytes, recvBuff t.recv.bytes, len⟩], t.recv.bytes, some .MRJE_WRITE_ERROR⟩ := by
  simp only [recvLoopDl, h, if_pos hpos, htake, follow]

end

/-! ### Runs -/

/-- No call has a length above the number of bytes received. -/
def Bounded (d : Download) : Prop := ∀ c ∈ d.calls, c.len ≤ c.received.length

/-- The calls are bounded, and success is reported only for the `missing` bytes, and not behind a
counter that has passed `SIZE_T`. -/
def Reports (wrapped : Bool) (missing : ℕ) (d : Download) : Prop :=
  Bounded d ∧ (d.status = some .MRJE_OK →
    wrapped = false ∧ d.calls.flatMap Call.data = d.stream.take missing)

/-- Success was reported only behind enough bytes. -/
def Enough (missing : ℕ) (d : Download) : Prop :=
  Bounded d → d.status = some .MRJE_OK → missing ≤ (d.calls.flatMap Call.data).length

lemma bounded_after {d : Download} {call : Call} :
    Bounded (d.after call) ↔ call.len ≤ call.received.length ∧ Bounded d := List.forall_mem_cons

lemma reports_of_not_ok {d : Download} (hb : Bounded d) (hok : d.status ≠ some .MRJE_OK) (wrapped : Bool)
    (missing : ℕ) : Reports wrapped missing d := ⟨hb, fun h => absurd h hok⟩

lemma enough_of_not_ok {d : Download} (hok : d.status ≠ some .MRJE_OK) (missing : ℕ) : Enough missing d :=
  fun _ h => absurd h hok

section

variable {d : Download} {bytes : List UInt8} {missing : ℕ}

lemma data_full (bytes : List UInt8) : Call.data ⟨bytes, recvBuff bytes, bytes.length⟩ = bytes := by
  rw [data_chunk le_rfl, List.take_length]

lemma reports_after (h : bytes.length ≤ missing) (wrapped : Bool) :
    Reports wrapped missing (d.after ⟨bytes, recvBuff bytes, bytes.length⟩) ↔
      Reports wrapped (missing - bytes.length) d := by
  have hdata : (d.after ⟨bytes, recvBuff bytes, bytes.length⟩).calls.flatMap Call.data =
      bytes ++ d.calls.flatMap Call.data := congrArg (· ++ _) (data_full bytes)
  have htake : (bytes ++ d.stream).take missing = bytes ++ d.stream.take (missing - bytes.length) := by
    rw [List.take_append, List.take_of_length_le h]
  rw [Reports, Reports, bounded_after, hdata]
  change _ ∧ (_ → _ ∧ _ = (bytes ++ d.stream).take missing) ↔ _
  rw [htake, List.append_cancel_left_eq]
  exact ⟨fun h => ⟨h.1.2, h.2⟩, fun h => ⟨⟨le_rfl, h.1⟩, h.2⟩⟩

lemma enough_after {missing' : ℕ} (h : Enough missing' d) (hle : missing ≤ bytes.length + missing') :
    Enough missing (d.after ⟨bytes, recvBuff bytes, bytes.length⟩) := by
  intro hb hok
  have hrest := h (bounded_after.1 hb).2 hok
  change _ ≤ (Call.data ⟨bytes, recvBuff bytes, bytes.length⟩ ++ d.calls.flatMap Call.data).length
  rw [data_full, List.length_append]
  omega

/-- Behind a counter that has passed `SIZE_T` success is reported for too many bytes. -/
lemma reports_wrapped {missing' : ℕ} (h : Enough missing' d) (hlt : missing < bytes.length + missing')
    (wrapped : Bool) (missing'' : ℕ) :
    Reports wrapped missing (d.after ⟨bytes, recvBuff bytes, bytes.length⟩) ↔ Reports true missing'' d := by
  have hdata : (d.after ⟨bytes, recvBuff bytes, bytes.length⟩).calls.flatMap Call.data =
      bytes ++ d.calls.flatMap Call.data := congrArg (· ++ _) (data_full bytes)
  rw [Reports, Reports, bounded_after]
  constructor
  · rintro ⟨⟨-, hb⟩, hexact⟩
    refine ⟨hb, fun hok => ?_⟩
    have hlen := congrArg List.length (hexact hok).2
    have hle := h hb hok
    rw [hdata, List.length_append, List.length_take] at hlen
    omega
  · rintro ⟨hb, hnot⟩
    exact ⟨⟨le_rfl, hb⟩, fun hok => absurd (hnot hok).1 (by decide)⟩

lemma data_last (h : missing ≤ bytes.length) :
    (Download.after ⟨[], [], some .MRJE_OK⟩ ⟨bytes, recvBuff bytes, missing⟩).calls.flatMap Call.data =
      bytes.take missing := by
  change Call.data ⟨bytes, recvBuff bytes, missing⟩ ++ [] = _
  rw [List.append_nil, data_chunk h]

lemma reports_last (h : missing ≤ bytes.length) (wrapped : Bool) :
    Reports wrapped missing (Download.after ⟨[], [], some .MRJE_OK⟩ ⟨bytes, recvBuff bytes, missing⟩) ↔
      wrapped = false := by
  have hbounded : Bounded (Download.after ⟨[], [], some .MRJE_OK⟩ ⟨bytes, recvBuff bytes, missing⟩) :=
    bounded_after.2 ⟨h, fun c hc => absurd hc List.not_mem_nil⟩
  refine ⟨fun hr => (hr.2 rfl).1, fun hw => ⟨hbounded, fun _ => ⟨hw, ?_⟩⟩⟩
  rw [data_last h]
  exact congrArg (List.take missing) (List.append_nil bytes).symm

lemma enough_last (h : missing ≤ bytes.length) :
    Enough missing (Download.after ⟨[], [], some .MRJE_OK⟩ ⟨bytes, recvBuff bytes, missing⟩) := by
  intro _ _
  rw [data_last h, List.length_take, Nat.min_eq_left h]

end

section

variable {contentLen alreadyBytes : ℕ} {t : Turn} (turns : List Turn)

lemma follow_stop (h : t.timeUp = true) (already : ℕ) :
    follow contentLen t turns already = ⟨[], [], some .MRJE_TIME_OUT⟩ := if_pos h

lemma follow_last (h : ¬t.timeUp = true) : follow contentLen t turns contentLen = ⟨[], [], some .MRJE_OK⟩ := by
  rw [follow, if_neg h, if_neg (lt_irrefl _)]

lemma follow_go (h : ¬t.timeUp = true) {already : ℕ} (ha : already < contentLen) :
    follow contentLen t turns already = recvLoopDl contentLen turns already := by
  rw [follow, if_neg h, if_pos ha]

/-- A turn that makes a call and ends the loop without success. -/
lemma recvLoopDl_ends (hn : contentLen < SIZE_T) (ha : alreadyBytes < contentLen) (h : t.select = .ready)
    {chunk : Chunk} (hr : t.recv = .gives chunk) (hends : ¬(t.accepts = true ∧ t.timeUp = false)) :
    Bounded (recvLoopDl contentLen (t :: turns) alreadyBytes) ∧
      (recvLoopDl contentLen (t :: turns) alreadyBytes).status ≠ some .MRJE_OK := by
  have hbytes : t.recv.bytes = chunk.bytes := by rw [hr, Recv.bytes]
  have hper : t.recv.perBytes = chunk.bytes.length := by rw [hr, Recv.perBytes]
  have hle := takeOff_le hn ha chunk.length_le
  obtain ⟨⟨already, len⟩, htake⟩ : ∃ p, takeOff contentLen ((alreadyBytes + chunk.bytes.length) % SIZE_T)
    chunk.bytes.length = p := ⟨_, rfl⟩
  rw [htake] at hle
  rw [← hper] at htake
  have hbounded : Bounded ⟨[⟨t.recv.bytes, recvBuff t.recv.bytes, len⟩], t.recv.bytes, some .MRJE_WRITE_ERROR⟩ := by
    rw [hbytes]
    exact List.forall_mem_singleton.2 hle
  rw [recvLoopDl_call turns h (hper ▸ chunk.length_pos) htake]
  split
  case isTrue haccepts =>
    have htime : t.timeUp = true := by simpa [haccepts] using hends
    rw [follow_stop turns htime]
    exact ⟨hbounded, fun h' => by cases h'⟩
  case isFalse => exact ⟨hbounded, fun h' => by cases h'⟩

lemma recvLoopDl_goes (h : t.select = .ready) {chunk : Chunk} (hr : t.recv = .gives chunk)
    (haccepts : t.accepts = true) {already len : ℕ}
    (htake : takeOff contentLen ((alreadyBytes + chunk.bytes.length) % SIZE_T) chunk.bytes.length = (already, len)) :
    recvLoopDl contentLen (t :: turns) alreadyBytes =
      (follow contentLen t turns already).after ⟨chunk.bytes, recvBuff chunk.bytes, len⟩ := by
  have hbytes : t.recv.bytes = chunk.bytes := by rw [hr, Recv.bytes]
  have hper : t.recv.perBytes = chunk.bytes.length := by rw [hr, Recv.perBytes]
  rw [← hper] at htake
  rw [recvLoopDl_call turns h (hper ▸ chunk.length_pos) htake, if_pos haccepts, hbytes]

/-- What is claimed of the run from a counter on. -/
def RunRight (contentLen : ℕ) (turns : List Turn) (alreadyBytes : ℕ) : Prop :=
  (∀ wrapped, CountsRight contentLen turns wrapped alreadyBytes ↔
    Reports wrapped (contentLen - alreadyBytes) (recvLoopDl contentLen turns alreadyBytes)) ∧
  Enough (contentLen - alreadyBytes) (recvLoopDl contentLen turns alreadyBytes)

/-- A run that can not report success, because of a turn that `CountsRight` lets pass. -/
lemma runRight_of_not_ok (hcounts : ∀ wrapped, CountsRight contentLen turns wrapped alreadyBytes)
    (hb : Bounded (recvLoopDl contentLen turns alreadyBytes))
    (hok : (recvLoopDl contentLen turns alreadyBytes).status ≠ some .MRJE_OK) :
    RunRight contentLen turns alreadyBytes :=
  ⟨fun wrapped => iff_of_true (hcounts wrapped) (reports_of_not_ok hb hok _ _), enough_of_not_ok hok _⟩

/-- **A turn with a chunk.** -/
lemma runRight_gives (hn : contentLen < SIZE_T) (ih : ∀ already < contentLen, RunRight contentLen turns already)
    (ha : alreadyBytes < contentLen) (h : t.select = .ready) {chunk : Chunk} (hr : t.recv = .gives chunk) :
    RunRight contentLen (t :: turns) alreadyBytes := by
  by_cases hgoes : t.accepts = true ∧ t.timeUp = false
  · obtain ⟨haccepts, htime⟩ := hgoes
    have htime' : ¬t.timeUp = true := by simp [htime]
    have hcounts : ∀ wrapped, CountsRight contentLen (t :: turns) wrapped alreadyBytes ↔
        if SIZE_T ≤ alreadyBytes + chunk.bytes.length then
          CountsRight contentLen turns true (alreadyBytes + chunk.bytes.length - SIZE_T)
        else if contentLen ≤ alreadyBytes + chunk.bytes.length then wrapped = false
        else CountsRight contentLen turns wrapped (alreadyBytes + chunk.bytes.length) := by
      intro wrapped
      simp only [CountsRight, h, hr, haccepts, htime, forall_const]
    by_cases hwrap : SIZE_T ≤ alreadyBytes + chunk.bytes.length
    · -- the counter becomes small, and the loop goes on with it
      have hk := chunk.length_le
      rw [MRJ_DOWN_PERSIZE] at hk
      have hsize := SIZE_T_eq
      have hnext : alreadyBytes + chunk.bytes.length - SIZE_T < contentLen := by omega
      obtain ⟨hcr, henough⟩ := ih _ hnext
      have hrun := recvLoopDl_goes turns h hr haccepts (takeOff_wrapped hn ha chunk.length_le hwrap)
      rw [follow_go turns htime' hnext] at hrun
      rw [RunRight, hrun]
      refine ⟨fun wrapped => ?_, enough_after henough (by omega)⟩
      rw [hcounts, if_pos hwrap, hcr, reports_wrapped henough (by omega)]
    · by_cases hlast : contentLen ≤ alreadyBytes + chunk.bytes.length
      · have hrun := recvLoopDl_goes turns h hr haccepts (takeOff_last ha (not_le.1 hwrap) hlast)
        rw [follow_last turns htime'] at hrun
        rw [RunRight, hrun]
        refine ⟨fun wrapped => ?_, enough_last (by omega)⟩
        rw [hcounts, if_neg hwrap, if_pos hlast, reports_last (by omega)]
      · have hnext := not_le.1 hlast
        obtain ⟨hcr, henough⟩ := ih _ hnext
        have hrun := recvLoopDl_goes turns h hr haccepts (takeOff_short hn hnext)
        rw [follow_go turns htime' hnext] at hrun
        rw [RunRight, hrun]
        refine ⟨fun wrapped => ?_, enough_after henough (by omega)⟩
        rw [hcounts, if_neg hwrap, if_neg hlast, hcr, reports_after (by omega), Nat.sub_sub]
  · obtain ⟨hb, hok⟩ := recvLoopDl_ends turns hn ha h hr hgoes
    refine runRight_of_not_ok _ (fun wrapped => ?_) hb hok
    intro _
    rw [hr]
    exact fun haccepts htime => absurd ⟨haccepts, htime⟩ hgoes

/-- **A turn in which `recv` fails** makes a call with a length above 0. -/
lemma runRight_fails (hn : contentLen < SIZE_T) (ha : alreadyBytes < contentLen) (h : t.select = .ready)
    (hr : t.recv = .fails) : RunRight contentLen (t :: turns) alreadyBytes := by
  have hpos := takeOff_fails (Nat.zero_lt_of_lt ha) hn ha
  obtain ⟨⟨already, len⟩, htake⟩ : ∃ p, takeOff contentLen ((alreadyBytes + MINUS_ONE) % SIZE_T) MINUS_ONE = p :=
    ⟨_, rfl⟩
  rw [htake] at hpos
  have hper : t.recv.perBytes = MINUS_ONE := by rw [hr, Recv.perBytes]
  have hbytes : t.recv.bytes = [] := by rw [hr, Recv.bytes]
  have hnot : ¬Bounded (recvLoopDl contentLen (t :: turns) alreadyBytes) := by
    intro hb
    have hcall : (⟨[], recvBuff [], len⟩ : Call) ∈ (recvLoopDl contentLen (t :: turns) alreadyBytes).calls := by
      rw [← hper] at htake
      rw [recvLoopDl_call turns h (by rw [hper]; decide) htake, hbytes]
      split <;> exact List.mem_cons_self
    have hle : len ≤ 0 := hb _ hcall
    omega
  refine ⟨fun wrapped => iff_of_false (fun hc => ?_) fun hrep => hnot hrep.1, fun hb => absurd hb hnot⟩
  have hfalse := hc h
  rw [hr] at hfalse
  exact hfalse

end

/-- **The run of the loop.**  The turns do not lead the counter astray exactly when the run is right
about what is missing; and it never reports success for less. -/
lemma runRight {contentLen : ℕ} (hn : contentLen < SIZE_T) (turns : List Turn) :
    ∀ alreadyBytes < contentLen, RunRight contentLen turns alreadyBytes := by
  induction turns with
  | nil =>
      intro alreadyBytes _
      refine runRight_of_not_ok _ (fun _ => trivial) (by simp [recvLoopDl, Bounded]) ?_
      rw [recvLoopDl]
      exact fun h => by cases h
  | cons t turns ih =>
      intro alreadyBytes ha
      by_cases hready : t.select = .ready
      · cases hrecv : t.recv with
        | gives chunk => exact runRight_gives turns hn ih ha hready hrecv
        | fails => exact runRight_fails turns hn ha hready hrecv
        | closed =>
            have hrun := recvLoopDl_closed turns hready hrecv ha
            refine runRight_of_not_ok _ (fun wrapped => ?_) ?_ ?_
            · intro _
              rw [hrecv]
              trivial
            · rw [hrun]
              simp [Bounded]
            · rw [hrun]
              exact fun h => by cases h
      · obtain ⟨hcalls, hok⟩ := recvLoopDl_not_ready turns hready
        refine runRight_of_not_ok _ (fun wrapped => fun h => absurd h hready) ?_ hok
        rw [Bounded, hcalls]
        simp

lemma takeOff_zero {k : ℕ} (hpos : 0 < k) (hk : k < SIZE_T) : takeOff 0 ((0 + k) % SIZE_T) k = (0, 0) := by
  rw [Nat.zero_add, Nat.mod_eq_of_lt hk, takeOff, if_pos hpos, Nat.sub_zero, Nat.add_sub_cancel_left,
    Nat.mod_self]

lemma Recv.perBytes_lt (r : Recv) : r.perBytes < SIZE_T := by
  cases r with
  | gives chunk => exact chunk.length_le.trans_lt (by decide)
  | closed => exact Nat.succ_pos _
  | fails => exact Nat.lt_succ_self _

lemma follow_zero_calls {t : Turn} (turns : List Turn) : (follow 0 t turns 0).calls = [] := by
  rw [follow, if_neg (lt_irrefl 0)]
  split <;> rfl

/-- When nothing is to come, every call has the length 0. -/
lemma len_eq_zero (turns : List Turn) : ∀ c ∈ (recvDataDl 0 turns).calls, c.len = 0 := by
  cases turns with
  | nil => simp [recvDataDl, recvLoopDl]
  | cons t turns =>
      by_cases hready : t.select = .ready
      · by_cases hpos : 0 < t.recv.perBytes
        · rw [recvDataDl, recvLoopDl_call turns hready hpos (takeOff_zero hpos t.recv.perBytes_lt)]
          split
          case isTrue =>
            change ∀ c ∈ _ :: (follow 0 t turns 0).calls, c.len = 0
            rw [follow_zero_calls]
            simp
          case isFalse => simp
        · have hzero : t.recv.perBytes = 0 := Nat.eq_zero_of_not_pos hpos
          have hcalls : (recvDataDl 0 (t :: turns)).calls = (follow 0 t turns 0).calls := by
            simp only [recvDataDl, recvLoopDl, hready, hzero, lt_irrefl, if_false, if_true, follow]
          rw [hcalls, follow_zero_calls]
          simp
      · rw [recvDataDl, (recvLoopDl_not_ready turns hready).1]
        simp

lemma truthful_zero (turns : List Turn) : Truthful 0 (recvDataDl 0 turns) := by
  refine ⟨fun _ => ?_, fun c hc => (len_eq_zero turns c hc).trans_le (Nat.zero_le _)⟩
  rw [List.take_zero, List.flatMap_eq_nil_iff]
  intro c hc
  rw [Call.data, len_eq_zero turns c hc, List.take_zero]

lemma truthful_iff {contentLen : ℕ} (hn : contentLen < SIZE_T) (hpos : 0 < contentLen) (turns : List Turn) :
    Truthful contentLen (recvDataDl contentLen turns) ↔ CountsRight contentLen turns false 0 := by
  have hright := ((runRight hn turns 0 hpos).1 false).symm
  rw [Nat.sub_zero] at hright
  rw [← hright, recvDataDl]
  exact ⟨fun h => ⟨h.bounded, fun hok => ⟨rfl, h.exact hok⟩⟩, fun h => ⟨fun hok => (h.2 hok).2, h.1⟩⟩

/-- **When a download is truthful.**  For every content length and every sequence of turns: nothing
is to come, or in no turn that the loop takes `recv` fails, and the counter does not pass `SIZE_T`
on the way to a success. -/
theorem recvDataDl_truthful_iff {contentLen : ℕ} (hn : contentLen < SIZE_T) (turns : List Turn) :
    Truthful contentLen (recvDataDl contentLen turns) ↔
      contentLen = 0 ∨ CountsRight contentLen turns false 0 := by
  rcases Nat.eq_zero_or_pos contentLen with rfl | hpos
  · exact iff_of_true (truthful_zero turns) (Or.inl rfl)
  · rw [truthful_iff hn hpos, or_iff_right hpos.ne']

/-- Up to a length of `SIZE_T` less one piece the counter never passes `SIZE_T`, and without a failed
`recv` every download is truthful. -/
lemma truthful_of_no_failure {contentLen : ℕ} (hn : contentLen + MRJ_DOWN_PERSIZE ≤ SIZE_T) {turns : List Turn}
    (hturns : ∀ t ∈ turns, t.recv ≠ .fails) : Truthful contentLen (recvDataDl contentLen turns) := by
  have hcounts : ∀ alreadyBytes < contentLen, CountsRight contentLen turns false alreadyBytes := by
    induction turns with
    | nil => exact fun _ _ => trivial
    | cons t turns ih =>
        intro alreadyBytes ha _
        have hnext := ih fun t' ht' => hturns t' (List.mem_cons_of_mem _ ht')
        cases hrecv : t.recv with
        | closed => trivial
        | fails => exact absurd hrecv (hturns t List.mem_cons_self)
        | gives chunk =>
            intro _ _
            have hle := chunk.length_le
            dsimp only
            rw [if_neg (by omega)]
            split
            case isTrue => rfl
            case isFalse hlast => exact hnext _ (not_le.1 hlast)
  have hpiece : 0 < MRJ_DOWN_PERSIZE := by decide
  rcases Nat.eq_zero_or_pos contentLen with rfl | hpos
  · exact truthful_zero turns
  · exact (truthful_iff (by omega) hpos turns).2 (hcounts 0 hpos)

/-- Two bytes of five, and the rest in a second piece with a byte too many. -/
theorem recvDataDl_two_pieces :
    Truthful 5 (recvDataDl 5
      [⟨.ready, .gives ⟨[0x61, 0x62], by decide, by decide⟩, true, false⟩,
       ⟨.ready, .gives ⟨[0x63, 0x64, 0x65, 0x66], by decide, by decide⟩, true, false⟩]) :=
  (recvDataDl_truthful_iff (by decide) _).2 (Or.inr (by simp [CountsRight, SIZE_T]))

/-- The first `recv` of a download of five bytes fails: five bytes of the cleared buffer are passed,
and success is reported. -/
theorem recvDataDl_failed_recv :
    recvDataDl 5 [⟨.ready, .fails, true, false⟩] =
        ⟨[⟨[], List.replicate MRJ_MAX_BUFSIZE 0, 5⟩], [], some .MRJE_OK⟩ ∧
      ¬Truthful 5 (recvDataDl 5 [⟨.ready, .fails, true, false⟩]) := by
  have hrun : recvDataDl 5 [⟨.ready, .fails, true, false⟩] =
      ⟨[⟨[], List.replicate MRJ_MAX_BUFSIZE 0, 5⟩], [], some .MRJE_OK⟩ := by
    have htake : takeOff 5 ((0 + MINUS_ONE) % SIZE_T) MINUS_ONE = (5, 5) := by decide
    rw [recvDataDl, recvLoopDl_call [] rfl (by decide) htake]
    rfl
  refine ⟨hrun, fun h => ?_⟩
  rw [hrun] at h
  exact absurd (h.bounded _ List.mem_cons_self) (by decide)

end DeviceTools.Http
