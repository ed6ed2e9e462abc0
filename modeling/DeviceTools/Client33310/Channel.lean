/-
The packs of the 33310 protocol arrive as they were sent.

Whatever `send` does, the bytes that the socket takes are the beginning of the bytes of the packs,
and all of them when every pack was sent.  Whatever `recv` does, a message that is received is the
beginning of the bytes that were unread.  So the receiver, which starts with the first byte of a
pack, takes exactly the head and the data of that pack and is then at the first byte of the next
one.
-/
import DeviceTools.Client33310.Pack

namespace DeviceTools.Client33310

open ByteWord

/-! ### The sender -/

/-- The socket takes the beginning of the bytes offered, and all of them when 0 is returned. -/
lemma sendLoop_spec (subPackFlag : Bool) (ios : List SendIo) : ∀ content : List UInt8,
    (sendLoop subPackFlag ios content).stream <+: content ∧
    ((sendLoop subPackFlag ios content).status = .ok →
      (sendLoop subPackFlag ios content).stream = content) := by
  induction ios with
  | nil => intro content; simp [sendLoop]
  | cons io ios ih =>
      intro content
      cases io with
      | fails => simp [sendLoop]
      | wouldBlock => exact ih content
      | takes k =>
          simp only [sendLoop]
          generalize min k (if subPackFlag = true ∧ 1460 < content.length then 1460
            else content.length) = rc
          split
          · exact ⟨List.prefix_refl _, fun _ => rfl⟩
          · -- the rest is sent from the place where `send` stopped
            obtain ⟨hp, hok⟩ := ih (content.drop rc)
            refine ⟨?_, fun h => ?_⟩
            · calc content.take rc ++ (sendLoop subPackFlag ios (content.drop rc)).stream
                  <+: content.take rc ++ content.drop rc := (List.prefix_append_right_inj _).2 hp
                _ = content := List.take_append_drop rc content
            · rw [hok h, List.take_append_drop]

lemma tcpSendPack_spec (p : Pack) (ios : List SendIo) :
    (tcpSendPack p ios).stream <+: p.bytes ∧
    ((tcpSendPack p ios).status = .ok → (tcpSendPack p ios).stream = p.bytes) := by
  rw [tcpSendPack, tcpSendMsg]
  split
  · exact ⟨List.nil_prefix, fun h => by simp at h⟩
  · exact sendLoop_spec _ ios p.bytes

/-- **What the socket has taken** is the beginning of the bytes of the packs, and all of them when
every call returned 0. -/
lemma tcpSendPacks_spec (packs : List Pack) : ∀ ios : List SendIo,
    (tcpSendPacks packs ios).stream <+: packs.flatMap Pack.bytes ∧
    ((tcpSendPacks packs ios).status = .ok →
      (tcpSendPacks packs ios).stream = packs.flatMap Pack.bytes) := by
  induction packs with
  | nil => intro ios; simp [tcpSendPacks]
  | cons p ps ih =>
      intro ios
      obtain ⟨hp, hok⟩ := tcpSendPack_spec p ios
      simp only [tcpSendPacks, List.flatMap_cons]
      split
      · next hstatus =>
          obtain ⟨hps, hoks⟩ := ih (tcpSendPack p ios).ios
          rw [hok hstatus]
          exact ⟨(List.prefix_append_right_inj _).2 hps, fun h => by rw [hoks h]⟩
      · next hstatus => exact ⟨hp.trans (List.prefix_append _ _), fun h => absurd h hstatus⟩

/-! ### Receiving a message -/

/-- The number of turns in which `recv` can give bytes. -/
def giving (ios : List RecvIo) : ℕ := ios.countP fun io => io matches .gives _

/-- What `TcpRecvMsg` has done: the bytes taken are the beginning of the unread ones, as many as
asked for when it returned 0; and each turn that could give bytes has given some, unless nothing
was left to read. -/
structure Takes (length : ℕ) (unread : List UInt8) (ios : List RecvIo) (r : Received) : Prop where
  split : unread = r.content ++ r.unread
  le : r.content.length ≤ length
  full : r.status = .ok → r.content.length = length
  short : r.status = .busy → r.content.length < length
  used : r.status = .ok → giving ios ≤ giving r.ios + r.content.length
  starved : r.status = .busy → r.unread = [] ∨ giving ios ≤ r.content.length

lemma takes_recvLoop (ios : List RecvIo) : ∀ (length nTimeOut : ℕ) (unread : List UInt8),
    Takes length unread ios (recvLoop ios length nTimeOut unread) := by
  induction ios with
  | nil =>
      intro length nTimeOut unread
      cases length with
      | zero => exact ⟨rfl, le_rfl, fun _ => rfl, by simp [recvLoop], by simp [recvLoop, giving], by simp [recvLoop]⟩
      | succ length =>
          exact ⟨rfl, by simp [recvLoop], by simp [recvLoop], by simp [recvLoop], by simp [recvLoop],
            fun _ => Or.inr (by simp [giving])⟩
  | cons io ios ih =>
      intro length nTimeOut unread
      cases length with
      | zero => exact ⟨rfl, le_rfl, fun _ => rfl, by simp [recvLoop], by simp [recvLoop], by simp [recvLoop]⟩
      | succ length =>
          have hfailed : ∀ code, Takes (length + 1) unread (io :: ios) ⟨.failed code, [], unread, ios⟩ :=
            fun code => ⟨rfl, by simp, by simp, by simp, by simp, by simp⟩
          cases io with
          | timeout =>
              simp only [recvLoop]
              split
              · exact hfailed (-2)
              · have h := ih (length + 1) (nTimeOut + 1) unread
                exact ⟨h.split, h.le, h.full, h.short, by simpa [giving] using h.used,
                  by simpa [giving] using h.starved⟩
          | selectFails => exact hfailed (-3)
          | noBytes => exact hfailed (-4)
          | recvFails => exact hfailed (-1)
          | gives k =>
              have hgiving : giving (.gives k :: ios) = giving ios + 1 := by simp [giving]
              simp only [recvLoop]
              split
              · -- nothing is unread: nothing is received from here on
                next hnil =>
                  subst hnil
                  have h := ih (length + 1) nTimeOut []
                  obtain ⟨hcontent, hunread⟩ := List.nil_eq_append_iff.1 h.split
                  refine ⟨h.split, h.le, h.full, h.short, fun hok => ?_, fun _ => Or.inl hunread⟩
                  have := h.full hok
                  rw [hcontent] at this
                  simp at this
              · next hne =>
                  have hpos : 0 < unread.length := List.length_pos_iff.2 hne
                  obtain ⟨rc, hrc⟩ : ∃ rc, min (k + 1) (min (length + 1) unread.length) = rc := ⟨_, rfl⟩
                  rw [hrc]
                  have h := ih (length + 1 - rc) 0 (unread.drop rc)
                  have hlen : (unread.take rc).length = rc := by
                    rw [List.length_take]
                    omega
                  refine ⟨?_, ?_, fun hok => ?_, fun hb => ?_, fun hok => ?_, fun hb => ?_⟩
                  · rw [List.append_assoc, ← h.split, List.take_append_drop]
                  · have := h.le
                    rw [List.length_append, hlen]
                    omega
                  · have := h.full hok
                    rw [List.length_append, hlen, this]
                    omega
                  · have := h.short hb
                    rw [List.length_append, hlen]
                    omega
                  · have := h.used hok
                    dsimp only
                    rw [List.length_append, hlen, hgiving]
                    omega
                  · rcases h.starved hb with hu | hu
                    · exact Or.inl hu
                    · refine Or.inr ?_
                      rw [List.length_append, hlen, hgiving]
                      omega

lemma takes_tcpRecvMsg (length : ℕ) (hlength : length ≠ 0) (unread : List UInt8) (ios : List RecvIo) :
    Takes length unread ios (tcpRecvMsg length unread ios) := by
  rw [tcpRecvMsg, if_neg hlength]
  exact takes_recvLoop ios length 0 unread

lemma Takes.eq_of_extends {length : ℕ} {unread part more : List UInt8} {ios : List RecvIo} {r : Received}
    (h : Takes length unread ios r) (hok : r.status = .ok) (hpart : part.length = length)
    (hunread : unread <+: part ++ more) : r.content = part ∧ r.unread <+: more := by
  obtain ⟨t, ht⟩ := hunread
  rw [h.split, List.append_assoc] at ht
  obtain ⟨hcontent, hrest⟩ := List.append_inj ht (by rw [h.full hok, hpart])
  exact ⟨hcontent, t, hrest⟩

/-- A message whose bytes are all there, with enough turns to take them, does not keep the
receiver waiting. -/
lemma Takes.not_busy {length : ℕ} {unread : List UInt8} {ios : List RecvIo} {r : Received}
    (h : Takes length unread ios r) (hlen : length ≤ unread.length) (hios : unread.length ≤ giving ios) :
    r.status ≠ .busy := by
  intro hb
  have hshort := h.short hb
  rcases h.starved hb with hu | hu
  · have := congrArg List.length h.split
    rw [hu, List.append_nil] at this
    omega
  · omega

/-! ### Receiving a pack -/

lemma length_head (p : Pack) : p.head.length = HEAD_SIZE := by
  simp [Pack.head, HEAD_SIZE]

/-- The members of the head are read as they were written. -/
lemma head_fields (p : Pack) :
    beNat (field p.head 0 2) = PROTOCOL_HEAD_FLAG ∧ beNat (field p.head 2 2) = p.index.toNat ∧
    (p.head[4]?).getD 0 = p.packType ∧ (p.head[5]?).getD 0 = p.subType ∧
    beNat (field p.head 6 4) = p.data.length := by
  have hlen : p.data.length < 256 ^ 4 := lt_of_le_of_lt p.length_le (by decide)
  have hindex : p.index.toNat < 256 ^ 2 := by simpa using p.index.toNat_lt
  refine ⟨?_, ?_, by simp [Pack.head], by simp [Pack.head], ?_⟩
  · rw [Pack.head, field_zero_append _ (by simp), beNat_beBytes_of_lt (by decide)]
  · rw [Pack.head, field_append_right _ _ (by simp), beBytes_length, field_zero_append _ (by simp),
      beNat_beBytes_of_lt hindex]
  · have hfield : field p.head 6 4 = beBytes 4 p.data.length := by
      rw [Pack.head, field_append_right _ _ (by simp), field_append_right _ _ (by simp)]
      simp [field]
    rw [hfield, beNat_beBytes_of_lt hlen]

/-- What `TcpRecvPack` does when it has received the head of a pack. -/
lemma tcpRecvPack_of_head {p : Pack} {unread : List UInt8} {ios : List RecvIo} {h d : Received}
    (hh : tcpRecvMsg HEAD_SIZE unread ios = h) (hok : h.status = .ok) (hcontent : h.content = p.head)
    (hd : tcpRecvMsg p.data.length h.unread h.ios = d) :
    (p.data = [] ∧ tcpRecvPack unread ios = ⟨.ok, some p.protocolPack, h.unread, h.ios⟩) ∨
    (p.data ≠ [] ∧ ((d.status = .busy ∧ tcpRecvPack unread ios = ⟨.busy, none, d.unread, d.ios⟩) ∨
      ((∃ code, d.status = .failed code) ∧
        tcpRecvPack unread ios = ⟨.failed (-2), none, d.unread, d.ios⟩) ∨
      (d.status = .ok ∧ tcpRecvPack unread ios =
        ⟨.ok, some { p.protocolPack with data := d.content }, d.unread, d.ios⟩))) := by
  obtain ⟨hflag, hindex, hpack, hsub, hdata⟩ := head_fields p
  have hle : ¬ DATA_MAX_LEN < p.data.length := not_lt.2 p.length_le
  rw [tcpRecvPack]
  simp only [hh, hok, hcontent, hflag, hindex, hpack, hsub, hdata, hd, ne_eq, not_true_eq_false,
    if_false, if_neg hle]
  by_cases hnil : p.data = []
  · refine Or.inl ⟨hnil, ?_⟩
    rw [if_pos (by rw [hnil]; rfl), Pack.protocolPack, hnil]
  · refine Or.inr ⟨hnil, ?_⟩
    rw [if_neg fun hc => hnil (List.length_eq_zero_iff.1 hc)]
    cases hstatus : d.status with
    | busy => exact Or.inl ⟨rfl, rfl⟩
    | failed code => exact Or.inr (Or.inl ⟨⟨code, rfl⟩, rfl⟩)
    | ok => exact Or.inr (Or.inr ⟨rfl, rfl⟩)

lemma tcpRecvPack_of_not_ok {unread : List UInt8} {ios : List RecvIo}
    (h : (tcpRecvMsg HEAD_SIZE unread ios).status ≠ .ok) :
    (tcpRecvPack unread ios).status ≠ .ok ∧
    ((tcpRecvPack unread ios).status = .busy ↔ (tcpRecvMsg HEAD_SIZE unread ios).status = .busy) := by
  rw [tcpRecvPack]
  cases hstatus : (tcpRecvMsg HEAD_SIZE unread ios).status with
  | busy => simp
  | failed code => simp
  | ok => exact absurd hstatus h

/-- **One pack.**  At the first byte of a pack, a call that returns 0 delivers the pack, and the
receiver is then at the first byte behind it; the turns it has used up are no more than the bytes
of the pack. -/
lemma tcpRecvPack_ok {p : Pack} {unread more : List UInt8} {ios : List RecvIo}
    (hunread : unread <+: p.bytes ++ more) (hok : (tcpRecvPack unread ios).status = .ok) :
    (tcpRecvPack unread ios).pack = some p.protocolPack ∧
    unread = p.bytes ++ (tcpRecvPack unread ios).unread ∧
    (tcpRecvPack unread ios).unread <+: more ∧
    giving ios ≤ giving (tcpRecvPack unread ios).ios + p.bytes.length := by
  have hhok : (tcpRecvMsg HEAD_SIZE unread ios).status = .ok := by
    by_contra hc
    exact (tcpRecvPack_of_not_ok hc).1 hok
  have hh := takes_tcpRecvMsg HEAD_SIZE (by decide) unread ios
  rw [Pack.bytes, List.append_assoc] at hunread
  obtain ⟨hcontent, hmore⟩ := hh.eq_of_extends hhok (length_head p) hunread
  have hsplit := hh.split
  have hused := hh.used hhok
  rw [hcontent] at hsplit hused
  rcases tcpRecvPack_of_head rfl hhok hcontent rfl with
    ⟨hnil, he⟩ | ⟨hne, ⟨-, he⟩ | ⟨-, he⟩ | ⟨hdok, he⟩⟩
  · rw [he, Pack.bytes, hnil, List.append_nil]
    rw [hnil, List.nil_append] at hmore
    exact ⟨rfl, hsplit, hmore, hused⟩
  · rw [he] at hok; simp at hok
  · rw [he] at hok; simp at hok
  · have hd := takes_tcpRecvMsg p.data.length (fun hc => hne (List.length_eq_zero_iff.1 hc))
      (tcpRecvMsg HEAD_SIZE unread ios).unread (tcpRecvMsg HEAD_SIZE unread ios).ios
    obtain ⟨hdcontent, hdmore⟩ := hd.eq_of_extends hdok rfl hmore
    have hdsplit := hd.split
    have hdused := hd.used hdok
    rw [hdcontent] at hdsplit hdused
    rw [he, Pack.bytes, hdcontent]
    refine ⟨rfl, ?_, hdmore, ?_⟩
    · rw [List.append_assoc, ← hdsplit, ← hsplit]
    · rw [List.length_append]
      dsimp only
      omega

/-- A pack whose bytes are all there, with enough turns to take them, does not keep the receiver
waiting. -/
lemma tcpRecvPack_not_busy {p : Pack} {more : List UInt8} {ios : List RecvIo}
    (hios : (p.bytes ++ more).length ≤ giving ios) :
    (tcpRecvPack (p.bytes ++ more) ios).status ≠ .busy := by
  have hh := takes_tcpRecvMsg HEAD_SIZE (by decide) (p.bytes ++ more) ios
  have hlen : HEAD_SIZE ≤ (p.bytes ++ more).length := by
    rw [Pack.bytes, List.length_append, List.length_append, length_head]
    omega
  by_cases hhok : (tcpRecvMsg HEAD_SIZE (p.bytes ++ more) ios).status = .ok
  · have hbytes : p.bytes ++ more = p.head ++ (p.data ++ more) := by
      rw [Pack.bytes, List.append_assoc]
    obtain ⟨hcontent, -⟩ := hh.eq_of_extends hhok (length_head p)
      (by rw [hbytes] : p.bytes ++ more <+: p.head ++ (p.data ++ more))
    have hsplit := hh.split
    have hused := hh.used hhok
    rw [hcontent] at hsplit hused
    rcases tcpRecvPack_of_head rfl hhok hcontent rfl with
      ⟨-, he⟩ | ⟨hne, ⟨hbusy, -⟩ | ⟨-, he⟩ | ⟨-, he⟩⟩
    · rw [he]; simp
    · -- the data is there, too
      have hd := takes_tcpRecvMsg p.data.length (fun hc => hne (List.length_eq_zero_iff.1 hc))
        (tcpRecvMsg HEAD_SIZE (p.bytes ++ more) ios).unread
        (tcpRecvMsg HEAD_SIZE (p.bytes ++ more) ios).ios
      have hrest := List.append_cancel_left (hbytes.symm.trans hsplit)
      have htotal : (p.bytes ++ more).length = p.head.length + (p.data ++ more).length := by
        rw [hbytes, List.length_append]
      refine absurd hbusy (hd.not_busy ?_ ?_)
      · rw [← hrest, List.length_append]; omega
      · rw [← hrest]; omega
    · rw [he]; simp
    · rw [he]; simp
  · rw [Ne, (tcpRecvPack_of_not_ok hhok).2]
    exact hh.not_busy hlen hios

/-! ### The channel -/

/-- The receiver gets a beginning of the packs whose bytes are under way, and all of them when it
makes as many calls, none of them fails, and there are enough turns to take the bytes. -/
lemma tcpRecvPacks_spec (calls : ℕ) : ∀ (packs : List Pack) (unread : List UInt8) (ios : List RecvIo),
    unread <+: packs.flatMap Pack.bytes →
    (tcpRecvPacks calls unread ios).delivered <+: packs.map Pack.protocolPack ∧
    (unread = packs.flatMap Pack.bytes → packs.length ≤ calls → unread.length ≤ giving ios →
      (∀ code, (tcpRecvPacks calls unread ios).status ≠ .failed code) →
      (tcpRecvPacks calls unread ios).delivered = packs.map Pack.protocolPack) := by
  induction calls with
  | zero =>
      intro packs unread ios _
      refine ⟨List.nil_prefix, fun _ hcalls _ _ => ?_⟩
      rw [List.length_eq_zero_iff.1 (Nat.le_zero.1 hcalls)]
      rfl
  | succ calls ih =>
      intro packs unread ios hunread
      by_cases hok : (tcpRecvPack unread ios).status = .ok
      · cases packs with
        | nil =>
            -- there are no bytes for a head
            exfalso
            have hnil := List.prefix_nil.1 hunread
            have hh := takes_tcpRecvMsg HEAD_SIZE (by decide) unread ios
            have hhok : (tcpRecvMsg HEAD_SIZE unread ios).status = .ok := by
              by_contra hc
              exact (tcpRecvPack_of_not_ok hc).1 hok
            have hfull := hh.full hhok
            have hsplit := congrArg List.length hh.split
            rw [hnil, List.length_append, List.length_nil] at hsplit
            rw [hnil] at hfull
            simp only [HEAD_SIZE] at hfull hsplit
            omega
        | cons p ps =>
            obtain ⟨hpack, hsplit, hmore, hused⟩ := tcpRecvPack_ok (by simpa using hunread) hok
            obtain ⟨hpre, hall⟩ := ih ps (tcpRecvPack unread ios).unread (tcpRecvPack unread ios).ios hmore
            have hstep : tcpRecvPacks (calls + 1) unread ios =
                ⟨p.protocolPack :: (tcpRecvPacks calls (tcpRecvPack unread ios).unread
                    (tcpRecvPack unread ios).ios).delivered,
                  (tcpRecvPacks calls (tcpRecvPack unread ios).unread
                    (tcpRecvPack unread ios).ios).status⟩ := by
              simp [tcpRecvPacks, hok, hpack]
            rw [hstep, List.map_cons]
            refine ⟨(List.prefix_cons_inj _).2 hpre, fun heq hcalls hios hfail => ?_⟩
            have hrest : (tcpRecvPack unread ios).unread = ps.flatMap Pack.bytes := by
              rw [List.flatMap_cons, hsplit] at heq
              exact List.append_cancel_left heq
            have hlen := congrArg List.length hsplit
            rw [List.length_append] at hlen
            simp only [List.length_cons] at hcalls
            rw [hall hrest (by omega) (by omega) hfail]
      · have hstep : tcpRecvPacks (calls + 1) unread ios = ⟨[], (tcpRecvPack unread ios).status⟩ := by
          simp only [tcpRecvPacks]
          split
          · next h _ => exact absurd h hok
          · rfl
        rw [hstep]
        refine ⟨List.nil_prefix, fun heq _ hios hfail => ?_⟩
        cases packs with
        | nil => rfl
        | cons p ps =>
            -- the call has not failed, and it is not waiting either
            exfalso
            rw [List.flatMap_cons] at heq
            rw [heq] at hios hok hfail
            have hbusy := tcpRecvPack_not_busy hios
            cases hstatus : (tcpRecvPack (p.bytes ++ ps.flatMap Pack.bytes) ios).status with
            | ok => exact hok hstatus
            | failed code => exact hfail code hstatus
            | busy => exact hbusy hstatus

/-- **The framing is a faithful channel.**  For every sequence of packs, whatever `send` and `recv`
do: the packs delivered by successive calls of `TcpRecvPack`, up to the first that does not return
0, are a beginning of the packs sent, with the same flag, index, types, length and data.  They are
all of them when every call of `TcpSendPack` returned 0, as many calls of `TcpRecvPack` are made, no
call fails, and there are enough turns in which `recv` can give bytes. -/
theorem packs_delivered (packs : List Pack) (sendIos : List SendIo) (calls : ℕ) (recvIos : List RecvIo) :
    let sent := tcpSendPacks packs sendIos
    let received := tcpRecvPacks calls sent.stream recvIos
    received.delivered <+: packs.map Pack.protocolPack ∧
    (sent.status = .ok → packs.length ≤ calls → (∀ code, received.status ≠ .failed code) →
      sent.stream.length ≤ giving recvIos → received.delivered = packs.map Pack.protocolPack) := by
  intro sent received
  obtain ⟨hpre, hall⟩ := tcpSendPacks_spec packs sendIos
  obtain ⟨hdel, heq⟩ := tcpRecvPacks_spec calls packs sent.stream recvIos hpre
  exact ⟨hdel, fun hok hcalls hfail hios => heq (hall hok) hcalls hios hfail⟩

/-- A request with three bytes of data, and a heartbeat. -/
def samplePacks : List Pack :=
  [⟨7, 3, 7, [0x61, 0x62, 0x63], by decide⟩, ⟨8, 7, 2, [], by decide⟩]

/-- Both packs are sent in pieces and received in pieces. -/
theorem packs_delivered_sample :
    (tcpRecvPacks 2 (tcpSendPacks samplePacks [.takes 4, .wouldBlock, .takes 100, .takes 10]).stream
      (.timeout :: List.replicate 23 (.gives 2))).delivered = samplePacks.map Pack.protocolPack := by
  have hok : (tcpRecvPacks 2 (tcpSendPacks samplePacks
      [.takes 4, .wouldBlock, .takes 100, .takes 10]).stream
      (.timeout :: List.replicate 23 (.gives 2))).status = .ok := by decide +kernel
  refine (packs_delivered samplePacks [.takes 4, .wouldBlock, .takes 100, .takes 10] 2
    (.timeout :: List.replicate 23 (.gives 2))).2 (by decide +kernel) (by decide) (fun code => ?_)
    (by decide +kernel)
  rw [hok]
  simp

end DeviceTools.Client33310
