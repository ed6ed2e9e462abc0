/-
How a response is received and parsed.

`recv_data` takes one byte at a time and counts the line-break characters that stand together; it
ends at four of them behind the head, and for a POST it is called again and ends at two of them
behind the body.  A failed `recv` gives the result -1 to a `size_t`, so that the last character is
stored once more.  `parse_response` searches the buffer as a C string, although no NUL has been
stored behind the response: what an earlier response has left there is searched, too, and behind
the buffer the option `verbose` stands in memory.

The environment decides each turn of the loop; the allocation of the body succeeds.
-/
import DeviceTools.Http.Number
import DeviceTools.Http.Session
import DeviceTools.Http.Strcasestr

namespace DeviceTools.Http

open CText Dns

def MRJ_HTTPID : List UInt8 := text "HTTP/1.1"
def MRJ_CONTENTLEN : List UInt8 := text "Content-Length:"
def MRJ_ENDOFHEAD : List UInt8 := [CR, LF, CR, LF]

/-! ### Receiving -/

/-- What `recv` of one byte does. -/
inductive RecvByte where
  | gives (ch : UInt8)
  | closed
  | fails
deriving DecidableEq, Repr

/-- The character that is stored, when the last one was `ch`. -/
def RecvByte.store (ch : UInt8) : RecvByte → Option UInt8
  | .gives ch' => some ch'
  | .closed => none
  | .fails => some ch

/-- A turn of the loop: what `wselect` and `recv` do, and whether the time is over behind it. -/
structure ByteTurn where
  select : Select
  recv : RecvByte
  timeUp : Bool
deriving DecidableEq, Repr

/-- What has been received: the value returned, `none` while the loop is running, the bytes stored
in `response_recv`, and the turns that are left. -/
structure Received where
  status : Option MRJEcode
  stored : List UInt8
  turns : List ByteTurn
deriving DecidableEq, Repr

/-- A line-break character. -/
def isBreak (ch : UInt8) : Bool := ch = CR || ch = LF

/-- The counter `over_flag` behind a character. -/
def nextOver (overFlag : ℕ) (ch : UInt8) : ℕ := if isBreak ch then overFlag + 1 else 0

/-- The loop of `recv_data`. -/
def recvLoop (recvFlag : ℕ) : List ByteTurn → UInt8 → ℕ → List UInt8 → Received
  | [], _, _, stored => ⟨none, stored, []⟩
  | t :: turns, ch, overFlag, stored =>
      match t.select with
      | .timeout => ⟨some .MRJE_TIME_OUT, stored, turns⟩
      | .fails => ⟨some .MRJE_SELECTFAL, stored, turns⟩
      | .ready =>
          match t.recv.store ch with
          | none => ⟨some .MRJE_OK, stored, turns⟩
          | some ch =>
              if MRJ_MAX_RESPHEAD ≤ stored.length then ⟨some .MRJE_OUT_OF_MEMORY, stored, turns⟩
              else if t.timeUp then ⟨some .MRJE_TIME_OUT, stored ++ [ch], turns⟩
              else if nextOver overFlag ch < recvFlag then
                recvLoop recvFlag turns ch (nextOver overFlag ch) (stored ++ [ch])
              else ⟨some .MRJE_OK, stored ++ [ch], turns⟩

/-- `recv_data`, with the bytes that are stored already. -/
def recvData (recvFlag : ℕ) (turns : List ByteTurn) (stored : List UInt8) : Received :=
  recvLoop recvFlag turns 0 0 stored

/-- The calls of `recv_data` in `send_hcmd`: one for a GET, two for a POST. -/
def receive (post : Bool) (turns : List ByteTurn) : Received :=
  let r := recvData 4 turns []
  if post ∧ r.status = some .MRJE_OK then recvData 2 r.turns r.stored else r

/-! ### Parsing -/

/-- The number behind a word: the character behind the word is skipped unseen.  Without the word
it is 0. -/
def numberBehind (word m : List UInt8) : ℤ :=
  match pStrcasestr m word with
  | some p => number (m.drop (p + word.length + 1))
  | none => 0

/-- What `parse_response` leaves in the session: `info.httpcode`, `info.content_len`, and the body
of a POST, `none` when it is not allocated. -/
@[ext]
structure Computed where
  httpcode : ℤ
  contentLen : ℕ
  recvData : Option (List UInt8)
deriving DecidableEq, Repr

/-- The body of a POST, from the end of the head on. -/
def bodyAt (contentLen : ℕ) (peoh : List UInt8) : List UInt8 :=
  if contentLen ≠ 0 then strncpy contentLen peoh else strncpy (strlen peoh) peoh

/-- `parse_response` on the memory from `response_recv` on. -/
def parseResponse (post : Bool) (m : List UInt8) : Computed × MRJEcode :=
  let httpcode := numberBehind MRJ_HTTPID m
  let contentLen := toUnsigned (numberBehind MRJ_CONTENTLEN m)
  match pStrcasestr m MRJ_ENDOFHEAD with
  | none => (⟨httpcode, contentLen, none⟩, .MRJE_UNKNOWN)
  | some p =>
      (⟨httpcode, contentLen,
        if post then some (bodyAt contentLen (m.drop (p + MRJ_ENDOFHEAD.length))) else none⟩, .MRJE_OK)

/-- The code for an HTTP status. -/
def codeOf (httpcode : ℤ) : MRJEcode :=
  if httpcode = 200 then .MRJE_OK
  else if httpcode = 206 then .MRJE_OK
  else if httpcode = 400 then .MRJE_HTTP_SERVERE400
  else if httpcode = 401 then .MRJE_HTTP_SERVERE401
  else if httpcode = 403 then .MRJE_HTTP_SERVERE403
  else if httpcode = 404 then .MRJE_HTTP_SERVERE404
  else if httpcode = 500 then .MRJE_HTTP_SERVERE500
  else if httpcode = 503 then .MRJE_HTTP_SERVERE503
  else .MRJE_UNKNOWN

/-! ### Runs of the loop -/

/-- The turns in which these characters arrive. -/
def gives (bs : List UInt8) : List ByteTurn := bs.map fun ch => ⟨.ready, .gives ch, false⟩

/-- The loop goes on behind each of these characters. -/
def GoesOn (recvFlag : ℕ) : ℕ → List UInt8 → Prop
  | _, [] => True
  | overFlag, ch :: bs => nextOver overFlag ch < recvFlag ∧ GoesOn recvFlag (nextOver overFlag ch) bs

instance GoesOn.decide (recvFlag : ℕ) : ∀ overFlag bs, Decidable (GoesOn recvFlag overFlag bs)
  | _, [] => .isTrue trivial
  | overFlag, ch :: bs =>
      have := GoesOn.decide recvFlag (nextOver overFlag ch) bs
      inferInstanceAs (Decidable (_ ∧ _))

lemma goesOn_append {recvFlag : ℕ} {as bs : List UInt8} : ∀ {overFlag : ℕ},
    GoesOn recvFlag overFlag (as ++ bs) ↔
      GoesOn recvFlag overFlag as ∧ GoesOn recvFlag (as.foldl nextOver overFlag) bs := by
  induction as with
  | nil => simp [GoesOn]
  | cons ch as ih =>
      intro overFlag
      rw [List.cons_append, GoesOn, GoesOn, ih, List.foldl_cons, and_assoc]

/-- The characters that arrive are stored. -/
lemma recvLoop_gives {recvFlag : ℕ} {bs : List UInt8} (turns : List ByteTurn) :
    ∀ {overFlag : ℕ} {stored : List UInt8}, GoesOn recvFlag overFlag bs → stored.length + bs.length ≤ MRJ_MAX_RESPHEAD → ∀ ch : UInt8,
    ∃ ch', recvLoop recvFlag (gives bs ++ turns) ch overFlag stored =
      recvLoop recvFlag turns ch' (bs.foldl nextOver overFlag) (stored ++ bs) := by
  induction bs with
  | nil =>
      intro overFlag stored _ _ ch
      exact ⟨ch, by rw [List.append_nil]; rfl⟩
  | cons c bs ih =>
      intro overFlag stored hgo hlen ch
      rw [List.length_cons] at hlen
      have hroom : ¬MRJ_MAX_RESPHEAD ≤ stored.length := by omega
      have hlen' : (stored ++ [c]).length + bs.length ≤ MRJ_MAX_RESPHEAD := by
        rw [List.length_append, List.length_singleton]
        omega
      obtain ⟨ch', h⟩ := ih hgo.2 hlen' c
      refine ⟨ch', ?_⟩
      show recvLoop recvFlag (_ :: (gives bs ++ turns)) ch overFlag stored = _
      simp only [recvLoop, RecvByte.store, if_neg hroom, if_pos hgo.1, Bool.false_eq_true, if_false]
      rw [h, List.append_assoc]
      rfl

lemma recvLoop_last {recvFlag overFlag : ℕ} {c : UInt8} (h : ¬nextOver overFlag c < recvFlag) {stored : List UInt8}
    (hlen : stored.length < MRJ_MAX_RESPHEAD) (turns : List ByteTurn) (ch : UInt8) :
    recvLoop recvFlag (gives [c] ++ turns) ch overFlag stored = ⟨some .MRJE_OK, stored ++ [c], turns⟩ := by
  have hroom : ¬MRJ_MAX_RESPHEAD ≤ stored.length := by omega
  show recvLoop recvFlag (_ :: turns) ch overFlag stored = _
  simp only [recvLoop, RecvByte.store, if_neg hroom, if_neg h, Bool.false_eq_true, if_false]

/-- The buffer is not overrun. -/
lemma length_recvLoop_le {recvFlag : ℕ} {turns : List ByteTurn} :
    ∀ {ch : UInt8} {overFlag : ℕ} {stored : List UInt8}, stored.length ≤ MRJ_MAX_RESPHEAD →
    (recvLoop recvFlag turns ch overFlag stored).stored.length ≤ MRJ_MAX_RESPHEAD := by
  induction turns with
  | nil => exact fun h => h
  | cons t turns ih =>
      intro ch overFlag stored h
      rw [recvLoop]
      split
      · exact h
      · exact h
      · split
        · exact h
        · rename_i c _
          by_cases hfull : MRJ_MAX_RESPHEAD ≤ stored.length
          · rw [if_pos hfull]
            exact h
          · have hstored : (stored ++ [c]).length ≤ MRJ_MAX_RESPHEAD := by
              rw [List.length_append, List.length_singleton]
              omega
            rw [if_neg hfull]
            split_ifs
            · exact hstored
            · exact ih hstored
            · exact hstored

lemma length_receive_le (post : Bool) (turns : List ByteTurn) :
    (receive post turns).stored.length ≤ MRJ_MAX_RESPHEAD := by
  have hfirst : (recvData 4 turns []).stored.length ≤ MRJ_MAX_RESPHEAD := length_recvLoop_le (Nat.zero_le _)
  rw [receive]
  split
  · exact length_recvLoop_le hfirst
  · exact hfirst

/-! ### Sessions -/

/-- The part of a session that a response depends on: the array `response_recv`, and the option
behind it. -/
structure Session where
  responseRecv : List UInt8
  verbose : Bool
  length_eq : responseRecv.length = MRJ_MAX_RESPHEAD

/-- The memory behind `response_recv`: the `int` of the option `verbose`. -/
def Session.behind (s : Session) : List UInt8 := [if s.verbose then 1 else 0, 0, 0, 0]

/-- What stands in memory behind `n` stored bytes. -/
def Session.rest (s : Session) (n : ℕ) : List UInt8 := s.responseRecv.drop n ++ s.behind

/-- What `send_hcmd` does with a response: the value returned, and what it has computed. -/
structure Outcome where
  status : Option MRJEcode
  computed : Option Computed
deriving DecidableEq, Repr

/-- `send_hcmd`, from the request that has been sent on. -/
def sendHcmd (post : Bool) (s : Session) (turns : List ByteTurn) : Outcome :=
  let r := receive post turns
  match r.status with
  | none => ⟨none, none⟩
  | some .MRJE_OK =>
      let (c, status) := parseResponse post (r.stored ++ s.rest r.stored.length)
      ⟨some (if status = .MRJE_OK then codeOf c.httpcode else status), some c⟩
  | some _ => ⟨some .MRJE_RECV_ERROR, none⟩

/-- `http_init`: the session is zeroed. -/
def Session.init : Session := ⟨List.replicate MRJ_MAX_RESPHEAD 0, false, List.length_replicate⟩

/-- `mrjhttp_setopt` with the option `verbose`. -/
def Session.setopt (s : Session) (verbose : Bool) : Session := { s with verbose }

/-- The session behind a transfer. -/
def Session.after (s : Session) (post : Bool) (turns : List ByteTurn) : Session where
  responseRecv := (receive post turns).stored ++ s.responseRecv.drop (receive post turns).stored.length
  verbose := s.verbose
  length_eq := by
    have hle := length_receive_le post turns
    rw [List.length_append, List.length_drop, s.length_eq]
    omega

/-- The sessions that earlier calls have left. -/
inductive Left : Session → Prop
  | init : Left Session.init
  | setopt {s : Session} (verbose : Bool) : Left s → Left (s.setopt verbose)
  | perform {s : Session} (post : Bool) (turns : List ByteTurn) : Left s → Left (s.after post turns)

lemma Session.rest_init {n : ℕ} (h : n ≤ MRJ_MAX_RESPHEAD) :
    Session.init.rest n = List.replicate (MRJ_MAX_RESPHEAD + 4 - n) 0 := by
  rw [rest, init, List.drop_replicate]
  show _ ++ List.replicate 4 0 = _
  rw [List.replicate_append_replicate]
  congr 1
  omega

lemma Session.rest_after (s : Session) (post : Bool) (turns : List ByteTurn) {n : ℕ} (h : n ≤ MRJ_MAX_RESPHEAD) :
    (s.after post turns).rest n =
      ((receive post turns).stored ++ s.rest (receive post turns).stored.length).drop n := by
  have hlen : n ≤ (s.after post turns).responseRecv.length := by rwa [Session.length_eq]
  have hmem : (receive post turns).stored ++ s.rest (receive post turns).stored.length =
      (s.after post turns).responseRecv ++ s.behind :=
    (List.append_assoc _ _ _).symm
  rw [hmem, List.drop_append_of_le_length hlen]
  rfl

/-- Characters that are no line breaks. -/
def filler (n : ℕ) : List UInt8 := List.replicate n 0x78

lemma goesOn_filler {t : List UInt8} (h : GoesOn 4 0 t) (n : ℕ) : GoesOn 4 0 (filler n ++ t) := by
  induction n with
  | zero => exact h
  | succ n ih => exact ⟨by decide, ih⟩

/-- A response that is stored behind filling characters: the time is over behind its last character,
so that it does not matter which one this is. -/
lemma receive_filler {n : ℕ} {t : List UInt8} (c : UInt8) (hgo : GoesOn 4 0 t)
    (hlen : n + t.length < MRJ_MAX_RESPHEAD) :
    (receive false (gives (filler n ++ t) ++ [⟨.ready, .gives c, true⟩])).stored = filler n ++ (t ++ [c]) := by
  have hlength : (filler n ++ t).length = n + t.length := by rw [List.length_append, filler, List.length_replicate]
  have hroom : ([] : List UInt8).length + (filler n ++ t).length ≤ MRJ_MAX_RESPHEAD := by
    rw [List.length_nil, hlength]
    omega
  obtain ⟨ch, h⟩ := recvLoop_gives [⟨.ready, .gives c, true⟩] (goesOn_filler hgo n) hroom 0
  have hlast : ¬MRJ_MAX_RESPHEAD ≤ (filler n ++ t).length := by
    rw [hlength]
    omega
  rw [receive, if_neg (by simp), recvData, h, List.nil_append]
  simp only [recvLoop, RecvByte.store, if_neg hlast, if_true]
  exact List.append_assoc _ _ _

/-- **Any characters can be left behind** a response: those that came there in an earlier one. -/
lemma exists_left {n : ℕ} {t : List UInt8} (c : UInt8) (hgo : GoesOn 4 0 t)
    (hlen : n + t.length < MRJ_MAX_RESPHEAD) :
    ∃ s r, Left s ∧ s.verbose = false ∧ s.rest n = t ++ c :: 0 :: r := by
  have hlength : (filler n ++ (t ++ [c])).length = n + t.length + 1 := by
    simp only [filler, List.length_append, List.length_replicate, List.length_singleton]
    omega
  have hzeros : Session.init.rest (n + t.length + 1) =
      0 :: List.replicate (MRJ_MAX_RESPHEAD + 4 - (n + t.length + 2)) 0 := by
    rw [Session.rest_init (by omega), ← List.replicate_succ]
    congr 1
    omega
  have hfiller : (filler n).length = n := List.length_replicate
  refine ⟨Session.init.after false (gives (filler n ++ t) ++ [⟨.ready, .gives c, true⟩]),
    List.replicate (MRJ_MAX_RESPHEAD + 4 - (n + t.length + 2)) 0, .perform false _ .init, rfl, ?_⟩
  rw [Session.rest_after _ _ _ (by omega), receive_filler c hgo hlen, hlength, hzeros, List.append_assoc,
    List.drop_left' hfiller, List.append_assoc]
  rfl

end DeviceTools.Http
