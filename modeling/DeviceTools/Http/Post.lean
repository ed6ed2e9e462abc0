/-
What a POST hands to the callback.

The head of a response ends at the first four line-break characters that stand together, the body
at the first two of them, or when the server closes the connection, whatever length has been
announced.  So the body is delivered if it can be told from what follows in this way: there are no
two line-break characters together in it but at its end.  Otherwise the rest of it is not received,
and what stands in the buffer instead is handed to the callback.
-/
import DeviceTools.Http.StaleResponse

namespace DeviceTools.Http

open CText Search Dns

/-! ### Responses -/

/-- A line of the head. -/
structure IsLine (l : List UInt8) : Prop where
  ne_nil : l ≠ []
  isBreak_eq : ∀ c ∈ l, isBreak c = false
  zero_notMem : (0 : UInt8) ∉ l

/-- The lines of the head, up to the four characters that end it. -/
def headLines (statusLine : List UInt8) (headers : List (List UInt8)) : List UInt8 :=
  statusLine ++ headers.flatMap ([CR, LF] ++ ·)

/-- A response that fits the buffer. -/
structure Response where
  statusLine : List UInt8
  headers : List (List UInt8)
  body : List UInt8
  isLine_statusLine : IsLine statusLine
  isLine_headers : ∀ l ∈ headers, IsLine l
  zero_notMem_body : (0 : UInt8) ∉ body
  fits : (headLines statusLine headers).length + MRJ_ENDOFHEAD.length + body.length ≤ MRJ_MAX_RESPHEAD

namespace Response

def lines (R : Response) : List UInt8 := headLines R.statusLine R.headers

def head (R : Response) : List UInt8 := R.lines ++ MRJ_ENDOFHEAD

def bytes (R : Response) : List UInt8 := R.head ++ R.body

end Response

/-- What the server does behind the body. -/
inductive Ending where
  | closes
  | silent
deriving DecidableEq, Repr

def Ending.turns : Ending → List ByteTurn
  | .closes => [⟨.ready, .closed, false⟩]
  | .silent => [⟨.timeout, .closed, false⟩]

/-- The turns in which a response arrives: `recv` asks for one byte, so that the pieces in which the
network delivers it do not show. -/
def Response.turns (R : Response) (ending : Ending) : List ByteTurn := gives R.bytes ++ ending.turns

/-- What `http_transfer` hands to the callback of a POST. -/
def delivered (s : Session) (turns : List ByteTurn) : Option (List UInt8) :=
  let r := sendHcmd true s turns
  if r.status = some .MRJE_OK then r.computed.bind fun c => if c.httpcode = 200 then c.recvData else none
  else none

/-- No two line-break characters stand together. -/
def NoBreakPair (bs : List UInt8) : Prop := bs.IsChain fun a b => ¬(isBreak a = true ∧ isBreak b = true)

/-- The body arrives whole: the first pair of line-break characters is at its end, or there is none
and the server closes the connection. -/
structure ArrivesWhole (body : List UInt8) (ending : Ending) : Prop where
  noBreakPair : NoBreakPair body.dropLast
  closes : NoBreakPair body → ending = .closes

/-- A response of which the body is delivered: behind the first `HTTP/1.1` it has the status 200,
behind the first `Content-Length:` the length of the body, and a body that arrives whole. -/
structure Deliverable (R : Response) (ending : Ending) : Prop where
  httpcode : WordDecided MRJ_HTTPID R.bytes ∧ announced MRJ_HTTPID R.bytes = 200
  contentLen : WordDecided MRJ_CONTENTLEN R.bytes ∧ toUnsigned (announced MRJ_CONTENTLEN R.bytes) = R.body.length
  ne_nil : R.body ≠ []
  arrivesWhole : ArrivesWhole R.body ending

/-! ### Line breaks -/

lemma gives_append (as bs : List UInt8) : gives (as ++ bs) = gives as ++ gives bs := List.map_append

/-- The loop for the body goes on as long as there is no pair. -/
lemma goesOn_two_iff {bs : List UInt8} : GoesOn 2 0 bs ↔ NoBreakPair bs := by
  have hcons : ∀ c : UInt8, GoesOn 2 (if isBreak c then 1 else 0) bs ↔ NoBreakPair (c :: bs) := by
    induction bs with
    | nil => simp [GoesOn, NoBreakPair]
    | cons d bs ih =>
        intro c
        rw [GoesOn, NoBreakPair, List.isChain_cons_cons]
        cases hd : isBreak d with
        | false =>
            have hnext : nextOver (if isBreak c then 1 else 0) d = if isBreak d then 1 else 0 := by
              simp [nextOver, hd]
            rw [hnext, ih d]
            simp [NoBreakPair, hd]
        | true =>
            cases hc : isBreak c with
            | false =>
                have hnext : nextOver (if isBreak c then 1 else 0) d = if isBreak d then 1 else 0 := by
                  simp [nextOver, hc, hd]
                rw [← hc, hnext, ih d]
                simp [NoBreakPair, hc, hd]
            | true => simp [nextOver, hd]
  cases bs with
  | nil => simp [GoesOn, NoBreakPair]
  | cons c bs =>
      -- a character that is no line break stands in front
      have hfront := hcons 0x78
      rw [NoBreakPair, List.isChain_cons_cons, if_neg (by decide)] at hfront
      rw [hfront, NoBreakPair, and_iff_right]
      exact fun h => absurd h.1 (by decide)

/-- Where the loop ends. -/
lemma exists_stop {recvFlag : ℕ} {bs : List UInt8} : ∀ {overFlag : ℕ}, ¬GoesOn recvFlag overFlag bs →
    ∃ as c cs, bs = as ++ c :: cs ∧ GoesOn recvFlag overFlag as ∧
      ¬nextOver (as.foldl nextOver overFlag) c < recvFlag := by
  induction bs with
  | nil => exact fun h => absurd trivial h
  | cons c bs ih =>
      intro overFlag h
      by_cases hc : nextOver overFlag c < recvFlag
      · obtain ⟨as, d, cs, rfl, has, hd⟩ := ih fun hbs => h ⟨hc, hbs⟩
        exact ⟨c :: as, d, cs, rfl, ⟨hc, has⟩, hd⟩
      · exact ⟨[], c, bs, rfl, trivial, hc⟩

/-- Behind a line the counter is 0. -/
lemma goesOn_line {l : List UInt8} (h : ∀ c ∈ l, isBreak c = false) : ∀ overFlag : ℕ,
    GoesOn 4 overFlag l ∧ (l ≠ [] → l.foldl nextOver overFlag = 0) := by
  induction l with
  | nil => exact fun _ => ⟨trivial, fun hne => absurd rfl hne⟩
  | cons c l ih =>
      intro overFlag
      have hc : nextOver overFlag c = 0 := by rw [nextOver, if_neg (by rw [h c List.mem_cons_self]; decide)]
      obtain ⟨hgo, hfold⟩ := ih (fun d hd => h d (List.mem_cons_of_mem c hd)) 0
      refine ⟨⟨by rw [hc]; decide, by rw [hc]; exact hgo⟩, fun _ => ?_⟩
      rw [List.foldl_cons, hc]
      cases l with
      | nil => rfl
      | cons d l => exact hfold (List.cons_ne_nil d l)

/-! ### The head -/

section

variable (R : Response)

/-- The lines of the head are gone over with the counter at 0 behind them. -/
lemma goesOn_lines : GoesOn 4 0 R.lines ∧ R.lines.foldl nextOver 0 = 0 := by
  have hheaders : ∀ hs : List (List UInt8), (∀ l ∈ hs, IsLine l) →
      GoesOn 4 0 (hs.flatMap ([CR, LF] ++ ·)) ∧ (hs.flatMap ([CR, LF] ++ ·)).foldl nextOver 0 = 0 := by
    intro hs
    induction hs with
    | nil => exact fun _ => ⟨trivial, rfl⟩
    | cons l hs ih =>
        intro h
        have hl := h l List.mem_cons_self
        obtain ⟨hgo, hfold⟩ := goesOn_line hl.isBreak_eq 2
        obtain ⟨hrest, hfold'⟩ := ih fun l' hl' => h l' (List.mem_cons_of_mem l hl')
        have hbreaks : [CR, LF].foldl nextOver 0 = 2 := rfl
        have hline : GoesOn 4 0 ([CR, LF] ++ l) := by
          rw [goesOn_append, hbreaks]
          exact ⟨by decide, hgo⟩
        have hfoldLine : ([CR, LF] ++ l).foldl nextOver 0 = 0 := by
          rw [List.foldl_append, hbreaks, hfold hl.ne_nil]
        refine ⟨?_, ?_⟩
        · rw [List.flatMap_cons, goesOn_append, hfoldLine]
          exact ⟨hline, hrest⟩
        · rw [List.flatMap_cons, List.foldl_append, hfoldLine]
          exact hfold'
  obtain ⟨hgo, hfold⟩ := goesOn_line R.isLine_statusLine.isBreak_eq 0
  obtain ⟨hrest, hfold'⟩ := hheaders R.headers R.isLine_headers
  rw [Response.lines, headLines, goesOn_append, List.foldl_append, hfold R.isLine_statusLine.ne_nil]
  exact ⟨⟨hgo, hrest⟩, hfold'⟩

lemma goesOn_head : GoesOn 4 0 (R.lines ++ [CR, LF, CR]) ∧ (R.lines ++ [CR, LF, CR]).foldl nextOver 0 = 3 := by
  obtain ⟨hgo, hfold⟩ := goesOn_lines R
  rw [goesOn_append, List.foldl_append, hfold]
  exact ⟨⟨hgo, by decide⟩, rfl⟩

lemma head_eq : R.head = R.lines ++ [CR, LF, CR] ++ [LF] := (List.append_assoc _ [CR, LF, CR] [LF]).symm

lemma length_head : R.head.length = R.lines.length + 4 := List.length_append

lemma length_bytes_le : R.head.length + R.body.length ≤ MRJ_MAX_RESPHEAD := by
  rw [Response.head, List.length_append]
  exact R.fits

lemma zero_notMem_head : (0 : UInt8) ∉ R.head := by
  rw [Response.head, Response.lines, headLines, List.mem_append, List.mem_append, List.mem_flatMap, not_or, not_or]
  refine ⟨⟨R.isLine_statusLine.zero_notMem, ?_⟩, by decide⟩
  rintro ⟨l, hl, hmem⟩
  rcases List.mem_append.1 hmem with hmem | hmem
  · exact absurd hmem (by decide)
  · exact (R.isLine_headers l hl).zero_notMem hmem

/-- The end of the head stands behind the lines, and not before. -/
lemma find_endofhead : find MRJ_ENDOFHEAD R.head = some R.lines.length := by
  refine find_eq_some isNeedle_endofhead.ne_nil ?_ fun q hq hpre => ?_
  · rw [Response.head, List.drop_left]
  · have hlen : (R.lines ++ [CR, LF, CR]).length = R.lines.length + 3 := List.length_append
    have hlen4 : MRJ_ENDOFHEAD.length = 4 := rfl
    rw [head_eq, List.drop_append_of_le_length (by omega)] at hpre
    obtain ⟨t, ht⟩ := prefix_of_prefix_append hpre (by rw [List.length_drop]; omega)
    -- the loop would have ended there
    have hgo := (goesOn_head R).1
    rw [← List.take_append_drop q (R.lines ++ [CR, LF, CR]), ← ht, goesOn_append, goesOn_append] at hgo
    obtain ⟨-, ⟨-, -, -, hfour, -⟩, -⟩ := hgo
    simp only [nextOver, isBreak, CR, LF] at hfour
    exact absurd hfour (by simp)

lemma search_endofhead (u : List UInt8) : pStrcasestr (R.head ++ u) MRJ_ENDOFHEAD = some R.lines.length := by
  refine search_found isNeedle_endofhead ?_ u
  rw [cstr_of_notMem (zero_notMem_head R), find_endofhead]

/-! ### Receiving -/

/-- The first loop takes the head, and nothing else. -/
lemma recvData_head (turns : List ByteTurn) :
    recvData 4 (gives R.head ++ turns) [] = ⟨some .MRJE_OK, R.head, turns⟩ := by
  obtain ⟨hgo, hfold⟩ := goesOn_head R
  have hfits := length_bytes_le R
  have hlen := length_head R
  have hlen' : (R.lines ++ [CR, LF, CR]).length = R.lines.length + 3 := List.length_append
  have hroom : ([] : List UInt8).length + (R.lines ++ [CR, LF, CR]).length ≤ MRJ_MAX_RESPHEAD := by
    rw [hlen', List.length_nil]
    omega
  obtain ⟨ch, h⟩ := recvLoop_gives (gives [LF] ++ turns) hgo hroom 0
  rw [recvData, head_eq, gives_append, List.append_assoc, h, hfold, List.nil_append,
    recvLoop_last (by decide) (by omega)]

lemma receive_eq (ending : Ending) :
    receive true (R.turns ending) = recvData 2 (gives R.body ++ ending.turns) R.head := by
  rw [receive, Response.turns, Response.bytes, gives_append, List.append_assoc, recvData_head]
  exact if_pos ⟨rfl, rfl⟩

/-- A body without a pair: the loop goes on to the end. -/
lemma receive_of_noBreakPair {ending : Ending} (h : NoBreakPair R.body) :
    (receive true (R.turns ending)).stored = R.bytes ∧
      ((receive true (R.turns ending)).status = some .MRJE_OK ↔ ending = .closes) := by
  obtain ⟨ch, hloop⟩ := recvLoop_gives ending.turns (goesOn_two_iff.2 h) (length_bytes_le R) 0
  rw [receive_eq, recvData, hloop]
  cases ending with
  | closes => exact ⟨rfl, iff_of_true rfl rfl⟩
  | silent =>
      have hstatus : (recvLoop 2 Ending.silent.turns ch (R.body.foldl nextOver 0) (R.head ++ R.body)).status =
          some .MRJE_TIME_OUT := rfl
      refine ⟨rfl, ?_⟩
      rw [hstatus]
      exact iff_of_false (by decide) (by decide)

/-- A body with a pair: the loop ends there. -/
lemma receive_of_pair (ending : Ending) (h : ¬NoBreakPair R.body) :
    ∃ as c cs, R.body = as ++ c :: cs ∧ NoBreakPair as ∧ ¬NoBreakPair (as ++ [c]) ∧
      (receive true (R.turns ending)).stored = R.head ++ (as ++ [c]) ∧
      (receive true (R.turns ending)).status = some .MRJE_OK := by
  obtain ⟨as, c, cs, hbody, has, hc⟩ := exists_stop fun hgo => h (goesOn_two_iff.1 hgo)
  have hfits := length_bytes_le R
  have hlen : R.body.length = as.length + (cs.length + 1) := by rw [hbody]; exact List.length_append
  have hturns : gives R.body = gives as ++ (gives [c] ++ gives cs) := by
    rw [hbody, gives_append]
    rfl
  have hroom : R.head.length + as.length ≤ MRJ_MAX_RESPHEAD := by omega
  have hroom' : (R.head ++ as).length < MRJ_MAX_RESPHEAD := by
    rw [List.length_append]
    omega
  obtain ⟨ch, hloop⟩ := recvLoop_gives (gives [c] ++ gives cs ++ ending.turns) has hroom 0
  have hlast := recvLoop_last hc hroom' (gives cs ++ ending.turns) ch
  rw [← List.append_assoc] at hlast
  rw [hlast] at hloop
  have hpair : ¬NoBreakPair (as ++ [c]) := by
    intro hno
    exact hc (goesOn_append.1 (goesOn_two_iff.2 hno)).2.1
  rw [receive_eq, recvData, hturns, List.append_assoc, hloop]
  exact ⟨as, c, cs, hbody, goesOn_two_iff.1 has, hpair, List.append_assoc _ _ _, rfl⟩

end

/-! ### Delivering -/

lemma delivered_eq_none {turns : List ByteTurn} (h : (receive true turns).status ≠ some .MRJE_OK) (s : Session) :
    delivered s turns = none := by
  rw [delivered, sendHcmd_computed_eq_none h, Option.bind_none, ite_self]

/-- What is delivered of a response of which the head and some characters have been stored. -/
lemma delivered_eq (R : Response) {turns : List ByteTurn} {b : List UInt8}
    (hstatus : (receive true turns).status = some .MRJE_OK) (hstored : (receive true turns).stored = R.head ++ b)
    (s : Session) :
    delivered s turns =
      if numberBehind MRJ_HTTPID (R.head ++ b ++ s.rest (R.head ++ b).length) = 200 then
        some (bodyAt (toUnsigned (numberBehind MRJ_CONTENTLEN (R.head ++ b ++ s.rest (R.head ++ b).length)))
          (b ++ s.rest (R.head ++ b).length))
      else none := by
  have hsearch := search_endofhead R (b ++ s.rest (R.head ++ b).length)
  rw [← List.append_assoc] at hsearch
  have hdrop : (R.head ++ b ++ s.rest (R.head ++ b).length).drop (R.lines.length + MRJ_ENDOFHEAD.length) =
      b ++ s.rest (R.head ++ b).length := by
    rw [List.append_assoc]
    exact List.drop_left' List.length_append
  simp only [delivered, sendHcmd, hstatus, hstored, parseResponse, hsearch, hdrop, Option.bind_some, if_true]
  by_cases h200 : numberBehind MRJ_HTTPID (R.head ++ b ++ s.rest (R.head ++ b).length) = 200
  · rw [if_pos h200, h200]
    rfl
  · rw [if_neg h200, ite_self]

lemma NoBreakPair.of_prefix {as bs : List UInt8} (h : NoBreakPair bs) (hpre : as <+: bs) : NoBreakPair as := by
  obtain ⟨t, rfl⟩ := hpre
  exact List.IsChain.left_of_append h

section

variable {R : Response} {ending : Ending}

/-- A body that arrives whole is stored whole. -/
lemma receive_of_arrivesWhole (h : ArrivesWhole R.body ending) :
    (receive true (R.turns ending)).status = some .MRJE_OK ∧ (receive true (R.turns ending)).stored = R.bytes := by
  by_cases hno : NoBreakPair R.body
  · obtain ⟨hstored, hstatus⟩ := receive_of_noBreakPair R hno
    exact ⟨hstatus.2 (h.closes hno), hstored⟩
  · obtain ⟨as, c, cs, hbody, -, hpair, hstored, hstatus⟩ := receive_of_pair R ending hno
    cases cs with
    | nil => exact ⟨hstatus, by rw [hstored, Response.bytes, hbody]⟩
    | cons d cs =>
        have hinit : as ++ [c] <+: R.body.dropLast := by
          rw [hbody, List.dropLast_append_of_ne_nil (List.cons_ne_nil _ _), List.dropLast_cons_cons]
          exact ⟨(d :: cs).dropLast, by simp⟩
        exact absurd (h.noBreakPair.of_prefix hinit) hpair

/-- Otherwise the loop fails, or it ends before the body does. -/
lemma receive_of_not_arrivesWhole (h : ¬ArrivesWhole R.body ending) :
    (receive true (R.turns ending)).status ≠ some .MRJE_OK ∨
      ∃ b, b.length < R.body.length ∧ (receive true (R.turns ending)).stored = R.head ++ b := by
  by_cases hno : NoBreakPair R.body
  · refine Or.inl fun hstatus => h ⟨hno.of_prefix (List.dropLast_prefix _), fun _ => ?_⟩
    exact (receive_of_noBreakPair R hno).2.1 hstatus
  · obtain ⟨as, c, cs, hbody, has, -, hstored, -⟩ := receive_of_pair R ending hno
    refine Or.inr ⟨as ++ [c], ?_, hstored⟩
    cases cs with
    | nil =>
        refine absurd ⟨?_, fun hno' => absurd hno' hno⟩ h
        rw [hbody, List.dropLast_concat]
        exact has
    | cons d cs =>
        rw [hbody, List.length_append, List.length_append, List.length_cons, List.length_cons, List.length_cons,
          List.length_nil]
        omega

/-- A body is read alone only if its length is the one announced, and not 0. -/
lemma bodyAt_eq_self {n : ℕ} {body u : List UInt8} (hbody : (0 : UInt8) ∉ body) (hne : u ≠ [])
    (hu : (0 : UInt8) ∉ u) (r : List UInt8) (h : bodyAt n (body ++ (u ++ 0 :: r)) = body) :
    n ≠ 0 ∧ n = body.length := by
  have hlength := congrArg List.length h
  rw [length_bodyAt] at hlength
  by_cases hn : n = 0
  · have hnot : (0 : UInt8) ∉ body ++ u := fun hmem => (List.mem_append.1 hmem).elim hbody hu
    rw [if_neg (not_not.2 hn), strlen, ← List.append_assoc, cstr_eq hnot, List.length_append] at hlength
    have hpos := List.length_pos_iff.2 hne
    omega
  · rw [if_pos hn] at hlength
    exact ⟨hn, hlength⟩

lemma exists_left_behind {n : ℕ} (h : n ≤ MRJ_MAX_RESPHEAD) :
    ∃ s c r, Left s ∧ (c = 0x78 ∨ c = 1) ∧ s.rest n = c :: 0 :: r := by
  rcases h.lt_or_eq with hroom | hfull
  · obtain ⟨s, r, hleft, -, hrest⟩ := exists_left (n := n) (t := []) 0x78 trivial (by simpa using hroom)
    exact ⟨s, 0x78, r, hleft, Or.inl rfl, hrest⟩
  · refine ⟨Session.init.setopt true, 1, [0, 0], .setopt true .init, Or.inr rfl, ?_⟩
    rw [Session.rest, hfull, ← (Session.init.setopt true).length_eq, List.drop_length]
    rfl

lemma Session.exists_rest_init {n : ℕ} (h : n ≤ MRJ_MAX_RESPHEAD) : ∃ r, Session.init.rest n = 0 :: 0 :: r := by
  refine ⟨List.replicate (MRJ_MAX_RESPHEAD + 2 - n) 0, ?_⟩
  rw [Session.rest_init h, ← List.replicate_succ, ← List.replicate_succ]
  congr 1
  omega

/-- What is delivered as the whole body has arrived whole: characters that have not been received
are zeros in a new session, and there are none in the body. -/
lemma arrivesWhole_of_delivered (h : delivered Session.init (R.turns ending) = some R.body) :
    ArrivesWhole R.body ending := by
  by_contra hnot
  by_cases hstatus : (receive true (R.turns ending)).status = some .MRJE_OK
  · obtain ⟨b, hshort, hstored⟩ := (receive_of_not_arrivesWhole hnot).resolve_left (not_not.2 hstatus)
    have hle := length_bytes_le R
    obtain ⟨r, hrest⟩ := Session.exists_rest_init (n := (R.head ++ b).length)
      (by rw [List.length_append]; omega)
    rw [delivered_eq R hstatus hstored, hrest, Option.ite_none_right_eq_some] at h
    have hstring := congrArg (fun m => (cstr m).length) (Option.some_inj.1 h.2)
    rw [cstr_bodyAt, cstr_append_zero, cstr_of_notMem R.zero_notMem_body] at hstring
    have hb := length_cstr_le b
    split at hstring
    · rw [List.length_take] at hstring
      omega
    · omega
  · rw [delivered_eq_none hstatus] at h
    cases h

/-- What every session reads of a response that has arrived whole. -/
def ReadsWell (R : Response) (s : Session) : Prop :=
  numberBehind MRJ_HTTPID (R.bytes ++ s.rest R.bytes.length) = 200 ∧
    bodyAt (toUnsigned (numberBehind MRJ_CONTENTLEN (R.bytes ++ s.rest R.bytes.length)))
      (R.body ++ s.rest R.bytes.length) = R.body

lemma length_bytes (R : Response) : R.bytes.length ≤ MRJ_MAX_RESPHEAD := by
  rw [Response.bytes, List.length_append]
  exact length_bytes_le R

lemma delivered_iff_readsWell (h : ArrivesWhole R.body ending) (s : Session) :
    delivered s (R.turns ending) = some R.body ↔ ReadsWell R s := by
  obtain ⟨hstatus, hstored⟩ := receive_of_arrivesWhole h
  rw [delivered_eq R hstatus hstored, Option.ite_none_right_eq_some, Option.some_inj]
  rfl

/-- The status: it is 200 in a new session, and would be another one behind other characters. -/
lemma httpcode_of_readsWell (h : ∀ s, Left s → ReadsWell R s) :
    WordDecided MRJ_HTTPID R.bytes ∧ announced MRJ_HTTPID R.bytes = 200 := by
  obtain ⟨r₀, hzeros⟩ := Session.exists_rest_init (length_bytes R)
  have hannounced : announced MRJ_HTTPID R.bytes = 200 := by
    have hnew := (h _ .init).1
    rwa [hzeros, numberBehind_zeros isWord_httpid] at hnew
  refine ⟨?_, hannounced⟩
  by_contra hnot
  obtain ⟨t, hgo, -, hlen, hdiffer⟩ := numberBehind_of_not_decided isWord_httpid hnot
  obtain ⟨s, r, hleft, -, hrest⟩ := exists_left 0x35 hgo hlen
  have hs := (h s hleft).1
  rw [hrest] at hs
  exact hdiffer r (hs.trans hannounced.symm)

/-- The length: with a character behind the body it has to be announced. -/
lemma announced_of_readsWell (h : ∀ s, Left s → ReadsWell R s) :
    R.body ≠ [] ∧ toUnsigned (announced MRJ_CONTENTLEN R.bytes) = R.body.length := by
  obtain ⟨s, c, r, hleft, hc, hrest⟩ := exists_left_behind (length_bytes R)
  have hmem : c ∉ MRJ_CONTENTLEN := by rcases hc with rfl | rfl <;> decide +kernel
  have hstop : IsStop c := by rcases hc with rfl | rfl <;> exact ⟨by decide, by decide, by decide⟩
  have hzero : (0 : UInt8) ∉ [c] := by rcases hc with rfl | rfl <;> decide
  have hbody := (h s hleft).2
  rw [hrest, numberBehind_stop isWord_contentlen hmem hstop] at hbody
  obtain ⟨hpos, hlength⟩ := bodyAt_eq_self R.zero_notMem_body (List.cons_ne_nil c []) hzero r hbody
  refine ⟨fun hnil => hpos ?_, hlength⟩
  rw [hlength, hnil]
  rfl

/-- The length does not change with what stands behind the response. -/
lemma contentLen_of_readsWell (h : ∀ s, Left s → ReadsWell R s) : WordDecided MRJ_CONTENTLEN R.bytes := by
  by_contra hnot
  obtain ⟨t, hgo, ht, hlen, hdiffer⟩ := numberBehind_of_not_decided isWord_contentlen hnot
  obtain ⟨s, r, hleft, -, hrest⟩ := exists_left 0x35 hgo hlen
  have hassoc : t ++ 0x35 :: 0 :: r = (t ++ [0x35]) ++ 0 :: r := by simp
  have hzero : (0 : UInt8) ∉ t ++ [0x35] := by
    rw [List.mem_append, not_or]
    exact ⟨ht, by decide⟩
  have hbody := (h s hleft).2
  rw [hrest, hassoc] at hbody
  have hlength := (bodyAt_eq_self R.zero_notMem_body (by simp) hzero r hbody).2
  have hsame := hlength.trans (announced_of_readsWell h).2.symm
  rw [← hassoc, ← numberBehind_zeros isWord_contentlen []] at hsame
  refine hdiffer r ?_
  rw [← numberBehind_zeros isWord_contentlen []]
  exact toUnsigned_numberBehind_inj hsame

lemma Deliverable.readsWell (h : Deliverable R ending) (s : Session) : ReadsWell R s := by
  have hpos : 0 < R.body.length := List.length_pos_iff.2 h.ne_nil
  have hself : bodyAt R.body.length R.body = R.body := by
    rw [bodyAt, if_pos (by omega), strncpy, cstr_of_notMem R.zero_notMem_body, List.take_length, Nat.sub_self]
    exact List.append_nil _
  rw [ReadsWell, numberBehind_of_decided isWord_httpid (length_bytes R) h.httpcode.1,
    numberBehind_of_decided isWord_contentlen (length_bytes R) h.contentLen.1, h.contentLen.2,
    bodyAt_append hpos le_rfl]
  exact ⟨h.httpcode.2, hself⟩

/-- **The body is delivered** in every session exactly if the head gives the status 200 and the
length of the body, and the body arrives whole. -/
theorem delivers_iff (R : Response) (ending : Ending) :
    (∀ s, Left s → delivered s (R.turns ending) = some R.body) ↔ Deliverable R ending := by
  constructor
  · intro h
    have hwhole := arrivesWhole_of_delivered (h _ .init)
    have hreads : ∀ s, Left s → ReadsWell R s := fun s hs => (delivered_iff_readsWell hwhole s).1 (h s hs)
    obtain ⟨hne, hlength⟩ := announced_of_readsWell hreads
    exact ⟨httpcode_of_readsWell hreads, ⟨contentLen_of_readsWell hreads, hlength⟩, hne, hwhole⟩
  · exact fun h s _ => (delivered_iff_readsWell h.arrivesWhole s).2 (h.readsWell s)

end

/-- A response with a line break in its body. -/
def twoLines : Response where
  statusLine := text "HTTP/1.1 200 OK"
  headers := [text "Content-Length: 6"]
  body := text "ab\r\ncd"
  isLine_statusLine := ⟨by decide +kernel, by decide +kernel, by decide +kernel⟩
  isLine_headers := by
    intro l hl
    rw [List.mem_singleton.1 hl]
    exact ⟨by decide +kernel, by decide +kernel, by decide +kernel⟩
  zero_notMem_body := by decide +kernel
  fits := by decide +kernel

/-- The second line is not received: two zeros are handed to the callback in its place. -/
theorem delivered_twoLines :
    delivered Session.init (twoLines.turns .closes) = some (text "ab\r\n" ++ [0, 0]) ∧
      ¬∀ s, Left s → delivered s (twoLines.turns .closes) = some twoLines.body := by
  have hnew : delivered Session.init (twoLines.turns .closes) = some (text "ab\r\n" ++ [0, 0]) := by decide +kernel
  refine ⟨hnew, fun h => ?_⟩
  have hbody := h Session.init .init
  rw [hnew] at hbody
  exact absurd hbody (by decide +kernel)

/-! ### Usual heads -/

/-- The usual head: the status 200 in its first line, and the length in a header of its own. -/
structure UsualHead (R : Response) : Prop where
  statusLine : ∃ reason, R.statusLine = text "HTTP/1.1 200 " ++ reason
  contentLen : ∃ before ds after, R.headers = before ++ (MRJ_CONTENTLEN ++ 0x20 :: ds) :: after ∧
    find MRJ_CONTENTLEN (headLines R.statusLine before) = none ∧
    ds ≠ [] ∧ (∀ c ∈ ds, isDigit c = true) ∧ digitsValue ds = R.body.length

/-- The number behind a word, where the word occurs first. -/
lemma announced_eq {w stored p ds t : List UInt8} (hw : IsWord w) (hzero : (0 : UInt8) ∉ stored) {c : UInt8}
    (hstored : stored = p ++ (w ++ 0x20 :: (ds ++ c :: t))) (hfirst : ∀ q < p.length, ¬w <+: stored.drop q)
    (hds : ∀ d ∈ ds, isDigit d = true) (hne : ds ≠ []) (hc : isDigit c = false) (hle : digitsValue ds ≤ INT_MAX) :
    WordDecided w stored ∧ announced w stored = digitsValue ds := by
  have hfind : find w (cstr stored) = some p.length := by
    rw [cstr_of_notMem hzero]
    refine find_eq_some hw.ne_nil ?_ hfirst
    rw [hstored, List.drop_left]
    exact List.prefix_append _ _
  have hdrop : stored.drop (p.length + w.length + 1) = ds ++ c :: t := by
    have hsplit : stored = (p ++ (w ++ [0x20])) ++ (ds ++ c :: t) := by rw [hstored]; simp
    rw [hsplit]
    refine List.drop_left' ?_
    rw [List.length_append, List.length_append, List.length_singleton]
    omega
  rw [WordDecided, announced, hfind]
  dsimp only
  rw [hdrop, number_digits hds hne hc t hle]
  exact ⟨Or.inl (settled_digits hds hne hc t), rfl⟩

lemma zero_notMem_bytes (R : Response) : (0 : UInt8) ∉ R.bytes := by
  rw [Response.bytes, List.mem_append, not_or]
  exact ⟨zero_notMem_head R, R.zero_notMem_body⟩

section

variable {R : Response}

lemma UsualHead.httpcode (h : UsualHead R) :
    WordDecided MRJ_HTTPID R.bytes ∧ announced MRJ_HTTPID R.bytes = 200 := by
  obtain ⟨reason, hline⟩ := h.statusLine
  have htext : text "HTTP/1.1 200 " = MRJ_HTTPID ++ 0x20 :: (text "200" ++ [0x20]) := by decide +kernel
  have hbytes : R.bytes = [] ++ (MRJ_HTTPID ++ 0x20 :: (text "200" ++
      0x20 :: (reason ++ R.headers.flatMap ([CR, LF] ++ ·) ++ MRJ_ENDOFHEAD ++ R.body))) := by
    rw [Response.bytes, Response.head, Response.lines, headLines, hline, htext]
    simp
  have hvalue : digitsValue (text "200") = 200 := by decide +kernel
  have hfirst : ∀ q < ([] : List UInt8).length, ¬MRJ_HTTPID <+: R.bytes.drop q :=
    fun q hq => absurd hq (Nat.not_lt_zero q)
  have hannounced := announced_eq isWord_httpid (zero_notMem_bytes R) hbytes hfirst (by decide +kernel)
    (by decide +kernel) (by decide) (by rw [hvalue]; decide)
  rwa [hvalue] at hannounced

lemma UsualHead.length (h : UsualHead R) :
    WordDecided MRJ_CONTENTLEN R.bytes ∧ announced MRJ_CONTENTLEN R.bytes = R.body.length := by
  obtain ⟨before, ds, after, hheaders, hnone, hne, hds, hvalue⟩ := h.contentLen
  have hbytes : ∃ c t, isDigit c = false ∧ R.bytes =
      (headLines R.statusLine before ++ [CR, LF]) ++ (MRJ_CONTENTLEN ++ 0x20 :: (ds ++ c :: t)) := by
    refine ⟨CR, ?_⟩
    cases after with
    | nil =>
        refine ⟨LF :: CR :: LF :: R.body, by decide, ?_⟩
        rw [Response.bytes, Response.head, Response.lines, hheaders]
        simp [headLines, MRJ_ENDOFHEAD]
    | cons l after =>
        refine ⟨LF :: (l ++ after.flatMap ([CR, LF] ++ ·)) ++ MRJ_ENDOFHEAD ++ R.body, by decide, ?_⟩
        rw [Response.bytes, Response.head, Response.lines, hheaders]
        simp [headLines]
  obtain ⟨c, t, hc, hbytes⟩ := hbytes
  rw [← hvalue]
  refine announced_eq isWord_contentlen (zero_notMem_bytes R) hbytes (fun q hq hpre => ?_) hds hne hc ?_
  · rw [List.length_append, List.length_cons, List.length_cons, List.length_nil] at hq
    rw [hbytes, List.append_assoc] at hpre
    by_cases hin : q ≤ (headLines R.statusLine before).length
    · -- it would stand in the lines before
      have hend := add_length_le_of_notMem (v := CR) (by decide +kernel) hin hpre
      rw [List.drop_append_of_le_length hin] at hpre
      refine (find_eq_none_iff isWord_contentlen.ne_nil).1 hnone q (prefix_of_prefix_append hpre ?_)
      rw [List.length_drop]
      omega
    · obtain rfl : q = (headLines R.statusLine before).length + 1 := by omega
      rw [List.drop_append, List.drop_eq_nil_of_le (by omega), Nat.add_sub_cancel_left] at hpre
      have hmem : MRJ_CONTENTLEN.head? = some LF := by
        obtain ⟨t', ht'⟩ := hpre
        have hhead := congrArg List.head? ht'
        rwa [List.head?_append_of_ne_nil _ isWord_contentlen.ne_nil] at hhead
      exact absurd hmem (by decide +kernel)
  · have hbody := length_bytes_le R
    rw [hvalue, INT_MAX]
    rw [MRJ_MAX_RESPHEAD] at hbody
    omega

/-- **With a usual head** the body is delivered exactly if it arrives whole and is not empty. -/
lemma deliverable_iff (h : UsualHead R) (ending : Ending) :
    Deliverable R ending ↔ R.body ≠ [] ∧ ArrivesWhole R.body ending := by
  refine ⟨fun hd => ⟨hd.ne_nil, hd.arrivesWhole⟩, fun hbody => ⟨h.httpcode, ⟨h.length.1, ?_⟩, hbody.1, hbody.2⟩⟩
  have hfits := length_bytes_le R
  rw [MRJ_MAX_RESPHEAD] at hfits
  rw [h.length.2, toUnsigned]
  omega

end

end DeviceTools.Http
