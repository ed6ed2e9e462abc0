/-
What an earlier response has left in the buffer.

The length of the buffer is reset for a response, its contents are not, and no NUL is stored behind
the response.  So `parse_response` reads on in an earlier one wherever the response does not decide
what it looks for: a word that does not occur, a number with nothing behind its digits, a body
that is shorter than announced or not announced at all.
-/
import DeviceTools.Http.Response

namespace DeviceTools.Http

open CText Search Dns

/-! ### What a response decides -/

/-- The number behind a word in the response itself. -/
def announced (w stored : List UInt8) : ℤ :=
  match find w (cstr stored) with
  | none => 0
  | some k => number (stored.drop (k + w.length + 1))

/-- The response decides the number behind a word: it holds the word and the number, or it ends at a
NUL without the word, or the buffer is too full for another number. -/
def WordDecided (w stored : List UInt8) : Prop :=
  match find w (cstr stored) with
  | none => 0 ∈ stored ∨ MRJ_MAX_RESPHEAD ≤ stored.length - overlap w stored + w.length + 1
  | some k => NumberSettled (stored.drop (k + w.length + 1)) ∨
      MRJ_MAX_RESPHEAD ≤ max stored.length (k + w.length + 1)

/-- The response decides the body of a POST: it ends at a NUL or with the buffer, or it holds as much
as it announces. -/
def BodyDecided (stored : List UInt8) : Prop :=
  match find MRJ_ENDOFHEAD (cstr stored) with
  | none => 0 ∈ stored ∨
      MRJ_MAX_RESPHEAD < stored.length - overlap MRJ_ENDOFHEAD stored + MRJ_ENDOFHEAD.length
  | some k => 0 ∈ stored ∨ MRJ_MAX_RESPHEAD ≤ stored.length ∨
      0 < toUnsigned (announced MRJ_CONTENTLEN stored) ∧
        k + MRJ_ENDOFHEAD.length + toUnsigned (announced MRJ_CONTENTLEN stored) ≤ stored.length

/-- The response decides what is computed from it. -/
structure Decided (post : Bool) (stored : List UInt8) : Prop where
  httpcode : WordDecided MRJ_HTTPID stored
  contentLen : WordDecided MRJ_CONTENTLEN stored
  body : post = true → BodyDecided stored

/-- In all sessions with the same options the same is computed. -/
def SameComputed (post : Bool) (turns : List ByteTurn) : Prop :=
  ∀ s s', Left s → Left s' → s.verbose = s'.verbose →
    (sendHcmd post s turns).computed = (sendHcmd post s' turns).computed

/-! ### The searches -/

/-- What can be searched for. -/
structure IsNeedle (w : List UInt8) : Prop where
  ne_nil : w ≠ []
  zero_notMem : (0 : UInt8) ∉ w

/-- A word of the head: there is no line break in it. -/
structure IsWord (w : List UInt8) : Prop extends IsNeedle w where
  isBreak_eq : ∀ c ∈ w, isBreak c = false

lemma isWord_httpid : IsWord MRJ_HTTPID := ⟨⟨by decide +kernel, by decide +kernel⟩, by decide +kernel⟩

lemma isWord_contentlen : IsWord MRJ_CONTENTLEN := ⟨⟨by decide +kernel, by decide +kernel⟩, by decide +kernel⟩

lemma isNeedle_endofhead : IsNeedle MRJ_ENDOFHEAD := ⟨by decide, by decide⟩

section

variable {w stored : List UInt8}

lemma add_length_le_of_find (hw : IsNeedle w) {k : ℕ} (h : find w (cstr stored) = some k) :
    k + w.length ≤ stored.length :=
  (le_of_find hw.ne_nil h).trans (length_cstr_le stored)

/-- What is found in the response is found whatever follows. -/
lemma search_found (hw : IsNeedle w) {k : ℕ} (h : find w (cstr stored) = some k)
    (r : List UInt8) : pStrcasestr (stored ++ r) w = some k := by
  rw [pStrcasestr_eq_find hw.ne_nil hw.zero_notMem]
  by_cases hmem : (0 : UInt8) ∈ stored
  · rw [cstr_append_of_mem hmem, h]
  · rw [cstr_of_notMem hmem] at h
    rw [cstr_append hmem, find_append hw.ne_nil _ h]

lemma search_of_mem (hw : IsNeedle w) (hmem : (0 : UInt8) ∈ stored) (r : List UInt8) :
    pStrcasestr (stored ++ r) w = find w (cstr stored) := by
  rw [pStrcasestr_eq_find hw.ne_nil hw.zero_notMem, cstr_append_of_mem hmem]

/-- What the response lacks is found no earlier than in the overlap. -/
lemma search_late (hw : IsNeedle w) (hmem : (0 : UInt8) ∉ stored)
    (h : find w (cstr stored) = none) {r : List UInt8} {p : ℕ} (hp : pStrcasestr (stored ++ r) w = some p) :
    stored.length ≤ p + overlap w stored ∧ p + w.length ≤ (cstr (stored ++ r)).length := by
  rw [pStrcasestr_eq_find hw.ne_nil hw.zero_notMem] at hp
  refine ⟨?_, le_of_find hw.ne_nil hp⟩
  rw [cstr_of_notMem hmem] at h
  rw [cstr_append hmem] at hp
  exact length_le_of_prefix_drop hw.ne_nil h (prefix_drop_of_find hp)

/-- What the overlap lacks completes the word. -/
lemma search_completed (hw : IsNeedle w) (hmem : (0 : UInt8) ∉ stored)
    (h : find w (cstr stored) = none) (r : List UInt8) :
    pStrcasestr (stored ++ (w.drop (overlap w stored) ++ r)) w = some (stored.length - overlap w stored) := by
  have hrest : (0 : UInt8) ∉ w.drop (overlap w stored) := fun h' => hw.zero_notMem (List.mem_of_mem_drop h')
  rw [cstr_of_notMem hmem] at h
  rw [pStrcasestr_eq_find hw.ne_nil hw.zero_notMem, cstr_append hmem, cstr_append hrest, find_overlap hw.ne_nil h]

end

/-! ### The memory behind the buffer -/

lemma Session.behind_cases (s : Session) : ∃ v, (v = 0 ∨ v = 1) ∧ s.behind = v :: [0, 0, 0] := by
  rw [Session.behind]
  split
  · exact ⟨1, Or.inr rfl, rfl⟩
  · exact ⟨0, Or.inl rfl, rfl⟩

lemma Session.number_behind (s : Session) (t : List UInt8) : number (t ++ s.behind) = number t := by
  obtain ⟨v, hv | hv, hbehind⟩ := s.behind_cases <;> rw [hbehind, hv]
  · exact number_stop isStop_zero _ _
  · exact number_stop ⟨by decide, by decide, by decide⟩ _ _

lemma Session.number_drop_behind (s : Session) (i : ℕ) : number (s.behind.drop i) = 0 := by
  cases i with
  | zero => exact s.number_behind []
  | succ i =>
      obtain ⟨v, -, hbehind⟩ := s.behind_cases
      have hzeros : ([0, 0, 0] : List UInt8).drop i = List.replicate (3 - i) 0 :=
        List.drop_replicate (n := 3)
      rw [hbehind, List.drop_succ_cons, hzeros]
      cases 3 - i with
      | zero => rfl
      | succ k => exact number_stop isStop_zero [] _

section

variable {stored : List UInt8}

lemma Session.memory_eq (s : Session) (hle : stored.length ≤ MRJ_MAX_RESPHEAD) :
    ∃ buffer : List UInt8, buffer.length = MRJ_MAX_RESPHEAD ∧
      stored ++ s.rest stored.length = buffer ++ s.behind := by
  refine ⟨stored ++ s.responseRecv.drop stored.length, ?_, (List.append_assoc _ _ _).symm⟩
  rw [List.length_append, List.length_drop, s.length_eq]
  omega

lemma Session.number_drop_memory (s : Session) (hle : stored.length ≤ MRJ_MAX_RESPHEAD) {i : ℕ}
    (hi : MRJ_MAX_RESPHEAD ≤ i) : number ((stored ++ s.rest stored.length).drop i) = 0 := by
  obtain ⟨buffer, hlen, hmem⟩ := s.memory_eq hle
  rw [hmem, List.drop_append, List.drop_eq_nil_of_le (by omega), List.nil_append]
  exact s.number_drop_behind _

lemma Session.rest_of_full (s : Session) (h : stored.length = MRJ_MAX_RESPHEAD) :
    s.rest stored.length = s.behind := by
  rw [Session.rest, h, ← s.length_eq, List.drop_length, List.nil_append]

end

/-! ### Numbers -/

section

variable {w stored : List UInt8}

/-- **A decided number** is the one in the response, in every session. -/
lemma numberBehind_of_decided (hw : IsWord w) (hle : stored.length ≤ MRJ_MAX_RESPHEAD) (h : WordDecided w stored)
    (s : Session) : numberBehind w (stored ++ s.rest stored.length) = announced w stored := by
  rw [WordDecided] at h
  rw [announced]
  cases hfind : find w (cstr stored) with
  | none =>
      simp only [hfind] at h
      by_cases hmem : (0 : UInt8) ∈ stored
      · rw [numberBehind, search_of_mem hw.toIsNeedle hmem, hfind]
      · have hfull := h.resolve_left hmem
        rw [numberBehind]
        split
        · rename_i p hp
          have hlate := (search_late hw.toIsNeedle hmem hfind hp).1
          exact s.number_drop_memory hle (by omega)
        · rfl
  | some k =>
      simp only [hfind] at h
      rw [numberBehind, search_found hw.toIsNeedle hfind]
      dsimp only
      by_cases hin : k + w.length + 1 ≤ stored.length
      · rw [List.drop_append_of_le_length hin]
        rcases h with hsettled | hfull
        · exact number_append hsettled _
        · rw [s.rest_of_full (by omega)]
          exact s.number_behind _
      · have hnil : stored.drop (k + w.length + 1) = [] := List.drop_eq_nil_of_le (by omega)
        rw [hnil] at h ⊢
        have hfull := h.resolve_left not_settled_nil
        rw [s.number_drop_memory hle (by omega), number_nil]

/-- With a character behind it that belongs to neither word nor number the response is read alone. -/
lemma numberBehind_stop (hw : IsWord w) {c : UInt8} (hmem : c ∉ w) (hstop : IsStop c) (r : List UInt8) :
    numberBehind w (stored ++ c :: 0 :: r) = announced w stored := by
  have hsearch : find w (cstr (stored ++ c :: 0 :: r)) = find w (cstr stored) := by
    by_cases hzero : (0 : UInt8) ∈ stored
    · rw [cstr_append_of_mem hzero]
    · by_cases hc : c = 0
      · rw [hc, cstr_append_zero]
      · have hnot : (0 : UInt8) ∉ stored ++ [c] := by
          rw [List.mem_append, List.mem_singleton, not_or]
          exact ⟨hzero, Ne.symm hc⟩
        have hsplit : stored ++ c :: 0 :: r = (stored ++ [c]) ++ 0 :: r := by simp
        rw [hsplit, cstr_append_zero, cstr_of_notMem hnot, cstr_of_notMem hzero, find_append_notMem hw.ne_nil hmem]
  rw [numberBehind, announced, pStrcasestr_eq_find hw.ne_nil hw.zero_notMem, hsearch]
  cases hfind : find w (cstr stored) with
  | none => rfl
  | some k =>
      dsimp only
      have hk := add_length_le_of_find hw.toIsNeedle hfind
      by_cases hin : k + w.length + 1 ≤ stored.length
      · rw [List.drop_append_of_le_length hin, number_stop hstop]
      · have hdrop : (stored ++ c :: 0 :: r).drop (k + w.length + 1) = 0 :: r := by
          have hone : stored ++ c :: 0 :: r = (stored ++ [c]) ++ 0 :: r := by simp
          rw [hone]
          refine List.drop_left' ?_
          rw [List.length_append, List.length_singleton]
          omega
        rw [hdrop, List.drop_eq_nil_of_le (by omega)]
        exact number_stop isStop_zero [] r

lemma numberBehind_zeros (hw : IsWord w) (r : List UInt8) :
    numberBehind w (stored ++ 0 :: 0 :: r) = announced w stored :=
  numberBehind_stop hw hw.zero_notMem isStop_zero r

lemma goesOn_of_isBreak {bs : List UInt8} (h : ∀ c ∈ bs, isBreak c = false) : GoesOn 4 0 bs := by
  induction bs with
  | nil => trivial
  | cons c bs ih =>
      have hc : nextOver 0 c = 0 := by rw [nextOver, if_neg (by rw [h c List.mem_cons_self]; decide)]
      refine ⟨by rw [hc]; decide, ?_⟩
      rw [hc]
      exact ih fun d hd => h d (List.mem_cons_of_mem c hd)

/-- Behind a word that is completed a number can stand. -/
lemma numberBehind_completed (hw : IsWord w) (hmem : (0 : UInt8) ∉ stored) (hfind : find w (cstr stored) = none)
    (r : List UInt8) :
    numberBehind w (stored ++ (w.drop (overlap w stored) ++ [0x20] ++ 0x35 :: 0 :: r)) ≠ 0 := by
  have hoverlap := overlap_le w stored
  have hstored := overlap_le_length w stored
  have hfound := search_completed hw.toIsNeedle hmem hfind (0x20 :: 0x35 :: 0 :: r)
  have hmemory : stored ++ (w.drop (overlap w stored) ++ [0x20] ++ 0x35 :: 0 :: r) =
      stored ++ (w.drop (overlap w stored) ++ 0x20 :: 0x35 :: 0 :: r) := by simp
  have hplace : (stored ++ (w.drop (overlap w stored) ++ [0x20])).length =
      stored.length - overlap w stored + w.length + 1 := by
    rw [List.length_append, List.length_append, List.length_drop, List.length_singleton]
    omega
  rw [numberBehind, hmemory, hfound, ← hmemory, ← List.append_assoc]
  dsimp only
  rw [List.drop_left' hplace]
  exact number_not_settled not_settled_nil r

/-- Behind a word that is found a digit more can stand. -/
lemma numberBehind_extended (hw : IsWord w) {k : ℕ} (hfind : find w (cstr stored) = some k)
    (hsettled : ¬NumberSettled (stored.drop (k + w.length + 1))) {t : List UInt8}
    (hin : k + w.length + 1 ≤ stored.length ∧ t = [] ∨ (stored ++ t).length = k + w.length + 1) (r : List UInt8) :
    numberBehind w (stored ++ (t ++ 0x35 :: 0 :: r)) ≠ number (stored.drop (k + w.length + 1)) := by
  rw [numberBehind, search_found hw.toIsNeedle hfind]
  dsimp only
  rcases hin with ⟨hin, rfl⟩ | hplace
  · rw [List.nil_append, List.drop_append_of_le_length hin]
    exact number_not_settled hsettled r
  · have hshort := List.length_append ▸ hplace
    rw [← List.append_assoc, List.drop_left' hplace, List.drop_eq_nil_of_le (by omega)]
    exact number_not_settled not_settled_nil r

/-- **A number that is not decided** is another one with the right characters behind the response. -/
lemma numberBehind_of_not_decided (hw : IsWord w) (h : ¬WordDecided w stored) :
    ∃ t, GoesOn 4 0 t ∧ (0 : UInt8) ∉ t ∧ stored.length + t.length < MRJ_MAX_RESPHEAD ∧
      ∀ r, numberBehind w (stored ++ (t ++ 0x35 :: 0 :: r)) ≠ announced w stored := by
  rw [WordDecided] at h
  rw [announced]
  cases hfind : find w (cstr stored) with
  | none =>
      simp only [hfind, not_or, not_le] at h
      obtain ⟨hmem, hroom⟩ := h
      have hoverlap := overlap_le w stored
      have hstored := overlap_le_length w stored
      refine ⟨w.drop (overlap w stored) ++ [0x20], goesOn_of_isBreak ?_, ?_, ?_,
        numberBehind_completed hw hmem hfind⟩
      · intro c hc
        rcases List.mem_append.1 hc with hc | hc
        · exact hw.isBreak_eq c (List.mem_of_mem_drop hc)
        · rw [List.mem_singleton.1 hc]
          rfl
      · rw [List.mem_append, not_or]
        exact ⟨fun hdrop => hw.zero_notMem (List.mem_of_mem_drop hdrop), by decide⟩
      · rw [List.length_append, List.length_drop, List.length_singleton]
        omega
  | some k =>
      simp only [hfind, not_or, not_le, max_lt_iff] at h
      obtain ⟨hsettled, hroom, hroom'⟩ := h
      have hk := add_length_le_of_find hw.toIsNeedle hfind
      by_cases hin : k + w.length + 1 ≤ stored.length
      · exact ⟨[], trivial, List.not_mem_nil, hroom,
          numberBehind_extended hw hfind hsettled (Or.inl ⟨hin, rfl⟩)⟩
      · -- the character behind the word, which is skipped, is one that was left
        have hplace : (stored ++ [(0x78 : UInt8)]).length = k + w.length + 1 := by
          rw [List.length_append, List.length_singleton]
          omega
        refine ⟨[0x78], by decide, by decide, ?_, numberBehind_extended hw hfind hsettled (Or.inr hplace)⟩
        rw [List.length_singleton]
        omega

end

/-! ### The body -/

/-- What is missing of the end of a head: its last character is a line feed. -/
lemma drop_endofhead {j : ℕ} (h : j < 4) :
    ∃ t, MRJ_ENDOFHEAD.drop j = t ++ [LF] ∧ GoesOn 4 0 t ∧ t.length = 3 - j := by
  refine ⟨(MRJ_ENDOFHEAD.drop j).dropLast, ?_⟩
  interval_cases j <;> decide

lemma parseResponse_recvData (m : List UInt8) : (parseResponse true m).1.recvData =
    (pStrcasestr m MRJ_ENDOFHEAD).map fun p =>
      bodyAt (toUnsigned (numberBehind MRJ_CONTENTLEN m)) (m.drop (p + MRJ_ENDOFHEAD.length)) := by
  rw [parseResponse]
  cases pStrcasestr m MRJ_ENDOFHEAD <;> rfl

/-- The body of a POST depends on the string behind the head only. -/
lemma bodyAt_congr (n : ℕ) {a b : List UInt8} (h : cstr a = cstr b) : bodyAt n a = bodyAt n b := by
  rw [bodyAt, bodyAt, strlen, strlen, strncpy, strncpy, strncpy, strncpy, h]

lemma bodyAt_append {n : ℕ} (hpos : 0 < n) {peoh : List UInt8} (hn : n ≤ peoh.length) (r : List UInt8) :
    bodyAt n (peoh ++ r) = bodyAt n peoh := by
  rw [bodyAt, bodyAt, if_pos (by omega), if_pos (by omega), strncpy, strncpy, take_cstr_append hn]

lemma length_bodyAt (n : ℕ) (peoh : List UInt8) : (bodyAt n peoh).length = if n ≠ 0 then n else strlen peoh := by
  rw [bodyAt]
  split <;> exact length_strncpy _ _

lemma cstr_bodyAt (n : ℕ) (peoh : List UInt8) :
    cstr (bodyAt n peoh) = if n ≠ 0 then (cstr peoh).take n else cstr peoh := by
  rw [bodyAt]
  split
  · exact cstr_strncpy n peoh
  · rw [cstr_strncpy, strlen, List.take_length]

/-- A body that is not announced, or longer than what stands there, takes up what follows. -/
lemma bodyAt_ne {n : ℕ} {peoh : List UInt8} (hmem : (0 : UInt8) ∉ peoh) (h : ¬(0 < n ∧ n ≤ peoh.length))
    (r r' : List UInt8) : bodyAt n (peoh ++ 0x78 :: 0 :: r) ≠ bodyAt n (peoh ++ 0 :: r') := by
  have hlonger : cstr (peoh ++ 0x78 :: 0 :: r) = peoh ++ [0x78] := by
    have hsplit : peoh ++ 0x78 :: 0 :: r = (peoh ++ [0x78]) ++ 0 :: r := by simp
    have hnot : (0 : UInt8) ∉ peoh ++ [0x78] := by simpa using hmem
    rw [hsplit, cstr_append_zero, cstr_of_notMem hnot]
  have hshorter : cstr (peoh ++ 0 :: r') = peoh := cstr_eq hmem r'
  intro heq
  have hstring : cstr (bodyAt n (peoh ++ 0x78 :: 0 :: r)) = cstr (bodyAt n (peoh ++ 0 :: r')) := congrArg cstr heq
  rw [cstr_bodyAt, cstr_bodyAt, hlonger, hshorter] at hstring
  have hlength := congrArg List.length hstring
  split at hlength
  · rw [List.length_take, List.length_take, List.length_append, List.length_singleton] at hlength
    omega
  · rw [List.length_append, List.length_singleton] at hlength
    omega

section

variable {stored : List UInt8}

/-- A NUL in the response stands behind what is found in it. -/
lemma zero_mem_drop_of_find {w : List UInt8} (hw : IsNeedle w) (hmem : (0 : UInt8) ∈ stored) {k : ℕ}
    (hfind : find w (cstr stored) = some k) : (0 : UInt8) ∈ stored.drop (k + w.length) := by
  have hcstr := le_of_find hw.ne_nil hfind
  have hplace := getElem?_strlen hmem
  rw [List.mem_iff_getElem?]
  refine ⟨strlen stored - (k + w.length), ?_⟩
  rw [List.getElem?_drop, ← hplace]
  congr 1
  rw [strlen]
  omega

/-- What is found ends in the buffer: the option behind it belongs to no end of a head. -/
lemma Session.found_in_buffer (s : Session) (hle : stored.length ≤ MRJ_MAX_RESPHEAD) {p : ℕ}
    (hp : pStrcasestr (stored ++ s.rest stored.length) MRJ_ENDOFHEAD = some p) :
    p + MRJ_ENDOFHEAD.length ≤ MRJ_MAX_RESPHEAD := by
  rw [pStrcasestr_eq_find isNeedle_endofhead.ne_nil isNeedle_endofhead.zero_notMem] at hp
  obtain ⟨buffer, hbuffer, hmemory⟩ := s.memory_eq hle
  obtain ⟨v, hv, hbehind⟩ := s.behind_cases
  have hpre := (prefix_drop_of_find hp).trans ((List.takeWhile_prefix _).drop p)
  rw [hmemory, hbehind] at hpre
  have hv' : v ∉ MRJ_ENDOFHEAD := by rcases hv with rfl | rfl <;> decide
  have hend := le_of_find isNeedle_endofhead.ne_nil hp
  have hcstr : (cstr (stored ++ s.rest stored.length)).length ≤ buffer.length + 4 := by
    rw [hmemory, hbehind]
    refine (length_cstr_le _).trans ?_
    simp
  have hlen4 : MRJ_ENDOFHEAD.length = 4 := rfl
  have hin := add_length_le_of_notMem hv' (by omega) hpre
  omega

/-- Without an end of the head in the response, and with none that could follow, none is found. -/
lemma Session.search_endofhead (s : Session) (hle : stored.length ≤ MRJ_MAX_RESPHEAD)
    (hfind : find MRJ_ENDOFHEAD (cstr stored) = none) (h : BodyDecided stored) :
    pStrcasestr (stored ++ s.rest stored.length) MRJ_ENDOFHEAD = none := by
  simp only [BodyDecided, hfind] at h
  by_cases hmem : (0 : UInt8) ∈ stored
  · rw [search_of_mem isNeedle_endofhead hmem, hfind]
  · have hfull := h.resolve_left hmem
    rw [Option.eq_none_iff_forall_ne_some]
    intro p hp
    obtain ⟨hlate, -⟩ := search_late isNeedle_endofhead hmem hfind hp
    have hin := s.found_in_buffer hle hp
    omega

/-- **A decided body** is the same one in every session in which there is room behind the response. -/
lemma recvData_of_decided (hroom : stored.length < MRJ_MAX_RESPHEAD) (hlen : WordDecided MRJ_CONTENTLEN stored)
    (h : BodyDecided stored) (s s' : Session) :
    (parseResponse true (stored ++ s.rest stored.length)).1.recvData =
      (parseResponse true (stored ++ s'.rest stored.length)).1.recvData := by
  rw [parseResponse_recvData, parseResponse_recvData, numberBehind_of_decided isWord_contentlen hroom.le hlen,
    numberBehind_of_decided isWord_contentlen hroom.le hlen]
  cases hfind : find MRJ_ENDOFHEAD (cstr stored) with
  | none =>
      rw [s.search_endofhead hroom.le hfind h, s'.search_endofhead hroom.le hfind h]
      rfl
  | some k =>
      simp only [BodyDecided, hfind] at h
      have hk := add_length_le_of_find isNeedle_endofhead hfind
      rw [search_found isNeedle_endofhead hfind,
        search_found isNeedle_endofhead hfind, Option.map_some, Option.map_some,
        List.drop_append_of_le_length hk, List.drop_append_of_le_length hk]
      congr 1
      rcases h with hmem | hfull | ⟨hpos, hin⟩
      · refine bodyAt_congr _ ?_
        have htail := zero_mem_drop_of_find isNeedle_endofhead hmem hfind
        rw [cstr_append_of_mem htail, cstr_append_of_mem htail]
      · omega
      · have hcovered : toUnsigned (announced MRJ_CONTENTLEN stored) ≤
            (stored.drop (k + MRJ_ENDOFHEAD.length)).length := by
          rw [List.length_drop]
          omega
        rw [bodyAt_append hpos hcovered, bodyAt_append hpos hcovered]

/-- **A body that is not decided** is another one with the right characters behind the response. -/
lemma recvData_of_not_decided (h : ¬BodyDecided stored) :
    ∃ t c, GoesOn 4 0 t ∧ stored.length + t.length < MRJ_MAX_RESPHEAD ∧ ∀ r r',
      numberBehind MRJ_CONTENTLEN (stored ++ (t ++ c :: 0 :: r)) = announced MRJ_CONTENTLEN stored →
      (parseResponse true (stored ++ (t ++ c :: 0 :: r))).1.recvData ≠
        (parseResponse true (stored ++ 0 :: 0 :: r')).1.recvData := by
  rw [BodyDecided] at h
  cases hfind : find MRJ_ENDOFHEAD (cstr stored) with
  | none =>
      simp only [hfind, not_or, not_lt] at h
      obtain ⟨hmem, hroom⟩ := h
      have hoverlap := overlap_le_length MRJ_ENDOFHEAD stored
      have hshort : overlap MRJ_ENDOFHEAD stored < 4 := by
        by_contra hlong
        have hself := find_overlap isNeedle_endofhead.ne_nil (cstr_of_notMem hmem ▸ hfind) []
        rw [List.drop_eq_nil_of_le (by rw [not_lt] at hlong; exact hlong), List.append_nil, List.append_nil,
          ← cstr_of_notMem hmem, hfind] at hself
        cases hself
      obtain ⟨t, ht, hgo, htlen⟩ := drop_endofhead hshort
      have hlen4 : MRJ_ENDOFHEAD.length = 4 := rfl
      refine ⟨t, LF, hgo, by omega, fun r r' _ => ?_⟩
      have hfound := search_completed isNeedle_endofhead hmem hfind (0 :: r)
      rw [ht, List.append_assoc] at hfound
      rw [parseResponse_recvData, parseResponse_recvData,
        pStrcasestr_eq_find isNeedle_endofhead.ne_nil isNeedle_endofhead.zero_notMem (stored ++ 0 :: 0 :: r'),
        cstr_append_zero, hfind]
      change pStrcasestr (stored ++ (t ++ LF :: 0 :: r)) MRJ_ENDOFHEAD = _ at hfound
      rw [hfound, Option.map_some, Option.map_none]
      exact Option.some_ne_none _
  | some k =>
      simp only [hfind, not_or, not_le] at h
      obtain ⟨hmem, hroom, hshort⟩ := h
      have hk := add_length_le_of_find isNeedle_endofhead hfind
      refine ⟨[], 0x78, trivial, hroom, fun r r' hsame => ?_⟩
      rw [List.nil_append] at hsame ⊢
      rw [parseResponse_recvData, parseResponse_recvData, hsame, numberBehind_zeros isWord_contentlen,
        search_found isNeedle_endofhead hfind,
        search_found isNeedle_endofhead hfind, Option.map_some, Option.map_some,
        List.drop_append_of_le_length hk, List.drop_append_of_le_length hk]
      intro heq
      refine bodyAt_ne (fun h' => hmem (List.mem_of_mem_drop h')) ?_ r (0 :: r') (Option.some_inj.1 heq)
      rw [List.length_drop]
      omega

end

/-! ### What is computed -/

lemma parseResponse_httpcode (post : Bool) (m : List UInt8) :
    (parseResponse post m).1.httpcode = numberBehind MRJ_HTTPID m := by
  rw [parseResponse]
  cases pStrcasestr m MRJ_ENDOFHEAD <;> rfl

lemma parseResponse_contentLen (post : Bool) (m : List UInt8) :
    (parseResponse post m).1.contentLen = toUnsigned (numberBehind MRJ_CONTENTLEN m) := by
  rw [parseResponse]
  cases pStrcasestr m MRJ_ENDOFHEAD <;> rfl

/-- A GET has no body here. -/
lemma parseResponse_recvData_get (m : List UInt8) : (parseResponse false m).1.recvData = none := by
  rw [parseResponse]
  cases pStrcasestr m MRJ_ENDOFHEAD <;> rfl

lemma numberBehind_eq_number (w m : List UInt8) : ∃ a, numberBehind w m = number a := by
  rw [numberBehind]
  split
  · exact ⟨_, rfl⟩
  · exact ⟨[], rfl⟩

lemma toUnsigned_numberBehind_inj {w m m' : List UInt8}
    (h : toUnsigned (numberBehind w m) = toUnsigned (numberBehind w m')) :
    numberBehind w m = numberBehind w m' := by
  obtain ⟨a, ha⟩ := numberBehind_eq_number w m
  obtain ⟨b, hb⟩ := numberBehind_eq_number w m'
  rw [ha, hb] at h ⊢
  exact toUnsigned_number_inj.1 h

section

variable {post : Bool} {turns : List ByteTurn}

lemma sendHcmd_computed (hok : (receive post turns).status = some .MRJE_OK) (s : Session) :
    (sendHcmd post s turns).computed =
      some (parseResponse post ((receive post turns).stored ++ s.rest (receive post turns).stored.length)).1 := by
  simp only [sendHcmd, hok]

lemma sendHcmd_computed_eq_none (hok : (receive post turns).status ≠ some .MRJE_OK) (s : Session) :
    (sendHcmd post s turns).computed = none := by
  simp only [sendHcmd]
  split
  · rfl
  · rename_i h
    exact absurd h hok
  · rfl

/-- What has been left behind the response does not show. -/
lemma SameComputed.parse_eq (h : SameComputed post turns) (hok : (receive post turns).status = some .MRJE_OK)
    {t : List UInt8} (c : UInt8) (hgo : GoesOn 4 0 t)
    (hlen : (receive post turns).stored.length + t.length < MRJ_MAX_RESPHEAD) :
    ∃ r r', (parseResponse post ((receive post turns).stored ++ (t ++ c :: 0 :: r))).1 =
      (parseResponse post ((receive post turns).stored ++ 0 :: 0 :: r')).1 := by
  obtain ⟨s, r, hleft, hverbose, hrest⟩ := exists_left c hgo hlen
  have hzeros : Session.init.rest (receive post turns).stored.length =
      0 :: 0 :: List.replicate (MRJ_MAX_RESPHEAD + 2 - (receive post turns).stored.length) 0 := by
    rw [Session.rest_init (by omega), ← List.replicate_succ, ← List.replicate_succ]
    congr 1
    omega
  have hsame := h s Session.init hleft .init hverbose
  rw [sendHcmd_computed hok, sendHcmd_computed hok, hrest, hzeros] at hsame
  exact ⟨r, _, Option.some_inj.1 hsame⟩

/-- A number that shows nothing of what has been left is decided. -/
lemma SameComputed.word_decided (h : SameComputed post turns) (hok : (receive post turns).status = some .MRJE_OK)
    {w : List UInt8} (hw : IsWord w)
    (hreads : ∀ m m', (parseResponse post m).1 = (parseResponse post m').1 →
      numberBehind w m = numberBehind w m') :
    WordDecided w (receive post turns).stored := by
  by_contra hnot
  obtain ⟨t, hgo, -, hlen, hdiffer⟩ := numberBehind_of_not_decided hw hnot
  obtain ⟨r, r', hparse⟩ := h.parse_eq hok 0x35 hgo hlen
  have hnumber := hreads _ _ hparse
  rw [numberBehind_zeros hw] at hnumber
  exact hdiffer r hnumber

end

end DeviceTools.Http
