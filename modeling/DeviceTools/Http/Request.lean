/-
The request of a POST.

`http_transfer` formats the head into `request_send` and copies the head and the body to a buffer
of its own, in which there is a byte more for the NUL behind them; this byte is counted in the
length that is handed to `send_data`.  `send_data` keeps the result of `send` in a `size_t`, so that
a failed `send` takes one byte off the counter, and at the counter 0 makes it as large as it can be.
-/
import DeviceTools.Http.Session
import DeviceTools.Lib.CText

namespace DeviceTools.Http

open CText

/-! ### Sending -/

/-- What a call of `send` does: it takes up to `k` of the bytes offered, or it fails. -/
inductive Send where
  | takes (k : ℕ)
  | fails
deriving DecidableEq, Repr

/-- A turn of the loop: what `send` does, and whether the time is over behind it. -/
structure SendTurn where
  send : Send
  timeUp : Bool
deriving DecidableEq, Repr

/-- The bytes that the socket has accepted, and the value returned, `none` while the loop is
running. -/
structure Sent where
  accepted : List UInt8
  status : Option MRJEcode
deriving DecidableEq, Repr

/-- The number of bytes taken of `offered`. -/
def Send.taken : Send → ℕ → ℕ
  | .takes k, offered => min k offered
  | .fails, _ => 0

/-- The result of `send`, as a `size_t`. -/
def Send.perBytes : Send → ℕ → ℕ
  | .takes k, offered => min k offered
  | .fails, _ => MINUS_ONE

/-- The loop of `send_data`. -/
def sendLoop (hcmd : List UInt8) (n : ℕ) : List SendTurn → ℕ → Sent
  | [], _ => ⟨[], none⟩
  | t :: turns, alreadyBytes =>
      let perBytes := t.send.perBytes (n - alreadyBytes)
      let taken := (hcmd.drop alreadyBytes).take (t.send.taken (n - alreadyBytes))
      if perBytes = 0 then ⟨taken, some .MRJE_DISCONNHOST⟩
      else
        let already := (alreadyBytes + perBytes) % SIZE_T
        if t.timeUp then ⟨taken, some .MRJE_TIME_OUT⟩
        else if already < n then
          let r := sendLoop hcmd n turns already
          ⟨taken ++ r.accepted, r.status⟩
        else ⟨taken, some .MRJE_OK⟩

/-- `send_data`. -/
def sendData (hcmd : List UInt8) (n : ℕ) (turns : List SendTurn) : Sent := sendLoop hcmd n turns 0

/-! ### The buffer -/

/-- The decimal digits of a number. -/
def digits (n : ℕ) : List UInt8 := (Nat.toDigits 10 n).map fun c => UInt8.ofNat c.toNat

/-- A `size_t` as `%d` writes it: its bits are read with a sign. -/
def decimal (n : ℕ) : List UInt8 := if n < 2 ^ 31 then digits n else 0x2D :: digits (SIZE_T - n)

/-- `S_pos_head` with its arguments. -/
def posHead (path host : List UInt8) (dataLen : ℕ) : List UInt8 :=
  text "POST " ++ path ++ text " HTTP/1.0\r\nAccept: */*\r\nHOST: " ++ host ++
    text "\r\nContent-Length: " ++ decimal dataLen ++
    text "\r\nContent-Type: application/x-www-form-urlencoded\r\n\r\n"

/-- What `snprintf` with the given size writes of a text. -/
def snprintf (size : ℕ) (s : List UInt8) : List UInt8 := s.take (size - 1) ++ [0]

/-- The strings of a POST, each as its memory. -/
structure PostData where
  remotePath : List UInt8
  host : List UInt8
  sendData : List UInt8

def PostData.head (d : PostData) : List UInt8 := posHead (cstr d.remotePath) (cstr d.host) (strlen d.sendData)

/-- The length that `http_transfer` hands to `send_hcmd`. -/
def PostData.totalLen (d : PostData) : ℕ := (d.head.length + strlen d.sendData + 1) % SIZE_T

/-- The buffer that `http_transfer` hands to `send_hcmd`. -/
def PostData.buffer (d : PostData) : List UInt8 :=
  let send := List.replicate d.totalLen 0
  let requestSend := snprintf (MRJ_MAX_REQHEAD - 1) d.head
  let send := if cstr requestSend = [] then send else strcpy send requestSend
  strcat send d.sendData

/-- The request of a POST on the wire. -/
def PostData.sent (d : PostData) (turns : List SendTurn) : Sent := Http.sendData d.buffer d.totalLen turns

/-! ### What the buffer holds -/

lemma zero_notMem_digits (n : ℕ) : (0 : UInt8) ∉ digits n := by
  intro h
  obtain ⟨c, hc, hzero⟩ := List.mem_map.1 h
  have hdigit := Nat.isDigit_of_mem_toDigits (by decide) (by decide) hc
  simp only [Char.isDigit, Bool.and_eq_true, decide_eq_true_eq, ge_iff_le, UInt32.le_iff_toNat_le] at hdigit
  have hnat : c.toNat % 256 = 0 := congrArg UInt8.toNat hzero
  have hlow : 48 ≤ c.toNat := hdigit.1
  have hhigh : c.toNat ≤ 57 := hdigit.2
  omega

lemma PostData.zero_notMem_head (d : PostData) : (0 : UInt8) ∉ d.head := by
  have hdecimal : (0 : UInt8) ∉ decimal (strlen d.sendData) := by
    rw [decimal]
    split
    case isTrue => exact zero_notMem_digits _
    case isFalse => exact List.not_mem_cons_of_ne_of_not_mem (by decide) (zero_notMem_digits _)
  simp only [PostData.head, posHead, List.mem_append, not_or]
  exact ⟨⟨⟨⟨⟨⟨by decide +kernel, zero_notMem_cstr _⟩, by decide +kernel⟩, zero_notMem_cstr _⟩, by decide +kernel⟩,
    hdecimal⟩, by decide +kernel⟩

/-- The head fits `request_send`, and the body lies in memory beside it. -/
structure PostData.Fits (d : PostData) : Prop where
  head : d.head.length < MRJ_MAX_REQHEAD
  body : strlen d.sendData + MRJ_MAX_REQHEAD < SIZE_T

section

variable {d : PostData}

/-- A byte more than the head and the body is counted. -/
lemma PostData.totalLen_eq (h : d.Fits) : d.totalLen = d.head.length + strlen d.sendData + 1 := by
  have hhead := h.head
  have hbody := h.body
  exact Nat.mod_eq_of_lt (by omega)

lemma PostData.length_head_pos (d : PostData) : 0 < d.head.length := by
  have hpost : (text "POST ").length = 5 := by decide
  simp only [PostData.head, posHead, List.length_append, hpost]
  omega

/-- What `snprintf` writes: it is given a byte less than there is. -/
lemma cstr_snprintf (d : PostData) :
    cstr (snprintf (MRJ_MAX_REQHEAD - 1) d.head) = d.head.take (MRJ_MAX_REQHEAD - 2) :=
  cstr_eq (fun hm => d.zero_notMem_head (List.mem_of_mem_take hm)) []

/-- The head that was written, the body and a NUL. -/
lemma PostData.buffer_eq (d : PostData) :
    d.buffer = d.head.take (MRJ_MAX_REQHEAD - 2) ++ (cstr d.sendData ++ 0 ::
      (List.replicate d.totalLen 0).drop
        ((d.head.take (MRJ_MAX_REQHEAD - 2)).length + (cstr d.sendData).length + 1)) := by
  have hzero : (0 : UInt8) ∉ d.head.take (MRJ_MAX_REQHEAD - 2) := fun hm =>
    d.zero_notMem_head (List.mem_of_mem_take hm)
  have hne : cstr (snprintf (MRJ_MAX_REQHEAD - 1) d.head) ≠ [] := by
    rw [cstr_snprintf, ← List.length_pos_iff, List.length_take]
    exact lt_min (by decide) d.length_head_pos
  rw [PostData.buffer, if_neg hne]
  exact strcat_strcpy_eq hzero [] _ _ rfl

lemma PostData.length_buffer (h : d.Fits) : d.buffer.length = d.totalLen := by
  have htotal := totalLen_eq h
  have htake : (d.head.take (MRJ_MAX_REQHEAD - 2)).length ≤ d.head.length := by
    rw [List.length_take]
    exact Nat.min_le_right _ _
  rw [PostData.buffer_eq, List.length_append, List.length_append, List.length_cons, List.length_drop,
    List.length_replicate]
  rw [strlen] at htotal
  omega

/-- A head that is not cut stands in the buffer as it is, and with the body and the NUL it fills
the buffer. -/
lemma PostData.buffer_of_lt (h : d.Fits) (hlt : d.head.length + 1 < MRJ_MAX_REQHEAD) :
    d.buffer = d.head ++ (cstr d.sendData ++ [0]) := by
  have htake : d.head.take (MRJ_MAX_REQHEAD - 2) = d.head := List.take_of_length_le (by omega)
  have hdrop : (List.replicate d.totalLen (0 : UInt8)).drop (d.head.length + (cstr d.sendData).length + 1) = [] := by
    refine List.drop_eq_nil_of_le ?_
    rw [List.length_replicate, totalLen_eq h, strlen]
  rw [PostData.buffer_eq, htake, hdrop]

end

/-! ### What is sent -/

/-- **Without a failed `send` everything is sent**, from where the loop stands, when it ends with
success. -/
lemma sendLoop_accepted {hcmd : List UInt8} (hn : hcmd.length < SIZE_T) {turns : List SendTurn}
    (hturns : ∀ t ∈ turns, t.send ≠ .fails) : ∀ alreadyBytes ≤ hcmd.length,
      (sendLoop hcmd hcmd.length turns alreadyBytes).status = some .MRJE_OK →
        (sendLoop hcmd hcmd.length turns alreadyBytes).accepted = hcmd.drop alreadyBytes := by
  induction turns with
  | nil =>
      intro alreadyBytes _ hok
      cases hok
  | cons t turns ih =>
      intro alreadyBytes ha hok
      have hnext := ih fun t' ht' => hturns t' (List.mem_cons_of_mem _ ht')
      cases hsend : t.send with
      | fails => exact absurd hsend (hturns t List.mem_cons_self)
      | takes k =>
          simp only [sendLoop, hsend, Send.perBytes, Send.taken] at hok ⊢
          generalize hrc : min k (hcmd.length - alreadyBytes) = rc at hok ⊢
          have hle : alreadyBytes + rc ≤ hcmd.length := by omega
          rw [Nat.mod_eq_of_lt (hle.trans_lt hn)] at hok ⊢
          split at hok
          case isTrue => cases hok
          case isFalse hrc0 =>
            rw [if_neg hrc0]
            split at hok
            case isTrue => cases hok
            case isFalse htime =>
              rw [if_neg htime]
              split at hok
              case isTrue hlt =>
                -- the rest is sent from the place where `send` stopped
                rw [if_pos hlt, hnext _ hle hok, ← List.drop_drop, List.take_append_drop]
              case isFalse hlt =>
                rw [if_neg hlt]
                exact List.take_of_length_le (by rw [List.length_drop]; omega)

/-- The sends without a failure. -/
def NoFailure (turns : List SendTurn) : Prop := ∀ t ∈ turns, t.send ≠ .fails

lemma sendData_once {hcmd : List UInt8} (hn : hcmd.length < SIZE_T) (hpos : 0 < hcmd.length) :
    sendData hcmd hcmd.length [⟨.takes hcmd.length, false⟩] = ⟨hcmd, some .MRJE_OK⟩ := by
  have hne : ¬hcmd.length = 0 := hpos.ne'
  simp only [sendData, sendLoop, Send.perBytes, Send.taken, Nat.sub_zero, Nat.min_self, if_neg hne, Nat.zero_add,
    Nat.mod_eq_of_lt hn, lt_irrefl, if_false, List.drop_zero, List.take_length]
  rfl

/-- **What a POST sends.**  For no path, host and body are, in every run that reports success, the
head and the body what the socket has accepted; not even where no `send` fails: then it has accepted
the buffer, with the NUL that is counted behind the body. -/
theorem post_sends_nul {d : PostData} (h : d.Fits) :
    (∀ turns, NoFailure turns → (d.sent turns).status = some .MRJE_OK → (d.sent turns).accepted = d.buffer) ∧
      (d.head.length + 1 < MRJ_MAX_REQHEAD → d.buffer = d.head ++ (cstr d.sendData ++ [0])) ∧
      ¬∀ turns, NoFailure turns → (d.sent turns).status = some .MRJE_OK →
        (d.sent turns).accepted = d.head ++ cstr d.sendData := by
  have hlen := d.length_buffer h
  have htotal := d.totalLen_eq h
  have hlt : d.buffer.length < SIZE_T := by
    rw [hlen]
    exact Nat.mod_lt _ (by decide)
  refine ⟨fun turns hturns hok => ?_, d.buffer_of_lt h, fun hall => ?_⟩
  · rw [PostData.sent, ← hlen] at hok ⊢
    exact sendLoop_accepted hlt hturns 0 (Nat.zero_le _) hok
  · have honce := sendData_once hlt (by omega)
    have hexact := hall [⟨.takes d.buffer.length, false⟩] (by simp [NoFailure])
    rw [PostData.sent, ← hlen, honce] at hexact
    have hcount := congrArg List.length (hexact rfl)
    rw [List.length_append] at hcount
    rw [strlen] at htotal
    dsimp only at hcount
    omega

/-- A POST of `x=1` to `h/a`. -/
def shortPost : PostData := ⟨text "/a", text "h", text "x=1"⟩

theorem shortPost_sends_nul :
    (∀ turns, NoFailure turns → (shortPost.sent turns).status = some .MRJE_OK →
      (shortPost.sent turns).accepted = shortPost.buffer) ∧
      (shortPost.head.length + 1 < MRJ_MAX_REQHEAD →
        shortPost.buffer = shortPost.head ++ (cstr shortPost.sendData ++ [0])) ∧
      ¬∀ turns, NoFailure turns → (shortPost.sent turns).status = some .MRJE_OK →
        (shortPost.sent turns).accepted = shortPost.head ++ cstr shortPost.sendData :=
  post_sends_nul ⟨by decide +kernel, by decide +kernel⟩

/-- A `send` that takes everything has taken a NUL; a `send` that fails at once reports success. -/
theorem shortPost_not_exact :
    shortPost.sent [⟨.takes 1024, false⟩] =
        ⟨shortPost.head ++ (text "x=1" ++ [0]), some .MRJE_OK⟩ ∧
      shortPost.head ++ (text "x=1" ++ [0]) ≠ shortPost.head ++ text "x=1" ∧
      shortPost.sent [⟨.fails, false⟩] = ⟨[], some .MRJE_OK⟩ := by
  decide +kernel

end DeviceTools.Http
