/-
The thread of the 33310 client, and how it comes to its end.

`ClientThread` connects to the device again and again.  Over a connection it makes eight exchanges,
each of them only when the one before has returned 0; then it counts the outcome, closes the
connection and goes on with the next.  `Quit`, which Ctrl+C calls at any time, sets `g_exitFlag`;
the thread looks at it before it connects and before the first exchange, and `main` waits for it and
then for the thread.

The model has one step for each part of the thread between two tests of the flag or two calls that
the outside world answers, and steps of `main` and of the signal in between.  It keeps the
descriptors that are open and the exchanges of every connection.
-/
import DeviceTools.Client33310.Answers
import DeviceTools.Lib.Runs

namespace DeviceTools.Client33310

open ByteWord CText Memory Runs

def PUT : UInt8 := 3
def HEARTBEAT : UInt8 := 7
def HEART_BEAT : UInt8 := 2
def SYS_NET_DNS : UInt8 := 7
def SYS_SERVER_IP_PORT : UInt8 := 9

/-- An array of 16 characters that is cleared before `strncpy` puts a text there. -/
def charArray (s : String) : List UInt8 := strncpy 15 (s.toList.map fun c => UInt8.ofNat c.toNat) ++ [0]

/-- `SET_DNS`, as `DealSetDNS` fills it in. -/
def stSetDns : List UInt8 := charArray "202.96.134.133" ++ charArray "202.96.134.133"

/-- `SET_AUTH_SERVER_PORT`, as `DealAuthServIpAndPort` fills it in. -/
def stAuthIpPort : List UInt8 := charArray "120.24.240.158" ++ beBytes 4 8888

/-- A request with the structure `data` behind the head, or with a null pointer and no data. -/
def Calls.requestWith (c : Calls) (packType subType : UInt8) (data : Option (List UInt8)) : SendArgs :=
  ⟨c.iSocketFd, UInt16.ofNat PROTOCOL_HEAD_FLAG, c.index, packType, subType, UInt32.ofNat (data.getD []).length,
    data.map (poke c.heap 0), c.heap⟩

/-- The common part of the handlers that make no use of the data of the answer. -/
def dealPut (packType subType : UInt8) (data : Option (List UInt8)) (c : Calls) : Status :=
  match (sendPack (c.requestWith packType subType data) c.packMemory c.sends).status with
  | .ok =>
      match c.recvPack.status, c.recvPack.pack with
      | .ok, some p =>
          if p.index ≠ c.index.toNat ∨ p.packType ≠ RESPONSE ∨ p.subType ≠ ACK then .failed (-1) else .ok
      | status, _ => status
  | status => status

/-- `DealSetDNS`. -/
def dealSetDNS (c : Calls) : Status := dealPut PUT SYS_NET_DNS (some stSetDns) c

/-- `DealAuthServIpAndPort`. -/
def dealAuthServIpAndPort (c : Calls) : Status := dealPut PUT SYS_SERVER_IP_PORT (some stAuthIpPort) c

/-- `DealHeartBeat`. -/
def dealHeartBeat (c : Calls) : Status := dealPut HEARTBEAT HEART_BEAT none c

/-- What the outside world does in an exchange, and what the buffer `pRecv` holds before. -/
structure Exchange where
  calls : Calls
  data : Bytes

/-- What the handler of exchange `i`, one of eight, returns. -/
def deal (i : ℕ) (e : Exchange) : Status :=
  match i with
  | 0 => dealHeartBeat e.calls
  | 1 => (dealGetLoggerRequest e.calls e.data).status
  | 2 => (dealGetVersion e.calls e.data).status
  | 3 => dealHeartBeat e.calls
  | 4 => dealAuthServIpAndPort e.calls
  | 5 => (dealGetSN e.calls e.data).status
  | 6 => dealSetDNS e.calls
  | _ => dealHeartBeat e.calls

/-- Where `ClientThread` is. -/
inductive Thread where
  /-- `pthread_create` has not been called, or has failed. -/
  | absent
  /-- Before `malloc`. -/
  | start
  /-- Before the tests of the outer loop. -/
  | outer
  /-- Before `CreateTcpClient`. -/
  | connect
  /-- Before the tests of the inner loop. -/
  | inner
  /-- The exchanges before `i` have returned 0. -/
  | exchange (i : ℕ)
  /-- Behind the exchanges. -/
  | count (iRet : Status)
  /-- Behind the outer loop. -/
  | leaving
  | exited
deriving DecidableEq, Repr

/-- There is no connection at these places. -/
def Thread.idle : Thread → Bool
  | .absent | .start | .connect | .exited => true
  | _ => false

/-- There is a connection at these places. -/
def Thread.connected : Thread → Bool
  | .inner | .exchange _ | .count _ => true
  | _ => false

/-- The buffer is allocated at these places. -/
def Thread.holds : Thread → Bool
  | .absent | .start | .exited => false
  | _ => true

lemma Thread.idle_of_connected {pc : Thread} (h : pc.connected = true) : pc.idle = false := by
  cases pc <;> first | rfl | cases h

/-- Where `main` is. -/
inductive Main where
  | creating
  | polling
  | joining
  | returned (code : ℤ)
deriving DecidableEq, Repr

/-- The client: `fds` are the descriptors that are open, `pRecv` says whether the buffer is allocated.
The number of sockets and the exchanges of the connections that were counted are history; `session`
are the exchanges of the connection that is open. -/
structure Client where
  g_exitFlag : Bool
  g_reConnectFlag : Bool
  main : Main
  thread : Thread
  iConnectErrCnt : ℕ
  iConnectOkCnt : ℕ
  iSuccssCnt : ℕ
  iErrorCnt : ℕ
  iClientFd : ℤ
  pRecv : Bool
  fds : List ℤ
  sockets : ℕ
  session : List Exchange
  served : List (List Exchange)
  broken : List (List Exchange)

/-- What `socket` and `connect` do in `CreateTcpClient`. -/
inductive Connect where
  | noSocket
  | refused (sockId : ℤ)
  | connected (sockId : ℤ)

/-- The steps of the system. -/
inductive ClientStep where
  /-- `Quit`. -/
  | quit
  /-- `main`: `pthread_create`. -/
  | create (ok : Bool)
  /-- `main`: the test of the flag in its loop. -/
  | poll
  /-- `main`: `pthread_join` returns. -/
  | join
  | malloc (ok : Bool)
  | checkOuter
  | connect (r : Connect)
  | checkInner
  | exchange (e : Exchange)
  | count
  | leave

/-- The step is one of `ClientThread`. -/
def ClientStep.ofThread : ClientStep → Bool
  | .quit | .create _ | .poll | .join => false
  | _ => true

namespace Client

/-- The client when `main` has set the signal handler. -/
def init : Client where
  g_exitFlag := false
  g_reConnectFlag := false
  main := .creating
  thread := .absent
  iConnectErrCnt := 0
  iConnectOkCnt := 0
  iSuccssCnt := 0
  iErrorCnt := 0
  iClientFd := -1
  pRecv := false
  fds := []
  sockets := 0
  session := []
  served := []
  broken := []

/-- The tests of the two flags. -/
def stops (s : Client) : Bool := s.g_reConnectFlag || s.g_exitFlag

/-- `socket` returns a descriptor that is not in use. -/
def socket (s : Client) (sockId : ℤ) : Option Client :=
  if 0 ≤ sockId ∧ sockId ∉ s.fds then some { s with fds := sockId :: s.fds, sockets := s.sockets + 1 } else none

/-- `close`, which is an error when the descriptor is not open. -/
def close (s : Client) (fd : ℤ) : Option Client :=
  if fd ∈ s.fds then some { s with fds := s.fds.erase fd } else none

/-- The connection is closed if there is one. -/
def closeClient (s : Client) : Option Client :=
  if 0 ≤ s.iClientFd then (s.close s.iClientFd).map fun s => { s with iClientFd := -1 } else some s

/-- `CreateTcpClient` and what the thread does with its result. -/
def createTcpClient (s : Client) : Connect → Option Client
  | .noSocket => some { s with iConnectErrCnt := s.iConnectErrCnt + 1, thread := .outer }
  | .refused sockId => (s.socket sockId).bind fun s => (s.close sockId).map fun s =>
      { s with iConnectErrCnt := s.iConnectErrCnt + 1, thread := .outer }
  | .connected sockId => (s.socket sockId).map fun s =>
      { s with iClientFd := sockId, iConnectOkCnt := s.iConnectOkCnt + 1, thread := .inner }

/-- The place behind exchange `i`. -/
def next (i : ℕ) : Status → Thread
  | .ok => if i + 1 < 8 then .exchange (i + 1) else .count .ok
  | status => .count status

lemma next_connected (i : ℕ) (status : Status) :
    (next i status).connected = true ∧ (next i status).holds = true := by
  cases status with
  | ok =>
      rw [next]
      split <;> exact ⟨rfl, rfl⟩
  | failed code => exact ⟨rfl, rfl⟩
  | busy => exact ⟨rfl, rfl⟩

/-- The outcome of the exchanges is counted. -/
def tally (s : Client) (iRet : Status) : Client :=
  if iRet = .ok then
    { s with iSuccssCnt := s.iSuccssCnt + 1, served := s.served ++ [s.session], session := [] }
  else { s with iErrorCnt := s.iErrorCnt + 1, broken := s.broken ++ [s.session], session := [] }

/-- One step, `none` when the step is not possible in the state or has no defined result. -/
def step (s : Client) : ClientStep → Option Client
  | .quit => some { s with g_exitFlag := true }
  | .create ok =>
      if s.main = .creating then
        some (if ok then { s with main := .polling, thread := .start } else { s with main := .returned (-1) })
      else none
  | .poll => if s.main = .polling then some (if s.g_exitFlag then { s with main := .joining } else s) else none
  | .join => if s.main = .joining ∧ s.thread = .exited then some { s with main := .returned 0 } else none
  | .malloc ok =>
      if s.thread = .start then
        some (if ok then { s with pRecv := true, thread := .outer } else { s with thread := .exited })
      else none
  | .checkOuter =>
      if s.thread = .outer then some { s with thread := if s.stops then .leaving else .connect } else none
  | .connect r => if s.thread = .connect then s.createTcpClient r else none
  | .checkInner =>
      if s.thread = .inner then some { s with thread := if s.stops then .outer else .exchange 0 } else none
  | .exchange e =>
      match s.thread with
      | .exchange i =>
          -- a handler that is still in a loop of its own does not return
          if e.calls.iSocketFd = s.iClientFd ∧ deal i e ≠ .busy then
            some { s with thread := next i (deal i e), session := s.session ++ [e] }
          else none
      | _ => none
  | .count =>
      match s.thread with
      | .count iRet => (s.tally iRet).closeClient.map fun s => { s with thread := .outer }
      | _ => none
  | .leave =>
      if s.thread = .leaving then s.closeClient.map fun s => { s with pRecv := false, thread := .exited } else none

/-! ### What a step can do -/

/-- The descriptors that are open are that of the connection, if there is one. -/
def OneFd (s : Client) : Prop := s.fds = if 0 ≤ s.iClientFd then [s.iClientFd] else []

/-- The steps of a client with `OneFd`, without the descriptors that are opened and closed on the way. -/
inductive Moves (s : Client) : ClientStep → Client → Prop where
  | quit : Moves s .quit { s with g_exitFlag := true }
  | created (h : s.main = .creating) : Moves s (.create true) { s with main := .polling, thread := .start }
  | notCreated (h : s.main = .creating) : Moves s (.create false) { s with main := .returned (-1) }
  | polled (h : s.main = .polling) (hflag : s.g_exitFlag = false) : Moves s .poll s
  | flagSeen (h : s.main = .polling) (hflag : s.g_exitFlag = true) : Moves s .poll { s with main := .joining }
  | joined (h : s.main = .joining) (hthread : s.thread = .exited) : Moves s .join { s with main := .returned 0 }
  | allocated (h : s.thread = .start) : Moves s (.malloc true) { s with pRecv := true, thread := .outer }
  | noMemory (h : s.thread = .start) : Moves s (.malloc false) { s with thread := .exited }
  | outerStops (h : s.thread = .outer) (hstops : s.stops = true) : Moves s .checkOuter { s with thread := .leaving }
  | outerGoesOn (h : s.thread = .outer) (hstops : s.stops = false) : Moves s .checkOuter { s with thread := .connect }
  | refused (h : s.thread = .connect) (r : Connect) (n : ℕ) (hn : n ≤ s.sockets + 1) (hle : s.sockets ≤ n) :
      Moves s (.connect r) { s with iConnectErrCnt := s.iConnectErrCnt + 1, thread := .outer, sockets := n }
  | connected (h : s.thread = .connect) (sockId : ℤ) (hfd : 0 ≤ sockId) (hnew : sockId ∉ s.fds) :
      Moves s (.connect (.connected sockId))
        { s with
          fds := sockId :: s.fds, sockets := s.sockets + 1, iClientFd := sockId
          iConnectOkCnt := s.iConnectOkCnt + 1, thread := .inner }
  | innerStops (h : s.thread = .inner) (hstops : s.stops = true) : Moves s .checkInner { s with thread := .outer }
  | innerGoesOn (h : s.thread = .inner) (hstops : s.stops = false) :
      Moves s .checkInner { s with thread := .exchange 0 }
  | exchanged (i : ℕ) (h : s.thread = .exchange i) (e : Exchange) (hfd : e.calls.iSocketFd = s.iClientFd)
      (hdone : deal i e ≠ .busy) :
      Moves s (.exchange e) { s with thread := next i (deal i e), session := s.session ++ [e] }
  | counted (iRet : Status) (h : s.thread = .count iRet) (fd : ℤ) (hfd : fd < 0) :
      Moves s .count { s.tally iRet with fds := [], iClientFd := fd, thread := .outer }
  | left (h : s.thread = .leaving) (fd : ℤ) (hfd : fd < 0) :
      Moves s .leave { s with fds := [], iClientFd := fd, pRecv := false, thread := .exited }

/-- A connection that is open is closed. -/
lemma closeClient_eq {s : Client} (h : s.OneFd) :
    ∃ fd < 0, s.closeClient = some { s with fds := [], iClientFd := fd } := by
  rw [OneFd] at h
  rw [closeClient]
  by_cases hfd : 0 ≤ s.iClientFd
  · rw [if_pos hfd] at h
    refine ⟨-1, by decide, ?_⟩
    rw [if_pos hfd, close, if_pos (h ▸ List.mem_singleton_self _), h, List.erase_cons_head]
    rfl
  · rw [if_neg hfd] at h
    refine ⟨s.iClientFd, not_le.1 hfd, ?_⟩
    rw [if_neg hfd, ← h]

lemma oneFd_tally {s : Client} (h : s.OneFd) (iRet : Status) : (s.tally iRet).OneFd := by
  rw [tally]
  split <;> exact h

lemma moves_connect {s s' : Client} {r : Connect} (hthread : s.thread = .connect)
    (h : s.createTcpClient r = some s') : Moves s (.connect r) s' := by
  cases r with
  | noSocket =>
      cases h
      exact .refused hthread _ s.sockets (Nat.le_succ _) le_rfl
  | refused sockId =>
      simp only [createTcpClient, socket] at h
      split at h
      case isTrue hnew =>
        simp only [Option.bind_some, close, List.mem_cons_self, if_true, List.erase_cons_head, Option.map_some,
          Option.some.injEq] at h
        subst h
        exact .refused hthread _ (s.sockets + 1) le_rfl (Nat.le_succ _)
      case isFalse => cases h
  | connected sockId =>
      simp only [createTcpClient, socket] at h
      split at h
      case isTrue hnew =>
        cases h
        exact .connected hthread sockId hnew.1 hnew.2
      case isFalse => cases h

/-- What a step can do. -/
lemma moves_of_step {s s' : Client} (hone : s.OneFd) {a : ClientStep} (h : step s a = some s') : Moves s a s' := by
  cases a with
  | quit =>
      cases h
      exact .quit
  | create ok =>
      simp only [step, Option.ite_none_right_eq_some, Option.some.injEq] at h
      obtain ⟨hmain, rfl⟩ := h
      cases ok with
      | true => exact .created hmain
      | false => exact .notCreated hmain
  | poll =>
      simp only [step, Option.ite_none_right_eq_some, Option.some.injEq] at h
      obtain ⟨hmain, rfl⟩ := h
      by_cases hflag : s.g_exitFlag = true
      · rw [if_pos hflag]
        exact .flagSeen hmain hflag
      · rw [if_neg hflag]
        exact .polled hmain (Bool.not_eq_true _ ▸ hflag)
  | join =>
      simp only [step, Option.ite_none_right_eq_some, Option.some.injEq] at h
      obtain ⟨⟨hmain, hthread⟩, rfl⟩ := h
      exact .joined hmain hthread
  | malloc ok =>
      simp only [step, Option.ite_none_right_eq_some, Option.some.injEq] at h
      obtain ⟨hthread, rfl⟩ := h
      cases ok with
      | true => exact .allocated hthread
      | false => exact .noMemory hthread
  | checkOuter =>
      simp only [step, Option.ite_none_right_eq_some, Option.some.injEq] at h
      obtain ⟨hthread, rfl⟩ := h
      cases hstops : s.stops with
      | true => exact .outerStops hthread hstops
      | false => exact .outerGoesOn hthread hstops
  | connect r =>
      simp only [step, Option.ite_none_right_eq_some] at h
      exact moves_connect h.1 h.2
  | checkInner =>
      simp only [step, Option.ite_none_right_eq_some, Option.some.injEq] at h
      obtain ⟨hthread, rfl⟩ := h
      cases hstops : s.stops with
      | true => exact .innerStops hthread hstops
      | false => exact .innerGoesOn hthread hstops
  | exchange e =>
      rw [step] at h
      split at h
      case h_1 i hthread =>
        simp only [Option.ite_none_right_eq_some, Option.some.injEq] at h
        obtain ⟨⟨hfd, hdone⟩, rfl⟩ := h
        exact .exchanged i hthread e hfd hdone
      case h_2 => cases h
  | count =>
      rw [step] at h
      split at h
      case h_1 iRet hthread =>
        obtain ⟨fd, hfd, hclose⟩ := closeClient_eq (oneFd_tally hone iRet)
        rw [hclose] at h
        cases h
        exact .counted iRet hthread fd hfd
      case h_2 => cases h
  | leave =>
      simp only [step, Option.ite_none_right_eq_some] at h
      obtain ⟨hthread, h⟩ := h
      obtain ⟨fd, hfd, hclose⟩ := closeClient_eq hone
      rw [hclose] at h
      cases h
      exact .left hthread fd hfd

/-! ### The descriptors, the buffer and the counters -/

/-- What holds between the steps. -/
structure Inv (s : Client) : Prop where
  oneFd : s.OneFd
  fdIdle : s.thread.idle = true → s.iClientFd < 0
  fdOuter : s.thread = .outer → s.stops = false → s.iClientFd < 0
  fdConnected : s.thread.connected = true → 0 ≤ s.iClientFd
  pRecv : s.pRecv = s.thread.holds
  stops : s.thread = .leaving → s.stops = true
  counters : s.iConnectOkCnt = s.iSuccssCnt + s.iErrorCnt + s.fds.length ∨
    (s.thread = .exited ∧ s.stops = true ∧ s.iConnectOkCnt = s.iSuccssCnt + s.iErrorCnt + 1)
  creating : s.main = .creating → s.thread = .absent
  joining : s.main = .joining → s.g_exitFlag = true
  returned : s.main = .returned 0 → s.thread = .exited

lemma inv_init : Inv init where
  oneFd := rfl
  fdIdle _ := by decide
  fdOuter := nofun
  fdConnected := nofun
  pRecv := rfl
  stops := nofun
  counters := .inl rfl
  creating _ := rfl
  joining := nofun
  returned := nofun

lemma OneFd.fds_of_lt {s : Client} (h : s.OneFd) (hfd : s.iClientFd < 0) : s.fds = [] := by
  rw [OneFd, if_neg (not_le.2 hfd)] at h
  exact h

lemma OneFd.length_le {s : Client} (h : s.OneFd) : s.fds.length ≤ 1 := by
  rw [h]
  split <;> simp

/-- The thread goes on to another place. -/
lemma Inv.goTo {s : Client} (h : s.Inv) (pc : Thread) (hmain : s.main ≠ .creating) (hexited : s.thread ≠ .exited)
    (hidle : pc.idle = true → s.iClientFd < 0) (houter : pc = .outer → s.stops = false → s.iClientFd < 0)
    (hconnected : pc.connected = true → 0 ≤ s.iClientFd) (hpRecv : s.pRecv = pc.holds)
    (hstops : pc = .leaving → s.stops = true) : Inv { s with thread := pc } where
  oneFd := h.oneFd
  fdIdle := hidle
  fdOuter := houter
  fdConnected := hconnected
  pRecv := hpRecv
  stops := hstops
  counters := h.counters.imp_right fun hend => absurd hend.1 hexited
  creating hcreating := absurd hcreating hmain
  joining := h.joining
  returned hreturned := absurd (h.returned hreturned) hexited

lemma Inv.main_ne {s : Client} (h : s.Inv) (hthread : s.thread ≠ .absent) : s.main ≠ .creating :=
  fun hmain => hthread (h.creating hmain)

lemma tally_cases (s : Client) (iRet : Status) :
    (iRet = .ok ∧ s.tally iRet =
      { s with iSuccssCnt := s.iSuccssCnt + 1, served := s.served ++ [s.session], session := [] }) ∨
    (iRet ≠ .ok ∧ s.tally iRet =
      { s with iErrorCnt := s.iErrorCnt + 1, broken := s.broken ++ [s.session], session := [] }) := by
  rw [tally]
  by_cases h : iRet = .ok
  · exact .inl ⟨h, if_pos h⟩
  · exact .inr ⟨h, if_neg h⟩

/-- **A step keeps the invariant.** -/
lemma Inv.moves {s s' : Client} {a : ClientStep} (h : s.Inv) (hmoves : Moves s a s') : s'.Inv := by
  cases hmoves with
  | quit =>
      have hstops : Client.stops { s with g_exitFlag := true } = true := Bool.or_true _
      exact
        { h with
          fdOuter := fun _ hnot => absurd hnot (by rw [hstops]; decide)
          stops := fun _ => hstops
          counters := h.counters.imp_right fun hend => ⟨hend.1, hstops, hend.2.2⟩
          joining := fun _ => rfl }
  | created hmain =>
      have hthread := h.creating hmain
      have hfd := h.fdIdle (by rw [hthread]; rfl)
      have hpRecv := h.pRecv
      rw [hthread] at hpRecv
      exact
        { h with
          fdIdle := fun _ => hfd
          fdOuter := nofun
          fdConnected := nofun
          pRecv := hpRecv
          stops := nofun
          counters := h.counters.imp_right fun hend => by rw [hthread] at hend; cases hend.1
          creating := nofun
          joining := nofun
          returned := nofun }
  | notCreated hmain => exact { h with creating := nofun, joining := nofun, returned := nofun }
  | polled hmain hflag => exact h
  | flagSeen hmain hflag => exact { h with creating := nofun, joining := fun _ => hflag, returned := nofun }
  | joined hmain hthread => exact { h with creating := nofun, joining := nofun, returned := fun _ => hthread }
  | allocated hthread =>
      have hfd := h.fdIdle (by rw [hthread]; rfl)
      have hmain := h.main_ne (by rw [hthread]; nofun)
      have hexited : s.thread ≠ .exited := by rw [hthread]; nofun
      exact
        { h with
          fdIdle := nofun
          fdOuter := fun _ _ => hfd
          fdConnected := nofun
          pRecv := rfl
          stops := nofun
          counters := h.counters.imp_right fun hend => absurd hend.1 hexited
          creating := fun hcreating => absurd hcreating hmain
          returned := fun hreturned => absurd (h.returned hreturned) hexited }
  | noMemory hthread =>
      have hfd := h.fdIdle (by rw [hthread]; rfl)
      have hpRecv := h.pRecv
      rw [hthread] at hpRecv
      exact h.goTo _ (h.main_ne (by rw [hthread]; nofun)) (by rw [hthread]; nofun) (fun _ => hfd) nofun nofun
        hpRecv nofun
  | outerStops hthread hstops =>
      have hpRecv := h.pRecv
      rw [hthread] at hpRecv
      exact h.goTo _ (h.main_ne (by rw [hthread]; nofun)) (by rw [hthread]; nofun) nofun nofun nofun hpRecv
        fun _ => hstops
  | outerGoesOn hthread hstops =>
      have hpRecv := h.pRecv
      rw [hthread] at hpRecv
      exact h.goTo _ (h.main_ne (by rw [hthread]; nofun)) (by rw [hthread]; nofun) (fun _ => h.fdOuter hthread hstops)
        nofun nofun hpRecv nofun
  | refused hthread r n hn hle =>
      have hfd := h.fdIdle (by rw [hthread]; rfl)
      have hpRecv := h.pRecv
      rw [hthread] at hpRecv
      have hgo := h.goTo .outer (h.main_ne (by rw [hthread]; nofun)) (by rw [hthread]; nofun) nofun
        (fun _ _ => hfd) nofun hpRecv nofun
      exact { hgo with }
  | connected hthread sockId hfd hnew =>
      have hnone := h.oneFd.fds_of_lt (h.fdIdle (by rw [hthread]; rfl))
      have hmain := h.main_ne (by rw [hthread]; nofun)
      have hexited : s.thread ≠ .exited := by rw [hthread]; nofun
      have hpRecv := h.pRecv
      rw [hthread] at hpRecv
      have hold := h.counters.resolve_right fun hend => hexited hend.1
      exact
        { h with
          oneFd := by rw [OneFd, if_pos hfd, hnone]
          fdIdle := nofun
          fdOuter := nofun
          fdConnected := fun _ => hfd
          pRecv := hpRecv
          stops := nofun
          counters := .inl (by simp only [List.length_cons]; omega)
          creating := fun hcreating => absurd hcreating hmain
          returned := fun hreturned => absurd (h.returned hreturned) hexited }
  | innerStops hthread hstops =>
      have hpRecv := h.pRecv
      rw [hthread] at hpRecv
      exact h.goTo _ (h.main_ne (by rw [hthread]; nofun)) (by rw [hthread]; nofun) nofun
        (fun _ hnot => absurd hstops (by rw [hnot]; decide)) nofun hpRecv nofun
  | innerGoesOn hthread hstops =>
      have hfd := h.fdConnected (by rw [hthread]; rfl)
      have hpRecv := h.pRecv
      rw [hthread] at hpRecv
      exact h.goTo _ (h.main_ne (by rw [hthread]; nofun)) (by rw [hthread]; nofun) nofun nofun (fun _ => hfd)
        hpRecv nofun
  | exchanged i hthread e hsame hdone =>
      have hfd := h.fdConnected (by rw [hthread]; rfl)
      have hpRecv := h.pRecv
      rw [hthread] at hpRecv
      obtain ⟨hconnected, hholds⟩ := next_connected i (deal i e)
      have hgo := h.goTo (next i (deal i e)) (h.main_ne (by rw [hthread]; nofun)) (by rw [hthread]; nofun)
        (fun hidle => absurd hidle (by rw [Thread.idle_of_connected hconnected]; decide))
        (fun houter => by rw [houter] at hconnected; cases hconnected) (fun _ => hfd) (hpRecv.trans hholds.symm)
        (fun hleaving => by rw [hleaving] at hconnected; cases hconnected)
      exact { hgo with }
  | counted iRet hthread fd hneg =>
      have hfd := h.fdConnected (by rw [hthread]; rfl)
      have hmain := h.main_ne (by rw [hthread]; nofun)
      have hexited : s.thread ≠ .exited := by rw [hthread]; nofun
      have hpRecv := h.pRecv
      rw [hthread] at hpRecv
      have hold := h.counters.resolve_right fun hend => hexited hend.1
      have hone : s.fds.length = 1 := by rw [h.oneFd, if_pos hfd, List.length_singleton]
      have hclosed : OneFd { s with fds := [], iClientFd := fd, thread := .outer } := by
        rw [OneFd, if_neg (not_le.2 hneg)]
      rcases tally_cases s iRet with ⟨-, heq⟩ | ⟨-, heq⟩
      · rw [heq]
        exact
          { h with
            oneFd := hclosed
            fdIdle := nofun
            fdOuter := fun _ _ => hneg
            fdConnected := nofun
            pRecv := hpRecv
            stops := nofun
            counters := .inl (by simp only [List.length_nil]; omega)
            creating := fun hcreating => absurd hcreating hmain
            returned := fun hreturned => absurd (h.returned hreturned) hexited }
      · rw [heq]
        exact
          { h with
            oneFd := hclosed
            fdIdle := nofun
            fdOuter := fun _ _ => hneg
            fdConnected := nofun
            pRecv := hpRecv
            stops := nofun
            counters := .inl (by simp only [List.length_nil]; omega)
            creating := fun hcreating => absurd hcreating hmain
            returned := fun hreturned => absurd (h.returned hreturned) hexited }
  | left hthread fd hneg =>
      have hmain := h.main_ne (by rw [hthread]; nofun)
      have hstops := h.stops hthread
      have hold := h.counters.resolve_right fun hend => by rw [hthread] at hend; cases hend.1
      have hlen := h.oneFd.length_le
      exact
        { h with
          oneFd := by rw [OneFd, if_neg (not_le.2 hneg)]
          fdIdle := fun _ => hneg
          fdOuter := nofun
          fdConnected := nofun
          pRecv := rfl
          stops := nofun
          counters := by
            rcases Nat.le_one_iff_eq_zero_or_eq_one.1 hlen with h0 | h1
            · exact .inl (by simp only [List.length_nil]; omega)
            · exact .inr ⟨rfl, hstops, by dsimp only; omega⟩
          creating := fun hcreating => absurd hcreating hmain
          returned := fun _ => rfl }

lemma inv_of_run {as : List ClientStep} {s : Client} (h : run step init as = some s) : s.Inv :=
  invariant (fun _ _ _ hinv hstep => hinv.moves (moves_of_step hinv.oneFd hstep)) inv_init h

/-- The client when Ctrl+C comes behind the first connection. -/
def interrupted : Client :=
  { init with
    main := .polling, thread := .inner, g_exitFlag := true, pRecv := true, fds := [3], iClientFd := 3, sockets := 1
    iConnectOkCnt := 1 }

/-- The client at its end. -/
def ended : Client :=
  { init with main := .returned 0, thread := .exited, g_exitFlag := true, sockets := 1, iConnectOkCnt := 1 }

/-- The steps up to Ctrl+C and those behind. -/
def upToQuit : List ClientStep := [.create true, .malloc true, .checkOuter, .connect (.connected 3), .quit]

def behindQuit : List ClientStep := [.poll, .checkInner, .checkOuter, .leave, .join]

/-- How many steps of the thread are left at most when the flag is set. -/
def remaining : Thread → ℕ
  | .absent | .start => 3
  | .outer => 2
  | .connect => 4
  | .inner => 3
  | .exchange i => 4 + (7 - i)
  | .count _ => 3
  | .leaving => 1
  | .exited => 0

/-- The connection that the thread has decided to make. -/
def pending : Thread → ℕ
  | .connect => 1
  | _ => 0

lemma remaining_next (i : ℕ) (status : Status) :
    remaining (next i status) < remaining (.exchange i) ∧ pending (next i status) = 0 := by
  have hcount (status : Status) : remaining (.count status) < remaining (.exchange i) := by
    simp only [remaining]
    omega
  cases status with
  | ok =>
      rw [next]
      split
      case isTrue hlt =>
        refine ⟨?_, rfl⟩
        simp only [remaining]
        omega
      case isFalse => exact ⟨hcount .ok, rfl⟩
  | failed code => exact ⟨hcount _, rfl⟩
  | busy => exact ⟨hcount _, rfl⟩

lemma tally_sockets (s : Client) (iRet : Status) :
    (s.tally iRet).sockets = s.sockets ∧ (s.tally iRet).g_exitFlag = s.g_exitFlag := by
  rw [tally]
  split <;> exact ⟨rfl, rfl⟩

/-- With the flag set, a step of the thread brings its end nearer, and no other step takes it away. -/
lemma moves_remaining {s s' : Client} {a : ClientStep} (hinv : s.Inv) (hflag : s.g_exitFlag = true)
    (hmoves : Moves s a s') :
    s'.g_exitFlag = true ∧ (cond a.ofThread 1 0) + remaining s'.thread ≤ remaining s.thread ∧
      s'.sockets + pending s'.thread ≤ s.sockets + pending s.thread := by
  have hstop : s.stops = true := by rw [stops, hflag, Bool.or_true]
  cases hmoves with
  -- Ctrl+C and `main` leave the thread where it is, or start it
  | quit => exact ⟨rfl, by simp [ClientStep.ofThread], le_rfl⟩
  | created hmain => rw [hinv.creating hmain]; exact ⟨hflag, by simp [ClientStep.ofThread, remaining], le_rfl⟩
  | notCreated hmain => exact ⟨hflag, by simp [ClientStep.ofThread], le_rfl⟩
  | polled hmain hno => exact ⟨hflag, by simp [ClientStep.ofThread], le_rfl⟩
  | flagSeen hmain _ => exact ⟨hflag, by simp [ClientStep.ofThread], le_rfl⟩
  | joined hmain hthread => exact ⟨hflag, by simp [ClientStep.ofThread], le_rfl⟩
  -- the thread: with the flag set neither loop goes on
  | allocated hthread => rw [hthread]; exact ⟨hflag, by simp [ClientStep.ofThread, remaining], le_rfl⟩
  | noMemory hthread => rw [hthread]; exact ⟨hflag, by simp [ClientStep.ofThread, remaining], le_rfl⟩
  | outerStops hthread _ => rw [hthread]; exact ⟨hflag, by simp [ClientStep.ofThread, remaining], le_rfl⟩
  | outerGoesOn hthread hno => rw [hstop] at hno; cases hno
  -- the socket that is opened was pending
  | refused hthread r n hn hle => rw [hthread]; exact ⟨hflag, by simp [ClientStep.ofThread, remaining], hn⟩
  | connected hthread sockId hfd hnew =>
      rw [hthread]
      exact ⟨hflag, by simp [ClientStep.ofThread, remaining], le_rfl⟩
  | innerStops hthread _ => rw [hthread]; exact ⟨hflag, by simp [ClientStep.ofThread, remaining], le_rfl⟩
  | innerGoesOn hthread hno => rw [hstop] at hno; cases hno
  | exchanged i hthread e hsame hdone =>
      -- an exchange ends the connection or leaves fewer of the eight
      obtain ⟨hlt, hpending⟩ := remaining_next i (deal i e)
      rw [hthread]
      refine ⟨hflag, ?_, ?_⟩
      · change 1 + remaining (next i (deal i e)) ≤ remaining (.exchange i)
        omega
      · dsimp only
        rw [hpending]
        exact le_rfl
  | counted iRet hthread fd hneg =>
      obtain ⟨hsockets, hflag'⟩ := tally_sockets s iRet
      rw [hthread]
      exact ⟨hflag'.trans hflag, by simp [ClientStep.ofThread, remaining], hsockets.le⟩
  | left hthread fd hneg => rw [hthread]; exact ⟨hflag, by simp [ClientStep.ofThread, remaining], le_rfl⟩

/-- With the flag set, a run ends after as many steps of the thread as are left. -/
lemma run_remaining {bs : List ClientStep} : ∀ {s s' : Client}, s.Inv → s.g_exitFlag = true →
    run step s bs = some s' →
    s'.Inv ∧ bs.countP ClientStep.ofThread + remaining s'.thread ≤ remaining s.thread ∧
      s'.sockets + pending s'.thread ≤ s.sockets + pending s.thread := by
  induction bs with
  | nil =>
      intro s s' hinv _ h
      obtain rfl := Option.some.inj h
      exact ⟨hinv, by simp, le_rfl⟩
  | cons b bs ih =>
      intro s s' hinv hflag h
      rw [run_cons, Option.bind_eq_some_iff] at h
      obtain ⟨s₁, hstep, hrun⟩ := h
      have hmoves := moves_of_step hinv.oneFd hstep
      obtain ⟨hflag₁, hremaining, hsockets⟩ := moves_remaining hinv hflag hmoves
      obtain ⟨hinv', hrest, hsockets'⟩ := ih (hinv.moves hmoves) hflag₁ hrun
      refine ⟨hinv', ?_, by omega⟩
      rw [List.countP_cons]
      cases hthread : b.ofThread with
      | true =>
          rw [hthread, cond_true] at hremaining
          simp only [if_true]
          omega
      | false =>
          rw [hthread, cond_false] at hremaining
          simp only [Bool.false_eq_true, if_false]
          omega

lemma remaining_le (pc : Thread) : remaining pc ≤ 11 := by
  cases pc <;> simp only [remaining] <;> omega

lemma pending_le (pc : Thread) : pending pc ≤ 1 := by
  cases pc <;> simp only [pending] <;> omega

/-- A thread that is not in a handler can go on until it has ended. -/
lemma Inv.enabled {s : Client} (h : s.Inv) (habsent : s.thread ≠ .absent) (hexited : s.thread ≠ .exited)
    (hexchange : ∀ i, s.thread ≠ .exchange i) : ∃ a, a.ofThread = true ∧ (step s a).isSome = true := by
  cases hthread : s.thread with
  | absent => exact absurd hthread habsent
  | start => exact ⟨.malloc true, rfl, by simp [step, hthread]⟩
  | outer => exact ⟨.checkOuter, rfl, by simp [step, hthread]⟩
  | connect => exact ⟨.connect .noSocket, rfl, by simp [step, hthread, createTcpClient]⟩
  | inner => exact ⟨.checkInner, rfl, by simp [step, hthread]⟩
  | exchange i => exact absurd hthread (hexchange i)
  | count iRet =>
      obtain ⟨fd, -, hclose⟩ := closeClient_eq (oneFd_tally h.oneFd iRet)
      exact ⟨.count, rfl, by simp [step, hthread, hclose]⟩
  | leaving =>
      obtain ⟨fd, -, hclose⟩ := closeClient_eq h.oneFd
      exact ⟨.leave, rfl, by simp [step, hthread, hclose]⟩
  | exited => exact absurd hthread hexited

/-- **Ctrl+C ends the thread.**  From any state in which the flag is set, however the steps are
interleaved, the thread makes at most eleven more and opens at most one more socket; until it has ended
it can go on, unless it is in a handler.  Of that nothing is said; if the handler returns, the thread goes
on from there too. -/
theorem run_exit {as bs : List ClientStep} {s s' : Client} (h : run step init as = some s)
    (hflag : s.g_exitFlag = true) (h' : run step s bs = some s') :
    bs.countP ClientStep.ofThread ≤ 11 ∧ s'.sockets ≤ s.sockets + 1 ∧
      ((∃ i, s'.thread = .exchange i) ∨ (∃ a, a.ofThread = true ∧ (step s' a).isSome = true) ∨
        s'.thread = .absent ∨ (s'.thread = .exited ∧ s'.fds = [])) := by
  obtain ⟨hinv', hremaining, hsockets⟩ := run_remaining (inv_of_run h) hflag h'
  have hle := remaining_le s.thread
  have hone := pending_le s.thread
  refine ⟨by omega, by omega, ?_⟩
  by_cases hexchange : ∃ i, s'.thread = .exchange i
  · exact .inl hexchange
  by_cases habsent : s'.thread = .absent
  · exact .inr (.inr (.inl habsent))
  by_cases hexited : s'.thread = .exited
  · exact .inr (.inr (.inr ⟨hexited, hinv'.oneFd.fds_of_lt (hinv'.fdIdle (by rw [hexited]; rfl))⟩))
  · exact .inr (.inl (hinv'.enabled habsent hexited (not_exists.1 hexchange)))

theorem run_exit_interrupted :
    behindQuit.countP ClientStep.ofThread ≤ 11 ∧ ended.sockets ≤ interrupted.sockets + 1 ∧
      ((∃ i, ended.thread = .exchange i) ∨ (∃ a, a.ofThread = true ∧ (step ended a).isSome = true) ∨
        ended.thread = .absent ∨ (ended.thread = .exited ∧ ended.fds = [])) :=
  @run_exit upToQuit behindQuit interrupted ended rfl rfl rfl

end Client

/-! ### The exchanges of a connection -/

/-- A request, and the size of what its handler takes out of the answer. -/
structure Request where
  packType : UInt8
  subType : UInt8
  data : Option (List UInt8)
  size : ℕ

/-- The eight requests of a connection. -/
def request : ℕ → Request
  | 1 => ⟨GET, GET_DEV_LOG, none, GET_LOGGER_SIZE⟩
  | 2 => ⟨GET, SYS_VERSION, none, GET_VERSION_SIZE⟩
  | 4 => ⟨PUT, SYS_SERVER_IP_PORT, some stAuthIpPort, 0⟩
  | 5 => ⟨GET, SYS_DEV_INFO, none, SN_SIZE⟩
  | 6 => ⟨PUT, SYS_NET_DNS, some stSetDns, 0⟩
  | _ => ⟨HEARTBEAT, HEART_BEAT, none, 0⟩

/-- `TcpSendPack` returned 0 for the request, and the pack is an answer to it. -/
structure Accepts (r : Request) (c : Calls) (p : ProtocolPack) : Prop where
  sent : (sendPack (c.requestWith r.packType r.subType r.data) c.packMemory c.sends).status = .ok
  received : c.recvPack.pack = some p
  index : p.index = c.index.toNat
  packType : p.packType = RESPONSE
  ack : p.subType = ACK
  size : r.size ≤ p.dataLen

/-- Request `i` has been answered, and there was memory for the text of the logger if it has one. -/
def Succeeds (i : ℕ) (e : Exchange) : Prop :=
  ∃ p, Accepts (request i) e.calls p ∧
    (i = 1 → 0 < loggerLen (p.data.take GET_LOGGER_SIZE) → e.calls.loggerMemory = true)

/-- A pack is delivered when `TcpRecvPack` returns 0. -/
lemma exists_pack {c : Calls} (h : c.recvPack.status = .ok) : ∃ p, c.recvPack.pack = some p := by
  rw [Calls.recvPack] at h ⊢
  split at h
  case isTrue => cases h
  case isFalse hsocket =>
    rw [if_neg hsocket]
    cases hhead : (tcpRecvMsg HEAD_SIZE c.unread c.recvs).status with
    | busy => simp only [tcpRecvPack, hhead] at h; cases h
    | failed code => simp only [tcpRecvPack, hhead] at h; cases h
    | ok =>
        simp only [tcpRecvPack, hhead] at h ⊢
        split at h
        case isTrue => cases h
        case isFalse hflag =>
          rw [if_neg hflag]
          split at h
          case isTrue => cases h
          case isFalse hmax =>
            rw [if_neg hmax]
            split at h
            case isTrue hzero =>
              rw [if_pos hzero]
              exact ⟨_, rfl⟩
            case isFalse hpos =>
              rw [if_neg hpos]
              split at h
              case h_1 => cases h
              case h_2 => cases h
              case h_3 =>
                simp only
                exact ⟨_, rfl⟩

/-- What a handler returns, when `use` is what it makes of a pack. -/
def exchangeStatus (args : SendArgs) (c : Calls) (use : ProtocolPack → Status) : Status :=
  match (sendPack args c.packMemory c.sends).status with
  | .ok =>
      match c.recvPack.status, c.recvPack.pack with
      | .ok, some p => use p
      | status, _ => status
  | status => status

lemma exchangeStatus_ok_iff (args : SendArgs) (c : Calls) (use : ProtocolPack → Status) :
    exchangeStatus args c use = .ok ↔
      (sendPack args c.packMemory c.sends).status = .ok ∧ ∃ p, c.recvPack.pack = some p ∧ use p = .ok := by
  rw [exchangeStatus]
  cases hsent : (sendPack args c.packMemory c.sends).status with
  | busy => exact iff_of_false nofun nofun
  | failed code => exact iff_of_false nofun nofun
  | ok =>
      rw [and_iff_right rfl]
      cases hstatus : c.recvPack.status with
      | busy =>
          refine iff_of_false nofun ?_
          rintro ⟨p, hpack, -⟩
          cases hstatus.symm.trans (recvPack_pack hpack).1
      | failed code =>
          refine iff_of_false nofun ?_
          rintro ⟨p, hpack, -⟩
          cases hstatus.symm.trans (recvPack_pack hpack).1
      | ok =>
          obtain ⟨p, hpack⟩ := exists_pack hstatus
          simp only [hpack, Option.some.injEq]
          exact ⟨fun h => ⟨p, rfl, h⟩, by rintro ⟨p', rfl, h⟩; exact h⟩

/-- The comparison that all handlers make, and the size that some of them ask for. -/
lemma answer_ok_iff {c : Calls} {p : ProtocolPack} {size : ℕ} {status : Status} :
    ((if p.index ≠ c.index.toNat ∨ p.packType ≠ RESPONSE ∨ p.subType ≠ ACK then .failed (-1)
        else if p.dataLen < size then .failed (-1) else status) = .ok) ↔
      (p.index = c.index.toNat ∧ p.packType = RESPONSE ∧ p.subType = ACK ∧ size ≤ p.dataLen) ∧ status = .ok := by
  split
  case isTrue hother =>
    refine iff_of_false nofun ?_
    rintro ⟨⟨hindex, htype, hack, -⟩, -⟩
    rcases hother with h | h | h
    · exact h hindex
    · exact h htype
    · exact h hack
  case isFalse hanswer =>
    rw [not_or, not_or, not_not, not_not, not_not] at hanswer
    split
    case isTrue hshort => exact iff_of_false nofun fun h => absurd h.1.2.2.2 (not_le.2 hshort)
    case isFalse hlong =>
      rw [and_iff_right ⟨hanswer.1, hanswer.2.1, hanswer.2.2, not_lt.1 hlong⟩]

lemma dealPut_ok_iff (packType subType : UInt8) (data : Option (List UInt8)) (c : Calls) :
    dealPut packType subType data c = .ok ↔ ∃ p, Accepts ⟨packType, subType, data, 0⟩ c p := by
  have hput : dealPut packType subType data c = exchangeStatus (c.requestWith packType subType data) c fun p =>
      if p.index ≠ c.index.toNat ∨ p.packType ≠ RESPONSE ∨ p.subType ≠ ACK then .failed (-1)
      else if p.dataLen < 0 then .failed (-1) else .ok := rfl
  rw [hput, exchangeStatus_ok_iff]
  simp only [answer_ok_iff]
  constructor
  · rintro ⟨hsent, p, hpack, ⟨hindex, htype, hack, hsize⟩, -⟩
    exact ⟨p, hsent, hpack, hindex, htype, hack, hsize⟩
  · rintro ⟨p, h⟩
    exact ⟨h.sent, p, h.received, ⟨h.index, h.packType, h.ack, h.size⟩, trivial⟩

lemma dealGet_ok_iff (subType : UInt8) (size : ℕ) (use : Bytes → Handled) (c : Calls) (data : Bytes) :
    (dealGet subType size use c data).status = .ok ↔
      ∃ p, Accepts ⟨GET, subType, none, size⟩ c p ∧ (use (poke data 0 p.data)).status = .ok := by
  have hget : (dealGet subType size use c data).status = exchangeStatus (c.requestWith GET subType none) c fun p =>
      if p.index ≠ c.index.toNat ∨ p.packType ≠ RESPONSE ∨ p.subType ≠ ACK then .failed (-1)
      else if p.dataLen < size then .failed (-1) else (use (poke data 0 p.data)).status := by
    change (dealGet subType size use c data).status = exchangeStatus (c.request subType) c _
    rw [dealGet, exchangeStatus]
    cases (sendPack (c.request subType) c.packMemory c.sends).status with
    | busy => rfl
    | failed code => rfl
    | ok =>
        cases c.recvPack.status with
        | busy => rfl
        | failed code => rfl
        | ok =>
            cases c.recvPack.pack with
            | none => rfl
            | some p =>
                dsimp only
                split
                · rfl
                · split <;> rfl
  rw [hget, exchangeStatus_ok_iff]
  simp only [answer_ok_iff]
  constructor
  · rintro ⟨hsent, p, hpack, ⟨hindex, htype, hack, hsize⟩, huse⟩
    exact ⟨p, ⟨hsent, hpack, hindex, htype, hack, hsize⟩, huse⟩
  · rintro ⟨p, h, huse⟩
    exact ⟨h.sent, p, h.received, ⟨h.index, h.packType, h.ack, h.size⟩, huse⟩

lemma getLogger_ok_iff {p : ProtocolPack} (hlen : p.data.length = p.dataLen) (hsize : GET_LOGGER_SIZE ≤ p.dataLen)
    (loggerMemory : Bool) (data : Bytes) :
    (getLogger loggerMemory (poke data 0 p.data)).status = .ok ↔
      (0 < loggerLen (p.data.take GET_LOGGER_SIZE) → loggerMemory = true) := by
  simp only [getLogger, slice_poke_front data (hlen ▸ hsize)]
  by_cases hpos : 0 < loggerLen (p.data.take GET_LOGGER_SIZE)
  · rw [if_pos hpos]
    cases loggerMemory with
    | true => exact iff_of_true rfl fun _ => rfl
    | false =>
        refine iff_of_false (fun h => ?_) fun h => Bool.false_ne_true (h hpos)
        cases h
  · rw [if_neg hpos]
    exact iff_of_true rfl fun h => absurd h hpos

/-- **A handler returns 0 exactly when its request has been answered.** -/
lemma deal_ok_iff {i : ℕ} (hi : i < 8) (e : Exchange) : deal i e = .ok ↔ Succeeds i e := by
  have hput (j : ℕ) (hj : j ≠ 1) : (∃ p, Accepts (request j) e.calls p) ↔ Succeeds j e :=
    exists_congr fun p => (and_iff_left fun h => absurd h hj).symm
  have hget (j : ℕ) (hj : j ≠ 1) (use : Bytes → Handled) (huse : ∀ m, (use m).status = .ok) :
      (∃ p, Accepts (request j) e.calls p ∧ (use (poke e.data 0 p.data)).status = .ok) ↔ Succeeds j e :=
    (exists_congr fun p => and_iff_left (huse _)).trans (hput j hj)
  match i, hi with
  | 0, _ => exact (dealPut_ok_iff _ _ _ _).trans (hput 0 (by decide))
  | 1, _ =>
      refine (dealGet_ok_iff _ _ _ _ _).trans (exists_congr fun p => and_congr_right fun h => ?_)
      exact (getLogger_ok_iff (recvPack_pack h.received).2.2 h.size _ _).trans
        ⟨fun hmem _ => hmem, fun hmem => hmem rfl⟩
  | 2, _ => exact (dealGet_ok_iff _ _ _ _ _).trans (hget 2 (by decide) getVersion fun _ => rfl)
  | 3, _ => exact (dealPut_ok_iff _ _ _ _).trans (hput 3 (by decide))
  | 4, _ => exact (dealPut_ok_iff _ _ _ _).trans (hput 4 (by decide))
  | 5, _ => exact (dealGet_ok_iff _ _ _ _ _).trans (hget 5 (by decide) getSN fun _ => rfl)
  | 6, _ => exact (dealPut_ok_iff _ _ _ _).trans (hput 6 (by decide))
  | 7, _ => exact (dealPut_ok_iff _ _ _ _).trans (hput 7 (by decide))

/-- The exchanges have all succeeded, and they were made over the connection `fd`. -/
structure Begun (fd : ℤ) (session : List Exchange) : Prop where
  succeeds : ∀ i e, session[i]? = some e → Succeeds i e
  fd : ∀ e ∈ session, e.calls.iSocketFd = fd

/-- All eight requests have been answered, over one connection. -/
def Served (session : List Exchange) : Prop := ∃ fd, 0 ≤ fd ∧ session.length = 8 ∧ Begun fd session

/-- A request has not been answered, after those before it, and it was the last over its connection. -/
def Broken (session : List Exchange) : Prop :=
  ∃ fd, 0 ≤ fd ∧ ∃ front e, session = front ++ [e] ∧ front.length < 8 ∧ Begun fd front ∧
    e.calls.iSocketFd = fd ∧ ¬Succeeds front.length e

lemma Begun.concat {fd : ℤ} {front : List Exchange} (h : Begun fd front) {e : Exchange}
    (hfd : e.calls.iSocketFd = fd) (he : Succeeds front.length e) : Begun fd (front ++ [e]) where
  succeeds i e' hget := by
    rcases Nat.lt_or_ge i front.length with hlt | hge
    · rw [List.getElem?_append_left hlt] at hget
      exact h.succeeds i e' hget
    · rw [List.getElem?_append_right hge] at hget
      obtain ⟨hlt, hlast⟩ := List.getElem?_eq_some_iff.1 hget
      have hi : i = front.length := by simp at hlt; omega
      rw [List.getElem_singleton] at hlast
      rw [hi, ← hlast]
      exact he
  fd e' hmem := by
    rcases List.mem_append.1 hmem with hold | hnew
    · exact h.fd e' hold
    · rw [List.mem_singleton.1 hnew]
      exact hfd

/-- There may be exchanges at these places. -/
def Thread.exchanging : Thread → Bool
  | .exchange _ | .count _ => true
  | _ => false

namespace Client

/-- What holds of the connections between the steps. -/
structure Sessions (s : Client) : Prop where
  served : ∀ session ∈ s.served, Served session
  broken : ∀ session ∈ s.broken, Broken session
  iSuccssCnt : s.iSuccssCnt = s.served.length
  iErrorCnt : s.iErrorCnt = s.broken.length
  idle : s.thread.exchanging = false → s.session = []
  exchange : ∀ i, s.thread = .exchange i → i < 8 ∧ s.session.length = i ∧ Begun s.iClientFd s.session
  count : ∀ iRet, s.thread = .count iRet → if iRet = .ok then Served s.session else Broken s.session

lemma sessions_init : Sessions init where
  served := nofun
  broken := nofun
  iSuccssCnt := rfl
  iErrorCnt := rfl
  idle _ := rfl
  exchange := nofun
  count := nofun

/-- The thread goes from one place without exchanges to another. -/
lemma Sessions.goTo {s s' : Client} (h : s.Sessions) (hold : s.thread.exchanging = false)
    (hnew : s'.thread.exchanging = false) (hsession : s'.session = s.session) (hserved : s'.served = s.served)
    (hbroken : s'.broken = s.broken) (hsuccss : s'.iSuccssCnt = s.iSuccssCnt)
    (herror : s'.iErrorCnt = s.iErrorCnt) : s'.Sessions where
  served := hserved ▸ h.served
  broken := hbroken ▸ h.broken
  iSuccssCnt := by rw [hsuccss, hserved, h.iSuccssCnt]
  iErrorCnt := by rw [herror, hbroken, h.iErrorCnt]
  idle _ := hsession.trans (h.idle hold)
  exchange i hthread := by rw [hthread] at hnew; cases hnew
  count iRet hthread := by rw [hthread] at hnew; cases hnew

/-- The exchanges of a connection with one more. -/
lemma Sessions.exchanged {s : Client} (h : s.Sessions) (hfd : 0 ≤ s.iClientFd) {i : ℕ}
    (hthread : s.thread = .exchange i) {e : Exchange} (hsame : e.calls.iSocketFd = s.iClientFd) :
    Sessions { s with thread := next i (deal i e), session := s.session ++ [e] } := by
  obtain ⟨hi, hlen, hbegun⟩ := h.exchange i hthread
  by_cases hok : deal i e = .ok
  · have hsucceeds : Succeeds s.session.length e := hlen ▸ (deal_ok_iff hi e).1 hok
    have hlonger := hbegun.concat hsame hsucceeds
    have hlength : (s.session ++ [e]).length = i + 1 := by rw [List.length_append, hlen, List.length_singleton]
    rw [hok, next]
    by_cases hlast : i + 1 < 8
    · rw [if_pos hlast]
      exact
        { h with
          idle := nofun
          exchange := fun j hj => by
            cases hj
            exact ⟨hlast, hlength, hlonger⟩
          count := nofun }
    · rw [if_neg hlast]
      exact
        { h with
          idle := nofun
          exchange := nofun
          count := fun iRet hcount => by
            cases hcount
            rw [if_pos rfl]
            exact ⟨s.iClientFd, hfd, hlength.trans (by omega), hlonger⟩ }
  · have hfails : ¬Succeeds s.session.length e := fun hsucceeds => hok ((deal_ok_iff hi e).2 (hlen ▸ hsucceeds))
    have hnext : next i (deal i e) = .count (deal i e) := by
      cases hstatus : deal i e with
      | ok => exact absurd hstatus hok
      | failed code => rfl
      | busy => rfl
    rw [hnext]
    exact
      { h with
        idle := nofun
        exchange := nofun
        count := fun iRet hcount => by
          cases hcount
          rw [if_neg hok]
          exact ⟨s.iClientFd, hfd, s.session, e, rfl, by omega, hbegun, hsame, hfails⟩ }

/-- The exchanges of a connection are put where they belong. -/
lemma Sessions.counted {s : Client} (h : s.Sessions) {iRet : Status} (hthread : s.thread = .count iRet) (fd : ℤ) :
    Sessions { s.tally iRet with fds := [], iClientFd := fd, thread := .outer } := by
  have hsession := h.count iRet hthread
  rcases tally_cases s iRet with ⟨hok, heq⟩ | ⟨hnot, heq⟩
  · rw [if_pos hok] at hsession
    rw [heq]
    exact
      { h with
        served := List.forall_mem_append.2 ⟨h.served, List.forall_mem_singleton.2 hsession⟩
        iSuccssCnt := by simp only [List.length_append, List.length_singleton, h.iSuccssCnt]
        idle := fun _ => rfl
        exchange := nofun
        count := nofun }
  · rw [if_neg hnot] at hsession
    rw [heq]
    exact
      { h with
        broken := List.forall_mem_append.2 ⟨h.broken, List.forall_mem_singleton.2 hsession⟩
        iErrorCnt := by simp only [List.length_append, List.length_singleton, h.iErrorCnt]
        idle := fun _ => rfl
        exchange := nofun
        count := nofun }

/-- **A step keeps what holds of the connections.** -/
lemma Sessions.moves {s s' : Client} {a : ClientStep} (hinv : s.Inv) (h : s.Sessions) (hmoves : Moves s a s') :
    s'.Sessions := by
  cases hmoves with
  | quit => exact { h with }
  | created hmain =>
      exact h.goTo (by rw [hinv.creating hmain]; rfl) rfl rfl rfl rfl rfl rfl
  | notCreated hmain => exact { h with }
  | polled hmain hflag => exact h
  | flagSeen hmain hflag => exact { h with }
  | joined hmain hthread => exact { h with }
  | allocated hthread => exact h.goTo (by rw [hthread]; rfl) rfl rfl rfl rfl rfl rfl
  | noMemory hthread => exact h.goTo (by rw [hthread]; rfl) rfl rfl rfl rfl rfl rfl
  | outerStops hthread hstops => exact h.goTo (by rw [hthread]; rfl) rfl rfl rfl rfl rfl rfl
  | outerGoesOn hthread hstops => exact h.goTo (by rw [hthread]; rfl) rfl rfl rfl rfl rfl rfl
  | refused hthread r n hn hle => exact h.goTo (by rw [hthread]; rfl) rfl rfl rfl rfl rfl rfl
  | connected hthread sockId hfd hnew => exact h.goTo (by rw [hthread]; rfl) rfl rfl rfl rfl rfl rfl
  | innerStops hthread hstops => exact h.goTo (by rw [hthread]; rfl) rfl rfl rfl rfl rfl rfl
  | innerGoesOn hthread hstops =>
      have hnil := h.idle (by rw [hthread]; rfl)
      exact
        { h with
          idle := nofun
          exchange := fun i hi => by
            cases hi
            refine ⟨by decide, by rw [hnil, List.length_nil], ?_⟩
            dsimp only
            rw [hnil]
            exact ⟨nofun, nofun⟩
          count := nofun }
  | exchanged i hthread e hsame hdone =>
      exact h.exchanged (hinv.fdConnected (by rw [hthread]; rfl)) hthread hsame
  | counted iRet hthread fd hneg => exact h.counted hthread fd
  | left hthread fd hneg => exact h.goTo (by rw [hthread]; rfl) rfl rfl rfl rfl rfl rfl

/-- An exchange whose request cannot be sent. -/
def unsent : Exchange := ⟨⟨3, 0, true, fun _ => 0, [.fails], [], [], true⟩, fun _ => 0⟩

/-- The client when the first request over its first connection could not be sent. -/
def afterUnsent : Client :=
  { init with
    main := .polling, thread := .outer, pRecv := true, sockets := 1, iConnectOkCnt := 1, iErrorCnt := 1
    broken := [[unsent]] }

end Client

end DeviceTools.Client33310
