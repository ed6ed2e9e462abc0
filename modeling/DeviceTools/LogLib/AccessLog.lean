/-
logLib: the thread that saves the access log.

`saveAccessLogThread` is a copy of the other save threads, but its index structure has arrays,
which are copied in loops.  The loops count with `j`, the variable that holds the slot of the
event, and copy the element with the number `i`, which is the number of the event in the batch;
the loop over the photos has its comparison the wrong way round and is never entered.  Behind
the loops `j` is 0, and the index structure goes to the first slot.

The search for a slot compares days with an array `manLogBuffer` that the function does not
declare.  The times in this array are a parameter here, which may depend on the times in the
staging array.
-/
import DeviceTools.LogLib.Log
import DeviceTools.Platform.FixedZone
import DeviceTools.Store.Write

namespace DeviceTools

open ByteWord

/-- An array of five `unsigned int`. -/
abbrev Five := Fin 5 → UInt32

/-- `accesslog_event_t`. -/
structure AccesslogEvent where
  cType : UInt8
  cRecogMode : UInt8
  iAccessMode : UInt32
  iUserNum : ℤ
  uiUserId : Five
  iGroupNum : ℤ
  uiGroupId : Five
  uiTime : UInt32
  iResult : UInt32
  iPhotoNum : ℤ
  uiPhotoSize : Five
  uiPhotoTime : Five
  uiPhotoStartAddr : Five

/-- `accesslog_index_t`, without the member `logStartAddr`, which stays cleared. -/
structure AccesslogIndex where
  logNo : UInt32
  logStatus : UInt8
  logType : UInt8
  accessMode : UInt8
  recogMode : UInt8
  userNum : ℤ
  userId : Five
  groupNum : ℤ
  groupId : Five
  accessTime : UInt32
  result : UInt32
  photoNum : ℤ
  photoSize : Five
  photoTime : Five
  photoStartAddr : Five

/-- `sizeof(accesslog_index_t)`. -/
def ACCESSLOG_INDEX_SIZE : ℕ := 148

namespace AccesslogIndex

/-- An `int` in memory. -/
def intBytes (n : ℤ) : List UInt8 := leBytes 4 (n % 2 ^ 32).toNat

/-- An array in memory. -/
def fiveBytes (a : Five) : List UInt8 := (List.finRange 5).flatMap fun k => leBytes 4 (a k).toNat

/-- The structure in memory. -/
def encode (x : AccesslogIndex) : List UInt8 :=
  leBytes 4 x.logNo.toNat ++ [x.logStatus, 0, 0, 0] ++ leBytes 4 0 ++
    [x.logType, x.accessMode, x.recogMode, 0] ++ intBytes x.userNum ++ fiveBytes x.userId ++
    intBytes x.groupNum ++ fiveBytes x.groupId ++ leBytes 4 x.accessTime.toNat ++
    leBytes 4 x.result.toNat ++ intBytes x.photoNum ++ fiveBytes x.photoSize ++
    fiveBytes x.photoTime ++ fiveBytes x.photoStartAddr ++ List.replicate 12 0

@[simp] lemma length_encode (x : AccesslogIndex) : x.encode.length = ACCESSLOG_INDEX_SIZE := by
  simp [encode, intBytes, fiveBytes, List.length_flatMap, ACCESSLOG_INDEX_SIZE]

end AccesslogIndex

/-! ### The staging -/

/-- A loop of `n` turns that copies the element `i` in each, `none` if there is no such element. -/
def copyLoop (i : ℕ) (src : Five) : ℕ → Five → Option Five
  | 0, dst => some dst
  | n + 1, dst =>
      if h : i < 5 then copyLoop i src n (Function.update dst ⟨i, h⟩ (src ⟨i, h⟩)) else none

/-- At most five. -/
def atMostFive (n : ℤ) : ℤ := if 5 < n then 5 else n

/-- The index structure filled in for event number `i` of a batch.  The loop over the photos runs
while `j` is greater than their number: for a number that is not negative it is not entered, for
a negative one it does not end. -/
def AccesslogEvent.index (e : AccesslogEvent) (i no : ℕ) : Option AccesslogIndex := do
  let userId ← copyLoop i e.uiUserId (atMostFive e.iUserNum).toNat 0
  let groupId ← copyLoop i e.uiGroupId (atMostFive e.iGroupNum).toNat 0
  if atMostFive e.iPhotoNum < 0 then none
  else
    some { logNo := UInt32.ofNat no
           logStatus := 0
           logType := e.cType
           accessMode := e.iAccessMode.toUInt8
           recogMode := e.cRecogMode
           userNum := atMostFive e.iUserNum
           userId
           groupNum := atMostFive e.iGroupNum
           groupId
           accessTime := e.uiTime
           result := e.iResult
           photoNum := atMostFive e.iPhotoNum
           photoSize := 0
           photoTime := 0
           photoStartAddr := 0 }

/-- What is staged for an event: the slot that was chosen for it, the slot that it went to, and
its index structure. -/
structure AccessStaged where
  chosen : ℕ
  slot : ℕ
  index : AccesslogIndex

/-- `getLastFileIndexNo` for the access log, of which it reads nothing. -/
def getLastAccessIndexNo : ℕ := 0

section
variable (zone : Zone) (manLogIndexPath : Path) (manLogBuffer : List ℕ → ℕ → ℕ)

/-- The loop that looks for the slot of an event, from slot `j` on: the slot, and whether it is
free; `none` if it reads an element behind the array. -/
def findAccessSlot (t : ℕ) (slots : List (Slot Unit)) : ℕ → ℕ → Option (ℕ × Bool)
  | 0, j => some (j, false)
  | n + 1, j =>
      match slots[j]? with
      | none => none
      | some s =>
          if s.time = 0 then some (j, true)
          else if (zone.localtime t).dataDay =
            (zone.localtime (manLogBuffer (slots.map Slot.time) j)).dataDay then some (j, false)
          else findAccessSlot t slots n (j + 1)

/-- The branch of a free slot.  The file name is that of the management log. -/
def openAccessSlot (tm : Tm) (s : Slot Unit) : Slot Unit :=
  { s with
    indexFileName := dayPath manLogIndexPath tm dotIndex
    startIndexNo := getLastAccessIndexNo + 1 }

/-- The body of the staging loop for event number `i`, with `n` the sampled queue length. -/
def stageAccess (n i : ℕ) (slots : List (Slot Unit)) (e : AccesslogEvent) :
    Option (List (Slot Unit) × AccessStaged) := do
  let (j, fresh) ← findAccessSlot zone manLogBuffer e.uiTime.toNat slots n 0
  let chosen ← slots[j]?
  let chosen :=
    if fresh then openAccessSlot manLogIndexPath (zone.localtime e.uiTime.toNat) chosen else chosen
  let slots := slots.set j chosen
  let index ← e.index i chosen.startIndexNo
  -- the loops leave 0 in `j`
  let s ← slots[0]?
  if 10 * 256 < s.indexBuffer.length + ACCESSLOG_INDEX_SIZE then none
  else
    let s := { s with time := e.uiTime.toNat, indexBuffer := s.indexBuffer ++ index.encode }
    some (slots.set 0 s, ⟨j, 0, index⟩)

/-- The staging loop, from event number `i` on. -/
def stageAccesses (n : ℕ) : ℕ → List (Slot Unit) → List AccesslogEvent →
    Option (List (Slot Unit) × List AccessStaged)
  | _, slots, [] => some (slots, [])
  | i, slots, e :: es => do
      let (slots, staged) ← stageAccess zone manLogIndexPath manLogBuffer n i slots e
      let (slots, rest) ← stageAccesses n (i + 1) slots es
      some (slots, staged :: rest)

/-- The staging array at the start of an iteration. -/
def clearAccessSlots : List (Slot Unit) := List.replicate 10 ⟨0, [], 0, [], ()⟩

/-- One save of `saveAccessLogThread`, `none` if it accesses memory outside a buffer. -/
def saveAccessLogs (io : ℕ → AppendIo) (d : Disk) (total : ℕ) (batch : List AccesslogEvent) :
    Option FlushResult := do
  let (slots, _) ← stageAccesses zone manLogIndexPath manLogBuffer batch.length 0 clearAccessSlots batch
  let used := slots.takeWhile fun s => s.time ≠ 0
  let w := writeAll io 0 d (used.map fun s => ⟨true, s.indexFileName, s.indexBuffer⟩)
  some ⟨w.1, total + batch.length, batch.length, w.2.1, w.2.2⟩

end

/-! ### What is copied -/

lemma copyLoop_succ (i : ℕ) (src : Five) (n : ℕ) (dst : Five) : copyLoop i src (n + 1) dst =
    if h : i < 5 then some (Function.update dst ⟨i, h⟩ (src ⟨i, h⟩)) else none := by
  induction n generalizing dst with
  | zero => rfl
  | succ n ih =>
      rw [copyLoop]
      split
      · next h =>
          rw [ih, dif_pos h, Function.update_idem]
      · rfl

/-- The first `n` elements of an array arrive exactly if those other than element `i` are zero. -/
lemma copyLoop_iff (i : ℕ) (src : Five) (n : ℕ) :
    (∃ dst, copyLoop i src n 0 = some dst ∧ ∀ k : Fin 5, (k : ℕ) < n → dst k = src k) ↔
      (0 < n → i < 5) ∧ ∀ k : Fin 5, (k : ℕ) < n → (k : ℕ) = i ∨ src k = 0 := by
  cases n with
  | zero => exact ⟨fun _ => ⟨nofun, fun k hk => absurd hk (Nat.not_lt_zero k)⟩,
      fun _ => ⟨0, rfl, fun k hk => absurd hk (Nat.not_lt_zero k)⟩⟩
  | succ n =>
      rw [copyLoop_succ]
      by_cases h : i < 5
      · rw [dif_pos h]
        have helem : ∀ k : Fin 5, Function.update (0 : Five) ⟨i, h⟩ (src ⟨i, h⟩) k = src k ↔
            (k : ℕ) = i ∨ src k = 0 := by
          intro k
          by_cases hk : k = ⟨i, h⟩
          · subst hk
            simp
          · have hki : ¬ (k : ℕ) = i := fun hc => hk (Fin.ext hc)
            rw [Function.update_of_ne hk]
            simp [hki, eq_comm]
        simp only [Option.some.injEq, exists_eq_left', helem, h, implies_true, true_and]
      · rw [dif_neg h]
        simp [h]

namespace AccesslogEvent

/-- The counts of an event are between 0 and 5. -/
structure InRange (e : AccesslogEvent) : Prop where
  users : 0 ≤ e.iUserNum ∧ e.iUserNum ≤ 5
  groups : 0 ≤ e.iGroupNum ∧ e.iGroupNum ≤ 5
  photos : 0 ≤ e.iPhotoNum ∧ e.iPhotoNum ≤ 5

/-- The index structure has the arrays of the event, as far as they are used. -/
structure CarriedBy (e : AccesslogEvent) (x : AccesslogIndex) : Prop where
  users : ∀ k : Fin 5, (k : ℤ) < e.iUserNum → x.userId k = e.uiUserId k
  groups : ∀ k : Fin 5, (k : ℤ) < e.iGroupNum → x.groupId k = e.uiGroupId k
  photos : ∀ k : Fin 5, (k : ℤ) < e.iPhotoNum → x.photoSize k = e.uiPhotoSize k ∧
    x.photoTime k = e.uiPhotoTime k ∧ x.photoStartAddr k = e.uiPhotoStartAddr k

/-- The arrays of event number `i` of a batch have nothing to lose: a user or a group only among
the first five events, none but that with the number of the event, and no photo. -/
structure Keepable (i : ℕ) (e : AccesslogEvent) : Prop where
  position : 0 < e.iUserNum ∨ 0 < e.iGroupNum → i < 5
  users : ∀ k : Fin 5, (k : ℤ) < e.iUserNum → (k : ℕ) = i ∨ e.uiUserId k = 0
  groups : ∀ k : Fin 5, (k : ℤ) < e.iGroupNum → (k : ℕ) = i ∨ e.uiGroupId k = 0
  photos : ∀ k : Fin 5, (k : ℤ) < e.iPhotoNum →
    e.uiPhotoSize k = 0 ∧ e.uiPhotoTime k = 0 ∧ e.uiPhotoStartAddr k = 0

lemma atMostFive_eq {n : ℤ} (h : n ≤ 5) : atMostFive n = n := if_neg (by omega)

/-- **When the arrays of an event arrive** in its index structure. -/
lemma index_iff (e : AccesslogEvent) (he : e.InRange) (i no : ℕ) :
    (∃ x, e.index i no = some x ∧ e.CarriedBy x) ↔ e.Keepable i := by
  obtain ⟨⟨hu0, hu5⟩, ⟨hg0, hg5⟩, ⟨hp0, hp5⟩⟩ := he
  have husers := copyLoop_iff i e.uiUserId e.iUserNum.toNat
  have hgroups := copyLoop_iff i e.uiGroupId e.iGroupNum.toNat
  simp only [Int.lt_toNat] at husers hgroups
  simp only [index, atMostFive_eq hu5, atMostFive_eq hg5, atMostFive_eq hp5, if_neg (not_lt.2 hp0)]
  constructor
  · rintro ⟨x, hx, hcarried⟩
    obtain ⟨userId, huser, hx⟩ := Option.bind_eq_some_iff.1 hx
    obtain ⟨groupId, hgroup, hx⟩ := Option.bind_eq_some_iff.1 hx
    rw [← Option.some.inj hx] at hcarried
    obtain ⟨hposu, hu⟩ := husers.1 ⟨userId, huser, hcarried.users⟩
    obtain ⟨hposg, hg⟩ := hgroups.1 ⟨groupId, hgroup, hcarried.groups⟩
    refine ⟨fun h => h.elim (fun h => hposu (by simpa using h)) fun h => hposg (by simpa using h), hu, hg,
      fun k hk => ?_⟩
    obtain ⟨hsize, htime, haddr⟩ := hcarried.photos k hk
    exact ⟨hsize.symm, htime.symm, haddr.symm⟩
  · rintro ⟨hpos, hu, hg, hp⟩
    obtain ⟨userId, huser, hu⟩ := husers.2 ⟨fun h => hpos (Or.inl (by simpa using h)), hu⟩
    obtain ⟨groupId, hgroup, hg⟩ := hgroups.2 ⟨fun h => hpos (Or.inr (by simpa using h)), hg⟩
    refine ⟨_, by rw [huser, hgroup]; rfl, hu, hg, fun k hk => ?_⟩
    obtain ⟨hsize, htime, haddr⟩ := hp k hk
    exact ⟨hsize.symm, htime.symm, haddr.symm⟩

end AccesslogEvent

/-! ### Where it goes -/

/-- The staging array after `i` events, the last of the time `prev`: the first slot has a record
for each event, and all other slots are still free. -/
structure HeldInFirst (i prev : ℕ) (slots : List (Slot Unit)) : Prop where
  times : slots.map Slot.time = prev :: List.replicate 9 0
  records : ∀ s, slots[0]? = some s → s.indexBuffer.length = i * ACCESSLOG_INDEX_SIZE

lemma heldInFirst_clear : HeldInFirst 0 0 clearAccessSlots :=
  ⟨rfl, fun s hs => by obtain rfl := Option.some.inj hs; rfl⟩

section
variable {zone : Zone} {manLogIndexPath : Path} {manLogBuffer : List ℕ → ℕ → ℕ}
variable {i prev : ℕ} {slots : List (Slot Unit)}

lemma HeldInFirst.time (h : HeldInFirst i prev slots) (j : ℕ) :
    (slots[j]?).map Slot.time = (prev :: List.replicate 9 0)[j]? := by
  rw [← List.getElem?_map, h.times]

variable (zone manLogBuffer) in
/-- The first slot is chosen for an event of the time `t`: it is free, or `manLogBuffer` has the
day of the event in front. -/
def ChoosesFirst (prev t : ℕ) : Prop :=
  prev = 0 ∨ (zone.localtime t).dataDay =
    (zone.localtime (manLogBuffer (prev :: List.replicate 9 0) 0)).dataDay

variable (zone manLogBuffer) in
/-- The search ends at the first or at the second slot. -/
lemma HeldInFirst.findAccessSlot (h : HeldInFirst i prev slots) {n : ℕ} (hn : 0 < n) (t : ℕ) :
    ∃ j s fresh, findAccessSlot zone manLogBuffer t slots n 0 = some (j, fresh) ∧
      slots[j]? = some s ∧ (j = 0 ↔ ChoosesFirst zone manLogBuffer prev t) := by
  obtain ⟨n, rfl⟩ : ∃ m, n = m + 1 := ⟨n - 1, by omega⟩
  obtain ⟨s₀, hs₀, hprev⟩ := Option.map_eq_some_iff.1 (h.time 0)
  obtain ⟨s₁, hs₁, hfree⟩ := Option.map_eq_some_iff.1 (h.time 1)
  have hprev : s₀.time = prev := hprev
  have hfree : s₁.time = 0 := hfree
  rw [DeviceTools.findAccessSlot, hs₀]
  simp only [h.times, hprev]
  by_cases h0 : prev = 0
  · rw [if_pos h0]
    exact ⟨0, s₀, true, rfl, hs₀, iff_of_true rfl (Or.inl h0)⟩
  rw [if_neg h0]
  by_cases hday : (zone.localtime t).dataDay =
      (zone.localtime (manLogBuffer (prev :: List.replicate 9 0) 0)).dataDay
  · rw [if_pos hday]
    exact ⟨0, s₀, false, rfl, hs₀, iff_of_true rfl (Or.inr hday)⟩
  rw [if_neg hday]
  have hno : ¬ ChoosesFirst zone manLogBuffer prev t := fun hc => hc.elim h0 hday
  cases n with
  | zero => exact ⟨1, s₁, false, rfl, hs₁, iff_of_false Nat.one_ne_zero hno⟩
  | succ n =>
      refine ⟨1, s₁, true, ?_, hs₁, iff_of_false Nat.one_ne_zero hno⟩
      rw [DeviceTools.findAccessSlot, hs₁]
      simp only [hfree, if_true]

/-- Opening a slot does not count. -/
lemma HeldInFirst.set_same (h : HeldInFirst i prev slots) {j : ℕ} {s c : Slot Unit}
    (hs : slots[j]? = some s) (htime : c.time = s.time) (hbuffer : c.indexBuffer = s.indexBuffer) :
    HeldInFirst i prev (slots.set j c) := by
  obtain ⟨hj, hget⟩ := List.getElem?_eq_some_iff.1 hs
  refine ⟨?_, fun s' hs' => ?_⟩
  · rw [List.map_set, htime, ← hget, ← h.times]
    apply List.ext_getElem?
    intro k
    rw [List.getElem?_set]
    split
    · next hk =>
        subst hk
        simp [hj]
    · rfl
  · rw [List.getElem?_set] at hs'
    by_cases hj0 : j = 0
    · subst hj0
      rw [if_pos rfl, if_pos hj, Option.some.injEq] at hs'
      rw [← hs', hbuffer]
      exact h.records s hs
    · rw [if_neg hj0] at hs'
      exact h.records s' hs'

/-- A record more in the first slot. -/
lemma HeldInFirst.set_first (h : HeldInFirst i prev slots) {s : Slot Unit} (hs : slots[0]? = some s)
    (t : ℕ) (index : AccesslogIndex) : HeldInFirst (i + 1) t
      (slots.set 0 { s with time := t, indexBuffer := s.indexBuffer ++ index.encode }) := by
  cases slots with
  | nil => simp at hs
  | cons s₀ rest =>
      obtain rfl : s₀ = s := by simpa using hs
      obtain ⟨-, htimes⟩ : _ ∧ rest.map Slot.time = List.replicate 9 0 := by simpa using h.times
      refine ⟨by rw [List.set_cons_zero, List.map_cons, htimes], fun s' hs' => ?_⟩
      obtain rfl : _ = s' := by simpa using hs'
      rw [List.length_append, h.records s₀ rfl, AccesslogIndex.length_encode, Nat.succ_mul]

variable (zone manLogIndexPath manLogBuffer) in
/-- **The staging of an event**: it is staged if its index structure is filled in and there is
room for it, always in the first slot. -/
lemma HeldInFirst.stageAccess (h : HeldInFirst i prev slots) {n : ℕ} (hn : 0 < n) (e : AccesslogEvent) :
    ∃ j no, (j = 0 ↔ ChoosesFirst zone manLogBuffer prev e.uiTime.toNat) ∧
      (∀ slots' x, stageAccess zone manLogIndexPath manLogBuffer n i slots e = some (slots', x) →
        HeldInFirst (i + 1) e.uiTime.toNat slots' ∧ (i + 1) * ACCESSLOG_INDEX_SIZE ≤ 10 * 256 ∧
        x.chosen = j ∧ x.slot = 0 ∧ e.index i no = some x.index) ∧
      (∀ index, e.index i no = some index → (i + 1) * ACCESSLOG_INDEX_SIZE ≤ 10 * 256 →
        ∃ slots', stageAccess zone manLogIndexPath manLogBuffer n i slots e =
          some (slots', ⟨j, 0, index⟩)) := by
  obtain ⟨j, s, fresh, hfind, hs, hj⟩ := h.findAccessSlot zone manLogBuffer hn e.uiTime.toNat
  let chosen :=
    if fresh then openAccessSlot manLogIndexPath (zone.localtime e.uiTime.toNat) s else s
  have hheld : HeldInFirst i prev (slots.set j chosen) := by
    refine h.set_same hs ?_ ?_
    · simp only [chosen]
      split <;> rfl
    · simp only [chosen]
      split <;> rfl
  obtain ⟨s₀, hs₀, -⟩ := Option.map_eq_some_iff.1 (hheld.time 0)
  have hlen := hheld.records s₀ hs₀
  have hroom : i * ACCESSLOG_INDEX_SIZE + ACCESSLOG_INDEX_SIZE = (i + 1) * ACCESSLOG_INDEX_SIZE :=
    (Nat.succ_mul ..).symm
  have hstage : DeviceTools.stageAccess zone manLogIndexPath manLogBuffer n i slots e =
      (e.index i chosen.startIndexNo).bind fun index =>
        if 10 * 256 < (i + 1) * ACCESSLOG_INDEX_SIZE then none
        else some ((slots.set j chosen).set 0
          { s₀ with time := e.uiTime.toNat, indexBuffer := s₀.indexBuffer ++ index.encode },
          ⟨j, 0, index⟩) := by
    rw [← hroom, ← hlen]
    simp only [DeviceTools.stageAccess, hfind, Option.bind_eq_bind, Option.bind_some, hs]
    change (e.index i chosen.startIndexNo).bind _ = _
    congr 1
    funext index
    change ((slots.set j chosen)[0]?).bind _ = _
    rw [hs₀, Option.bind_some]
  refine ⟨j, chosen.startIndexNo, hj, fun slots' x hx => ?_, fun index hindex hfits => ?_⟩
  · rw [hstage] at hx
    obtain ⟨index, hindex, hx⟩ := Option.bind_eq_some_iff.1 hx
    rw [Option.ite_none_left_eq_some] at hx
    obtain ⟨hfits, hx⟩ := hx
    obtain ⟨rfl, rfl⟩ := Prod.mk.inj (Option.some.inj hx)
    exact ⟨hheld.set_first hs₀ _ index, not_lt.1 hfits, rfl, rfl, hindex⟩
  · rw [hstage, hindex, Option.bind_some, if_neg (not_lt.2 hfits)]
    exact ⟨_, rfl⟩

end

/-! ### The batch -/

section
variable (zone : Zone) (manLogIndexPath : Path) (manLogBuffer : List ℕ → ℕ → ℕ)

/-- What is staged for an event has its arrays, and is in the slot chosen for it. -/
structure AccesslogEvent.StagedAs (e : AccesslogEvent) (x : AccessStaged) : Prop where
  index : e.CarriedBy x.index
  slot : x.slot = x.chosen

/-- From event number `i` on, behind an event of the time `prev`: no array has anything to lose,
the first slot is chosen for each event, and has room for it. -/
def KeepsFrom : ℕ → ℕ → List AccesslogEvent → Prop
  | _, _, [] => True
  | i, prev, e :: es =>
      (e.Keepable i ∧ ChoosesFirst zone manLogBuffer prev e.uiTime.toNat ∧
        (i + 1) * ACCESSLOG_INDEX_SIZE ≤ 10 * 256) ∧ KeepsFrom (i + 1) e.uiTime.toNat es

variable {zone manLogBuffer}

lemma stageAccesses_iff {n : ℕ} (hn : 0 < n) : ∀ {batch : List AccesslogEvent},
    (∀ e ∈ batch, e.InRange) → ∀ {i prev : ℕ} {slots : List (Slot Unit)}, HeldInFirst i prev slots →
      ((∃ slots' staged, stageAccesses zone manLogIndexPath manLogBuffer n i slots batch =
          some (slots', staged) ∧ List.Forall₂ AccesslogEvent.StagedAs batch staged) ↔
        KeepsFrom zone manLogBuffer i prev batch) := by
  intro batch
  induction batch with
  | nil =>
      intro _ i prev slots _
      exact iff_of_true ⟨slots, [], rfl, List.Forall₂.nil⟩ trivial
  | cons e es ih =>
      intro hrange i prev slots hheld
      have he := hrange e (List.mem_cons_self ..)
      have ih := @ih fun e' he' => hrange e' (List.mem_cons_of_mem _ he')
      obtain ⟨j, no, hj, hstaged, hstage⟩ :=
        hheld.stageAccess zone manLogIndexPath manLogBuffer hn e
      rw [KeepsFrom, stageAccesses]
      constructor
      · rintro ⟨slots', staged, hrun, hall⟩
        obtain ⟨⟨slots₁, x⟩, hfirst, hrun⟩ := Option.bind_eq_some_iff.1 hrun
        obtain ⟨⟨slots₂, rest⟩, hrest, hrun⟩ := Option.bind_eq_some_iff.1 hrun
        obtain ⟨rfl, rfl⟩ := Prod.mk.inj (Option.some.inj hrun)
        obtain ⟨hx, hall⟩ := List.forall₂_cons.1 hall
        obtain ⟨hheld₁, hfits, hchosen, hslot, hindex⟩ := hstaged _ _ hfirst
        refine ⟨⟨(e.index_iff he i no).1 ⟨_, hindex, hx.index⟩, hj.1 ?_, hfits⟩,
          (ih hheld₁).1 ⟨_, rest, hrest, hall⟩⟩
        rw [← hchosen, ← hx.slot, hslot]
      · rintro ⟨⟨hkeep, hfirst, hfits⟩, hrest⟩
        obtain ⟨index, hindex, hcarried⟩ := (e.index_iff he i no).2 hkeep
        obtain ⟨slots₁, hstep⟩ := hstage index hindex hfits
        obtain ⟨slots', staged, hrun, hall⟩ := (ih (hstaged _ _ hstep).1).2 hrest
        refine ⟨slots', ⟨j, 0, index⟩ :: staged, ?_, List.Forall₂.cons ⟨hcarried, (hj.2 hfirst).symm⟩ hall⟩
        rw [hstep]
        simp only [Option.bind_eq_bind, Option.bind_some, hrun]

/-- **When a save keeps the data of the access log.**  For events with at most five users, groups
and photos each, the staging loop goes through, with the arrays of each event in its index
structure and this in the slot chosen for the event, if and only if `KeepsFrom` holds of the
batch. -/
theorem access_log_kept_iff (zone : Zone) (manLogIndexPath : Path) (manLogBuffer : List ℕ → ℕ → ℕ)
    (batch : List AccesslogEvent) (hrange : ∀ e ∈ batch, e.InRange) :
    (∃ slots staged, stageAccesses zone manLogIndexPath manLogBuffer batch.length 0 clearAccessSlots
        batch = some (slots, staged) ∧ List.Forall₂ AccesslogEvent.StagedAs batch staged) ↔
      KeepsFrom zone manLogBuffer 0 0 batch := by
  cases batch with
  | nil => exact iff_of_true ⟨_, [], rfl, List.Forall₂.nil⟩ trivial
  | cons e es => exact stageAccesses_iff manLogIndexPath (Nat.succ_pos _) hrange heldInFirst_clear

/-- An event of one user. -/
def oneUser (time : UInt32) : AccesslogEvent where
  cType := LogType.eAccessLog.code
  cRecogMode := 0
  iAccessMode := 0
  iUserNum := 1
  uiUserId k := if k = 0 then 7 else 0
  iGroupNum := 0
  uiGroupId := 0
  uiTime := time
  iResult := 0
  iPhotoNum := 0
  uiPhotoSize := 0
  uiPhotoTime := 0
  uiPhotoStartAddr := 0

lemma oneUser_inRange (time : UInt32) : (oneUser time).InRange :=
  ⟨by simp [oneUser], by simp [oneUser], by simp [oneUser]⟩

/-- An event with its last user in place `i`, and no user in front. -/
def userAt (i : Fin 5) (time : UInt32) : AccesslogEvent :=
  { oneUser time with iUserNum := (i : ℕ) + 1, uiUserId := fun k => if k = i then 7 else 0 }

lemma userAt_inRange (i : Fin 5) (time : UInt32) : (userAt i time).InRange where
  users := by
    have := i.isLt
    simp only [userAt]
    omega
  groups := (oneUser_inRange time).groups
  photos := (oneUser_inRange time).photos

lemma userAt_keepable (i : Fin 5) (time : UInt32) : (userAt i time).Keepable i where
  position _ := i.isLt
  users k _ := by
    by_cases h : k = i
    · exact Or.inl (by rw [h])
    · exact Or.inr (if_neg h)
  groups k hk := absurd hk (by simp [userAt, oneUser])
  photos k hk := absurd hk (by simp [userAt, oneUser])

/-- Three events of a day, each with its user in the place of its own number. -/
theorem access_log_kept_three : ∃ slots staged,
    stageAccesses FixedZone.utc.zone ['m'] (fun times j => times.getD j 0) 3 0 clearAccessSlots
      [userAt 0 5, userAt 1 6, userAt 2 7] = some (slots, staged) ∧
    List.Forall₂ AccesslogEvent.StagedAs [userAt 0 5, userAt 1 6, userAt 2 7] staged := by
  refine (access_log_kept_iff FixedZone.utc.zone ['m'] (fun times j => times.getD j 0)
    [userAt 0 5, userAt 1 6, userAt 2 7] fun e he => ?_).2
      ⟨⟨userAt_keepable 0 5, Or.inl rfl, by decide⟩, ⟨userAt_keepable 1 6, Or.inr (by decide), by decide⟩,
        ⟨userAt_keepable 2 7, Or.inr (by decide), by decide⟩, trivial⟩
  simp only [List.mem_cons, List.not_mem_nil, or_false] at he
  rcases he with rfl | rfl | rfl <;> exact userAt_inRange _ _

/-- **The second event loses its user**: the loop of event number 1 copies element 1. -/
theorem access_log_loses_user : ¬ ∀ (zone : Zone) (manLogIndexPath : Path)
    (manLogBuffer : List ℕ → ℕ → ℕ) (batch : List AccesslogEvent), (∀ e ∈ batch, e.InRange) →
      ∃ slots staged, stageAccesses zone manLogIndexPath manLogBuffer batch.length 0 clearAccessSlots
        batch = some (slots, staged) ∧ List.Forall₂ AccesslogEvent.StagedAs batch staged := by
  intro h
  have hrange : ∀ e ∈ [oneUser 5, oneUser 6], e.InRange := by
    intro e he
    rcases List.mem_pair.1 he with rfl | rfl
    · exact oneUser_inRange 5
    · exact oneUser_inRange 6
  have hstaged := h FixedZone.utc.zone ['m'] (fun times j => times.getD j 0) _ hrange
  rw [stageAccesses_iff _ (by decide) hrange heldInFirst_clear] at hstaged
  obtain ⟨-, ⟨hkeep, -⟩, -⟩ := hstaged
  have huser := hkeep.users 0 (by decide)
  revert huser
  decide

/-! ### The files -/

/-- All events of a batch are held in the first slot. -/
lemma stageAccesses_held {n : ℕ} (hn : 0 < n) : ∀ {batch : List AccesslogEvent} {i prev : ℕ}
    {slots slots' : List (Slot Unit)} {staged : List AccessStaged}, HeldInFirst i prev slots →
      stageAccesses zone manLogIndexPath manLogBuffer n i slots batch = some (slots', staged) →
        ∃ prev', HeldInFirst (i + batch.length) prev' slots' := by
  intro batch
  induction batch with
  | nil =>
      intro i prev slots slots' staged hheld hrun
      obtain ⟨rfl, -⟩ := Prod.mk.inj (Option.some.inj hrun)
      exact ⟨prev, hheld⟩
  | cons e es ih =>
      intro i prev slots slots' staged hheld hrun
      obtain ⟨j, no, -, hstaged, -⟩ := hheld.stageAccess zone manLogIndexPath manLogBuffer hn e
      obtain ⟨⟨slots₁, x⟩, hfirst, hrun⟩ := Option.bind_eq_some_iff.1 hrun
      obtain ⟨⟨slots₂, rest⟩, hrest, hrun⟩ := Option.bind_eq_some_iff.1 hrun
      obtain ⟨rfl, rfl⟩ := Prod.mk.inj (Option.some.inj hrun)
      obtain ⟨prev', hheld'⟩ := ih (hstaged _ _ hfirst).1 hrest
      rw [Nat.add_right_comm, Nat.add_assoc] at hheld'
      exact ⟨prev', hheld'⟩

/-- **A save writes one file**, whatever the days of its events. -/
theorem saveAccessLogs_one_file {io : ℕ → AppendIo} {d : Disk} {total : ℕ}
    {batch : List AccesslogEvent} {r : FlushResult}
    (h : saveAccessLogs zone manLogIndexPath manLogBuffer io d total batch = some r) :
    r.trace.length ≤ 1 := by
  obtain ⟨⟨slots, staged⟩, hrun, hr⟩ := Option.bind_eq_some_iff.1 h
  rw [← Option.some.inj hr]
  obtain ⟨i, prev, hheld⟩ : ∃ i prev, HeldInFirst i prev slots := by
    cases batch with
    | nil =>
        obtain ⟨rfl, -⟩ := Prod.mk.inj (Option.some.inj hrun)
        exact ⟨0, 0, heldInFirst_clear⟩
    | cons e es => exact ⟨_, stageAccesses_held manLogIndexPath (Nat.succ_pos _) heldInFirst_clear hrun⟩
  -- the second slot is free
  have hused : (slots.takeWhile fun s => s.time ≠ 0).length ≤ 1 := by
    obtain ⟨s₁, hs₁, hfree⟩ := Option.map_eq_some_iff.1 (hheld.time 1)
    have hfree : s₁.time = 0 := hfree
    match slots, hs₁ with
    | s₀ :: s :: rest, hs₁ =>
        obtain rfl : s = s₁ := by simpa using hs₁
        rw [List.takeWhile_cons]
        split
        · simp [hfree]
        · simp
  have htrace : ∀ as, (writeAll io 0 d as).2.2.length ≤ as.length := by
    intro as
    have hpaths := (writeAll_trace_along io as 0 d).length_le
    rwa [List.length_map, List.length_map] at hpaths
  refine le_trans (htrace _) ?_
  rw [List.length_map]
  exact hused

end

end DeviceTools
