/-
Searching a store in pages.

A search for a limited number of entries leaves in the condition where it stopped: the start time, moved
on to a midnight, and the address in the index file of its day.  The caller goes on from there with the
next call.  In a zone with a fixed offset, over index files that have the records of their days, a cursor
between two calls stands for the records that are still to come (`pending`); a call hands out the first
of them and leaves the others (`search_spec`).
-/
import DeviceTools.Lib.Paging
import DeviceTools.Store.DaySearch

namespace DeviceTools

open ByteWord

/-! ### The records of a store -/

/-- Every index file has complete records, all of the file's day.  The time of a record is at the given
offset. -/
def DatedStore (offset : ℕ) (Z : FixedZone) (d : Disk) (indexPath : Path) (size : ℕ) : Prop :=
  ∀ tm bs, d (dayPath indexPath tm dotIndex) = some bs → bs.length ≤ OFF_MAX ∧
    ∃ blocks : List (List UInt8), bs = blocks.flatten ∧
      ∀ b ∈ blocks, b.length = size ∧ Z.zone.localtime (timeAt offset b) = tm

/-- The number of local days that have a 32-bit time. -/
def dayCount (Z : FixedZone) : ℕ := Z.dayOf (2 ^ 32 - 1) + 1

/-- The records of a day, in the order of its file. -/
def dayRecords (d : Disk) (indexPath : Path) (size k : ℕ) : List (List UInt8) :=
  records size (d.contents (dayPath indexPath (Tm.ofDays k) dotIndex))

/-- The records of the days from day `k` on, in the order of the days. -/
def recordsFrom (Z : FixedZone) (d : Disk) (indexPath : Path) (size k : ℕ) : List (List UInt8) :=
  (List.range' k (dayCount Z - k)).flatMap (dayRecords d indexPath size)

/-- All records of a store. -/
def allRecords (Z : FixedZone) (d : Disk) (indexPath : Path) (size : ℕ) : List (List UInt8) :=
  recordsFrom Z d indexPath size 0

section
variable {Z : FixedZone} {d : Disk} {indexPath : Path} {size offset : ℕ}

lemma dayOf_lt_dayCount (t : UInt32) : Z.dayOf t.toNat < dayCount Z := by
  have h := Z.dayOf_mono (show t.toNat ≤ 2 ^ 32 - 1 by have := t.toNat_lt; omega)
  exact Nat.lt_succ_of_le h

lemma dayCount_le : dayCount Z ≤ 10 ^ 6 := Z.dayOf_lt (by decide)

lemma timeAt_lt (offset : ℕ) (b : List UInt8) : timeAt offset b < 2 ^ 32 := by
  refine lt_of_lt_of_le (leNat_lt _) ?_
  calc 256 ^ (field b offset 4).length ≤ 256 ^ 4 := Nat.pow_le_pow_right (by decide) (by simp [field])
    _ = 2 ^ 32 := by decide

lemma recordsFrom_eq {k : ℕ} (hk : k < dayCount Z) : recordsFrom Z d indexPath size k =
    dayRecords d indexPath size k ++ recordsFrom Z d indexPath size (k + 1) := by
  rw [recordsFrom, recordsFrom, show dayCount Z - k = dayCount Z - (k + 1) + 1 by omega,
    List.range'_succ, List.flatMap_cons]

lemma mem_allRecords {k : ℕ} (hk : k < dayCount Z) {b : List UInt8}
    (hb : b ∈ dayRecords d indexPath size k) : b ∈ allRecords Z d indexPath size := by
  refine List.mem_flatMap.2 ⟨k, ?_, hb⟩
  rw [List.mem_range'_1]
  omega

/-- A store with one index file. -/
lemma DatedStore.update (hd : DatedStore offset Z d indexPath size) {tm : Tm} {blocks : List (List UInt8)}
    (hlen : blocks.flatten.length ≤ OFF_MAX)
    (hblocks : ∀ b ∈ blocks, b.length = size ∧ Z.zone.localtime (timeAt offset b) = tm) :
    DatedStore offset Z (Function.update d (dayPath indexPath tm dotIndex) (some blocks.flatten)) indexPath
      size := by
  intro tm' bs hbs
  by_cases htm : tm' = tm
  · subst htm
    rw [Function.update_self, Option.some.injEq] at hbs
    subst hbs
    exact ⟨hlen, blocks, rfl, hblocks⟩
  · rw [Function.update_of_ne fun h => htm (dayPath_inj.1 h)] at hbs
    exact hd tm' bs hbs

lemma datedStore_single {tm : Tm} {blocks : List (List UInt8)} (hlen : blocks.flatten.length ≤ OFF_MAX)
    (hblocks : ∀ b ∈ blocks, b.length = size ∧ Z.zone.localtime (timeAt offset b) = tm) :
    DatedStore offset Z
      (Function.update (fun _ => none) (dayPath indexPath tm dotIndex) (some blocks.flatten)) indexPath
      size :=
  DatedStore.update (fun _ _ h => absurd h.symm (Option.some_ne_none _)) hlen hblocks

variable (hstore : DatedStore offset Z d indexPath size)
include hstore

/-- What there is in the file of a day. -/
lemma DatedStore.file (hpos : 0 < size) (k : ℕ) :
    d.openRead (dayPath indexPath (Tm.ofDays k) dotIndex) = none ∧ dayRecords d indexPath size k = [] ∨
    d.openRead (dayPath indexPath (Tm.ofDays k) dotIndex) = some (dayRecords d indexPath size k).flatten ∧
      (dayRecords d indexPath size k).length * size ≤ OFF_MAX ∧
      ∀ b ∈ dayRecords d indexPath size k,
        b.length = size ∧ Z.zone.localtime (timeAt offset b) = Tm.ofDays k := by
  rw [Disk.openRead, dayRecords, Disk.contents]
  cases hfile : d (dayPath indexPath (Tm.ofDays k) dotIndex) with
  | none => exact Or.inl ⟨rfl, by simp [records]⟩
  | some bs =>
      obtain ⟨hlen, blocks, rfl, hblocks⟩ := hstore _ _ hfile
      have hsize : ∀ b ∈ blocks, b.length = size := fun b hb => (hblocks b hb).1
      right
      rw [Option.getD_some, records_flatten hpos hsize]
      exact ⟨if_pos hlen, by rwa [← length_flatten_blocks hsize], hblocks⟩

lemma DatedStore.dayOf_eq (hpos : 0 < size) {k : ℕ} (hk : k < dayCount Z) {b : List UInt8}
    (hb : b ∈ dayRecords d indexPath size k) : Z.dayOf (timeAt offset b) = k := by
  rcases hstore.file hpos k with ⟨-, hnone⟩ | ⟨-, -, hall⟩
  · simp [hnone] at hb
  · have hday : Tm.ofDays (Z.dayOf (timeAt offset b)) = Tm.ofDays k := (hall b hb).2
    have hlt : Z.dayOf (timeAt offset b) < 10 ^ 6 := Z.dayOf_lt (by have := timeAt_lt offset b; omega)
    rw [← Tm.days_ofDays hlt, hday, Tm.days_ofDays (hk.trans_le dayCount_le)]

lemma DatedStore.le_dayOf (hpos : 0 < size) {k : ℕ} {b : List UInt8}
    (hb : b ∈ recordsFrom Z d indexPath size k) : k ≤ Z.dayOf (timeAt offset b) := by
  obtain ⟨j, hj, hbj⟩ := List.mem_flatMap.1 hb
  rw [List.mem_range'_1] at hj
  rw [hstore.dayOf_eq hpos (by omega) hbj]
  exact hj.1

end

namespace DaySearch

variable (S : DaySearch) (Z : FixedZone) (d : Disk)

/-- The records that a search from the condition has still to hand out. -/
def pending (c : SearchCondition) : List (List UInt8) :=
  ((recordsFrom Z d S.indexPath S.size (Z.dayOf c.startTime.toNat)).drop
    (c.startAddr.toNat / S.size)).filter (S.matching c)

/-- The limit of the condition has been reached. -/
def Full (c : SearchCondition) (infos : List LogInfo) : Prop :=
  0 < c.searchNum ∧ c.searchNum ≤ infos.length

/-- The start address is that of a record in the file of its day, or that behind the last one. -/
def Cursor (c : SearchCondition) : Prop :=
  ∃ j ≤ (dayRecords d S.indexPath S.size (Z.dayOf c.startTime.toNat)).length,
    c.startAddr.toNat = j * S.size

/-! ### One file -/

variable {S Z d}

/-- **The inner loop** reads up to the record with which the limit is reached, or to the end. -/
lemma searchFile_spec {c : SearchCondition} : ∀ (blocks : List (List UInt8)) (r : FileResult),
    r.searchOverFlag = false → ¬ Full c r.infos →
    ∃ pre post, blocks = pre ++ post ∧
      (S.searchFile (fun _ => true) c blocks r).infos.map LogInfo.logIndex =
        r.infos.map LogInfo.logIndex ++ pre.filter (S.matching c) ∧
      (S.searchFile (fun _ => true) c blocks r).searchOverAddr = r.searchOverAddr + pre.length * S.size ∧
      ((S.searchFile (fun _ => true) c blocks r).searchOverFlag = false ∧ post = [] ∧
          ¬ Full c (S.searchFile (fun _ => true) c blocks r).infos ∨
        (S.searchFile (fun _ => true) c blocks r).searchOverFlag = true ∧ 0 < c.searchNum ∧
          c.searchNum = (S.searchFile (fun _ => true) c blocks r).infos.length) := by
  intro blocks
  induction blocks with
  | nil =>
      intro r hflag hfull
      exact ⟨[], [], rfl, by simp [searchFile], by simp [searchFile], Or.inl ⟨hflag, rfl, hfull⟩⟩
  | cons b blocks ih =>
      intro r hflag hfull
      rw [searchFile]
      dsimp only
      by_cases hmatch : S.matching c b = true
      · rw [if_pos hmatch, if_pos rfl]
        set infos := r.infos ++ [⟨r.infos.length + 1, b⟩] with hinfos
        have hmap : infos.map LogInfo.logIndex = r.infos.map LogInfo.logIndex ++ [b] := by
          rw [hinfos, List.map_append]
          rfl
        have hlen : infos.length = r.infos.length + 1 := by rw [hinfos]; simp
        by_cases hstop : 0 < c.searchNum ∧ c.searchNum ≤ infos.length
        · -- the limit is reached with this record
          rw [if_pos hstop]
          refine ⟨[b], blocks, rfl, ?_, by simp, Or.inr ⟨rfl, hstop.1, ?_⟩⟩
          · rw [hmap, List.filter_cons_of_pos hmatch, List.filter_nil]
          · rw [Full] at hfull
            have hlt : (r.infos.length : ℤ) < c.searchNum := by
              by_contra hle
              exact hfull ⟨hstop.1, not_lt.1 hle⟩
            have := hstop.2
            push_cast [hlen] at this ⊢
            omega
        · rw [if_neg hstop]
          obtain ⟨pre, post, rfl, hi, ho, hcase⟩ := ih ⟨r.searchOverAddr + S.size, r.mallocs + 1,
            infos, r.searchOverFlag⟩ hflag hstop
          refine ⟨b :: pre, post, rfl, ?_, ?_, hcase⟩
          · rw [hi, hmap, List.filter_cons_of_pos hmatch, List.append_assoc, List.singleton_append]
          · rw [ho, List.length_cons]
            ring
      · rw [if_neg hmatch]
        obtain ⟨pre, post, rfl, hi, ho, hcase⟩ := ih { r with
          searchOverAddr := r.searchOverAddr + S.size } hflag hfull
        refine ⟨b :: pre, post, rfl, ?_, ?_, hcase⟩
        · rw [hi, List.filter_cons_of_neg hmatch]
        · rw [ho, List.length_cons]
          ring

/-! ### From day to day -/

variable (S Z d) in
/-- A condition with which a call is made. -/
structure Ready (c : SearchCondition) : Prop where
  cursor : S.Cursor Z d c
  times : c.startTime ≤ c.endTime

variable (S Z d) in
/-- Where the outer loop can stand, with enough fuel left for the days up to that of the end time. -/
structure Started (fuel : ℕ) (c : SearchCondition) (infos : List LogInfo) : Prop where
  cursor : S.Cursor Z d c
  times : Z.dayOf c.startTime.toNat ≤ Z.dayOf c.endTime.toNat → c.startTime ≤ c.endTime
  day_le : Z.dayOf c.startTime.toNat ≤ Z.dayOf c.endTime.toNat + 1
  last : (Z.dayOf c.endTime.toNat + 1) * DAY < 2 ^ 32 + Z.east
  limit : ¬ Full c infos
  fuel : Z.dayOf c.endTime.toNat + 2 ≤ fuel + Z.dayOf c.startTime.toNat

variable (S Z d) in
/-- The outer loop adds to the list the first records that are pending: all of them, without reaching the
limit, or as many as there are up to the limit, and the others stay pending. -/
def Hands (c : SearchCondition) (infos : List LogInfo) (c' : SearchCondition) (infos' : List LogInfo) :
    Prop :=
  ∃ taken rest, S.pending Z d c = taken ++ rest ∧
    infos'.map LogInfo.logIndex = infos.map LogInfo.logIndex ++ taken ∧
    (rest = [] ∧ ¬ Full c infos' ∨
      0 < c.searchNum ∧ c.searchNum = infos'.length ∧ S.Ready Z d c' ∧ c'.endTime = c.endTime ∧
        c'.searchNum = c.searchNum ∧ S.pending Z d c' = rest)

lemma Hands.after {c c₁ c' : SearchCondition} {infos infos₁ infos' : List LogInfo} {taken : List (List UInt8)}
    (h : S.Hands Z d c₁ infos₁ c' infos') (hpending : S.pending Z d c = taken ++ S.pending Z d c₁)
    (hinfos : infos₁.map LogInfo.logIndex = infos.map LogInfo.logIndex ++ taken)
    (hend : c₁.endTime = c.endTime) (hnum : c₁.searchNum = c.searchNum) : S.Hands Z d c infos c' infos' := by
  obtain ⟨taken₁, rest, hp, hi, hcase⟩ := h
  refine ⟨taken ++ taken₁, rest, by rw [hpending, hp, List.append_assoc],
    by rw [hi, hinfos, List.append_assoc], ?_⟩
  rw [Full, hnum, hend] at hcase
  exact hcase

lemma past_iff {c : SearchCondition} :
    c.Past Z ↔ Z.dayOf c.endTime.toNat < Z.dayOf c.startTime.toNat := by
  rw [← not_le, ← Z.stamp_le_iff c.startTime.toNat_lt c.endTime.toNat_lt, not_le]
  rfl

lemma pending_of_cursor {c : SearchCondition} {j : ℕ}
    (hj : j ≤ (dayRecords d S.indexPath S.size (Z.dayOf c.startTime.toNat)).length)
    (haddr : c.startAddr.toNat = j * S.size) :
    S.pending Z d c =
      ((dayRecords d S.indexPath S.size (Z.dayOf c.startTime.toNat)).drop j).filter (S.matching c) ++
      (recordsFrom Z d S.indexPath S.size (Z.dayOf c.startTime.toNat + 1)).filter (S.matching c) := by
  rw [pending, haddr, Nat.mul_div_cancel _ S.size_pos, recordsFrom_eq (dayOf_lt_dayCount _),
    List.drop_append_of_le_length hj, List.filter_append]

/-- The limit is reached in the file of a day: the address in the condition is that behind the last record
that was read. -/
lemma hands_full {c : SearchCondition} {infos infos' : List LogInfo} {j n : ℕ} {pre post : List (List UInt8)}
    (htimes : c.startTime ≤ c.endTime)
    (hj : j ≤ (dayRecords d S.indexPath S.size (Z.dayOf c.startTime.toNat)).length)
    (haddr : c.startAddr.toNat = j * S.size)
    (hlen : (dayRecords d S.indexPath S.size (Z.dayOf c.startTime.toNat)).length * S.size ≤ OFF_MAX)
    (hsplit : (dayRecords d S.indexPath S.size (Z.dayOf c.startTime.toNat)).drop j = pre ++ post)
    (hinfos : infos'.map LogInfo.logIndex = infos.map LogInfo.logIndex ++ pre.filter (S.matching c))
    (hover : n = pre.length * S.size) (hpos : 0 < c.searchNum) (hnum : c.searchNum = infos'.length) :
    S.Hands Z d c infos { c with startAddr := c.startAddr + UInt32.ofNat n } infos' := by
  have hpre : j + pre.length ≤
      (dayRecords d S.indexPath S.size (Z.dayOf c.startTime.toNat)).length := by
    have := congrArg List.length hsplit
    rw [List.length_drop, List.length_append] at this
    omega
  have haddr' : (c.startAddr + UInt32.ofNat n).toNat = (j + pre.length) * S.size := by
    have hbound := (Nat.mul_le_mul_right S.size hpre).trans hlen
    rw [hover, UInt32.toNat_add, UInt32.toNat_ofNat', haddr]
    rw [Nat.add_mul] at hbound ⊢
    simp only [OFF_MAX] at hbound
    omega
  refine ⟨pre.filter (S.matching c), post.filter (S.matching c) ++
    (recordsFrom Z d S.indexPath S.size (Z.dayOf c.startTime.toNat + 1)).filter (S.matching c),
    ?_, hinfos, Or.inr ⟨hpos, hnum, ⟨⟨j + pre.length, hpre, haddr'⟩, htimes⟩, rfl, rfl, ?_⟩⟩
  · rw [pending_of_cursor hj haddr, hsplit, List.filter_append, List.append_assoc]
  · have hpending := pending_of_cursor (c := { c with startAddr := c.startAddr + UInt32.ofNat n })
      hpre haddr'
    dsimp only at hpending
    rw [hpending, ← List.drop_drop, hsplit, List.drop_left]
    rfl

section
variable (hstore : DatedStore S.timeOffset Z d S.indexPath S.size)
include hstore

lemma pending_past {c : SearchCondition} (h : Z.dayOf c.endTime.toNat < Z.dayOf c.startTime.toNat) :
    S.pending Z d c = [] := by
  rw [pending, List.filter_eq_nil_iff]
  intro b hb hmatch
  have hday := hstore.le_dayOf S.size_pos (List.mem_of_mem_drop hb)
  simp only [matching, inTime, Bool.and_eq_true, decide_eq_true_eq] at hmatch
  have := Z.dayOf_mono hmatch.1.2
  omega

/-- At the next midnight the records of the days behind are pending: all their times are later than both
start times. -/
lemma pending_next {c c₁ : SearchCondition} (haddr : c₁.startAddr = 0) (hend : c₁.endTime = c.endTime)
    (htime : c₁.startTime.toNat + Z.east = (Z.dayOf c.startTime.toNat + 1) * DAY) :
    S.pending Z d c₁ =
      (recordsFrom Z d S.indexPath S.size (Z.dayOf c.startTime.toNat + 1)).filter (S.matching c) := by
  rw [pending, Z.dayOf_midnight htime, haddr]
  simp only [UInt32.toNat_zero, Nat.zero_div, List.drop_zero]
  refine List.filter_congr fun b hb => ?_
  have hday := hstore.le_dayOf S.size_pos hb
  have hold : c.startTime.toNat ≤ timeAt S.timeOffset b := by
    by_contra hlt
    have := Z.dayOf_mono (not_le.1 hlt).le
    omega
  have hnew : c₁.startTime.toNat ≤ timeAt S.timeOffset b := by
    rw [Z.le_dayOf_iff, ← htime] at hday
    omega
  rw [matching, matching, inTime, inTime]
  simp [hold, hnew, hend]

/-- The records of one day are collected without reaching the limit, and the loop goes on with the next
day. -/
lemma nextDay_spec {fuel j mallocs : ℕ} {c : SearchCondition} {infos infos₁ : List LogInfo}
    (ih : ∀ c mallocs infos, S.Started Z d fuel c infos →
      ∃ c' infos', S.searchDays Z d (fun _ => true) fuel c mallocs infos = some (c', infos') ∧
        S.Hands Z d c infos c' infos')
    (hs : S.Started Z d (fuel + 1) c infos) (hday : Z.dayOf c.startTime.toNat ≤ Z.dayOf c.endTime.toNat)
    (hj : j ≤ (dayRecords d S.indexPath S.size (Z.dayOf c.startTime.toNat)).length)
    (haddr : c.startAddr.toNat = j * S.size)
    (hinfos : infos₁.map LogInfo.logIndex = infos.map LogInfo.logIndex ++
      ((dayRecords d S.indexPath S.size (Z.dayOf c.startTime.toNat)).drop j).filter (S.matching c))
    (hfull : ¬ Full c infos₁) :
    ∃ c' infos', S.searchDays Z d (fun _ => true) fuel (c.nextDay Z) mallocs infos₁ = some (c', infos') ∧
      S.Hands Z d c infos c' infos' := by
  have htime := toNat_dayLater Z (t := c.startTime) (by
    refine lt_of_le_of_lt (Nat.mul_le_mul_right _ ?_) hs.last
    omega)
  rw [← c.nextDay_startTime] at htime
  have hend := c.nextDay_endTime (Z := Z)
  have hstart := c.nextDay_startAddr (Z := Z)
  have hnum := c.nextDay_searchNum (Z := Z)
  generalize c.nextDay Z = c₁ at htime hend hstart hnum ⊢
  have hnext : S.Started Z d fuel c₁ infos₁ := by
    have htday := Z.dayOf_midnight htime
    refine ⟨⟨0, Nat.zero_le _, by simp [hstart]⟩, fun hle => ?_, ?_, ?_, ?_, ?_⟩
    · -- the midnight of a day up to that of the end time
      rw [htday, Z.le_dayOf_iff, ← htime] at hle
      rw [UInt32.le_iff_toNat_le]
      omega
    · rw [htday, hend]
      omega
    · rw [hend]
      exact hs.last
    · rwa [Full, hnum]
    · have := hs.fuel
      rw [htday, hend]
      omega
  obtain ⟨c', infos', hrun, hhands⟩ := ih _ mallocs infos₁ hnext
  refine ⟨c', infos', hrun, hhands.after ?_ hinfos hend hnum⟩
  rw [pending_next hstore hstart hend htime, pending_of_cursor hj haddr]

/-- **The outer loop**, from the day of the start time on. -/
lemma searchDays_spec {fuel : ℕ} : ∀ (c : SearchCondition) (mallocs : ℕ) (infos : List LogInfo),
    S.Started Z d fuel c infos →
    ∃ c' infos', S.searchDays Z d (fun _ => true) fuel c mallocs infos = some (c', infos') ∧
      S.Hands Z d c infos c' infos' := by
  induction fuel with
  | zero =>
      intro c mallocs infos hs
      have h1 := hs.day_le
      have h2 := hs.fuel
      omega
  | succ fuel ih =>
      intro c mallocs infos hs
      by_cases hpast : c.Past Z
      · rw [searchDays_past hpast]
        rw [past_iff] at hpast
        exact ⟨c, infos, rfl, [], [], pending_past hstore hpast, by simp, Or.inl ⟨rfl, hs.limit⟩⟩
      · have hday := not_lt.1 (fun h => hpast (past_iff.2 h))
        obtain ⟨j, hj, haddr⟩ := hs.cursor
        rcases hstore.file S.size_pos (Z.dayOf c.startTime.toNat) with ⟨hopen, hnone⟩ | ⟨hopen, hlen, hall⟩
        · rw [searchDays_absent hpast hopen]
          exact nextDay_spec hstore ih hs hday hj haddr (by simp [hnone]) hs.limit
        · have hsize : ∀ b ∈ dayRecords d S.indexPath S.size (Z.dayOf c.startTime.toNat), b.length = S.size :=
            fun b hb => (hall b hb).1
          have hoff : c.startAddr.toNat ≤ OFF_MAX := by
            rw [haddr]
            exact (Nat.mul_le_mul_right _ hj).trans hlen
          rw [searchDays_file hpast hopen]
          dsimp only
          rw [if_pos hoff, haddr, drop_flatten_blocks hsize,
            records_flatten S.size_pos fun b hb => hsize b (List.mem_of_mem_drop hb)]
          obtain ⟨pre, post, hsplit, hinfos, hover, hcase⟩ :=
            searchFile_spec ((dayRecords d S.indexPath S.size (Z.dayOf c.startTime.toNat)).drop j)
              ⟨0, mallocs, infos, false⟩ rfl hs.limit
          rcases hcase with ⟨hflag, rfl, hfull⟩ | ⟨hflag, hnumpos, hnum⟩
          · -- the file was read to its end
            rw [hflag, if_neg Bool.false_ne_true]
            refine nextDay_spec hstore ih hs hday hj haddr ?_ hfull
            rw [hinfos, hsplit, List.append_nil]
          · rw [hflag, if_pos rfl]
            refine ⟨_, _, rfl, hands_full (hs.times hday) hj haddr hlen hsplit hinfos ?_ hnumpos hnum⟩
            rw [hover, Nat.zero_add]

/-- **One call** with which nothing is wrong hands out the first records that are pending. -/
lemma search_spec (fuel : ℕ) {c : SearchCondition} (hready : S.Ready Z d c)
    (hlast : (Z.dayOf c.endTime.toNat + 1) * DAY < 2 ^ 32 + Z.east)
    (hfuel : Z.dayOf c.endTime.toNat + 2 ≤ fuel) :
    ∃ c' infos, S.search Z d (fun _ => true) fuel c = some (0, c', infos) ∧ S.Hands Z d c [] c' infos := by
  have hday := Z.dayOf_mono (UInt32.le_iff_toNat_le.1 hready.times)
  have hlimit : ¬ Full c [] := fun h => by
    have := h.1.trans_le h.2
    simp at this
  have hstarted : S.Started Z d fuel c [] :=
    ⟨hready.cursor, fun _ => hready.times, by omega, hlast, hlimit, by omega⟩
  obtain ⟨c', infos, hrun, hhands⟩ := searchDays_spec hstore c 0 [] hstarted
  refine ⟨c', infos, ?_, hhands⟩
  rw [search, if_neg (UInt32.not_lt.2 hready.times), hrun, Option.map_some]

end

lemma Hands.all {c c' : SearchCondition} {infos : List LogInfo} (h : S.Hands Z d c [] c' infos)
    (hnum : c.searchNum = 0) : infos.map LogInfo.logIndex = S.pending Z d c := by
  obtain ⟨taken, rest, hp, hi, ⟨rfl, -⟩ | ⟨hpos, -⟩⟩ := h
  · rw [hp, hi, List.append_nil]
    rfl
  · omega

/-- With a limit it is a page of that size. -/
lemma Hands.page {n : ℕ} (hn : 0 < n) {c c' : SearchCondition} {infos : List LogInfo}
    (h : S.Hands Z d c [] c' infos) (hnum : c.searchNum = n) :
    infos.map LogInfo.logIndex = (S.pending Z d c).take n ∧
      (n ≤ (S.pending Z d c).length → (S.Ready Z d c' ∧ c'.endTime = c.endTime ∧ c'.searchNum = n) ∧
        S.pending Z d c' = (S.pending Z d c).drop n) := by
  obtain ⟨taken, rest, hp, hi, hcase⟩ := h
  rw [List.map_nil, List.nil_append] at hi
  have hlen : infos.length = taken.length := by rw [← hi, List.length_map]
  rcases hcase with ⟨rfl, hfull⟩ | ⟨-, hcount, hready, hend, hnum', hrest⟩
  · have hshort : taken.length < n := by
      rw [Full, hnum, hlen] at hfull
      by_contra hle
      exact hfull ⟨by exact_mod_cast hn, by exact_mod_cast not_lt.1 hle⟩
    rw [List.append_nil] at hp
    refine ⟨by rw [hi, hp, List.take_of_length_le hshort.le], fun hle => ?_⟩
    rw [hp] at hle
    omega
  · have htaken : taken.length = n := by
      rw [hnum, hlen] at hcount
      exact_mod_cast hcount.symm
    refine ⟨by rw [hi, hp, List.take_left' htaken], fun _ => ⟨⟨hready, hend, hnum'.trans hnum⟩, ?_⟩⟩
    rw [hrest, hp, List.drop_left' htaken]

/-- At the start of a search, the records of the store that match are pending. -/
lemma pending_start (hstore : DatedStore S.timeOffset Z d S.indexPath S.size) {c : SearchCondition} (haddr : c.startAddr = 0) :
    S.pending Z d c = (allRecords Z d S.indexPath S.size).filter (S.matching c) := by
  have hskip : ∀ k ≤ Z.dayOf c.startTime.toNat,
      (allRecords Z d S.indexPath S.size).filter (S.matching c) =
        (recordsFrom Z d S.indexPath S.size k).filter (S.matching c) := by
    intro k hk
    induction k with
    | zero => rfl
    | succ k ih =>
        have hcount : k < dayCount Z := lt_trans hk (dayOf_lt_dayCount _)
        have hnone : (dayRecords d S.indexPath S.size k).filter (S.matching c) = [] := by
          rw [List.filter_eq_nil_iff]
          intro b hb hmatch
          have hday := hstore.dayOf_eq S.size_pos hcount hb
          simp only [matching, inTime, Bool.and_eq_true, decide_eq_true_eq] at hmatch
          have := Z.dayOf_mono hmatch.1.1
          omega
        rw [ih (by omega), recordsFrom_eq hcount, List.filter_append, hnone, List.nil_append]
  rw [hskip _ le_rfl, pending, haddr, UInt32.toNat_zero, Nat.zero_div, List.drop_zero]

end DaySearch

/-- **What a search without a limit gives** from the beginning of a day: it ends unless the end time is on
the last day of the 32-bit times, with the records of the store that match. -/
lemma DaySearch.search_all_iff {S : DaySearch} {Z : FixedZone} {d : Disk}
    (hstore : DatedStore S.timeOffset Z d S.indexPath S.size) {c : SearchCondition}
    (htimes : c.startTime ≤ c.endTime) (haddr : c.startAddr = 0) (hnum : c.searchNum = 0)
    {w : List (List UInt8)} :
    (∃ enough, ∀ fuel ≥ enough, ∃ c' infos, S.search Z d (fun _ => true) fuel c = some (0, c', infos) ∧
        infos.map LogInfo.logIndex = w) ↔
      (Z.dayOf c.endTime.toNat + 1) * DAY < 2 ^ 32 + Z.east ∧
        (allRecords Z d S.indexPath S.size).filter (S.matching c) = w := by
  have hready : S.Ready Z d c := ⟨⟨0, Nat.zero_le _, by simp [haddr]⟩, htimes⟩
  constructor
  · rintro ⟨enough, h⟩
    have hlast : (Z.dayOf c.endTime.toNat + 1) * DAY < 2 ^ 32 + Z.east := by
      rw [← Z.advances_iff htimes, ← SearchCondition.exists_days_ne_none_iff Z.skipsNoDay]
      refine ⟨enough, fun hnone => ?_⟩
      obtain ⟨c', infos, hrun, -⟩ := h enough le_rfl
      rw [search_eq_none htimes haddr hnum hnone] at hrun
      exact absurd hrun.symm (Option.some_ne_none _)
    obtain ⟨c', infos, hrun, hw⟩ := h (enough + (Z.dayOf c.endTime.toNat + 2)) (by omega)
    obtain ⟨c₁, infos₁, hrun₁, hhands⟩ := search_spec hstore (enough + (Z.dayOf c.endTime.toNat + 2)) hready
      hlast (by omega)
    rw [hrun, Option.some.injEq, Prod.mk.injEq, Prod.mk.injEq] at hrun₁
    refine ⟨hlast, ?_⟩
    rw [← pending_start hstore haddr, ← hhands.all hnum, ← hrun₁.2.2, hw]
  · rintro ⟨hlast, hw⟩
    refine ⟨Z.dayOf c.endTime.toNat + 2, fun fuel hfuel => ?_⟩
    obtain ⟨c', infos, hrun, hhands⟩ := search_spec hstore fuel hready hlast hfuel
    exact ⟨c', infos, hrun, by rw [hhands.all hnum, pending_start hstore haddr, hw]⟩

/-! ### Searching in pages -/

/-- What a caller takes from a search that returns 0: the index structures in the list, and the
condition for the next call. -/
def pageOf {σ : Type} (r : Option (ℤ × σ × List LogInfo)) : Option (List (List UInt8) × σ) :=
  r.bind fun r => if r.1 = 0 then some (r.2.2.map LogInfo.logIndex, r.2.1) else none

/-- **Both ways to search** give the records of the store that match, in the order of the days and of the
files. -/
lemma DaySearch.search_complete {S : DaySearch} {Z : FixedZone} {d : Disk} {n : ℕ} (hn : 0 < n)
    (hstore : DatedStore S.timeOffset Z d S.indexPath S.size) {c : SearchCondition} (htimes : c.startTime ≤ c.endTime)
    (haddr : c.startAddr = 0) (hlast : (Z.dayOf c.endTime.toNat + 1) * DAY < 2 ^ 32 + Z.east) :
    ∃ enough, ∀ fuel ≥ enough,
      (∃ c' infos, S.search Z d (fun _ => true) fuel { c with searchNum := 0 } = some (0, c', infos) ∧
        infos.map LogInfo.logIndex = (allRecords Z d S.indexPath S.size).filter (S.matching c)) ∧
      Paging.readAll (fun c => pageOf (S.search Z d (fun _ => true) fuel c)) n fuel
          { c with searchNum := n } =
        some ((allRecords Z d S.indexPath S.size).filter (S.matching c)) := by
  have hready : ∀ m : ℤ, S.Ready Z d { c with searchNum := m } := fun m =>
    ⟨⟨0, Nat.zero_le _, by simp [haddr]⟩, htimes⟩
  have hpending : ∀ m : ℤ, S.pending Z d { c with searchNum := m } =
      (allRecords Z d S.indexPath S.size).filter (S.matching c) := fun m => pending_start hstore haddr
  refine ⟨Z.dayOf c.endTime.toNat + 2 +
    ((allRecords Z d S.indexPath S.size).filter (S.matching c)).length, fun fuel hfuel => ⟨?_, ?_⟩⟩
  · obtain ⟨c', infos, hrun, hhands⟩ := search_spec hstore fuel (hready 0) hlast (by dsimp only; omega)
    exact ⟨c', infos, hrun, (hhands.all rfl).trans (hpending 0)⟩
  · rw [← hpending n]
    -- the calls share the end time and the page size
    refine Paging.readAll_eq (I := fun x => S.Ready Z d x ∧ x.endTime = c.endTime ∧ x.searchNum = n) hn
      (fun x hx => ?_) ⟨hready n, rfl, rfl⟩ ?_
    · obtain ⟨hxready, hend, hnum⟩ := hx
      obtain ⟨x', infos, hrun, hhands⟩ := search_spec hstore fuel hxready (by rwa [hend])
        (by rw [hend]; omega)
      obtain ⟨hpage, hnext⟩ := hhands.page hn hnum
      refine ⟨_, x', ?_, hpage, fun hle => ?_⟩
      · rw [hrun]
        rfl
      · obtain ⟨⟨hready', hend', hnum'⟩, hrest⟩ := hnext hle
        exact ⟨⟨hready', hend'.trans hend, hnum'⟩, hrest⟩
    · rw [hpending n]
      omega

end DeviceTools
