/-
Searches over the index files of days.

logLib and recordLib search their stores in the same way.  A search goes over the index files of the
days from that of the start time to that of the end time, and collects the index structures that match
the condition, up to a limit.  A second family of functions only counts the structures that match.

Both loops step from day to day, whatever they find in the files, and `SearchCondition.days` is that walk
alone.  A search without a limit is the walk with the matching structures of each day
(`searchDays_unlimited`), and so is a count (`countDays_eq`); in any zone, one ends if and only if the
walk does.
-/
import DeviceTools.Store.DayFiles
import DeviceTools.Store.DayWalk

namespace DeviceTools

open ByteWord

/-! ### The code -/

/-- `syslog_info_t` and `manlog_info_t`; in `record_info_t` the members are `recordNo` and
`fileIndex`. -/
structure LogInfo where
  logNo : ℕ
  logIndex : List UInt8

/-- A member of an index structure in memory that holds a time. -/
def timeAt (offset : ℕ) (b : List UInt8) : ℕ := leNat (field b offset 4)

/-- What the searches differ in: the directory, the size of the index structure, the place of the time in
it, and the tests made on a structure whose time matches. -/
structure DaySearch where
  indexPath : Path
  size : ℕ
  timeOffset : ℕ
  wanted : List UInt8 → Bool
  size_pos : 0 < size

/-- The inner loop behind one file: the bytes read, the calls of `malloc` made, the entries collected, and
`searchOverFlag`. -/
structure FileResult where
  searchOverAddr : ℕ
  mallocs : ℕ
  infos : List LogInfo
  searchOverFlag : Bool

namespace DaySearch

variable (S : DaySearch) (Z : TimeZone) (d : Disk) (malloc : ℕ → Bool)

/-- The time of the structure is in the interval of the condition. -/
def inTime (c : SearchCondition) (b : List UInt8) : Bool :=
  decide (c.startTime.toNat ≤ timeAt S.timeOffset b ∧ timeAt S.timeOffset b ≤ c.endTime.toNat)

/-- The structure is collected under the condition. -/
def matching (c : SearchCondition) (b : List UInt8) : Bool := S.inTime c b && S.wanted b

/-- The inner loop, over the structures that `read` gives.  An entry for which there is no memory is
skipped. -/
def searchFile (c : SearchCondition) : List (List UInt8) → FileResult → FileResult
  | [], r => r
  | b :: bs, r =>
      let r := { r with searchOverAddr := r.searchOverAddr + S.size }
      if S.matching c b then
        if malloc r.mallocs then
          let infos := r.infos ++ [⟨r.infos.length + 1, b⟩]
          let r := { r with mallocs := r.mallocs + 1, infos }
          if 0 < c.searchNum ∧ c.searchNum ≤ infos.length then { r with searchOverFlag := true }
          else searchFile c bs r
        else searchFile c bs { r with mallocs := r.mallocs + 1 }
      else searchFile c bs r

/-- The outer loop, over the days.  The result is `none` if `fuel` iterations do not suffice. -/
def searchDays : ℕ → SearchCondition → ℕ → List LogInfo → Option (SearchCondition × List LogInfo)
  | 0, _, _, _ => none
  | fuel + 1, c, mallocs, infos =>
      let tmpEndTime := (Z.localtime c.endTime.toNat).stamp
      let tmpTime := (Z.localtime c.startTime.toNat).stamp
      if tmpEndTime < tmpTime then some (c, infos)
      else
        let nextDay := fun mallocs infos => (timeToNextDay Z c.startTime).bind fun t =>
          searchDays fuel { c with startTime := t, startAddr := 0 } mallocs infos
        match d.openRead (S.indexPath ++ '/' :: Decimal.pad 8 tmpTime ++ dotIndex) with
        | none => nextDay mallocs infos
        | some bs =>
            -- `lseek` takes a 32-bit signed offset
            let pos := if c.startAddr.toNat ≤ OFF_MAX then c.startAddr.toNat else 0
            let r := S.searchFile malloc c (records S.size (bs.drop pos)) ⟨0, mallocs, infos, false⟩
            if r.searchOverFlag then
              some ({ c with startAddr := c.startAddr + UInt32.ofNat r.searchOverAddr }, r.infos)
            else nextDay r.mallocs r.infos

/-- A search: the return value, the condition behind it, and the entries of the list. -/
def search (fuel : ℕ) (c : SearchCondition) : Option (ℤ × SearchCondition × List LogInfo) :=
  if c.endTime < c.startTime then some (-3, c, [])
  else (S.searchDays Z d malloc fuel c 0 []).map fun r => (0, r.1, r.2)

/-- The inner loop of the functions that count. -/
def countFile (c : SearchCondition) : List (List UInt8) → ℕ → ℕ
  | [], num => num
  | b :: bs, num => countFile c bs (if S.matching c b then num + 1 else num)

/-- The outer loop of the functions that count.  They read each file from its beginning. -/
def countDays : ℕ → SearchCondition → ℕ → Option (SearchCondition × ℕ)
  | 0, _, _ => none
  | fuel + 1, c, num =>
      let tmpEndTime := (Z.localtime c.endTime.toNat).stamp
      let tmpTime := (Z.localtime c.startTime.toNat).stamp
      if tmpEndTime < tmpTime then some (c, num)
      else
        let nextDay := fun num => (timeToNextDay Z c.startTime).bind fun t =>
          countDays fuel { c with startTime := t, startAddr := 0 } num
        match d.openRead (S.indexPath ++ '/' :: Decimal.pad 8 tmpTime ++ dotIndex) with
        | none => nextDay num
        | some bs => nextDay (S.countFile c (records S.size bs) num)

/-- A count: the return value and the condition behind it.  The number is an `int` in the sources and is
taken to stay below `2 ^ 31`. -/
def count (fuel : ℕ) (c : SearchCondition) : Option (ℤ × SearchCondition) :=
  if c.endTime < c.startTime then some (-2, c)
  else (S.countDays Z d fuel c 0).map fun r => (r.2, r.1)

end DaySearch

/-! ### One day -/

namespace DaySearch

variable (S : DaySearch) (Z : TimeZone) (d : Disk) (malloc : ℕ → Bool)

/-- The structures that a search reads in the file of the day of the start time. -/
def dayFile (c : SearchCondition) : List (List UInt8) :=
  records S.size ((d.openRead (dayPath S.indexPath (Z.localtime c.startTime.toNat) dotIndex)).getD [])

/-- Those that match. -/
def found (c : SearchCondition) : List (List UInt8) := (S.dayFile Z d c).filter (S.matching c)

variable {S Z d malloc}

lemma found_searchNum (c : SearchCondition) (n : ℤ) :
    S.found Z d { c with searchNum := n } = S.found Z d c := rfl

lemma matching_iff {c : SearchCondition} {b : List UInt8} : S.matching c b = true ↔
    (c.startTime.toNat ≤ timeAt S.timeOffset b ∧ timeAt S.timeOffset b ≤ c.endTime.toNat) ∧
      S.wanted b = true := by
  rw [matching, inTime, Bool.and_eq_true, decide_eq_true_iff]

lemma stampPath_eq (dir : Path) (tm : Tm) :
    dir ++ '/' :: Decimal.pad 8 tm.stamp ++ dotIndex = dayPath dir tm dotIndex := by
  rw [Tm.pad_stamp]
  rfl

section
variable {fuel mallocs num : ℕ} {c : SearchCondition} {infos : List LogInfo}

lemma searchDays_past (h : c.Past Z) :
    S.searchDays Z d malloc (fuel + 1) c mallocs infos = some (c, infos) := by
  rw [searchDays]
  exact if_pos h

lemma searchDays_absent (h : ¬ c.Past Z)
    (hopen : d.openRead (dayPath S.indexPath (Z.localtime c.startTime.toNat) dotIndex) = none) :
    S.searchDays Z d malloc (fuel + 1) c mallocs infos =
      S.searchDays Z d malloc fuel (c.nextDay Z) mallocs infos := by
  rw [searchDays]
  refine (if_neg h).trans ?_
  rw [stampPath_eq, hopen, timeToNextDay_eq]
  rfl

lemma searchDays_file {bs : List UInt8} (h : ¬ c.Past Z)
    (hopen : d.openRead (dayPath S.indexPath (Z.localtime c.startTime.toNat) dotIndex) = some bs) :
    S.searchDays Z d malloc (fuel + 1) c mallocs infos =
      let r := S.searchFile malloc c
        (records S.size (bs.drop (if c.startAddr.toNat ≤ OFF_MAX then c.startAddr.toNat else 0)))
        ⟨0, mallocs, infos, false⟩
      if r.searchOverFlag then
        some ({ c with startAddr := c.startAddr + UInt32.ofNat r.searchOverAddr }, r.infos)
      else S.searchDays Z d malloc fuel (c.nextDay Z) r.mallocs r.infos := by
  rw [searchDays]
  refine (if_neg h).trans ?_
  rw [stampPath_eq, hopen, timeToNextDay_eq]
  rfl

lemma countFile_eq (bs : List (List UInt8)) :
    S.countFile c bs num = num + (bs.filter (S.matching c)).length := by
  induction bs generalizing num with
  | nil => rfl
  | cons b bs ih =>
      rw [countFile, ih, List.filter_cons]
      split
      · rw [List.length_cons]
        omega
      · rfl

lemma countDays_past (h : c.Past Z) : S.countDays Z d (fuel + 1) c num = some (c, num) := by
  rw [countDays]
  exact if_pos h

/-- A day without a file counts as one with an empty file. -/
lemma countDays_next (h : ¬ c.Past Z) : S.countDays Z d (fuel + 1) c num =
    S.countDays Z d fuel (c.nextDay Z) (num + (S.found Z d c).length) := by
  rw [countDays]
  refine (if_neg h).trans ?_
  rw [stampPath_eq, timeToNextDay_eq, found, dayFile]
  cases hopen : d.openRead (dayPath S.indexPath (Z.localtime c.startTime.toNat) dotIndex) with
  | none => simp [records, SearchCondition.nextDay]
  | some bs =>
      dsimp only
      rw [countFile_eq]
      rfl

end

/-! ### All days -/

/-- **A count** is the number of the structures found on the days of the walk. -/
lemma countDays_eq (fuel : ℕ) (c : SearchCondition) (num : ℕ) :
    S.countDays Z d fuel c num =
      (c.days Z fuel).map fun r => (r.2, num + (r.1.flatMap (S.found Z d)).length) := by
  induction fuel generalizing c num with
  | zero => rfl
  | succ fuel ih =>
      by_cases hpast : c.Past Z
      · rw [countDays_past hpast, SearchCondition.days_past hpast]
        rfl
      · rw [countDays_next hpast, SearchCondition.days_next hpast, ih, Option.map_map]
        refine congrArg (fun f => Option.map f _) (funext fun r => ?_)
        simp [Nat.add_assoc]

/-- Without a limit the inner loop collects the structures of the file that match. -/
lemma searchFile_unlimited {c : SearchCondition} (hnum : c.searchNum ≤ 0) :
    ∀ (blocks : List (List UInt8)) (r : FileResult), r.searchOverFlag = false →
      (S.searchFile (fun _ => true) c blocks r).searchOverFlag = false ∧
      (S.searchFile (fun _ => true) c blocks r).infos.map LogInfo.logIndex =
        r.infos.map LogInfo.logIndex ++ blocks.filter (S.matching c) := by
  intro blocks
  induction blocks with
  | nil =>
      intro r hflag
      exact ⟨hflag, by simp [searchFile]⟩
  | cons b blocks ih =>
      intro r hflag
      rw [searchFile]
      dsimp only
      by_cases hmatch : S.matching c b = true
      · rw [if_pos hmatch, if_pos rfl, if_neg (by omega), List.filter_cons_of_pos hmatch]
        obtain ⟨hover, hinfos⟩ := ih ⟨r.searchOverAddr + S.size, r.mallocs + 1,
          r.infos ++ [⟨r.infos.length + 1, b⟩], r.searchOverFlag⟩ hflag
        refine ⟨hover, hinfos.trans ?_⟩
        simp
      · rw [if_neg hmatch, List.filter_cons_of_neg hmatch]
        exact ih { r with searchOverAddr := r.searchOverAddr + S.size } hflag

/-- **A search without a limit**, from the beginning of the file of a day, collects the structures found
on the days of the walk. -/
lemma searchDays_unlimited (fuel : ℕ) {c : SearchCondition} (mallocs : ℕ) (infos : List LogInfo)
    (haddr : c.startAddr = 0) (hnum : c.searchNum ≤ 0) :
    (S.searchDays Z d (fun _ => true) fuel c mallocs infos).map
        (fun r => (r.1, r.2.map LogInfo.logIndex)) =
      (c.days Z fuel).map fun r =>
        (r.2, infos.map LogInfo.logIndex ++ r.1.flatMap (S.found Z d)) := by
  induction fuel generalizing c mallocs infos with
  | zero => rfl
  | succ fuel ih =>
      by_cases hpast : c.Past Z
      · rw [searchDays_past hpast, SearchCondition.days_past hpast]
        simp
      · rw [SearchCondition.days_next hpast, Option.map_map]
        cases hopen : d.openRead (dayPath S.indexPath (Z.localtime c.startTime.toNat) dotIndex) with
        | none =>
            have hnone : S.found Z d c = [] := by simp [found, dayFile, hopen, records]
            rw [searchDays_absent hpast hopen, ih _ _ c.nextDay_startAddr (by rwa [c.nextDay_searchNum])]
            refine congrArg (fun f => Option.map f _) (funext fun r => ?_)
            simp [hnone]
        | some bs =>
            have hfound : S.found Z d c = (records S.size bs).filter (S.matching c) := by
              simp [found, dayFile, hopen]
            obtain ⟨hover, hinfos⟩ := searchFile_unlimited (S := S) hnum (records S.size bs)
              ⟨0, mallocs, infos, false⟩ rfl
            rw [searchDays_file hpast hopen]
            simp only [haddr, UInt32.toNat_zero, Nat.zero_le, if_true, List.drop_zero, hover,
              Bool.false_eq_true, if_false]
            rw [ih _ _ c.nextDay_startAddr (by rwa [c.nextDay_searchNum]), hinfos]
            refine congrArg (fun f => Option.map f _) (funext fun r => ?_)
            simp [hfound]

/-- Every search ends when the walk over the days does, whatever the limit is and whether there is
memory or not. -/
lemma searchDays_ne_none {fuel : ℕ} {c : SearchCondition} (h : c.days Z fuel ≠ none) (mallocs : ℕ)
    (infos : List LogInfo) : S.searchDays Z d malloc fuel c mallocs infos ≠ none := by
  induction fuel generalizing c mallocs infos with
  | zero => exact absurd rfl h
  | succ fuel ih =>
      by_cases hpast : c.Past Z
      · rw [searchDays_past hpast]
        exact Option.some_ne_none _
      · rw [SearchCondition.days_next hpast, Ne, Option.map_eq_none_iff] at h
        cases hopen : d.openRead (dayPath S.indexPath (Z.localtime c.startTime.toNat) dotIndex) with
        | none =>
            rw [searchDays_absent hpast hopen]
            exact ih h _ _
        | some bs =>
            rw [searchDays_file hpast hopen]
            generalize S.searchFile malloc c _ _ = r
            cases hover : r.searchOverFlag with
            | true => simp [hover]
            | false => simpa [hover] using ih h _ _

/-! ### The functions -/

lemma count_eq (fuel : ℕ) {c : SearchCondition} (htimes : c.startTime ≤ c.endTime) :
    S.count Z d fuel c =
      (c.days Z fuel).map fun r => (((r.1.flatMap (S.found Z d)).length : ℤ), r.2) := by
  rw [count, if_neg (UInt32.not_lt.2 htimes), countDays_eq, Option.map_map]
  simp [Function.comp_def]

lemma search_unlimited (fuel : ℕ) {c : SearchCondition} (htimes : c.startTime ≤ c.endTime)
    (haddr : c.startAddr = 0) (hnum : c.searchNum = 0) :
    (S.search Z d (fun _ => true) fuel c).map (fun r => (r.1, r.2.1, r.2.2.map LogInfo.logIndex)) =
      (c.days Z fuel).map fun r => (0, r.2, r.1.flatMap (S.found Z d)) := by
  have hdays := congrArg (Option.map fun r : SearchCondition × List (List UInt8) => ((0 : ℤ), r))
    (searchDays_unlimited (S := S) (Z := Z) (d := d) fuel 0 [] haddr hnum.le)
  rw [Option.map_map, Option.map_map] at hdays
  rw [search, if_neg (UInt32.not_lt.2 htimes), Option.map_map]
  exact hdays

lemma search_ne_none {fuel : ℕ} {c : SearchCondition} (h : c.days Z fuel ≠ none) :
    S.search Z d malloc fuel c ≠ none := by
  rw [search]
  split
  · exact Option.some_ne_none _
  · rw [Ne, Option.map_eq_none_iff]
    exact searchDays_ne_none h _ _

lemma search_eq_none {fuel : ℕ} {c : SearchCondition} (htimes : c.startTime ≤ c.endTime)
    (haddr : c.startAddr = 0) (hnum : c.searchNum = 0) (h : c.days Z fuel = none) :
    S.search Z d (fun _ => true) fuel c = none := by
  have hsearch := search_unlimited (S := S) (Z := Z) (d := d) fuel htimes haddr hnum
  rw [h, Option.map_none, Option.map_eq_none_iff] at hsearch
  exact hsearch

lemma count_eq_none_iff {fuel : ℕ} {c : SearchCondition} (htimes : c.startTime ≤ c.endTime) :
    S.count Z d fuel c = none ↔ c.days Z fuel = none := by
  rw [count_eq fuel htimes, Option.map_eq_none_iff]

/-- **Counting and listing agree**, in any zone and for any number of iterations: the count is the length
of the list of a search without a limit, and both leave the same condition. -/
lemma count_search (fuel : ℕ) {c : SearchCondition} (htimes : c.startTime ≤ c.endTime)
    (haddr : c.startAddr = 0) :
    S.count Z d fuel c = (S.search Z d (fun _ => true) fuel { c with searchNum := 0 }).map
      fun r => ((r.2.2.length : ℤ), { r.2.1 with searchNum := c.searchNum }) := by
  have hlen := congrArg (Option.map fun r : ℤ × SearchCondition × List (List UInt8) =>
    ((r.2.2.length : ℤ), ({ r.2.1 with searchNum := c.searchNum } : SearchCondition)))
      (search_unlimited (S := S) (Z := Z) (d := d) fuel (c := { c with searchNum := 0 }) htimes haddr rfl)
  simp only [Option.map_map] at hlen
  rw [count_eq fuel htimes]
  refine Eq.trans ?_ (hlen.symm.trans ?_)
  · -- both walks are that of `c`, with its limit and without one
    have hself : c.days Z fuel = (c.days Z fuel).map _ := SearchCondition.days_searchNum fuel c c.searchNum
    rw [hself, SearchCondition.days_searchNum fuel c 0, Option.map_map, Option.map_map]
    refine congrArg (fun f => Option.map f _) (funext fun r => ?_)
    simp [Function.comp_def, found_searchNum]
  · simp [Function.comp_def]

end DaySearch

end DeviceTools
