/-
The walk over the days.

The searches of logLib and recordLib start with the day of the start time and go on from day to day with
`TimeToNextDay` until they are behind the day of the end time.  The step is 24 hours from the midnight
of the day, as a 32-bit number.  It leads to a later day unless the day is longer than 24 hours, or the
next midnight is past the last 32-bit time; the walk then stays where it is, or starts again in 1970.
-/
import DeviceTools.LogLib.PublicLib

namespace DeviceTools

/-- `syslog_search_condition_t`, and the last members of `manlog_search_condition_t` and of
`search_condition_t`. -/
structure SearchCondition where
  startTime : UInt32
  endTime : UInt32
  startAddr : UInt32
  searchNum : ℤ

namespace SearchCondition

variable (Z : TimeZone)

/-- The start time is behind the day of the end time. -/
def Past (c : SearchCondition) : Prop :=
  (Z.localtime c.endTime.toNat).stamp < (Z.localtime c.startTime.toNat).stamp

instance (c : SearchCondition) : Decidable (c.Past Z) := inferInstanceAs (Decidable (_ < _))

/-- The condition for the next day. -/
def nextDay (c : SearchCondition) : SearchCondition :=
  { c with startTime := dayLater Z c.startTime, startAddr := 0 }

/-- The conditions with which the outer loops come to the days, and the one behind the last day.  The
result is `none` if `fuel` iterations do not suffice. -/
def days : ℕ → SearchCondition → Option (List SearchCondition × SearchCondition)
  | 0, _ => none
  | fuel + 1, c =>
      if c.Past Z then some ([], c) else (days fuel (c.nextDay Z)).map fun r => (c :: r.1, r.2)

variable {Z}

@[simp] lemma nextDay_startTime (c : SearchCondition) :
    (c.nextDay Z).startTime = dayLater Z c.startTime := by
  rw [nextDay]

@[simp] lemma nextDay_endTime (c : SearchCondition) : (c.nextDay Z).endTime = c.endTime := by
  rw [nextDay]

@[simp] lemma nextDay_startAddr (c : SearchCondition) : (c.nextDay Z).startAddr = 0 := by
  rw [nextDay]

@[simp] lemma nextDay_searchNum (c : SearchCondition) : (c.nextDay Z).searchNum = c.searchNum := by
  rw [nextDay]

lemma days_past {fuel : ℕ} {c : SearchCondition} (h : c.Past Z) : c.days Z (fuel + 1) = some ([], c) := by
  rw [days, if_pos h]

lemma days_next {fuel : ℕ} {c : SearchCondition} (h : ¬ c.Past Z) :
    c.days Z (fuel + 1) = ((c.nextDay Z).days Z fuel).map fun r => (c :: r.1, r.2) := by
  rw [days, if_neg h]

/-- The end time stays as it is. -/
lemma endTime_of_mem_days {fuel : ℕ} {c last x : SearchCondition} {ds : List SearchCondition}
    (h : c.days Z fuel = some (ds, last)) (hx : x ∈ ds) : x.endTime = c.endTime := by
  induction fuel generalizing c ds with
  | zero => simp [days] at h
  | succ fuel ih =>
      by_cases hpast : c.Past Z
      · rw [days_past hpast, Option.some.injEq, Prod.mk.injEq] at h
        rw [← h.1] at hx
        simp at hx
      · rw [days_next hpast, Option.map_eq_some_iff] at h
        obtain ⟨⟨rest, last'⟩, hr, heq⟩ := h
        rw [Prod.mk.injEq] at heq
        obtain ⟨rfl, rfl⟩ := heq
        rcases List.mem_cons.1 hx with rfl | hx
        · rfl
        · exact (ih hr hx).trans c.nextDay_endTime

/-- The limit plays no part in the walk. -/
lemma days_searchNum (fuel : ℕ) (c : SearchCondition) (n : ℤ) :
    ({ c with searchNum := n } : SearchCondition).days Z fuel = (c.days Z fuel).map fun r =>
      (r.1.map fun x => { x with searchNum := n }, { r.2 with searchNum := n }) := by
  induction fuel generalizing c with
  | zero => rfl
  | succ fuel ih =>
      by_cases hpast : c.Past Z
      · rw [days_past hpast, days_past (c := { c with searchNum := n }) hpast]
        rfl
      · rw [days_next hpast, days_next (c := { c with searchNum := n }) hpast,
          show SearchCondition.nextDay Z { c with searchNum := n } =
            { c.nextDay Z with searchNum := n } from rfl, ih, Option.map_map, Option.map_map]
        rfl

end SearchCondition

/-! ### Where the walk ends -/

namespace TimeZone

variable (Z : TimeZone)

/-- The date of a time, as the number that the searches compare. -/
def dateOf (t : UInt32) : ℕ := (Z.localtime t.toNat).stamp

/-- On the days from that of the start time to that of the end time, `TimeToNextDay` leads to a later
day. -/
def Advances (startTime endTime : UInt32) : Prop :=
  ∀ t t' : UInt32, Z.dateOf startTime ≤ Z.dateOf t → Z.dateOf t ≤ Z.dateOf endTime →
    timeToNextDay Z t = some t' → Z.dateOf t < Z.dateOf t'

/-- `TimeToNextDay` does not lead past a later day of the zone. -/
def SkipsNoDay : Prop :=
  ∀ t t' u : UInt32, Z.dateOf t < Z.dateOf u → timeToNextDay Z t = some t' → Z.dateOf t' ≤ Z.dateOf u

end TimeZone

namespace SearchCondition

variable {Z : TimeZone}

lemma past_iff_dateOf {c : SearchCondition} : c.Past Z ↔ Z.dateOf c.endTime < Z.dateOf c.startTime :=
  Iff.rfl

/-- A walk whose conditions keep a property that excludes the end does not end. -/
lemma days_eq_none {I : SearchCondition → Prop} (hI : ∀ c, I c → ¬ c.Past Z ∧ I (c.nextDay Z)) (fuel : ℕ)
    {c : SearchCondition} (hc : I c) : c.days Z fuel = none := by
  induction fuel generalizing c with
  | zero => rfl
  | succ fuel ih =>
      obtain ⟨hpast, hnext⟩ := hI c hc
      rw [days_next hpast, ih hnext, Option.map_none]

/-- **The walk ends** if every step leads to a later day: there are at most as many steps as numbers
between the two dates. -/
lemma days_ne_none {c : SearchCondition} (h : Z.Advances c.startTime c.endTime) {fuel : ℕ}
    (hfuel : Z.dateOf c.endTime + 2 ≤ fuel + Z.dateOf c.startTime) (hpos : 0 < fuel) :
    c.days Z fuel ≠ none := by
  induction fuel generalizing c with
  | zero => omega
  | succ fuel ih =>
      by_cases hpast : c.Past Z
      · rw [days_past hpast]
        exact Option.some_ne_none _
      · have hlater := h c.startTime _ le_rfl (not_lt.1 hpast) (timeToNextDay_eq Z _)
        have hle : Z.dateOf c.startTime ≤ Z.dateOf c.endTime := not_lt.1 hpast
        rw [days_next hpast, Ne, Option.map_eq_none_iff]
        refine ih (fun t t' ht => ?_) ?_ (by omega)
        · rw [nextDay_startTime] at ht
          rw [nextDay_endTime]
          exact h t t' (hlater.le.trans ht)
        · rw [nextDay_startTime, nextDay_endTime]
          omega

/-- A day from which `TimeToNextDay` does not lead to a later one is never left behind, where no day is
skipped. -/
lemma days_eq_none_of_stuck (hskip : Z.SkipsNoDay) {c : SearchCondition} {t : UInt32}
    (hstart : Z.dateOf c.startTime ≤ Z.dateOf t) (hend : Z.dateOf t ≤ Z.dateOf c.endTime)
    (hstuck : Z.dateOf (dayLater Z t) ≤ Z.dateOf t) (fuel : ℕ) : c.days Z fuel = none := by
  refine days_eq_none (I := fun x => Z.dateOf x.startTime ≤ Z.dateOf t ∧ x.endTime = c.endTime)
    (fun x hx => ?_) fuel ⟨hstart, rfl⟩
  obtain ⟨hle, hx⟩ := hx
  refine ⟨fun hpast => ?_, ?_, by rw [nextDay_endTime, hx]⟩
  · rw [past_iff_dateOf, hx] at hpast
    omega
  · rw [nextDay_startTime]
    rcases hle.lt_or_eq with hlt | heq
    · exact hskip _ _ _ hlt (timeToNextDay_eq Z _)
    · -- the time behind a day depends on the date alone
      have hday : dayLater Z x.startTime = dayLater Z t := by
        rw [dayLater, dayLater, Tm.stamp_inj.1 heq]
      rw [hday]
      exact hstuck

/-- **The walk from one time to another ends for some number of iterations exactly if it advances**, where
no day is skipped. -/
lemma exists_days_ne_none_iff (hskip : Z.SkipsNoDay) {c : SearchCondition} :
    (∃ fuel, c.days Z fuel ≠ none) ↔ Z.Advances c.startTime c.endTime := by
  constructor
  · rintro ⟨fuel, h⟩ t t' hstart hend ht
    rw [timeToNextDay_eq, Option.some.injEq] at ht
    by_contra hstuck
    rw [← ht, not_lt] at hstuck
    exact h (days_eq_none_of_stuck hskip hstart hend hstuck fuel)
  · intro h
    exact ⟨Z.dateOf c.endTime + 2, days_ne_none h (by omega) (by omega)⟩

end SearchCondition

/-! ### Fixed offsets -/

namespace FixedZone

variable (Z : FixedZone)

lemma dateOf_le_iff {t u : UInt32} :
    (Z : TimeZone).dateOf t ≤ (Z : TimeZone).dateOf u ↔ Z.dayOf t.toNat ≤ Z.dayOf u.toNat :=
  Z.stamp_le_iff t.toNat_lt u.toNat_lt

lemma dateOf_lt_iff {t u : UInt32} :
    (Z : TimeZone).dateOf t < (Z : TimeZone).dateOf u ↔ Z.dayOf t.toNat < Z.dayOf u.toNat := by
  rw [← not_le, dateOf_le_iff, not_le]

lemma dayOf_dayLater {t : UInt32} (h : (Z.dayOf t.toNat + 1) * DAY < 2 ^ 32 + Z.east) :
    Z.dayOf (dayLater Z t).toNat = Z.dayOf t.toNat + 1 :=
  Z.dayOf_midnight (toNat_dayLater Z h)

lemma skipsNoDay : (Z : TimeZone).SkipsNoDay := by
  intro t t' u hlt ht
  rw [timeToNextDay_eq, Option.some.injEq] at ht
  rw [dateOf_lt_iff] at hlt
  rw [← ht, dateOf_le_iff, dayOf_dayLater]
  · exact hlt
  · have hu := (Z.le_dayOf_iff (k := Z.dayOf t.toNat + 1)).1 hlt
    have := u.toNat_lt
    omega

/-- In a zone with a fixed offset the walk ends unless it comes to the last day of the 32-bit times. -/
lemma advances_iff {startTime endTime : UInt32} (h : startTime ≤ endTime) :
    (Z : TimeZone).Advances startTime endTime ↔ (Z.dayOf endTime.toNat + 1) * DAY < 2 ^ 32 + Z.east := by
  constructor
  · intro hadv
    have hlater := hadv endTime _ ((dateOf_le_iff Z).2 (Z.dayOf_mono (UInt32.le_iff_toNat_le.1 h))) le_rfl
      (timeToNextDay_eq Z _)
    rw [dateOf_lt_iff] at hlater
    have hu := (Z.le_dayOf_iff (k := Z.dayOf endTime.toNat + 1)).1 hlater
    have := (dayLater Z endTime).toNat_lt
    omega
  · rintro hlast t t' - hend ht
    rw [timeToNextDay_eq, Option.some.injEq] at ht
    rw [dateOf_le_iff] at hend
    rw [← ht, dateOf_lt_iff, dayOf_dayLater]
    · exact Nat.lt_succ_self _
    · exact lt_of_le_of_lt (Nat.mul_le_mul_right _ (by omega)) hlast

end FixedZone

end DeviceTools
