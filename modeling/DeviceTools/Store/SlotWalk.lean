/-
The slot search over a batch, by times alone.

Which slot an event is put in depends only on the times of the events before it: an event
takes the first slot that is marked free or has the event's day, and it leaves the slot
marked free if its own time is 0.  `walk` follows this over a list of times and counts the
events put in each slot.  The staging loop simulates it (`stage_tracks`,
`stageAll_tracks`), for every batch, with or without times that are 0.
-/
import DeviceTools.Store.Write
import DeviceTools.Lib.FirstFit

namespace DeviceTools

/-- A used slot, as the search sees it: the day it has, `none` if it is marked free, and
the number of events put in it. -/
abbrev Mark := Option Tm × ℕ

variable (zone : Zone)

/-- How an event of the given time leaves its slot. -/
def markOf (t : ℕ) : Option Tm := if t = 0 then none else some (zone.localtime t)

/-- An event of time `t` takes the first slot that is marked free or has its day. -/
def takeSlot (t : ℕ) : List Mark → List Mark
  | [] => [(markOf zone t, 1)]
  | w :: ws =>
      if w.1 = none ∨ w.1 = some (zone.localtime t) then (markOf zone t, w.2 + 1) :: ws
      else w :: takeSlot t ws

/-- The slots used by the events of the given times. -/
def walk (ts : List ℕ) : List Mark := ts.foldl (fun ws t => takeSlot zone t ws) []

@[simp] lemma walk_nil : walk zone [] = [] := rfl

lemma walk_concat (ts : List ℕ) (t : ℕ) : walk zone (ts ++ [t]) = takeSlot zone t (walk zone ts) := by
  simp [walk]

lemma length_takeSlot_le (t : ℕ) (ws : List Mark) :
    ws.length ≤ (takeSlot zone t ws).length ∧ (takeSlot zone t ws).length ≤ ws.length + 1 := by
  induction ws with
  | nil => simp [takeSlot]
  | cons w ws ih =>
      rw [takeSlot]
      split
      · simp
      · simp only [List.length_cons]
        omega

/-- The walk puts each event in exactly one slot. -/
lemma sum_takeSlot (t : ℕ) (ws : List Mark) :
    ((takeSlot zone t ws).map Prod.snd).sum = (ws.map Prod.snd).sum + 1 := by
  induction ws with
  | nil => simp [takeSlot]
  | cons w ws ih =>
      rw [takeSlot]
      split
      · simp only [List.map_cons, List.sum_cons]
        omega
      · simp only [List.map_cons, List.sum_cons, ih]
        omega

lemma sum_walk (ts : List ℕ) : ((walk zone ts).map Prod.snd).sum = ts.length := by
  induction ts using List.reverseRecOn with
  | nil => simp
  | append_singleton ts t ih => rw [walk_concat, sum_takeSlot, ih]; simp

lemma length_walk_le (ts : List ℕ) : (walk zone ts).length ≤ ts.length := by
  induction ts using List.reverseRecOn with
  | nil => simp
  | append_singleton ts t ih =>
      have := (length_takeSlot_le zone t (walk zone ts)).2
      rw [walk_concat, List.length_append, List.length_singleton]
      omega

/-- Every slot of the walk has an event. -/
lemma pos_of_mem_takeSlot {t : ℕ} {ws : List Mark} (h : ∀ w ∈ ws, 0 < w.2) :
    ∀ w ∈ takeSlot zone t ws, 0 < w.2 := by
  induction ws with
  | nil => simp [takeSlot]
  | cons w ws ih =>
      intro x hx
      rw [takeSlot] at hx
      split at hx
      · rcases List.mem_cons.1 hx with rfl | hx
        · simp
        · exact h x (by simp [hx])
      · rcases List.mem_cons.1 hx with rfl | hx
        · exact h x (by simp)
        · exact ih (fun y hy => h y (by simp [hy])) x hx

lemma pos_of_mem_walk (ts : List ℕ) : ∀ w ∈ walk zone ts, 0 < w.2 := by
  induction ts using List.reverseRecOn with
  | nil => simp
  | append_singleton ts t ih => rw [walk_concat]; exact pos_of_mem_takeSlot zone ih

/-- The slots of a walk are within the given number of slots and of events in a slot. -/
def Bounded (slots perSlot : ℕ) (ws : List Mark) : Prop :=
  ws.length ≤ slots ∧ ∀ w ∈ ws, w.2 ≤ perSlot

instance (slots perSlot : ℕ) (ws : List Mark) : Decidable (Bounded slots perSlot ws) :=
  inferInstanceAs (Decidable (_ ∧ _))

/-- The slots only fill up. -/
lemma Bounded.of_takeSlot {slots perSlot t : ℕ} {ws : List Mark}
    (h : Bounded slots perSlot (takeSlot zone t ws)) : Bounded slots perSlot ws := by
  refine ⟨le_trans (length_takeSlot_le zone t ws).1 h.1, ?_⟩
  obtain ⟨-, h⟩ := h
  induction ws with
  | nil => simp
  | cons w ws ih =>
      intro x hx
      rw [takeSlot] at h
      split at h
      · rcases List.mem_cons.1 hx with rfl | hx
        · have := h (markOf zone t, x.2 + 1) (by simp)
          simp only at this
          omega
        · exact h x (by simp [hx])
      · rcases List.mem_cons.1 hx with rfl | hx
        · exact h x (by simp)
        · exact ih (fun y hy => h y (by simp [hy])) x hx

lemma Bounded.of_walk_append {slots perSlot : ℕ} {ts us : List ℕ}
    (h : Bounded slots perSlot (walk zone (ts ++ us))) : Bounded slots perSlot (walk zone ts) := by
  induction us using List.reverseRecOn with
  | nil => simpa using h
  | append_singleton us u ih =>
      rw [← List.append_assoc, walk_concat] at h
      exact ih h.of_takeSlot

/-- A walk over times other than 0 has one slot for each day, in order of first events,
with the number of events of the day. -/
lemma walk_eq_groups {ε : Type} (time : ε → ℕ) {es : List ε} (hz : ∀ e ∈ es, time e ≠ 0) :
    walk zone (es.map time) =
      (FirstFit.groups (fun e => zone.localtime (time e)) es).map
        fun g => (some g.1, g.2.length) := by
  induction es using List.reverseRecOn with
  | nil => simp
  | append_singleton es e ih =>
      have hmark : markOf zone (time e) = some (zone.localtime (time e)) :=
        if_neg (hz e (by simp))
      rw [List.map_append, List.map_singleton, walk_concat, ih (fun x hx => hz x (by simp [hx])),
        FirstFit.groups_concat]
      generalize FirstFit.groups (fun e => zone.localtime (time e)) es = gs
      induction gs with
      | nil => simp [takeSlot, FirstFit.place, hmark]
      | cons g gs ihg =>
          by_cases hg : g.1 = zone.localtime (time e)
          · simp [takeSlot, FirstFit.place, hg, hmark]
          · simp [takeSlot, FirstFit.place, hg, ihg]

end DeviceTools
