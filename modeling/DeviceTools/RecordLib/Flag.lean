/-
The flag of recordLib.

`g_recordFlag` is written by three parties: `searchRecord` asks with 1 for a save of the queued
records, `deinitRecordLib` asks with 2 for the end of the save thread and waits for it, and the
save thread takes the request back with 0 when it has served it, or answers with 3 when it ends.
The thread reads the flag at the start of an iteration and writes it at the end, with a whole
save in between.  A request to end that is stored in between is overwritten, and so is one that
is followed by a search.
-/
import DeviceTools.Lib.Runs

namespace DeviceTools

/-- Where the save thread is. -/
inductive Saver where
  /-- At the start of an iteration. -/
  | top
  /-- Behind the call of `getRecordFlag`, with the value that it returned. -/
  | iterating (recordFlag : ℕ)
  /-- Behind the loop. -/
  | leaving
  | ended
deriving DecidableEq, Repr

/-- The flag, the save thread, and whether `deinitRecordLib` has stored its request. -/
structure FlagState where
  g_recordFlag : ℕ
  saver : Saver
  deinit : Bool
deriving DecidableEq, Repr

/-- The steps of the three parties. -/
inductive FlagStep where
  /-- The thread ends an iteration before it reads the flag, because there are too many
  records. -/
  | skip
  /-- `recordFlag = getRecordFlag()`. -/
  | read
  /-- The end of an iteration, reached with or without `goto error`. -/
  | finish
  /-- `setRecordFlag(3)`. -/
  | leave
  /-- `searchRecord`: `setRecordFlag(TRUE)`. -/
  | search
  /-- `deinitRecordLib`: `setRecordFlag(2)`. -/
  | deinit
deriving DecidableEq, Repr

namespace FlagState

/-- The state after `initRecordLib`. -/
def init : FlagState := ⟨0, .top, false⟩

/-- `setRecordFlag`. -/
def setRecordFlag (s : FlagState) (flag : ℕ) : FlagState := { s with g_recordFlag := flag }

/-- One step, `none` when it is not possible in the state. -/
def step (s : FlagState) : FlagStep → Option FlagState
  | .skip => if s.saver = .top then some s else none
  | .read => if s.saver = .top then some { s with saver := .iterating s.g_recordFlag } else none
  | .finish =>
      match s.saver with
      | .iterating recordFlag =>
          if recordFlag = 2 then some { s with saver := .leaving }
          else if recordFlag = 1 then some { s.setRecordFlag 0 with saver := .top }
          else some { s with saver := .top }
      | _ => none
  | .leave => if s.saver = .leaving then some { s.setRecordFlag 3 with saver := .ended } else none
  | .search => some (s.setRecordFlag 1)
  | .deinit => if s.deinit = false then some { s.setRecordFlag 2 with deinit := true } else none

/-- The request to end is stored when the thread is not in an iteration in which it serves a
search, and no search begins behind it. -/
def Quiet (s : FlagState) : FlagStep → Prop
  | .search => s.deinit = false
  | .deinit => s.saver ≠ .iterating 1
  | _ => True

instance (s : FlagState) (act : FlagStep) : Decidable (Quiet s act) :=
  match act with
  | .search => inferInstanceAs (Decidable (_ = _))
  | .deinit => inferInstanceAs (Decidable (_ ≠ _))
  | .skip | .read | .finish | .leave => inferInstanceAs (Decidable True)

/-- Behind the request to end, the flag has the request, or the answer of the thread. -/
def Requested (s : FlagState) : Prop :=
  s.deinit = true → s.saver ≠ .iterating 1 ∧
    (s.g_recordFlag = 2 ∨ s.g_recordFlag = 3 ∧ s.saver = .ended)

/-- A quiet step keeps the request. -/
lemma Requested.step {s s' : FlagState} {act : FlagStep} (h : s.Requested) (hquiet : s.Quiet act)
    (hs : s.step act = some s') : s'.Requested := by
  cases act with
  | skip =>
      simp only [FlagState.step, Option.ite_none_right_eq_some, Option.some.injEq] at hs
      rwa [← hs.2]
  | read =>
      simp only [FlagState.step, Option.ite_none_right_eq_some, Option.some.injEq] at hs
      obtain ⟨htop, rfl⟩ := hs
      intro hd
      rcases (h hd).2 with h2 | ⟨-, hended⟩
      · exact ⟨by simp [h2], Or.inl h2⟩
      · rw [htop] at hended
        simp at hended
  | finish =>
      simp only [FlagState.step] at hs
      split at hs
      · next recordFlag hsaver =>
          -- behind the request the iteration has not read 1, so it does not write 0
          split at hs
          · rw [Option.some.injEq] at hs
            subst hs
            intro hd
            rcases (h hd).2 with h2 | ⟨-, hended⟩
            · exact ⟨by simp, Or.inl h2⟩
            · rw [hsaver] at hended
              simp at hended
          · split at hs
            · next h1 =>
                rw [Option.some.injEq] at hs
                subst hs
                intro hd
                exact absurd (by rw [hsaver, h1]) (h hd).1
            · rw [Option.some.injEq] at hs
              subst hs
              intro hd
              rcases (h hd).2 with h2 | ⟨-, hended⟩
              · exact ⟨by simp, Or.inl h2⟩
              · rw [hsaver] at hended
                simp at hended
      · simp at hs
  | leave =>
      simp only [FlagState.step, Option.ite_none_right_eq_some, Option.some.injEq] at hs
      obtain ⟨-, rfl⟩ := hs
      exact fun _ => ⟨by simp, Or.inr ⟨rfl, rfl⟩⟩
  | search =>
      simp only [FlagState.step, Option.some.injEq] at hs
      subst hs
      intro hd
      have hno : s.deinit = false := hquiet
      exact absurd hd (by simp [setRecordFlag, hno])
  | deinit =>
      simp only [FlagState.step, Option.ite_none_right_eq_some, Option.some.injEq] at hs
      obtain ⟨-, rfl⟩ := hs
      exact fun _ => ⟨hquiet, Or.inl rfl⟩

/-- **The request to end is not lost.**  In every run in which the request is stored when the
thread is not in an iteration that serves a search, and in which no search begins behind it: in
every state behind the request the flag is neither 0 nor 1, and when the thread reads it next it
sees the request.  And from every state without these conditions the request is lost: a search
overwrites it, and so does the end of the iteration. -/
theorem shutdown_request_kept (acts : List FlagStep) (halong : Runs.Along step Quiet init acts) :
    (∀ s : FlagState, Runs.run step init acts = some s → s.deinit = true →
      s.g_recordFlag ≠ 0 ∧ s.g_recordFlag ≠ 1 ∧
        ∀ s', s.step .read = some s' → s'.saver = .iterating 2) ∧
    (∀ s : FlagState, s.deinit = true → ∃ s', s.step .search = some s' ∧ s'.g_recordFlag = 1) ∧
    (∀ s : FlagState, s.deinit = false → s.saver = .iterating 1 →
      ∃ s', Runs.run step s [.deinit, .finish] = some s' ∧ s'.deinit = true ∧ s'.g_recordFlag = 0) := by
  refine ⟨fun s hr hd => ?_, fun s hd => ⟨_, rfl, rfl⟩, fun s hd hsaver => ?_⟩
  · have hinit : init.Requested := fun hc => by simp [init] at hc
    have hinv := Runs.invariant_along (fun _ _ _ hI hP hs => Requested.step hI hP hs) hinit halong hr
    rcases (hinv hd).2 with h2 | ⟨h3, hended⟩
    · refine ⟨by omega, by omega, fun s' hs' => ?_⟩
      simp only [step, Option.ite_none_right_eq_some, Option.some.injEq] at hs'
      rw [← hs'.2, h2]
    · refine ⟨by omega, by omega, fun s' hs' => ?_⟩
      simp [step, hended] at hs'
  · refine ⟨⟨0, .top, true⟩, ?_, rfl, rfl⟩
    simp [Runs.run, step, hd, hsaver, setRecordFlag]

/-- A search is served, and then the thread is asked to end and ends. -/
theorem shutdown_request_kept_one :
    Runs.Along step Quiet init [.search, .read, .finish, .deinit, .read, .finish, .leave] ∧
    ∃ s, Runs.run step init [.search, .read, .finish, .deinit] = some s ∧
      s.g_recordFlag ≠ 0 ∧ s.g_recordFlag ≠ 1 := by
  refine ⟨by decide, ⟨2, .top, true⟩, rfl, ?_⟩
  have h := (shutdown_request_kept [.search, .read, .finish, .deinit] (by decide)).1 ⟨2, .top, true⟩
    rfl rfl
  exact ⟨h.1, h.2.1⟩

/-- **A request to end is lost.**  The thread reads the request of a search; then it is asked to
end; at the end of its iteration it writes 0. -/
theorem shutdown_request_lost :
    Runs.run step init [.search, .read, .deinit, .finish] = some ⟨0, .top, true⟩ := by
  decide

end FlagState

end DeviceTools
