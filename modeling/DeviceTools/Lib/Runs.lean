/-
Runs of a partial step function.

A system is given by a step function that takes a state and an action and has no result
where the step is undefined.  A run makes a list of actions one after the other.  This file
has the rules by which a fact about one step becomes a fact about runs: for an invariant, for
a reflexive and transitive relation between the states, for progress, where a condition on
each step excludes that the run gets stuck, and for what is true of every step and of every state
of a run.
-/
import Mathlib

namespace Runs

variable {σ α : Type} (step : σ → α → Option σ)

/-- The state after a list of actions, `none` if one of the steps is undefined. -/
def run (s : σ) : List α → Option σ
  | [] => some s
  | a :: as => (step s a).bind fun s' => run s' as

/-- Every step of a run meets the condition, in the state in which it is made. -/
def Along (P : σ → α → Prop) : σ → List α → Prop
  | _, [] => True
  | s, a :: as => P s a ∧ ∀ s', step s a = some s' → Along P s' as

instance decidableAlong {P : σ → α → Prop} [∀ s a, Decidable (P s a)] :
    ∀ s as, Decidable (Along step P s as)
  | _, [] => isTrue trivial
  | s, a :: as =>
      have : Decidable (∀ s', step s a = some s' → Along step P s' as) :=
        match h : step s a with
        | none => isTrue fun s' hs' => by simp at hs'
        | some s₁ =>
            @decidable_of_iff _ (Along step P s₁ as)
              ⟨fun hA s' hs' => by rwa [← Option.some.inj hs'], fun hA => hA s₁ rfl⟩
              (decidableAlong s₁ as)
      inferInstanceAs (Decidable (_ ∧ _))

variable {step}

lemma run_cons {s : σ} {a : α} {as : List α} :
    run step s (a :: as) = (step s a).bind fun s' => run step s' as := rfl

lemma run_cons_of_step {s s' : σ} {a : α} (h : step s a = some s') (as : List α) :
    run step s (a :: as) = run step s' as := by
  rw [run_cons, h, Option.bind_some]

/-- **Invariants.**  What a step keeps, a run keeps. -/
lemma invariant {I : σ → Prop} (hstep : ∀ s a s', I s → step s a = some s' → I s')
    {as : List α} : ∀ {s s' : σ}, I s → run step s as = some s' → I s' := by
  induction as with
  | nil =>
      intro s s' hI hr
      rw [← Option.some.inj hr]
      exact hI
  | cons a as ih =>
      intro s s' hI hr
      rw [run_cons, Option.bind_eq_some_iff] at hr
      obtain ⟨s₁, hs₁, hr⟩ := hr
      exact ih (hstep s a s₁ hI hs₁) hr

/-- **Invariants under a condition.**  What a step that meets the condition keeps, a run along
the condition keeps. -/
lemma invariant_along {I : σ → Prop} {P : σ → α → Prop}
    (hstep : ∀ s a s', I s → P s a → step s a = some s' → I s') {as : List α} :
    ∀ {s s' : σ}, I s → Along step P s as → run step s as = some s' → I s' := by
  induction as with
  | nil =>
      intro s s' hI _ hr
      rw [← Option.some.inj hr]
      exact hI
  | cons a as ih =>
      rintro s s' hI ⟨hP, hrest⟩ hr
      rw [run_cons, Option.bind_eq_some_iff] at hr
      obtain ⟨s₁, hs₁, hr⟩ := hr
      exact ih (hstep s a s₁ hI hP hs₁) (hrest s₁ hs₁) hr

/-- **Relations.**  If a step from a state with the invariant leads to a related state, so
does a run. -/
lemma related {I : σ → Prop} {R : σ → σ → Prop} (hrefl : ∀ s, R s s)
    (htrans : ∀ s₁ s₂ s₃, R s₁ s₂ → R s₂ s₃ → R s₁ s₃)
    (hstep : ∀ s a s', I s → step s a = some s' → I s' ∧ R s s') {as : List α} :
    ∀ {s s' : σ}, I s → run step s as = some s' → R s s' := by
  induction as with
  | nil =>
      intro s s' _ hr
      rw [← Option.some.inj hr]
      exact hrefl s
  | cons a as ih =>
      intro s s' hI hr
      rw [run_cons, Option.bind_eq_some_iff] at hr
      obtain ⟨s₁, hs₁, hr⟩ := hr
      obtain ⟨hI₁, hR⟩ := hstep s a s₁ hI hs₁
      exact htrans s s₁ s' hR (ih hI₁ hr)

/-- **Progress.**  If a step that meets the condition is defined and keeps the invariant, a
run along the condition is defined and ends with the invariant. -/
lemma progress {I : σ → Prop} {P : σ → α → Prop}
    (hstep : ∀ s a, I s → P s a → ∃ s', step s a = some s' ∧ I s') {as : List α} :
    ∀ {s : σ}, I s → Along step P s as → ∃ s', run step s as = some s' ∧ I s' := by
  induction as with
  | nil => intro s hI _; exact ⟨s, rfl, hI⟩
  | cons a as ih =>
      rintro s hI ⟨hP, hrest⟩
      obtain ⟨s₁, hs₁, hI₁⟩ := hstep s a hI hP
      obtain ⟨s', hs', hI'⟩ := ih hI₁ (hrest s₁ hs₁)
      exact ⟨s', by rw [run_cons_of_step hs₁, hs'], hI'⟩

/-- **Every step.**  If a step from a state with the invariant that meets the condition `P`
has the property `Q` and keeps the invariant, every step of a run along `P` has `Q`. -/
lemma along {I : σ → Prop} {P Q : σ → α → Prop}
    (hstep : ∀ s a, I s → P s a → Q s a ∧ ∀ s', step s a = some s' → I s') {as : List α} :
    ∀ {s : σ}, I s → Along step P s as → Along step Q s as := by
  induction as with
  | nil => intro s _ _; trivial
  | cons a as ih =>
      rintro s hI ⟨hP, hrest⟩
      obtain ⟨hQ, hI'⟩ := hstep s a hI hP
      exact ⟨hQ, fun s' hs' => ih (hI' s' hs') (hrest s' hs')⟩

/-- A weaker condition holds along a run too. -/
lemma Along.imp {P Q : σ → α → Prop} (h : ∀ s a, P s a → Q s a) {s : σ} {as : List α}
    (hP : Along step P s as) : Along step Q s as :=
  along (I := fun _ => True) (fun s a _ hP => ⟨h s a hP, fun _ _ => trivial⟩) trivial hP

/-! ### Properties of all states -/

variable (step) in
/-- Every state of a run has the property, the first and the last included. -/
def Throughout (I : σ → Prop) : σ → List α → Prop
  | s, [] => I s
  | s, a :: as => I s ∧ ∀ s', step s a = some s' → Throughout I s' as

/-- **Every state.**  If under the condition `P` a step keeps the property `I` exactly when it meets
`Q`, every state of a run along `P` has the property exactly if the run is along `Q`. -/
lemma throughout_iff {J I : σ → Prop} {P Q : σ → α → Prop}
    (hstep : ∀ s a s', J s → P s a → step s a = some s' → J s' ∧ (I s → (I s' ↔ Q s a)))
    (hnone : ∀ s a, J s → P s a → step s a = none → Q s a) {as : List α} :
    ∀ {s : σ}, J s → I s → Along step P s as → (Throughout step I s as ↔ Along step Q s as) := by
  induction as with
  | nil => intro s _ hI _; exact iff_of_true hI trivial
  | cons a as ih =>
      rintro s hJ hI ⟨hP, hrest⟩
      cases hs : step s a with
      | none =>
          refine iff_of_true ⟨hI, fun s' hs' => ?_⟩ ⟨hnone s a hJ hP hs, fun s' hs' => ?_⟩ <;>
            simp [hs] at hs'
      | some s₁ =>
          obtain ⟨hJ₁, hiff⟩ := hstep s a s₁ hJ hP hs
          have hhead : ∀ {s' : σ} {as : List α}, Throughout step I s' as → I s' := by
            intro s' as h
            cases as with
            | nil => exact h
            | cons _ _ => exact h.1
          constructor
          · rintro ⟨-, h⟩
            have hI₁ := hhead (h s₁ hs)
            refine ⟨(hiff hI).1 hI₁, fun s' hs' => ?_⟩
            obtain rfl : s₁ = s' := Option.some.inj (hs.symm.trans hs')
            exact (ih hJ₁ hI₁ (hrest s₁ hs)).1 (h s₁ hs)
          · rintro ⟨hQ, h⟩
            refine ⟨hI, fun s' hs' => ?_⟩
            obtain rfl : s₁ = s' := Option.some.inj (hs.symm.trans hs')
            exact (ih hJ₁ ((hiff hI).2 hQ) (hrest s₁ hs)).2 (h s₁ hs)

end Runs
