/-
Streams of frames.

A stream is made of frames and, between them, items that are not the synchronisation mark
`sync`.  Every frame starts with `sync`, and no frame is the beginning of another one.  Then
the frames of a stream are determined by its items, and a reader can take the stream apart
from left to right: it drops items before the next `sync`, or it takes a frame.
-/
import Mathlib

namespace Framing

variable {α : Type}

/-- The stream `s` has the frames `fs`. -/
inductive Tiles (IsFrame : List α → Prop) (sync : α) : List (List α) → List α → Prop
  | gap {g : List α} (hg : sync ∉ g) : Tiles IsFrame sync [] g
  | frame {g f s : List α} {fs : List (List α)} (hg : sync ∉ g) (hf : IsFrame f)
      (ht : Tiles IsFrame sync fs s) : Tiles IsFrame sync (f :: fs) (g ++ (f ++ s))

/-- What the framing of a stream rests on. -/
structure Code (IsFrame : List α → Prop) (sync : α) : Prop where
  starts : ∀ f, IsFrame f → f.head? = some sync
  free : ∀ f f' r r', IsFrame f → IsFrame f' → f ++ r = f' ++ r' → f = f'

variable {IsFrame : List α → Prop} {sync : α} {fs : List (List α)}

lemma Code.mem (C : Code IsFrame sync) {f : List α} (hf : IsFrame f) : sync ∈ f :=
  List.mem_of_mem_head? (C.starts f hf)

lemma Code.cons (C : Code IsFrame sync) {f : List α} (hf : IsFrame f) :
    ∃ t, f = sync :: t := by
  cases f with
  | nil => simpa using C.starts [] hf
  | cons a t =>
      have := C.starts _ hf
      simp only [List.head?_cons, Option.some.injEq] at this
      exact ⟨t, by rw [this]⟩

/-- Two ways to cut a list at the first `sync`. -/
lemma cut_unique {g g' s s' : List α} (hg : sync ∉ g) (hg' : sync ∉ g')
    (h : g ++ sync :: s = g' ++ sync :: s') : g = g' ∧ s = s' := by
  induction g generalizing g' with
  | nil =>
      cases g' with
      | nil => exact ⟨rfl, by simpa using h⟩
      | cons b g' =>
          simp only [List.nil_append, List.cons_append, List.cons.injEq] at h
          exact absurd (by simp [h.1]) hg'
  | cons a g ih =>
      cases g' with
      | nil =>
          simp only [List.nil_append, List.cons_append, List.cons.injEq] at h
          exact absurd (by simp [h.1]) hg
      | cons b g' =>
          simp only [List.cons_append, List.cons.injEq] at h
          obtain ⟨rfl, h⟩ := h
          obtain ⟨rfl, rfl⟩ := ih (fun hc => hg (by simp [hc])) (fun hc => hg' (by simp [hc])) h
          exact ⟨rfl, rfl⟩

/-- Of two beginnings of a stream the shorter is a beginning of the other. -/
lemma prefix_of_append_eq {a b r s : List α} (h : a ++ r = b ++ s) (hle : a.length ≤ b.length) : a <+: b :=
  List.prefix_of_prefix_length_le ⟨r, h⟩ (List.prefix_append b s) hle

/-- The position of the first `sync`. -/
lemma findIdx_first [DecidableEq α] {g t : List α} (hg : sync ∉ g) :
    (g ++ sync :: t).findIdx (· = sync) = g.length := by
  induction g with
  | nil => simp [List.findIdx_cons]
  | cons a g ih =>
      have ha : ¬ a = sync := fun hc => hg (by simp [hc])
      rw [List.cons_append, List.findIdx_cons, ih fun hc => hg (by simp [hc])]
      simp [ha]

/-- At the first `sync` of a stream there is a frame. -/
lemma Tiles.at_sync (C : Code IsFrame sync) {g t : List α} (hg : sync ∉ g)
    (h : Tiles IsFrame sync fs (g ++ sync :: t)) :
    ∃ f fs' s, fs = f :: fs' ∧ IsFrame f ∧ sync :: t = f ++ s ∧ Tiles IsFrame sync fs' s := by
  generalize hS : g ++ sync :: t = S at h
  cases h with
  | gap hg' =>
      rw [← hS] at hg'
      exact absurd (by simp) hg'
  | @frame g' f s fs' hg' hf ht =>
      obtain ⟨f₀, rfl⟩ := C.cons hf
      rw [List.cons_append] at hS
      obtain ⟨rfl, rfl⟩ := cut_unique hg hg' hS
      exact ⟨_, _, _, rfl, hf, by simp, ht⟩

/-- The first `sync` in a window of a stream, and the frame that begins there. -/
lemma Tiles.in_window [DecidableEq α] (C : Code IsFrame sync) {w rest : List α}
    (h : Tiles IsFrame sync fs (w ++ rest)) (hw : sync ∈ w) :
    ∃ g v f s, w = g ++ v ∧ sync ∉ g ∧ w.findIdx (· = sync) = g.length ∧ v ≠ [] ∧ IsFrame f ∧
      v ++ rest = f ++ s := by
  obtain ⟨g, t, rfl, hg⟩ := List.eq_append_cons_of_mem hw
  rw [List.append_assoc, List.cons_append] at h
  obtain ⟨f, fs', s, -, hf, hfs, -⟩ := h.at_sync C hg
  exact ⟨g, sync :: t, f, s, rfl, hg, findIdx_first hg, List.cons_ne_nil _ _, hf, hfs⟩

/-- Items that are not `sync` can be dropped. -/
lemma Tiles.drop_gap (C : Code IsFrame sync) {g s : List α} (hg : sync ∉ g)
    (h : Tiles IsFrame sync fs (g ++ s)) : Tiles IsFrame sync fs s := by
  by_cases hs : sync ∈ s
  · obtain ⟨g', t, rfl, hg'⟩ := List.eq_append_cons_of_mem hs
    rw [← List.append_assoc] at h
    have hgg : sync ∉ g ++ g' := by simp [hg, hg']
    obtain ⟨f, fs', s', rfl, hf, hst, ht⟩ := h.at_sync C hgg
    rw [hst]
    exact .frame hg' hf ht
  · generalize hS : g ++ s = S at h
    cases h with
    | gap hg' => exact .gap hs
    | @frame g' f s' fs' hg' hf ht =>
        have : sync ∈ g ++ s := by
          rw [hS]
          simp [C.mem hf]
        rcases List.mem_append.1 this with hc | hc
        · exact absurd hc hg
        · exact absurd hc hs

/-- A frame at the start of a stream is the first frame of the stream. -/
lemma Tiles.take_frame (C : Code IsFrame sync) {f s : List α} (hf : IsFrame f)
    (h : Tiles IsFrame sync fs (f ++ s)) : ∃ fs', fs = f :: fs' ∧ Tiles IsFrame sync fs' s := by
  obtain ⟨t, hft⟩ := C.cons hf
  have h' : Tiles IsFrame sync fs ([] ++ sync :: (t ++ s)) := by
    rwa [List.nil_append, ← List.cons_append, ← hft]
  obtain ⟨f', fs', s', rfl, hf', hst, ht⟩ := h'.at_sync C (by simp)
  have heq : f ++ s = f' ++ s' := by
    rw [← hst, hft, List.cons_append]
  have hff : f = f' := C.free _ _ s s' hf hf' heq
  subst hff
  rw [List.append_cancel_left heq]
  exact ⟨fs', rfl, ht⟩

/-- A stream without `sync` has no frames. -/
lemma Tiles.eq_nil (C : Code IsFrame sync) {s : List α} (h : Tiles IsFrame sync fs s)
    (hs : sync ∉ s) : fs = [] := by
  cases h with
  | gap _ => rfl
  | frame hg hf ht => exact absurd (by simp [C.mem hf]) hs

end Framing
