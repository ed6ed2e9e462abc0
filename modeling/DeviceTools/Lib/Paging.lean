/-
Reading a list in pages.

A reader is called again and again with a page size and a cursor that each call moves on.  If
every call hands out the first entries of what is pending at its cursor and leaves the rest
pending, the pages put together are what was pending at the first cursor.
-/
import Mathlib

namespace Paging

variable {σ α : Type} (call : σ → Option (List α × σ)) (n : ℕ)

/-- The pages of successive calls put together, up to the first page with fewer than `n` entries.  The
result is `none` if a call fails or more calls are needed than are allowed. -/
def readAll : ℕ → σ → Option (List α)
  | 0, _ => none
  | calls + 1, c =>
      match call c with
      | none => none
      | some (page, c') =>
          if page.length < n then some page else (readAll calls c').map fun rest => page ++ rest

/-- What a call with page size `n` does at a cursor that has the invariant. -/
structure Serves (I : σ → Prop) (pending : σ → List α) (c : σ) (page : List α) (c' : σ) : Prop where
  call_eq : call c = some (page, c')
  page_eq : page = (pending c).take n
  next : n ≤ (pending c).length → I c' ∧ pending c' = (pending c).drop n

variable {call n}

/-- **Nothing is lost or handed out twice.** -/
lemma readAll_eq {I : σ → Prop} {pending : σ → List α} (hn : 0 < n)
    (hcall : ∀ c, I c → ∃ page c', Serves call n I pending c page c') :
    ∀ {calls : ℕ} {c : σ}, I c → (pending c).length < calls →
      readAll call n calls c = some (pending c) := by
  intro calls
  induction calls with
  | zero => intro c _ h; omega
  | succ calls ih =>
      intro c hI hlen
      obtain ⟨page, c', hs⟩ := hcall c hI
      rw [readAll, hs.call_eq]
      dsimp only
      have hpage : page.length = min n (pending c).length := by rw [hs.page_eq, List.length_take]
      by_cases hshort : (pending c).length < n
      · rw [if_pos (by omega), hs.page_eq, List.take_of_length_le hshort.le]
      · -- the page is full: the rest is read by the calls behind it
        obtain ⟨hI', hrest⟩ := hs.next (not_lt.1 hshort)
        have hlen' : (pending c').length < calls := by
          rw [hrest, List.length_drop]
          omega
        rw [if_neg (by omega), ih hI' hlen', hrest, hs.page_eq, Option.map_some, List.take_append_drop]

/-- Cursors may be kept inside other data. -/
lemma readAll_comp {τ : Type} {call' : τ → Option (List α × τ)} {g : σ → τ}
    (h : ∀ c, call' (g c) = (call c).map fun r => (r.1, g r.2)) :
    ∀ (calls : ℕ) (c : σ), readAll call' n calls (g c) = readAll call n calls c := by
  intro calls
  induction calls with
  | zero => intro c; rfl
  | succ calls ih =>
      intro c
      rw [readAll, readAll, h]
      cases call c with
      | none => rfl
      | some r => simp only [Option.map_some, ih]

end Paging
