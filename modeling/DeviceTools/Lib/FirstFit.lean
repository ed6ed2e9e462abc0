/-
First-fit grouping.

Items arrive one after the other, each with a key.  An item goes to the first group
that has its key; if there is none, a new group is opened behind the others.  The
groups that a list of items ends in are the classes of the list under the key, in the
order in which the keys first occur, and each class is in list order.
-/
import Mathlib

namespace FirstFit

variable {ε κ : Type} [DecidableEq κ] (key : ε → κ)

/-- Put `e` in the first group with its key, or open a group for it. -/
def place (e : ε) : List (κ × List ε) → List (κ × List ε)
  | [] => [(key e, [e])]
  | g :: gs => if g.1 = key e then (g.1, g.2 ++ [e]) :: gs else g :: place e gs

/-- The groups after the items of a list have been placed. -/
def groups (es : List ε) : List (κ × List ε) := es.foldl (fun gs e => place key e gs) []

@[simp] lemma groups_nil : groups key ([] : List ε) = [] := rfl

lemma groups_concat (es : List ε) (e : ε) :
    groups key (es ++ [e]) = place key e (groups key es) := by
  simp [groups]

/-- Placing an item opens a group exactly when its key is new. -/
lemma place_keys (e : ε) (gs : List (κ × List ε)) :
    (place key e gs).map Prod.fst =
      if key e ∈ gs.map Prod.fst then gs.map Prod.fst else gs.map Prod.fst ++ [key e] := by
  induction gs with
  | nil => simp [place]
  | cons g gs ih =>
      by_cases h : g.1 = key e
      · simp [place, h]
      · have h' : ¬ key e = g.1 := fun hc => h hc.symm
        rw [place, if_neg h, List.map_cons, ih, List.map_cons]
        by_cases hm : key e ∈ gs.map Prod.fst
        · simp [hm]
        · simp [hm, h']

/-- The keys of the groups are the keys of the items, in order of first occurrence. -/
lemma mem_keys_groups {es : List ε} {k : κ} :
    k ∈ (groups key es).map Prod.fst ↔ k ∈ es.map key := by
  induction es using List.reverseRecOn with
  | nil => simp
  | append_singleton es e ih =>
      rw [groups_concat, place_keys, List.map_append, List.mem_append]
      by_cases hm : key e ∈ (groups key es).map Prod.fst
      · rw [if_pos hm, ih]
        constructor
        · exact Or.inl
        · rintro (h | h)
          · exact h
          · rw [List.map_singleton, List.mem_singleton] at h
            rw [← ih, h]
            exact hm
      · rw [if_neg hm, List.mem_append, ih]
        simp

lemma nodup_keys_groups (es : List ε) : ((groups key es).map Prod.fst).Nodup := by
  induction es using List.reverseRecOn with
  | nil => simp
  | append_singleton es e ih =>
      rw [groups_concat, place_keys]
      by_cases hm : key e ∈ (groups key es).map Prod.fst
      · rw [if_pos hm]
        exact ih
      · rw [if_neg hm]
        exact ih.append (List.nodup_singleton _) (by simpa using hm)

/-- There are as many groups as there are different keys. -/
lemma length_groups (es : List ε) : (groups key es).length = (es.map key).toFinset.card := by
  have hset : (es.map key).toFinset = ((groups key es).map Prod.fst).toFinset := by
    ext k
    rw [List.mem_toFinset, List.mem_toFinset, mem_keys_groups]
  rw [hset, List.toFinset_card_of_nodup (nodup_keys_groups key es), List.length_map]

/-- Placing an item whose key has a group puts it at the end of that group. -/
lemma place_of_split {e : ε} {pre post : List (κ × List ε)} {xs : List ε}
    (hpre : key e ∉ pre.map Prod.fst) :
    place key e (pre ++ (key e, xs) :: post) = pre ++ (key e, xs ++ [e]) :: post := by
  induction pre with
  | nil => simp [place]
  | cons g gs ih =>
      rw [List.map_cons, List.mem_cons, not_or] at hpre
      have hg : ¬ g.1 = key e := fun hc => hpre.1 hc.symm
      rw [List.cons_append, place, if_neg hg, ih hpre.2, List.cons_append]

/-- Placing an item whose key is new opens a group behind the others. -/
lemma place_of_new {e : ε} {gs : List (κ × List ε)} (h : key e ∉ gs.map Prod.fst) :
    place key e gs = gs ++ [(key e, [e])] := by
  induction gs with
  | nil => rfl
  | cons g gs ih =>
      rw [List.map_cons, List.mem_cons, not_or] at h
      have hg : ¬ g.1 = key e := fun hc => h.1 hc.symm
      rw [place, if_neg hg, ih h.2, List.cons_append]

/-- What placing an item does to the groups, by their keys: the group of the item's key
gets the item at its end, the other groups stay. -/
lemma mem_place {e : ε} {gs : List (κ × List ε)} (hnd : (gs.map Prod.fst).Nodup)
    {k : κ} {xs : List ε} (h : (k, xs) ∈ place key e gs) :
    (k ≠ key e ∧ (k, xs) ∈ gs) ∨
      (k = key e ∧ ∃ ys, xs = ys ++ [e] ∧
        ((k, ys) ∈ gs ∨ (ys = [] ∧ k ∉ gs.map Prod.fst))) := by
  induction gs with
  | nil =>
      simp only [place, List.mem_singleton, Prod.mk.injEq] at h
      obtain ⟨rfl, rfl⟩ := h
      exact Or.inr ⟨rfl, [], rfl, Or.inr ⟨rfl, by simp⟩⟩
  | cons g gs ih =>
      rw [List.map_cons, List.nodup_cons] at hnd
      by_cases hg : g.1 = key e
      · rw [place, if_pos hg] at h
        rcases List.mem_cons.1 h with h | h
        · obtain ⟨rfl, rfl⟩ := Prod.mk.injEq .. ▸ h
          exact Or.inr ⟨hg, g.2, rfl, Or.inl (by simp)⟩
        · refine Or.inl ⟨fun hk => hnd.1 ?_, List.mem_cons_of_mem _ h⟩
          rw [hg, ← hk]
          exact List.mem_map_of_mem h
      · rw [place, if_neg hg] at h
        rcases List.mem_cons.1 h with rfl | h
        · exact Or.inl ⟨hg, by simp⟩
        · rcases ih hnd.2 h with ⟨hk, hmem⟩ | ⟨hk, ys, hys, hmem | ⟨hnil, hnew⟩⟩
          · exact Or.inl ⟨hk, List.mem_cons_of_mem _ hmem⟩
          · exact Or.inr ⟨hk, ys, hys, Or.inl (List.mem_cons_of_mem _ hmem)⟩
          · refine Or.inr ⟨hk, ys, hys, Or.inr ⟨hnil, ?_⟩⟩
            rw [List.map_cons, List.mem_cons, not_or]
            exact ⟨fun hc => hg (by rw [← hc, hk]), hnew⟩

/-- **A group is the class of its key**, in list order. -/
lemma mem_groups {es : List ε} {k : κ} {xs : List ε} (h : (k, xs) ∈ groups key es) :
    xs = es.filter (fun e => key e = k) := by
  induction es using List.reverseRecOn generalizing k xs with
  | nil => simp at h
  | append_singleton es e ih =>
      rw [groups_concat] at h
      rw [List.filter_append]
      rcases mem_place key (nodup_keys_groups key es) h with
        ⟨hk, hmem⟩ | ⟨hk, ys, rfl, hmem | ⟨rfl, hnew⟩⟩
      · have hk' : ¬ key e = k := fun hc => hk hc.symm
        rw [ih hmem]
        simp [hk']
      · rw [ih hmem]
        simp [hk]
      · have hnone : es.filter (fun e' => key e' = k) = [] := by
          rw [List.filter_eq_nil_iff]
          intro e' he' hc
          rw [mem_keys_groups] at hnew
          exact hnew (List.mem_map.2 ⟨e', he', by simpa using hc⟩)
        rw [hnone]
        simp [hk]

lemma groups_ne_nil {es : List ε} {k : κ} {xs : List ε} (h : (k, xs) ∈ groups key es) :
    xs ≠ [] := by
  have hk : k ∈ es.map key := (mem_keys_groups key).1 (List.mem_map.2 ⟨_, h, rfl⟩)
  obtain ⟨e, he, rfl⟩ := List.mem_map.1 hk
  rw [mem_groups key h]
  exact List.ne_nil_of_mem (List.mem_filter.2 ⟨he, by simp⟩)

/-- Every item is in the group of its key. -/
lemma exists_group {es : List ε} {e : ε} (he : e ∈ es) :
    (key e, es.filter (fun e' => key e' = key e)) ∈ groups key es := by
  have hk : key e ∈ (groups key es).map Prod.fst :=
    (mem_keys_groups key).2 (List.mem_map_of_mem he)
  obtain ⟨⟨k, xs⟩, hmem, rfl⟩ := List.mem_map.1 hk
  have hxs := mem_groups key hmem
  exact hxs ▸ hmem

end FirstFit
