/-
The write loop.

`writeAll` makes the appends of a save one after the other and ends at the first that is
not complete.  Whatever the environment does, every file only grows
(`writeAll_prefix`), and the trace says by what (`writeAll_contents`).  All appends are made
exactly when the environment completes each of them (`writeAll_ok_iff`).
-/
import DeviceTools.Store.Flush

namespace DeviceTools

/-- The environment completes every append: each `open` succeeds and each `write` takes all
bytes. -/
def Completes (io : ℕ → AppendIo) : ℕ → Disk → List Append → Prop
  | _, _, [] => True
  | k, d, a :: as =>
      (io k).written (d.contents a.path).length a.bytes.length = some a.bytes.length ∧
        Completes io (k + 1) (appendFile d a.path a.bytes (io k)).1 as

instance decidableCompletes (io : ℕ → AppendIo) : ∀ k d as, Decidable (Completes io k d as)
  | _, _, [] => isTrue trivial
  | k, d, a :: as =>
      have := decidableCompletes io (k + 1) (appendFile d a.path a.bytes (io k)).1 as
      inferInstanceAs (Decidable (_ ∧ _))

/-- The bytes that a list of appends adds to a file. -/
def addedTo (q : Path) (as : List Append) : List UInt8 :=
  (as.filter fun a => a.path = q).flatMap Append.bytes

@[simp] lemma addedTo_nil (q : Path) : addedTo q [] = [] := rfl

lemma addedTo_cons (q : Path) (a : Append) (as : List Append) :
    addedTo q (a :: as) = (if q = a.path then a.bytes else []) ++ addedTo q as := by
  by_cases h : a.path = q
  · simp [addedTo, h]
  · have h' : ¬ q = a.path := fun hc => h hc.symm
    simp [addedTo, h, h']

lemma addedTo_append (q : Path) (as bs : List Append) :
    addedTo q (as ++ bs) = addedTo q as ++ addedTo q bs := by
  simp [addedTo]

/-- The four ways in which the first append of a write loop can go. -/
lemma writeAll_cons (io : ℕ → AppendIo) (k : ℕ) (d : Disk) (a : Append) (as : List Append) :
    ((io k).written (d.contents a.path).length a.bytes.length = none ∧
      writeAll io k d (a :: as) = (d, false, [])) ∨
    ((io k).written (d.contents a.path).length a.bytes.length = some a.bytes.length ∧
      writeAll io k d (a :: as) =
        ((writeAll io (k + 1) (appendFile d a.path a.bytes (io k)).1 as).1,
          (writeAll io (k + 1) (appendFile d a.path a.bytes (io k)).1 as).2.1,
          a :: (writeAll io (k + 1) (appendFile d a.path a.bytes (io k)).1 as).2.2)) ∨
    (∃ n < a.bytes.length, (io k).written (d.contents a.path).length a.bytes.length = some n ∧
      writeAll io k d (a :: as) =
        ((appendFile d a.path a.bytes (io k)).1, false, [{ a with bytes := a.bytes.take n }])) := by
  rcases hw : (io k).written (d.contents a.path).length a.bytes.length with _ | n
  · exact Or.inl ⟨rfl, by simp [writeAll, appendFile, hw]⟩
  · by_cases hn : n = a.bytes.length
    · subst hn
      exact Or.inr (Or.inl ⟨rfl, by simp [writeAll, appendFile, hw]⟩)
    · have hlt : n < a.bytes.length := lt_of_le_of_ne (AppendIo.written_le hw) hn
      exact Or.inr (Or.inr ⟨n, hlt, rfl, by simp [writeAll, appendFile, hw, hn]⟩)

/-- **The trace tells what the files have become**, complete or not. -/
lemma writeAll_contents (io : ℕ → AppendIo) (as : List Append) :
    ∀ (k : ℕ) (d : Disk) (q : Path), (writeAll io k d as).1.contents q =
      d.contents q ++ addedTo q (writeAll io k d as).2.2 := by
  induction as with
  | nil => intro k d q; simp [writeAll]
  | cons a as ih =>
      intro k d q
      rcases writeAll_cons io k d a as with ⟨_, h⟩ | ⟨hw, h⟩ | ⟨n, _, hw, h⟩
      · simp [h]
      · rw [h, addedTo_cons, ih, appendFile_contents]
        simp [appendFile, hw]
      · rw [h, addedTo_cons, appendFile_contents]
        simp [appendFile, hw]

/-- A file that no append names stays as it is. -/
lemma writeAll_of_ne (io : ℕ → AppendIo) {q : Path} (as : List Append) :
    ∀ (k : ℕ) (d : Disk), (∀ a ∈ as, a.path ≠ q) → (writeAll io k d as).1 q = d q := by
  induction as with
  | nil => intro k d _; rfl
  | cons a as ih =>
      intro k d h
      have hq : q ≠ a.path := (h a (List.mem_cons_self ..)).symm
      have happend : (appendFile d a.path a.bytes (io k)).1 q = d q := by
        rw [appendFile]
        split
        · rfl
        · exact Function.update_of_ne hq _ _
      rcases writeAll_cons io k d a as with ⟨_, hw⟩ | ⟨_, hw⟩ | ⟨n, _, _, hw⟩
      · rw [hw]
      · rw [hw, ih _ _ fun b hb => h b (List.mem_cons_of_mem _ hb), happend]
      · rw [hw, happend]

/-- A write loop takes nothing away from any file. -/
lemma writeAll_prefix (io : ℕ → AppendIo) (k : ℕ) (d : Disk) (as : List Append) (q : Path) :
    d.contents q <+: (writeAll io k d as).1.contents q := by
  rw [writeAll_contents]
  exact List.prefix_append _ _

/-- A write loop does not take a file past the limit of `off_t`. -/
lemma writeAll_length_le (io : ℕ → AppendIo) (as : List Append) :
    ∀ (k : ℕ) (d : Disk) (q : Path), (d.contents q).length ≤ OFF_MAX →
      ((writeAll io k d as).1.contents q).length ≤ OFF_MAX := by
  induction as with
  | nil => intro k d q h; simpa [writeAll] using h
  | cons a as ih =>
      intro k d q hq
      rcases writeAll_cons io k d a as with ⟨_, h⟩ | ⟨_, h⟩ | ⟨n, _, _, h⟩
      · rw [h]; exact hq
      · rw [h]; exact ih _ _ _ (appendFile_length_le hq)
      · rw [h]; exact appendFile_length_le hq

/-- The write loop reports success exactly when the environment completes every append. -/
lemma writeAll_ok_iff (io : ℕ → AppendIo) (as : List Append) :
    ∀ (k : ℕ) (d : Disk), (writeAll io k d as).2.1 = true ↔ Completes io k d as := by
  induction as with
  | nil => intro k d; simp [writeAll, Completes]
  | cons a as ih =>
      intro k d
      rw [Completes, ← ih]
      rcases writeAll_cons io k d a as with ⟨hw, h⟩ | ⟨hw, h⟩ | ⟨n, hn, hw, h⟩
      · simp [h, hw]
      · simp [h, hw]
      · simp [h, hw, hn.ne]

/-- A successful write loop makes all its appends. -/
lemma writeAll_trace_of_ok (io : ℕ → AppendIo) (as : List Append) :
    ∀ (k : ℕ) (d : Disk), (writeAll io k d as).2.1 = true → (writeAll io k d as).2.2 = as := by
  induction as with
  | nil => intro k d _; rfl
  | cons a as ih =>
      intro k d hok
      rcases writeAll_cons io k d a as with ⟨_, h⟩ | ⟨_, h⟩ | ⟨n, _, _, h⟩
      · simp [h] at hok
      · rw [h] at hok ⊢
        simp only [ih _ _ hok]
      · simp [h] at hok

/-- After a successful write loop each file has grown by what was appended to it. -/
lemma contents_of_completes {io : ℕ → AppendIo} {k : ℕ} {d : Disk} {as : List Append}
    (h : Completes io k d as) (q : Path) :
    (writeAll io k d as).1.contents q = d.contents q ++ addedTo q as := by
  rw [writeAll_contents, writeAll_trace_of_ok io as k d ((writeAll_ok_iff io as k d).2 h)]

/-- A complete write loop leaves the files it writes to within the limit of `off_t`. -/
lemma length_le_of_completes {io : ℕ → AppendIo} {as : List Append} :
    ∀ {k : ℕ} {d : Disk}, Completes io k d as → ∀ a ∈ as,
      ((writeAll io k d as).1.contents a.path).length ≤ OFF_MAX := by
  induction as with
  | nil => intro k d _ a ha; simp at ha
  | cons b as ih =>
      rintro k d ⟨hb, hrest⟩ a ha
      have hall : (writeAll io k d (b :: as)).1 =
          (writeAll io (k + 1) (appendFile d b.path b.bytes (io k)).1 as).1 := by
        rcases writeAll_cons io k d b as with ⟨hw, _⟩ | ⟨_, h⟩ | ⟨n, hn, hw, _⟩
        · simp [hw] at hb
        · rw [h]
        · rw [hw, Option.some.injEq] at hb
          omega
      rw [hall]
      rcases List.mem_cons.1 ha with rfl | ha
      · refine writeAll_length_le io as _ _ _ ?_
        rw [appendFile_full hb]
        simpa using AppendIo.written_full hb
      · exact ih hrest a ha

/-- A file is there behind a write loop if it was there before or the trace names it. -/
lemma writeAll_ne_none_iff (io : ℕ → AppendIo) (as : List Append) :
    ∀ (k : ℕ) (d : Disk) (q : Path), (writeAll io k d as).1 q ≠ none ↔
      d q ≠ none ∨ q ∈ (writeAll io k d as).2.2.map Append.path := by
  have hupdate : ∀ (d : Disk) (p q : Path) (bs : List UInt8),
      Function.update d p (some bs) q ≠ none ↔ d q ≠ none ∨ q = p := by
    intro d p q bs
    by_cases hq : q = p
    · subst hq
      simp
    · simp [hq]
  induction as with
  | nil => intro k d q; simp [writeAll]
  | cons a as ih =>
      intro k d q
      rcases writeAll_cons io k d a as with ⟨_, h⟩ | ⟨hw, h⟩ | ⟨n, _, hw, h⟩
      · simp [h]
      · rw [h, ih, appendFile_full hw, hupdate, List.map_cons, List.mem_cons, or_assoc]
      · have happend : (appendFile d a.path a.bytes (io k)).1 =
            Function.update d a.path (some (d.contents a.path ++ a.bytes.take n)) := by
          simp [appendFile, hw]
        rw [h, happend, hupdate, List.map_cons, List.map_nil, List.mem_singleton]

/-- The trace goes along the list of appends. -/
lemma writeAll_trace_along (io : ℕ → AppendIo) (as : List Append) :
    ∀ (k : ℕ) (d : Disk), (writeAll io k d as).2.2.map Append.path <+: as.map Append.path := by
  induction as with
  | nil => intro k d; simp [writeAll]
  | cons a as ih =>
      intro k d
      rcases writeAll_cons io k d a as with ⟨_, h⟩ | ⟨_, h⟩ | ⟨n, _, _, h⟩
      · rw [h]
        exact List.nil_prefix
      · rw [h, List.map_cons, List.map_cons, List.cons_prefix_cons]
        exact ⟨rfl, ih _ _⟩
      · rw [h, List.map_cons, List.map_cons, List.cons_prefix_cons]
        exact ⟨rfl, List.nil_prefix⟩

/-! ### Counting index records -/

/-- The number of complete index records among the appends. -/
def completeRecords (size : ℕ) (as : List Append) : ℕ :=
  ((as.filter Append.isIndex).map fun a => a.bytes.length / size).sum

@[simp] lemma completeRecords_nil (size : ℕ) : completeRecords size [] = 0 := rfl

lemma completeRecords_append (size : ℕ) (as bs : List Append) :
    completeRecords size (as ++ bs) = completeRecords size as + completeRecords size bs := by
  simp [completeRecords]

lemma completeRecords_cons (size : ℕ) (a : Append) (as : List Append) :
    completeRecords size (a :: as) =
      (if a.isIndex then a.bytes.length / size else 0) + completeRecords size as := by
  cases h : a.isIndex <;> simp [completeRecords, h]

/-- A write loop that ends with an index buffer and does not complete loses at least one
index record. -/
lemma completeRecords_lt_of_not_ok {size : ℕ} (hsize : 0 < size) {io : ℕ → AppendIo}
    {b : Append} (hb : b.isIndex = true) {c : ℕ} (hlen : b.bytes.length = (c + 1) * size)
    (as : List Append) : ∀ (k : ℕ) (d : Disk), (writeAll io k d (as ++ [b])).2.1 = false →
      completeRecords size (writeAll io k d (as ++ [b])).2.2 <
        completeRecords size (as ++ [b]) := by
  have hdiv : b.bytes.length / size = c + 1 := by
    rw [hlen, Nat.mul_div_cancel _ hsize]
  have hpos : 0 < completeRecords size [b] := by
    simp [completeRecords_cons, hb, hdiv]
  induction as with
  | nil =>
      intro k d hok
      rcases writeAll_cons io k d b [] with ⟨_, h⟩ | ⟨_, h⟩ | ⟨n, hn, _, h⟩
      · simpa [h] using hpos
      · simp [h, writeAll] at hok
      · have hlt : n / size < c + 1 := by
          rw [Nat.div_lt_iff_lt_mul hsize, ← hlen]
          exact hn
        simp only [List.nil_append, h, completeRecords_cons, completeRecords_nil, hb, if_true,
          List.length_take, min_eq_left hn.le, hdiv, Nat.add_zero]
        exact hlt
  | cons a as ih =>
      intro k d hok
      rw [List.cons_append] at hok ⊢
      rw [completeRecords_cons size a (as ++ [b])]
      have hrest : 0 < completeRecords size (as ++ [b]) := by
        rw [completeRecords_append]
        omega
      rcases writeAll_cons io k d a (as ++ [b]) with ⟨_, h⟩ | ⟨_, h⟩ | ⟨n, hn, _, h⟩
      · simp only [h, completeRecords_nil]
        omega
      · rw [h] at hok ⊢
        rw [completeRecords_cons]
        have := ih _ _ hok
        omega
      · have hle : n / size ≤ a.bytes.length / size := Nat.div_le_div_right hn.le
        rw [h, completeRecords_cons, completeRecords_nil]
        cases ha : a.isIndex with
        | false =>
            simp only [Bool.false_eq_true, if_false]
            omega
        | true =>
            simp only [if_true, List.length_take, min_eq_left hn.le]
            omega

end DeviceTools
