/-
Removing the oldest files.

When there is little room left, the save thread calls `delOldRecordFile` for the directory of the
photos and then for that of the index files.  Each call removes the file with the least name, if
this is less than the name of the current day's data file.  The two calls do not know of each
other.  Whatever fails in the saves, an index file has its data file as long as each pass that
removes the data file of a day removes its index file too; this is a condition on the failures
in the pass (`PassKeeps`).
-/
import DeviceTools.RecordLib.Runs
import DeviceTools.Store.Directory
import DeviceTools.Store.SlotInvariant

namespace DeviceTools

/-- What a call of `delOldRecordFile` meets: whether `opendir` succeeds, the names that `readdir`
gives, for which of them `stat` succeeds, and whether `unlink` succeeds. -/
structure DelEnv where
  opendir : Bool
  names : List Name
  stat : Name → Bool
  unlink : Bool

/-- The name kept by the loop over the directory, empty at first.  Names of one directory differ
before their ends, so that `memcmp` compares them as texts. -/
def oldFileName (env : DelEnv) : Name :=
  env.names.foldl
    (fun old name => if env.stat name then if old = [] ∨ name < old then name else old else old) []

/-- `delOldRecordFile`, on the day `today`. -/
def delOldRecordFile (env : DelEnv) (today : Tm) (path : Path) (d : Disk) : Disk :=
  if env.opendir then
    let old := oldFileName env
    if old ≠ [] ∧ old < today.name ++ dotData ∧ env.unlink then
      Function.update d (path ++ '/' :: old) none
    else d
  else d

/-- The steps of the store: a step of the thread with its queue, or a pass of the retention on a day,
behind which the records are counted again. -/
inductive StoreAction where
  | thread (a : Action OperateEvent)
  | pass (today : Tm) (pic index : DelEnv) (total : ℕ)

namespace RecordLib

/-- The name `rcdIndex`. -/
def RECORD_INDEX_DIR_NAME : Name := ['r', 'c', 'd', 'I', 'n', 'd', 'e', 'x']

/-- The name `rcdPic`. -/
def RECORD_PIC_DIR_NAME : Name := ['r', 'c', 'd', 'P', 'i', 'c']

/-- The paths that the library works with, from those that it is given when it is initialised. -/
def ofPaths (indexPath picPath : Path) (recordMaxBufNum : ℤ) : RecordLib where
  recordIndexPath := indexPath ++ '/' :: RECORD_INDEX_DIR_NAME
  recordPicPath := picPath ++ '/' :: RECORD_PIC_DIR_NAME
  recordMaxBufNum := recordMaxBufNum

variable (L : RecordLib) (zone : Zone)

/-- The path of the index file of a day. -/
def indexFile (tm : Tm) : Path := dayPath L.recordIndexPath tm dotIndex

/-- A pass of the retention. -/
def delOldFiles (today : Tm) (pic index : DelEnv) (d : Disk) : Disk :=
  delOldRecordFile index today L.recordIndexPath (delOldRecordFile pic today L.recordPicPath d)

/-- One step of the store. -/
def storeStep (s : ThreadState OperateEvent) : StoreAction → Option (ThreadState OperateEvent)
  | .thread a => L.saveRecordThread.step zone s a
  | .pass today pic index total => some { s with disk := L.delOldFiles today pic index s.disk, total }

/-- Every index file has its data file. -/
def InStep (d : Disk) : Prop := ∀ k, d (L.indexFile k) ≠ none → d (L.dataFile k) ≠ none

/-- `readdir` gives the names in the directory. -/
def ReaddirLists (s : ThreadState OperateEvent) : StoreAction → Prop
  | .thread _ => True
  | .pass today pic index _ =>
      (pic.opendir = true → Lists s.disk L.recordPicPath pic.names) ∧
      (index.opendir = true →
        Lists (delOldRecordFile pic today L.recordPicPath s.disk) L.recordIndexPath index.names)

/-- What `delOldRecordFile` needs to remove the file of a day: nothing fails, and the file is the
oldest in its directory for which `stat` succeeds, and older than the current day. -/
structure Removes (env : DelEnv) (today : Tm) (path : Path) (ext : List Char) (d : Disk) (k : Tm) : Prop where
  opendir : env.opendir = true
  unlink : env.unlink = true
  exists_file : d (dayPath path k ext) ≠ none
  stat : env.stat (k.name ++ ext) = true
  le : ∀ j, d (dayPath path j ext) ≠ none → env.stat (j.name ++ ext) = true → k.name ≤ j.name
  lt_today : k.name < today.name

/-- **The condition on a pass.**  If the data file of a day that has an index file is to be removed,
then in the index directory nothing fails either, and the index file of that day is the oldest
there for which `stat` succeeds. -/
def PassKeeps (s : ThreadState OperateEvent) : StoreAction → Prop
  | .thread _ => True
  | .pass today pic index _ => ∀ k, Removes pic today L.recordPicPath dotData s.disk k →
      s.disk (L.indexFile k) ≠ none → Removes index today L.recordIndexPath dotIndex s.disk k

/-- The step does not delete the files of the current day. -/
def KeepsToday (s : ThreadState OperateEvent) : StoreAction → Prop
  | .thread _ => True
  | .pass today pic index _ =>
      (s.disk (L.dataFile today) ≠ none →
        L.delOldFiles today pic index s.disk (L.dataFile today) ≠ none) ∧
      (s.disk (L.indexFile today) ≠ none →
        L.delOldFiles today pic index s.disk (L.indexFile today) ≠ none)

end RecordLib

/-! ### One call -/

/-- The loop over the directory, from a name kept before. -/
lemma foldl_old {stat : Name → Bool} : ∀ {names : List Name} (start : Name), [] ∉ names →
    let old := names.foldl
      (fun old name => if stat name then if old = [] ∨ name < old then name else old else old) start
    (old = [] → start = [] ∧ ∀ name ∈ names, stat name = false) ∧
    (old ≠ [] → (old = start ∨ old ∈ names ∧ stat old = true) ∧ (start ≠ [] → old ≤ start) ∧
      ∀ name ∈ names, stat name = true → old ≤ name) := by
  intro names
  induction names with
  | nil => intro start _; simp
  | cons name names ih =>
      intro start hne
      have hname : name ≠ [] := fun h => hne (by simp [h])
      have hnames : [] ∉ names := fun h => hne (by simp [h])
      rw [List.foldl_cons]
      cases hstat : stat name with
      | false =>
          obtain ⟨hnone, hsome⟩ := ih start hnames
          simp only [Bool.false_eq_true, if_false]
          refine ⟨fun h => ⟨(hnone h).1, ?_⟩, fun h => ?_⟩
          · rintro n hn
            rcases List.mem_cons.1 hn with rfl | hn
            · exact hstat
            · exact (hnone h).2 n hn
          · obtain ⟨hfrom, hstart, hle⟩ := hsome h
            refine ⟨?_, hstart, fun n hn hs => ?_⟩
            · rcases hfrom with hfrom | ⟨hmem, hs⟩
              · exact Or.inl hfrom
              · exact Or.inr ⟨List.mem_cons_of_mem _ hmem, hs⟩
            · rcases List.mem_cons.1 hn with rfl | hn
              · rw [hstat] at hs
                exact absurd hs Bool.false_ne_true
              · exact hle n hn hs
      | true =>
          -- the name kept behind this one is not empty and not greater than both
          set kept := if start = [] ∨ name < start then name else start with hkept
          have hkept_ne : kept ≠ [] := by
            rw [hkept]
            split_ifs with h
            · exact hname
            · exact fun hc => h (Or.inl hc)
          have hkept_from : kept = start ∨ kept = name := by
            rw [hkept]
            split_ifs
            · exact Or.inr rfl
            · exact Or.inl rfl
          have hkept_name : kept ≤ name := by
            rw [hkept]
            split_ifs with h
            · exact le_rfl
            · exact not_lt.1 fun hc => h (Or.inr hc)
          have hkept_start : start ≠ [] → kept ≤ start := by
            intro hs
            rw [hkept]
            split_ifs with h
            · exact (h.resolve_left hs).le
            · exact le_rfl
          obtain ⟨hnone, hsome⟩ := ih kept hnames
          simp only [if_true]
          refine ⟨fun h => absurd (hnone h).1 hkept_ne, fun h => ?_⟩
          obtain ⟨hfrom, hstart, hle⟩ := hsome h
          have hold := hstart hkept_ne
          refine ⟨?_, fun hs => hold.trans (hkept_start hs), fun n hn hs => ?_⟩
          · rcases hfrom with hfrom | ⟨hmem, hs⟩
            · rcases hkept_from with hk | hk
              · exact Or.inl (hfrom.trans hk)
              · exact Or.inr ⟨by rw [hfrom, hk]; exact List.mem_cons_self, by rw [hfrom, hk]; exact hstat⟩
            · exact Or.inr ⟨List.mem_cons_of_mem _ hmem, hs⟩
          · rcases List.mem_cons.1 hn with rfl | hn
            · exact hold.trans hkept_name
            · exact hle n hn hs

lemma oldFileName_spec {env : DelEnv} (hne : [] ∉ env.names) :
    (oldFileName env = [] → ∀ name ∈ env.names, env.stat name = false) ∧
    (oldFileName env ≠ [] → oldFileName env ∈ env.names ∧ env.stat (oldFileName env) = true ∧
      ∀ name ∈ env.names, env.stat name = true → oldFileName env ≤ name) := by
  obtain ⟨hnone, hsome⟩ := @foldl_old env.stat env.names [] hne
  refine ⟨fun h => (hnone h).2, fun h => ?_⟩
  obtain ⟨hfrom, -, hle⟩ := hsome h
  rcases hfrom with hfrom | ⟨hmem, hs⟩
  · exact absurd hfrom h
  · exact ⟨hmem, hs, hle⟩

section
variable {env : DelEnv} {today : Tm} {path : Path} {ext : List Char} {d : Disk}

lemma removes_unique {k j : Tm} (hk : RecordLib.Removes env today path ext d k)
    (hj : RecordLib.Removes env today path ext d j) : k = j :=
  Tm.name_inj.1 (le_antisymm (hk.le j hj.exists_file hj.stat) (hj.le k hk.exists_file hk.stat))

/-- A call removes one file, if it removes anything. -/
lemma delOldRecordFile_cases (hext : '/' ∉ ext) (hdata : ¬ ext < dotData)
    (hlists : env.opendir = true → Lists d path env.names)
    (honly : ∀ n, '/' ∉ n → d (path ++ '/' :: n) ≠ none → ∃ k : Tm, n = k.name ++ ext) :
    (∃ k, RecordLib.Removes env today path ext d k ∧
      delOldRecordFile env today path d = Function.update d (dayPath path k ext) none) ∨
    ((∀ k, ¬ RecordLib.Removes env today path ext d k) ∧ delOldRecordFile env today path d = d) := by
  rw [delOldRecordFile]
  by_cases hopen : env.opendir = true
  · have hlists := hlists hopen
    have hne : [] ∉ env.names := fun h => ((hlists []).1 h).1 rfl
    have hmem : ∀ j, (j.name ++ ext) ∈ env.names ↔ d (dayPath path j ext) ≠ none := by
      intro j
      rw [hlists, dayPath_eq]
      have hlen : j.name ++ ext ≠ [] := fun h => by simpa using congrArg List.length h
      have hslash := slash_notMem_day j hext
      tauto
    obtain ⟨hnone, hsome⟩ := oldFileName_spec hne
    rw [if_pos hopen]
    dsimp only
    by_cases hcond : oldFileName env ≠ [] ∧ oldFileName env < today.name ++ dotData ∧ env.unlink = true
    · rw [if_pos hcond]
      obtain ⟨hold, hlt, hunlink⟩ := hcond
      obtain ⟨holdmem, hstat, hle⟩ := hsome hold
      obtain ⟨-, hslash, hfile⟩ := (hlists _).1 holdmem
      obtain ⟨k, hk⟩ := honly _ hslash hfile
      refine Or.inl ⟨k, ?_, by rw [dayPath_eq, hk]⟩
      rw [hk] at hstat hlt holdmem
      refine ⟨hopen, hunlink, (hmem k).1 holdmem, hstat, fun j hj hsj => ?_, ?_⟩
      · have hjk := hle _ ((hmem j).2 hj) hsj
        rw [hk, ← not_lt, name_append_lt_iff] at hjk
        exact not_lt.1 fun h => hjk (Or.inl h)
      · rcases (name_append_lt_iff _ _ _ _).1 hlt with h | ⟨-, h⟩
        · exact h
        · exact absurd h hdata
    · rw [if_neg hcond]
      refine Or.inr ⟨fun k hold => ?_, rfl⟩
      have hkmem := (hmem k).2 hold.exists_file
      have hold_ne : oldFileName env ≠ [] := by
        intro h
        have hfalse := hnone h _ hkmem
        rw [hold.stat] at hfalse
        exact Bool.false_ne_true hfalse.symm
      refine hcond ⟨hold_ne, ?_, hold.unlink⟩
      refine lt_of_le_of_lt ((hsome hold_ne).2.2 _ hkmem hold.stat) ?_
      exact (name_append_lt_iff _ _ _ _).2 (Or.inl hold.lt_today)
  · rw [if_neg hopen]
    exact Or.inr ⟨fun k h => hopen h.opendir, rfl⟩

variable (env today) in
/-- **What a call removes.** -/
lemma delOldRecordFile_ne_none_iff (hext : '/' ∉ ext) (hdata : ¬ ext < dotData)
    (hlists : env.opendir = true → Lists d path env.names)
    (honly : ∀ n, '/' ∉ n → d (path ++ '/' :: n) ≠ none → ∃ k : Tm, n = k.name ++ ext) (p : Path) :
    delOldRecordFile env today path d p ≠ none ↔
      d p ≠ none ∧ ∀ k, RecordLib.Removes env today path ext d k → p ≠ dayPath path k ext := by
  rcases delOldRecordFile_cases hext hdata hlists honly with ⟨k, hk, heq⟩ | ⟨hno, heq⟩
  · rw [heq]
    by_cases hp : p = dayPath path k ext
    · subst hp
      simp only [Function.update_self, ne_eq, not_true_eq_false, false_iff]
      exact fun h => h.2 k hk rfl
    · rw [Function.update_of_ne hp]
      refine ⟨fun h => ⟨h, fun j hj => ?_⟩, fun h => h.1⟩
      rw [removes_unique hj hk]
      exact hp
  · rw [heq]
    exact ⟨fun h => ⟨h, fun k hk => absurd hk (hno k)⟩, fun h => h.1⟩

end

namespace RecordLib

/-! ### The files of the days -/

/-- The two directories have only files with the names of days. -/
structure DayFiles (L : RecordLib) (d : Disk) : Prop where
  pic : ∀ n, '/' ∉ n → d (L.recordPicPath ++ '/' :: n) ≠ none → ∃ k : Tm, n = k.name ++ dotData
  index : ∀ n, '/' ∉ n → d (L.recordIndexPath ++ '/' :: n) ≠ none → ∃ k : Tm, n = k.name ++ dotIndex

variable {L : RecordLib} {zone : Zone}

/-- A slot that is not free has the file names of one day. -/
def OneDay (L : RecordLib) (zone : Zone) (s : Slot RecordPic) : Prop :=
  s.time ≠ 0 → s.pic.picFileName = L.dataFile (zone.localtime s.time) ∧
    s.indexFileName = L.indexFile (zone.localtime s.time)

lemma slotInvariant_oneDay (d : Disk) : L.saveRecordThread.SlotInvariant zone d (L.OneDay zone) where
  blank h := absurd rfl h
  opened _ _ _ _ _ := ⟨rfl, rfl⟩
  joined e s hs h0 hday _ := by
    show s.pic.picFileName = L.dataFile (zone.localtime e.time.toNat) ∧
      s.indexFileName = L.indexFile (zone.localtime e.time.toNat)
    have hday' : zone.localtime e.time.toNat = zone.localtime s.time := hday
    rw [hday']
    exact hs h0

/-- The files that a save creates: data files of days, and index files of days whose data file comes
before. -/
def Created (L : RecordLib) (paths : List Path) : Prop :=
  ∀ p ∈ paths, (∃ k, p = L.dataFile k) ∨ ∃ k, p = L.indexFile k ∧ L.dataFile k ∈ paths

/-- The write loop may end anywhere in the files of the slots. -/
lemma created_of_prefix {slots : List (Slot RecordPic)} :
    ∀ {paths : List Path}, (∀ s ∈ slots, L.OneDay zone s ∧ s.time ≠ 0) →
      paths <+: (slots.flatMap L.saveRecordThread.appends).map Append.path → L.Created paths := by
  induction slots with
  | nil =>
      intro paths _ hpre p hp
      rw [List.prefix_nil.1 hpre] at hp
      simp at hp
  | cons s slots ih =>
      intro paths hslots hpre
      obtain ⟨hday, h0⟩ := hslots s List.mem_cons_self
      obtain ⟨hpic, hindex⟩ := hday h0
      rw [List.flatMap_cons, List.map_append] at hpre
      have happends : (L.saveRecordThread.appends s).map Append.path =
          [L.dataFile (zone.localtime s.time), L.indexFile (zone.localtime s.time)] := by
        rw [← hpic, ← hindex]
        rfl
      rw [happends, List.cons_append, List.cons_append, List.nil_append] at hpre
      cases paths with
      | nil => intro p hp; simp at hp
      | cons p₁ paths =>
          obtain ⟨rfl, hpre₁⟩ := List.cons_prefix_cons.1 hpre
          cases paths with
          | nil =>
              intro p hp
              exact Or.inl ⟨_, List.mem_singleton.1 hp⟩
          | cons p₂ paths =>
              obtain ⟨rfl, hpre₂⟩ := List.cons_prefix_cons.1 hpre₁
              intro p hp
              rcases List.mem_cons.1 hp with hp | hp
              · exact Or.inl ⟨_, hp⟩
              rcases List.mem_cons.1 hp with hp | hp
              · exact Or.inr ⟨_, hp, List.mem_cons_self⟩
              rcases ih (fun x hx => hslots x (List.mem_cons_of_mem _ hx)) hpre₂ p hp with h | ⟨k, hk, hdata⟩
              · exact Or.inl h
              · exact Or.inr ⟨k, hk, List.mem_cons_of_mem _ (List.mem_cons_of_mem _ hdata)⟩

/-- A save creates files as it should, whatever fails in it. -/
lemma flush_created {io : IterIo} {d : Disk} {total : ℕ} {batch : List OperateEvent} {r : FlushResult}
    (h : L.saveRecordThread.flush zone io d total batch = some r) :
    L.Created (r.trace.map Append.path) ∧
      ∀ p, r.disk p ≠ none ↔ d p ≠ none ∨ p ∈ r.trace.map Append.path := by
  rw [SaveThread.flush] at h
  split at h
  · simp at h
  · rw [Option.some.injEq] at h
    subst h
    exact ⟨fun p hp => by simp at hp, by simp⟩
  · next σ i hst =>
      rw [Option.some.injEq] at h
      subst h
      refine ⟨?_, writeAll_ne_none_iff _ _ _ _⟩
      have hslots : ∀ s ∈ σ.slots.takeWhile fun s => s.time ≠ 0, L.OneDay zone s ∧ s.time ≠ 0 := by
        intro s hs
        refine ⟨SaveThread.stageAll_invariant (slotInvariant_oneDay d) hst s ?_, ?_⟩
        · exact (List.takeWhile_prefix _).subset hs
        · simpa using List.mem_takeWhile_imp hs
      exact created_of_prefix hslots (writeAll_trace_along io.append _ 0 d)

/-- So does a step of the thread. -/
lemma step_created {s s' : ThreadState OperateEvent} {a : Action OperateEvent}
    (hinv : L.saveRecordThread.Inv s) (hs : L.saveRecordThread.step zone s a = some s') :
    ∃ paths, L.Created paths ∧ ∀ p, s'.disk p ≠ none ↔ s.disk p ≠ none ∨ p ∈ paths := by
  have hnone : L.Created [] := fun p hp => by simp at hp
  cases a with
  | add e =>
      simp only [SaveThread.step, Option.some.injEq] at hs
      subst hs
      refine ⟨[], hnone, fun p => ?_⟩
      split <;> simp
  | iterate tick io =>
      rw [SaveThread.step] at hs
      rcases L.saveRecordThread.iterate_cases zone hinv.valid tick io with
        ⟨-, b, hit⟩ | ⟨-, -, hit⟩ | ⟨-, r, s₁, hf, hit, -, -, hdisk, -⟩
      · rw [hit, Option.some.injEq] at hs
        subst hs
        exact ⟨[], hnone, by simp⟩
      · simp [hit] at hs
      · rw [hit, Option.some.injEq] at hs
        subst hs
        rw [hdisk]
        exact ⟨_, flush_created hf⟩

/-! ### A pass -/

lemma removes_congr {env : DelEnv} {today k : Tm} {path : Path} {ext : List Char} {d d' : Disk}
    (h : ∀ j, d (dayPath path j ext) ≠ none ↔ d' (dayPath path j ext) ≠ none) :
    Removes env today path ext d k ↔ Removes env today path ext d' k := by
  constructor
  · intro hd
    exact ⟨hd.opendir, hd.unlink, (h k).1 hd.exists_file, hd.stat, fun j hj => hd.le j ((h j).2 hj),
      hd.lt_today⟩
  · intro hd
    exact ⟨hd.opendir, hd.unlink, (h k).2 hd.exists_file, hd.stat, fun j hj => hd.le j ((h j).1 hj),
      hd.lt_today⟩

section
variable {s : ThreadState OperateEvent} {today : Tm} {pic index : DelEnv} {total : ℕ}
  (hfiles : L.DayFiles s.disk) (hread : L.ReaddirLists s (.pass today pic index total))
include hfiles hread

/-- **What is there behind a pass.** -/
lemma delOldFiles_ne_none_iff (p : Path) : L.delOldFiles today pic index s.disk p ≠ none ↔
    s.disk p ≠ none ∧
      (∀ k, Removes pic today L.recordPicPath dotData s.disk k → p ≠ L.dataFile k) ∧
      ∀ k, Removes index today L.recordIndexPath dotIndex s.disk k → p ≠ L.indexFile k := by
  have hpic := delOldRecordFile_ne_none_iff pic today (by decide) (by decide) hread.1 hfiles.pic
  have hindex := delOldRecordFile_ne_none_iff index today (by decide) (by decide) hread.2
    (fun n hn h => hfiles.index n hn ((hpic _).1 h).1) p
  have hsame : ∀ j, delOldRecordFile pic today L.recordPicPath s.disk (L.indexFile j) ≠ none ↔
      s.disk (L.indexFile j) ≠ none := by
    intro j
    rw [hpic]
    exact and_iff_left fun k _ h => L.dataFile_ne_indexFile k j h.symm
  rw [delOldFiles, hindex, hpic, and_assoc]
  refine and_congr_right fun _ => and_congr_right fun _ => forall_congr' fun k => ?_
  rw [removes_congr hsame]
  rfl

/-- **A pass keeps the directories in step under its condition, and only then.** -/
lemma inStep_pass_iff (hstep : L.InStep s.disk) :
    L.InStep (L.delOldFiles today pic index s.disk) ↔
      L.PassKeeps s (.pass today pic index total) := by
  have hthere := delOldFiles_ne_none_iff hfiles hread
  constructor
  · intro h k hk hidx
    by_contra hno
    -- the index file stays, without its data file
    have hstays : L.delOldFiles today pic index s.disk (L.indexFile k) ≠ none := by
      refine (hthere _).2 ⟨hidx, fun j _ hc => L.dataFile_ne_indexFile j k hc.symm, fun j hj hc => ?_⟩
      rw [dayPath_inj.1 hc] at hno
      exact hno hj
    exact ((hthere _).1 (h k hstays)).2.1 k hk rfl
  · intro h k hidx
    obtain ⟨hwas, -, hkeeps⟩ := (hthere _).1 hidx
    refine (hthere _).2 ⟨hstep k hwas, fun j hj hc => ?_, fun j _ => L.dataFile_ne_indexFile k j⟩
    obtain rfl := dayPath_inj.1 hc
    exact hkeeps k (h k hj hwas) rfl

/-- A pass does not delete the files of the current day: their names are not less than that of its
data file, also the name of the index file. -/
lemma keepsToday_pass : L.KeepsToday s (.pass today pic index total) := by
  have hthere := delOldFiles_ne_none_iff hfiles hread
  constructor
  · intro h
    refine (hthere _).2 ⟨h, fun k hk hc => ?_, fun k _ => L.dataFile_ne_indexFile today k⟩
    exact absurd (dayPath_inj.1 hc ▸ hk.lt_today) (lt_irrefl _)
  · intro h
    refine (hthere _).2 ⟨h, fun k _ hc => L.dataFile_ne_indexFile k today hc.symm, fun k hk hc => ?_⟩
    exact absurd (dayPath_inj.1 hc ▸ hk.lt_today) (lt_irrefl _)

end

lemma passKeeps_of_intact {s : ThreadState OperateEvent} {today : Tm} {pic index : DelEnv} {total : ℕ}
    (hstep : L.InStep s.disk) (hpic : ∀ n, pic.stat n = true) (hindex : ∀ n, index.stat n = true)
    (hopendir : index.opendir = true) (hunlink : index.unlink = true) :
    L.PassKeeps s (.pass today pic index total) := by
  intro k hk hidx
  refine ⟨hopendir, hunlink, hidx, hindex _, fun j hj _ => ?_, hk.lt_today⟩
  exact hk.le j (hstep j hj) (hpic _)

/-! ### Runs -/

/-- No file is in the two directories. -/
def EmptyDirs (L : RecordLib) (d : Disk) : Prop :=
  ∀ n, '/' ∉ n → d (L.recordPicPath ++ '/' :: n) = none ∧ d (L.recordIndexPath ++ '/' :: n) = none

lemma EmptyDirs.dayFiles {d : Disk} (h : L.EmptyDirs d) : L.DayFiles d where
  pic n hn hfile := absurd (h n hn).1 hfile
  index n hn hfile := absurd (h n hn).2 hfile

lemma EmptyDirs.inStep {d : Disk} (h : L.EmptyDirs d) : L.InStep d := by
  intro k hk
  rw [indexFile, dayPath_eq] at hk
  exact absurd (h _ (slash_notMem_day k (by decide))).2 hk

/-- The library keeps the two kinds of files in directories with different names. -/
lemma ofPaths_ne (indexPath picPath : Path) (recordMaxBufNum : ℤ) :
    (ofPaths indexPath picPath recordMaxBufNum).recordIndexPath ≠
      (ofPaths indexPath picPath recordMaxBufNum).recordPicPath := by
  intro h
  exact absurd ((path_inj (by decide) (by decide)).1 h).2 (by decide)

/-- Files created as they should be have the names of days. -/
lemma DayFiles.created {d d' : Disk} {paths : List Path} (hdirs : L.recordIndexPath ≠ L.recordPicPath)
    (hfiles : L.DayFiles d) (hcreated : L.Created paths)
    (hthere : ∀ p, d' p ≠ none ↔ d p ≠ none ∨ p ∈ paths) : L.DayFiles d' := by
  refine ⟨fun n hn hfile => ?_, fun n hn hfile => ?_⟩
  · rcases (hthere _).1 hfile with hfile | hmem
    · exact hfiles.pic n hn hfile
    · rcases hcreated _ hmem with ⟨k, hk⟩ | ⟨k, hk, -⟩
      · rw [dataFile, dayPath_eq, path_inj hn (slash_notMem_day k (by decide))] at hk
        exact ⟨k, hk.2⟩
      · rw [indexFile, dayPath_eq, path_inj hn (slash_notMem_day k (by decide))] at hk
        exact absurd hk.1.symm hdirs
  · rcases (hthere _).1 hfile with hfile | hmem
    · exact hfiles.index n hn hfile
    · rcases hcreated _ hmem with ⟨k, hk⟩ | ⟨k, hk, -⟩
      · rw [dataFile, dayPath_eq, path_inj hn (slash_notMem_day k (by decide))] at hk
        exact absurd hk.1 hdirs
      · rw [indexFile, dayPath_eq, path_inj hn (slash_notMem_day k (by decide))] at hk
        exact ⟨k, hk.2⟩

lemma InStep.created {d d' : Disk} {paths : List Path} (hstep : L.InStep d)
    (hcreated : L.Created paths) (hthere : ∀ p, d' p ≠ none ↔ d p ≠ none ∨ p ∈ paths) :
    L.InStep d' := by
  intro k hk
  rcases (hthere _).1 hk with hk | hmem
  · exact (hthere _).2 (Or.inl (hstep k hk))
  · rcases hcreated _ hmem with ⟨j, hj⟩ | ⟨j, hj, hdata⟩
    · exact absurd hj.symm (L.dataFile_ne_indexFile j k)
    · rw [dayPath_inj.1 hj]
      exact (hthere _).2 (Or.inr hdata)

/-- One step of the store. -/
lemma storeStep_spec (hdirs : L.recordIndexPath ≠ L.recordPicPath) {s s' : ThreadState OperateEvent}
    {a : StoreAction} (hinv : L.saveRecordThread.Inv s) (hfiles : L.DayFiles s.disk)
    (hread : L.ReaddirLists s a) (hs : L.storeStep zone s a = some s') :
    (L.saveRecordThread.Inv s' ∧ L.DayFiles s'.disk) ∧
      (L.InStep s.disk → (L.InStep s'.disk ↔ L.PassKeeps s a)) := by
  cases a with
  | thread a =>
      have hs : L.saveRecordThread.step zone s a = some s' := hs
      obtain ⟨paths, hcreated, hthere⟩ := step_created hinv hs
      refine ⟨⟨SaveThread.step_inv hinv hs, hfiles.created hdirs hcreated hthere⟩, fun hstep => ?_⟩
      exact iff_of_true (hstep.created hcreated hthere) trivial
  | pass today pic index total =>
      obtain rfl := Option.some.inj hs
      refine ⟨⟨⟨hinv.valid, hinv.accepted⟩, ?_⟩, inStep_pass_iff hfiles hread⟩
      have hthere := delOldFiles_ne_none_iff hfiles hread
      exact ⟨fun n hn h => hfiles.pic n hn ((hthere _).1 h).1,
        fun n hn h => hfiles.index n hn ((hthere _).1 h).1⟩

/-- **Index files have their data files.**  Take any run of the store over empty directories, with any
failures in the saves and in the passes.  In every state of the run each index file has its
data file, and no pass deletes a file of its current day, exactly if every pass meets the condition
`PassKeeps`. -/
theorem files_in_step_iff (indexPath picPath : Path) (recordMaxBufNum : ℤ) (zone : Zone) (d : Disk)
    (total : ℕ) (acts : List StoreAction)
    (hempty : (ofPaths indexPath picPath recordMaxBufNum).EmptyDirs d)
    (hread : Runs.Along ((ofPaths indexPath picPath recordMaxBufNum).storeStep zone)
      (ofPaths indexPath picPath recordMaxBufNum).ReaddirLists (SaveThread.init d total) acts) :
    (Runs.Throughout ((ofPaths indexPath picPath recordMaxBufNum).storeStep zone)
        (fun s => (ofPaths indexPath picPath recordMaxBufNum).InStep s.disk)
        (SaveThread.init d total) acts ∧
      Runs.Along ((ofPaths indexPath picPath recordMaxBufNum).storeStep zone)
        (ofPaths indexPath picPath recordMaxBufNum).KeepsToday (SaveThread.init d total) acts) ↔
    Runs.Along ((ofPaths indexPath picPath recordMaxBufNum).storeStep zone)
      (ofPaths indexPath picPath recordMaxBufNum).PassKeeps (SaveThread.init d total) acts := by
  set L := ofPaths indexPath picPath recordMaxBufNum with hL
  have hdirs : L.recordIndexPath ≠ L.recordPicPath := ofPaths_ne _ _ _
  have hinit : L.saveRecordThread.Inv (SaveThread.init d total) ∧
      L.DayFiles (SaveThread.init d total : ThreadState OperateEvent).disk :=
    ⟨SaveThread.inv_init d total, hempty.dayFiles⟩
  have htoday : Runs.Along (L.storeStep zone) L.KeepsToday (SaveThread.init d total) acts := by
    refine Runs.along (fun s a hJ hP => ⟨?_, fun s' hs' => (storeStep_spec hdirs hJ.1 hJ.2 hP hs').1⟩)
      hinit hread
    cases a with
    | thread a => trivial
    | pass today pic index n => exact keepsToday_pass hJ.2 hP
  rw [and_iff_left htoday]
  refine Runs.throughout_iff (fun s a s' hJ hP hs => storeStep_spec hdirs hJ.1 hJ.2 hP hs)
    (fun s a _ _ hs => ?_) hinit hempty.inStep hread
  cases a with
  | thread a => trivial
  | pass today pic index n => simp [storeStep] at hs

/-! ### One record and one pass -/

/-- The library initialised with short paths. -/
def sampleStore : RecordLib := ofPaths ['/', 'i'] ['/', 'p'] 30

/-- A call in which nothing fails, in a directory with one file. -/
def intactEnv (name : Name) : DelEnv := ⟨true, [name], fun _ => true, true⟩

/-- A record is added and saved, and on the next day there is a pass. -/
def sampleActs (index : DelEnv) : List StoreAction :=
  [.thread (.add (sampleEvent 5 0xAA)), .thread (.iterate sampleTick sampleIo),
    .pass (FixedZone.utc.zone.localtime 86400)
      (intactEnv ((FixedZone.utc.zone.localtime 5).name ++ dotData)) index 0]

lemma sampleStore_empty : sampleStore.EmptyDirs emptyDisk := fun _ _ => ⟨rfl, rfl⟩

/-- The two files of the record are all that there is behind the save. -/
lemma sample_saved {s : ThreadState OperateEvent}
    (hs : sampleStore.saveRecordThread.step FixedZone.utc.zone (sampleState 5 0xAA)
      (.iterate sampleTick sampleIo) = some s) (p : Path) :
    s.disk p ≠ none ↔ p = sampleStore.dataFile (FixedZone.utc.zone.localtime 5) ∨
      p = sampleStore.indexFile (FixedZone.utc.zone.localtime 5) := by
  have htrace : ((sampleStore.saveRecordThread.flush FixedZone.utc.zone sampleIo emptyDisk 0
      [sampleEvent 5 0xAA]).any fun r => decide (r.trace.map Append.path =
        [sampleStore.dataFile (FixedZone.utc.zone.localtime 5),
          sampleStore.indexFile (FixedZone.utc.zone.localtime 5)])) = true := by decide +kernel
  have hadd : sampleStore.saveRecordThread.step FixedZone.utc.zone (SaveThread.init emptyDisk 0)
      (.add (sampleEvent 5 0xAA)) = some (sampleState 5 0xAA) := rfl
  have hinv := SaveThread.step_inv (SaveThread.inv_init emptyDisk 0) hadd
  rw [SaveThread.step] at hs
  rcases sampleStore.saveRecordThread.iterate_cases FixedZone.utc.zone hinv.valid sampleTick
    sampleIo with ⟨hno, -⟩ | ⟨-, -, hit⟩ | ⟨-, r, s₁, hf, hit, -, -, hdisk, -⟩
  · exact absurd ⟨rfl, rfl, rfl⟩ hno
  · simp [hit] at hs
  · rw [hit, Option.some.injEq] at hs
    subst hs
    have hr : sampleStore.saveRecordThread.flush FixedZone.utc.zone sampleIo emptyDisk 0
      [sampleEvent 5 0xAA] = some r := hf
    rw [hr, Option.any_some, decide_eq_true_eq] at htrace
    rw [hdisk, (flush_created hf).2, htrace]
    simp [sampleState, emptyDisk]

lemma lists_singleton {d : Disk} {path : Path} {ext : List Char} {k : Tm} (hext : '/' ∉ ext)
    (h : ∀ n, '/' ∉ n → (d (path ++ '/' :: n) ≠ none ↔ n = k.name ++ ext)) :
    Lists d path [k.name ++ ext] := by
  intro name
  rw [List.mem_singleton]
  constructor
  · rintro rfl
    have hslash := slash_notMem_day k hext
    exact ⟨fun hc => by simpa using congrArg List.length hc, hslash, (h _ hslash).2 rfl⟩
  · rintro ⟨-, hslash, hfile⟩
    exact (h name hslash).1 hfile

/-- In the run of one record and one pass `readdir` gives the names in the directories. -/
lemma sample_readdir (index : DelEnv) (hindex : index.opendir = true →
      index.names = [(FixedZone.utc.zone.localtime 5).name ++ dotIndex]) :
    Runs.Along (sampleStore.storeStep FixedZone.utc.zone) sampleStore.ReaddirLists
      (SaveThread.init emptyDisk 0) (sampleActs index) := by
  have hdirs : sampleStore.recordIndexPath ≠ sampleStore.recordPicPath := ofPaths_ne _ _ _
  refine ⟨trivial, fun s₁ hs₁ => ⟨trivial, fun s₂ hs₂ => ⟨?_, fun _ _ => trivial⟩⟩⟩
  have hs₁' : sampleState 5 0xAA = s₁ := Option.some.inj hs₁
  subst hs₁'
  have hsaved := sample_saved hs₂
  have hpic : ∀ n, '/' ∉ n → (s₂.disk (sampleStore.recordPicPath ++ '/' :: n) ≠ none ↔
      n = (FixedZone.utc.zone.localtime 5).name ++ dotData) := by
    intro n hn
    rw [hsaved, dataFile, indexFile, dayPath_eq, dayPath_eq,
      path_inj hn (slash_notMem_day _ (by decide)), path_inj hn (slash_notMem_day _ (by decide))]
    simp [hdirs.symm]
  have hlists := lists_singleton (by decide) hpic
  refine ⟨fun _ => hlists, fun hopen => ?_⟩
  rw [hindex hopen]
  refine lists_singleton (by decide) fun n hn => ?_
  rw [delOldRecordFile_ne_none_iff _ _ (by decide) (by decide) (fun _ => hlists)
    (fun m hm hfile => ⟨_, (hpic m hm).1 hfile⟩), hsaved, dataFile, indexFile, dayPath_eq, dayPath_eq,
    path_inj hn (slash_notMem_day _ (by decide)), path_inj hn (slash_notMem_day _ (by decide))]
  simp only [hdirs, false_and, false_or, true_and]
  refine and_iff_left fun k _ => ?_
  rw [dayPath_eq, ne_eq, path_inj hn (slash_notMem_day _ (by decide))]
  exact fun hc => hdirs hc.1

/-- Along a run of one record and a pass without failures the index file has its data file. -/
theorem files_in_step_intact :
    Runs.Throughout (sampleStore.storeStep FixedZone.utc.zone) (fun s => sampleStore.InStep s.disk)
      (SaveThread.init emptyDisk 0)
      (sampleActs (intactEnv ((FixedZone.utc.zone.localtime 5).name ++ dotIndex))) := by
  have hread := sample_readdir (intactEnv ((FixedZone.utc.zone.localtime 5).name ++ dotIndex))
    fun _ => rfl
  refine ((files_in_step_iff ['/', 'i'] ['/', 'p'] 30 FixedZone.utc.zone emptyDisk 0 _
    sampleStore_empty hread).2 ?_).1
  refine ⟨trivial, fun s₁ hs₁ => ⟨trivial, fun s₂ hs₂ => ⟨?_, fun _ _ => trivial⟩⟩⟩
  have hs₁' : sampleState 5 0xAA = s₁ := Option.some.inj hs₁
  subst hs₁'
  refine passKeeps_of_intact (fun k hk => ?_) (fun _ => rfl) (fun _ => rfl) rfl rfl
  rcases (sample_saved hs₂ _).1 hk with h | h
  · exact absurd h.symm (sampleStore.dataFile_ne_indexFile _ k)
  · rw [dayPath_inj.1 h]
    exact (sample_saved hs₂ _).2 (Or.inl rfl)

/-- **A failure leaves an index file without its data file.**  One record is added and saved, and on
the next day its data file is removed in a pass in which the index directory cannot be opened. -/
theorem index_without_data :
    Runs.Along (sampleStore.storeStep FixedZone.utc.zone) sampleStore.ReaddirLists
      (SaveThread.init emptyDisk 0) (sampleActs ⟨false, [], fun _ => true, true⟩) ∧
    ((Runs.run (sampleStore.storeStep FixedZone.utc.zone) (SaveThread.init emptyDisk 0)
      (sampleActs ⟨false, [], fun _ => true, true⟩)).any fun s =>
        (s.disk (sampleStore.indexFile (FixedZone.utc.zone.localtime 5))).isSome &&
          (s.disk (sampleStore.dataFile (FixedZone.utc.zone.localtime 5))).isNone) = true := by
  refine ⟨sample_readdir _ fun h => absurd h Bool.false_ne_true, ?_⟩
  decide +kernel

end RecordLib

end DeviceTools
