/-
The memory checker.

`CMem` hands out memory behind a header, which keeps the size and the place of the request, and in front of
ten bytes of a fixed value.  The headers form a chain, in the order of the requests.  `FreeMem` takes a
block out of the chain and reports whether the ten bytes have changed, or that no block begins at the
pointer; the destructor reports the blocks that are left.

The headers in use are the cells of a heap, and the other bytes are a memory of their own.  Every call holds
the mutex, so that the calls of all threads come one after the other.
-/
import DeviceTools.Lib.LinkedCells
import DeviceTools.Lib.Memory
import DeviceTools.Lib.Runs

namespace DeviceTools.MemLib

open LinkedCells Memory Runs

/-- `sizeof(MEM_BLOCK)` where pointers have 32 bits. -/
def MEM_BLOCK_SIZE : ℕ := 20

def PROTECT_TAIL_SIZE : ℕ := 10

def MAGIC_NUMBER : UInt8 := 0x5a

/-- The place of a call in the sources. -/
structure Place where
  pFile : List Char
  nLine : ℤ
deriving DecidableEq

/-- `MEM_BLOCK` without the link.  The size is an `int` that is not negative; requests of a negative size
are left out. -/
structure MemBlock where
  pAddr : ℕ
  iSize : ℕ
  place : Place
deriving DecidableEq

/-- `CMem` and the memory.  `allocated` is the number of blocks that were ever made; it bounds the loops. -/
structure CMem where
  heap : Heap MemBlock
  bytes : Bytes
  m_pMem : Option ℕ
  allocated : ℕ

/-- What is printed. -/
inductive Report where
  | mallocFail
  | overFlow (place : Place)
  | badFree (place : Place)
deriving DecidableEq

/-! ### The functions -/

/-- The loop of `MallocMem`, from the block at `a` to the last one. -/
def lastBlock (heap : Heap MemBlock) : ℕ → ℕ → Option ℕ
  | 0, _ => none
  | fuel + 1, a => (heap a).bind fun c =>
      match c.next with
      | none => some a
      | some b => lastBlock heap fuel b

/-- The new block is linked behind the last one. -/
def link (m : CMem) (pMemBlock : ℕ) : Option (Option ℕ × Heap MemBlock) :=
  match m.m_pMem with
  | none => some (some pMemBlock, m.heap)
  | some p => (lastBlock m.heap (m.allocated + 1) p).bind fun pMem => (m.heap pMem).map fun c =>
      (some p, Function.update m.heap pMem (some { c with next := some pMemBlock }))

/-- `CMem::MallocMem`, when `malloc` gives `pMemBlock`. -/
def mallocMem (m : CMem) (place : Place) (size : ℕ) (pMemBlock : Option ℕ) :
    Option (Option ℕ × List Report × CMem) :=
  match pMemBlock with
  | none => some (none, [.mallocFail], m)
  | some a => (link m a).map fun r =>
      let pAddr := a + MEM_BLOCK_SIZE
      (some pAddr, [], {
        heap := Function.update r.2 a (some ⟨⟨pAddr, size, place⟩, none⟩)
        bytes := poke m.bytes (pAddr + size) (List.replicate PROTECT_TAIL_SIZE MAGIC_NUMBER)
        m_pMem := r.1
        allocated := m.allocated + 1 })

/-- The loop of `CMem::FreeMem`. -/
def freeLoop (m : CMem) (place : Place) (ptr : ℕ) : ℕ → Option ℕ → Option ℕ → Option (List Report × CMem)
  | 0, _, _ => none
  | _ + 1, _, none => some ([.badFree place], m)
  | fuel + 1, pPrev, some pMem => (m.heap pMem).bind fun c =>
      if c.value.pAddr = ptr then
        let tail := slice m.bytes (c.value.pAddr + c.value.iSize) PROTECT_TAIL_SIZE
        let reports := if tail ≠ List.replicate PROTECT_TAIL_SIZE MAGIC_NUMBER then [.overFlow place] else []
        match pPrev with
        | none => some (reports, { m with heap := Function.update m.heap pMem none, m_pMem := c.next })
        | some p => (m.heap p).map fun c' =>
            (reports, { m with
              heap := Function.update (Function.update m.heap p (some { c' with next := c.next })) pMem none })
      else freeLoop m place ptr fuel (some pMem) c.next

/-- `CMem::FreeMem`. -/
def freeMem (m : CMem) (place : Place) (ptr : ℕ) : Option (List Report × CMem) :=
  freeLoop m place ptr (m.allocated + 1) none m.m_pMem

/-- The loop of the destructor: the place and the size of each block. -/
def leakLoop : ℕ → Heap MemBlock → Option ℕ → Option (List (Place × ℕ))
  | 0, _, _ => none
  | _ + 1, _, none => some []
  | fuel + 1, heap, some pMem => (heap pMem).bind fun c =>
      (leakLoop fuel (Function.update heap pMem none) c.next).map fun rest =>
        (c.value.place, c.value.iSize) :: rest

/-- The destructor of `CMem`: what it prints of the blocks. -/
def leaks (m : CMem) : Option (List (Place × ℕ)) := leakLoop (m.allocated + 1) m.heap m.m_pMem

/-- The loop of `CMem::PrintMem`. -/
def printLoop (heap : Heap MemBlock) : ℕ → Option ℕ → ℤ → Option ℤ
  | 0, _, _ => none
  | _ + 1, none, iTotalSize => some iTotalSize
  | fuel + 1, some pMem, iTotalSize => (heap pMem).bind fun c =>
      printLoop heap fuel c.next (Int.bmod (iTotalSize + c.value.iSize) (2 ^ 32))

/-- `CMem::PrintMem`. -/
def printMem (m : CMem) : Option ℤ := printLoop m.heap (m.allocated + 1) m.m_pMem 0

/-- The constructor of `CMem`. -/
def init (bytes : Bytes) : CMem := ⟨fun _ => none, bytes, none, 0⟩

/-! ### What the checker is for -/

/-- A call, with what `malloc` gives, or a store of the program. -/
inductive Call where
  | mallocMem (place : Place) (size : ℕ) (pMemBlock : Option ℕ)
  | freeMem (place : Place) (ptr : ℕ)
  | store (p : ℕ) (bs : List UInt8)

/-- A block in use: its header, the request, and the ten bytes behind it as the program has left them. -/
structure Live where
  addr : ℕ
  size : ℕ
  place : Place
  tail : List UInt8
deriving DecidableEq

namespace Live

/-- The pointer that the program has. -/
def ptr (e : Live) : ℕ := e.addr + MEM_BLOCK_SIZE

/-- The address behind the block. -/
def behind (e : Live) : ℕ := e.ptr + e.size + PROTECT_TAIL_SIZE

/-- The program has written over the end of the block. -/
def Overrun (e : Live) : Prop := e.tail ≠ List.replicate PROTECT_TAIL_SIZE MAGIC_NUMBER

instance overrunDecidable (e : Live) : Decidable e.Overrun := inferInstanceAs (Decidable (_ ≠ _))

/-- The block behind a store. -/
def stored (e : Live) (p : ℕ) (bs : List UInt8) : Live :=
  { e with tail := e.tail.mapIdx fun i x => poke (fun _ => x) p bs (e.ptr + e.size + i) }

/-- The header of the block. -/
def block (e : Live) : MemBlock := ⟨e.ptr, e.size, e.place⟩

end Live

/-- What a call returns and prints. -/
abbrev Outcome := Option ℕ × List Report

/-- A call in terms of the blocks in use: a request makes a block, `FreeMem` takes out that of the pointer,
and reports that it was overrun, or that there is none. -/
def meaning (live : List Live) : Call → Outcome × List Live
  | .mallocMem _ _ none => ((none, [.mallocFail]), live)
  | .mallocMem place size (some a) =>
      ((some (a + MEM_BLOCK_SIZE), []),
        live ++ [⟨a, size, place, List.replicate PROTECT_TAIL_SIZE MAGIC_NUMBER⟩])
  | .freeMem place ptr =>
      match live.find? fun e => e.ptr = ptr with
      | none => ((none, [.badFree place]), live)
      | some e => ((none, if e.Overrun then [.overFlow place] else []), live.eraseP fun e => e.ptr = ptr)
  | .store p bs => ((none, []), live.map fun e => e.stored p bs)

/-- A call of the code. -/
def call (m : CMem) : Call → Option (Outcome × CMem)
  | .mallocMem place size pMemBlock => (mallocMem m place size pMemBlock).map fun r => ((r.1, r.2.1), r.2.2)
  | .freeMem place ptr => (freeMem m place ptr).map fun r => ((none, r.1), r.2)
  | .store p bs => some ((none, []), { m with bytes := poke m.bytes p bs })

/-- The checker, and the blocks in use. -/
structure Watched where
  mem : CMem
  live : List Live

/-- A call, and what becomes of the blocks in use. -/
def step (w : Watched) (c : Call) : Option Watched :=
  (call w.mem c).map fun r => ⟨r.2, (meaning w.live c).2⟩

/-- A program at its start. -/
def start (bytes : Bytes) : Watched := ⟨init bytes, []⟩

/-- `malloc` gives memory that no block in use has, and the program leaves the headers alone. -/
def Possible (w : Watched) : Call → Prop
  | .mallocMem _ size (some a) =>
      ∀ e ∈ w.live, a + MEM_BLOCK_SIZE + size + PROTECT_TAIL_SIZE ≤ e.addr ∨ e.behind ≤ a
  | .mallocMem _ _ none => True
  | .freeMem _ _ => True
  | .store p bs => ∀ e ∈ w.live, p + bs.length ≤ e.addr ∨ e.ptr ≤ p

/-- The call returns and prints what it means. -/
def Right (w : Watched) (c : Call) : Prop := (call w.mem c).map Prod.fst = some (meaning w.live c).1

/-! ### The chain of the headers -/

section
variable {heap : Heap MemBlock} {p : Option ℕ} {as : List ℕ} {vs : List MemBlock}

lemma lastBlock_eq {fuel : ℕ} (hl : Linked heap p as vs) (hfuel : as.length ≤ fuel) :
    p.bind (lastBlock heap fuel) = as.getLast? := by
  induction hl generalizing fuel with
  | nil => rfl
  | @cons a c as vs hc hrest ih =>
      obtain ⟨fuel, rfl⟩ := Nat.exists_eq_add_one_of_ne_zero (Nat.pos_iff_ne_zero.1 (Nat.zero_lt_of_lt hfuel))
      have hrec := ih (Nat.le_of_succ_le_succ hfuel)
      rw [Option.bind_some, lastBlock, hc, Option.bind_some]
      rw [hrest.front_eq] at hrec ⊢
      cases as with
      | nil => rfl
      | cons b as => rw [List.getLast?_cons_cons, ← hrec]; rfl

/-- **The chain with a new block.** -/
lemma link_linked {m : CMem} (hl : Linked m.heap m.m_pMem as vs) (hnodup : as.Nodup)
    (hfuel : as.length ≤ m.allocated) {a : ℕ} (ha : a ∉ as) (v : MemBlock) :
    ∃ r, link m a = some r ∧
      Linked (Function.update r.2 a (some ⟨v, none⟩)) r.1 (as ++ [a]) (vs ++ [v]) := by
  have hcell : Function.update m.heap a (some ⟨v, none⟩) a = some ⟨v, none⟩ := Function.update_self _ _ _
  have hold : Linked (Function.update m.heap a (some ⟨v, none⟩)) m.m_pMem as vs :=
    hl.congr fun b hb => Function.update_of_ne (ne_of_mem_of_not_mem hb ha) _ _
  cases as with
  | nil =>
      have hvs : vs = [] := List.length_eq_zero_iff.1 hl.length_eq.symm
      subst hvs
      refine ⟨(some a, m.heap), by rw [link, hl.front_eq]; rfl, ?_⟩
      exact .cons (c := ⟨v, none⟩) hcell .nil
  | cons b as =>
      obtain ⟨r, hr⟩ : ∃ r, (b :: as).getLast? = some r :=
        ⟨_, List.getLast?_eq_some_getLast (List.cons_ne_nil b as)⟩
      obtain ⟨c, hc⟩ := hl.mem (List.mem_of_getLast? hr)
      have hra : r ≠ a := fun h => ha (h ▸ List.mem_of_getLast? hr)
      have hlast : m.m_pMem.bind (lastBlock m.heap (m.allocated + 1)) = (b :: as).getLast? :=
        lastBlock_eq hl (hfuel.trans (Nat.le_succ _))
      have hfront := hl.front_eq
      rw [List.head?_cons] at hfront
      rw [hfront, Option.bind_some, hr] at hlast
      refine ⟨(some b, Function.update m.heap r (some { c with next := some a })), ?_, ?_⟩
      · rw [link, hfront]
        dsimp only
        rw [hlast, Option.bind_some, hc, Option.map_some]
      · have hsnoc := hold.snoc hnodup hr (c := c) (by rw [Function.update_of_ne hra, hc]) ha hcell
        rw [Function.update_comm hra.symm, hfront] at hsnoc
        exact hsnoc

/-- The loop of `FreeMem` goes past the blocks of other pointers. -/
lemma freeLoop_past {m : CMem} {place : Place} {ptr : ℕ} {rest : List ℕ} {ws : List MemBlock} :
    ∀ {pre : List ℕ} {us : List MemBlock} {fuel : ℕ} {pPrev pMem : Option ℕ},
      Linked m.heap pMem (pre ++ rest) (us ++ ws) → us.length = pre.length → (∀ u ∈ us, u.pAddr ≠ ptr) →
      freeLoop m place ptr (fuel + pre.length) pPrev pMem =
        freeLoop m place ptr fuel (pre.getLast?.or pPrev) rest.head? := by
  intro pre
  induction pre with
  | nil =>
      intro us fuel pPrev pMem hl hlen _
      have hus : us = [] := List.length_eq_zero_iff.1 hlen
      subst hus
      rw [hl.front_eq]
      rfl
  | cons a pre ih =>
      intro us fuel pPrev pMem hl hlen hne
      obtain ⟨u, us, rfl⟩ := List.exists_cons_of_length_eq_add_one hlen
      have hfront := hl.front_eq
      rw [List.cons_append, List.head?_cons] at hfront
      rw [hfront] at hl
      obtain ⟨c, hc, hvalue, hrest⟩ := hl.uncons
      have hother : c.value.pAddr ≠ ptr := by
        rw [hvalue]
        exact hne u List.mem_cons_self
      rw [List.length_cons, ← Nat.add_assoc, hfront, freeLoop, hc, Option.bind_some, if_neg hother,
        ih hrest (Nat.succ.inj hlen) fun x hx => hne x (List.mem_cons_of_mem u hx)]
      congr 1
      cases pre with
      | nil => rfl
      | cons b pre =>
          rw [List.getLast?_cons_cons, List.getLast?_eq_some_getLast (List.cons_ne_nil b pre), Option.some_or,
            Option.some_or]

end

/-! ### The loops over the chain -/

section
variable {as : List ℕ} {vs : List MemBlock}

lemma freeMem_of_no_block {m : CMem} (hl : Linked m.heap m.m_pMem as vs) (hfuel : as.length ≤ m.allocated)
    (place : Place) {ptr : ℕ} (hne : ∀ v ∈ vs, v.pAddr ≠ ptr) :
    freeMem m place ptr = some ([.badFree place], m) := by
  have hl' : Linked m.heap m.m_pMem (as ++ []) (vs ++ []) := by rwa [List.append_nil, List.append_nil]
  rw [freeMem, show m.allocated + 1 = m.allocated - as.length + 1 + as.length by omega,
    freeLoop_past hl' hl.length_eq.symm hne]
  rfl

/-- **The block of the pointer is taken out of the chain.** -/
lemma freeMem_of_block {m : CMem} {pre post : List ℕ} {us ws : List MemBlock} {a : ℕ} {v : MemBlock}
    (hl : Linked m.heap m.m_pMem (pre ++ a :: post) (us ++ v :: ws)) (hlen : us.length = pre.length)
    (hnodup : (pre ++ a :: post).Nodup) (hfuel : (pre ++ a :: post).length ≤ m.allocated) (place : Place)
    (hne : ∀ u ∈ us, u.pAddr ≠ v.pAddr) :
    ∃ m', freeMem m place v.pAddr = some (if slice m.bytes (v.pAddr + v.iSize) PROTECT_TAIL_SIZE ≠
          List.replicate PROTECT_TAIL_SIZE MAGIC_NUMBER then [.overFlow place] else [], m') ∧
      m'.bytes = m.bytes ∧ m'.allocated = m.allocated ∧ Linked m'.heap m'.m_pMem (pre ++ post) (us ++ ws) := by
  obtain ⟨fuel, hfuel'⟩ : ∃ fuel, m.allocated + 1 = fuel + 1 + pre.length := by
    rw [List.length_append] at hfuel
    exact ⟨m.allocated - pre.length, by omega⟩
  have hpast : freeLoop m place v.pAddr (fuel + 1 + pre.length) none m.m_pMem =
      freeLoop m place v.pAddr (fuel + 1) (pre.getLast?.or none) (some a) :=
    freeLoop_past hl hlen hne
  rcases List.eq_nil_or_concat' pre with rfl | ⟨front, r, rfl⟩
  · have hus : us = [] := List.length_eq_zero_iff.1 hlen
    subst hus
    have hfront := hl.front_eq
    rw [List.nil_append, List.head?_cons] at hfront
    rw [hfront] at hl
    obtain ⟨c, hc, hvalue, hrest⟩ := hl.uncons
    refine ⟨{ m with heap := Function.update m.heap a none, m_pMem := c.next }, ?_, rfl, rfl, ?_⟩
    · rw [freeMem, hfuel', hpast, List.getLast?_nil, Option.none_or, freeLoop, hc, Option.bind_some,
        if_pos (by rw [hvalue])]
      dsimp only
      rw [hvalue]
    · refine hrest.congr fun b hb => Function.update_of_ne ?_ _ _
      rintro rfl
      exact (List.nodup_cons.1 hnodup).1 hb
  · obtain ⟨us', u, rfl⟩ := (List.eq_nil_or_concat' us).resolve_left fun h => by simp [h] at hlen
    have hlen' : us'.length = front.length := by simpa using hlen
    rw [List.append_assoc, List.append_assoc] at hl
    rw [List.append_assoc] at hnodup
    obtain ⟨c, n, hc, -, hn, hvalue, htaken⟩ := hl.takeOut hlen' hnodup
    refine ⟨{ m with heap := Function.update (Function.update m.heap r (some { c with next := n.next })) a none },
      ?_, rfl, rfl, ?_⟩
    · rw [freeMem, hfuel', hpast, List.getLast?_concat, Option.some_or, freeLoop, hn, Option.bind_some,
        if_pos (by rw [hvalue])]
      dsimp only
      rw [hc, Option.map_some, hvalue]
    · rw [List.append_assoc, List.append_assoc]
      exact htaken

/-- The destructor goes over the chain. -/
lemma leakLoop_eq {fuel : ℕ} : ∀ {as : List ℕ} {heap : Heap MemBlock} {p : Option ℕ} {vs : List MemBlock},
    Linked heap p as vs → as.Nodup → as.length < fuel →
      leakLoop fuel heap p = some (vs.map fun v => (v.place, v.iSize)) := by
  induction fuel with
  | zero => exact fun _ _ h => absurd h (Nat.not_lt_zero _)
  | succ fuel ih =>
      intro as heap p vs hl hnodup hfuel
      cases hl with
      | nil => rfl
      | @cons a c as vs hc hrest =>
          rw [List.nodup_cons] at hnodup
          have hrest' : Linked (Function.update heap a none) c.next as vs :=
            hrest.congr fun b hb => Function.update_of_ne (ne_of_mem_of_not_mem hb hnodup.1) _ _
          rw [leakLoop, hc, Option.bind_some, ih hrest' hnodup.2 (Nat.lt_of_succ_lt_succ hfuel)]
          rfl

/-- The sizes are added up as an `int`. -/
lemma printLoop_eq {heap : Heap MemBlock} {p : Option ℕ} (hl : Linked heap p as vs) :
    ∀ {fuel : ℕ} (total : ℤ), as.length < fuel → printLoop heap fuel p (Int.bmod total (2 ^ 32)) =
      some (Int.bmod (total + (vs.map fun v => (v.iSize : ℤ)).sum) (2 ^ 32)) := by
  induction hl with
  | nil =>
      intro fuel total hfuel
      obtain ⟨fuel, rfl⟩ := Nat.exists_eq_add_one_of_ne_zero (Nat.pos_iff_ne_zero.1 hfuel)
      rw [printLoop, List.map_nil, List.sum_nil, Int.add_zero]
  | @cons a c as vs hc hrest ih =>
      intro fuel total hfuel
      obtain ⟨fuel, rfl⟩ := Nat.exists_eq_add_one_of_ne_zero (Nat.pos_iff_ne_zero.1 (Nat.zero_lt_of_lt hfuel))
      rw [printLoop, hc, Option.bind_some, Int.bmod_add_bmod, ih _ (Nat.lt_of_succ_lt_succ hfuel),
        List.map_cons, List.sum_cons, Int.add_assoc]

end

/-! ### The invariant -/

/-- The headers of the blocks in use are the chain, in order; the blocks have no byte in common, and the bytes
behind each are as the program has left them. -/
structure Inv (w : Watched) : Prop where
  chain : Linked w.mem.heap w.mem.m_pMem (w.live.map Live.addr) (w.live.map Live.block)
  apart : w.live.Pairwise fun e e' => e.behind ≤ e'.addr ∨ e'.behind ≤ e.addr
  tails : ∀ e ∈ w.live, e.tail = slice w.mem.bytes (e.ptr + e.size) PROTECT_TAIL_SIZE
  room : w.live.length ≤ w.mem.allocated

lemma Live.addr_lt_behind (e : Live) : e.addr < e.behind := by
  rw [Live.behind, Live.ptr, MEM_BLOCK_SIZE, PROTECT_TAIL_SIZE]
  omega

namespace Inv

variable {w : Watched}

lemma nodup (h : Inv w) : (w.live.map Live.addr).Nodup := by
  refine List.pairwise_map.2 (h.apart.imp @fun e e' hapart heq => ?_)
  have h1 := e.addr_lt_behind
  have h2 := e'.addr_lt_behind
  omega

/-- **A request** makes a block behind the others. -/
lemma mallocMem (h : Inv w) {place : Place} {size a : ℕ} (hfree : Possible w (.mallocMem place size (some a))) :
    ∃ m', MemLib.mallocMem w.mem place size (some a) = some (some (a + MEM_BLOCK_SIZE), [], m') ∧
      Inv ⟨m', w.live ++ [⟨a, size, place, List.replicate PROTECT_TAIL_SIZE MAGIC_NUMBER⟩]⟩ := by
  have ha : a ∉ w.live.map Live.addr := by
    rintro hmem
    obtain ⟨e, he, rfl⟩ := List.mem_map.1 hmem
    have hlt := e.addr_lt_behind
    have hapart := hfree e he
    have hsize : 0 < MEM_BLOCK_SIZE := by decide
    omega
  have hlen : (w.live.map Live.addr).length ≤ w.mem.allocated := by
    rw [List.length_map]
    exact h.room
  obtain ⟨r, hr, hlinked⟩ := link_linked h.chain h.nodup hlen ha ⟨a + MEM_BLOCK_SIZE, size, place⟩
  refine ⟨_, by rw [MemLib.mallocMem, hr, Option.map_some], ?_, ?_, fun e he => ?_, ?_⟩
  · rw [List.map_append, List.map_append]
    exact hlinked
  · refine List.pairwise_append.2 ⟨h.apart, List.pairwise_singleton _ _, fun e he e' he' => ?_⟩
    rw [List.mem_singleton.1 he']
    exact (hfree e he).symm
  · rcases List.mem_append.1 he with he | he
    · -- the ten bytes of the new block are behind it, and so behind or in front of those of another
      rw [h.tails e he]
      refine slice_congr fun k hk hk' => ?_
      dsimp only
      have hbehind : e.behind = e.ptr + e.size + PROTECT_TAIL_SIZE := rfl
      have hptr : e.ptr = e.addr + MEM_BLOCK_SIZE := rfl
      rcases hfree e he with hle | hle
      · rw [poke_behind _ (by rw [List.length_replicate]; omega)]
      · rw [poke, if_neg (by omega)]
    · rw [List.mem_singleton.1 he]
      have hslice := slice_poke w.mem.bytes (a + MEM_BLOCK_SIZE + size)
        (List.replicate PROTECT_TAIL_SIZE MAGIC_NUMBER)
      rw [List.length_replicate] at hslice
      exact hslice.symm
  · rw [List.length_append, List.length_singleton]
    exact Nat.succ_le_succ h.room

/-- **`FreeMem`** takes out the block of the pointer, if there is one. -/
lemma freeMem (h : Inv w) (place : Place) (ptr : ℕ) :
    ∃ reports m', MemLib.freeMem w.mem place ptr = some (reports, m') ∧
      (meaning w.live (.freeMem place ptr)).1 = (none, reports) ∧
      Inv ⟨m', (meaning w.live (.freeMem place ptr)).2⟩ := by
  have hlen : (w.live.map Live.addr).length ≤ w.mem.allocated := by
    rw [List.length_map]
    exact h.room
  cases hfind : w.live.find? fun e => e.ptr = ptr with
  | none =>
      have hmeaning : meaning w.live (.freeMem place ptr) = ((none, [.badFree place]), w.live) := by
        simp only [meaning, hfind]
      rw [hmeaning]
      refine ⟨_, w.mem, freeMem_of_no_block h.chain hlen place fun v hv => ?_, rfl, h⟩
      obtain ⟨e, he, rfl⟩ := List.mem_map.1 hv
      have hne := List.find?_eq_none.1 hfind e he
      rwa [decide_eq_true_eq] at hne
  | some e =>
      have hmeaning : meaning w.live (.freeMem place ptr) =
          ((none, if e.Overrun then [.overFlow place] else []), w.live.eraseP fun e => e.ptr = ptr) := by
        simp only [meaning, hfind]
      obtain ⟨hptr, pre, post, hlive, hpre⟩ := List.find?_eq_some_iff_append.1 hfind
      rw [decide_eq_true_eq] at hptr
      have hother : ∀ x ∈ pre, x.ptr ≠ ptr := fun x hx => by simpa using hpre x hx
      have herase : (w.live.eraseP fun e => e.ptr = ptr) = pre ++ post := by
        rw [hlive, List.eraseP_append_right _ fun x hx => by simpa using hother x hx,
          List.eraseP_cons_of_pos (by simpa using hptr)]
      have he : e ∈ w.live := by
        rw [hlive]
        exact List.mem_append_right pre List.mem_cons_self
      have hchain := h.chain
      have hnodup := h.nodup
      rw [hlive, List.map_append, List.map_cons, List.map_append, List.map_cons] at hchain
      rw [hlive, List.map_append, List.map_cons] at hnodup hlen
      obtain ⟨m', hrun, hbytes, hallocated, hlinked⟩ := freeMem_of_block hchain (by simp) hnodup hlen place
        fun u hu => by
          obtain ⟨x, hx, rfl⟩ := List.mem_map.1 hu
          exact fun heq => hother x hx (heq.trans hptr)
      have hsub : List.Sublist (pre ++ post) w.live := by
        rw [hlive]
        exact List.Sublist.append_left (List.sublist_cons_self e post) pre
      rw [hmeaning, herase]
      refine ⟨_, m', by rw [← hptr]; exact hrun, ?_, ?_, h.apart.sublist hsub, fun x hx => ?_, ?_⟩
      · refine congrArg (Prod.mk none) (if_congr ?_ rfl rfl)
        rw [Live.Overrun, h.tails e he]
        rfl
      · rw [List.map_append, List.map_append]
        exact hlinked
      · rw [hbytes]
        exact h.tails x (hsub.subset hx)
      · rw [hallocated]
        exact hsub.length_le.trans h.room

/-- **A store of the program** changes the bytes behind the blocks, and no header. -/
lemma store (h : Inv w) (p : ℕ) (bs : List UInt8) :
    Inv ⟨{ w.mem with bytes := poke w.mem.bytes p bs }, w.live.map fun e => e.stored p bs⟩ where
  chain := by
    rw [List.map_map, List.map_map]
    exact h.chain
  apart := List.pairwise_map.2 h.apart
  tails e' he' := by
    obtain ⟨e, he, rfl⟩ := List.mem_map.1 he'
    refine List.ext_getElem? fun i => ?_
    show (e.tail.mapIdx fun i x => poke (fun _ => x) p bs (e.ptr + e.size + i))[i]? =
      (slice (poke w.mem.bytes p bs) (e.ptr + e.size) PROTECT_TAIL_SIZE)[i]?
    rw [List.getElem?_mapIdx, h.tails e he, slice, slice, List.getElem?_map, List.getElem?_map]
    by_cases hi : i < PROTECT_TAIL_SIZE
    · rw [List.getElem?_range hi]
      rfl
    · rw [List.getElem?_eq_none (by rw [List.length_range]; omega)]
      rfl
  room := by
    rw [List.length_map]
    exact h.room

/-- **One call**, or one store. -/
lemma call (h : Inv w) {c : Call} (hc : Possible w c) :
    ∃ m', MemLib.call w.mem c = some ((meaning w.live c).1, m') ∧ Inv ⟨m', (meaning w.live c).2⟩ := by
  cases c with
  | mallocMem place size pMemBlock =>
      cases pMemBlock with
      | none => exact ⟨w.mem, rfl, h⟩
      | some a =>
          obtain ⟨m', hrun, hinv⟩ := h.mallocMem hc
          exact ⟨m', by rw [MemLib.call, hrun]; rfl, hinv⟩
  | freeMem place ptr =>
      obtain ⟨reports, m', hrun, hmeaning, hinv⟩ := h.freeMem place ptr
      exact ⟨m', by rw [MemLib.call, hrun, hmeaning]; rfl, hinv⟩
  | store p bs => exact ⟨_, rfl, h.store p bs⟩

lemma step (h : Inv w) {c : Call} (hc : Possible w c) :
    Right w c ∧ ∃ w', MemLib.step w c = some w' ∧ w'.live = (meaning w.live c).2 ∧ Inv w' := by
  obtain ⟨m', hrun, hinv⟩ := h.call hc
  refine ⟨by rw [Right, hrun]; rfl, ⟨m', (meaning w.live c).2⟩, by rw [MemLib.step, hrun]; rfl, rfl, hinv⟩

end Inv

lemma inv_start (bytes : Bytes) : Inv (start bytes) :=
  ⟨.nil, List.Pairwise.nil, fun _ he => absurd he List.not_mem_nil, Nat.le_refl 0⟩

/-- **The checker is exact.**  Take a run of requests, calls of `FreeMem` with any pointers and stores of the
program, in which `malloc` gives free memory and the program leaves the headers alone.  Every call returns,
and prints what it means for the blocks in use: `FreeMem` reports that a block was overrun exactly if the
stores have changed the ten bytes behind it, and a bad pointer exactly if no block in use begins there.  At
the end the destructor prints the blocks that were not freed, in the order of their requests, and
`PrintMem` the sum of their sizes, as an `int`. -/
theorem checker_exact (bytes : Bytes) (calls : List Call) (h : Along step Possible (start bytes) calls) :
    Along step Right (start bytes) calls ∧ ∃ w, run step (start bytes) calls = some w ∧
      leaks w.mem = some (w.live.map fun e => (e.place, e.size)) ∧
      printMem w.mem = some (Int.bmod (w.live.map fun e => (e.size : ℤ)).sum (2 ^ 32)) := by
  constructor
  · refine along (I := Inv) (fun w c hinv hc => ?_) (inv_start bytes) h
    obtain ⟨hright, w', hw', -, hinv'⟩ := hinv.step hc
    exact ⟨hright, fun w₁ hw₁ => Option.some.inj (hw'.symm.trans hw₁) ▸ hinv'⟩
  · obtain ⟨w, hrun, hinv⟩ := progress (I := Inv) (fun w c hinv hc => by
      obtain ⟨-, w', hw', -, hinv'⟩ := hinv.step hc
      exact ⟨w', hw', hinv'⟩) (inv_start bytes) h
    have hroom : (w.live.map Live.addr).length < w.mem.allocated + 1 := by
      rw [List.length_map]
      exact Nat.lt_succ_of_le hinv.room
    refine ⟨w, hrun, ?_, ?_⟩
    · rw [leaks, leakLoop_eq hinv.chain hinv.nodup hroom, List.map_map]
      rfl
    · have hsum := printLoop_eq hinv.chain 0 hroom
      rw [Int.zero_bmod, Int.zero_add, List.map_map] at hsum
      exact hsum

instance possibleDecidable (w : Watched) : DecidablePred (Possible w)
  | .mallocMem _ _ (some _) => inferInstanceAs (Decidable (∀ e ∈ w.live, _ ∨ _))
  | .mallocMem _ _ none => inferInstanceAs (Decidable True)
  | .freeMem _ _ => inferInstanceAs (Decidable True)
  | .store _ _ => inferInstanceAs (Decidable (∀ e ∈ w.live, _ ∨ _))

/-- The calls alone say what becomes of the blocks in use. -/
lemma live_of_run {calls : List Call} : ∀ {w w' : Watched}, run step w calls = some w' →
    w'.live = calls.foldl (fun live c => (meaning live c).2) w.live := by
  induction calls with
  | nil =>
      intro w w' hrun
      rw [← Option.some.inj hrun]
      rfl
  | cons c calls ih =>
      intro w w' hrun
      rw [run_cons, Option.bind_eq_some_iff] at hrun
      obtain ⟨w₁, hw₁, hrun⟩ := hrun
      obtain ⟨r, -, rfl⟩ := Option.map_eq_some_iff.1 hw₁
      exact ih hrun

/-- Two requests; a store over the end of the first block, which is then freed twice. -/
def sampleCalls : List Call :=
  [.mallocMem ⟨['a'], 1⟩ 4 (some 8), .mallocMem ⟨['a'], 2⟩ 8 (some 48), .store 28 [1, 2, 3, 4, 5],
    .freeMem ⟨['a'], 3⟩ 28, .freeMem ⟨['a'], 4⟩ 28]

/-- The second block is left, and is printed. -/
theorem checker_exact_sample : Along step Right (start fun _ => 0) sampleCalls ∧
    (run step (start fun _ => 0) sampleCalls).bind (fun w => leaks w.mem) = some [(⟨['a'], 2⟩, 8)] ∧
    (run step (start fun _ => 0) sampleCalls).bind (fun w => printMem w.mem) = some 8 := by
  obtain ⟨hright, w, hrun, hleaks, hprint⟩ := checker_exact (fun _ => 0) sampleCalls (by decide)
  have hlive : w.live = [⟨48, 8, ⟨['a'], 2⟩, List.replicate PROTECT_TAIL_SIZE MAGIC_NUMBER⟩] := by
    rw [live_of_run hrun]
    rfl
  rw [hrun, Option.bind_some, Option.bind_some, hleaks, hprint, hlive]
  exact ⟨hright, rfl, rfl⟩

/-! ### No false alarm -/

/-- The program stays inside its blocks and frees each of them at most once, and `malloc` does not fail. -/
def Careful (w : Watched) : Call → Prop
  | .mallocMem _ _ pMemBlock => pMemBlock ≠ none
  | .freeMem _ ptr => ∃ e ∈ w.live, e.ptr = ptr
  | .store p bs => ∃ e ∈ w.live, e.ptr ≤ p ∧ p + bs.length ≤ e.ptr + e.size

/-- The call returns and prints nothing. -/
def Silent (w : Watched) (c : Call) : Prop := (call w.mem c).map (fun r => r.1.2) = some []

/-- A store elsewhere leaves the bytes behind a block alone. -/
lemma Live.stored_eq {e : Live} (hlen : e.tail.length = PROTECT_TAIL_SIZE) {p : ℕ} {bs : List UInt8}
    (h : p + bs.length ≤ e.ptr + e.size ∨ e.behind ≤ p) : e.stored p bs = e := by
  have htail : (e.tail.mapIdx fun i x => poke (fun _ => x) p bs (e.ptr + e.size + i)) = e.tail := by
    refine List.ext_getElem? fun i => ?_
    rw [List.getElem?_mapIdx]
    cases hx : e.tail[i]? with
    | none => rfl
    | some x =>
        have hi : i < PROTECT_TAIL_SIZE := hlen ▸ (List.getElem?_eq_some_iff.1 hx).1
        have hbehind : e.behind = e.ptr + e.size + PROTECT_TAIL_SIZE := rfl
        rw [Option.map_some]
        rcases h with h | h
        · rw [poke_behind _ (by omega)]
        · rw [poke, if_neg (by omega)]
  rw [Live.stored, htail]

/-- The invariant of a careful program. -/
structure Clean (w : Watched) : Prop extends Inv w where
  whole : ∀ e ∈ w.live, ¬ e.Overrun

lemma Clean.meaning {w : Watched} (h : Clean w) {c : Call} (hc : Careful w c) :
    (meaning w.live c).1.2 = [] ∧ ∀ e ∈ (MemLib.meaning w.live c).2, ¬ e.Overrun := by
  cases c with
  | mallocMem place size pMemBlock =>
      obtain ⟨a, rfl⟩ := Option.ne_none_iff_exists'.1 hc
      refine ⟨rfl, fun e he => ?_⟩
      rcases List.mem_append.1 he with he | he
      · exact h.whole e he
      · rw [List.mem_singleton.1 he, Live.Overrun, not_not]
  | freeMem place ptr =>
      cases hfind : w.live.find? fun e => e.ptr = ptr with
      | none =>
          obtain ⟨e, he, hptr⟩ := hc
          exact absurd (decide_eq_true hptr) (List.find?_eq_none.1 hfind e he)
      | some e =>
          have he := List.mem_of_find?_eq_some hfind
          simp only [MemLib.meaning, hfind]
          exact ⟨if_neg (h.whole e he), fun x hx => h.whole x (List.mem_of_mem_eraseP hx)⟩
  | store p bs =>
      obtain ⟨e, he, hge, hle⟩ := hc
      refine ⟨rfl, fun x' hx' => ?_⟩
      obtain ⟨x, hx, rfl⟩ := List.mem_map.1 hx'
      have hlen : x.tail.length = PROTECT_TAIL_SIZE := by rw [h.tails x hx, length_slice]
      have hapart : p + bs.length ≤ x.ptr + x.size ∨ x.behind ≤ p := by
        by_cases hsame : e = x
        · rw [← hsame]
          exact Or.inl hle
        · have hsymm : Std.Symm fun e e' : Live => e.behind ≤ e'.addr ∨ e'.behind ≤ e.addr :=
            ⟨fun _ _ h => h.symm⟩
          have hbehind : e.behind = e.ptr + e.size + PROTECT_TAIL_SIZE := rfl
          have hptr : e.ptr = e.addr + MEM_BLOCK_SIZE := rfl
          have hptr' : x.ptr = x.addr + MEM_BLOCK_SIZE := rfl
          rcases h.apart.forall he hx hsame with hbefore | hbefore
          · exact Or.inl (by omega)
          · exact Or.inr (by omega)
      rw [Live.stored_eq hlen hapart]
      exact h.whole x hx

/-- **No false alarm.**  In a run in which `malloc` gives free memory, a program that stays inside its blocks and
frees none of them twice is told of nothing. -/
theorem careful_program_silent (bytes : Bytes) (calls : List Call)
    (h : Along step (fun w c => Possible w c ∧ Careful w c) (start bytes) calls) :
    Along step Silent (start bytes) calls := by
  refine along (I := Clean) (fun w c hclean hc => ?_)
    ⟨inv_start bytes, fun _ he => absurd he List.not_mem_nil⟩ h
  obtain ⟨hright, w', hw', hlive, hinv⟩ := hclean.toInv.step hc.1
  obtain ⟨hsilent, hwhole⟩ := hclean.meaning hc.2
  constructor
  · have hreports := congrArg (Option.map Prod.snd) hright
    rw [Option.map_map, Option.map_some, hsilent] at hreports
    exact hreports
  · intro w₁ hw₁
    rw [← Option.some.inj (hw'.symm.trans hw₁)]
    exact ⟨hinv, by rw [hlive]; exact hwhole⟩

/-- A block that is written to its last byte and freed. -/
theorem careful_program_silent_one : Along step Silent (start fun _ => 0)
    [.mallocMem ⟨['a'], 1⟩ 4 (some 8), .store 28 [1, 2, 3, 4], .freeMem ⟨['a'], 2⟩ 28] := by
  refine careful_program_silent _ _ ⟨⟨by decide, Option.some_ne_none _⟩, fun w₁ hw₁ => ?_⟩
  obtain rfl := Option.some.inj hw₁
  refine ⟨⟨by decide, ?_⟩, fun w₂ hw₂ => ?_⟩
  · exact ⟨_, List.mem_singleton_self _, by decide, by decide⟩
  · obtain rfl := Option.some.inj hw₂
    exact ⟨⟨trivial, ⟨_, List.mem_singleton_self _, rfl⟩⟩, fun _ _ => trivial⟩

end DeviceTools.MemLib
