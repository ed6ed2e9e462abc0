/-
The DES of the code is the DES of the standard.

The shifts and masks of the code are compared with the tables of the standard on blocks with one
bit.  The code keeps both halves rotated by one place, has the bits of a key of the standard in
two words, four groups of six in each, and its tables are the S-boxes with the permutation behind
them.  With this correspondence of halves and keys the rounds of the code are those of the standard.
-/
import DeviceTools.Ic.TripleDes
import DeviceTools.Ic.DesStandard

namespace DeviceTools.Ic

open CbcMac XorLinear DesStandard

section Linear

variable {α : Type*} [XorOp α]

lemma linear_deltaSwap {g : α → Word × Word} (hg : Linear g) (s : ℕ) (m : Word) :
    Linear fun a => deltaSwap s m (g a) := by
  have hT : Linear fun p : Word × Word => ((p.1 >>> s) ^^^ p.2) &&& m :=
    ((linear_fst.ushiftRight s).xor linear_snd).and m
  exact Linear.comp (g := deltaSwap s m) ((linear_fst.xor (hT.shiftLeft s)).pair (linear_snd.xor hT)) hg

lemma linear_rotl {g : α → Word} (hg : Linear g) : Linear fun a => rotl (g a) := by
  simp only [rotl_eq]
  exact hg.rotateLeft 1

lemma linear_select {m n : ℕ} {g : α → BitVec n} (hg : Linear g) (table : Vector ℕ m) :
    Linear fun a => select table (g a) := hg.ofFnBE fun i => table.get i - 1

lemma linear_group {g : α → BitVec 48} (hg : Linear g) (j : ℕ) : Linear fun a => group (g a) j :=
  hg.extract (42 - 6 * j) 6

end Linear

/-! ### The permutation of a block -/

/-- The halves of a block of the standard as the code keeps them. -/
def ipHalves (p : Word × Word) : Word × Word :=
  let m := select IP (p.1 ++ p.2)
  (rotl (m.extractLsb' 32 32), rotl (m.extractLsb' 0 32))

lemma linear_desIP : Linear fun p : Word × Word => desIP p.1 p.2 := by
  have hswap : Linear fun p : Word × Word => p.swap := linear_snd.pair linear_fst
  have hq := linear_deltaSwap (linear_deltaSwap (hswap.comp (linear_deltaSwap (linear_deltaSwap
    (linear_id (α := Word × Word)) 4 0x0F0F0F0F) 16 0x0000FFFF)) 2 0x33333333) 8 0x00FF00FF
  have hr := linear_deltaSwap ((linear_snd.comp hq).pair (linear_rotl (linear_fst.comp hq))) 0 0xAAAAAAAA
  simp only [desIP_eq]
  exact (linear_rotl (linear_fst.comp hr)).pair (linear_snd.comp hr)

lemma linear_ipHalves : Linear ipHalves := by
  have hm : Linear fun p : Word × Word => select IP (p.1 ++ p.2) := linear_select (linear_fst.append linear_snd) IP
  exact (linear_rotl (hm.extract 32 32)).pair (linear_rotl (hm.extract 0 32))

lemma desIP_eq_ipHalves (X Y : Word) : desIP X Y = ipHalves (X, Y) :=
  congrFun (linear_desIP.ext_pair linear_ipHalves (by decide +kernel) (by decide +kernel) (by decide +kernel)) (X, Y)

lemma getMsbD_select {n m : ℕ} (table : Vector ℕ m) (v : BitVec n) {i : ℕ} (hi : i < m) :
    (select table v).getMsbD i = v.getMsbD (table.get ⟨i, hi⟩ - 1) := by
  rw [select, BitVec.getMsbD_ofFnBE, dif_pos hi]

/-- `FP` is the inverse of `IP`. -/
lemma select_FP_IP (v : BitVec 64) : select FP (select IP v) = v := by
  have hplaces : ∀ i : Fin 64, ∃ h : FP.get i - 1 < 64, IP.get ⟨FP.get i - 1, h⟩ - 1 = i.val := by decide
  refine BitVec.eq_of_getMsbD_eq fun i hi => ?_
  obtain ⟨hlt, hplace⟩ := hplaces ⟨i, hi⟩
  rw [getMsbD_select FP _ hi]
  exact (getMsbD_select IP v hlt).trans (congrArg v.getMsbD hplace)

/-! ### The round function -/

/-- Four groups of six bits in the bytes of a word. -/
def pack (a b c d : BitVec 6) : Word :=
  (a.setWidth 32 <<< 24) ^^^ (b.setWidth 32 <<< 16) ^^^ (c.setWidth 32 <<< 8) ^^^ d.setWidth 32

/-- The two words of 48 bits. -/
def packKey (v : BitVec 48) : Word × Word :=
  (pack (group v 1) (group v 3) (group v 5) (group v 7), pack (group v 0) (group v 2) (group v 4) (group v 6))

lemma linear_pack {α : Type*} [XorOp α] {a b c d : α → BitVec 6} (ha : Linear a) (hb : Linear b) (hc : Linear c)
    (hd : Linear d) : Linear fun x => pack (a x) (b x) (c x) (d x) :=
  ((((ha.setWidth 32).shiftLeft 24).xor ((hb.setWidth 32).shiftLeft 16)).xor
    ((hc.setWidth 32).shiftLeft 8)).xor (hd.setWidth 32)

lemma linear_packKey {α : Type*} [XorOp α] {g : α → BitVec 48} (hg : Linear g) : Linear fun a => packKey (g a) :=
  (linear_pack (linear_group hg 1) (linear_group hg 3) (linear_group hg 5) (linear_group hg 7)).pair
    (linear_pack (linear_group hg 0) (linear_group hg 2) (linear_group hg 4) (linear_group hg 6))

lemma sixBits_eq (T : Word) : sixBits T = (T.setWidth 6).toFin := by
  refine Fin.ext ?_
  change (T &&& 0x3F).toNat = (T.setWidth 6).toNat
  rw [BitVec.toNat_and, BitVec.toNat_setWidth]
  exact Nat.and_two_pow_sub_one_eq_mod T.toNat 6

/-- The six bits of the groups of a packed word. -/
lemma setWidth_pack (a b c d : BitVec 6) :
    (pack a b c d >>> 24).setWidth 6 = a ∧ (pack a b c d >>> 16).setWidth 6 = b ∧
      (pack a b c d >>> 8).setWidth 6 = c ∧ (pack a b c d).setWidth 6 = d := by
  refine ⟨?_, ?_, ?_, ?_⟩ <;> ext i hi <;>
    simp only [pack, BitVec.getElem_setWidth, BitVec.getLsbD_setWidth, BitVec.getLsbD_ushiftRight,
      BitVec.getLsbD_xor, BitVec.getLsbD_shiftLeft] <;>
    grind

/-- The index of a table comes from six bits of each byte. -/
lemma setWidth_mask (T : Word) :
    ((T &&& 0x3F3F3F3F) >>> 24).setWidth 6 = (T >>> 24).setWidth 6 ∧
      ((T &&& 0x3F3F3F3F) >>> 16).setWidth 6 = (T >>> 16).setWidth 6 ∧
      ((T &&& 0x3F3F3F3F) >>> 8).setWidth 6 = (T >>> 8).setWidth 6 ∧
      (T &&& 0x3F3F3F3F).setWidth 6 = T.setWidth 6 := by
  refine ⟨?_, ?_, ?_, ?_⟩
  · rw [BitVec.ushiftRight_and_distrib, BitVec.setWidth_and]
    exact BitVec.and_allOnes
  · rw [BitVec.ushiftRight_and_distrib, BitVec.setWidth_and]
    exact BitVec.and_allOnes
  · rw [BitVec.ushiftRight_and_distrib, BitVec.setWidth_and]
    exact BitVec.and_allOnes
  · rw [BitVec.setWidth_and]
    exact BitVec.and_allOnes

/-- The indices of the tables for a word whose groups are known. -/
lemma sixBits_of_mask {T : Word} {a b c d : BitVec 6} (h : T &&& 0x3F3F3F3F = pack a b c d) :
    sixBits (T >>> 24) = a.toFin ∧ sixBits (T >>> 16) = b.toFin ∧ sixBits (T >>> 8) = c.toFin ∧
      sixBits T = d.toFin := by
  obtain ⟨h1, h2, h3, h4⟩ := setWidth_mask T
  obtain ⟨g1, g2, g3, g4⟩ := setWidth_pack a b c d
  rw [h] at h1 h2 h3 h4
  simp only [sixBits_eq, ← h1, ← h2, ← h3, ← h4, g1, g2, g3, g4, and_self]

/-- The words of `T` in a round are the groups behind the expansion. -/
lemma expand_eq (K : BitVec 48) (R : BitVec 32) :
    (((packKey K).1 ^^^ rotl R) &&& 0x3F3F3F3F,
      ((packKey K).2 ^^^ ((rotl R <<< 28) ||| (rotl R >>> 4))) &&& 0x3F3F3F3F) = packKey (select E R ^^^ K) := by
  have hl : Linear fun p : BitVec 48 × BitVec 32 =>
      (((packKey p.1).1 ^^^ rotl p.2) &&& 0x3F3F3F3F, ((packKey p.1).2 ^^^ (rotl p.2).rotateLeft 28) &&& 0x3F3F3F3F) :=
    (((linear_fst.comp (linear_packKey linear_fst)).xor (linear_rotl linear_snd)).and _).pair
      (((linear_snd.comp (linear_packKey linear_fst)).xor ((linear_rotl linear_snd).rotateLeft 28)).and _)
  have hr : Linear fun p : BitVec 48 × BitVec 32 => packKey (select E p.2 ^^^ p.1) :=
    linear_packKey ((linear_select linear_snd E).xor linear_fst)
  exact congrFun (hl.ext_pair hr (by decide +kernel) (by decide +kernel) (by decide +kernel)) (K, R)

/-- The output of S-box `j` in its place, permuted and rotated. -/
def boxOut (j : Fin 8) (v : BitVec 6) : Word := rotl (select P ((sBox (S.get j) v).setWidth 32 <<< (28 - 4 * j.val)))

/-- The sum of the words of `u` that the bits of `w` choose, the lowest bit the first. -/
def spread (u : Word × Word × Word × Word) (w : BitVec 4) : Word :=
  (bif w.getLsbD 0 then u.1 else 0) ^^^ (bif w.getLsbD 1 then u.2.1 else 0) ^^^
    (bif w.getLsbD 2 then u.2.2.1 else 0) ^^^ (bif w.getLsbD 3 then u.2.2.2 else 0)

lemma cond_xor (p q : Bool) (u : Word) :
    (bif p ^^ q then u else 0) = (bif p then u else 0) ^^^ (bif q then u else 0) := by
  cases p <;> cases q <;> simp

lemma linear_spread (u : Word × Word × Word × Word) : Linear (spread u) := by
  intro a b
  simp only [spread, BitVec.getLsbD_xor, cond_xor]
  ac_rfl

/-- Where the bits of the S-boxes go, the lowest bit of a box first. -/
def boxBits : Vector (Word × Word × Word × Word) 8 := #v[
  (0x00000004, 0x00000400, 0x00010000, 0x01000000),
  (0x00008000, 0x80000000, 0x00000020, 0x00100000),
  (0x08000000, 0x00000008, 0x00020000, 0x00000200),
  (0x00000001, 0x00800000, 0x00002000, 0x00000080),
  (0x40000000, 0x00000100, 0x00080000, 0x02000000),
  (0x00004000, 0x00400000, 0x00000010, 0x20000000),
  (0x04000000, 0x00000800, 0x00200000, 0x00000002),
  (0x00001000, 0x00040000, 0x00000040, 0x10000000)]

lemma boxOut_eq_spread (j : Fin 8) (v : BitVec 6) : boxOut j v = spread (boxBits.get j) (sBox (S.get j) v) := by
  have hl : Linear fun w : BitVec 4 => rotl (select P (w.setWidth 32 <<< (28 - 4 * j.val))) :=
    linear_rotl (linear_select ((linear_id.setWidth 32).shiftLeft _) P)
  have hunits : ∀ j : Fin 8, ∀ i < 4, rotl (select P ((BitVec.twoPow 4 i).setWidth 32 <<< (28 - 4 * j.val))) =
      spread (boxBits.get j) (BitVec.twoPow 4 i) := by
    decide +kernel
  have hzero : ∀ j : Fin 8, rotl (select P ((0 : BitVec 4).setWidth 32 <<< (28 - 4 * j.val))) =
      spread (boxBits.get j) 0 := by
    decide +kernel
  exact congrFun (hl.ext (linear_spread (boxBits.get j)) (hzero j) (hunits j)) (sBox (S.get j) v)

/-- The tables of the code. -/
lemma tables (v : BitVec 6) :
    SB1.get v.toFin = boxOut 0 v ∧ SB2.get v.toFin = boxOut 1 v ∧ SB3.get v.toFin = boxOut 2 v ∧
      SB4.get v.toFin = boxOut 3 v ∧ SB5.get v.toFin = boxOut 4 v ∧ SB6.get v.toFin = boxOut 5 v ∧
      SB7.get v.toFin = boxOut 6 v ∧ SB8.get v.toFin = boxOut 7 v := by
  have h1 : ∀ i : Fin 64, SB1.get i = spread (boxBits.get 0) (sBox (S.get 0) (.ofFin i)) := by decide
  have h2 : ∀ i : Fin 64, SB2.get i = spread (boxBits.get 1) (sBox (S.get 1) (.ofFin i)) := by decide
  have h3 : ∀ i : Fin 64, SB3.get i = spread (boxBits.get 2) (sBox (S.get 2) (.ofFin i)) := by decide
  have h4 : ∀ i : Fin 64, SB4.get i = spread (boxBits.get 3) (sBox (S.get 3) (.ofFin i)) := by decide
  have h5 : ∀ i : Fin 64, SB5.get i = spread (boxBits.get 4) (sBox (S.get 4) (.ofFin i)) := by decide
  have h6 : ∀ i : Fin 64, SB6.get i = spread (boxBits.get 5) (sBox (S.get 5) (.ofFin i)) := by decide
  have h7 : ∀ i : Fin 64, SB7.get i = spread (boxBits.get 6) (sBox (S.get 6) (.ofFin i)) := by decide
  have h8 : ∀ i : Fin 64, SB8.get i = spread (boxBits.get 7) (sBox (S.get 7) (.ofFin i)) := by decide
  simp only [boxOut_eq_spread]
  exact ⟨h1 v.toFin, h2 v.toFin, h3 v.toFin, h4 v.toFin, h5 v.toFin, h6 v.toFin, h7 v.toFin, h8 v.toFin⟩

/-- Eight outputs side by side. -/
lemma append_eq_xor (a b c d e f g h : BitVec 4) :
    (a ++ b ++ c ++ d ++ e ++ f ++ g ++ h : BitVec 32) =
      a.setWidth 32 <<< 28 ^^^ b.setWidth 32 <<< 24 ^^^ c.setWidth 32 <<< 20 ^^^ d.setWidth 32 <<< 16 ^^^
        e.setWidth 32 <<< 12 ^^^ f.setWidth 32 <<< 8 ^^^ g.setWidth 32 <<< 4 ^^^ h.setWidth 32 <<< 0 := by
  ext i hi
  simp only [BitVec.getElem_append, BitVec.getElem_xor, BitVec.getElem_shiftLeft, BitVec.getElem_setWidth]
  grind

lemma sBoxes_out (v : BitVec 48) :
    rotl (select P (sBoxes v)) =
      boxOut 0 (group v 0) ^^^ boxOut 1 (group v 1) ^^^ boxOut 2 (group v 2) ^^^ boxOut 3 (group v 3) ^^^
        boxOut 4 (group v 4) ^^^ boxOut 5 (group v 5) ^^^ boxOut 6 (group v 6) ^^^ boxOut 7 (group v 7) := by
  have hxor : ∀ a b : Word, rotl (select P (a ^^^ b)) = rotl (select P a) ^^^ rotl (select P b) :=
    linear_rotl (linear_select linear_id P)
  rw [sBoxes, append_eq_xor]
  simp only [hxor]
  rfl

/-- **The round function of the code is that of the standard.** -/
lemma desF_packKey (K : BitVec 48) (R : BitVec 32) : desF (packKey K) (rotl R) = rotl (f K R) := by
  obtain ⟨h1, h3, h5, h7⟩ := sixBits_of_mask (congrArg Prod.fst (expand_eq K R))
  obtain ⟨h0, h2, h4, h6⟩ := sixBits_of_mask (congrArg Prod.snd (expand_eq K R))
  have ht (j : ℕ) := tables (group (select E R ^^^ K) j)
  rw [DesStandard.f, sBoxes_out, desF]
  simp only [h0, h1, h2, h3, h4, h5, h6, h7, ht]
  ac_rfl

/-! ### The keys -/

/-- The left half behind the tables of permuted choice 1. -/
def pc1Left (X : Word) : Word :=
  (LHs.get (fourBits X) <<< 3) ||| (LHs.get (fourBits (X >>> 8)) <<< 2) |||
  (LHs.get (fourBits (X >>> 16)) <<< 1) ||| LHs.get (fourBits (X >>> 24)) |||
  (LHs.get (fourBits (X >>> 5)) <<< 7) ||| (LHs.get (fourBits (X >>> 13)) <<< 6) |||
  (LHs.get (fourBits (X >>> 21)) <<< 5) ||| (LHs.get (fourBits (X >>> 29)) <<< 4)

/-- The right half behind the tables of permuted choice 1. -/
def pc1Right (Y : Word) : Word :=
  (RHs.get (fourBits (Y >>> 1)) <<< 3) ||| (RHs.get (fourBits (Y >>> 9)) <<< 2) |||
  (RHs.get (fourBits (Y >>> 17)) <<< 1) ||| RHs.get (fourBits (Y >>> 25)) |||
  (RHs.get (fourBits (Y >>> 4)) <<< 7) ||| (RHs.get (fourBits (Y >>> 12)) <<< 6) |||
  (RHs.get (fourBits (Y >>> 20)) <<< 5) ||| (RHs.get (fourBits (Y >>> 28)) <<< 4)

lemma desPC1_eq (X Y : Word) :
    desPC1 X Y =
      let q := deltaSwap 0 0x10101010 (deltaSwap 4 0x0F0F0F0F (Y, X))
      (pc1Left q.2 &&& 0x0FFFFFFF, pc1Right q.1 &&& 0x0FFFFFFF) := by
  simp only [deltaSwap, BitVec.shiftLeft_zero, BitVec.ushiftRight_zero]
  rfl

lemma fourBits_xor (v v' : Word) :
    BitVec.ofFin (w := 4) (fourBits (v ^^^ v')) = .ofFin (fourBits v) ^^^ .ofFin (fourBits v') := by
  refine BitVec.eq_of_toNat_eq ?_
  rw [BitVec.toNat_xor]
  change (fourBits (v ^^^ v')).val = (fourBits v).val ^^^ (fourBits v').val
  simp only [fourBits, ← BitVec.toNat_xor]
  congr 1
  ext i hi
  simp [Bool.and_xor_distrib_right]

/-- A table of four bits spread over the bytes. -/
lemma linearIn_table {α : Type*} [XorOp α] {g : α → Word} (hg : Linear g) {table : Vector Word 16} (u : Word × Word × Word × Word)
    (htable : ∀ i : Fin 16, table.get i = spread u (.ofFin i))
    (hmask : ∀ i : Fin 16, table.get i &&& 0x01010101 = table.get i) :
    LinearIn 0x01010101 fun a => table.get (fourBits (g a)) := by
  refine ⟨fun a b => ?_, fun a => hmask (fourBits (g a))⟩
  rw [htable, htable, htable, hg, fourBits_xor]
  exact linear_spread u _ _

lemma linear_pc1Left : Linear pc1Left := by
  have hLHs {g : Word → Word} (hg : Linear g) : LinearIn 0x01010101 fun a => LHs.get (fourBits (g a)) :=
    linearIn_table hg (LHs.get 1, LHs.get 2, LHs.get 4, LHs.get 8) (by decide) (by decide)
  have hpart (s k : ℕ) := (hLHs (linear_id.ushiftRight s)).shiftLeft k
  have hlow := ((((hLHs linear_id).shiftLeft 3).or (hpart 8 2) (by decide)).or (hpart 16 1) (by decide)).or
    (hLHs (linear_id.ushiftRight 24)) (by decide)
  have hall := (((hlow.or (hpart 5 7) (by decide)).or (hpart 13 6) (by decide)).or (hpart 21 5) (by decide)).or
    (hpart 29 4) (by decide)
  exact hall.linear

lemma linear_pc1Right : Linear pc1Right := by
  have hRHs {g : Word → Word} (hg : Linear g) : LinearIn 0x01010101 fun a => RHs.get (fourBits (g a)) :=
    linearIn_table hg (RHs.get 1, RHs.get 2, RHs.get 4, RHs.get 8) (by decide) (by decide)
  have hpart (s k : ℕ) := (hRHs (linear_id.ushiftRight s)).shiftLeft k
  have hlow := (((hpart 1 3).or (hpart 9 2) (by decide)).or (hpart 17 1) (by decide)).or
    (hRHs (linear_id.ushiftRight 25)) (by decide)
  have hall := (((hlow.or (hpart 4 7) (by decide)).or (hpart 12 6) (by decide)).or (hpart 20 5) (by decide)).or
    (hpart 28 4) (by decide)
  exact hall.linear

lemma linear_desPC1 : Linear fun p : Word × Word => desPC1 p.1 p.2 := by
  have hq := linear_deltaSwap (linear_deltaSwap (linear_snd.pair (linear_fst (α := Word) (β := Word))) 4 0x0F0F0F0F)
    0 0x10101010
  simp only [desPC1_eq]
  exact ((linear_pc1Left.comp (linear_snd.comp hq)).and _).pair ((linear_pc1Right.comp (linear_fst.comp hq)).and _)

/-- Permuted choice 1 of the code is that of the standard. -/
lemma desPC1_eq_select (X Y : Word) :
    desPC1 X Y = ((select PC1C (X ++ Y)).setWidth 32, (select PC1D (X ++ Y)).setWidth 32) := by
  have happ : Linear fun p : Word × Word => p.1 ++ p.2 := linear_fst.append linear_snd
  have hr : Linear fun p : Word × Word =>
      ((select PC1C (p.1 ++ p.2)).setWidth 32, (select PC1D (p.1 ++ p.2)).setWidth 32) :=
    ((linear_select happ PC1C).setWidth 32).pair ((linear_select happ PC1D).setWidth 32)
  exact congrFun (linear_desPC1.ext_pair hr (by decide +kernel) (by decide +kernel) (by decide +kernel)) (X, Y)

lemma ksRotate_setWidth (i : ℕ) (C : BitVec 28) :
    ksRotate i (C.setWidth 32) = (C.rotateLeft (shifts i)).setWidth 32 := by
  have hmask : (0x0FFFFFFF : Word) = (BitVec.allOnes 28).setWidth 32 := by decide
  rw [ksRotate, shifts, hmask]
  by_cases h : i < 2 ∨ i = 8 ∨ i = 15
  · rw [if_pos h, if_pos (by omega)]
    ext j hj
    simp only [BitVec.getElem_and, BitVec.getElem_or, BitVec.getElem_shiftLeft, BitVec.getElem_ushiftRight,
      BitVec.getElem_setWidth, BitVec.getLsbD_setWidth, BitVec.getLsbD_rotateLeft, BitVec.getLsbD_allOnes]
    grind
  · rw [if_neg h, if_neg (by omega)]
    ext j hj
    simp only [BitVec.getElem_and, BitVec.getElem_or, BitVec.getElem_shiftLeft, BitVec.getElem_ushiftRight,
      BitVec.getElem_setWidth, BitVec.getLsbD_setWidth, BitVec.getLsbD_rotateLeft, BitVec.getLsbD_allOnes]
    grind

lemma linear_subkey1 : Linear fun p : Word × Word => subkey1 p.1 p.2 := by
  unfold subkey1
  apply LinearIn.linear
  repeat' apply LinearIn.or
  all_goals first
    | exact (linear_fst.shiftLeft _).inMask _
    | exact (linear_fst.ushiftRight _).inMask _
    | exact (linear_snd.shiftLeft _).inMask _
    | exact (linear_snd.ushiftRight _).inMask _
    | exact linear_snd.inMask _
    | decide

lemma linear_subkey2 : Linear fun p : Word × Word => subkey2 p.1 p.2 := by
  unfold subkey2
  apply LinearIn.linear
  repeat' apply LinearIn.or
  all_goals first
    | exact (linear_fst.shiftLeft _).inMask _
    | exact (linear_fst.ushiftRight _).inMask _
    | exact (linear_snd.shiftLeft _).inMask _
    | exact (linear_snd.ushiftRight _).inMask _
    | exact linear_snd.inMask _
    | decide

/-- Permuted choice 2 of the code is that of the standard. -/
lemma subkeys_eq_packKey (C D : BitVec 28) :
    (subkey1 (C.setWidth 32) (D.setWidth 32), subkey2 (C.setWidth 32) (D.setWidth 32)) =
      packKey (select PC2 (C ++ D)) := by
  have hwide : Linear fun p : BitVec 28 × BitVec 28 => (p.1.setWidth 32, p.2.setWidth 32) :=
    (linear_fst.setWidth 32).pair (linear_snd.setWidth 32)
  have hl := (linear_subkey1.comp hwide).pair (linear_subkey2.comp hwide)
  have hr : Linear fun p : BitVec 28 × BitVec 28 => packKey (select PC2 (p.1 ++ p.2)) :=
    linear_packKey (linear_select (linear_fst.append linear_snd) PC2)
  exact congrFun (hl.ext_pair hr (by decide +kernel) (by decide +kernel) (by decide +kernel)) (C, D)

lemma schedule_setWidth (n : ℕ) : ∀ (i : ℕ) (C D : BitVec 28),
    schedule n i (C.setWidth 32) (D.setWidth 32) = (keysFrom n i C D).map packKey := by
  induction n with
  | zero => intros; rfl
  | succ n ih =>
      intro i C D
      rw [schedule, keysFrom, List.map_cons, ksRotate_setWidth, ksRotate_setWidth, subkeys_eq_packKey, ih]

/-! ### The blocks -/

/-- The bits of a block, the first byte leftmost. -/
def blockBits (b : Block 8) : BitVec 64 :=
  (byteAt b 0).toBitVec ++ (byteAt b 1).toBitVec ++ (byteAt b 2).toBitVec ++ (byteAt b 3).toBitVec ++
    (byteAt b 4).toBitVec ++ (byteAt b 5).toBitVec ++ (byteAt b 6).toBitVec ++ (byteAt b 7).toBitVec

lemma joinBytes_eq (a b c d : BitVec 8) : joinBytes a b c d = a ++ b ++ c ++ d := by
  ext i hi
  simp only [joinBytes, BitVec.getElem_or, BitVec.getElem_shiftLeft, BitVec.getElem_setWidth]
  grind

lemma blockBits_eq (b : Block 8) : blockBits b = (blockWords b).1 ++ (blockWords b).2 := by
  have h0 : (blockWords b).1 = joinBytes (byteAt b 0).toBitVec (byteAt b 1).toBitVec (byteAt b 2).toBitVec
      (byteAt b 3).toBitVec := rfl
  have h4 : (blockWords b).2 = joinBytes (byteAt b 4).toBitVec (byteAt b 5).toBitVec (byteAt b 6).toBitVec
      (byteAt b 7).toBitVec := rfl
  rw [h0, h4, joinBytes_eq, joinBytes_eq, blockBits]
  ext i hi
  simp only [BitVec.getElem_append]
  grind

lemma keySchedule_eq (key : Block 8) : keySchedule key = (keys (blockBits key)).map packKey := by
  rw [keySchedule, keys, ← schedule_setWidth, blockBits_eq, desPC1_eq_select]
  rfl

lemma rotl_injective : Function.Injective rotl := fun a b h => by rw [← rotr_rotl a, h, rotr_rotl]

/-- The block whose halves behind the initial permutation are `R` and `L`. -/
lemma append_desFP (R L : Word) : (desFP (rotl R) (rotl L)).1 ++ (desFP (rotl R) (rotl L)).2 = select FP (R ++ L) := by
  obtain ⟨p, hp⟩ : ∃ p, desFP (rotl R) (rotl L) = p := ⟨_, rfl⟩
  have hlast : ipHalves p = (rotl R, rotl L) := by
    rw [← hp, ← Prod.mk.eta (p := desFP (rotl R) (rotl L)), ← desIP_eq_ipHalves, desIP_desFP]
  have hcut (v : BitVec 64) : v.extractLsb' 32 32 ++ v.extractLsb' 0 32 = v := BitVec.extractLsb'_append_extractLsb'
  obtain ⟨hR, hL⟩ := Prod.mk.inj hlast
  rw [hp, ← rotl_injective hR, ← rotl_injective hL, hcut, select_FP_IP]

lemma rotl_xor (a b : Word) : rotl (a ^^^ b) = rotl a ^^^ rotl b := linear_rotl (linear_id (α := Word)) a b

/-- The sixteen rounds of the code are those of the standard, with both halves rotated. -/
lemma run_packKey (s : Word × Word) (ks : List (BitVec 48)) :
    Feistel.run desF (Prod.map rotl rotl s) (ks.map packKey) = Prod.map rotl rotl (Feistel.run f s ks) :=
  Feistel.run_map rotl_xor desF_packKey s ks

/-- A block through the network of the code is the block through that of the standard. -/
lemma blockBits_cipher (ks : List (BitVec 48)) (b : Block 8) :
    blockBits (cipher (ks.map packKey) b) = crypt ks (blockBits b) := by
  have hip : desIP (blockWords b).1 (blockWords b).2 = Prod.map rotl rotl
      ((select IP (blockBits b)).extractLsb' 32 32, (select IP (blockBits b)).extractLsb' 0 32) := by
    rw [desIP_eq_ipHalves, blockBits_eq]
    rfl
  rw [cipher, hip, run_packKey, blockBits_eq (wordsBlock _), blockWords_wordsBlock]
  exact append_desFP _ _

/-- **The code encrypts and decrypts as the standard says**, for every key and block and whatever the
context and the buffer held before. -/
theorem des_eq_standard (ctx : DesContext) (key b output : Block 8) :
    blockBits (desEncrypt (desSetKey ctx key) b output) = encrypt (blockBits key) (blockBits b) ∧
      blockBits (desDecrypt (desSetKey ctx key) b output) = decrypt (blockBits key) (blockBits b) := by
  rw [desEncrypt_eq, desDecrypt_eq, desE, desD, keySchedule_eq, ← List.map_reverse, blockBits_cipher, blockBits_cipher]
  exact ⟨rfl, rfl⟩

end DeviceTools.Ic
