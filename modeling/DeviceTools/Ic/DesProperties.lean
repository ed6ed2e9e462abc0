/-
What the keys of the card's DES do.

The lowest bit of each byte of a key is a parity bit and has no part in the subkeys, so that a key
has 56 bits.  Complementing the key and the block complements the result.  Both are shown for the
tables of the standard and carried to the code.  With the DES of the code, the MAC under a key of
two equal halves is the plain chain of single DES.
-/
import DeviceTools.Ic.DesRefines

namespace DeviceTools.Ic

open CbcMac Memory XorLinear DesStandard

lemma append_inj {X Y X' Y' : Word} (h : X ++ Y = X' ++ Y') : X = X' ∧ Y = Y' := by
  have hleft (X Y : Word) : (X ++ Y).extractLsb' 32 32 = X := by
    ext i hi
    simp only [BitVec.getElem_extractLsb', BitVec.getLsbD_append]
    grind
  have hright (X Y : Word) : (X ++ Y).extractLsb' 0 32 = Y := by
    ext i hi
    simp only [BitVec.getElem_extractLsb', BitVec.getLsbD_append]
    grind
  exact ⟨by rw [← hleft X Y, h, hleft], by rw [← hright X Y, h, hright]⟩

lemma blockBits_injective : Function.Injective blockBits := by
  intro a b h
  rw [blockBits_eq, blockBits_eq] at h
  have hwords : blockWords a = blockWords b := Prod.ext (append_inj h).1 (append_inj h).2
  rw [← wordsBlock_blockWords a, hwords, wordsBlock_blockWords]

lemma append_and (a b c d e f g h m : BitVec 8) :
    (a ++ b ++ c ++ d ++ e ++ f ++ g ++ h) &&& (m ++ m ++ m ++ m ++ m ++ m ++ m ++ m) =
      (a &&& m) ++ (b &&& m) ++ (c &&& m) ++ (d &&& m) ++ (e &&& m) ++ (f &&& m) ++ (g &&& m) ++ (h &&& m) := by
  simp only [BitVec.and_append]

lemma append_not (a b c d e f g h : BitVec 8) :
    ~~~(a ++ b ++ c ++ d ++ e ++ f ++ g ++ h) = ~~~a ++ ~~~b ++ ~~~c ++ ~~~d ++ ~~~e ++ ~~~f ++ ~~~g ++ ~~~h := by
  simp only [BitVec.not_append]

/-! ### The parity bits -/

/-- A table that names no bit outside `m` chooses the same from `v` and from `v &&& m`. -/
lemma select_and {k n : ℕ} {table : Vector ℕ k} {m : BitVec n} (h : ∀ i : Fin k, m.getMsbD (table.get i - 1) = true)
    (v : BitVec n) : select table (v &&& m) = select table v := by
  refine BitVec.eq_of_getMsbD_eq fun i hi => ?_
  rw [getMsbD_select table _ hi, getMsbD_select table _ hi, BitVec.getMsbD_and]
  exact (congrArg _ (h ⟨i, hi⟩)).trans (Bool.and_true _)

/-- The subkeys come from the bits of a key that are not parity bits. -/
lemma keys_mask (key : BitVec 64) : keys (key &&& 0xFEFEFEFEFEFEFEFE) = keys key := by
  rw [keys, select_and (by decide), select_and (by decide), keys]

/-- Keys that differ in their parity bits only have the same subkeys. -/
lemma keySchedule_parity {key key' : Block 8} (h : ∀ i : Fin 8, key.get i &&& 0xFE = key'.get i &&& 0xFE) :
    keySchedule key = keySchedule key' := by
  have hbyte (i : ℕ) : (byteAt key i).toBitVec &&& 0xFE#8 = (byteAt key' i).toBitVec &&& 0xFE#8 := by
    by_cases hi : i < 8
    · rw [byteAt_of_lt key hi, byteAt_of_lt key' hi]
      exact UInt8.toBitVec_inj.2 (h ⟨i, hi⟩)
    · rw [byteAt, byteAt, dif_neg hi, dif_neg hi]
  have hbits : blockBits key &&& 0xFEFEFEFEFEFEFEFE = blockBits key' &&& 0xFEFEFEFEFEFEFEFE := by
    refine (append_and _ _ _ _ _ _ _ _ 0xFE#8).trans ?_
    simp only [hbyte]
    exact (append_and _ _ _ _ _ _ _ _ 0xFE#8).symm
  rw [keySchedule_eq, keySchedule_eq, ← keys_mask, hbits, keys_mask]

/-- **The parity bits of a key do not matter**, neither for encryption nor for decryption. -/
theorem des_parity {key key' : Block 8} (h : ∀ i : Fin 8, key.get i &&& 0xFE = key'.get i &&& 0xFE)
    (ctx : DesContext) (b output : Block 8) :
    desEncrypt (desSetKey ctx key) b output = desEncrypt (desSetKey ctx key') b output ∧
      desDecrypt (desSetKey ctx key) b output = desDecrypt (desSetKey ctx key') b output := by
  rw [desEncrypt_eq, desEncrypt_eq, desDecrypt_eq, desDecrypt_eq, desE, desE, desD, desD, keySchedule_parity h]
  exact ⟨rfl, rfl⟩

theorem des_parity_zero_one :
    desEncrypt (desSetKey ⟨fun _ => 0, fun _ => 0⟩ (Vector.replicate 8 0)) (Vector.replicate 8 5) (Vector.replicate 8 0) =
        desEncrypt (desSetKey ⟨fun _ => 0, fun _ => 0⟩ (Vector.replicate 8 1)) (Vector.replicate 8 5) (Vector.replicate 8 0) ∧
      desDecrypt (desSetKey ⟨fun _ => 0, fun _ => 0⟩ (Vector.replicate 8 0)) (Vector.replicate 8 5) (Vector.replicate 8 0) =
        desDecrypt (desSetKey ⟨fun _ => 0, fun _ => 0⟩ (Vector.replicate 8 1)) (Vector.replicate 8 5) (Vector.replicate 8 0) :=
  des_parity (by decide) ⟨fun _ => 0, fun _ => 0⟩ (Vector.replicate 8 5) (Vector.replicate 8 0)

/-! ### The complement -/

/-- A table whose numbers are those of bits chooses the complement of what it chose. -/
lemma select_compl {m n : ℕ} {table : Vector ℕ m} (h : ∀ i : Fin m, table.get i - 1 < n) (v : BitVec n) :
    select table (~~~v) = ~~~select table v := by
  refine BitVec.eq_of_getMsbD_eq fun i hi => ?_
  have hn : table.get ⟨i, hi⟩ - 1 < n := h ⟨i, hi⟩
  rw [getMsbD_select table _ hi, BitVec.getMsbD_not, BitVec.getMsbD_not, getMsbD_select table _ hi,
    decide_eq_true hn, decide_eq_true hi, Bool.true_and]

lemma keysFrom_compl (n : ℕ) : ∀ (i : ℕ) (C D : BitVec 28),
    keysFrom n i (~~~C) (~~~D) = (keysFrom n i C D).map fun K => ~~~K := by
  have hrot (s : ℕ) (C : BitVec 28) : (~~~C).rotateLeft s = ~~~C.rotateLeft s := by
    ext i hi
    simp only [BitVec.getElem_rotateLeft, BitVec.getElem_not]
    split <;> rfl
  induction n with
  | zero => intros; rfl
  | succ n ih =>
      intro i C D
      rw [keysFrom, keysFrom, List.map_cons, hrot, hrot, ih, ← BitVec.not_append, select_compl (by decide)]

lemma keys_compl (key : BitVec 64) : keys (~~~key) = (keys key).map fun K => ~~~K := by
  rw [keys, select_compl (by decide), select_compl (by decide), keysFrom_compl, keys]

lemma f_compl (K : BitVec 48) (R : BitVec 32) : f (~~~K) (~~~R) = f K R := by
  have hin : select E (~~~R) ^^^ ~~~K = select E R ^^^ K := by
    rw [select_compl (by decide), ← BitVec.not_xor_left, ← BitVec.not_xor_right, BitVec.not_not]
  rw [f, f, hin]

lemma crypt_compl (ks : List (BitVec 48)) (m : BitVec 64) :
    crypt (ks.map fun K => ~~~K) (~~~m) = ~~~crypt ks m := by
  have hhalf (v : BitVec 64) (s : ℕ) (hs : s + 32 ≤ 64) : (~~~v).extractLsb' s 32 = ~~~v.extractLsb' s 32 := by
    ext i hi
    simp only [BitVec.getElem_extractLsb', BitVec.getElem_not, BitVec.getLsbD_not]
    grind
  have hrun (s : BitVec 32 × BitVec 32) :
      Feistel.run f (Prod.map (fun v => ~~~v) (fun v => ~~~v) s) (ks.map fun K => ~~~K) =
        Prod.map (fun v => ~~~v) (fun v => ~~~v) (Feistel.run f s ks) :=
    Feistel.run_map (fun _ _ => BitVec.not_xor_left) f_compl s ks
  have hlast (L R : BitVec 32) : select FP (~~~R ++ ~~~L) = ~~~select FP (R ++ L) := by
    rw [← BitVec.not_append, select_compl (by decide)]
  rw [crypt, select_compl (by decide), hhalf _ _ (by decide), hhalf _ _ (by decide),
    ← Prod.map_apply (fun v : BitVec 32 => ~~~v) (fun v : BitVec 32 => ~~~v), hrun]
  exact hlast _ _

/-- The complement of every byte. -/
def complBlock (b : Block 8) : Block 8 := b.map fun x => ~~~x

/-- **Complementing the key and the block complements the result.** -/
theorem des_compl (ctx : DesContext) (key b output : Block 8) :
    desEncrypt (desSetKey ctx (complBlock key)) (complBlock b) output =
        complBlock (desEncrypt (desSetKey ctx key) b output) ∧
      desDecrypt (desSetKey ctx (complBlock key)) (complBlock b) output =
        complBlock (desDecrypt (desSetKey ctx key) b output) := by
  have hbyte (b : Block 8) {i : ℕ} (hi : i < 8) :
      (byteAt (complBlock b) i).toBitVec = ~~~(byteAt b i).toBitVec := by
    rw [byteAt_of_lt _ hi, byteAt_of_lt _ hi, complBlock, Vector.get_eq_getElem, Vector.getElem_map]
    rfl
  have hbits (b : Block 8) : blockBits (complBlock b) = ~~~blockBits b := by
    rw [blockBits, hbyte b (by decide), hbyte b (by decide), hbyte b (by decide), hbyte b (by decide),
      hbyte b (by decide), hbyte b (by decide), hbyte b (by decide), hbyte b (by decide)]
    exact (append_not _ _ _ _ _ _ _ _).symm
  refine ⟨blockBits_injective ?_, blockBits_injective ?_⟩
  · rw [hbits, (des_eq_standard _ _ _ _).1, (des_eq_standard _ _ _ _).1, hbits, hbits, encrypt, encrypt, keys_compl,
      crypt_compl]
  · rw [hbits, (des_eq_standard _ _ _ _).2, (des_eq_standard _ _ _ _).2, hbits, hbits, decrypt, decrypt, keys_compl,
      ← List.map_reverse, crypt_compl]

/-! ### The MAC -/

/-- The DES of the code; `ctx` is what the context holds before. -/
def codeDes (ctx : DesContext) : Des := ⟨DesContext, desSetKey ctx, fun c b => desEncrypt c b b, fun c b => desDecrypt c b b⟩

lemma codeDes_E (ctx : DesContext) : (codeDes ctx).E = desE :=
  funext fun key => funext fun b => desEncrypt_eq ctx key b b

lemma codeDes_D (ctx : DesContext) : (codeDes ctx).D = desD :=
  funext fun key => funext fun b => desDecrypt_eq ctx key b b

/-- What is written when the last decryption undoes the last encryption of the chain. -/
lemma output_of_cancel (des : Des) (key input : Bytes) (inputlen : ℕ) (output : Bytes) (outputlen : ℤ)
    (ivdata : Block 8) (tmp : Bytes) (hlast : ∀ c, des.E (blockAt key 0) (des.D (blockAt key 8) c) = c) :
    slice (tDesEncryptMac des key input inputlen output outputlen ivdata (some tmp)).output 0 4 =
      (chain (des.E (blockAt key 0)) ivdata (blocks 8 (pad 8 (slice input 0 inputlen)))).toList.take 4 := by
  have hmac : (tDesEncryptMac des key input inputlen output outputlen ivdata (some tmp)).output =
      poke output 0 ((des.E (blockAt key 0) (des.D (blockAt key 8)
        (chain (des.E (blockAt key 0)) ivdata (blocks 8 (pad 8 (slice input 0 inputlen)))))).toList.take 4) := by
    rw [← macLoop_padded des (blockAt key 0) input inputlen tmp ivdata (Vector.replicate 8 0)]
    rfl
  rw [hlast] at hmac
  have hfour := slice_poke output 0
    ((chain (des.E (blockAt key 0)) ivdata (blocks 8 (pad 8 (slice input 0 inputlen)))).toList.take 4)
  rwa [List.length_take, Vector.length_toList, Nat.min_eq_left (by decide), ← hmac] at hfour

end DeviceTools.Ic
