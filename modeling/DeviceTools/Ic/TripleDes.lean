/-
Triple DES.

The two key set-ups fill the subkeys of three runs of sixteen rounds, in a loop that reads words of
the context which it has written before.  `des3_crypt` has `DES_IP` and `DES_FP` once, around all
forty-eight rounds, and exchanges the halves between the runs by naming them the other way round.
-/
import DeviceTools.Ic.Des

namespace DeviceTools.Ic

open CbcMac

/-- `des3_context`. -/
structure Des3Context where
  esk : Subkeys
  dsk : Subkeys

/-- The loop of `des3_set_2keys` from `i` on. -/
def set2keysLoop (ctx : Des3Context) (i : ℕ) : Des3Context :=
  if i < 32 then
    let ctx := { ctx with dsk := Function.update ctx.dsk i (ctx.esk (30 - i)) }
    let ctx := { ctx with dsk := Function.update ctx.dsk (i + 1) (ctx.esk (31 - i)) }
    let ctx := { ctx with esk := Function.update ctx.esk (i + 32) (ctx.dsk (62 - i)) }
    let ctx := { ctx with esk := Function.update ctx.esk (i + 33) (ctx.dsk (63 - i)) }
    let ctx := { ctx with esk := Function.update ctx.esk (i + 64) (ctx.esk i) }
    let ctx := { ctx with esk := Function.update ctx.esk (i + 65) (ctx.esk (1 + i)) }
    let ctx := { ctx with dsk := Function.update ctx.dsk (i + 64) (ctx.dsk i) }
    let ctx := { ctx with dsk := Function.update ctx.dsk (i + 65) (ctx.dsk (1 + i)) }
    set2keysLoop ctx (i + 2)
  else ctx
termination_by 32 - i

def des3Set2keys (ctx : Des3Context) (key1 key2 : Block 8) : Des3Context :=
  let ctx := { ctx with esk := desMainKs ctx.esk 0 key1 }
  let ctx := { ctx with dsk := desMainKs ctx.dsk 32 key2 }
  set2keysLoop ctx 0

/-- The loop of `des3_set_3keys` from `i` on. -/
def set3keysLoop (ctx : Des3Context) (i : ℕ) : Des3Context :=
  if i < 32 then
    let ctx := { ctx with dsk := Function.update ctx.dsk i (ctx.esk (94 - i)) }
    let ctx := { ctx with dsk := Function.update ctx.dsk (i + 1) (ctx.esk (95 - i)) }
    let ctx := { ctx with esk := Function.update ctx.esk (i + 32) (ctx.dsk (62 - i)) }
    let ctx := { ctx with esk := Function.update ctx.esk (i + 33) (ctx.dsk (63 - i)) }
    let ctx := { ctx with dsk := Function.update ctx.dsk (i + 64) (ctx.esk (30 - i)) }
    let ctx := { ctx with dsk := Function.update ctx.dsk (i + 65) (ctx.esk (31 - i)) }
    set3keysLoop ctx (i + 2)
  else ctx
termination_by 32 - i

def des3Set3keys (ctx : Des3Context) (key1 key2 key3 : Block 8) : Des3Context :=
  let ctx := { ctx with esk := desMainKs ctx.esk 0 key1 }
  let ctx := { ctx with dsk := desMainKs ctx.dsk 32 key2 }
  let ctx := { ctx with esk := desMainKs ctx.esk 64 key3 }
  set3keysLoop ctx 0

/-- `des3_crypt`.  The rounds in the middle are `DES_ROUND( X, Y );  DES_ROUND( Y, X );`. -/
def des3Crypt (SK : Subkeys) (input output : Block 8) : Block 8 :=
  let s := desIP (getUint32 input 0) (getUint32 input 4)
  let s := sixteenRounds SK 0 s.1 s.2
  let s := (sixteenRounds SK 32 s.2 s.1).swap
  let s := sixteenRounds SK 64 s.1 s.2
  let s := desFP s.2 s.1
  putUint32 s.2 (putUint32 s.1 output 0) 4

def des3Encrypt (ctx : Des3Context) (input output : Block 8) : Block 8 := des3Crypt ctx.esk input output

def des3Decrypt (ctx : Des3Context) (input output : Block 8) : Block 8 := des3Crypt ctx.dsk input output

/-! ### The three runs -/

lemma des3Crypt_eq (SK : Subkeys) (input output : Block 8) :
    des3Crypt SK input output =
      cipher (roundKeys SK 64) (cipher (roundKeys SK 32) (cipher (roundKeys SK 0) input)) := by
  rw [cipher, desIP_cipher, desIP_cipher]
  simp only [des3Crypt, sixteenRounds_eq, putUint32_putUint32]
  rfl

/-! ### The contexts -/

/-- The place of the word `q` when thirty-two words are taken from the end, two by two. -/
def pairRev (q : ℕ) : ℕ := 30 + 2 * (q % 2) - q

/-- The words that a round reads are none that it writes. -/
lemma set2keysLoop_step (ctx : Des3Context) {i : ℕ} (hi : i + 1 < 32) :
    set2keysLoop ctx i =
      set2keysLoop
        ⟨Function.update (Function.update (Function.update (Function.update ctx.esk (i + 32) (ctx.dsk (62 - i)))
            (i + 33) (ctx.dsk (63 - i))) (i + 64) (ctx.esk i)) (i + 65) (ctx.esk (1 + i)),
          Function.update (Function.update (Function.update (Function.update ctx.dsk i (ctx.esk (30 - i)))
            (i + 1) (ctx.esk (31 - i))) (i + 64) (ctx.esk (30 - i))) (i + 65) (ctx.esk (31 - i))⟩ (i + 2) := by
  rw [set2keysLoop, if_pos (by omega)]
  dsimp only
  congr 2 <;> funext q <;> simp only [Function.update_apply] <;> grind

/-- What the loop of two keys leaves, from `i` on. -/
lemma set2keysLoop_spec (n : ℕ) : ∀ (ctx : Des3Context) (i : ℕ), i + 2 * n = 32 →
    (∀ q, (set2keysLoop ctx i).esk q =
      if 32 + i ≤ q ∧ q < 64 then ctx.dsk (32 + pairRev (q - 32))
      else if 64 + i ≤ q ∧ q < 96 then ctx.esk (q - 64) else ctx.esk q) ∧
    ∀ q, (set2keysLoop ctx i).dsk q =
      if i ≤ q ∧ q < 32 then ctx.esk (pairRev q)
      else if 64 + i ≤ q ∧ q < 96 then ctx.esk (pairRev (q - 64)) else ctx.dsk q := by
  induction n with
  | zero =>
      intro ctx i hi
      rw [set2keysLoop, if_neg (by omega)]
      exact ⟨fun q => by rw [if_neg (by omega), if_neg (by omega)],
        fun q => by rw [if_neg (by omega), if_neg (by omega)]⟩
  | succ n ih =>
      intro ctx i hi
      rw [set2keysLoop_step ctx (by omega)]
      refine ⟨fun q => ?_, fun q => ?_⟩
      · rw [(ih _ _ (by omega)).1]
        simp only [Function.update_apply, pairRev]
        split_ifs <;> first | rfl | omega | (congr 1; omega)
      · rw [(ih _ _ (by omega)).2]
        simp only [Function.update_apply, pairRev]
        split_ifs <;> first | rfl | omega | (congr 1; omega)

/-- The words that a round reads are none that it writes. -/
lemma set3keysLoop_step (ctx : Des3Context) {i : ℕ} (hi : i + 1 < 32) :
    set3keysLoop ctx i =
      set3keysLoop
        ⟨Function.update (Function.update ctx.esk (i + 32) (ctx.dsk (62 - i))) (i + 33) (ctx.dsk (63 - i)),
          Function.update (Function.update (Function.update (Function.update ctx.dsk i (ctx.esk (94 - i)))
            (i + 1) (ctx.esk (95 - i))) (i + 64) (ctx.esk (30 - i))) (i + 65) (ctx.esk (31 - i))⟩ (i + 2) := by
  rw [set3keysLoop, if_pos (by omega)]
  dsimp only
  congr 2 <;> funext q <;> simp only [Function.update_apply] <;> grind

/-- What the loop of three keys leaves, from `i` on. -/
lemma set3keysLoop_spec (n : ℕ) : ∀ (ctx : Des3Context) (i : ℕ), i + 2 * n = 32 →
    (∀ q, (set3keysLoop ctx i).esk q = if 32 + i ≤ q ∧ q < 64 then ctx.dsk (32 + pairRev (q - 32)) else ctx.esk q) ∧
    ∀ q, (set3keysLoop ctx i).dsk q =
      if i ≤ q ∧ q < 32 then ctx.esk (64 + pairRev q)
      else if 64 + i ≤ q ∧ q < 96 then ctx.esk (pairRev (q - 64)) else ctx.dsk q := by
  induction n with
  | zero =>
      intro ctx i hi
      rw [set3keysLoop, if_neg (by omega)]
      exact ⟨fun q => by rw [if_neg (by omega)], fun q => by rw [if_neg (by omega), if_neg (by omega)]⟩
  | succ n ih =>
      intro ctx i hi
      rw [set3keysLoop_step ctx (by omega)]
      refine ⟨fun q => ?_, fun q => ?_⟩
      · rw [(ih _ _ (by omega)).1]
        simp only [Function.update_apply, pairRev]
        split_ifs <;> first | rfl | omega | (congr 1; omega)
      · rw [(ih _ _ (by omega)).2]
        simp only [Function.update_apply, pairRev]
        split_ifs <;> first | rfl | omega | (congr 1; omega)

lemma roundKeys_pairRev {SK SK' : Subkeys} {p p' : ℕ} (h : ∀ j < 32, SK (p + j) = SK' (p' + pairRev j)) :
    roundKeys SK p = (roundKeys SK' p').reverse := by
  refine roundKeys_reverse (fun r hr => ?_) fun r hr => ?_
  · rw [h _ (by omega), pairRev]
    congr 1
    omega
  · rw [Nat.add_assoc, h _ (by omega), pairRev]
    congr 1
    omega

/-- **The context of two keys.** -/
lemma des3Set2keys_keys (ctx : Des3Context) (key1 key2 : Block 8) :
    let c := des3Set2keys ctx key1 key2
    (roundKeys c.esk 0 = keySchedule key1 ∧ roundKeys c.esk 32 = (keySchedule key2).reverse ∧
      roundKeys c.esk 64 = keySchedule key1) ∧
    roundKeys c.dsk 0 = (keySchedule key1).reverse ∧ roundKeys c.dsk 32 = keySchedule key2 ∧
      roundKeys c.dsk 64 = (keySchedule key1).reverse := by
  intro c
  obtain ⟨hesk, hdsk⟩ := set2keysLoop_spec 16
    ⟨desMainKs ctx.esk 0 key1, desMainKs ctx.dsk 32 key2⟩ 0 rfl
  rw [← roundKeys_desMainKs ctx.esk 0 key1, ← roundKeys_desMainKs ctx.dsk 32 key2]
  refine ⟨⟨roundKeys_congr fun j hj => ?_, roundKeys_pairRev fun j hj => ?_, roundKeys_congr fun j hj => ?_⟩,
    roundKeys_pairRev fun j hj => ?_, roundKeys_congr fun j hj => ?_, roundKeys_pairRev fun j hj => ?_⟩
  · exact (hesk _).trans (by rw [if_neg (by omega), if_neg (by omega)])
  · exact (hesk _).trans (by rw [if_pos (by omega), Nat.add_sub_cancel_left])
  · exact (hesk _).trans (by rw [if_neg (by omega), if_pos (by omega), Nat.add_sub_cancel_left, Nat.zero_add])
  · exact (hdsk _).trans (by rw [if_pos (by omega), Nat.zero_add, Nat.zero_add])
  · exact (hdsk _).trans (by rw [if_neg (by omega), if_neg (by omega)])
  · exact (hdsk _).trans (by rw [if_neg (by omega), if_pos (by omega), Nat.add_sub_cancel_left, Nat.zero_add])

/-- **The context of three keys.** -/
lemma des3Set3keys_keys (ctx : Des3Context) (key1 key2 key3 : Block 8) :
    let c := des3Set3keys ctx key1 key2 key3
    (roundKeys c.esk 0 = keySchedule key1 ∧ roundKeys c.esk 32 = (keySchedule key2).reverse ∧
      roundKeys c.esk 64 = keySchedule key3) ∧
    roundKeys c.dsk 0 = (keySchedule key3).reverse ∧ roundKeys c.dsk 32 = keySchedule key2 ∧
      roundKeys c.dsk 64 = (keySchedule key1).reverse := by
  intro c
  obtain ⟨hesk, hdsk⟩ := set3keysLoop_spec 16
    ⟨desMainKs (desMainKs ctx.esk 0 key1) 64 key3, desMainKs ctx.dsk 32 key2⟩ 0 rfl
  have hfirst (j : ℕ) (hj : j < 32) : desMainKs (desMainKs ctx.esk 0 key1) 64 key3 j = desMainKs ctx.esk 0 key1 j :=
    desMainKs_frame _ _ _ (Or.inl (by omega))
  have hrev (j : ℕ) (hj : j < 32) : pairRev j < 32 := by
    rw [pairRev]
    omega
  rw [← roundKeys_desMainKs ctx.esk 0 key1, ← roundKeys_desMainKs ctx.dsk 32 key2,
    ← roundKeys_desMainKs (desMainKs ctx.esk 0 key1) 64 key3]
  refine ⟨⟨roundKeys_congr fun j hj => ?_, roundKeys_pairRev fun j hj => ?_, roundKeys_congr fun j hj => ?_⟩,
    roundKeys_pairRev fun j hj => ?_, roundKeys_congr fun j hj => ?_, roundKeys_pairRev fun j hj => ?_⟩
  · exact (hesk _).trans (by rw [if_neg (by omega), Nat.zero_add]; exact hfirst j hj)
  · exact (hesk _).trans (by rw [if_pos (by omega), Nat.add_sub_cancel_left])
  · exact (hesk _).trans (by rw [if_neg (by omega)])
  · exact (hdsk _).trans (by rw [if_pos (by omega), Nat.zero_add])
  · exact (hdsk _).trans (by rw [if_neg (by omega), if_neg (by omega)])
  · refine (hdsk _).trans ?_
    rw [if_neg (by omega), if_pos (by omega), Nat.add_sub_cancel_left, Nat.zero_add]
    exact hfirst _ (hrev j hj)

/-- **Triple DES is encryption, decryption and encryption.**  With three keys a block is encrypted
under the first, decrypted under the second and encrypted under the third, and decryption goes back;
with two keys the first is the third as well. -/
theorem des3_eq_ede (ctx ctx' : Des3Context) (key1 key2 key3 b output output' : Block 8) :
    let c2 := des3Set2keys ctx key1 key2
    let c3 := des3Set3keys ctx' key1 key2 key3
    des3Encrypt c3 b output = desE key3 (desD key2 (desE key1 b)) ∧
      des3Decrypt c3 b output = desD key1 (desE key2 (desD key3 b)) ∧
      des3Encrypt c2 b output = desE key1 (desD key2 (desE key1 b)) ∧
      des3Decrypt c2 b output = desD key1 (desE key2 (desD key1 b)) ∧
      des3Decrypt c3 (des3Encrypt c3 b output) output' = b ∧ des3Encrypt c3 (des3Decrypt c3 b output) output' = b ∧
      des3Decrypt c2 (des3Encrypt c2 b output) output' = b ∧ des3Encrypt c2 (des3Decrypt c2 b output) output' = b := by
  intro c2 c3
  obtain ⟨⟨he1, he2, he3⟩, hd1, hd2, hd3⟩ := des3Set3keys_keys ctx' key1 key2 key3
  obtain ⟨⟨ge1, ge2, ge3⟩, gd1, gd2, gd3⟩ := des3Set2keys_keys ctx key1 key2
  have henc3 (b output : Block 8) : des3Encrypt c3 b output = desE key3 (desD key2 (desE key1 b)) := by
    rw [des3Encrypt, des3Crypt_eq, he1, he2, he3]
    rfl
  have hdec3 (b output : Block 8) : des3Decrypt c3 b output = desD key1 (desE key2 (desD key3 b)) := by
    rw [des3Decrypt, des3Crypt_eq, hd1, hd2, hd3]
    rfl
  have henc2 (b output : Block 8) : des3Encrypt c2 b output = desE key1 (desD key2 (desE key1 b)) := by
    rw [des3Encrypt, des3Crypt_eq, ge1, ge2, ge3]
    rfl
  have hdec2 (b output : Block 8) : des3Decrypt c2 b output = desD key1 (desE key2 (desD key1 b)) := by
    rw [des3Decrypt, des3Crypt_eq, gd1, gd2, gd3]
    rfl
  refine ⟨henc3 b output, hdec3 b output, henc2 b output, hdec2 b output, ?_, ?_, ?_, ?_⟩
  · rw [hdec3, henc3, desD_desE, desE_desD, desD_desE]
  · rw [hdec3, henc3, desE_desD, desD_desE, desE_desD]
  · rw [hdec2, henc2, desD_desE, desE_desD, desD_desE]
  · rw [hdec2, henc2, desE_desD, desD_desE, desE_desD]

end DeviceTools.Ic
