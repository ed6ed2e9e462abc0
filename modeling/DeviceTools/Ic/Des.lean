/-
DES with the macros of the card code.

A block is read into two words; `DES_IP` and `DES_FP` permute their bits by shifts and masks, and
sixteen rounds go through tables that hold the S-boxes and the permutation behind them together.
The subkeys of a key are two words a round, and decryption runs the same rounds over the subkeys in
reverse order.  An `unsigned long` has 32 bits on the device.
-/
import DeviceTools.Lib.Feistel
import DeviceTools.Ic.Mac

namespace DeviceTools.Ic

open CbcMac

/-- An `unsigned long int`. -/
abbrev Word := BitVec 32

/-! ### The tables -/

def SB1 : Vector Word 64 := #v[
  0x01010400, 0x00000000, 0x00010000, 0x01010404, 0x01010004, 0x00010404, 0x00000004, 0x00010000,
  0x00000400, 0x01010400, 0x01010404, 0x00000400, 0x01000404, 0x01010004, 0x01000000, 0x00000004,
  0x00000404, 0x01000400, 0x01000400, 0x00010400, 0x00010400, 0x01010000, 0x01010000, 0x01000404,
  0x00010004, 0x01000004, 0x01000004, 0x00010004, 0x00000000, 0x00000404, 0x00010404, 0x01000000,
  0x00010000, 0x01010404, 0x00000004, 0x01010000, 0x01010400, 0x01000000, 0x01000000, 0x00000400,
  0x01010004, 0x00010000, 0x00010400, 0x01000004, 0x00000400, 0x00000004, 0x01000404, 0x00010404,
  0x01010404, 0x00010004, 0x01010000, 0x01000404, 0x01000004, 0x00000404, 0x00010404, 0x01010400,
  0x00000404, 0x01000400, 0x01000400, 0x00000000, 0x00010004, 0x00010400, 0x00000000, 0x01010004]

def SB2 : Vector Word 64 := #v[
  0x80108020, 0x80008000, 0x00008000, 0x00108020, 0x00100000, 0x00000020, 0x80100020, 0x80008020,
  0x80000020, 0x80108020, 0x80108000, 0x80000000, 0x80008000, 0x00100000, 0x00000020, 0x80100020,
  0x00108000, 0x00100020, 0x80008020, 0x00000000, 0x80000000, 0x00008000, 0x00108020, 0x80100000,
  0x00100020, 0x80000020, 0x00000000, 0x00108000, 0x00008020, 0x80108000, 0x80100000, 0x00008020,
  0x00000000, 0x00108020, 0x80100020, 0x00100000, 0x80008020, 0x80100000, 0x80108000, 0x00008000,
  0x80100000, 0x80008000, 0x00000020, 0x80108020, 0x00108020, 0x00000020, 0x00008000, 0x80000000,
  0x00008020, 0x80108000, 0x00100000, 0x80000020, 0x00100020, 0x80008020, 0x80000020, 0x00100020,
  0x00108000, 0x00000000, 0x80008000, 0x00008020, 0x80000000, 0x80100020, 0x80108020, 0x00108000]

def SB3 : Vector Word 64 := #v[
  0x00000208, 0x08020200, 0x00000000, 0x08020008, 0x08000200, 0x00000000, 0x00020208, 0x08000200,
  0x00020008, 0x08000008, 0x08000008, 0x00020000, 0x08020208, 0x00020008, 0x08020000, 0x00000208,
  0x08000000, 0x00000008, 0x08020200, 0x00000200, 0x00020200, 0x08020000, 0x08020008, 0x00020208,
  0x08000208, 0x00020200, 0x00020000, 0x08000208, 0x00000008, 0x08020208, 0x00000200, 0x08000000,
  0x08020200, 0x08000000, 0x00020008, 0x00000208, 0x00020000, 0x08020200, 0x08000200, 0x00000000,
  0x00000200, 0x00020008, 0x08020208, 0x08000200, 0x08000008, 0x00000200, 0x00000000, 0x08020008,
  0x08000208, 0x00020000, 0x08000000, 0x08020208, 0x00000008, 0x00020208, 0x00020200, 0x08000008,
  0x08020000, 0x08000208, 0x00000208, 0x08020000, 0x00020208, 0x00000008, 0x08020008, 0x00020200]

def SB4 : Vector Word 64 := #v[
  0x00802001, 0x00002081, 0x00002081, 0x00000080, 0x00802080, 0x00800081, 0x00800001, 0x00002001,
  0x00000000, 0x00802000, 0x00802000, 0x00802081, 0x00000081, 0x00000000, 0x00800080, 0x00800001,
  0x00000001, 0x00002000, 0x00800000, 0x00802001, 0x00000080, 0x00800000, 0x00002001, 0x00002080,
  0x00800081, 0x00000001, 0x00002080, 0x00800080, 0x00002000, 0x00802080, 0x00802081, 0x00000081,
  0x00800080, 0x00800001, 0x00802000, 0x00802081, 0x00000081, 0x00000000, 0x00000000, 0x00802000,
  0x00002080, 0x00800080, 0x00800081, 0x00000001, 0x00802001, 0x00002081, 0x00002081, 0x00000080,
  0x00802081, 0x00000081, 0x00000001, 0x00002000, 0x00800001, 0x00002001, 0x00802080, 0x00800081,
  0x00002001, 0x00002080, 0x00800000, 0x00802001, 0x00000080, 0x00800000, 0x00002000, 0x00802080]

def SB5 : Vector Word 64 := #v[
  0x00000100, 0x02080100, 0x02080000, 0x42000100, 0x00080000, 0x00000100, 0x40000000, 0x02080000,
  0x40080100, 0x00080000, 0x02000100, 0x40080100, 0x42000100, 0x42080000, 0x00080100, 0x40000000,
  0x02000000, 0x40080000, 0x40080000, 0x00000000, 0x40000100, 0x42080100, 0x42080100, 0x02000100,
  0x42080000, 0x40000100, 0x00000000, 0x42000000, 0x02080100, 0x02000000, 0x42000000, 0x00080100,
  0x00080000, 0x42000100, 0x00000100, 0x02000000, 0x40000000, 0x02080000, 0x42000100, 0x40080100,
  0x02000100, 0x40000000, 0x42080000, 0x02080100, 0x40080100, 0x00000100, 0x02000000, 0x42080000,
  0x42080100, 0x00080100, 0x42000000, 0x42080100, 0x02080000, 0x00000000, 0x40080000, 0x42000000,
  0x00080100, 0x02000100, 0x40000100, 0x00080000, 0x00000000, 0x40080000, 0x02080100, 0x40000100]

def SB6 : Vector Word 64 := #v[
  0x20000010, 0x20400000, 0x00004000, 0x20404010, 0x20400000, 0x00000010, 0x20404010, 0x00400000,
  0x20004000, 0x00404010, 0x00400000, 0x20000010, 0x00400010, 0x20004000, 0x20000000, 0x00004010,
  0x00000000, 0x00400010, 0x20004010, 0x00004000, 0x00404000, 0x20004010, 0x00000010, 0x20400010,
  0x20400010, 0x00000000, 0x00404010, 0x20404000, 0x00004010, 0x00404000, 0x20404000, 0x20000000,
  0x20004000, 0x00000010, 0x20400010, 0x00404000, 0x20404010, 0x00400000, 0x00004010, 0x20000010,
  0x00400000, 0x20004000, 0x20000000, 0x00004010, 0x20000010, 0x20404010, 0x00404000, 0x20400000,
  0x00404010, 0x20404000, 0x00000000, 0x20400010, 0x00000010, 0x00004000, 0x20400000, 0x00404010,
  0x00004000, 0x00400010, 0x20004010, 0x00000000, 0x20404000, 0x20000000, 0x00400010, 0x20004010]

def SB7 : Vector Word 64 := #v[
  0x00200000, 0x04200002, 0x04000802, 0x00000000, 0x00000800, 0x04000802, 0x00200802, 0x04200800,
  0x04200802, 0x00200000, 0x00000000, 0x04000002, 0x00000002, 0x04000000, 0x04200002, 0x00000802,
  0x04000800, 0x00200802, 0x00200002, 0x04000800, 0x04000002, 0x04200000, 0x04200800, 0x00200002,
  0x04200000, 0x00000800, 0x00000802, 0x04200802, 0x00200800, 0x00000002, 0x04000000, 0x00200800,
  0x04000000, 0x00200800, 0x00200000, 0x04000802, 0x04000802, 0x04200002, 0x04200002, 0x00000002,
  0x00200002, 0x04000000, 0x04000800, 0x00200000, 0x04200800, 0x00000802, 0x00200802, 0x04200800,
  0x00000802, 0x04000002, 0x04200802, 0x04200000, 0x00200800, 0x00000000, 0x00000002, 0x04200802,
  0x00000000, 0x00200802, 0x04200000, 0x00000800, 0x04000002, 0x04000800, 0x00000800, 0x00200002]

def SB8 : Vector Word 64 := #v[
  0x10001040, 0x00001000, 0x00040000, 0x10041040, 0x10000000, 0x10001040, 0x00000040, 0x10000000,
  0x00040040, 0x10040000, 0x10041040, 0x00041000, 0x10041000, 0x00041040, 0x00001000, 0x00000040,
  0x10040000, 0x10000040, 0x10001000, 0x00001040, 0x00041000, 0x00040040, 0x10040040, 0x10041000,
  0x00001040, 0x00000000, 0x00000000, 0x10040040, 0x10000040, 0x10001000, 0x00041040, 0x00040000,
  0x00041040, 0x00040000, 0x10041000, 0x00001000, 0x00000040, 0x10040040, 0x00001000, 0x00041040,
  0x10001000, 0x00000040, 0x10000040, 0x10040000, 0x10040040, 0x10000000, 0x00040000, 0x10001040,
  0x00000000, 0x10041040, 0x00040040, 0x10000040, 0x10040000, 0x10001000, 0x10001040, 0x00000000,
  0x10041040, 0x00041000, 0x00041000, 0x00001040, 0x00001040, 0x00040040, 0x10000000, 0x10041000]

/-! PC1: left and right halves bit-swap. -/

def LHs : Vector Word 16 := #v[
  0x00000000, 0x00000001, 0x00000100, 0x00000101, 0x00010000, 0x00010001, 0x00010100, 0x00010101,
  0x01000000, 0x01000001, 0x01000100, 0x01000101, 0x01010000, 0x01010001, 0x01010100, 0x01010101]

def RHs : Vector Word 16 := #v[
  0x00000000, 0x01000000, 0x00010000, 0x01010000, 0x00000100, 0x01000100, 0x00010100, 0x01010100,
  0x00000001, 0x01000001, 0x00010001, 0x01010001, 0x00000101, 0x01000101, 0x00010101, 0x01010101]

/-- The index `T & 0x3F`. -/
def sixBits (T : Word) : Fin 64 :=
  ⟨(T &&& 0x3F).toNat, by rw [BitVec.toNat_and]; exact Nat.lt_succ_of_le Nat.and_le_right⟩

/-- The index `X & 0xF`. -/
def fourBits (X : Word) : Fin 16 :=
  ⟨(X &&& 0xF).toNat, by rw [BitVec.toNat_and]; exact Nat.lt_succ_of_le Nat.and_le_right⟩

/-! ### The macros -/

/-- The byte `b[i]`. -/
def byteAt (b : Block 8) (i : ℕ) : UInt8 := if h : i < 8 then b.get ⟨i, h⟩ else 0

lemma byteAt_of_lt (b : Block 8) {i : ℕ} (h : i < 8) : byteAt b i = b.get ⟨i, h⟩ := dif_pos h

/-- `GET_UINT32`. -/
def getUint32 (b : Block 8) (i : ℕ) : Word :=
  ((byteAt b i).toBitVec.setWidth 32 <<< 24) ||| ((byteAt b (i + 1)).toBitVec.setWidth 32 <<< 16) |||
    ((byteAt b (i + 2)).toBitVec.setWidth 32 <<< 8) ||| (byteAt b (i + 3)).toBitVec.setWidth 32

/-- `PUT_UINT32`. -/
def putUint32 (n : Word) (b : Block 8) (i : ℕ) : Block 8 :=
  (((b.setIfInBounds i ⟨(n >>> 24).setWidth 8⟩).setIfInBounds (i + 1) ⟨(n >>> 16).setWidth 8⟩).setIfInBounds
    (i + 2) ⟨(n >>> 8).setWidth 8⟩).setIfInBounds (i + 3) ⟨n.setWidth 8⟩

/-- `DES_IP`. -/
def desIP (X Y : Word) : Word × Word :=
  let T := ((X >>> 4) ^^^ Y) &&& 0x0F0F0F0F; let Y := Y ^^^ T; let X := X ^^^ (T <<< 4)
  let T := ((X >>> 16) ^^^ Y) &&& 0x0000FFFF; let Y := Y ^^^ T; let X := X ^^^ (T <<< 16)
  let T := ((Y >>> 2) ^^^ X) &&& 0x33333333; let X := X ^^^ T; let Y := Y ^^^ (T <<< 2)
  let T := ((Y >>> 8) ^^^ X) &&& 0x00FF00FF; let X := X ^^^ T; let Y := Y ^^^ (T <<< 8)
  let Y := ((Y <<< 1) ||| (Y >>> 31)) &&& 0xFFFFFFFF
  let T := (X ^^^ Y) &&& 0xAAAAAAAA; let Y := Y ^^^ T; let X := X ^^^ T
  let X := ((X <<< 1) ||| (X >>> 31)) &&& 0xFFFFFFFF
  (X, Y)

/-- `DES_FP`. -/
def desFP (X Y : Word) : Word × Word :=
  let X := ((X <<< 31) ||| (X >>> 1)) &&& 0xFFFFFFFF
  let T := (X ^^^ Y) &&& 0xAAAAAAAA; let X := X ^^^ T; let Y := Y ^^^ T
  let Y := ((Y <<< 31) ||| (Y >>> 1)) &&& 0xFFFFFFFF
  let T := ((Y >>> 8) ^^^ X) &&& 0x00FF00FF; let X := X ^^^ T; let Y := Y ^^^ (T <<< 8)
  let T := ((Y >>> 2) ^^^ X) &&& 0x33333333; let X := X ^^^ T; let Y := Y ^^^ (T <<< 2)
  let T := ((X >>> 16) ^^^ Y) &&& 0x0000FFFF; let Y := Y ^^^ T; let X := X ^^^ (T <<< 16)
  let T := ((X >>> 4) ^^^ Y) &&& 0x0F0F0F0F; let Y := Y ^^^ T; let X := X ^^^ (T <<< 4)
  (X, Y)

/-- An array of subkeys. -/
abbrev Subkeys := ℕ → Word

/-- `DES_ROUND` with `SK` at the subkey `i`; the new value of `Y`. -/
def desRound (SK : Subkeys) (i : ℕ) (X Y : Word) : Word :=
  let T := SK i ^^^ X
  let Y := Y ^^^ SB8.get (sixBits T) ^^^ SB6.get (sixBits (T >>> 8)) ^^^ SB4.get (sixBits (T >>> 16)) ^^^
    SB2.get (sixBits (T >>> 24))
  let T := SK (i + 1) ^^^ ((X <<< 28) ||| (X >>> 4))
  Y ^^^ SB7.get (sixBits T) ^^^ SB5.get (sixBits (T >>> 8)) ^^^ SB3.get (sixBits (T >>> 16)) ^^^
    SB1.get (sixBits (T >>> 24))

/-! ### The key schedule -/

/-- Permuted Choice 1. -/
def desPC1 (X Y : Word) : Word × Word :=
  let T := ((Y >>> 4) ^^^ X) &&& 0x0F0F0F0F; let X := X ^^^ T; let Y := Y ^^^ (T <<< 4)
  let T := (Y ^^^ X) &&& 0x10101010; let X := X ^^^ T; let Y := Y ^^^ T
  let X :=
    (LHs.get (fourBits X) <<< 3) ||| (LHs.get (fourBits (X >>> 8)) <<< 2) |||
    (LHs.get (fourBits (X >>> 16)) <<< 1) ||| LHs.get (fourBits (X >>> 24)) |||
    (LHs.get (fourBits (X >>> 5)) <<< 7) ||| (LHs.get (fourBits (X >>> 13)) <<< 6) |||
    (LHs.get (fourBits (X >>> 21)) <<< 5) ||| (LHs.get (fourBits (X >>> 29)) <<< 4)
  let Y :=
    (RHs.get (fourBits (Y >>> 1)) <<< 3) ||| (RHs.get (fourBits (Y >>> 9)) <<< 2) |||
    (RHs.get (fourBits (Y >>> 17)) <<< 1) ||| RHs.get (fourBits (Y >>> 25)) |||
    (RHs.get (fourBits (Y >>> 4)) <<< 7) ||| (RHs.get (fourBits (Y >>> 12)) <<< 6) |||
    (RHs.get (fourBits (Y >>> 20)) <<< 5) ||| (RHs.get (fourBits (Y >>> 28)) <<< 4)
  (X &&& 0x0FFFFFFF, Y &&& 0x0FFFFFFF)

/-- The rotation of a half before the subkey of round `i`. -/
def ksRotate (i : ℕ) (X : Word) : Word :=
  if i < 2 ∨ i = 8 ∨ i = 15 then ((X <<< 1) ||| (X >>> 27)) &&& 0x0FFFFFFF
  else ((X <<< 2) ||| (X >>> 26)) &&& 0x0FFFFFFF

/-- The first word of the subkey of a round. -/
def subkey1 (X Y : Word) : Word :=
  ((X <<< 4) &&& 0x24000000) ||| ((X <<< 28) &&& 0x10000000) ||| ((X <<< 14) &&& 0x08000000) |||
  ((X <<< 18) &&& 0x02080000) ||| ((X <<< 6) &&& 0x01000000) ||| ((X <<< 9) &&& 0x00200000) |||
  ((X >>> 1) &&& 0x00100000) ||| ((X <<< 10) &&& 0x00040000) ||| ((X <<< 2) &&& 0x00020000) |||
  ((X >>> 10) &&& 0x00010000) ||| ((Y >>> 13) &&& 0x00002000) ||| ((Y >>> 4) &&& 0x00001000) |||
  ((Y <<< 6) &&& 0x00000800) ||| ((Y >>> 1) &&& 0x00000400) ||| ((Y >>> 14) &&& 0x00000200) |||
  (Y &&& 0x00000100) ||| ((Y >>> 5) &&& 0x00000020) ||| ((Y >>> 10) &&& 0x00000010) |||
  ((Y >>> 3) &&& 0x00000008) ||| ((Y >>> 18) &&& 0x00000004) ||| ((Y >>> 26) &&& 0x00000002) |||
  ((Y >>> 24) &&& 0x00000001)

/-- The second word of the subkey of a round. -/
def subkey2 (X Y : Word) : Word :=
  ((X <<< 15) &&& 0x20000000) ||| ((X <<< 17) &&& 0x10000000) ||| ((X <<< 10) &&& 0x08000000) |||
  ((X <<< 22) &&& 0x04000000) ||| ((X >>> 2) &&& 0x02000000) ||| ((X <<< 1) &&& 0x01000000) |||
  ((X <<< 16) &&& 0x00200000) ||| ((X <<< 11) &&& 0x00100000) ||| ((X <<< 3) &&& 0x00080000) |||
  ((X >>> 6) &&& 0x00040000) ||| ((X <<< 15) &&& 0x00020000) ||| ((X >>> 4) &&& 0x00010000) |||
  ((Y >>> 2) &&& 0x00002000) ||| ((Y <<< 8) &&& 0x00001000) ||| ((Y >>> 14) &&& 0x00000808) |||
  ((Y >>> 9) &&& 0x00000400) ||| (Y &&& 0x00000200) ||| ((Y <<< 7) &&& 0x00000100) |||
  ((Y >>> 7) &&& 0x00000020) ||| ((Y >>> 3) &&& 0x00000011) ||| ((Y <<< 2) &&& 0x00000004) |||
  ((Y >>> 21) &&& 0x00000002)

/-- The loop of `des_main_ks` from round `i` on, with `SK` at `p`. -/
def ksLoop (SK : Subkeys) (p i : ℕ) (X Y : Word) : Subkeys :=
  if i < 16 then
    let X := ksRotate i X
    let Y := ksRotate i Y
    let SK := Function.update SK p (subkey1 X Y)
    let SK := Function.update SK (p + 1) (subkey2 X Y)
    ksLoop SK (p + 2) (i + 1) X Y
  else SK
termination_by 16 - i

/-- `des_main_ks` with `SK` at `p`. -/
def desMainKs (SK : Subkeys) (p : ℕ) (key : Block 8) : Subkeys :=
  let s := desPC1 (getUint32 key 0) (getUint32 key 4)
  ksLoop SK p 0 s.1 s.2

/-- `des_context`. -/
structure DesContext where
  esk : Subkeys
  dsk : Subkeys

/-- The loop of `des_set_key` from `i` on. -/
def setDskLoop (ctx : DesContext) (i : ℕ) : DesContext :=
  if i < 32 then
    let ctx := { ctx with dsk := Function.update ctx.dsk i (ctx.esk (30 - i)) }
    let ctx := { ctx with dsk := Function.update ctx.dsk (i + 1) (ctx.esk (31 - i)) }
    setDskLoop ctx (i + 2)
  else ctx
termination_by 32 - i

def desSetKey (ctx : DesContext) (key : Block 8) : DesContext :=
  setDskLoop { ctx with esk := desMainKs ctx.esk 0 key } 0

/-! ### Encryption and decryption -/

/-- Sixteen rounds `DES_ROUND( Y, X );  DES_ROUND( X, Y );` with `SK` at `p`. -/
def sixteenRounds (SK : Subkeys) (p : ℕ) (X Y : Word) : Word × Word :=
  let X := desRound SK p Y X; let Y := desRound SK (p + 2) X Y
  let X := desRound SK (p + 4) Y X; let Y := desRound SK (p + 6) X Y
  let X := desRound SK (p + 8) Y X; let Y := desRound SK (p + 10) X Y
  let X := desRound SK (p + 12) Y X; let Y := desRound SK (p + 14) X Y
  let X := desRound SK (p + 16) Y X; let Y := desRound SK (p + 18) X Y
  let X := desRound SK (p + 20) Y X; let Y := desRound SK (p + 22) X Y
  let X := desRound SK (p + 24) Y X; let Y := desRound SK (p + 26) X Y
  let X := desRound SK (p + 28) Y X; let Y := desRound SK (p + 30) X Y
  (X, Y)

/-- `des_crypt`; `output` is what the buffer held before. -/
def desCrypt (SK : Subkeys) (input output : Block 8) : Block 8 :=
  let s := desIP (getUint32 input 0) (getUint32 input 4)
  let s := sixteenRounds SK 0 s.1 s.2
  let s := desFP s.2 s.1
  putUint32 s.2 (putUint32 s.1 output 0) 4

def desEncrypt (ctx : DesContext) (input output : Block 8) : Block 8 := desCrypt ctx.esk input output

def desDecrypt (ctx : DesContext) (input output : Block 8) : Block 8 := desCrypt ctx.dsk input output

/-! ### Blocks and words -/

/-- The word of four bytes. -/
def joinBytes (a b c d : BitVec 8) : Word :=
  (a.setWidth 32 <<< 24) ||| (b.setWidth 32 <<< 16) ||| (c.setWidth 32 <<< 8) ||| d.setWidth 32

/-- The two words of a block. -/
def blockWords (b : Block 8) : Word × Word := (getUint32 b 0, getUint32 b 4)

/-- The block of two words. -/
def wordsBlock (s : Word × Word) : Block 8 :=
  #v[⟨(s.1 >>> 24).setWidth 8⟩, ⟨(s.1 >>> 16).setWidth 8⟩, ⟨(s.1 >>> 8).setWidth 8⟩, ⟨s.1.setWidth 8⟩,
    ⟨(s.2 >>> 24).setWidth 8⟩, ⟨(s.2 >>> 16).setWidth 8⟩, ⟨(s.2 >>> 8).setWidth 8⟩, ⟨s.2.setWidth 8⟩]

/-- The bytes of the output buffer are all written. -/
lemma putUint32_putUint32 (X Y : Word) (output : Block 8) :
    putUint32 Y (putUint32 X output 0) 4 = wordsBlock (X, Y) := by
  ext i hi
  rw [wordsBlock]
  interval_cases i <;> simp [putUint32]

lemma joinBytes_cut (v : Word) :
    joinBytes ((v >>> 24).setWidth 8) ((v >>> 16).setWidth 8) ((v >>> 8).setWidth 8) (v.setWidth 8) = v := by
  ext i hi
  simp only [joinBytes, BitVec.getElem_or, BitVec.getElem_shiftLeft, BitVec.getElem_setWidth,
    BitVec.getLsbD_setWidth, BitVec.getLsbD_ushiftRight]
  grind

/-- The four bytes of a word that is put together from four bytes. -/
lemma cut_joinBytes (a b c d : BitVec 8) :
    (joinBytes a b c d >>> 24).setWidth 8 = a ∧ (joinBytes a b c d >>> 16).setWidth 8 = b ∧
      (joinBytes a b c d >>> 8).setWidth 8 = c ∧ (joinBytes a b c d).setWidth 8 = d := by
  refine ⟨?_, ?_, ?_, ?_⟩ <;> ext i hi <;>
    simp only [joinBytes, BitVec.getElem_setWidth, BitVec.getLsbD_setWidth, BitVec.getLsbD_ushiftRight,
      BitVec.getLsbD_or, BitVec.getLsbD_shiftLeft] <;>
    grind

lemma blockWords_wordsBlock (s : Word × Word) : blockWords (wordsBlock s) = s :=
  Prod.ext (joinBytes_cut s.1) (joinBytes_cut s.2)

lemma wordsBlock_blockWords (b : Block 8) : wordsBlock (blockWords b) = b := by
  obtain ⟨h0, h1, h2, h3⟩ := cut_joinBytes (byteAt b 0).toBitVec (byteAt b 1).toBitVec (byteAt b 2).toBitVec
    (byteAt b 3).toBitVec
  obtain ⟨h4, h5, h6, h7⟩ := cut_joinBytes (byteAt b 4).toBitVec (byteAt b 5).toBitVec (byteAt b 6).toBitVec
    (byteAt b 7).toBitVec
  ext i hi
  rw [UInt8.toNat_inj]
  interval_cases i
  · exact congrArg UInt8.ofBitVec h0
  · exact congrArg UInt8.ofBitVec h1
  · exact congrArg UInt8.ofBitVec h2
  · exact congrArg UInt8.ofBitVec h3
  · exact congrArg UInt8.ofBitVec h4
  · exact congrArg UInt8.ofBitVec h5
  · exact congrArg UInt8.ofBitVec h6
  · exact congrArg UInt8.ofBitVec h7

/-! ### The permutations -/

/-- A step of the permutations: the bits of `p.1` that are `s` places above the mask `m` are
exchanged with the bits of `p.2` in the mask. -/
def deltaSwap (s : ℕ) (m : Word) (p : Word × Word) : Word × Word :=
  let T := ((p.1 >>> s) ^^^ p.2) &&& m
  (p.1 ^^^ (T <<< s), p.2 ^^^ T)

/-- A step undoes itself when the mask keeps its bits while it is shifted. -/
lemma deltaSwap_deltaSwap {s : ℕ} {m : Word} (hm : (m <<< s) >>> s = m) (p : Word × Word) :
    deltaSwap s m (deltaSwap s m p) = p := by
  obtain ⟨a, b⟩ := p
  have hback (v : Word) : ((v &&& m) <<< s) >>> s = v &&& m := by
    rw [← hm]
    ext i hi
    simp only [BitVec.getElem_ushiftRight, BitVec.getLsbD_shiftLeft, BitVec.getLsbD_and, BitVec.getElem_and]
    grind
  have hT : (((a ^^^ (((a >>> s) ^^^ b) &&& m) <<< s) >>> s) ^^^ (b ^^^ (((a >>> s) ^^^ b) &&& m))) &&& m =
      ((a >>> s) ^^^ b) &&& m := by
    rw [BitVec.ushiftRight_xor_distrib, hback]
    ext i hi
    simp only [BitVec.getElem_and, BitVec.getElem_xor]
    grind
  simp only [deltaSwap, hT, BitVec.xor_assoc, BitVec.xor_self, BitVec.xor_zero]

def rotl (v : Word) : Word := ((v <<< 1) ||| (v >>> 31)) &&& 0xFFFFFFFF

def rotr (v : Word) : Word := ((v <<< 31) ||| (v >>> 1)) &&& 0xFFFFFFFF

lemma rotl_eq (v : Word) : rotl v = v.rotateLeft 1 := BitVec.and_allOnes

lemma rotr_eq (v : Word) : rotr v = v.rotateRight 1 := by
  rw [rotr, BitVec.or_comm]
  exact BitVec.and_allOnes

lemma rotr_rotl (v : Word) : rotr (rotl v) = v := by
  rw [rotr_eq, rotl_eq]
  ext i hi
  simp only [BitVec.getElem_rotateRight, BitVec.getElem_rotateLeft]
  grind

lemma rotl_rotr (v : Word) : rotl (rotr v) = v := by
  rw [rotr_eq, rotl_eq]
  ext i hi
  simp only [BitVec.getElem_rotateRight, BitVec.getElem_rotateLeft]
  grind

lemma desIP_eq (X Y : Word) :
    desIP X Y =
      let q := deltaSwap 8 0x00FF00FF (deltaSwap 2 0x33333333
        (deltaSwap 16 0x0000FFFF (deltaSwap 4 0x0F0F0F0F (X, Y))).swap)
      let r := deltaSwap 0 0xAAAAAAAA (q.2, rotl q.1)
      (rotl r.1, r.2) := by
  simp only [deltaSwap, BitVec.shiftLeft_zero, BitVec.ushiftRight_zero]
  rfl

lemma desFP_eq (X Y : Word) :
    desFP X Y =
      let r := deltaSwap 0 0xAAAAAAAA (rotr X, Y)
      deltaSwap 4 0x0F0F0F0F (deltaSwap 16 0x0000FFFF
        (deltaSwap 2 0x33333333 (deltaSwap 8 0x00FF00FF (rotr r.2, r.1))).swap) := by
  simp only [deltaSwap, BitVec.shiftLeft_zero, BitVec.ushiftRight_zero]
  rfl

lemma desFP_desIP (X Y : Word) : desFP (desIP X Y).1 (desIP X Y).2 = (X, Y) := by
  simp only [desIP_eq, desFP_eq, rotr_rotl, Prod.mk.eta]
  rw [deltaSwap_deltaSwap (by decide)]
  simp only [rotr_rotl, Prod.mk.eta]
  rw [deltaSwap_deltaSwap (by decide), deltaSwap_deltaSwap (by decide), Prod.swap_swap,
    deltaSwap_deltaSwap (by decide), deltaSwap_deltaSwap (by decide)]

lemma desIP_desFP (X Y : Word) : desIP (desFP X Y).1 (desFP X Y).2 = (X, Y) := by
  simp only [desIP_eq, desFP_eq, Prod.mk.eta]
  rw [deltaSwap_deltaSwap (by decide), deltaSwap_deltaSwap (by decide), Prod.swap_swap,
    deltaSwap_deltaSwap (by decide), deltaSwap_deltaSwap (by decide)]
  simp only [rotl_rotr, Prod.mk.eta]
  rw [deltaSwap_deltaSwap (by decide)]
  simp only [rotl_rotr]

/-! ### The rounds -/

/-- What `DES_ROUND` combines `Y` with. -/
def desF (k : Word × Word) (X : Word) : Word :=
  let T := k.1 ^^^ X
  let U := k.2 ^^^ ((X <<< 28) ||| (X >>> 4))
  SB8.get (sixBits T) ^^^ SB6.get (sixBits (T >>> 8)) ^^^ SB4.get (sixBits (T >>> 16)) ^^^
    SB2.get (sixBits (T >>> 24)) ^^^ SB7.get (sixBits U) ^^^ SB5.get (sixBits (U >>> 8)) ^^^
    SB3.get (sixBits (U >>> 16)) ^^^ SB1.get (sixBits (U >>> 24))

/-- The subkeys of the sixteen rounds that start at `p`. -/
def roundKeys (SK : Subkeys) (p : ℕ) : List (Word × Word) :=
  (List.range 16).map fun r => (SK (p + 2 * r), SK (p + 2 * r + 1))

lemma desRound_eq (SK : Subkeys) (i : ℕ) (X Y : Word) :
    desRound SK i X Y = Y ^^^ desF (SK i, SK (i + 1)) X := by
  simp only [desRound, desF, BitVec.xor_assoc]

/-- The macros of sixteen rounds are sixteen rounds of a Feistel network. -/
lemma sixteenRounds_eq (SK : Subkeys) (p : ℕ) (X Y : Word) :
    sixteenRounds SK p X Y = Feistel.run desF (X, Y) (roundKeys SK p) := by
  simp only [sixteenRounds, desRound_eq]
  rfl

/-- A block through the permutations and the network with the keys `ks`. -/
def cipher (ks : List (Word × Word)) (b : Block 8) : Block 8 :=
  let s := blockWords b
  let t := Feistel.run desF (desIP s.1 s.2) ks
  wordsBlock (desFP t.2 t.1)

lemma desCrypt_eq (SK : Subkeys) (input output : Block 8) : desCrypt SK input output = cipher (roundKeys SK 0) input := by
  simp only [desCrypt, sixteenRounds_eq, putUint32_putUint32]
  rfl

/-- The halves behind `DES_IP` of an encrypted block. -/
lemma desIP_cipher (ks : List (Word × Word)) (b : Block 8) :
    desIP (blockWords (cipher ks b)).1 (blockWords (cipher ks b)).2 =
      (Feistel.run desF (desIP (blockWords b).1 (blockWords b).2) ks).swap := by
  rw [cipher, blockWords_wordsBlock, desIP_desFP]
  rfl

lemma xor_cancel (a b : Word) : a ^^^ b ^^^ b = a := by
  rw [BitVec.xor_assoc, BitVec.xor_self, BitVec.xor_zero]

/-- **The keys in reverse order decrypt.** -/
lemma cipher_reverse (ks : List (Word × Word)) (b : Block 8) : cipher ks.reverse (cipher ks b) = b := by
  rw [cipher, desIP_cipher, Feistel.run_reverse xor_cancel, Prod.fst_swap, Prod.snd_swap, desFP_desIP, Prod.mk.eta,
    wordsBlock_blockWords]

/-! ### The subkeys -/

lemma ksLoop_step (SK : Subkeys) (p : ℕ) {i : ℕ} (hi : i < 16) (X Y : Word) :
    ksLoop SK p i X Y =
      ksLoop (Function.update (Function.update SK p (subkey1 (ksRotate i X) (ksRotate i Y))) (p + 1)
        (subkey2 (ksRotate i X) (ksRotate i Y))) (p + 2) (i + 1) (ksRotate i X) (ksRotate i Y) := by
  rw [ksLoop, if_pos hi]

/-- The subkeys of the rounds from `i` on, `n` of them. -/
def schedule : ℕ → ℕ → Word → Word → List (Word × Word)
  | 0, _, _, _ => []
  | n + 1, i, X, Y =>
      (subkey1 (ksRotate i X) (ksRotate i Y), subkey2 (ksRotate i X) (ksRotate i Y)) ::
        schedule n (i + 1) (ksRotate i X) (ksRotate i Y)

/-- The loop writes from `p` on, two words a round. -/
lemma ksLoop_frame (n : ℕ) : ∀ (SK : Subkeys) (p i : ℕ) (X Y : Word), i + n = 16 →
    ∀ q, q < p ∨ p + 2 * n ≤ q → ksLoop SK p i X Y q = SK q := by
  induction n with
  | zero =>
      intro SK p i X Y hi q _
      rw [ksLoop, if_neg (by omega)]
  | succ n ih =>
      intro SK p i X Y hi q hq
      rw [ksLoop_step SK p (by omega), ih _ _ _ _ _ (by omega) q (by omega),
        Function.update_of_ne (by omega), Function.update_of_ne (by omega)]

/-- The pairs of words from `p` on are the subkeys of the rounds. -/
lemma ksLoop_pairs (n : ℕ) : ∀ (SK : Subkeys) (p i : ℕ) (X Y : Word), i + n = 16 →
    ((List.range n).map fun r => (ksLoop SK p i X Y (p + 2 * r), ksLoop SK p i X Y (p + 2 * r + 1))) =
      schedule n i X Y := by
  induction n with
  | zero => intros; rfl
  | succ n ih =>
      intro SK p i X Y hi
      have hfirst := ksLoop_frame n (Function.update (Function.update SK p
        (subkey1 (ksRotate i X) (ksRotate i Y))) (p + 1) (subkey2 (ksRotate i X) (ksRotate i Y)))
        (p + 2) (i + 1) (ksRotate i X) (ksRotate i Y) (by omega)
      rw [List.range_succ_eq_map, List.map_cons, List.map_map, schedule, ksLoop_step SK p (by omega), ← ih _ (p + 2) _ _ _ (by omega)]
      congr 1
      · rw [Nat.mul_zero, Nat.add_zero p, hfirst p (by omega), hfirst (p + 1) (by omega),
          Function.update_of_ne (by omega), Function.update_self, Function.update_self]
      · refine List.map_congr_left fun r _ => ?_
        rw [Function.comp_apply, show p + 2 * r.succ = p + 2 + 2 * r by omega]

/-- The subkeys of a key. -/
def keySchedule (key : Block 8) : List (Word × Word) :=
  let s := desPC1 (getUint32 key 0) (getUint32 key 4)
  schedule 16 0 s.1 s.2

lemma roundKeys_desMainKs (SK : Subkeys) (p : ℕ) (key : Block 8) :
    roundKeys (desMainKs SK p key) p = keySchedule key := ksLoop_pairs 16 SK p 0 _ _ rfl

lemma desMainKs_frame (SK : Subkeys) (p : ℕ) (key : Block 8) {q : ℕ} (hq : q < p ∨ p + 32 ≤ q) :
    desMainKs SK p key q = SK q := ksLoop_frame 16 SK p 0 _ _ rfl q hq

lemma roundKeys_congr {SK SK' : Subkeys} {p p' : ℕ} (h : ∀ j < 32, SK (p + j) = SK' (p' + j)) :
    roundKeys SK p = roundKeys SK' p' := by
  refine List.map_congr_left fun r hr => ?_
  rw [List.mem_range] at hr
  rw [Nat.add_assoc, Nat.add_assoc, h _ (by omega), h _ (by omega)]

/-- Words that are taken in pairs from the end are the subkeys in reverse order. -/
lemma roundKeys_reverse {SK SK' : Subkeys} {p p' : ℕ} (h : ∀ r < 16, SK (p + 2 * r) = SK' (p' + 30 - 2 * r))
    (h1 : ∀ r < 16, SK (p + 2 * r + 1) = SK' (p' + 31 - 2 * r)) : roundKeys SK p = (roundKeys SK' p').reverse := by
  refine List.ext_getElem (by simp [roundKeys]) fun r hr _ => ?_
  have hr : r < 16 := by simpa [roundKeys] using hr
  rw [List.getElem_reverse]
  simp only [roundKeys, List.getElem_map, List.getElem_range, List.length_map, List.length_range, h r hr, h1 r hr]
  congr 2 <;> omega

lemma setDskLoop_step (ctx : DesContext) {i : ℕ} (hi : i < 32) :
    setDskLoop ctx i =
      setDskLoop ⟨ctx.esk, Function.update (Function.update ctx.dsk i (ctx.esk (30 - i))) (i + 1)
        (ctx.esk (31 - i))⟩ (i + 2) := by
  rw [setDskLoop, if_pos hi]

/-- The loop of `des_set_key` from `i` on: the words in front of `i` are as they were. -/
lemma setDskLoop_spec (n : ℕ) : ∀ (ctx : DesContext) (i : ℕ), i + 2 * n = 32 →
    (setDskLoop ctx i).esk = ctx.esk ∧ (∀ q < i, (setDskLoop ctx i).dsk q = ctx.dsk q) ∧
      ∀ r < n, (setDskLoop ctx i).dsk (i + 2 * r) = ctx.esk (30 - (i + 2 * r)) ∧
        (setDskLoop ctx i).dsk (i + 2 * r + 1) = ctx.esk (31 - (i + 2 * r)) := by
  induction n with
  | zero =>
      intro ctx i hi
      rw [setDskLoop, if_neg (by omega)]
      exact ⟨rfl, fun _ _ => rfl, fun r hr => absurd hr (Nat.not_lt_zero r)⟩
  | succ n ih =>
      intro ctx i hi
      rw [setDskLoop_step ctx (by omega)]
      obtain ⟨hesk, hfront, hdsk⟩ := ih
        ⟨ctx.esk, Function.update (Function.update ctx.dsk i (ctx.esk (30 - i))) (i + 1) (ctx.esk (31 - i))⟩
        (i + 2) (by omega)
      dsimp only at hesk hfront hdsk
      refine ⟨hesk, fun q hq => ?_, fun r hr => ?_⟩
      · rw [hfront q (by omega), Function.update_of_ne (by omega), Function.update_of_ne (by omega)]
      · cases r with
        | zero =>
            rw [Nat.mul_zero, Nat.add_zero i, hfront i (by omega), hfront (i + 1) (by omega),
              Function.update_of_ne (by omega), Function.update_self, Function.update_self]
            exact ⟨rfl, rfl⟩
        | succ r =>
            rw [show i + 2 * (r + 1) = i + 2 + 2 * r by omega]
            exact hdsk r (by omega)

/-- **The context of a key**, whatever it held before: the subkeys, and the subkeys in reverse order. -/
lemma desSetKey_keys (ctx : DesContext) (key : Block 8) :
    roundKeys (desSetKey ctx key).esk 0 = keySchedule key ∧
      roundKeys (desSetKey ctx key).dsk 0 = (keySchedule key).reverse := by
  obtain ⟨hesk, -, hdsk⟩ := setDskLoop_spec 16 { ctx with esk := desMainKs ctx.esk 0 key } 0 rfl
  have hkeys : roundKeys (desSetKey ctx key).esk 0 = keySchedule key := by
    rw [desSetKey, hesk, roundKeys_desMainKs]
  refine ⟨hkeys, ?_⟩
  rw [← hkeys]
  refine roundKeys_reverse (fun r hr => ?_) fun r hr => ?_
  · rw [desSetKey, hesk, (hdsk r hr).1]
    congr 1
    omega
  · rw [desSetKey, hesk, (hdsk r hr).2]
    congr 1
    omega

/-- Encryption of a block under a key. -/
def desE (key b : Block 8) : Block 8 := cipher (keySchedule key) b

/-- Decryption of a block under a key. -/
def desD (key b : Block 8) : Block 8 := cipher (keySchedule key).reverse b

lemma desEncrypt_eq (ctx : DesContext) (key input output : Block 8) :
    desEncrypt (desSetKey ctx key) input output = desE key input := by
  rw [desEncrypt, desCrypt_eq, (desSetKey_keys ctx key).1, desE]

lemma desDecrypt_eq (ctx : DesContext) (key input output : Block 8) :
    desDecrypt (desSetKey ctx key) input output = desD key input := by
  rw [desDecrypt, desCrypt_eq, (desSetKey_keys ctx key).2, desD]

lemma desD_desE (key b : Block 8) : desD key (desE key b) = b := cipher_reverse (keySchedule key) b

lemma desE_desD (key b : Block 8) : desE key (desD key b) = b := by
  have h := cipher_reverse (keySchedule key).reverse b
  rwa [List.reverse_reverse] at h

/-- **Decryption undoes encryption, and encryption decryption**, for every key and block and whatever
the contexts and buffers held before. -/
theorem desDecrypt_desEncrypt (ctx ctx' : DesContext) (key b output output' : Block 8) :
    desDecrypt (desSetKey ctx key) (desEncrypt (desSetKey ctx' key) b output) output' = b ∧
      desEncrypt (desSetKey ctx key) (desDecrypt (desSetKey ctx' key) b output) output' = b := by
  rw [desDecrypt_eq, desEncrypt_eq, desEncrypt_eq, desDecrypt_eq]
  exact ⟨desD_desE key b, desE_desD key b⟩

end DeviceTools.Ic
