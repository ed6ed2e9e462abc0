/-
DES as the standard defines it.

The standard numbers the bits of a block from 1, the leftmost first, and gives its permutations as
tables of bit numbers.  A block is permuted, taken through sixteen rounds with 48-bit keys, and
permuted back; the round function expands the right half, combines it with the key, takes six bits
at a time through the S-boxes and permutes the result.  The keys are chosen from two halves of 28
bits that are rotated from round to round.  The code has none of this arithmetic: it is the
purpose that the module on the tables of the code is measured against.
-/
import DeviceTools.Lib.Feistel
import DeviceTools.Lib.XorLinear

namespace DeviceTools.Ic.DesStandard

/-- The bits of `v` that a table names; bit 1 is the leftmost. -/
def select {n m : ℕ} (table : Vector ℕ m) (v : BitVec n) : BitVec m := BitVec.ofFnBE fun i => v.getMsbD (table.get i - 1)

/-- The initial permutation. -/
def IP : Vector ℕ 64 := #v[
  58, 50, 42, 34, 26, 18, 10, 2,
  60, 52, 44, 36, 28, 20, 12, 4,
  62, 54, 46, 38, 30, 22, 14, 6,
  64, 56, 48, 40, 32, 24, 16, 8,
  57, 49, 41, 33, 25, 17, 9, 1,
  59, 51, 43, 35, 27, 19, 11, 3,
  61, 53, 45, 37, 29, 21, 13, 5,
  63, 55, 47, 39, 31, 23, 15, 7]

/-- The permutation at the end. -/
def FP : Vector ℕ 64 := #v[
  40, 8, 48, 16, 56, 24, 64, 32,
  39, 7, 47, 15, 55, 23, 63, 31,
  38, 6, 46, 14, 54, 22, 62, 30,
  37, 5, 45, 13, 53, 21, 61, 29,
  36, 4, 44, 12, 52, 20, 60, 28,
  35, 3, 43, 11, 51, 19, 59, 27,
  34, 2, 42, 10, 50, 18, 58, 26,
  33, 1, 41, 9, 49, 17, 57, 25]

/-- The expansion of a half to 48 bits. -/
def E : Vector ℕ 48 := #v[
  32, 1, 2, 3, 4, 5,
  4, 5, 6, 7, 8, 9,
  8, 9, 10, 11, 12, 13,
  12, 13, 14, 15, 16, 17,
  16, 17, 18, 19, 20, 21,
  20, 21, 22, 23, 24, 25,
  24, 25, 26, 27, 28, 29,
  28, 29, 30, 31, 32, 1]

/-- The permutation behind the S-boxes. -/
def P : Vector ℕ 32 := #v[
  16, 7, 20, 21, 29, 12, 28, 17,
  1, 15, 23, 26, 5, 18, 31, 10,
  2, 8, 24, 14, 32, 27, 3, 9,
  19, 13, 30, 6, 22, 11, 4, 25]

/-- Permuted choice 1, for the left and for the right half. -/
def PC1C : Vector ℕ 28 := #v[
  57, 49, 41, 33, 25, 17, 9,
  1, 58, 50, 42, 34, 26, 18,
  10, 2, 59, 51, 43, 35, 27,
  19, 11, 3, 60, 52, 44, 36]

def PC1D : Vector ℕ 28 := #v[
  63, 55, 47, 39, 31, 23, 15,
  7, 62, 54, 46, 38, 30, 22,
  14, 6, 61, 53, 45, 37, 29,
  21, 13, 5, 28, 20, 12, 4]

/-- Permuted choice 2. -/
def PC2 : Vector ℕ 48 := #v[
  14, 17, 11, 24, 1, 5,
  3, 28, 15, 6, 21, 10,
  23, 19, 12, 4, 26, 8,
  16, 7, 27, 20, 13, 2,
  41, 52, 31, 37, 47, 55,
  30, 40, 51, 45, 33, 48,
  44, 49, 39, 56, 34, 53,
  46, 42, 50, 36, 29, 32]

/-- The S-boxes, four rows of sixteen values each. -/
def S : Vector (Vector (BitVec 4) 64) 8 := #v[
  #v[14, 4, 13, 1, 2, 15, 11, 8, 3, 10, 6, 12, 5, 9, 0, 7,
    0, 15, 7, 4, 14, 2, 13, 1, 10, 6, 12, 11, 9, 5, 3, 8,
    4, 1, 14, 8, 13, 6, 2, 11, 15, 12, 9, 7, 3, 10, 5, 0,
    15, 12, 8, 2, 4, 9, 1, 7, 5, 11, 3, 14, 10, 0, 6, 13],
  #v[15, 1, 8, 14, 6, 11, 3, 4, 9, 7, 2, 13, 12, 0, 5, 10,
    3, 13, 4, 7, 15, 2, 8, 14, 12, 0, 1, 10, 6, 9, 11, 5,
    0, 14, 7, 11, 10, 4, 13, 1, 5, 8, 12, 6, 9, 3, 2, 15,
    13, 8, 10, 1, 3, 15, 4, 2, 11, 6, 7, 12, 0, 5, 14, 9],
  #v[10, 0, 9, 14, 6, 3, 15, 5, 1, 13, 12, 7, 11, 4, 2, 8,
    13, 7, 0, 9, 3, 4, 6, 10, 2, 8, 5, 14, 12, 11, 15, 1,
    13, 6, 4, 9, 8, 15, 3, 0, 11, 1, 2, 12, 5, 10, 14, 7,
    1, 10, 13, 0, 6, 9, 8, 7, 4, 15, 14, 3, 11, 5, 2, 12],
  #v[7, 13, 14, 3, 0, 6, 9, 10, 1, 2, 8, 5, 11, 12, 4, 15,
    13, 8, 11, 5, 6, 15, 0, 3, 4, 7, 2, 12, 1, 10, 14, 9,
    10, 6, 9, 0, 12, 11, 7, 13, 15, 1, 3, 14, 5, 2, 8, 4,
    3, 15, 0, 6, 10, 1, 13, 8, 9, 4, 5, 11, 12, 7, 2, 14],
  #v[2, 12, 4, 1, 7, 10, 11, 6, 8, 5, 3, 15, 13, 0, 14, 9,
    14, 11, 2, 12, 4, 7, 13, 1, 5, 0, 15, 10, 3, 9, 8, 6,
    4, 2, 1, 11, 10, 13, 7, 8, 15, 9, 12, 5, 6, 3, 0, 14,
    11, 8, 12, 7, 1, 14, 2, 13, 6, 15, 0, 9, 10, 4, 5, 3],
  #v[12, 1, 10, 15, 9, 2, 6, 8, 0, 13, 3, 4, 14, 7, 5, 11,
    10, 15, 4, 2, 7, 12, 9, 5, 6, 1, 13, 14, 0, 11, 3, 8,
    9, 14, 15, 5, 2, 8, 12, 3, 7, 0, 4, 10, 1, 13, 11, 6,
    4, 3, 2, 12, 9, 5, 15, 10, 11, 14, 1, 7, 6, 0, 8, 13],
  #v[4, 11, 2, 14, 15, 0, 8, 13, 3, 12, 9, 7, 5, 10, 6, 1,
    13, 0, 11, 7, 4, 9, 1, 10, 14, 3, 5, 12, 2, 15, 8, 6,
    1, 4, 11, 13, 12, 3, 7, 14, 10, 15, 6, 8, 0, 5, 9, 2,
    6, 11, 13, 8, 1, 4, 10, 7, 9, 5, 0, 15, 14, 2, 3, 12],
  #v[13, 2, 8, 4, 6, 15, 11, 1, 10, 9, 3, 14, 5, 0, 12, 7,
    1, 15, 13, 8, 10, 3, 7, 4, 12, 5, 6, 11, 0, 14, 9, 2,
    7, 11, 4, 1, 9, 12, 14, 2, 0, 6, 10, 13, 15, 3, 5, 8,
    2, 1, 14, 7, 4, 10, 8, 13, 15, 12, 9, 0, 3, 5, 6, 11]]

/-- The value of an S-box: the outer bits of `v` are the row, the inner ones the column. -/
def sBox (box : Vector (BitVec 4) 64) (v : BitVec 6) : BitVec 4 :=
  box.get (v.extractLsb' 5 1 ++ v.extractLsb' 0 1 ++ v.extractLsb' 1 4 : BitVec 6).toFin

/-- The six bits of group `j`, from the left. -/
def group (v : BitVec 48) (j : ℕ) : BitVec 6 := v.extractLsb' (42 - 6 * j) 6

/-- The S-boxes on 48 bits, side by side. -/
def sBoxes (v : BitVec 48) : BitVec 32 :=
  sBox S[0] (group v 0) ++ sBox S[1] (group v 1) ++ sBox S[2] (group v 2) ++ sBox S[3] (group v 3) ++
    sBox S[4] (group v 4) ++ sBox S[5] (group v 5) ++ sBox S[6] (group v 6) ++ sBox S[7] (group v 7)

/-- The round function. -/
def f (K : BitVec 48) (R : BitVec 32) : BitVec 32 := select P (sBoxes (select E R ^^^ K))

/-- The number of places by which the halves are rotated before the key of round `i`, from 0. -/
def shifts (i : ℕ) : ℕ := if i = 0 ∨ i = 1 ∨ i = 8 ∨ i = 15 then 1 else 2

/-- The keys of the rounds from `i` on, `n` of them. -/
def keysFrom : ℕ → ℕ → BitVec 28 → BitVec 28 → List (BitVec 48)
  | 0, _, _, _ => []
  | n + 1, i, C, D =>
      select PC2 (C.rotateLeft (shifts i) ++ D.rotateLeft (shifts i)) ::
        keysFrom n (i + 1) (C.rotateLeft (shifts i)) (D.rotateLeft (shifts i))

/-- The keys of the sixteen rounds. -/
def keys (key : BitVec 64) : List (BitVec 48) := keysFrom 16 0 (select PC1C key) (select PC1D key)

/-- A block through the rounds with the keys `ks`. -/
def crypt (ks : List (BitVec 48)) (m : BitVec 64) : BitVec 64 :=
  let m := select IP m
  let s := Feistel.run f (m.extractLsb' 32 32, m.extractLsb' 0 32) ks
  select FP (s.2 ++ s.1)

def encrypt (key m : BitVec 64) : BitVec 64 := crypt (keys key) m

def decrypt (key m : BitVec 64) : BitVec 64 := crypt (keys key).reverse m

example : encrypt 0x133457799BBCDFF1 0x0123456789ABCDEF = 0x85E813540F0AB405 := by decide +kernel

end DeviceTools.Ic.DesStandard
