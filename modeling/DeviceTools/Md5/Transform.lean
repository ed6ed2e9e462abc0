/-
The block transformation of the message digest.

The macros of a step change one of the four variables `a`, `b`, `c`, `d`, and the function goes
through sixty-four of them with the variables in turn.  An `unsigned long` has 32 bits on the device.
The standard has the same steps as a loop over tables, with the four values moved on by one place
each time; the last theorem compares the two.
-/
import DeviceTools.Lib.Memory

namespace DeviceTools.Md5

open Memory

/-- A `UINT4`. -/
abbrev UINT4 := BitVec 32

/-! ### The constants -/

def S11 : ℕ := 7
def S12 : ℕ := 12
def S13 : ℕ := 17
def S14 : ℕ := 22
def S21 : ℕ := 5
def S22 : ℕ := 9
def S23 : ℕ := 14
def S24 : ℕ := 20
def S31 : ℕ := 4
def S32 : ℕ := 11
def S33 : ℕ := 16
def S34 : ℕ := 23
def S41 : ℕ := 6
def S42 : ℕ := 10
def S43 : ℕ := 15
def S44 : ℕ := 21

/-! ### The macros -/

def F (x y z : UINT4) : UINT4 := (x &&& y) ||| (~~~x &&& z)
def G (x y z : UINT4) : UINT4 := (x &&& z) ||| (y &&& ~~~z)
def H (x y z : UINT4) : UINT4 := x ^^^ y ^^^ z
def I (x y z : UINT4) : UINT4 := y ^^^ (x ||| ~~~z)

def ROTATE_LEFT (x : UINT4) (n : ℕ) : UINT4 := (x <<< n) ||| (x >>> (32 - n))

/-- The variables of the function. -/
inductive Var
  | a | b | c | d
deriving DecidableEq, Repr

/-- The values of the variables. -/
structure Vars where
  a : UINT4
  b : UINT4
  c : UINT4
  d : UINT4
deriving DecidableEq, Repr

def Vars.get (r : Vars) : Var → UINT4
  | .a => r.a
  | .b => r.b
  | .c => r.c
  | .d => r.d

def Vars.set (r : Vars) (v : Var) (x : UINT4) : Vars :=
  match v with
  | .a => { r with a := x }
  | .b => { r with b := x }
  | .c => { r with c := x }
  | .d => { r with d := x }

/-- What the macros of a step have in common; they differ in the function `f`. -/
def transformStep (f : UINT4 → UINT4 → UINT4 → UINT4) (r : Vars) (v1 v2 v3 v4 : Var) (x : UINT4) (s : ℕ) (ac : UINT4) :
    Vars :=
  let r := r.set v1 (r.get v1 + (f (r.get v2) (r.get v3) (r.get v4) + x + ac))
  let r := r.set v1 (ROTATE_LEFT (r.get v1) s)
  r.set v1 (r.get v1 + r.get v2)

def FF : Vars → Var → Var → Var → Var → UINT4 → ℕ → UINT4 → Vars := transformStep F
def GG : Vars → Var → Var → Var → Var → UINT4 → ℕ → UINT4 → Vars := transformStep G
def HH : Vars → Var → Var → Var → Var → UINT4 → ℕ → UINT4 → Vars := transformStep H
def II : Vars → Var → Var → Var → Var → UINT4 → ℕ → UINT4 → Vars := transformStep I

/-- `Decode`: the words of a byte string, the low byte first. -/
def Decode (input : Bytes) (i : ℕ) : UINT4 :=
  (input (4 * i)).toBitVec.setWidth 32 ||| ((input (4 * i + 1)).toBitVec.setWidth 32 <<< 8) |||
    ((input (4 * i + 2)).toBitVec.setWidth 32 <<< 16) ||| ((input (4 * i + 3)).toBitVec.setWidth 32 <<< 24)

/-- `state[4]`. -/
abbrev State := Vector UINT4 4

/-- A line of `MD5Transform`: the macro, its variables, the word of the block, the places to rotate
by and the constant. -/
inductive Op
  | FF | GG | HH | II
deriving DecidableEq, Repr

structure Line where
  op : Op
  v1 : Var
  v2 : Var
  v3 : Var
  v4 : Var
  k : ℕ
  s : ℕ
  ac : UINT4
deriving DecidableEq, Repr

def Line.exec (x : ℕ → UINT4) (r : Vars) (l : Line) : Vars :=
  match l.op with
  | .FF => FF r l.v1 l.v2 l.v3 l.v4 (x l.k) l.s l.ac
  | .GG => GG r l.v1 l.v2 l.v3 l.v4 (x l.k) l.s l.ac
  | .HH => HH r l.v1 l.v2 l.v3 l.v4 (x l.k) l.s l.ac
  | .II => II r l.v1 l.v2 l.v3 l.v4 (x l.k) l.s l.ac

/-- The lines of `MD5Transform`, round by round. -/
def lines : List Line := [
  ⟨.FF, .a, .b, .c, .d, 0, S11, 0xd76aa478⟩,
  ⟨.FF, .d, .a, .b, .c, 1, S12, 0xe8c7b756⟩,
  ⟨.FF, .c, .d, .a, .b, 2, S13, 0x242070db⟩,
  ⟨.FF, .b, .c, .d, .a, 3, S14, 0xc1bdceee⟩,
  ⟨.FF, .a, .b, .c, .d, 4, S11, 0xf57c0faf⟩,
  ⟨.FF, .d, .a, .b, .c, 5, S12, 0x4787c62a⟩,
  ⟨.FF, .c, .d, .a, .b, 6, S13, 0xa8304613⟩,
  ⟨.FF, .b, .c, .d, .a, 7, S14, 0xfd469501⟩,
  ⟨.FF, .a, .b, .c, .d, 8, S11, 0x698098d8⟩,
  ⟨.FF, .d, .a, .b, .c, 9, S12, 0x8b44f7af⟩,
  ⟨.FF, .c, .d, .a, .b, 10, S13, 0xffff5bb1⟩,
  ⟨.FF, .b, .c, .d, .a, 11, S14, 0x895cd7be⟩,
  ⟨.FF, .a, .b, .c, .d, 12, S11, 0x6b901122⟩,
  ⟨.FF, .d, .a, .b, .c, 13, S12, 0xfd987193⟩,
  ⟨.FF, .c, .d, .a, .b, 14, S13, 0xa679438e⟩,
  ⟨.FF, .b, .c, .d, .a, 15, S14, 0x49b40821⟩,
  ⟨.GG, .a, .b, .c, .d, 1, S21, 0xf61e2562⟩,
  ⟨.GG, .d, .a, .b, .c, 6, S22, 0xc040b340⟩,
  ⟨.GG, .c, .d, .a, .b, 11, S23, 0x265e5a51⟩,
  ⟨.GG, .b, .c, .d, .a, 0, S24, 0xe9b6c7aa⟩,
  ⟨.GG, .a, .b, .c, .d, 5, S21, 0xd62f105d⟩,
  ⟨.GG, .d, .a, .b, .c, 10, S22, 0x2441453⟩,
  ⟨.GG, .c, .d, .a, .b, 15, S23, 0xd8a1e681⟩,
  ⟨.GG, .b, .c, .d, .a, 4, S24, 0xe7d3fbc8⟩,
  ⟨.GG, .a, .b, .c, .d, 9, S21, 0x21e1cde6⟩,
  ⟨.GG, .d, .a, .b, .c, 14, S22, 0xc33707d6⟩,
  ⟨.GG, .c, .d, .a, .b, 3, S23, 0xf4d50d87⟩,
  ⟨.GG, .b, .c, .d, .a, 8, S24, 0x455a14ed⟩,
  ⟨.GG, .a, .b, .c, .d, 13, S21, 0xa9e3e905⟩,
  ⟨.GG, .d, .a, .b, .c, 2, S22, 0xfcefa3f8⟩,
  ⟨.GG, .c, .d, .a, .b, 7, S23, 0x676f02d9⟩,
  ⟨.GG, .b, .c, .d, .a, 12, S24, 0x8d2a4c8a⟩,
  ⟨.HH, .a, .b, .c, .d, 5, S31, 0xfffa3942⟩,
  ⟨.HH, .d, .a, .b, .c, 8, S32, 0x8771f681⟩,
  ⟨.HH, .c, .d, .a, .b, 11, S33, 0x6d9d6122⟩,
  ⟨.HH, .b, .c, .d, .a, 14, S34, 0xfde5380c⟩,
  ⟨.HH, .a, .b, .c, .d, 1, S31, 0xa4beea44⟩,
  ⟨.HH, .d, .a, .b, .c, 4, S32, 0x4bdecfa9⟩,
  ⟨.HH, .c, .d, .a, .b, 7, S33, 0xf6bb4b60⟩,
  ⟨.HH, .b, .c, .d, .a, 10, S34, 0xbebfbc70⟩,
  ⟨.HH, .a, .b, .c, .d, 13, S31, 0x289b7ec6⟩,
  ⟨.HH, .d, .a, .b, .c, 0, S32, 0xeaa127fa⟩,
  ⟨.HH, .c, .d, .a, .b, 3, S33, 0xd4ef3085⟩,
  ⟨.HH, .b, .c, .d, .a, 6, S34, 0x4881d05⟩,
  ⟨.HH, .a, .b, .c, .d, 9, S31, 0xd9d4d039⟩,
  ⟨.HH, .d, .a, .b, .c, 12, S32, 0xe6db99e5⟩,
  ⟨.HH, .c, .d, .a, .b, 15, S33, 0x1fa27cf8⟩,
  ⟨.HH, .b, .c, .d, .a, 2, S34, 0xc4ac5665⟩,
  ⟨.II, .a, .b, .c, .d, 0, S41, 0xf4292244⟩,
  ⟨.II, .d, .a, .b, .c, 7, S42, 0x432aff97⟩,
  ⟨.II, .c, .d, .a, .b, 14, S43, 0xab9423a7⟩,
  ⟨.II, .b, .c, .d, .a, 5, S44, 0xfc93a039⟩,
  ⟨.II, .a, .b, .c, .d, 12, S41, 0x655b59c3⟩,
  ⟨.II, .d, .a, .b, .c, 3, S42, 0x8f0ccc92⟩,
  ⟨.II, .c, .d, .a, .b, 10, S43, 0xffeff47d⟩,
  ⟨.II, .b, .c, .d, .a, 1, S44, 0x85845dd1⟩,
  ⟨.II, .a, .b, .c, .d, 8, S41, 0x6fa87e4f⟩,
  ⟨.II, .d, .a, .b, .c, 15, S42, 0xfe2ce6e0⟩,
  ⟨.II, .c, .d, .a, .b, 6, S43, 0xa3014314⟩,
  ⟨.II, .b, .c, .d, .a, 13, S44, 0x4e0811a1⟩,
  ⟨.II, .a, .b, .c, .d, 4, S41, 0xf7537e82⟩,
  ⟨.II, .d, .a, .b, .c, 11, S42, 0xbd3af235⟩,
  ⟨.II, .c, .d, .a, .b, 2, S43, 0x2ad7d2bb⟩,
  ⟨.II, .b, .c, .d, .a, 9, S44, 0xeb86d391⟩]

def MD5Transform (state : State) (block : Bytes) : State :=
  let r := lines.foldl (Line.exec (Decode block)) ⟨state[0], state[1], state[2], state[3]⟩
  #v[state[0] + r.a, state[1] + r.b, state[2] + r.c, state[3] + r.d]

/-! ### The loop of the standard -/

/-- The constants of the steps. -/
def T : List UINT4 := [
  0xd76aa478, 0xe8c7b756, 0x242070db, 0xc1bdceee, 0xf57c0faf, 0x4787c62a, 0xa8304613, 0xfd469501,
  0x698098d8, 0x8b44f7af, 0xffff5bb1, 0x895cd7be, 0x6b901122, 0xfd987193, 0xa679438e, 0x49b40821,
  0xf61e2562, 0xc040b340, 0x265e5a51, 0xe9b6c7aa, 0xd62f105d, 0x02441453, 0xd8a1e681, 0xe7d3fbc8,
  0x21e1cde6, 0xc33707d6, 0xf4d50d87, 0x455a14ed, 0xa9e3e905, 0xfcefa3f8, 0x676f02d9, 0x8d2a4c8a,
  0xfffa3942, 0x8771f681, 0x6d9d6122, 0xfde5380c, 0xa4beea44, 0x4bdecfa9, 0xf6bb4b60, 0xbebfbc70,
  0x289b7ec6, 0xeaa127fa, 0xd4ef3085, 0x04881d05, 0xd9d4d039, 0xe6db99e5, 0x1fa27cf8, 0xc4ac5665,
  0xf4292244, 0x432aff97, 0xab9423a7, 0xfc93a039, 0x655b59c3, 0x8f0ccc92, 0xffeff47d, 0x85845dd1,
  0x6fa87e4f, 0xfe2ce6e0, 0xa3014314, 0x4e0811a1, 0xf7537e82, 0xbd3af235, 0x2ad7d2bb, 0xeb86d391]

/-- The macro of step `i`. -/
def stepOp (i : ℕ) : Op := if i < 16 then .FF else if i < 32 then .GG else if i < 48 then .HH else .II

/-- The function of step `i`. -/
def stepFunction (i : ℕ) : UINT4 → UINT4 → UINT4 → UINT4 :=
  if i < 16 then F else if i < 32 then G else if i < 48 then H else I

/-- The word of the block that step `i` takes. -/
def stepWord (i : ℕ) : ℕ :=
  if i < 16 then i else if i < 32 then (5 * i + 1) % 16 else if i < 48 then (3 * i + 5) % 16 else 7 * i % 16

/-- The places by which step `i` rotates. -/
def stepShift (i : ℕ) : ℕ :=
  if i < 16 then [7, 12, 17, 22].getD (i % 4) 0
  else if i < 32 then [5, 9, 14, 20].getD (i % 4) 0
  else if i < 48 then [4, 11, 16, 23].getD (i % 4) 0
  else [6, 10, 15, 21].getD (i % 4) 0

/-- Step `i` of the standard on the values `A`, `B`, `C`, `D`. -/
def standardStep (x : ℕ → UINT4) (r : Vars) (i : ℕ) : Vars :=
  ⟨r.d, r.b + (r.a + stepFunction i r.b r.c r.d + x (stepWord i) + T.getD i 0).rotateLeft (stepShift i), r.b, r.c⟩

/-- The transformation of the standard. -/
def standardTransform (state : State) (x : ℕ → UINT4) : State :=
  let r := (List.range 64).foldl (standardStep x) ⟨state[0], state[1], state[2], state[3]⟩
  #v[state[0] + r.a, state[1] + r.b, state[2] + r.c, state[3] + r.d]

/-! ### The lines of the code are the steps of the standard -/

/-- The variable that has the role `j` in step `i`. -/
def stepVar (i j : ℕ) : Var := [.a, .b, .c, .d].getD ((j + 4 - i % 4) % 4) .a

/-- The line of step `i`. -/
def stepLine (i : ℕ) : Line :=
  ⟨stepOp i, stepVar i 0, stepVar i 1, stepVar i 2, stepVar i 3, stepWord i, stepShift i, T.getD i 0⟩

lemma lines_eq : lines = (List.range 64).map stepLine := by decide +kernel

/-- The values in the order in which step `i` names the variables. -/
def Vars.order (r : Vars) (i : ℕ) : Vars := ⟨r.get (stepVar i 0), r.get (stepVar i 1), r.get (stepVar i 2), r.get (stepVar i 3)⟩

lemma stepShift_lt (i : ℕ) : stepShift i < 32 := by
  have hmod : i % 4 < 4 := Nat.mod_lt i (by decide)
  rw [stepShift]
  interval_cases i % 4 <;> simp <;> split_ifs <;> decide

lemma rotateLeft_eq (x : UINT4) {n : ℕ} (h : n < 32) : x.rotateLeft n = ROTATE_LEFT x n := by
  rw [BitVec.rotateLeft_eq_rotateLeftAux_of_lt h]
  rfl

lemma exec_stepLine (x : ℕ → UINT4) (r : Vars) (i : ℕ) :
    Line.exec x r (stepLine i) = transformStep (stepFunction i) r (stepVar i 0) (stepVar i 1) (stepVar i 2)
      (stepVar i 3) (x (stepWord i)) (stepShift i) (T.getD i 0) := by
  rw [Line.exec, stepLine, stepOp, stepFunction]
  split_ifs <;> rfl

/-- The step with the sums in the order of the code. -/
lemma standardStep_eq (x : ℕ → UINT4) (r : Vars) (i : ℕ) :
    standardStep x r i =
      ⟨r.d, ROTATE_LEFT (r.a + (stepFunction i r.b r.c r.d + x (stepWord i) + T.getD i 0)) (stepShift i) + r.b, r.b, r.c⟩ := by
  rw [standardStep, rotateLeft_eq _ (stepShift_lt i), BitVec.add_comm r.b]
  simp only [BitVec.add_assoc]

/-- A line and a step: the next line finds the values moved on by one place. -/
lemma order_exec (x : ℕ → UINT4) (r : Vars) (i : ℕ) :
    (Line.exec x r (stepLine i)).order (i + 1) = standardStep x (r.order i) i := by
  rw [exec_stepLine, standardStep_eq]
  rcases (by omega : i % 4 = 0 ∧ (i + 1) % 4 = 1 ∨ i % 4 = 1 ∧ (i + 1) % 4 = 2 ∨ i % 4 = 2 ∧ (i + 1) % 4 = 3 ∨
    i % 4 = 3 ∧ (i + 1) % 4 = 0) with ⟨h, hnext⟩ | ⟨h, hnext⟩ | ⟨h, hnext⟩ | ⟨h, hnext⟩ <;>
    simp only [Vars.order, stepVar, h, hnext] <;> rfl

/-- The first `n` lines and the first `n` steps. -/
lemma order_lines (x : ℕ → UINT4) (r : Vars) (n : ℕ) :
    (((List.range n).map stepLine).foldl (Line.exec x) r).order n = (List.range n).foldl (standardStep x) r := by
  induction n with
  | zero => rfl
  | succ n ih =>
      rw [List.range_succ, List.map_append, List.foldl_append, List.foldl_append, List.map_singleton, List.foldl_cons,
        List.foldl_nil, List.foldl_cons, List.foldl_nil, order_exec, ih]

/-- **The function is the transformation of the standard.** -/
lemma MD5Transform_eq (state : State) (block : Bytes) :
    MD5Transform state block = standardTransform state (Decode block) := by
  have hsteps := order_lines (Decode block) ⟨state[0], state[1], state[2], state[3]⟩ 64
  have hself (r : Vars) : r.order 64 = r := rfl
  rw [← lines_eq, hself] at hsteps
  exact congrArg (fun r : Vars => #v[state[0] + r.a, state[1] + r.b, state[2] + r.c, state[3] + r.d]) hsteps

end DeviceTools.Md5
