import Mathlib.Algebra.Group.Int.Defs
import Mathlib.Algebra.Group.Nat.Defs

/-!
# Numbers in a shell with 32 bits

A shell that has neither `FEATURE_SH_MATH_64` nor `FEATURE_TEST_64` computes `$((…))` in 32
bits, and its `[` compares longs of 32 bits.  Below 2^31 both are what they are over the natural
numbers.
-/

namespace RadsatLinux.Library.ShellNumber

/-! ## Arithmetic -/

/-- A result of `$((…))` -/
def wrap32 (n : Int) : Int := (BitVec.ofInt 32 n).toInt

/-- A decimal number in `$((…))`: `strtoul`, taken as a signed integer. -/
def shellInt (n : Nat) : Int :=
  (BitVec.ofNat 32 (min n (2 ^ 32 - 1))).toInt

theorem wrap32_small {n : Nat} (hn : n < 2 ^ 31) : wrap32 n = n := by
  rw [wrap32, BitVec.ofInt_natCast, BitVec.toInt_eq_toNat_cond, BitVec.toNat_ofNat]
  omega

theorem wrap32_bounds (n : Int) : -2 ^ 31 ≤ wrap32 n ∧ wrap32 n < 2 ^ 31 := by
  have hlt := (BitVec.ofInt 32 n).isLt
  rw [wrap32, BitVec.toInt_eq_toNat_cond]
  omega

theorem shellInt_small {n : Nat} (hn : n < 2 ^ 31) : shellInt n = n := by
  rw [shellInt, Nat.min_eq_left (by omega), BitVec.toInt_eq_toNat_cond, BitVec.toNat_ofNat]
  omega

/-- A number from 2^31 on is taken for a negative one. -/
theorem shellInt_large {n : Nat} (hn : 2 ^ 31 ≤ n) :
    shellInt n = -((2 ^ 32 - min n (2 ^ 32 - 1) : Nat) : Int) := by
  rw [shellInt, BitVec.toInt_eq_toNat_cond, BitVec.toNat_ofNat]
  omega

theorem shellInt_add {m n : Nat} (h : m + n < 2 ^ 31) :
    wrap32 (shellInt m + shellInt n) = (m + n : Nat) := by
  rw [shellInt_small (by omega), shellInt_small (by omega), ← Int.natCast_add]
  exact wrap32_small h

theorem shellInt_sub {m n : Nat} (hm : m < 2 ^ 31) (hle : n ≤ m) :
    wrap32 (shellInt m - shellInt n) = (m - n : Nat) := by
  rw [shellInt_small hm, shellInt_small (by omega), ← Int.ofNat_sub hle]
  exact wrap32_small (by omega)

theorem shellInt_mul {m n : Nat} (hm : m < 2 ^ 31) (hn : n < 2 ^ 31) (h : m * n < 2 ^ 31) :
    wrap32 (shellInt m * shellInt n) = (m * n : Nat) := by
  rw [shellInt_small hm, shellInt_small hn, ← Int.natCast_mul]
  exact wrap32_small h

theorem shellInt_tdiv {m n : Nat} (hm : m < 2 ^ 31) :
    (shellInt m).tdiv n = (m / n : Nat) := by
  rw [shellInt_small hm]
  exact (Int.ofNat_tdiv m n).symm

theorem shellInt_tmod {m n : Nat} (hm : m < 2 ^ 31) :
    (shellInt m).tmod n = (m % n : Nat) := by
  rw [shellInt_small hm]
  exact (Int.ofNat_tmod m n).symm

/-! ## Tests -/

/-- 32 bits hold the number.  Irreducible, so that no unifier computes with 2^31. -/
@[irreducible] def isLong (n : Int) : Bool := decide (wrap32 n = n)

/-- `[ a op b ]`: an operand that is no long of 32 bits is an error, and the test fails. -/
def test (op : Int → Int → Bool) (a b : Int) : Bool :=
  isLong a && isLong b && op a b

def testEq (a b : Int) : Bool := test (fun a b => decide (a = b)) a b
def testGt (a b : Int) : Bool := test (fun a b => decide (a > b)) a b
def testGe (a b : Int) : Bool := test (fun a b => decide (a ≥ b)) a b
def testLt (a b : Int) : Bool := test (fun a b => decide (a < b)) a b
def testLe (a b : Int) : Bool := test (fun a b => decide (a ≤ b)) a b

theorem isLong_of_bounds {n : Int} (h : -2 ^ 31 ≤ n ∧ n < 2 ^ 31) : isLong n = true := by
  have hmod : n.bmod (2 ^ 32) = n := Int.bmod_eq_of_le (by omega) (by omega)
  rw [isLong, wrap32, BitVec.toInt_ofInt, hmod]
  exact decide_eq_true rfl

theorem isLong_natCast (n : Nat) : isLong n = decide (n < 2 ^ 31) := by
  by_cases hn : n < 2 ^ 31
  · rw [decide_eq_true hn]
    exact isLong_of_bounds (by omega)
  · have hbounds := wrap32_bounds n
    rw [decide_eq_false hn, isLong, decide_eq_false_iff_not]
    omega

theorem isLong_zero : isLong 0 = true := isLong_natCast 0

theorem testLt_natCast (a b : Nat) :
    testLt a b = decide (a < 2 ^ 31 ∧ b < 2 ^ 31 ∧ a < b) := by
  simp [testLt, test, isLong_natCast, Bool.and_assoc]

theorem lt_of_testLt {a b : Nat} (h : testLt a b = true) : a < b := by
  rw [testLt_natCast, decide_eq_true_eq] at h
  exact h.2.2

theorem lt_of_testGt {a b : Int} (h : testGt a b = true) : b < a := by
  rw [testGt, test, Bool.and_eq_true, decide_eq_true_eq] at h
  exact h.2

theorem testGe_natCast (a b : Nat) :
    testGe a b = decide (a < 2 ^ 31 ∧ b < 2 ^ 31 ∧ b ≤ a) := by
  simp [testGe, test, isLong_natCast, Bool.and_assoc]

theorem testGt_natCast (a b : Nat) :
    testGt a b = decide (a < 2 ^ 31 ∧ b < 2 ^ 31 ∧ b < a) := by
  simp [testGt, test, isLong_natCast, Bool.and_assoc]

/-- Where the left side is a long, a right side that is none is above it, and the test fails. -/
theorem testGt_of_small {a : Nat} (ha : a < 2 ^ 31) (b : Nat) :
    testGt a b = decide (b < a) := by
  rw [testGt_natCast, decide_eq_decide]
  omega

theorem testLt_of_small {a b : Nat} (ha : a < 2 ^ 31) (hb : b < 2 ^ 31) :
    testLt a b = decide (a < b) := by
  rw [testLt_natCast, decide_eq_decide]
  omega

/-- A comparison with 0 fails for large numbers as for other positive ones. -/
theorem testEq_zero (n : Nat) : testEq n 0 = decide (n = 0) := by
  rw [testEq, test, isLong_natCast, isLong_zero, Bool.and_true, ← Bool.decide_and, decide_eq_decide]
  omega

theorem testGt_zero (n : Nat) : testGt n 0 = decide (n < 2 ^ 31 ∧ 0 < n) := by
  have h := testGt_natCast n 0
  simpa using h

theorem testLe_zero {n : Int} (h : -2 ^ 31 ≤ n ∧ n < 2 ^ 31) : testLe n 0 = decide (n ≤ 0) := by
  rw [testLe, test, isLong_of_bounds h, isLong_zero, Bool.true_and, Bool.true_and]

theorem testLe_natCast_zero (n : Nat) : testLe n 0 = decide (n = 0) := by
  rw [testLe, test, isLong_natCast, isLong_zero, Bool.and_true, ← Bool.decide_and, decide_eq_decide]
  omega

/-- A negative number is not above 0. -/
theorem not_testGt_zero {n : Int} (hn : n ≤ 0) : testGt n 0 = false := by
  have hfalse : decide (n > 0) = false := decide_eq_false (Int.not_lt.mpr hn)
  rw [testGt, test, hfalse, Bool.and_false]

end RadsatLinux.Library.ShellNumber
