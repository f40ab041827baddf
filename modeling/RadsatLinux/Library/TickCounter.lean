import Mathlib.Algebra.Group.Nat.Defs
import Mathlib.Data.List.Basic

/-!
# Tick counters that wrap around

A counter of `w` bits that started at `start` shows `reading start n` after `n` ticks.  Two
readings are compared by the sign of their difference, which is the order of the times as
long as these are less than half the range apart.
-/

namespace RadsatLinux.Library.TickCounter

variable {w : Nat}

def reading (start : BitVec w) (n : Nat) : BitVec w := start + BitVec.ofNat w n

/-- `time_before` -/
def before (a b : BitVec w) : Bool := (a - b).msb

theorem reading_add (start : BitVec w) (n m : Nat) :
    reading start n + BitVec.ofNat w m = reading start (n + m) := by
  rw [reading, reading, BitVec.add_assoc, BitVec.ofNat_add]

/-- The difference of two readings does not depend on where the counter started. -/
theorem reading_sub_of_le (start : BitVec w) {n m : Nat} (hle : n ≤ m) :
    reading start m - reading start n = BitVec.ofNat w (m - n) := by
  have hsum := reading_add start n (m - n)
  rw [Nat.add_sub_cancel' hle] at hsum
  rw [← hsum, BitVec.add_comm, BitVec.add_sub_cancel]

theorem toNat_reading_sub (start : BitVec w) {n m : Nat} (hle : n ≤ m) (hlt : m < n + 2 ^ w) :
    (reading start m - reading start n).toNat = m - n := by
  rw [reading_sub_of_le start hle, BitVec.toNat_ofNat, Nat.mod_eq_of_lt (by omega)]

theorem before_reading (start : BitVec (w + 1)) {n m : Nat} (hn : n < m + 2 ^ w)
    (hm : m ≤ n + 2 ^ w) : before (reading start n) (reading start m) = decide (n < m) := by
  have hpow : 2 ^ (w + 1) = 2 ^ w + 2 ^ w := by rw [Nat.pow_succ, Nat.mul_two]
  rw [before, BitVec.msb_eq_decide, Nat.add_sub_cancel]
  by_cases hle : m ≤ n
  · rw [toNat_reading_sub start hle (by omega)]
    exact decide_eq_decide.mpr (by omega)
  · -- The difference is negative, and its negation at most half the range.
    have hback := toNat_reading_sub start (Nat.le_of_not_le hle) (m := m) (by omega)
    have hneg : reading start n - reading start m = -(reading start m - reading start n) := by
      rw [BitVec.neg_sub, BitVec.add_comm, BitVec.sub_eq_add_neg]
    rw [hneg, BitVec.toNat_neg, hback, Nat.mod_eq_of_lt (by omega)]
    exact decide_eq_decide.mpr (by omega)

end RadsatLinux.Library.TickCounter
