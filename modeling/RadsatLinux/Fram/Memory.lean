import RadsatLinux.Fram.Record

/-!
# The FRAM chip

The chip is its bytes by address.  Every key owns two consecutive slots, A and B;
`slotA` and `slotB` read them.  A write that is cut short has stored a prefix of its
buffer, so the range it covers then holds a `tear` of the old and the new bytes.
-/

namespace RadsatLinux.Fram.Memory

open RadsatLinux.Fram.Record

/-- The bytes of the FM24CL64B by address. -/
abbrev Chip := Nat → U8

variable {n m : Nat}

def readAt (chip : Chip) (offset n : Nat) : Vector U8 n :=
  Vector.ofFn fun i => chip (offset + i.val)

/-- The first `count` bytes of `buf` stored from `offset` on. -/
def writeAt (chip : Chip) (offset : Nat) (buf : Vector U8 n) (count : Nat) : Chip :=
  fun a =>
    if h : offset ≤ a ∧ a < offset + n ∧ a < offset + count then buf[a - offset] else chip a

/-- The first `count` bytes of `new` over `old`. -/
def tear (old new : Vector U8 n) (count : Nat) : Vector U8 n :=
  Vector.ofFn fun i => if i.val < count then new[i.val] else old[i.val]

theorem tear_all (old new : Vector U8 n) {count : Nat} (hcount : n ≤ count) :
    tear old new count = new := by
  apply Vector.ext
  intro i hi
  simp [tear, Nat.lt_of_lt_of_le hi hcount]

theorem readAt_writeAt_same (chip : Chip) (offset : Nat) (buf : Vector U8 n) (count : Nat) :
    readAt (writeAt chip offset buf count) offset n =
      tear (readAt chip offset n) buf count := by
  apply Vector.ext
  intro i hi
  by_cases hcount : i < count <;> simp [readAt, writeAt, tear, hcount]

theorem readAt_writeAt_full (chip : Chip) (offset : Nat) (buf : Vector U8 n) :
    readAt (writeAt chip offset buf n) offset n = buf := by
  rw [readAt_writeAt_same, tear_all _ _ (Nat.le_refl n)]

theorem readAt_writeAt_apart (chip : Chip) {offset other : Nat} (buf : Vector U8 n) (count : Nat)
    (hapart : other + m ≤ offset ∨ offset + n ≤ other) :
    readAt (writeAt chip offset buf count) other m = readAt chip other m := by
  apply Vector.ext
  intro i hi
  have hout : ¬ (offset ≤ other + i ∧ other + i < offset + n ∧ other + i < offset + count) := by
    omega
  simp [readAt, writeAt, hout]

/-! ## Key slots -/

/-- `(id - 1) * FRAM_SLOTS_PER_KEY * FRAM_RECORD_SIZE` in a `u16` -/
def keyOffset (id : U8) : U16 :=
  (id.setWidth 16 - 1#16) * 2#16 * 32#16

/-- `off_a + FRAM_RECORD_SIZE` in a `u16` -/
def keyOffsetB (id : U8) : U16 :=
  keyOffset id + 32#16

def slotA (chip : Chip) (id : U8) : Slot :=
  readAt chip (keyOffset id).toNat 32

def slotB (chip : Chip) (id : U8) : Slot :=
  readAt chip (keyOffsetB id).toNat 32

theorem keyOffset_toNat {id : U8} (hid : id ≠ 0) : (keyOffset id).toNat = 64 * (id.toNat - 1) := by
  have hpos : id.toNat ≠ 0 := fun h => hid (BitVec.eq_of_toNat_eq h)
  have hlt := id.isLt
  simp only [keyOffset, BitVec.toNat_mul, BitVec.toNat_sub, BitVec.toNat_setWidth,
    BitVec.toNat_ofNat]
  omega

theorem keyOffsetB_toNat {id : U8} (hid : id ≠ 0) :
    (keyOffsetB id).toNat = 64 * (id.toNat - 1) + 32 := by
  have hlt := id.isLt
  rw [keyOffsetB, BitVec.toNat_add, keyOffset_toNat hid, BitVec.toNat_ofNat]
  omega

end RadsatLinux.Fram.Memory
