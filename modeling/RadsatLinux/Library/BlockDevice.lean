import Mathlib.Order.Basic

/-!
# Copying between block devices

A block device is a function from block numbers to contents.  `AgreeBelow r k` compares
the first `k` blocks of two devices up to a reflexive blockwise relation `r`: equality for
an exact copy, equality outside some positions when those are written separately.  A copy
made in ascending chunks keeps the agreement below the position it has reached, whatever
an interrupted write leaves at or above it.  `tile` has copies of one image side by side.
-/

namespace RadsatLinux.Library.BlockDevice

variable {β : Type}

/-- `dst` with the `count` blocks from `first` on taken from `src`. -/
def overwrite (dst : Nat → β) (first count : Nat) (src : Nat → β) : Nat → β :=
  fun i => if first ≤ i ∧ i < first + count then src i else dst i

theorem overwrite_inside {dst src : Nat → β} {first count i : Nat}
    (hlow : first ≤ i) (hhigh : i < first + count) : overwrite dst first count src i = src i :=
  if_pos ⟨hlow, hhigh⟩

theorem overwrite_outside {dst src : Nat → β} {first count i : Nat}
    (hout : i < first ∨ first + count ≤ i) : overwrite dst first count src i = dst i :=
  if_neg (by omega)

theorem overwrite_congr {dst src src' : Nat → β} {first count : Nat}
    (h : ∀ i, first ≤ i → i < first + count → src i = src' i) :
    overwrite dst first count src = overwrite dst first count src' := by
  funext i
  by_cases hin : first ≤ i ∧ i < first + count
  · rw [overwrite_inside hin.1 hin.2, overwrite_inside hin.1 hin.2]
    exact h i hin.1 hin.2
  · rw [overwrite_outside (by omega), overwrite_outside (by omega)]

theorem overwrite_append (dst src : Nat → β) (first m n : Nat) :
    overwrite (overwrite dst first m src) (first + m) n src = overwrite dst first (m + n) src := by
  funext i
  by_cases hrest : first + m ≤ i ∧ i < first + m + n
  · rw [overwrite_inside hrest.1 hrest.2, overwrite_inside (by omega) (by omega)]
  · rw [overwrite_outside (by omega)]
    by_cases hin : first ≤ i ∧ i < first + m
    · rw [overwrite_inside hin.1 hin.2, overwrite_inside (by omega) (by omega)]
    · rw [overwrite_outside (by omega), overwrite_outside (by omega)]

/-! ## Images side by side -/

/-- `dst` with the first `span` blocks of `src` in each of the slots from `first` to before
`last`; slot `i` starts at block `i * span`. -/
def tile (dst src : Nat → β) (span first last : Nat) : Nat → β :=
  fun k => if first * span ≤ k ∧ k < last * span then src (k % span) else dst k

section Tile

variable {dst src : Nat → β} {span first last i j k : Nat}

theorem slot_end_le (h : i < last) : i * span + span ≤ last * span := by
  have hnext : (i + 1) * span ≤ last * span := Nat.mul_le_mul_right span h
  rwa [Nat.succ_mul] at hnext

theorem tile_inside (hfirst : first ≤ i) (hlast : i < last) (hj : j < span) :
    tile dst src span first last (i * span + j) = src j := by
  have hlow : first * span ≤ i * span := Nat.mul_le_mul_right span hfirst
  have hhigh : i * span + span ≤ last * span := slot_end_le hlast
  rw [tile, if_pos ⟨by omega, by omega⟩, Nat.mul_add_mod', Nat.mod_eq_of_lt hj]

theorem tile_outside (hout : k < first * span ∨ last * span ≤ k) :
    tile dst src span first last k = dst k :=
  if_neg (by omega)

theorem tile_of_le (hle : last ≤ first) : tile dst src span first last = dst := by
  funext k
  have hspans : last * span ≤ first * span := Nat.mul_le_mul_right span hle
  exact tile_outside (by omega)

/-- The first of the slots, and then the others. -/
theorem tile_succ (hlast : first < last) :
    tile (overwrite dst (first * span) span fun k => src (k - first * span)) src span (first + 1)
      last = tile dst src span first last := by
  funext k
  have hend : first * span + span ≤ last * span := slot_end_le hlast
  by_cases hlater : first * span + span ≤ k ∧ k < last * span
  · rw [tile, tile, Nat.succ_mul, if_pos hlater, if_pos (by omega)]
  · rw [tile_outside (by rw [Nat.succ_mul]; omega)]
    by_cases hin : first * span ≤ k ∧ k < first * span + span
    · obtain ⟨j, rfl⟩ := Nat.exists_eq_add_of_le hin.1
      rw [overwrite_inside hin.1 hin.2, tile_inside (Nat.le_refl _) hlast (by omega),
        Nat.add_sub_cancel_left]
    · rw [overwrite_outside (by omega), tile_outside (by omega)]

end Tile

/-! ## Copies under way -/

/-- The first `k` blocks of `a` and `b` are related block by block. -/
def AgreeBelow (r : Nat → β → β → Prop) (k : Nat) (a b : Nat → β) : Prop :=
  ∀ i, i < k → r i (a i) (b i)

namespace AgreeBelow

variable {r : Nat → β → β → Prop} {a b dst src : Nat → β} {j k first count : Nat}

theorem zero (r : Nat → β → β → Prop) (a b : Nat → β) : AgreeBelow r 0 a b :=
  fun _ hi => absurd hi (Nat.not_lt_zero _)

theorem anti (h : AgreeBelow r k a b) (hjk : j ≤ k) : AgreeBelow r j a b :=
  fun i hi => h i (Nat.lt_of_lt_of_le hi hjk)

/-- Blocks at or above the agreed ones may change freely. -/
theorem overwrite_above (h : AgreeBelow r k dst src) (hk : k ≤ first) (left : Nat → β) :
    AgreeBelow r k (overwrite dst first count left) src := by
  intro i hi
  rw [overwrite_outside (Or.inl (Nat.lt_of_lt_of_le hi hk))]
  exact h i hi

/-- Copying the next chunk extends the agreement over it. -/
theorem copy_chunk (hr : ∀ i x, r i x x) (h : AgreeBelow r first dst src) :
    AgreeBelow r (first + count) (overwrite dst first count src) src := by
  intro i hi
  by_cases hlow : first ≤ i
  · rw [overwrite_inside hlow hi]
    exact hr i (src i)
  · rw [overwrite_outside (Or.inl (Nat.lt_of_not_le hlow))]
    exact h i (Nat.lt_of_not_le hlow)

end AgreeBelow

end RadsatLinux.Library.BlockDevice
