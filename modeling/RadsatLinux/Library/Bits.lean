import Mathlib.Algebra.Group.Nat.Defs
import Mathlib.Data.List.Count
import Mathlib.Order.Basic

/-!
# Words as sets of bits

`Within a b`: every bit of `a` is one of `b`.  `hits groups a`: how many of some groups of
bits `a` meets.
-/

namespace RadsatLinux.Library.Bits

variable {w : Nat} {a b c : BitVec w}

def Within (a b : BitVec w) : Prop :=
  ∀ i, a.getLsbD i = true → b.getLsbD i = true

namespace Within

theorem refl (a : BitVec w) : Within a a := fun _ h => h

theorem trans (hab : Within a b) (hbc : Within b c) : Within a c := fun i h => hbc i (hab i h)

theorem and_left (a b : BitVec w) : Within (a &&& b) a := by
  intro i h
  rw [BitVec.getLsbD_and, Bool.and_eq_true] at h
  exact h.1

theorem and_mono {a' b' : BitVec w} (ha : Within a a') (hb : Within b b') :
    Within (a &&& b) (a' &&& b') := by
  intro i h
  rw [BitVec.getLsbD_and, Bool.and_eq_true] at h ⊢
  exact ⟨ha i h.1, hb i h.2⟩

theorem and_eq (h : Within a b) : a &&& b = a := by
  apply BitVec.eq_of_getLsbD_eq
  intro i _
  rw [BitVec.getLsbD_and]
  cases ha : a.getLsbD i with
  | false => rfl
  | true => rw [h i ha, Bool.and_self]

theorem eq_zero (h : Within a b) (hb : b = 0) : a = 0 := by
  rw [← and_eq h, hb]
  exact BitVec.and_zero

end Within

/-! ## Fields -/

/-- A number below `2 ^ n` fits in the `n` lowest bits. -/
theorem within_mask {n : Nat} (h : a.toNat < 2 ^ n) : Within a (BitVec.ofNat w (2 ^ n - 1)) := by
  intro i hbit
  have hn : i < n := by
    by_contra hge
    have hlt : a.toNat < 2 ^ i :=
      Nat.lt_of_lt_of_le h (Nat.pow_le_pow_right (by decide) (Nat.le_of_not_lt hge))
    have hfalse : a.getLsbD i = false := Nat.testBit_lt_two_pow hlt
    rw [hfalse] at hbit
    cases hbit
  rw [BitVec.getLsbD_ofNat, Nat.testBit_two_pow_sub_one]
  simp [BitVec.lt_of_getLsbD hbit, hn]

theorem Within.shiftLeft (h : Within a b) (n : Nat) : Within (a <<< n) (b <<< n) := by
  intro i hbit
  rw [BitVec.getLsbD_shiftLeft, Bool.and_eq_true] at hbit ⊢
  exact ⟨hbit.1, h _ hbit.2⟩

theorem Within.and_eq_zero {m : BitVec w} (h : Within a b) (hapart : b &&& m = 0) : a &&& m = 0 :=
  (h.and_mono (Within.refl m)).eq_zero hapart

theorem shiftLeft_ushiftRight_of_lt {n : Nat} (h : a.toNat < 2 ^ (w - n)) (hn : n ≤ w) :
    (a <<< n) >>> n = a := by
  apply BitVec.eq_of_toNat_eq
  have hfits : a.toNat * 2 ^ n < 2 ^ w := by
    calc a.toNat * 2 ^ n < 2 ^ (w - n) * 2 ^ n :=
          Nat.mul_lt_mul_of_pos_right h (Nat.two_pow_pos n)
      _ = 2 ^ w := by rw [← Nat.pow_add, Nat.sub_add_cancel hn]
  rw [BitVec.toNat_ushiftRight, BitVec.toNat_shiftLeft, Nat.shiftLeft_eq, Nat.mod_eq_of_lt hfits,
    Nat.shiftRight_eq_div_pow, Nat.mul_div_cancel _ (Nat.two_pow_pos n)]

theorem within_of_and_eq (h : a &&& b = a) : Within a b := by
  intro i ha
  rw [← h, BitVec.getLsbD_and, Bool.and_eq_true] at ha
  exact ha.2

theorem within_not_of_and_eq_zero (h : a &&& b = 0) : Within a (~~~ b) := by
  intro i ha
  have hand : (a &&& b).getLsbD i = false := by
    rw [h]
    exact BitVec.getLsbD_zero
  rw [BitVec.getLsbD_and, ha, Bool.true_and] at hand
  rw [BitVec.getLsbD_not, hand]
  simp [BitVec.lt_of_getLsbD ha]

theorem or_and_self (a b : BitVec w) : a ||| (a &&& b) = a := by
  apply BitVec.eq_of_getLsbD_eq
  intro i _
  rw [BitVec.getLsbD_or, BitVec.getLsbD_and]
  cases a.getLsbD i with
  | false => rfl
  | true => rfl

theorem getLsbD_zero (i : Nat) : (0 : BitVec w).getLsbD i = false :=
  BitVec.getLsbD_zero

theorem exists_bit_of_ne_zero (h : a ≠ 0) : ∃ i, a.getLsbD i = true := by
  by_contra hnone
  refine h (BitVec.eq_of_getLsbD_eq fun i _ => ?_)
  rw [getLsbD_zero]
  exact Bool.eq_false_iff.mpr fun hbit => hnone ⟨i, hbit⟩

theorem ne_zero_of_bit {i : Nat} (h : a.getLsbD i = true) : a ≠ 0 := by
  rintro rfl
  rw [getLsbD_zero] at h
  cases h

def hits (groups : List (BitVec w)) (a : BitVec w) : Nat :=
  groups.countP fun group => decide (a &&& group ≠ 0)

theorem hits_le_length (groups : List (BitVec w)) (a : BitVec w) : hits groups a ≤ groups.length :=
  List.countP_le_length

theorem hits_lt {groups : List (BitVec w)} {group : BitVec w} (hless : Within a b)
    (hgroup : group ∈ groups) (hset : b &&& group ≠ 0) (hgone : a &&& group = 0) :
    hits groups a < hits groups b := by
  have hfilter : hits groups a =
      (groups.filter fun other => decide (b &&& other ≠ 0)).countP
        fun other => decide (a &&& other ≠ 0) := by
    rw [List.countP_filter]
    refine List.countP_congr fun other _ => ?_
    rw [Bool.and_eq_true, decide_eq_true_eq, decide_eq_true_eq]
    exact ⟨fun h => ⟨h, fun hnone => h ((hless.and_mono (Within.refl _)).eq_zero hnone)⟩, And.left⟩
  rw [hfilter, hits, List.countP_eq_length_filter (l := groups), List.countP_lt_length_iff]
  refine ⟨group, List.mem_filter.mpr ⟨hgroup, decide_eq_true hset⟩, ?_⟩
  exact decide_eq_false (not_not.mpr hgone)

end RadsatLinux.Library.Bits
