import Mathlib.Data.List.Basic
import Mathlib.Data.Nat.Init

/-!
# Little-endian bytes of a machine word

`byteOf v i` is the byte `(v >> 8 * i) & 0xff`, and `joinBytes w` puts a list of bytes
back together with the first one least significant, as `b0 | b1 << 8 | …` does.
-/

namespace RadsatLinux.Library.LittleEndian

variable {w : Nat}

/-- Byte `i` of a word, counted from the least significant one. -/
def byteOf (v : BitVec w) (i : Nat) : BitVec 8 :=
  (v >>> (8 * i)).setWidth 8

/-- The word whose bytes, least significant first, are the given ones. -/
def joinBytes (w : Nat) : List (BitVec 8) → BitVec w
  | [] => 0
  | b :: rest => b.setWidth w ||| (joinBytes w rest <<< 8)

theorem getLsbD_byteOf (v : BitVec w) (i j : Nat) :
    (byteOf v i).getLsbD j = (decide (j < 8) && v.getLsbD (8 * i + j)) := by
  simp only [byteOf, BitVec.getLsbD_setWidth, BitVec.getLsbD_ushiftRight]

theorem getLsbD_joinBytes (bytes : List (BitVec 8)) {i : Nat} (hi : i < w) :
    (joinBytes w bytes).getLsbD i = (bytes.getD (i / 8) 0).getLsbD (i % 8) := by
  induction bytes generalizing i with
  | nil => simp [joinBytes]
  | cons b rest ih =>
      simp only [joinBytes, BitVec.getLsbD_or, BitVec.getLsbD_setWidth,
        BitVec.getLsbD_shiftLeft, hi, decide_true, Bool.true_and]
      by_cases hlow : i < 8
      · have hdiv : i / 8 = 0 := by omega
        have hmod : i % 8 = i := by omega
        simp [hlow, hdiv, hmod]
      · obtain ⟨q, hq⟩ : ∃ q, i / 8 = q + 1 := ⟨i / 8 - 1, by omega⟩
        have hshift : (i - 8) / 8 = q := by omega
        have hmod : (i - 8) % 8 = i % 8 := by omega
        have hhigh : b.getLsbD i = false := BitVec.getLsbD_of_ge b i (by omega)
        rw [ih (by omega), hshift, hmod, hq, hhigh]
        simp [hlow]

/-- Enough bytes of a word, joined, give the word back. -/
theorem joinBytes_byteOf (v : BitVec w) {n : Nat} (hn : w ≤ 8 * n) :
    joinBytes w ((List.range n).map (byteOf v)) = v := by
  apply BitVec.eq_of_getLsbD_eq
  intro i hi
  have hindex : i / 8 < n := by omega
  have hbyte : ((List.range n).map (byteOf v)).getD (i / 8) 0 = byteOf v (i / 8) := by
    simp [List.getD_eq_getElem?_getD, hindex]
  have hmod : i % 8 < 8 := Nat.mod_lt i (by decide)
  rw [getLsbD_joinBytes _ hi, hbyte, getLsbD_byteOf, Nat.div_add_mod]
  simp [hmod]

/-- Joining loses no byte that the word has room for. -/
theorem byteOf_joinBytes (bytes : List (BitVec 8)) {i : Nat} (hi : 8 * i + 8 ≤ w) :
    byteOf (joinBytes w bytes) i = bytes.getD i 0 := by
  apply BitVec.eq_of_getLsbD_eq
  intro j hj
  have hdiv : (8 * i + j) / 8 = i := by omega
  have hmod : (8 * i + j) % 8 = j := by omega
  rw [getLsbD_byteOf, getLsbD_joinBytes bytes (by omega), hdiv, hmod]
  simp [hj]

end RadsatLinux.Library.LittleEndian
