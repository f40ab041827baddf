import Mathlib.Data.Nat.Init
import Mathlib.Logic.Function.Iterate

/-!
# Linear feedback shift registers

A register of `w` bits that is fed a sequence of bits, least significant end first, as the
reflected CRCs do: a bit is added to the low end, the register moves down one place, and the
polynomial `p` is added when a one falls out.  Feeding is additive, and with the top bit of
`p` set nothing but zero is ever moved to zero; so errors confined to `w` consecutive bits
cannot cancel out.
-/

namespace RadsatLinux.Library.ShiftRegister

variable {w : Nat} (p : BitVec w)

/-- A bit as a word. -/
def bit (w : Nat) (b : Bool) : BitVec w :=
  (BitVec.ofBool b).setWidth w

theorem bit_false : bit w false = 0#w := by
  simp [bit]

theorem bit_xor (a b : Bool) : bit w (a ^^ b) = bit w a ^^^ bit w b := by
  cases a <;> cases b <;> simp [bit]

def step (x : BitVec w) : BitVec w :=
  (x >>> 1) ^^^ if x.getLsbD 0 then p else 0#w

/-- The register after the first `n` bits of `e`. -/
def feed (x : BitVec w) (e : Nat → Bool) : Nat → BitVec w
  | 0 => x
  | n + 1 => step p (feed x e n ^^^ bit w (e n))

/-! ## Additivity -/

theorem step_zero : step p 0#w = 0#w := by
  simp [step]

theorem step_xor (x y : BitVec w) : step p (x ^^^ y) = step p x ^^^ step p y := by
  have hmask (a b : Bool) : (if (a ^^ b) = true then p else 0#w) =
      (if a = true then p else 0#w) ^^^ (if b = true then p else 0#w) := by
    cases a <;> cases b <;> simp
  rw [step, BitVec.getLsbD_xor, hmask, BitVec.ushiftRight_xor_distrib, step, step]
  ac_rfl

theorem iterate_xor (n : Nat) (x y : BitVec w) :
    (step p)^[n] (x ^^^ y) = (step p)^[n] x ^^^ (step p)^[n] y := by
  induction n generalizing x y with
  | zero => rfl
  | succ n ih => rw [Function.iterate_succ_apply, step_xor, ih]; rfl

theorem feed_xor (x y : BitVec w) (e f : Nat → Bool) (n : Nat) :
    feed p (x ^^^ y) (fun i => e i ^^ f i) n = feed p x e n ^^^ feed p y f n := by
  induction n with
  | zero => rfl
  | succ n ih =>
      have hmiddle : feed p x e n ^^^ feed p y f n ^^^ (bit w (e n) ^^^ bit w (f n)) =
          feed p x e n ^^^ bit w (e n) ^^^ (feed p y f n ^^^ bit w (f n)) := by
        ac_rfl
      rw [feed, ih, bit_xor, hmiddle, step_xor, feed, feed]

/-! ## Feeding -/

theorem feed_congr {e f : Nat → Bool} {n : Nat} (x : BitVec w) (h : ∀ i, i < n → e i = f i) :
    feed p x e n = feed p x f n := by
  induction n with
  | zero => rfl
  | succ n ih =>
      rw [feed, feed, ih fun i hi => h i (Nat.lt_succ_of_lt hi), h n (Nat.lt_succ_self n)]

theorem feed_add (x : BitVec w) (e : Nat → Bool) (m n : Nat) :
    feed p x e (m + n) = feed p (feed p x e m) (fun i => e (m + i)) n := by
  induction n with
  | zero => rfl
  | succ n ih => rw [← Nat.add_assoc, feed, feed, ih]

/-- Zeros only move the register. -/
theorem feed_zeros {e : Nat → Bool} {n : Nat} (x : BitVec w) (h : ∀ i, i < n → e i = false) :
    feed p x e n = (step p)^[n] x := by
  induction n with
  | zero => rfl
  | succ n ih =>
      rw [feed, ih fun i hi => h i (Nat.lt_succ_of_lt hi), h n (Nat.lt_succ_self n), bit_false,
        BitVec.xor_zero, Function.iterate_succ_apply']

/-- The first `n` bits of `e` as a word. -/
def word (w : Nat) (e : Nat → Bool) : Nat → BitVec w
  | 0 => 0#w
  | n + 1 => word w e n ^^^ (bit w (e n) <<< n)

theorem getLsbD_word (e : Nat → Bool) (n : Nat) {i : Nat} (hi : i < w) :
    (word w e n).getLsbD i = (decide (i < n) && e i) := by
  induction n with
  | zero => simp [word]
  | succ n ih =>
      have hbit : (bit w (e n)).getLsbD (i - n) = (decide (i - n = 0) && e n) := by
        cases e n with
        | false => simp [bit]
        | true =>
            have hlt : i - n < w := by omega
            simp [bit, hlt]
      rw [word, BitVec.getLsbD_xor, ih, BitVec.getLsbD_shiftLeft, hbit]
      rcases Nat.lt_trichotomy i n with hlt | heq | hgt
      · simp [hlt, Nat.lt_succ_of_lt hlt]
      · simp [heq, heq ▸ hi]
      · have hnot : ¬ i < n + 1 := by omega
        have hne : i - n ≠ 0 := by omega
        simp [Nat.not_lt_of_gt hgt, hnot, hne]

/-- A bit that has yet to reach the low end only moves. -/
theorem iterate_shiftLeft (b : Bool) {n : Nat} (hn : n < w) :
    (step p)^[n] (bit w b <<< n) = bit w b := by
  induction n with
  | zero => simp
  | succ n ih =>
      have hlow : (bit w b <<< (n + 1)).getLsbD 0 = false := by simp
      have hmove : step p (bit w b <<< (n + 1)) = bit w b <<< n := by
        rw [step, hlow, if_neg Bool.false_ne_true, BitVec.xor_zero]
        apply BitVec.eq_of_getLsbD_eq
        intro i hi
        rw [BitVec.getLsbD_ushiftRight, BitVec.getLsbD_shiftLeft, BitVec.getLsbD_shiftLeft]
        cases b with
        | false => simp [bit]
        | true =>
            by_cases heq : i = n
            · simp [heq, bit, Nat.add_comm 1 n, hn, Nat.lt_of_succ_lt hn]
            · by_cases hlt : i < n
              · have hlt' : 1 + i < n + 1 := by omega
                simp [hlt, hlt']
              · have hne : i - n ≠ 0 := by omega
                have hsub : 1 + i - (n + 1) = i - n := by omega
                simp [bit, hsub, hne]
      rw [Function.iterate_succ_apply, hmove, ih (Nat.lt_of_succ_lt hn)]

/-- Up to `w` bits may as well be added at once, before the register is moved. -/
theorem feed_word (x : BitVec w) (e : Nat → Bool) {n : Nat} (hn : n ≤ w) :
    feed p x e n = (step p)^[n] (x ^^^ word w e n) := by
  induction n with
  | zero => simp [feed, word]
  | succ n ih =>
      rw [feed, ih (Nat.le_of_succ_le hn), word, ← BitVec.xor_assoc, Function.iterate_succ_apply',
        iterate_xor p n (x ^^^ word w e n), iterate_shiftLeft p (e n) hn]

/-! ## Bursts -/

variable {p}

theorem step_eq_zero (hp : p.msb = true) {x : BitVec w} (h : step p x = 0#w) : x = 0#w := by
  have hw : 0 < w := by
    rcases Nat.eq_zero_or_pos w with rfl | hpos
    · simp [BitVec.msb, BitVec.getMsbD] at hp
    · exact hpos
  have hlow : x.getLsbD 0 = false := by
    have htop := congrArg BitVec.msb h
    cases hbit : x.getLsbD 0 with
    | false => rfl
    | true =>
        rw [step, hbit, if_pos rfl, BitVec.msb_xor, hp] at htop
        simp [BitVec.msb_ushiftRight] at htop
  rw [step, hlow, if_neg Bool.false_ne_true, BitVec.xor_zero] at h
  apply BitVec.eq_of_getLsbD_eq
  intro i hi
  cases i with
  | zero => rw [hlow, BitVec.getLsbD_zero]
  | succ i =>
      have hbit := congrArg (fun v => v.getLsbD i) h
      rwa [BitVec.getLsbD_ushiftRight, Nat.add_comm, BitVec.getLsbD_zero,
        ← BitVec.getLsbD_zero (i := i + 1)] at hbit

theorem iterate_eq_zero (hp : p.msb = true) {n : Nat} {x : BitVec w} (h : (step p)^[n] x = 0#w) :
    x = 0#w := by
  induction n with
  | zero => exact h
  | succ n ih =>
      rw [Function.iterate_succ_apply'] at h
      exact ih (step_eq_zero hp h)

theorem iterate_injective (hp : p.msb = true) (n : Nat) : Function.Injective (step p)^[n] := by
  intro x y h
  have hzero : (step p)^[n] (x ^^^ y) = 0#w := by
    rw [iterate_xor, h, BitVec.xor_self]
  have hxor := iterate_eq_zero hp hzero
  calc x = x ^^^ y ^^^ y := by rw [BitVec.xor_assoc, BitVec.xor_self, BitVec.xor_zero]
    _ = y := by
      rw [hxor, BitVec.zero_xor]

/-- A sequence whose ones lie in `w` consecutive places does not leave the register at zero. -/
theorem feed_burst_ne_zero (hp : p.msb = true) {e : Nat → Bool} {k n i : Nat}
    (hwindow : ∀ j, j < n → e j = true → k ≤ j ∧ j < k + w) (hi : i < n) (he : e i = true) :
    feed p 0#w e n ≠ 0#w := by
  intro hzero
  obtain ⟨hki, hik⟩ := hwindow i hi he
  -- The places before the window, those in it, and the rest.
  obtain ⟨len, rest, hn, hlen, hiLen, hrest⟩ : ∃ len rest, n = k + len + rest ∧ len ≤ w ∧
      i - k < len ∧ (0 < rest → len = w) := by
    refine ⟨min w (n - k), n - k - min w (n - k), ?_, ?_, ?_, ?_⟩ <;> omega
  have hfalse {j : Nat} (hj : j < n) (hout : ¬ (k ≤ j ∧ j < k + w)) : e j = false := by
    cases hbit : e j with
    | false => rfl
    | true => exact absurd (hwindow j hj hbit) hout
  have hbefore : feed p 0#w e k = 0#w := by
    rw [feed_zeros p 0#w fun j hj => hfalse (by omega) (by omega)]
    exact Function.iterate_fixed (step_zero p) k
  have hafter (j : Nat) (hj : j < rest) : e (k + len + j) = false := by
    have hfull := hrest (by omega)
    exact hfalse (by omega) (by omega)
  rw [hn, feed_add, feed_zeros p _ hafter] at hzero
  have hword := iterate_eq_zero hp hzero
  rw [feed_add, hbefore, feed_word p _ _ hlen, BitVec.zero_xor] at hword
  have hbit := congrArg (fun v => v.getLsbD (i - k)) (iterate_eq_zero hp hword)
  rw [getLsbD_word _ _ (by omega), Nat.add_sub_cancel' hki, he, decide_eq_true hiLen,
    BitVec.getLsbD_zero] at hbit
  cases hbit

/-- Bits with such an error in them leave the register elsewhere. -/
theorem feed_ne_of_burst (hp : p.msb = true) (x : BitVec w) {e f : Nat → Bool} {k n i : Nat}
    (hwindow : ∀ j, j < n → e j ≠ f j → k ≤ j ∧ j < k + w) (hi : i < n) (hne : e i ≠ f i) :
    feed p x e n ≠ feed p x f n := by
  intro heq
  have hdiff (j : Nat) : ((e j ^^ f j) = true) ↔ e j ≠ f j := by
    cases e j <;> cases f j <;> simp
  have hxor := feed_xor p x x e f n
  rw [heq, BitVec.xor_self, BitVec.xor_self] at hxor
  exact feed_burst_ne_zero hp (fun j hj hj' => hwindow j hj ((hdiff j).mp hj')) hi
    ((hdiff i).mpr hne) hxor

/-- Nor do two sequences agree that differ by a pattern `d` from place `k` on, if the pattern
alone does not leave the register at zero. -/
theorem feed_ne_of_pattern (hp : p.msb = true) (x : BitVec w) {e f d : Nat → Bool}
    {k len n : Nat} (hfits : k + len ≤ n)
    (hdiff : ∀ j, j < n → (e j ^^ f j) = (decide (k ≤ j ∧ j < k + len) && d (j - k)))
    (hd : feed p 0#w d len ≠ 0#w) : feed p x e n ≠ feed p x f n := by
  intro heq
  obtain ⟨rest, rfl⟩ := Nat.exists_eq_add_of_le hfits
  have hxor := feed_xor p x x e f (k + len + rest)
  rw [heq, BitVec.xor_self, BitVec.xor_self, feed_congr p _ hdiff, feed_add] at hxor
  have hafter (j : Nat) (_ : j < rest) :
      (decide (k ≤ k + len + j ∧ k + len + j < k + len) && d (k + len + j - k)) = false := by
    rw [decide_eq_false (by omega), Bool.false_and]
  rw [feed_zeros p _ hafter] at hxor
  have hpattern := iterate_eq_zero hp hxor
  have hbefore (j : Nat) (hj : j < k) :
      (decide (k ≤ j ∧ j < k + len) && d (j - k)) = false := by
    rw [decide_eq_false (by omega), Bool.false_and]
  have hwithin (j : Nat) (hj : j < len) :
      (decide (k ≤ k + j ∧ k + j < k + len) && d (k + j - k)) = d j := by
    rw [decide_eq_true (by omega), Bool.true_and, Nat.add_sub_cancel_left]
  rw [feed_add, feed_zeros p _ hbefore, Function.iterate_fixed (step_zero p) k,
    feed_congr p _ hwithin] at hpattern
  exact hd hpattern

end RadsatLinux.Library.ShiftRegister
