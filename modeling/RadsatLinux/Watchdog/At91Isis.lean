import Mathlib
import RadsatLinux.Library.Bits

/-!
# The watchdog of the ISIS OBC

`of_at91isiswdt_init` reads the interval between two kicks from the device tree and packs
it into a mode register image, maximum in the low field and maximum minus minimum in the
high one; `at91_isis_wdt_init` unpacks it and chooses the period of the ping timer.  Left
out are the registration with the watchdog core and its timeout in seconds.
-/

namespace RadsatLinux.Watchdog.At91Isis

open RadsatLinux.Library.Bits

abbrev U32 := BitVec 32

/-! ## Constants -/

/-- Counter value of the mode register -/
def at91WdtWdv : U32 := 0xfff

/-- Delta value of the mode register -/
def at91WdtWdd : U32 := 0xfff <<< 16

/-- Fault interrupt enable -/
def at91WdtWdfien : U32 := 1 <<< 12

/-- Reset enable -/
def at91WdtWdrsten : U32 := 1 <<< 13

/-- Restart the processor only -/
def at91WdtWdrproc : U32 := 1 <<< 14

def wdtCounterMaxTicks : U32 := 0xFFF

/-- `HZ / 10`: a tenth of a second. -/
def wdtCounterMinTicks (hz : Nat) : U32 := BitVec.ofNat 32 (hz / 10)

/-! ## Packing -/

/-- The properties of the watchdog's device tree node; `none` for one that is absent. -/
structure DeviceNode where
  maxHeartbeat : Option U32
  minHeartbeat : Option U32
  watchdogType : Option String
  resetType : Option String

/-- The fields of `struct at91isiswdt` that `of_at91isiswdt_init` fills. -/
structure Isiswdt where
  mr : U32
  mrMask : U32

def clampedMax (np : DeviceNode) : U32 :=
  match np.maxHeartbeat with
  | none => wdtCounterMaxTicks
  | some max => if max = 0 ∨ wdtCounterMaxTicks < max then wdtCounterMaxTicks else max

/-- The property is only looked at when the other one is present. -/
def clampedMin (hz : Nat) (np : DeviceNode) : U32 :=
  match np.maxHeartbeat, np.minHeartbeat with
  | some _, some min =>
      if clampedMax np ≤ min then clampedMax np - 1
      else if min < wdtCounterMinTicks hz then wdtCounterMinTicks hz
      else min
  | _, _ => 0

def modeBits (np : DeviceNode) : U32 :=
  (if np.watchdogType = some "software" then at91WdtWdfien else at91WdtWdrsten) |||
    (if np.resetType = some "proc" then at91WdtWdrproc else 0)

def ofAt91isiswdtInit (hz : Nat) (np : DeviceNode) : Isiswdt where
  mr := modeBits np ||| (clampedMax np ||| ((clampedMax np - clampedMin hz np) <<< 16))
  mrMask := if np.watchdogType = some "software" then 0x3FFFFFFF &&& ~~~ at91WdtWdrproc
    else 0x3FFFFFFF

/-! ## Unpacking -/

structure InitError where
  code : Int
  text : String

/-- `firstPing` is when the timer is first due, `heartbeat` its period from then on, and
`warning` is logged. -/
structure PingTimer where
  minHeartbeat : U32
  maxHeartbeat : U32
  heartbeat : U32
  firstPing : U32
  warning : Option String

def at91IsisWdtInit (mr : U32) : Except InitError PingTimer :=
  let value := mr &&& at91WdtWdv
  let delta := (mr &&& at91WdtWdd) >>> 16
  let minHeartbeat := if delta < value then value - delta else 1
  let maxHeartbeat := value
  if maxHeartbeat = 0 then
    .error ⟨-22, "max heartbeat is too small for the system to handle it correctly\n"⟩
  else
    .ok
      { minHeartbeat := minHeartbeat
        maxHeartbeat := maxHeartbeat
        heartbeat :=
          if minHeartbeat ≤ maxHeartbeat / 4 then maxHeartbeat / 4
          else if minHeartbeat ≤ maxHeartbeat / 2 then maxHeartbeat / 2
          else minHeartbeat
        firstPing := minHeartbeat
        warning :=
          if maxHeartbeat < minHeartbeat + 4 then
            some ("min heartbeat and max heartbeat might be too close for the system " ++
              "to handle it correctly\n")
          else none }

/-- Whatever the register image says, the period lies between the two bounds. -/
theorem at91IsisWdtInit_between {mr : U32} {timer : PingTimer}
    (hinit : at91IsisWdtInit mr = .ok timer) :
    1 ≤ timer.minHeartbeat ∧ timer.minHeartbeat ≤ timer.heartbeat ∧
      timer.heartbeat ≤ timer.maxHeartbeat := by
  unfold at91IsisWdtInit at hinit
  generalize mr &&& at91WdtWdv = value at hinit
  generalize (mr &&& at91WdtWdd) >>> 16 = delta at hinit
  dsimp only at hinit
  split at hinit
  · cases hinit
  · rename_i hvalue
    have hpos : value.toNat ≠ 0 := fun h => hvalue (BitVec.eq_of_toNat_eq h)
    cases hinit
    have hquarter : (value / 4).toNat = value.toNat / 4 := BitVec.toNat_udiv
    have hhalf : (value / 2).toNat = value.toNat / 2 := BitVec.toNat_udiv
    dsimp only
    generalize hmin : (if delta < value then value - delta else 1) = min
    have hbounds : 1 ≤ min.toNat ∧ min.toNat ≤ value.toNat := by
      rw [← hmin]
      split <;> bv_omega
    simp only [BitVec.le_def, hquarter, hhalf]
    refine ⟨hbounds.1, ?_⟩
    split
    · omega
    · split <;> omega

/-! ## From one function to the other -/

variable {hz : Nat} {np : DeviceNode}

theorem clampedMax_bounds (np : DeviceNode) :
    1 ≤ (clampedMax np).toNat ∧ (clampedMax np).toNat ≤ 0xfff := by
  unfold clampedMax wdtCounterMaxTicks
  split
  · decide
  · split
    · decide
    · rename_i hrange
      rw [not_or] at hrange
      exact ⟨by bv_omega, by bv_omega⟩

theorem modeBits_apart (np : DeviceNode) :
    modeBits np &&& at91WdtWdv = 0#32 ∧ modeBits np &&& at91WdtWdd = 0#32 ∧
      modeBits np &&& ~~~ (at91WdtWdv ||| at91WdtWdd) = modeBits np := by
  unfold modeBits
  split <;> split <;> decide

/-- The three parts of a register image, when the difference fits in its field. -/
theorem mr_fields (hbelow : clampedMin hz np ≤ clampedMax np) :
    (ofAt91isiswdtInit hz np).mr &&& at91WdtWdv = clampedMax np ∧
    ((ofAt91isiswdtInit hz np).mr &&& at91WdtWdd) >>> 16 = clampedMax np - clampedMin hz np ∧
    (ofAt91isiswdtInit hz np).mr &&& ~~~ (at91WdtWdv ||| at91WdtWdd) = modeBits np := by
  obtain ⟨-, hmax⟩ := clampedMax_bounds np
  have hdelta : (clampedMax np - clampedMin hz np).toNat ≤ 0xfff := by bv_omega
  simp only [ofAt91isiswdtInit]
  generalize clampedMax np - clampedMin hz np = delta at hdelta ⊢
  generalize clampedMax np = value at hmax ⊢
  obtain ⟨hmodeValue, hmodeDelta, hmodeRest⟩ := modeBits_apart np
  have hvalue : Within value at91WdtWdv := 
    within_mask (n := 12) (Nat.lt_succ_of_le hmax)
  have hfield : Within (delta <<< 16) at91WdtWdd :=
    (within_mask (n := 12) (Nat.lt_succ_of_le hdelta)).shiftLeft 16
  have hvalueDelta : value &&& at91WdtWdd = 0#32 := hvalue.and_eq_zero (by decide)
  have hvalueRest : value &&& ~~~ (at91WdtWdv ||| at91WdtWdd) = 0#32 :=
    hvalue.and_eq_zero (by decide)
  have hfieldValue : delta <<< 16 &&& at91WdtWdv = 0#32 := hfield.and_eq_zero (by decide)
  have hfieldRest : delta <<< 16 &&& ~~~ (at91WdtWdv ||| at91WdtWdd) = 0#32 :=
    hfield.and_eq_zero (by decide)
  have hback : (delta <<< 16) >>> 16 = delta :=
    shiftLeft_ushiftRight_of_lt (Nat.lt_of_le_of_lt hdelta (by decide)) (by decide)
  refine ⟨?_, ?_, ?_⟩
  · rw [BitVec.and_or_distrib_right, BitVec.and_or_distrib_right, hmodeValue, hfieldValue,
      hvalue.and_eq, BitVec.or_zero, BitVec.zero_or]
  · rw [BitVec.and_or_distrib_right, BitVec.and_or_distrib_right, hmodeDelta, hvalueDelta,
      hfield.and_eq, BitVec.zero_or, BitVec.zero_or, hback]
  · rw [BitVec.and_or_distrib_right, BitVec.and_or_distrib_right, hmodeRest, hvalueRest,
      hfieldRest, BitVec.or_zero, BitVec.or_zero]

/-- What the device tree asks for, clamped, is what the second function works with. -/
structure WindowKept (hz : Nat) (np : DeviceNode) : Prop where
  below : clampedMin hz np < clampedMax np
  noUnderflow : BitVec.usubOverflow (clampedMax np) (clampedMin hz np) = false
  noSpill : (ofAt91isiswdtInit hz np).mr &&& ~~~ (at91WdtWdv ||| at91WdtWdd) = modeBits np
  unpacked : ∃ timer, at91IsisWdtInit (ofAt91isiswdtInit hz np).mr = .ok timer ∧
    timer.maxHeartbeat = clampedMax np ∧
    timer.minHeartbeat = (if clampedMin hz np = 0 then 1 else clampedMin hz np) ∧
    timer.minHeartbeat ≤ timer.heartbeat ∧ timer.heartbeat ≤ timer.maxHeartbeat ∧
    1 ≤ timer.heartbeat

theorem unpacked_of_below (hbelow : clampedMin hz np < clampedMax np) :
    ∃ timer, at91IsisWdtInit (ofAt91isiswdtInit hz np).mr = .ok timer ∧
      timer.maxHeartbeat = clampedMax np ∧
      timer.minHeartbeat = (if clampedMin hz np = 0 then 1 else clampedMin hz np) := by
  obtain ⟨hvalue, hdelta, -⟩ := mr_fields (BitVec.le_of_lt hbelow)
  obtain ⟨hpos, -⟩ := clampedMax_bounds np
  have hnonzero : clampedMax np ≠ 0 := by bv_omega
  unfold at91IsisWdtInit
  simp only [hvalue, hdelta, if_neg hnonzero]
  refine ⟨_, rfl, rfl, ?_⟩
  by_cases hzero : clampedMin hz np = 0
  · rw [if_pos hzero, if_neg (by bv_omega)]
  · rw [if_neg hzero, if_pos (by bv_omega)]
    bv_omega

theorem windowKept_of_below (hbelow : clampedMin hz np < clampedMax np) : WindowKept hz np := by
  obtain ⟨timer, hinit, hmax, hmin⟩ := unpacked_of_below hbelow
  obtain ⟨hone, hlow, hhigh⟩ := at91IsisWdtInit_between hinit
  refine ⟨hbelow, ?_, (mr_fields (BitVec.le_of_lt hbelow)).2.2,
    timer, hinit, hmax, hmin, hlow, hhigh, BitVec.le_trans hone hlow⟩
  rw [BitVec.usubOverflow, decide_eq_false_iff_not]
  bv_omega

/-- Where the second clamp applies it stays below the maximum. -/
def FloorFits (hz : Nat) (np : DeviceNode) : Prop :=
  ∀ max min, np.maxHeartbeat = some max → np.minHeartbeat = some min →
    min < wdtCounterMinTicks hz →
    (max ≠ 0 → max ≤ wdtCounterMaxTicks → min < max → wdtCounterMinTicks hz < max) ∧
    (max = 0 ∨ wdtCounterMaxTicks < max → min < wdtCounterMaxTicks →
      wdtCounterMinTicks hz < wdtCounterMaxTicks)

/-- The two clamps in a row, for a maximum of at least 1. -/
theorem clamp_below_iff {value min floor : U32} (hpos : 1 ≤ value.toNat) :
    (if value ≤ min then value - 1 else if min < floor then floor else min) < value ↔
      (min < floor → min < value → floor < value) := by
  split
  · refine iff_of_true (by bv_omega) fun _ hlt => ?_
    bv_omega
  · split
    · refine ⟨fun h _ _ => h, fun h => h ?_ ?_⟩ <;> bv_omega
    · refine iff_of_true (by bv_omega) fun hlt => ?_
      bv_omega

theorem below_iff (hz : Nat) (np : DeviceNode) :
    clampedMin hz np < clampedMax np ↔ FloorFits hz np := by
  have hpos := (clampedMax_bounds np).1
  rcases np with ⟨max, min, watchdogType, resetType⟩
  cases max with
  | none =>
      refine iff_of_true hpos fun max min hmax => ?_
      cases hmax
  | some max =>
      cases min with
      | none =>
          refine iff_of_true hpos fun max min _ hmin => ?_
          cases hmin
      | some min =>
          have hclamp : clampedMin hz ⟨some max, some min, watchdogType, resetType⟩ <
              clampedMax ⟨some max, some min, watchdogType, resetType⟩ ↔ _ :=
            clamp_below_iff hpos
          rw [hclamp]
          by_cases hrange : max = 0 ∨ wdtCounterMaxTicks < max
          · have hvalue : clampedMax ⟨some max, some min, watchdogType, resetType⟩ =
                wdtCounterMaxTicks := if_pos hrange
            rw [hvalue]
            constructor
            · rintro h _ _ ⟨⟩ ⟨⟩ hfloor
              refine ⟨fun hne hle => ?_, fun _ hlt => h hfloor hlt⟩
              rcases hrange with hzero | hlarge
              · exact absurd hzero hne
              · exact absurd hlarge (BitVec.not_lt.mpr hle)
            · exact fun h hfloor hlt => (h max min rfl rfl hfloor).2 hrange hlt
          · have hvalue : clampedMax ⟨some max, some min, watchdogType, resetType⟩ = max :=
              if_neg hrange
            rw [hvalue]
            have hinside := not_or.mp hrange
            constructor
            · rintro h _ _ ⟨⟩ ⟨⟩ hfloor
              exact ⟨fun _ _ hlt => h hfloor hlt, fun hout => absurd hout hrange⟩
            · exact fun h hfloor hlt => (h max min rfl rfl hfloor).1 hinside.1
                (BitVec.not_lt.mp hinside.2) hlt

/-- The interval survives the register image exactly when the second clamp does not lift the
minimum to the maximum that the first one keeps it below. -/
theorem windowKept_iff (hz : Nat) (np : DeviceNode) : WindowKept hz np ↔ FloorFits hz np :=
  ⟨fun h => (below_iff hz np).mp h.below, fun h => windowKept_of_below ((below_iff hz np).mpr h)⟩

/-- Between two and five ticks. -/
def shortWindow : DeviceNode := ⟨some 5, some 2, none, none⟩

/-- At 100 ticks a second the minimum of two becomes ten, twice the maximum: the difference
wraps, the high bits of the image are set, and the second function sees no minimum. -/
theorem not_windowKept_shortWindow :
    clampedMax shortWindow = 5 ∧ clampedMin 100 shortWindow = 10 ∧
    BitVec.usubOverflow (clampedMax shortWindow) (clampedMin 100 shortWindow) = true ∧
    (ofAt91isiswdtInit 100 shortWindow).mr = 0xfffb2005 ∧
    ¬ WindowKept 100 shortWindow := by
  refine ⟨by decide, by decide, by decide, by decide, fun h => ?_⟩
  have hbelow := h.below
  revert hbelow
  decide

/-- The board's own device tree is fine. -/
example : (at91IsisWdtInit (ofAt91isiswdtInit 128 ⟨some 50, some 10, none, none⟩).mr).toOption.map
    (fun timer => (timer.minHeartbeat, timer.heartbeat, timer.maxHeartbeat)) =
      some (12, 12, 50) := by
  decide

end RadsatLinux.Watchdog.At91Isis
