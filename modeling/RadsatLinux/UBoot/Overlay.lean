import RadsatLinux.UBoot.FramMission

/-!
# The mission policy overlay

`decode_and_set` of `common/fram_mission.c`, which turns the two slots of a mission key
into an environment variable.  It prefers slot B when its sequence number is higher; the
readers of the recovery keys never look at slot B.  `dualSlotValue` is the rule that both
are meant to follow, and `FollowsRule` compares them with it.
-/

namespace RadsatLinux.UBoot.Overlay

open RadsatLinux.Library.Crash RadsatLinux.Library.LittleEndian
open RadsatLinux.Fram.Record RadsatLinux.Fram.Memory
open RadsatLinux.UBoot.Hardware RadsatLinux.UBoot.FramMission

/-- `struct fram_key`; `vtype` is 1 for bool, 2 for timestamp, 3 for u64. -/
structure FramKey where
  id : U8
  name : String
  vtype : U8

/-- A call of `setenv`; `none` deletes the variable. -/
structure SetEnv where
  name : String
  value : Option String
  deriving DecidableEq

def boolText (value : Bool) : String :=
  if value then "true" else "false"

/-- `sprintf(val, "%llu", ...)` -/
def decimal (value : U64) : String :=
  Nat.repr value.toNat

/-! ## The code -/

/-- The part of `decode_and_set` after `best` is chosen; `none` when it returns -1. -/
def setFromRecord (key : FramKey) (best : Slot) : Option SetEnv :=
  if recordType best != key.vtype then none
  else if key.vtype == 1 then
    if recordLen best != 1 then none
    else some ⟨key.name, some (boolText (boolKind.get (recordPayload best)))⟩
  else if key.vtype == 2 then
    -- A timestamp of length 0 is no timestamp.
    if recordLen best == 0 then some ⟨key.name, none⟩
    else if recordLen best != 8 then none
    else some ⟨key.name, some (decimal (u64Kind.get (recordPayload best)))⟩
  else if key.vtype == 3 then
    if recordLen best != 8 then none
    else some ⟨key.name, some (decimal (u64Kind.get (recordPayload best)))⟩
  else none

/-- The test `decode_and_set` makes on slot B: neither the format version, nor the type, nor
the length. -/
def slotBUsable (id : U8) (slotB : Slot) : Bool :=
  recordMagic slotB == framRecMagic && recordId slotB == id && crcOk slotB

def bestSlot (id : U8) (raw : Slot) : Option Slot → Slot
  | none => raw
  | some slotB =>
      if slotBUsable id slotB && decide (recordSeq raw < recordSeq slotB) then slotB else raw

def decodeAndSet (key : FramKey) (raw : Slot) : Boot (Option SetEnv) := do
  if recordMagic raw != framRecMagic || recordVersion raw != 1 || recordId raw != key.id then
    return none
  if !crcOk raw then return none
  let slotB ← framRead (keyOffsetB key.id) 32
  return setFromRecord key (bestSlot key.id raw slotB)

/-- The body of the loop over the keys in `radsat_fram_overlay_env`. -/
def overlayKey (key : FramKey) : Boot (Option SetEnv) := do
  match ← framRead (keyOffset key.id) 32 with
  | none => return none
  | some raw => decodeAndSet key raw

/-! ## The rule -/

variable {α : Type}

/-- Magic, format version, id, type, length and CRC are all right. -/
def SlotValid (kind : ValueKind α) (id : U8) (raw : Slot) : Prop :=
  recordCheck kind id raw = true ∧ recordVersion raw = 1

instance (kind : ValueKind α) (id : U8) (raw : Slot) : Decidable (SlotValid kind id raw) :=
  inferInstanceAs (Decidable (_ ∧ _))

def slotValue (kind : ValueKind α) (raw : Slot) : α :=
  kind.get (recordPayload raw)

/-- Slot B if it is valid and newer than a valid slot A, or if slot A is not valid; else a
valid slot A. -/
def dualSlotValue (kind : ValueKind α) (id : U8) (a b : Slot) : Option α :=
  if SlotValid kind id a then
    if SlotValid kind id b ∧ recordSeq a < recordSeq b then some (slotValue kind b)
    else some (slotValue kind a)
  else if SlotValid kind id b then some (slotValue kind b)
  else none

/-- The overlay makes the call `r` for a key on a board just powered on with the FRAM bus
selected. -/
def Overlays (key : FramKey) (d : Durable) (r : Option SetEnv) : Prop :=
  ∀ volatile : PowerOn, volatile.bus = configFramI2cBus → volatile.i2c = [] →
    ∃ b, overlayKey key (powerOn volatile d) = .ok r b

/-- Where one slot is valid, the reader and the overlay both yield what the rule says. -/
def FollowsRule (kind : ValueKind α) (render : α → String) (id : U8) (name : String)
    (d : Durable) : Prop :=
  SlotValid kind id (slotA d.fram id) ∨ SlotValid kind id (slotB d.fram id) →
    ReadsBack kind id d (dualSlotValue kind id (slotA d.fram id) (slotB d.fram id)) ∧
    Overlays ⟨id, name, kind.vtype⟩ d
      ((dualSlotValue kind id (slotA d.fram id) (slotB d.fram id)).map
        fun value => ⟨name, some (render value)⟩)

/-! ## What the overlay computes -/

/-- `decode_and_set` as a function of the two slots. -/
def overlayValue (key : FramKey) (a b : Slot) : Option SetEnv :=
  if recordMagic a != framRecMagic || recordVersion a != 1 || recordId a != key.id then none
  else if !crcOk a then none
  else setFromRecord key (bestSlot key.id a (some b))

theorem overlayKey_powerOn (key : FramKey) (d : Durable) (volatile : PowerOn)
    (hbus : volatile.bus = configFramI2cBus) (hi2c : volatile.i2c = []) :
    overlayKey key (powerOn volatile d) =
      .ok (overlayValue key (slotA d.fram key.id) (slotB d.fram key.id)) (powerOn volatile d) := by
  have hA := framRead_powerOn d (keyOffset key.id) 32 hbus hi2c
  have hB := framRead_powerOn d (keyOffsetB key.id) 32 hbus hi2c
  simp only [overlayKey, decodeAndSet, overlayValue, bind, EStateM.bind, hA]
  rw [← slotA]
  split
  · rfl
  · split
    · rfl
    · unfold EStateM.bind
      rw [hB]
      rfl

theorem overlays_iff {key : FramKey} {d : Durable} {r : Option SetEnv} :
    Overlays key d r ↔ overlayValue key (slotA d.fram key.id) (slotB d.fram key.id) = r := by
  constructor
  · intro h
    let volatile : PowerOn := ⟨configFramI2cBus, .sd, d.sd, [], [], []⟩
    obtain ⟨b, hrun⟩ := h volatile rfl rfl
    rw [overlayKey_powerOn key d volatile rfl rfl] at hrun
    cases hrun
    rfl
  · rintro rfl volatile hbus hi2c
    exact ⟨_, overlayKey_powerOn key d volatile hbus hi2c⟩

/-- `setFromRecord` for a type that the recovery readers know too. -/
structure Renders (kind : ValueKind α) (render : α → String) : Prop where
  injective : Function.Injective render
  set : ∀ id name best, setFromRecord ⟨id, name, kind.vtype⟩ best =
    if recordType best = kind.vtype ∧ recordLen best = kind.len then
      some ⟨name, some (render (slotValue kind best))⟩
    else none

theorem boolText_injective : Function.Injective boolText := by
  have hall : ∀ v w, boolText v = boolText w → v = w := by decide
  exact fun v w => hall v w

theorem renders_bool : Renders boolKind boolText where
  injective := boolText_injective
  set id name best := by
    by_cases htype : recordType best = 1#8 <;> by_cases hlen : recordLen best = 1#8 <;>
      simp [setFromRecord, boolKind, slotValue, htype, hlen]

theorem decimal_injective : Function.Injective decimal := by
  intro v w h
  have hdigits : Nat.toDigits 10 v.toNat = Nat.toDigits 10 w.toNat := by
    rw [← Nat.toList_repr, ← Nat.toList_repr]
    exact congrArg String.toList h
  have hnat := congrArg (Nat.ofDigitChars 10 · 0) hdigits
  simp only [Nat.ofDigitChars_ten_toDigits] at hnat
  exact BitVec.eq_of_toNat_eq hnat

theorem renders_u64 : Renders u64Kind decimal where
  injective := decimal_injective
  set id name best := by
    by_cases htype : recordType best = 3#8 <;> by_cases hlen : recordLen best = 8#8 <;>
      simp [setFromRecord, u64Kind, slotValue, htype, hlen]

/-! ## Where the two agree -/

section Agreement

variable {kind : ValueKind α} {render : α → String} {id : U8} {a b : Slot}

theorem SlotValid.fields (h : SlotValid kind id a) :
    slotBUsable id a = true ∧ recordVersion a = 1 ∧ recordType a = kind.vtype ∧
      recordLen a = kind.len := by
  rcases h with ⟨hcheck, hversion⟩
  simp only [recordCheck, Bool.and_eq_true, beq_iff_eq] at hcheck
  rcases hcheck with ⟨⟨⟨⟨hmagic, hid⟩, htype⟩, hlen⟩, hcrc⟩
  exact ⟨by simp [slotBUsable, hmagic, hid, hcrc], hversion, htype, hlen⟩

theorem SlotValid.framDecode_eq (h : SlotValid kind id a) :
    framDecode kind id a = some (slotValue kind a) :=
  if_pos h.1

theorem overlayValue_of_valid (h : SlotValid kind id a) (name : String) (b : Slot) :
    overlayValue ⟨id, name, kind.vtype⟩ a b =
      setFromRecord ⟨id, name, kind.vtype⟩ (bestSlot id a (some b)) := by
  obtain ⟨husable, hversion, -⟩ := h.fields
  simp only [slotBUsable, Bool.and_eq_true, beq_iff_eq] at husable
  rcases husable with ⟨⟨hmagic, hid⟩, hcrc⟩
  simp [overlayValue, hmagic, hid, hcrc, hversion]

/-- A reader that accepts a record of another format version and an overlay that does not
cannot both yield slot B. -/
theorem not_both_of_not_valid (h : ¬ SlotValid kind id a) (name : String) {v : α}
    (hread : framDecode kind id a = some v) :
    overlayValue ⟨id, name, kind.vtype⟩ a b = none := by
  have hcheck : recordCheck kind id a = true := by
    by_contra hno
    rw [framDecode, if_neg hno] at hread
    cases hread
  have hversion : recordVersion a ≠ 1#8 := fun heq => h ⟨hcheck, heq⟩
  simp [overlayValue, hversion]

/-- Slot A is valid when slot B is, and a newer slot B that the overlay would use holds the
value of slot A. -/
def NoNewerB (kind : ValueKind α) (id : U8) (a b : Slot) : Prop :=
  (SlotValid kind id a ∨ ¬ SlotValid kind id b) ∧
    (SlotValid kind id a → slotBUsable id b = true → recordSeq a < recordSeq b →
      recordType b = kind.vtype ∧ recordLen b = kind.len ∧ slotValue kind b = slotValue kind a)

theorem followsRule_iff_noNewerB (hrender : Renders kind render) (name : String) (d : Durable) :
    FollowsRule kind render id name d ↔ NoNewerB kind id (slotA d.fram id) (slotB d.fram id) := by
  rw [FollowsRule, readsBack_iff, overlays_iff, keyValue]
  generalize slotA d.fram id = a
  generalize slotB d.fram id = b
  by_cases hA : SlotValid kind id a
  · have hoverlay := overlayValue_of_valid hA name b
    obtain ⟨-, -, htypeA, hlenA⟩ := hA.fields
    by_cases hnewer : slotBUsable id b = true ∧ recordSeq a < recordSeq b
    · -- The overlay takes slot B, the reader slot A.
      have hbest : bestSlot id a (some b) = b := by simp [bestSlot, hnewer]
      rw [hoverlay, hbest, hrender.set, hA.framDecode_eq]
      constructor
      · intro h
        obtain ⟨hread, hset⟩ := h (Or.inl hA)
        refine ⟨Or.inl hA, fun _ _ _ => ?_⟩
        rw [← hread, Option.map_some] at hset
        by_cases hfits : recordType b = kind.vtype ∧ recordLen b = kind.len
        · rw [if_pos hfits, Option.some.injEq, SetEnv.mk.injEq, Option.some.injEq] at hset
          exact ⟨hfits.1, hfits.2, hrender.injective hset.2⟩
        · rw [if_neg hfits] at hset
          cases hset
      · rintro ⟨-, hsame⟩ -
        obtain ⟨htype, hlen, hvalue⟩ := hsame hA hnewer.1 hnewer.2
        have hrule : dualSlotValue kind id a b = some (slotValue kind a) := by
          rw [dualSlotValue, if_pos hA, hvalue, ite_self]
        rw [hrule, if_pos ⟨htype, hlen⟩, hvalue]
        exact ⟨rfl, rfl⟩
    · -- Both take slot A, and so does the rule.
      have hbest : bestSlot id a (some b) = a := by
        rw [bestSlot, if_neg]
        simpa using hnewer
      have hrule : dualSlotValue kind id a b = some (slotValue kind a) := by
        rw [dualSlotValue, if_pos hA, if_neg]
        exact fun h => hnewer ⟨h.1.fields.1, h.2⟩
      refine iff_of_true (fun _ => ?_)
        ⟨Or.inl hA, fun _ husable hseq => absurd ⟨husable, hseq⟩ hnewer⟩
      rw [hoverlay, hbest, hrender.set, if_pos ⟨htypeA, hlenA⟩, hrule]
      exact ⟨hA.framDecode_eq, rfl⟩
  · by_cases hB : SlotValid kind id b
    · -- The rule yields slot B, and at least one of the two does not.
      refine iff_of_false (fun h => ?_) fun h => h.1.elim hA fun hno => hno hB
      obtain ⟨hread, hset⟩ := h (Or.inr hB)
      rw [dualSlotValue, if_neg hA, if_pos hB] at hread hset
      rw [not_both_of_not_valid hA name hread] at hset
      cases hset
    · exact iff_of_true (fun h => (h.elim hA hB).elim) ⟨Or.inr hB, fun h => absurd h hA⟩

end Agreement

/-- The recovery readers and the overlay follow one dual-slot rule exactly where no newer
slot B matters: the readers never look at slot B, and the overlay drops a key whose slot A
is bad before it reads slot B. -/
theorem followsRule_iff (id : U8) (name : String) (d : Durable) :
    (FollowsRule boolKind boolText id name d ↔
      NoNewerB boolKind id (slotA d.fram id) (slotB d.fram id)) ∧
    (FollowsRule u64Kind decimal id name d ↔
      NoNewerB u64Kind id (slotA d.fram id) (slotB d.fram id)) :=
  ⟨followsRule_iff_noNewerB renders_bool name d, followsRule_iff_noNewerB renders_u64 name d⟩

/-- Slot A of the latch holds true with sequence number 1, slot B false with 2. -/
def newerSlotB : Durable :=
  ⟨writeAt (chipWith framKeyEmmcRecoveryNeeded (framEncodeBool framKeyEmmcRecoveryNeeded true 1))
      (keyOffsetB framKeyEmmcRecoveryNeeded).toNat
      (framEncodeBool framKeyEmmcRecoveryNeeded false 2) 32,
    fun _ _ => 0, fun _ _ => 0⟩

/-- Both slots are valid and slot B is newer: the rule yields false, and `fram_read_bool`
returns true. -/
theorem not_followsRule_newerSlotB :
    ReadsBack boolKind framKeyEmmcRecoveryNeeded newerSlotB (some true) ∧
    dualSlotValue boolKind framKeyEmmcRecoveryNeeded
      (slotA newerSlotB.fram framKeyEmmcRecoveryNeeded)
      (slotB newerSlotB.fram framKeyEmmcRecoveryNeeded) = some false ∧
    ¬ FollowsRule boolKind boolText framKeyEmmcRecoveryNeeded "emmc_recovery_needed"
      newerSlotB := by
  have hread : ReadsBack boolKind framKeyEmmcRecoveryNeeded newerSlotB (some true) :=
    readsBack_iff.mpr (by decide +kernel)
  have hrule : dualSlotValue boolKind framKeyEmmcRecoveryNeeded
      (slotA newerSlotB.fram framKeyEmmcRecoveryNeeded)
      (slotB newerSlotB.fram framKeyEmmcRecoveryNeeded) = some false := by
    decide +kernel
  refine ⟨hread, hrule, fun h => ?_⟩
  have hvalid : SlotValid boolKind framKeyEmmcRecoveryNeeded
      (slotA newerSlotB.fram framKeyEmmcRecoveryNeeded) := by
    decide +kernel
  have hfollows := (h (Or.inl hvalid)).1
  rw [hrule, readsBack_iff] at hfollows
  rw [readsBack_iff, hfollows] at hread
  cases hread

end RadsatLinux.UBoot.Overlay
