import RadsatLinux.InstallOs.Commands
import RadsatLinux.UBoot.RecordCodec

/-!
# A service that keeps the records of U-Boot

`recordService` goes by the two slots of a key as the dual-slot rule says, and stores a flag in
both of them with the next sequence number, in the format the U-Boot readers decode.
`StoresForUBoot` says of any service that U-Boot, which reads slot A alone, finds the restore
offset that the service has stored.
-/

namespace RadsatLinux.InstallOs.RecordService

open RadsatLinux.Fram.Record RadsatLinux.Fram.Memory
open RadsatLinux.UBoot.FramMission RadsatLinux.UBoot.Overlay RadsatLinux.UBoot.RecordCodec
open RadsatLinux.InstallOs.Commands

/-- Both slots of a key written with one record. -/
def storeRecord (id : U8) (rec : Slot) (chip : Chip) : Chip :=
  writeAt (writeAt chip (keyOffsetB id).toNat rec 32) (keyOffset id).toNat rec 32

def nextSeq (id : U8) (chip : Chip) : U32 :=
  recordSeq (slotA chip id) + 1

section

variable {α : Type}

def dualValue (kind : ValueKind α) (id : U8) (chip : Chip) : Option α :=
  dualSlotValue kind id (slotA chip id) (slotB chip id)

theorem slots_storeRecord_same {id : U8} (hid : id ≠ 0) (rec : Slot) (chip : Chip) :
    slotA (storeRecord id rec chip) id = rec ∧ slotB (storeRecord id rec chip) id = rec := by
  have hA := keyOffset_toNat hid
  have hB := keyOffsetB_toNat hid
  refine ⟨readAt_writeAt_full _ _ _, ?_⟩
  rw [slotB, storeRecord, readAt_writeAt_apart _ rec 32 (by omega)]
  exact readAt_writeAt_full _ _ _

theorem slots_storeRecord_other {id other : U8} (rec : Slot) (chip : Chip)
    (hid : id ∈ recoveryKeys) (hother : other ∈ recoveryKeys) (hne : other ≠ id) :
    slotA (storeRecord id rec chip) other = slotA chip other ∧
      slotB (storeRecord id rec chip) other = slotB chip other := by
  have hA := keyOffset_toNat (recoveryKey_ne_zero hid)
  have hB := keyOffsetB_toNat (recoveryKey_ne_zero hid)
  have hotherA := keyOffset_toNat (recoveryKey_ne_zero hother)
  have hotherB := keyOffsetB_toNat (recoveryKey_ne_zero hother)
  have houtside : SameOutside (keyOffset id).toNat 64 chip (storeRecord id rec chip) :=
    (sameOutside_writeAt chip _ rec 32 (by omega) (by omega)).trans
      (sameOutside_writeAt _ _ rec 32 (by omega) (by omega))
  have hapart : (keyOffset other).toNat + 64 ≤ (keyOffset id).toNat ∨
      (keyOffset id).toNat + 64 ≤ (keyOffset other).toNat := by
    have hall : ∀ id ∈ recoveryKeys, ∀ other ∈ recoveryKeys, other ≠ id →
        (keyOffset other).toNat + 64 ≤ (keyOffset id).toNat ∨
          (keyOffset id).toNat + 64 ≤ (keyOffset other).toNat := by
      decide
    exact hall id hid other hother hne
  exact ⟨houtside.readAt_eq (by omega), houtside.readAt_eq (by omega)⟩

/-! Both readers find what is stored. -/

theorem keyValue_storeRecord_same (kind : ValueKind α) {id : U8} (hid : id ≠ 0) (value : α)
    (seq : U32) (chip : Chip) :
    keyValue kind id (storeRecord id (framEncode kind id value seq) chip) = some value := by
  rw [keyValue, (slots_storeRecord_same hid _ chip).1]
  exact framDecode_framEncode kind id value seq

theorem dualValue_storeRecord_same (kind : ValueKind α) {id : U8} (hid : id ≠ 0) (value : α)
    (seq : U32) (chip : Chip) :
    dualValue kind id (storeRecord id (framEncode kind id value seq) chip) = some value := by
  obtain ⟨hA, hB⟩ := slots_storeRecord_same hid (framEncode kind id value seq) chip
  have hvalue : slotValue kind (framEncode kind id value seq) = value := by
    rw [slotValue, recordPayload_framEncode, kind.get_put]
  rw [dualValue, hA, hB, dualSlotValue, if_pos (slotValid_framEncode kind id value seq), hvalue,
    ite_self]

theorem keyValue_storeRecord_other (kind : ValueKind α) {id other : U8} (rec : Slot)
    (chip : Chip) (hid : id ∈ recoveryKeys) (hother : other ∈ recoveryKeys) (hne : other ≠ id) :
    keyValue kind other (storeRecord id rec chip) = keyValue kind other chip := by
  rw [keyValue, (slots_storeRecord_other rec chip hid hother hne).1]
  rfl

theorem dualValue_storeRecord_other (kind : ValueKind α) {id other : U8} (rec : Slot)
    (chip : Chip) (hid : id ∈ recoveryKeys) (hother : other ∈ recoveryKeys) (hne : other ≠ id) :
    dualValue kind other (storeRecord id rec chip) = dualValue kind other chip := by
  obtain ⟨hA, hB⟩ := slots_storeRecord_other rec chip hid hother hne
  rw [dualValue, hA, hB]
  rfl

end

def recordFlags (chip : Chip) : Flags where
  emmcRecoveryNeeded := dualValue boolKind framKeyEmmcRecoveryNeeded chip
  emmcRestoreOffset := dualValue u64Kind framKeyEmmcRestoreOffset chip
  lastEmmcProbeOk := dualValue boolKind framKeyLastEmmcProbeOk chip
  bootMedia := dualValue u64Kind framKeyBootMedia chip

def recordStore (request : FlagSet) (chip : Chip) : Chip :=
  match request with
  | .emmcRecoveryNeeded value =>
      storeRecord framKeyEmmcRecoveryNeeded (framEncodeBool framKeyEmmcRecoveryNeeded value
        (nextSeq framKeyEmmcRecoveryNeeded chip)) chip
  | .emmcRestoreOffset value =>
      storeRecord framKeyEmmcRestoreOffset (framEncodeU64 framKeyEmmcRestoreOffset value
        (nextSeq framKeyEmmcRestoreOffset chip)) chip
  | .lastEmmcProbeOk value =>
      storeRecord framKeyLastEmmcProbeOk (framEncodeBool framKeyLastEmmcProbeOk value
        (nextSeq framKeyLastEmmcProbeOk chip)) chip
  | .bootMedia value =>
      storeRecord framKeyBootMedia (framEncodeU64 framKeyBootMedia value
        (nextSeq framKeyBootMedia chip)) chip

theorem recordFlags_recordStore (request : FlagSet) (chip : Chip) :
    recordFlags (recordStore request chip) = request.apply (recordFlags chip) := by
  cases request <;>
    simp (disch := decide) only [recordFlags, recordStore, FlagSet.apply, framEncodeBool,
      framEncodeU64, dualValue_storeRecord_same] <;>
    simp only [Flags.mk.injEq, and_true, true_and] <;>
    refine ⟨?_, ?_, ?_⟩ <;>
    exact dualValue_storeRecord_other _ _ _ (by decide) (by decide) (by decide)

def recordService : FramService where
  flags := recordFlags
  store := recordStore
  flags_store := recordFlags_recordStore

/-- The restore offset that U-Boot reads. -/
def uBootOffset (chip : Chip) : Option U64 :=
  keyValue u64Kind framKeyEmmcRestoreOffset chip

/-- U-Boot reads the restore offset that the service has stored. -/
def StoresForUBoot (service : FramService) : Prop :=
  ∀ request chip, uBootOffset (service.store request chip) = offsetAfter request (uBootOffset chip)

theorem recordService_storesForUBoot : StoresForUBoot recordService := by
  intro request chip
  cases request with
  | emmcRestoreOffset value =>
      exact keyValue_storeRecord_same u64Kind (by decide) value _ chip
  | emmcRecoveryNeeded value =>
      exact keyValue_storeRecord_other u64Kind _ chip (by decide) (by decide) (by decide)
  | lastEmmcProbeOk value =>
      exact keyValue_storeRecord_other u64Kind _ chip (by decide) (by decide) (by decide)
  | bootMedia value =>
      exact keyValue_storeRecord_other u64Kind _ chip (by decide) (by decide) (by decide)

end RadsatLinux.InstallOs.RecordService
