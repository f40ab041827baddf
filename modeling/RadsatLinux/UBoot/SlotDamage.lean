import RadsatLinux.Fram.Burst
import RadsatLinux.UBoot.LayoutGate
import RadsatLinux.UBoot.Overlay

/-!
# Damaged records

What the readers of the recovery keys and `decode_and_set` make of a slot A in which some
bits of a record are flipped, or in which one record was only partly replaced by another.
-/

namespace RadsatLinux.UBoot.SlotDamage

open RadsatLinux.Library.Crash
open RadsatLinux.Fram.Record RadsatLinux.Fram.Memory RadsatLinux.Fram.Burst
open RadsatLinux.UBoot.Hardware RadsatLinux.UBoot.FramMission RadsatLinux.UBoot.Overlay

/-- Slot A with these bytes is rejected: whatever the bus does, the readers of the key yield
nothing, and `decode_and_set` returns -1. -/
structure Rejected (raw : Slot) : Prop where
  readBool : ∀ id b, slotA b.fram id = raw →
    wp (framReadBool id) (fun r _ => r = none) (fun _ _ => True) b
  readU64 : ∀ id b, slotA b.fram id = raw →
    wp (framReadU64 id) (fun r _ => r = none) (fun _ _ => True) b
  decode : ∀ key, decodeAndSet key raw = pure none

variable {α : Type}

theorem framReadKey_rejects {raw : Slot} (hcrc : crcOk raw = false) (kind : ValueKind α)
    (id : U8) (b : Board) (hslot : slotA b.fram id = raw) :
    wp (framReadKey kind id) (fun r _ => r = none) (fun _ _ => True) b := by
  rw [LayoutGate.wp_framReadKey_iff]
  split
  · trivial
  · unfold Layout.seen
    split
    · rw [← hslot] at hcrc
      exact framDecode_of_not_crcOk kind id hcrc
    · rfl

theorem rejected_of_not_crcOk {raw : Slot} (hcrc : crcOk raw = false) : Rejected raw where
  readBool := framReadKey_rejects hcrc boolKind
  readU64 := framReadKey_rejects hcrc u64Kind
  decode key := by
    unfold decodeAndSet
    rw [hcrc]
    split <;> rfl

/-- A slot with the bits of `err` flipped. -/
def flipBits (raw err : Slot) : Slot :=
  Vector.zipWith (· ^^^ ·) raw err

/-- What `fram_encode_bool` and `fram_encode_u64` produce. -/
inductive Encoded : Slot → Prop where
  | bool (id : U8) (value : Bool) (seq : U32) : Encoded (framEncodeBool id value seq)
  | u64 (id : U8) (value : U64) (seq : U32) : Encoded (framEncodeU64 id value seq)

theorem Encoded.crcOk {raw : Slot} (h : Encoded raw) : crcOk raw = true := by
  cases h with
  | bool id value seq => exact crcOk_framEncode _ _ _ _
  | u64 id value seq => exact crcOk_framEncode _ _ _ _

theorem slotBit_flipBits (raw err : Slot) {i : Nat} (hi : i < 256) :
    slotBit (flipBits raw err) i = (slotBit raw i ^^ slotBit err i) := by
  have hlt : i / 8 < 32 := by omega
  rw [slotBit_eq _ hlt, slotBit_eq raw hlt, slotBit_eq err hlt, flipBits, Vector.getElem_zipWith,
    BitVec.getLsbD_xor]

/-- The burst guarantee of the checksum.  A record with some bits flipped, all of them within
32 consecutive ones, is rejected; and so is, unless it is one of the two, any mixture of the
first bytes of a u64 record with the last bytes of another of the same key and sequence
number, both with values below 2^32. -/
theorem damage_rejected :
    (∀ raw err k, Encoded raw → (∃ i, i < 256 ∧ slotBit err i = true) →
      (∀ i, i < 256 → slotBit err i = true → k ≤ i ∧ i < k + 32) →
      Rejected (flipBits raw err)) ∧
    ∀ id seq (old new : U64) count, old.toNat < 2 ^ 32 → new.toNat < 2 ^ 32 →
      let torn := tear (framEncodeU64 id old seq) (framEncodeU64 id new seq) count
      Rejected torn ∨ torn = framEncodeU64 id old seq ∨ torn = framEncodeU64 id new seq := by
  constructor
  · rintro raw err k hraw ⟨j, hj, herr⟩ hwindow
    refine rejected_of_not_crcOk (not_crcOk_of_burst (k := k) hraw.crcOk (fun i hi hbit => ?_) ?_)
    · rw [slotBit_flipBits raw err hi] at hbit
      refine hwindow i hi ?_
      cases hflip : slotBit err i with
      | true => rfl
      | false =>
          rw [hflip, Bool.xor_false] at hbit
          exact absurd rfl hbit
    · intro heq
      have hbit := slotBit_flipBits raw err hj
      rw [← heq, herr] at hbit
      cases hraw : slotBit raw j <;> rw [hraw] at hbit <;> cases hbit
  · intro id seq old new count hold hnew
    rcases tear_u64_detected id seq hold hnew count with hsame | hsame | hcrc
    · exact Or.inr (Or.inl hsame)
    · exact Or.inr (Or.inr hsame)
    · exact Or.inl (rejected_of_not_crcOk hcrc)

/-- One bit, in the stored checksum. -/
def flippedBit : Slot :=
  Vector.ofFn fun i => if i.val = 30 then 4 else 0

/-- A counter of 1 with one bit of its checksum flipped, and one that was cut short on its
way to 2. -/
theorem damage_rejected_counter :
    Rejected (flipBits (framEncodeU64 10 1 1) flippedBit) ∧
      let torn := tear (framEncodeU64 10 1 1) (framEncodeU64 10 2 1) 12
      Rejected torn ∨ torn = framEncodeU64 10 1 1 ∨ torn = framEncodeU64 10 2 1 := by
  have hflipped : slotBit flippedBit 242 = true := by decide +kernel
  have hwindow : ∀ i, i < 256 → slotBit flippedBit i = true → 240 ≤ i ∧ i < 240 + 32 := by
    decide +kernel
  exact ⟨damage_rejected.1 _ _ 240 (.u64 10 1 1) ⟨242, by decide, hflipped⟩ hwindow,
    damage_rejected.2 10 1 1 2 12 (by decide) (by decide)⟩

end RadsatLinux.UBoot.SlotDamage
