import RadsatLinux.Fram.Burst
import RadsatLinux.UBoot.LayoutGate

/-!
# What a boot leaves of a key

Slot A of a key under the functions that write other keys, whatever the I2C bus and the MMC
devices do and wherever the power goes; and slot A of the key that is written.
-/

namespace RadsatLinux.UBoot.KeyFrames

open RadsatLinux.Library.Crash
open RadsatLinux.Fram.Record RadsatLinux.Fram.Memory
open RadsatLinux.UBoot.Hardware RadsatLinux.UBoot.FramMission
open RadsatLinux.UBoot.Layout RadsatLinux.UBoot.Recovery

/-- Slot A of key `id` is as it was. -/
def SlotKept (id : U8) (b b' : Board) : Prop :=
  slotA b'.fram id = slotA b.fram id

variable {α β : Type} {id other : U8}

theorem SlotKept.refl (id : U8) (b : Board) : SlotKept id b b :=
  rfl

theorem SlotKept.trans {b b₁ b₂ : Board} (h : SlotKept id b b₁) (h' : SlotKept id b₁ b₂) :
    SlotKept id b b₂ :=
  Eq.trans h' h

theorem SlotKept.keyValue_eq {b b' : Board} (h : SlotKept id b b') (kind : ValueKind α) :
    keyValue kind id b'.fram = keyValue kind id b.fram :=
  congrArg (framDecode kind id) h

theorem keeps_then {m : Boot α} {f : α → Boot β} (hm : Keeps (SlotKept id) m)
    (hf : ∀ a, Keeps (SlotKept id) (f a)) : Keeps (SlotKept id) (m >>= f) :=
  Keeps.bind (r := SlotKept id) (fun _ _ _ => SlotKept.trans) hm hf

theorem keeps_pure (a : α) : Keeps (SlotKept id) (pure a : Boot α) :=
  Keeps.pure (SlotKept.refl id) a

theorem keeps_throw (e : PowerCut) : Keeps (SlotKept id) (throw e : Boot α) :=
  fun b => SlotKept.refl id b

theorem keeps_ite {p : Prop} [Decidable p] {m m' : Boot α} (hm : Keeps (SlotKept id) m)
    (hm' : Keeps (SlotKept id) m') : Keeps (SlotKept id) (if p then m else m') := by
  split
  · exact hm
  · exact hm'

/-! ## MMC commands -/

theorem keeps_nextMmc : Keeps (SlotKept id) nextMmc := by
  intro b
  unfold wp nextMmc
  cases b.mmc with
  | nil => exact SlotKept.refl id b
  | cons event rest => exact SlotKept.refl id b

theorem keeps_modify {f : Board → Board} (hf : ∀ b, (f b).fram = b.fram) :
    Keeps (SlotKept id) (modify f : Boot PUnit) := by
  intro b
  rw [wp_modify, SlotKept, hf]

theorem keeps_get : Keeps (SlotKept id) (get : Boot Board) :=
  fun b => SlotKept.refl id b

theorem keeps_storeSectors (blk n : Nat) (data : Disk) :
    Keeps (SlotKept id) (storeSectors blk n data) := by
  refine keeps_modify fun b => ?_
  cases b.mmcDevice <;> rfl

theorem keeps_mmcDev (device : MmcDevice) : Keeps (SlotKept id) (mmcDev device) := by
  refine keeps_then keeps_nextMmc fun event => ?_
  cases event with
  | ok => exact keeps_then (keeps_modify fun _ => rfl) fun _ => keeps_pure _
  | fail left => exact keeps_pure _
  | cut left => exact keeps_throw _

theorem keeps_mmcRescan : Keeps (SlotKept id) mmcRescan := by
  refine keeps_then keeps_nextMmc fun event => ?_
  cases event with
  | ok => exact keeps_pure _
  | fail left => exact keeps_pure _
  | cut left => exact keeps_throw _

theorem keeps_mmcRead (blk n : Nat) : Keeps (SlotKept id) (mmcRead blk n) := by
  refine keeps_then keeps_nextMmc fun event => ?_
  cases event with
  | ok => exact keeps_then (keeps_modify fun _ => rfl) fun _ => keeps_pure _
  | fail left => exact keeps_then (keeps_modify fun _ => rfl) fun _ => keeps_pure _
  | cut left => exact keeps_throw _

theorem keeps_mmcWrite (blk n : Nat) : Keeps (SlotKept id) (mmcWrite blk n) := by
  refine keeps_then keeps_nextMmc fun event => ?_
  cases event with
  | ok => exact keeps_then keeps_get fun _ =>
      keeps_then (keeps_storeSectors _ _ _) fun _ => keeps_pure _
  | fail left => exact keeps_then (keeps_storeSectors _ _ _) fun _ => keeps_pure _
  | cut left => exact keeps_then (keeps_storeSectors _ _ _) fun _ => keeps_throw _

theorem keeps_fatload (fatFile : Disk → String → Option Disk) (file : String) :
    Keeps (SlotKept id) (fatload fatFile file) := by
  refine keeps_then keeps_nextMmc fun event => ?_
  cases event with
  | ok =>
      refine keeps_then keeps_get fun b => ?_
      cases fatFile b.emmc file with
      | none => exact keeps_pure _
      | some data => exact keeps_then (keeps_modify fun _ => rfl) fun _ => keeps_pure _
  | fail left => exact keeps_then (keeps_modify fun _ => rfl) fun _ => keeps_pure _
  | cut left => exact keeps_throw _

theorem keeps_radsatEmmcProbe (fatFile : Disk → String → Option Disk) :
    Keeps (SlotKept id) (radsatEmmcProbe fatFile) :=
  keeps_then (keeps_mmcDev _) fun _ => keeps_then keeps_mmcRescan fun _ =>
    keeps_ite (keeps_pure _) <| keeps_then (keeps_fatload _ _) fun _ =>
      keeps_ite (keeps_pure _) <| keeps_then (keeps_fatload _ _) fun _ =>
        keeps_ite (keeps_pure _) (keeps_pure _)

/-! ## FRAM accesses -/

theorem keeps_i2cSetBusNum (bus : Nat) : Keeps (SlotKept id) (i2cSetBusNum bus) := by
  intro b
  rw [wp_i2cSetBusNum_iff]
  exact SlotKept.refl id b

theorem keeps_i2cGetBusNum : Keeps (SlotKept id) i2cGetBusNum :=
  fun b => SlotKept.refl id b

theorem keeps_framReadKey (kind : ValueKind α) (other : U8) :
    Keeps (SlotKept id) (framReadKey kind other) := by
  intro b
  rw [LayoutGate.wp_framReadKey_iff]
  split <;> exact SlotKept.refl id b

/-- A write stores what its transaction lets through, or nothing on another bus. -/
theorem wp_framWrite_stored {n : Nat} (offset : U16) (buf : Vector U8 n) (b : Board) :
    wp (framWrite offset buf)
      (fun _ b' => ∃ count, b'.fram = writeAt b.fram offset.toNat buf count)
      (fun _ b' => ∃ count, b'.fram = writeAt b.fram offset.toNat buf count) b := by
  have hnothing : b.fram = writeAt b.fram offset.toNat buf 0 := by
    funext a
    have hout : ¬ (offset.toNat ≤ a ∧ a < offset.toNat + n ∧ a < offset.toNat + 0) := by omega
    rw [writeAt, dif_neg hout]
  have hstore (count : Nat) (b' : Board) (hfram : b'.fram = b.fram) :
      ∃ stored, (if b'.bus = configFramI2cBus then
        { b' with fram := writeAt b'.fram offset.toNat buf count } else b').fram =
        writeAt b.fram offset.toNat buf stored := by
    split
    · exact ⟨count, by rw [hfram]⟩
    · exact ⟨0, hfram.trans hnothing⟩
  unfold framWrite
  rw [wp_bind, wp_nextI2c_iff]
  cases nextEvent b with
  | ok =>
      simp only [storeFram, wp_bind, wp_modify, wp_get, wp_pure]
      exact hstore n (useEvent b) rfl
  | fail stored =>
      simp only [storeFram, wp_bind, wp_modify, wp_pure]
      exact hstore stored (useEvent b) rfl
  | cut stored =>
      simp only [storeFram, wp_bind, wp_modify, wp_get, wp_throw]
      exact hstore stored (useEvent b) rfl

theorem keeps_framWrite {n : Nat} {offset : U16} (buf : Vector U8 n)
    (hapart : (keyOffset id).toNat + 32 ≤ offset.toNat ∨
      offset.toNat + n ≤ (keyOffset id).toNat) : Keeps (SlotKept id) (framWrite offset buf) := by
  intro b
  refine wp_mono (wp_framWrite_stored offset buf b) ?_ ?_
  all_goals
    rintro _ b' ⟨count, hfram⟩
    rw [SlotKept, hfram, slotA, readAt_writeAt_apart b.fram buf count hapart, slotA]

theorem slots_apart (hid : id ≠ 0) (hother : other ≠ 0) (hne : other ≠ id) :
    (keyOffset id).toNat + 32 ≤ (keyOffset other).toNat ∨
      (keyOffset other).toNat + 64 ≤ (keyOffset id).toNat := by
  have hidNat := keyOffset_toNat hid
  have hotherNat := keyOffset_toNat hother
  have hdistinct : other.toNat ≠ id.toNat := fun heq => hne (BitVec.eq_of_toNat_eq heq)
  have hidPos : id.toNat ≠ 0 := fun heq => hid (BitVec.eq_of_toNat_eq heq)
  have hotherPos : other.toNat ≠ 0 := fun heq => hother (BitVec.eq_of_toNat_eq heq)
  omega

theorem keyOffsetB_eq (hid : id ≠ 0) : (keyOffsetB id).toNat = (keyOffset id).toNat + 32 := by
  rw [keyOffsetB_toNat hid, keyOffset_toNat hid]

/-- An update of another key. -/
theorem keeps_framSetKey (kind : ValueKind α) (value : α) (hid : id ∈ recoveryKeys)
    (hother : other ∈ recoveryKeys) (hne : other ≠ id) :
    Keeps (SlotKept id) (framSetKey kind other value) := by
  have hid := recoveryKey_ne_zero hid
  have hother := recoveryKey_ne_zero hother
  have hB := keyOffsetB_eq hother
  have hapart := slots_apart hid hother hne
  exact keeps_then (keeps_framWrite _ (by omega)) fun _ =>
    keeps_ite (keeps_pure _) <| keeps_then (keeps_framWrite _ (by omega)) fun _ =>
      keeps_ite (keeps_pure _) (keeps_pure _)

/-- Whatever becomes of an update of the key itself, slot A holds a torn version of the old
record and the new one. -/
theorem wp_framSetKey_torn (kind : ValueKind α) (value : α) (hid : id ∈ recoveryKeys)
    (b : Board) :
    wp (framSetKey kind id value)
      (fun _ b' => ∃ count, slotA b'.fram id =
        tear (slotA b.fram id) (framEncode kind id value 1) count)
      (fun _ b' => ∃ count, slotA b'.fram id =
        tear (slotA b.fram id) (framEncode kind id value 1) count) b := by
  have hB := keyOffsetB_eq (recoveryKey_ne_zero hid)
  generalize hrec : framEncode kind id value 1 = rec
  have hold (b' : Board) (hkept : SlotKept id b b') : ∃ count, slotA b'.fram id =
      tear (slotA b.fram id) rec count := by
    refine ⟨0, Eq.trans hkept (Vector.ext fun i hi => ?_)⟩
    simp only [tear, Vector.getElem_ofFn, Nat.not_lt_zero, if_false]
  have hkeepB : Keeps (SlotKept id) (framWrite (keyOffsetB id) rec) :=
    keeps_framWrite rec (Or.inl (Nat.le_of_eq hB.symm))
  unfold framSetKey framWriteKeySlots
  rw [hrec]
  refine wp_seq (wp_mono (hkeepB b) (fun _ _ h => h) fun _ b' h => hold b' h) ?_
  intro failed b₁ hkept₁
  cases failed with
  | true => exact hold b₁ hkept₁
  | false =>
      have hstored (b' : Board)
          (h : ∃ count, b'.fram = writeAt b₁.fram (keyOffset id).toNat rec count) :
          ∃ count, slotA b'.fram id = tear (slotA b.fram id) rec count := by
        obtain ⟨count, hfram⟩ := h
        refine ⟨count, ?_⟩
        have hwritten : slotA b'.fram id = tear (slotA b₁.fram id) rec count := by
          rw [slotA, hfram, readAt_writeAt_same, slotA]
        rw [hwritten, hkept₁]
      refine wp_seq (wp_mono (wp_framWrite_stored (keyOffset id) rec b₁) (fun _ _ h => h)
        fun _ b' h => hstored b' h) ?_
      intro failed b₂ h₂
      cases failed with
      | true => exact hstored b₂ h₂
      | false => exact hstored b₂ h₂

theorem keeps_framEnsureLayoutHeader (hid : id ∈ recoveryKeys) :
    Keeps (SlotKept id) framEnsureLayoutHeader := by
  have hread : Keeps (SlotKept id) (framRead framLayoutOffset 16) := by
    intro b
    rw [wp_framRead_iff]
    split <;> exact SlotKept.refl id b
  refine keeps_then hread fun r => ?_
  cases r with
  | none => exact keeps_pure _
  | some hdr =>
      exact keeps_ite (keeps_then (keeps_framWrite _ (Or.inl (recoveryKey_below_header hid)))
        fun _ => keeps_pure _) (keeps_pure _)

/-! ## The functions of a boot -/

theorem keeps_framBumpU64 (hid : id ∈ recoveryKeys) (hother : other ∈ recoveryKeys)
    (hne : other ≠ id) : Keeps (SlotKept id) (framBumpU64 other) :=
  keeps_then (keeps_framReadKey _ _) fun _ => keeps_framSetKey _ _ hid hother hne

theorem keeps_latchedAfterProbe (probeOk : Bool) (hid : id ∈ recoveryKeys)
    (hfails : framKeyTotalBootFails ≠ id) (hneeded : framKeyEmmcRecoveryNeeded ≠ id) :
    Keeps (SlotKept id) (latchedAfterProbe probeOk) :=
  keeps_ite (keeps_then (keeps_framBumpU64 hid (by decide) hfails) fun _ =>
    keeps_then (keeps_framSetKey _ _ hid (by decide) hneeded) fun _ => keeps_pure _) <|
    keeps_then (keeps_framReadKey _ _) fun _ => keeps_pure _

theorem keeps_radsatFramRecoveryNeeded (fatFile : Disk → String → Option Disk)
    (hid : id ∈ recoveryKeys) (hfails : framKeyTotalBootFails ≠ id)
    (hneeded : framKeyEmmcRecoveryNeeded ≠ id) (hprobe : framKeyLastEmmcProbeOk ≠ id) :
    Keeps (SlotKept id) (radsatFramRecoveryNeeded fatFile) :=
  keeps_then keeps_i2cGetBusNum fun _ => keeps_then (keeps_i2cSetBusNum _) fun _ =>
    keeps_ite (keeps_pure _) <| keeps_then (keeps_framEnsureLayoutHeader hid) fun _ =>
    keeps_then (keeps_radsatEmmcProbe fatFile) fun _ =>
    keeps_then (keeps_framSetKey _ _ hid (by decide) hprobe) fun _ =>
    keeps_then (keeps_latchedAfterProbe _ hid hfails hneeded) fun _ =>
    keeps_then (keeps_i2cSetBusNum _) fun _ => keeps_pure _

theorem keeps_checkpoint (oldBus sector : Nat) (hid : id ∈ recoveryKeys)
    (hoffset : framKeyEmmcRestoreOffset ≠ id) : Keeps (SlotKept id) (checkpoint oldBus sector) :=
  keeps_then (keeps_i2cSetBusNum _) fun _ => keeps_ite (keeps_pure _) <|
    keeps_then (keeps_framSetKey _ _ hid (by decide) hoffset) fun _ =>
    keeps_then (keeps_i2cSetBusNum _) fun _ => keeps_pure _

theorem keeps_copyChunk (oldBus blk n : Nat) (hid : id ∈ recoveryKeys)
    (hoffset : framKeyEmmcRestoreOffset ≠ id) :
    Keeps (SlotKept id) (copyChunk oldBus blk n) :=
  keeps_then (keeps_mmcDev _) fun _ => keeps_ite (keeps_pure _) <|
    keeps_then (keeps_mmcRead _ _) fun _ => keeps_ite (keeps_pure _) <|
    keeps_then (keeps_mmcDev _) fun _ => keeps_ite (keeps_pure _) <|
    keeps_then (keeps_mmcWrite _ _) fun _ => keeps_ite (keeps_pure _) <|
    keeps_then (keeps_checkpoint _ _ hid hoffset) fun _ => keeps_pure _

theorem keeps_copyFrom (oldBus blk : Nat) (hid : id ∈ recoveryKeys)
    (hoffset : framKeyEmmcRestoreOffset ≠ id) : Keeps (SlotKept id) (copyFrom oldBus blk) := by
  induction blk using copyFrom.induct with
  | case1 blk hlt ih =>
      rw [copyFrom, if_pos hlt]
      exact keeps_then (keeps_copyChunk _ _ _ hid hoffset) fun _ => keeps_ite (keeps_pure _) ih
  | case2 blk hge =>
      rw [copyFrom, if_neg hge]
      exact keeps_pure _

theorem keeps_clearRecovery (oldBus : Nat) (hid : id ∈ recoveryKeys)
    (hneeded : framKeyEmmcRecoveryNeeded ≠ id) (hprobe : framKeyLastEmmcProbeOk ≠ id)
    (hmedia : framKeyBootMedia ≠ id) (hoffset : framKeyEmmcRestoreOffset ≠ id) :
    Keeps (SlotKept id) (clearRecovery oldBus) :=
  keeps_then (keeps_i2cSetBusNum _) fun _ => keeps_ite (keeps_pure _) <|
    keeps_then (keeps_framSetKey _ _ hid (by decide) hneeded) fun _ =>
    keeps_then (keeps_framSetKey _ _ hid (by decide) hprobe) fun _ =>
    keeps_then (keeps_framSetKey _ _ hid (by decide) hmedia) fun _ =>
    keeps_then (keeps_framSetKey _ _ hid (by decide) hoffset) fun _ =>
    keeps_then (keeps_i2cSetBusNum _) fun _ => keeps_pure _

theorem keeps_countAttempt (offset : Nat) (attempts : U64) (hid : id ∈ recoveryKeys)
    (hattempts : framKeyEmmcRecoveryAttempts ≠ id) :
    Keeps (SlotKept id) (countAttempt offset attempts) :=
  keeps_ite (keeps_then (keeps_framSetKey _ _ hid (by decide) hattempts) fun _ => keeps_pure _)
    (keeps_pure _)

theorem keeps_radsatFramRunRecovery (fatFile : Disk → String → Option Disk)
    (hid : id ∈ recoveryKeys) (hneeded : framKeyEmmcRecoveryNeeded ≠ id)
    (hattempts : framKeyEmmcRecoveryAttempts ≠ id) (hprobe : framKeyLastEmmcProbeOk ≠ id)
    (hmedia : framKeyBootMedia ≠ id) (hoffset : framKeyEmmcRestoreOffset ≠ id) :
    Keeps (SlotKept id) (radsatFramRunRecovery fatFile) :=
  keeps_then keeps_i2cGetBusNum fun _ => keeps_then (keeps_i2cSetBusNum _) fun _ =>
    keeps_ite (keeps_pure _) <| keeps_then (keeps_framReadKey _ _) fun _ =>
    keeps_then (keeps_framReadKey _ _) fun _ =>
    keeps_ite (keeps_then (keeps_i2cSetBusNum _) fun _ => keeps_pure _) <|
    keeps_then (keeps_countAttempt _ _ hid hattempts) fun _ =>
    keeps_then (keeps_framSetKey _ _ hid (by decide) hneeded) fun _ =>
    keeps_then (keeps_i2cSetBusNum _) fun _ => keeps_then keeps_mmcRescan fun _ =>
    keeps_then (keeps_copyFrom _ _ hid hoffset) fun _ => keeps_ite (keeps_pure _) <|
    keeps_then (keeps_radsatEmmcProbe fatFile) fun _ => keeps_ite (keeps_pure _) <|
    keeps_then (keeps_clearRecovery _ hid hneeded hprobe hmedia hoffset) fun _ => keeps_pure _

/-! ## Torn updates -/

/-- The assumption on an update that fails or is cut short: a slot that holds neither the old
nor the new record fails its CRC. -/
def TearsDetected (id : U8) (chip : Chip) (value : U64) : Prop :=
  ∀ count, let torn := tear (slotA chip id) (framEncodeU64 id value 1) count
    torn = slotA chip id ∨ torn = framEncodeU64 id value 1 ∨ crcOk torn = false

theorem tear_tear (old new : Slot) (i j : Nat) :
    tear (tear old new i) new j = tear old new (max i j) := by
  apply Vector.ext
  intro k hk
  simp only [tear, Vector.getElem_ofFn, lt_max_iff]
  by_cases hi : k < i <;> by_cases hj : k < j <;> simp [hi, hj]

theorem tear_eq_old_of_le {old new : Slot} {i j : Nat} (hij : i ≤ j)
    (h : tear old new j = old) : tear old new i = old := by
  apply Vector.ext
  intro k hk
  have hbyte := congrArg (fun v => v.toList[k]?) h
  simp only [tear, Vector.getElem_ofFn, Vector.getElem?_toList, hk,
    Vector.getElem?_eq_getElem] at hbyte ⊢
  by_cases hi : k < i
  · rw [if_pos (by omega)] at hbyte
    rw [if_pos hi]
    exact Option.some.inj hbyte
  · rw [if_neg hi]

/-- What a torn update leaves is torn no worse by the same update made again. -/
theorem TearsDetected.torn {chip chip' : Chip} {value : U64} {count : Nat}
    (h : TearsDetected id chip value)
    (hslot : slotA chip' id = tear (slotA chip id) (framEncodeU64 id value 1) count) :
    TearsDetected id chip' value := by
  intro again
  have hmax := h (max count again)
  rw [hslot, tear_tear]
  rcases hmax with hold | hrest
  · left
    rw [hold, tear_eq_old_of_le (Nat.le_max_left count again) hold]
  · exact Or.inr hrest

/-- The checksum detects a torn record of a count that goes up by one. -/
theorem tearsDetected_of_count {chip : Chip} {value : U64}
    (hslot : slotA chip id = framEncodeU64 id value 1) : TearsDetected id chip (value + 1) := by
  intro count
  rw [hslot]
  exact Fram.Burst.tear_increment_detected id 1 value count

/-! ## Counters on a new chip -/

/-- On a slot that was never written, the record of the first count is torn visibly. -/
theorem not_crcOk_firstRecord
    (hid : id = framKeyTotalBootFails ∨ id = framKeyEmmcRecoveryAttempts) {count : Nat}
    (hlt : count < 32) :
    crcOk (tear (Vector.replicate 32 0xff) (framEncodeU64 id 1 1) count) = false := by
  rcases hid with rfl | rfl
  · have hrecord : framEncodeU64 framKeyTotalBootFails 1 1 =
        #v[0x52, 0x46, 1, 8, 3, 8, 1, 0, 0, 0, 1, 0, 0, 0, 0, 0, 0, 0, 0, 0, 0, 0, 0, 0, 0, 0, 0, 0,
          0x9e, 0xe0, 0x0a, 0x80] := by
      decide +kernel
    have hall : ∀ count, count < 32 → crcOk (tear (Vector.replicate 32 0xff)
        #v[0x52, 0x46, 1, 8, 3, 8, 1, 0, 0, 0, 1, 0, 0, 0, 0, 0, 0, 0, 0, 0, 0, 0, 0, 0, 0, 0, 0, 0,
          0x9e, 0xe0, 0x0a, 0x80] count) = false := by
      decide +kernel
    rw [hrecord]
    exact hall count hlt
  · have hrecord : framEncodeU64 framKeyEmmcRecoveryAttempts 1 1 =
        #v[0x52, 0x46, 1, 10, 3, 8, 1, 0, 0, 0, 1, 0, 0, 0, 0, 0, 0, 0, 0, 0, 0, 0, 0, 0, 0, 0, 0,
          0, 0xc3, 0xc6, 0x6c, 0x10] := by
      decide +kernel
    have hall : ∀ count, count < 32 → crcOk (tear (Vector.replicate 32 0xff)
        #v[0x52, 0x46, 1, 10, 3, 8, 1, 0, 0, 0, 1, 0, 0, 0, 0, 0, 0, 0, 0, 0, 0, 0, 0, 0, 0, 0, 0,
          0, 0xc3, 0xc6, 0x6c, 0x10] count) = false := by
      decide +kernel
    rw [hrecord]
    exact hall count hlt

theorem tearsDetected_of_blank {chip : Chip}
    (hid : id = framKeyTotalBootFails ∨ id = framKeyEmmcRecoveryAttempts)
    (hslot : slotA chip id = Vector.replicate 32 0xff) : TearsDetected id chip 1 := by
  intro count
  rw [hslot]
  rcases Nat.lt_or_ge count 32 with hlt | hge
  · exact Or.inr (Or.inr (not_crcOk_firstRecord hid hlt))
  · exact Or.inr (Or.inl (tear_all _ _ hge))

/-- A slot that was never written does not decode. -/
theorem keyValue_of_blank {kind : ValueKind α} {chip : Chip}
    (hslot : slotA chip id = Vector.replicate 32 0xff) : keyValue kind id chip = none := by
  have hcrc : crcOk (Vector.replicate 32 0xff) = false := by decide +kernel
  rw [keyValue, hslot, framDecode_of_not_crcOk kind id hcrc]

end RadsatLinux.UBoot.KeyFrames
