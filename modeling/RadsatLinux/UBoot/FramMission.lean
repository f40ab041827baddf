import RadsatLinux.UBoot.Hardware

/-!
# Recovery keys in FRAM

The key accessors of `common/fram_mission.c` (layout version 5): a value is written to
slot B and then to slot A, always with sequence number 1, and read from slot A alone.
`KeyWrite` says once what an update can leave on the chip, cut short or not, and every
later fact about the keys is derived from it.
-/

namespace RadsatLinux.UBoot.FramMission

open RadsatLinux.Library.Crash RadsatLinux.Library.LittleEndian
open RadsatLinux.Fram.Record RadsatLinux.Fram.Memory
open RadsatLinux.UBoot.Hardware

/-! ## Keys -/

def framKeyTotalBootFails : U8 := 8
def framKeyEmmcRecoveryNeeded : U8 := 9
def framKeyEmmcRecoveryAttempts : U8 := 10
def framKeySdRestoreSlot : U8 := 11
def framKeyLastEmmcProbeOk : U8 := 12
def framKeyBootMedia : U8 := 13
def framKeyBootImageId : U8 := 14
def framKeyEmmcRestoreOffset : U8 := 40

def recoveryKeys : List U8 :=
  [framKeyTotalBootFails, framKeyEmmcRecoveryNeeded, framKeyEmmcRecoveryAttempts,
    framKeySdRestoreSlot, framKeyLastEmmcProbeOk, framKeyBootMedia, framKeyBootImageId,
    framKeyEmmcRestoreOffset]

/-! ## Layout header -/

def framLayoutMagic : U32 := 0x4D415246
def framLayoutVersion : U16 := 5
def framLayoutOffset : U16 := 2624

def layoutHeader : Vector U8 16 :=
  #v[byteOf framLayoutMagic 0, byteOf framLayoutMagic 1, byteOf framLayoutMagic 2,
    byteOf framLayoutMagic 3, byteOf framLayoutVersion 0, byteOf framLayoutVersion 1,
    0, 0, 0, 0, 0, 0, 0, 0, 0, 0]

/-- A byte that was never written. -/
def blankByte (byte : U8) : Bool :=
  byte == 0x00 || byte == 0xff

def framEnsureLayoutHeader : Boot Unit := do
  match ← framRead framLayoutOffset 16 with
  | none => return
  | some hdr =>
      -- A header that is not blank stays as it is, valid or corrupt.
      if hdr.toList.all blankByte then
        let _ ← framWrite framLayoutOffset layoutHeader

/-! ## Accessors -/

variable {α : Type}

def framWriteKeySlots (id : U8) (rec : Slot) : Boot Bool := do
  if ← framWrite (keyOffsetB id) rec then return true
  if ← framWrite (keyOffset id) rec then return true
  return false

def framReadKey (kind : ValueKind α) (id : U8) : Boot (Option α) := do
  match ← framRead (keyOffset id) 32 with
  | none => return none
  | some raw => return framDecode kind id raw

def framReadU64 (id : U8) : Boot (Option U64) := framReadKey u64Kind id

def framReadBool (id : U8) : Boot (Option Bool) := framReadKey boolKind id

def framSetKey (kind : ValueKind α) (id : U8) (value : α) : Boot Bool :=
  framWriteKeySlots id (framEncode kind id value 1)

def framSetBool (id : U8) (value : Bool) : Boot Bool := framSetKey boolKind id value

def framSetU64 (id : U8) (value : U64) : Boot Bool := framSetKey u64Kind id value

def framBumpU64 (id : U8) : Boot Bool := do
  let v := (← framReadU64 id).getD 0
  framSetU64 id (v + 1)

/-! ## What the FRAM calls leave alone -/

/-- Only the chip has changed, and only I2C events were used up. -/
structure FramOnly (b b' : Board) : Prop where
  same : b' = { b with fram := b'.fram, i2c := b'.i2c }
  events : b'.i2c <:+ b.i2c

namespace FramOnly

theorem refl (b : Board) : FramOnly b b := ⟨rfl, List.suffix_rfl⟩

theorem trans {b b₁ b₂ : Board} (h : FramOnly b b₁) (h' : FramOnly b₁ b₂) : FramOnly b b₂ := by
  refine ⟨?_, h'.events.trans h.events⟩
  rw [h'.same, h.same]

theorem bus {b b' : Board} (h : FramOnly b b') : b'.bus = b.bus := by rw [h.same]
theorem emmc {b b' : Board} (h : FramOnly b b') : b'.emmc = b.emmc := by rw [h.same]
theorem sd {b b' : Board} (h : FramOnly b b') : b'.sd = b.sd := by rw [h.same]
theorem writes {b b' : Board} (h : FramOnly b b') : b'.writes = b.writes := by rw [h.same]

theorem reliable {b b' : Board} (h : FramOnly b b') (hrel : b.I2cReliable) : b'.I2cReliable :=
  fun event hmem => hrel event (h.events.subset hmem)

theorem quiet {b b' : Board} (h : FramOnly b b') (hquiet : b.Quiet) : b'.Quiet := by
  rcases hquiet with ⟨hbus, hi2c, hmmc⟩
  have hevents := h.events
  rw [hi2c] at hevents
  refine ⟨?_, List.suffix_nil.mp hevents, ?_⟩
  · rw [h.same]
    exact hbus
  · rw [h.same]
    exact hmmc

end FramOnly

/-- Bytes outside `[offset, offset + len)` are unchanged. -/
def SameOutside (offset len : Nat) (chip chip' : Chip) : Prop :=
  ∀ a, a < offset ∨ offset + len ≤ a → chip' a = chip a

theorem SameOutside.refl (offset len : Nat) (chip : Chip) : SameOutside offset len chip chip :=
  fun _ _ => rfl

theorem SameOutside.trans {offset len : Nat} {chip chip₁ chip₂ : Chip}
    (h : SameOutside offset len chip chip₁) (h' : SameOutside offset len chip₁ chip₂) :
    SameOutside offset len chip chip₂ :=
  fun a ha => (h' a ha).trans (h a ha)

theorem sameOutside_writeAt {n offset len : Nat} (chip : Chip) (first : Nat) (buf : Vector U8 n)
    (count : Nat) (hlow : offset ≤ first) (hhigh : first + n ≤ offset + len) :
    SameOutside offset len chip (writeAt chip first buf count) := by
  intro a ha
  exact dif_neg (by omega)

theorem SameOutside.readAt_eq {offset len first n : Nat} {chip chip' : Chip}
    (h : SameOutside offset len chip chip')
    (hapart : first + n ≤ offset ∨ offset + len ≤ first) :
    readAt chip' first n = readAt chip first n := by
  apply Vector.ext
  intro i hi
  simp only [readAt, Vector.getElem_ofFn]
  exact h _ (by omega)

/-- What a write to key `id` touches: the key's own two slots, and nothing but the chip. -/
structure KeyWrite (id : U8) (b b' : Board) : Prop where
  framOnly : FramOnly b b'
  outside : SameOutside (keyOffset id).toNat 64 b.fram b'.fram

theorem KeyWrite.slotA_eq {id other : U8} {b b' : Board} (h : KeyWrite id b b')
    (hid : id ≠ 0) (hother : other ≠ 0) (hne : other ≠ id) :
    slotA b'.fram other = slotA b.fram other := by
  have hidNat := keyOffset_toNat hid
  have hotherNat := keyOffset_toNat hother
  have hdistinct : other.toNat ≠ id.toNat := fun heq => hne (BitVec.eq_of_toNat_eq heq)
  have hidPos : id.toNat ≠ 0 := fun heq => hid (BitVec.eq_of_toNat_eq heq)
  have hotherPos : other.toNat ≠ 0 := fun heq => hother (BitVec.eq_of_toNat_eq heq)
  exact h.outside.readAt_eq (by omega)

/-! ## Specifications -/

theorem wp_nextI2c {Q : I2cEvent → Board → Prop} {R : PowerCut → Board → Prop} {b : Board}
    (hnil : b.i2c = [] → Q .ok b)
    (hcons : ∀ event rest, b.i2c = event :: rest → Q event { b with i2c := rest }) :
    wp nextI2c Q R b := by
  unfold wp nextI2c
  cases hi2c : b.i2c with
  | nil => exact hnil hi2c
  | cons event rest => exact hcons event rest hi2c

theorem framOnly_useEvent {b : Board} {event : I2cEvent} {rest : List I2cEvent}
    (hi2c : b.i2c = event :: rest) : FramOnly b { b with i2c := rest } :=
  ⟨rfl, by rw [hi2c]; exact List.suffix_cons event rest⟩

theorem framOnly_store {b : Board} (chip : Chip) : FramOnly b { b with fram := chip } :=
  ⟨rfl, List.suffix_rfl⟩

theorem not_quiet_of_event {b : Board} {event : I2cEvent} {rest : List I2cEvent}
    (hi2c : b.i2c = event :: rest) : ¬ b.Quiet := by
  intro hquiet
  rw [hquiet.2.1] at hi2c
  cases hi2c

/-- A read returns the bytes of the chip, or the power goes before it returns. -/
theorem framRead_spec {b : Board} (offset : U16) (n : Nat) (hbus : b.bus = configFramI2cBus)
    (hrel : b.I2cReliable) :
    wp (framRead offset n)
      (fun r b' => r = some (readAt b.fram offset.toNat n) ∧ FramOnly b b' ∧ b'.fram = b.fram)
      (fun e b' => e = .elsewhere ∧ ¬ b.Quiet ∧ FramOnly b b' ∧ b'.fram = b.fram) b := by
  unfold framRead
  rw [wp_bind]
  refine wp_nextI2c (fun hnil => ?_) fun event rest hi2c => ?_
  · simp only [wp_bind, wp_get, wp_pure, if_pos hbus]
    exact ⟨trivial, .refl b, trivial⟩
  · have hframOnly := framOnly_useEvent hi2c
    cases event with
    | ok =>
        simp only [wp_bind, wp_get, wp_pure, if_pos hbus]
        exact ⟨trivial, hframOnly, trivial⟩
    | fail stored => exact absurd rfl (hrel _ (by simp [hi2c]) stored)
    | cut stored => exact ⟨rfl, not_quiet_of_event hi2c, hframOnly, rfl⟩

/-- A write stores its whole buffer, or the power goes with some first bytes stored. -/
theorem framWrite_spec {b : Board} {n : Nat} (offset : U16) (buf : Vector U8 n)
    (hbus : b.bus = configFramI2cBus) (hrel : b.I2cReliable) :
    wp (framWrite offset buf)
      (fun r b' => r = false ∧ FramOnly b b' ∧ b'.fram = writeAt b.fram offset.toNat buf n ∧
        (b.i2c = [] ∨ b.i2c = .ok :: b'.i2c))
      (fun e b' => FramOnly b b' ∧ ∃ stored rest, b.i2c = .cut stored :: rest ∧
        b'.fram = writeAt b.fram offset.toNat buf stored ∧
        e = .framWrite (readAt b.fram offset.toNat n).toList buf.toList
          (readAt b'.fram offset.toNat n).toList) b := by
  have hbne : (b.bus != configFramI2cBus) = false := by simp [hbus]
  unfold framWrite
  rw [wp_bind]
  refine wp_nextI2c (fun hnil => ?_) fun event rest hi2c => ?_
  · simp only [storeFram, wp_bind, wp_modify, wp_get, wp_pure, if_pos hbus, hbne]
    exact ⟨trivial, framOnly_store _, trivial, Or.inl hnil⟩
  · have hused := framOnly_useEvent hi2c
    cases event with
    | ok =>
        simp only [storeFram, wp_bind, wp_modify, wp_get, wp_pure, if_pos hbus, hbne]
        exact ⟨trivial, hused.trans (framOnly_store _), trivial, Or.inr hi2c⟩
    | fail stored => exact absurd rfl (hrel _ (by simp [hi2c]) stored)
    | cut stored =>
        simp only [storeFram, wp_bind, wp_modify, wp_get, wp_throw, if_pos hbus]
        exact ⟨hused.trans (framOnly_store _), stored, rest, hi2c, rfl, trivial⟩

/-- A finished update leaves the record in slot A.  An update that is cut short leaves slot A
as it was while slot B is written, and torn while slot A is. -/
theorem framWriteKeySlots_spec {b : Board} {id : U8} (rec : Slot) (hid : id ≠ 0)
    (hbus : b.bus = configFramI2cBus) (hrel : b.I2cReliable) :
    wp (framWriteKeySlots id rec)
      (fun r b' => r = false ∧ KeyWrite id b b' ∧ slotA b'.fram id = rec)
      (fun e b' => KeyWrite id b b' ∧
        ((∃ stored rest, b.i2c = .cut stored :: rest ∧ slotA b'.fram id = slotA b.fram id) ∨
          ∃ stored rest, b.i2c = .ok :: .cut stored :: rest ∧
            slotA b'.fram id = tear (slotA b.fram id) rec stored ∧
            e = .framWrite (slotA b.fram id).toList rec.toList (slotA b'.fram id).toList)) b := by
  have hA := keyOffset_toNat hid
  have hB := keyOffsetB_toNat hid
  have keepA (chip : Chip) (count : Nat) :
      slotA (writeAt chip (keyOffsetB id).toNat rec count) id = slotA chip id :=
    readAt_writeAt_apart chip rec count (Or.inl (by omega))
  have outsideB (chip : Chip) (count : Nat) :
      SameOutside (keyOffset id).toNat 64 chip (writeAt chip (keyOffsetB id).toNat rec count) :=
    sameOutside_writeAt chip _ rec count (by omega) (by omega)
  have outsideA (chip : Chip) (count : Nat) :
      SameOutside (keyOffset id).toNat 64 chip (writeAt chip (keyOffset id).toNat rec count) :=
    sameOutside_writeAt chip _ rec count (by omega) (by omega)
  unfold framWriteKeySlots
  refine wp_seq (wp_mono (framWrite_spec (keyOffsetB id) rec hbus hrel) (fun _ _ h => h) ?_) ?_
  · rintro e b' ⟨honly, stored, rest, hi2c, hfram, -⟩
    refine ⟨⟨honly, ?_⟩, Or.inl ⟨stored, rest, hi2c, ?_⟩⟩
    · rw [hfram]
      exact outsideB b.fram stored
    · rw [hfram, keepA]
  · rintro r b₁ ⟨rfl, honly₁, hfram₁, hevents₁⟩
    have hbus₁ : b₁.bus = configFramI2cBus := honly₁.bus.trans hbus
    have houtside₁ : SameOutside (keyOffset id).toNat 64 b.fram b₁.fram := by
      rw [hfram₁]
      exact outsideB b.fram 32
    have hslot₁ : slotA b₁.fram id = slotA b.fram id := by rw [hfram₁, keepA]
    refine wp_seq (wp_mono (framWrite_spec (keyOffset id) rec hbus₁ (honly₁.reliable hrel))
      (fun _ _ h => h) ?_) ?_
    · rintro e b' ⟨honly, stored, rest, hi2c, hfram, hcut⟩
      refine ⟨⟨honly₁.trans honly, ?_⟩, Or.inr ⟨stored, rest, ?_, ?_, ?_⟩⟩
      · rw [hfram]
        exact houtside₁.trans (outsideA b₁.fram stored)
      · rcases hevents₁ with hnil | hcons
        · have hevents := honly₁.events
          rw [hnil, hi2c] at hevents
          cases List.suffix_nil.mp hevents
        · rw [hcons, hi2c]
      · rw [← hslot₁, hfram]
        exact readAt_writeAt_same b₁.fram _ rec stored
      · rw [← hslot₁]
        exact hcut
    · rintro r b' ⟨rfl, honly, hfram, -⟩
      refine ⟨rfl, ⟨honly₁.trans honly, ?_⟩, ?_⟩
      · rw [hfram]
        exact houtside₁.trans (outsideA b₁.fram 32)
      · rw [hfram]
        exact readAt_writeAt_full b₁.fram _ rec

/-! ## Key values -/

/-- What the readers make of a key: the value in slot A, if that record is good. -/
def keyValue (kind : ValueKind α) (id : U8) (chip : Chip) : Option α :=
  framDecode kind id (slotA chip id)

theorem framReadKey_spec {b : Board} (kind : ValueKind α) (id : U8)
    (hbus : b.bus = configFramI2cBus) (hrel : b.I2cReliable) :
    wp (framReadKey kind id)
      (fun r b' => r = keyValue kind id b.fram ∧ FramOnly b b' ∧ b'.fram = b.fram)
      (fun e b' => e = .elsewhere ∧ ¬ b.Quiet ∧ FramOnly b b' ∧ b'.fram = b.fram) b := by
  unfold framReadKey
  refine wp_seq (framRead_spec (keyOffset id) 32 hbus hrel) ?_
  rintro r b' ⟨rfl, honly, hfram⟩
  exact ⟨rfl, honly, hfram⟩

theorem readAt_toList_detected {old new left : Slot}
    (h : PowerCut.Detected (.framWrite old.toList new.toList left.toList)) :
    left = old ∨ left = new ∨ crcOk left = false := by
  rcases h left rfl with hold | hnew | hcrc
  · exact Or.inl (Vector.toList_inj.mp hold)
  · exact Or.inr (Or.inl (Vector.toList_inj.mp hnew))
  · exact Or.inr (Or.inr hcrc)

/-- A finished update makes the reader return the new value.  After one that is cut short
the reader returns the old value, the new one, or nothing. -/
theorem framSetKey_spec {b : Board} (kind : ValueKind α) {id : U8} (value : α) (hid : id ≠ 0)
    (hbus : b.bus = configFramI2cBus) (hrel : b.I2cReliable) :
    wp (framSetKey kind id value)
      (fun r b' => r = false ∧ KeyWrite id b b' ∧ keyValue kind id b'.fram = some value)
      (fun e b' => ¬ b.Quiet ∧ KeyWrite id b b' ∧ (e.Detected →
        keyValue kind id b'.fram = keyValue kind id b.fram ∨
          keyValue kind id b'.fram = some value ∨ keyValue kind id b'.fram = none)) b := by
  refine wp_mono (framWriteKeySlots_spec _ hid hbus hrel) ?_ ?_
  · rintro r b' ⟨hr, hwrite, hslot⟩
    refine ⟨hr, hwrite, ?_⟩
    rw [keyValue, hslot]
    exact framDecode_framEncode kind id value 1
  · rintro e b' ⟨hwrite, ⟨stored, rest, hi2c, hslot⟩ | ⟨stored, rest, hi2c, -, rfl⟩⟩
    · refine ⟨not_quiet_of_event hi2c, hwrite, fun _ => Or.inl ?_⟩
      rw [keyValue, hslot, keyValue]
    · refine ⟨not_quiet_of_event hi2c, hwrite, fun hdetected => ?_⟩
      rcases readAt_toList_detected hdetected with hold | hnew | hcrc
      · left
        rw [keyValue, hold, keyValue]
      · right
        left
        rw [keyValue, hnew]
        exact framDecode_framEncode kind id value 1
      · exact Or.inr (Or.inr (framDecode_of_not_crcOk kind id hcrc))

/-- The layout header lies above every key, and is the only thing this may write. -/
theorem framEnsureLayoutHeader_spec {b : Board} (hbus : b.bus = configFramI2cBus)
    (hrel : b.I2cReliable) :
    wp framEnsureLayoutHeader
      (fun _ b' => FramOnly b b' ∧ SameOutside framLayoutOffset.toNat 16 b.fram b'.fram)
      (fun _ b' => ¬ b.Quiet ∧ FramOnly b b' ∧
        SameOutside framLayoutOffset.toNat 16 b.fram b'.fram) b := by
  have outside (chip : Chip) (count : Nat) : SameOutside framLayoutOffset.toNat 16 chip
      (writeAt chip framLayoutOffset.toNat layoutHeader count) :=
    sameOutside_writeAt chip _ layoutHeader count (Nat.le_refl _) (Nat.le_refl _)
  unfold framEnsureLayoutHeader
  refine wp_seq (wp_mono (framRead_spec framLayoutOffset 16 hbus hrel) (fun _ _ h => h) ?_) ?_
  · rintro e b' ⟨-, hnoisy, honly, hfram⟩
    refine ⟨hnoisy, honly, ?_⟩
    rw [hfram]
    exact .refl _ _ _
  · rintro r b₁ ⟨hr, honly₁, hfram₁⟩
    cases r with
    | none => cases hr
    | some hdr =>
        dsimp only
        by_cases hblank : hdr.toList.all blankByte = true
        · rw [if_pos hblank]
          refine wp_seq (wp_mono (framWrite_spec framLayoutOffset layoutHeader
            (honly₁.bus.trans hbus) (honly₁.reliable hrel)) (fun _ _ h => h) ?_) ?_
          · rintro e b' ⟨honly, stored, rest, hi2c, hfram, -⟩
            refine ⟨fun hquiet => not_quiet_of_event hi2c (honly₁.quiet hquiet),
              honly₁.trans honly, ?_⟩
            rw [hfram, hfram₁]
            exact outside b.fram stored
          · rintro r b' ⟨-, honly, hfram, -⟩
            refine ⟨honly₁.trans honly, ?_⟩
            rw [hfram, hfram₁]
            exact outside b.fram 16
        · rw [if_neg hblank]
          refine ⟨honly₁, ?_⟩
          rw [hfram₁]
          exact .refl _ _ _

/-! ## Power cuts during an update -/

/-- The reader returns `r` on a board just powered on with the FRAM bus selected. -/
def ReadsBack (kind : ValueKind α) (id : U8) (d : Durable) (r : Option α) : Prop :=
  ∀ volatile : PowerOn, volatile.bus = configFramI2cBus → volatile.i2c = [] →
    ∃ b, framReadKey kind id (powerOn volatile d) = .ok r b

theorem framRead_powerOn {volatile : PowerOn} (d : Durable) (offset : U16) (n : Nat)
    (hbus : volatile.bus = configFramI2cBus) (hi2c : volatile.i2c = []) :
    framRead offset n (powerOn volatile d) =
      .ok (some (readAt d.fram offset.toNat n)) (powerOn volatile d) := by
  simp [framRead, nextI2c, powerOn, hi2c, hbus, bind, EStateM.bind, get, getThe,
    MonadStateOf.get, EStateM.get, pure, EStateM.pure]

theorem framReadKey_powerOn (kind : ValueKind α) (id : U8) (d : Durable) (volatile : PowerOn)
    (hbus : volatile.bus = configFramI2cBus) (hi2c : volatile.i2c = []) :
    framReadKey kind id (powerOn volatile d) =
      .ok (keyValue kind id d.fram) (powerOn volatile d) := by
  simp only [framReadKey, bind, EStateM.bind, framRead_powerOn d (keyOffset id) 32 hbus hi2c]
  rfl

theorem readsBack_iff {kind : ValueKind α} {id : U8} {d : Durable} {r : Option α} :
    ReadsBack kind id d r ↔ keyValue kind id d.fram = r := by
  constructor
  · intro h
    let volatile : PowerOn := ⟨configFramI2cBus, .sd, d.sd, [], [], []⟩
    obtain ⟨b, hrun⟩ := h volatile rfl rfl
    rw [framReadKey_powerOn kind id d volatile rfl rfl] at hrun
    cases hrun
    rfl
  · rintro rfl volatile hbus hi2c
    exact ⟨_, framReadKey_powerOn kind id d volatile hbus hi2c⟩

/-- The power goes while slot A is written, at a byte where slot A holds neither the old
record nor the whole new one. -/
def TearsSlotA (id : U8) (rec : Slot) (b : Board) : Prop :=
  ∃ stored rest, b.i2c = .ok :: .cut stored :: rest ∧
    tear (slotA b.fram id) rec stored ≠ slotA b.fram id ∧
    tear (slotA b.fram id) rec stored ≠ rec

theorem recoveryKey_ne_zero {id : U8} (hid : id ∈ recoveryKeys) : id ≠ 0 := by
  rintro rfl
  exact absurd hid (by decide)

/-- An update that is cut short keeps the key readable, at its old or its new value,
exactly when the cut does not tear slot A: slot B is written first, with the same sequence
number, and no reader ever looks at it. -/
theorem framSetKey_cut_readable_iff {kind : ValueKind α} {id : U8} {v w : α} {b b' : Board}
    {e : PowerCut} (hid : id ∈ recoveryKeys) (hbus : b.bus = configFramI2cBus)
    (hrel : b.I2cReliable) (hread : ReadsBack kind id b.toDurable (some v))
    (hcut : framSetKey kind id w b = .error e b') (hdetected : e.Detected) :
    (ReadsBack kind id b'.toDurable (some v) ∨ ReadsBack kind id b'.toDurable (some w)) ↔
      ¬ TearsSlotA id (framEncode kind id w 1) b := by
  have hspec := wp_error (framWriteKeySlots_spec (framEncode kind id w 1)
    (recoveryKey_ne_zero hid) hbus hrel) hcut
  simp only [readsBack_iff] at hread ⊢
  rcases hspec with ⟨-, ⟨stored, rest, hi2c, hslot⟩ | ⟨stored, rest, hi2c, hslot, rfl⟩⟩
  · -- Slot B was being written, and slot A is untouched.
    have hkept : keyValue kind id b'.fram = some v := by
      rw [keyValue, hslot]
      exact hread
    refine iff_of_true (Or.inl hkept) ?_
    rintro ⟨stored', rest', hi2c', -, -⟩
    rw [hi2c] at hi2c'
    cases hi2c'
  · -- Slot A was being written: it is the old record, the new one, or fails its check.
    constructor
    · rintro hvalue ⟨stored', rest', hi2c', hold, hnew⟩
      rw [hi2c] at hi2c'
      cases hi2c'
      rw [← hslot] at hold hnew
      have hcrc : crcOk (slotA b'.fram id) = false := by
        rcases readAt_toList_detected hdetected with h | h | h
        · exact absurd h hold
        · exact absurd h hnew
        · exact h
      have hnone : keyValue kind id b'.fram = none := framDecode_of_not_crcOk kind id hcrc
      rw [hnone] at hvalue
      rcases hvalue with h | h <;> cases h
    · intro hwhole
      by_cases hold : slotA b'.fram id = slotA b.fram id
      · left
        rw [keyValue, hold]
        exact hread
      · by_cases hnew : slotA b'.fram id = framEncode kind id w 1
        · right
          rw [keyValue, hnew]
          exact framDecode_framEncode kind id w 1
        · rw [hslot] at hold hnew
          exact absurd ⟨stored, rest, hi2c, hold, hnew⟩ hwhole

/-- A chip that holds `rec` in slot A of key `id` and is blank elsewhere. -/
def chipWith (id : U8) (rec : Slot) : Chip :=
  writeAt (fun _ => 0xff) (keyOffset id).toNat rec 32

def boardWith (chip : Chip) (i2c : List I2cEvent) : Board :=
  powerOn ⟨configFramI2cBus, .sd, fun _ _ => 0, [], i2c, []⟩ ⟨chip, fun _ _ => 0, fun _ _ => 0⟩

theorem detected_of_not_crcOk {old new left : Slot} (hcrc : crcOk left = false) :
    PowerCut.Detected (.framWrite old.toList new.toList left.toList) := by
  intro raw hraw
  rw [← Vector.toList_inj.mp hraw]
  exact Or.inr (Or.inr hcrc)

/-- The latch is true, and the power goes while slot B of its clearing is written. -/
theorem framSetKey_cut_slotB_readable :
    ∃ e b', framSetBool framKeyEmmcRecoveryNeeded false
        (boardWith (chipWith framKeyEmmcRecoveryNeeded
          (framEncodeBool framKeyEmmcRecoveryNeeded true 1)) [.cut 20]) = .error e b' ∧
      (ReadsBack boolKind framKeyEmmcRecoveryNeeded b'.toDurable (some true) ∨
        ReadsBack boolKind framKeyEmmcRecoveryNeeded b'.toDurable (some false)) := by
  refine ⟨_, _, rfl, (framSetKey_cut_readable_iff (v := true) (b := boardWith _ [.cut 20])
    (by decide) rfl ?_ ?_ rfl ?_).mpr ?_⟩
  · intro event hmem stored heq
    cases List.mem_singleton.mp hmem
    cases heq
  · exact readsBack_iff.mpr (by decide +kernel)
  · exact detected_of_not_crcOk (by decide +kernel)
  · rintro ⟨stored, rest, hi2c, -⟩
    cases hi2c

/-- The latch is true, and the power goes twelve bytes into slot A of its clearing: the next
read fails. -/
theorem framSetKey_cut_slotA_unreadable :
    ∃ e b', framSetBool framKeyEmmcRecoveryNeeded false
        (boardWith (chipWith framKeyEmmcRecoveryNeeded
          (framEncodeBool framKeyEmmcRecoveryNeeded true 1)) [.ok, .cut 12]) = .error e b' ∧
      e.Detected ∧
      ReadsBack boolKind framKeyEmmcRecoveryNeeded
        (boardWith (chipWith framKeyEmmcRecoveryNeeded
          (framEncodeBool framKeyEmmcRecoveryNeeded true 1)) []).toDurable (some true) ∧
      ReadsBack boolKind framKeyEmmcRecoveryNeeded b'.toDurable none ∧
      ¬ (ReadsBack boolKind framKeyEmmcRecoveryNeeded b'.toDurable (some true) ∨
        ReadsBack boolKind framKeyEmmcRecoveryNeeded b'.toDurable (some false)) := by
  refine ⟨_, _, rfl, detected_of_not_crcOk (by decide +kernel), ?_, ?_, ?_⟩
  · exact readsBack_iff.mpr (by decide +kernel)
  · exact readsBack_iff.mpr (by decide +kernel)
  · simp only [readsBack_iff]
    decide +kernel

end RadsatLinux.UBoot.FramMission
