import RadsatLinux.UBoot.Layout
import RadsatLinux.UBoot.Recovery

/-!
# Recovery on a chip of another layout

`radsat_fram_recovery_needed` reads the layout header to stamp a blank one, and never asks
whether a header that is there is valid.  `ChipSpared` says, transaction by transaction,
when such a chip is left alone nevertheless.
-/

namespace RadsatLinux.UBoot.LayoutGate

open RadsatLinux.Library.Crash
open RadsatLinux.Fram.Record RadsatLinux.Fram.Memory
open RadsatLinux.UBoot.Hardware RadsatLinux.UBoot.FramMission
open RadsatLinux.UBoot.Layout RadsatLinux.UBoot.Recovery

variable (fatFile : Disk → String → Option Disk)

/-! ## What the gate should do -/

/-- The bytes below the layout header, where all key slots lie. -/
def RegionKept (chip chip' : Chip) : Prop :=
  ∀ a, a < framLayoutOffset.toNat → chip' a = chip a

/-- No write to the eMMC, and no key slot changed. -/
structure Untouched (b b' : Board) : Prop where
  emmc : b'.emmc = b.emmc
  writes : b'.writes = b.writes
  region : RegionKept b.fram b'.fram

/-- Recovery is not called for, and the boot leaves the eMMC and the key slots alone. -/
def LeavesChipAlone (b : Board) : Prop :=
  wp (radsatFramRecoveryNeeded fatFile) (fun needed _ => needed = false) (fun _ _ => True) b ∧
    wp (recoveryBoot fatFile) (fun _ b' => Untouched b b') (fun _ b' => Untouched b b') b

/-- Whenever the boot comes to the eMMC probe, the probe succeeds. -/
def ProbeSucceeds (b : Board) : Prop :=
  ∀ selected b₁, i2cSetBusNum configFramI2cBus b = .ok false selected →
    framEnsureLayoutHeader selected = .ok () b₁ → ∃ b₂, radsatEmmcProbe fatFile b₁ = .ok 0 b₂

/-! ## What it does -/

/-- The course of transaction number `k` from here on. -/
def course (b : Board) (k : Nat) : I2cEvent := (b.i2c.drop k).headD .ok

/-- What such a write puts into a slot that holds `old` is what was there. -/
def Idle (old rec : Slot) (event : I2cEvent) : Prop := tear old rec (event.stored 32) = old

/-- The latch is true and is read. -/
def LatchRead (chip : Chip) (event : I2cEvent) : Prop :=
  event.isOk = true ∧ keyValue boolKind framKeyEmmcRecoveryNeeded chip = some true

/-- The record of a good probe. -/
def probeOkRecord : Slot := framEncode boolKind framKeyLastEmmcProbeOk true 1

/-- The bus cannot be selected; or the power goes while the header is read; or what is
transferred of the probe's record is in the slots already, and the latch is not read as
true. -/
def ChipSpared (b : Board) : Prop :=
  b.busFails.headD false = true ∨ (course b 0).isCut = true ∨
    Idle (slotB b.fram framKeyLastEmmcProbeOk) probeOkRecord (course b 1) ∧
      ((course b 1).isCut = true ∨
        (course b 1).isOk = false ∧ ¬ LatchRead b.fram (course b 2) ∨
        (course b 1).isOk = true ∧
          Idle (slotA b.fram framKeyLastEmmcProbeOk) probeOkRecord (course b 2) ∧
          ((course b 2).isCut = true ∨ ¬ LatchRead b.fram (course b 3)))

/-! ## Writes that change nothing -/

theorem writeAt_eq_iff {n : Nat} (chip : Chip) (offset : Nat) (buf : Vector U8 n) (count : Nat) :
    (∀ a, offset ≤ a → a < offset + n → writeAt chip offset buf count a = chip a) ↔
      tear (readAt chip offset n) buf count = readAt chip offset n := by
  rw [← readAt_writeAt_same]
  constructor
  · intro h
    apply Vector.ext
    intro i hi
    simp only [readAt, Vector.getElem_ofFn]
    exact h (offset + i) (by omega) (by omega)
  · intro h a hlow hhigh
    have hbyte := congrArg (fun v => v.toList[a - offset]?) h
    have hindex : offset + (a - offset) = a := by omega
    have hlt : a - offset < n := by omega
    simpa [readAt, hlt, hindex] using hbyte

/-- After a write to a slot that was as on `chip` so far, the bytes below the header are those
of `chip` exactly when they were before and the write changes nothing. -/
theorem regionKept_write_iff {chip chip' : Chip} {first : Nat} (rec : Slot) (count : Nat)
    (hfits : first + 32 ≤ framLayoutOffset.toNat)
    (hsame : ∀ a, first ≤ a → a < first + 32 → chip' a = chip a) :
    RegionKept chip (writeAt chip' first rec count) ↔
      RegionKept chip chip' ∧ tear (readAt chip first 32) rec count = readAt chip first 32 := by
  have hread : readAt chip' first 32 = readAt chip first 32 := by
    apply Vector.ext
    intro i hi
    simp only [readAt, Vector.getElem_ofFn]
    exact hsame _ (by omega) (by omega)
  have houtside := sameOutside_writeAt chip' first rec count (Nat.le_refl _) (Nat.le_refl _)
  rw [← hread, ← writeAt_eq_iff]
  constructor
  · intro hkept
    constructor
    · intro a ha
      by_cases hin : first ≤ a ∧ a < first + 32
      · exact hsame a hin.1 hin.2
      · rw [← houtside a (by omega)]
        exact hkept a ha
    · intro a hlow hhigh
      rw [hkept a (by omega), hsame a hlow hhigh]
  · rintro ⟨hkept, hidle⟩ a ha
    by_cases hin : first ≤ a ∧ a < first + 32
    · rw [hidle a hin.1 hin.2]
      exact hkept a ha
    · rw [houtside a (by omega)]
      exact hkept a ha

theorem regionKept_refl (chip : Chip) : RegionKept chip chip := fun _ _ => rfl

theorem regionKept_slotB_iff (chip : Chip) (rec : Slot) (event : I2cEvent) :
    RegionKept chip
        (writeAt chip (keyOffsetB framKeyLastEmmcProbeOk).toNat rec (event.stored 32)) ↔
      Idle (slotB chip framKeyLastEmmcProbeOk) rec event := by
  rw [regionKept_write_iff rec _ (by decide) fun _ _ _ => rfl]
  exact and_iff_right (regionKept_refl chip)

theorem regionKept_slots_iff (chip : Chip) (rec : Slot) (eventB eventA : I2cEvent) :
    RegionKept chip
        (writeAt (writeAt chip (keyOffsetB framKeyLastEmmcProbeOk).toNat rec (eventB.stored 32))
          (keyOffset framKeyLastEmmcProbeOk).toNat rec (eventA.stored 32)) ↔
      Idle (slotB chip framKeyLastEmmcProbeOk) rec eventB ∧
        Idle (slotA chip framKeyLastEmmcProbeOk) rec eventA := by
  have hA : (keyOffset framKeyLastEmmcProbeOk).toNat = 704 := by decide
  have hB : (keyOffsetB framKeyLastEmmcProbeOk).toNat = 736 := by decide
  rw [regionKept_write_iff rec _ (by decide), regionKept_slotB_iff, Idle, Idle, slotA]
  intro a hlow hhigh
  exact dif_neg (by omega)

/-! ## The course of a boot -/

/-- `b'` is the board `b` with the bus of the chip selected, `k` transactions later, and the
same bytes in the eMMC. -/
structure Later (b : Board) (k : Nat) (b' : Board) : Prop where
  bus : b'.bus = configFramI2cBus
  i2c : b'.i2c = b.i2c.drop k
  emmc : b'.emmc = b.emmc
  writes : b'.writes = b.writes

theorem Later.nextEvent {b b' : Board} {k : Nat} (h : Later b k b') :
    nextEvent b' = course b k := by
  rw [Layout.nextEvent, h.i2c, course]

theorem Later.use {b b' : Board} {k : Nat} (h : Later b k b') (chip : Chip) :
    Later b (k + 1) { useEvent b' with fram := chip } where
  bus := h.bus
  i2c := by
    change b'.i2c.tail = _
    rw [h.i2c, List.tail_drop]
  emmc := h.emmc
  writes := h.writes

theorem Later.untouched_iff {b b' : Board} {k : Nat} (h : Later b k b') :
    Untouched b b' ↔ RegionKept b.fram b'.fram :=
  ⟨fun hkept => hkept.region, fun hregion => ⟨h.emmc, h.writes, hregion⟩⟩

/-- A header that is not blank is left as it is. -/
theorem wp_framEnsureLayoutHeader_iff {b : Board} {Q : Unit → Board → Prop}
    {R : PowerCut → Board → Prop} (hdata : (headerOf b.fram).toList.all blankByte = false) :
    wp framEnsureLayoutHeader Q R b ↔
      if (Layout.nextEvent b).isCut then R .elsewhere (useEvent b) else Q () (useEvent b) := by
  unfold framEnsureLayoutHeader
  rw [wp_bind, wp_framRead_iff]
  split
  · rfl
  · cases hseen : seen framLayoutOffset 16 b with
    | none => rfl
    | some hdr =>
        have hhdr : hdr = headerOf b.fram := by
          unfold seen at hseen
          split at hseen
          · exact (Option.some.inj hseen).symm
          · cases hseen
        dsimp only
        rw [hhdr, if_neg (by simp [hdata])]
        rfl

theorem wp_framReadKey_iff {α : Type} {kind : ValueKind α} {id : U8} {b : Board}
    {Q : Option α → Board → Prop} {R : PowerCut → Board → Prop} :
    wp (framReadKey kind id) Q R b ↔
      if (Layout.nextEvent b).isCut then R .elsewhere (useEvent b)
      else Q ((seen (keyOffset id) 32 b).bind (framDecode kind id)) (useEvent b) := by
  unfold framReadKey
  rw [wp_bind, wp_framRead_iff]
  split
  · rfl
  · cases seen (keyOffset id) 32 b <;> rfl

theorem isOk_false_of_isCut {event : I2cEvent} (hcut : event.isCut = true) :
    event.isOk = false := by
  cases event with
  | ok => cases hcut
  | fail count => rfl
  | cut count => rfl

section AfterProbe

variable {b b' : Board} {k : Nat}

theorem latch_read_iff (h : Later b k b')
    (hlatch : keyValue boolKind framKeyEmmcRecoveryNeeded b'.fram =
      keyValue boolKind framKeyEmmcRecoveryNeeded b.fram) :
    ((seen (keyOffset framKeyEmmcRecoveryNeeded) 32 b').bind
        (framDecode boolKind framKeyEmmcRecoveryNeeded)).getD false = false ↔
      ¬ LatchRead b.fram (course b k) := by
  rw [LatchRead, ← hlatch, seen, h.nextEvent]
  by_cases hok : (course b k).isOk = true
  · rw [if_pos ⟨hok, h.bus⟩]
    change (keyValue boolKind framKeyEmmcRecoveryNeeded b'.fram).getD false = false ↔ _
    rcases keyValue boolKind framKeyEmmcRecoveryNeeded b'.fram with _ | _ | _ <;> simp [hok]
  · rw [if_neg fun hgood => hok hgood.1]
    simp [hok]

/-- The latch is read from key 9, and the bus found on entry is selected again. -/
theorem wp_latchedAfterProbe_iff (oldBus : Nat) (h : Later b k b')
    (hlatch : keyValue boolKind framKeyEmmcRecoveryNeeded b'.fram =
      keyValue boolKind framKeyEmmcRecoveryNeeded b.fram) :
    wp (do
        let needed ← latchedAfterProbe true
        let _ ← i2cSetBusNum oldBus
        return needed)
      (fun needed b' => needed = false ∧ Untouched b b') (fun _ b' => Untouched b b') b' ↔
      RegionKept b.fram b'.fram ∧ ¬ LatchRead b.fram (course b k) := by
  have huse : Later b (k + 1) (useEvent b') := h.use b'.fram
  have hselect : Untouched b (afterSelect oldBus (useEvent b')) ↔ RegionKept b.fram b'.fram :=
    ⟨fun hkept => hkept.region, fun hregion => ⟨h.emmc, h.writes, hregion⟩⟩
  unfold latchedAfterProbe framReadBool
  rw [if_neg (by decide)]
  simp only [wp_bind, wp_framReadKey_iff, wp_i2cSetBusNum_iff, wp_pure, h.nextEvent]
  split
  · next hcut =>
      rw [huse.untouched_iff]
      refine (and_iff_left fun hread => ?_).symm
      rw [LatchRead, isOk_false_of_isCut hcut] at hread
      cases hread.1
  · rw [latch_read_iff h hlatch, hselect]
    exact and_comm

/-- A write to a slot of the probe's key leaves the latch alone. -/
theorem latch_writeAt {chip : Chip} {offset count : Nat} {rec : Slot}
    (habove : (keyOffset framKeyEmmcRecoveryNeeded).toNat + 32 ≤ offset) :
    keyValue boolKind framKeyEmmcRecoveryNeeded (writeAt chip offset rec count) =
      keyValue boolKind framKeyEmmcRecoveryNeeded chip := by
  rw [keyValue, slotA, readAt_writeAt_apart chip rec count (Or.inl habove), keyValue, slotA]

/-- The update of the probe's key, and what follows it. -/
theorem wp_afterProbe_iff (oldBus : Nat) (h : Later b 1 b') (hfram : b'.fram = b.fram) :
    wp (do
        let _ ← framSetBool framKeyLastEmmcProbeOk true
        let needed ← latchedAfterProbe true
        let _ ← i2cSetBusNum oldBus
        return needed)
      (fun needed b' => needed = false ∧ Untouched b b') (fun _ b' => Untouched b b') b' ↔
      Idle (slotB b.fram framKeyLastEmmcProbeOk) probeOkRecord (course b 1) ∧
        ((course b 1).isCut = true ∨
          (course b 1).isOk = false ∧ ¬ LatchRead b.fram (course b 2) ∨
          (course b 1).isOk = true ∧
            Idle (slotA b.fram framKeyLastEmmcProbeOk) probeOkRecord (course b 2) ∧
            ((course b 2).isCut = true ∨ ¬ LatchRead b.fram (course b 3))) := by
  have hrec : framEncode boolKind framKeyLastEmmcProbeOk true 1 = probeOkRecord := rfl
  have hwriteB : Later b 2 (afterWrite (keyOffsetB framKeyLastEmmcProbeOk) probeOkRecord b') :=
    h.use _
  have hkeptB : RegionKept b.fram
        (afterWrite (keyOffsetB framKeyLastEmmcProbeOk) probeOkRecord b').fram ↔
      Idle (slotB b.fram framKeyLastEmmcProbeOk) probeOkRecord (course b 1) := by
    rw [← regionKept_slotB_iff, afterWrite, h.nextEvent, hfram]
  have hlatchB : keyValue boolKind framKeyEmmcRecoveryNeeded
        (afterWrite (keyOffsetB framKeyLastEmmcProbeOk) probeOkRecord b').fram =
      keyValue boolKind framKeyEmmcRecoveryNeeded b.fram := by
    rw [afterWrite, latch_writeAt (by decide), hfram]
  unfold framSetBool framSetKey framWriteKeySlots
  rw [hrec, wp_bind, wp_bind, wp_framWrite_iff (b := b') h.bus, h.nextEvent]
  cases hB : course b 1 with
  | cut count =>
      simp only [I2cEvent.isCut_cut, if_true, true_or, and_true]
      rw [hwriteB.untouched_iff, hkeptB, hB]
  | fail count =>
      simp only [I2cEvent.isCut_fail, I2cEvent.isOk_fail, Bool.not_false, Bool.false_eq_true,
        if_false, if_true, wp_pure, false_or, true_and, false_and, or_false]
      rw [wp_latchedAfterProbe_iff oldBus hwriteB hlatchB, hkeptB, hB]
  | ok =>
      have hwriteA : Later b 3 (afterWrite (keyOffset framKeyLastEmmcProbeOk) probeOkRecord
          (afterWrite (keyOffsetB framKeyLastEmmcProbeOk) probeOkRecord b')) :=
        hwriteB.use _
      have hkeptA : RegionKept b.fram (afterWrite (keyOffset framKeyLastEmmcProbeOk) probeOkRecord
            (afterWrite (keyOffsetB framKeyLastEmmcProbeOk) probeOkRecord b')).fram ↔
          Idle (slotB b.fram framKeyLastEmmcProbeOk) probeOkRecord (course b 1) ∧
            Idle (slotA b.fram framKeyLastEmmcProbeOk) probeOkRecord (course b 2) := by
        rw [← regionKept_slots_iff, afterWrite, hwriteB.nextEvent, afterWrite, h.nextEvent, hfram]
      have hlatchA : keyValue boolKind framKeyEmmcRecoveryNeeded
            (afterWrite (keyOffset framKeyLastEmmcProbeOk) probeOkRecord
              (afterWrite (keyOffsetB framKeyLastEmmcProbeOk) probeOkRecord b')).fram =
          keyValue boolKind framKeyEmmcRecoveryNeeded b.fram := by
        rw [afterWrite, latch_writeAt (by decide), hlatchB]
      simp only [I2cEvent.isCut_ok, I2cEvent.isOk_ok, Bool.not_true, Bool.false_eq_true,
        if_false, false_or, true_and, reduceCtorEq, false_and]
      rw [wp_bind, wp_framWrite_iff (b := afterWrite _ _ b') hwriteB.bus, hwriteB.nextEvent]
      rw [hB] at hkeptA
      cases hA : course b 2 with
      | cut count =>
          simp only [I2cEvent.isCut_cut, if_true, true_or, and_true]
          rw [hwriteA.untouched_iff, ← hA]
          exact hkeptA
      | fail count =>
          simp only [I2cEvent.isCut_fail, I2cEvent.isOk_fail, Bool.not_false, Bool.false_eq_true,
            if_false, if_true, wp_pure, false_or]
          rw [wp_latchedAfterProbe_iff oldBus hwriteA hlatchA, hkeptA, hA, and_assoc]
      | ok =>
          simp only [I2cEvent.isCut_ok, I2cEvent.isOk_ok, Bool.not_true, Bool.false_eq_true,
            if_false, wp_pure, false_or]
          rw [wp_latchedAfterProbe_iff oldBus hwriteA hlatchA, hkeptA, hA, and_assoc]

end AfterProbe

/-! ## Boots on a chip of another layout -/

variable {fatFile}

/-- Of a boot that may call for recovery only `radsat_fram_recovery_needed` matters. -/
theorem leavesChipAlone_iff (b : Board) :
    LeavesChipAlone fatFile b ↔
      wp (radsatFramRecoveryNeeded fatFile) (fun needed b' => needed = false ∧ Untouched b b')
        (fun _ b' => Untouched b b') b := by
  unfold LeavesChipAlone recoveryBoot
  rw [wp_bind]
  unfold wp
  cases radsatFramRecoveryNeeded fatFile b with
  | ok needed b' =>
      cases needed with
      | true => simp
      | false => exact Iff.rfl
  | error e b' => exact and_iff_right trivial

theorem headerOf_not_blank {chip : Chip} (hinvalid : headerInvalid (headerOf chip) = true) :
    (headerOf chip).toList.all blankByte = false := by
  simp only [headerInvalid, Bool.and_eq_true, Bool.not_eq_true'] at hinvalid
  exact hinvalid.1

/-- On a chip with an invalid header a boot that finds a kernel on the eMMC is harmless
exactly when the chip is spared: the header is never asked for its validity, key 12 is
written at every boot, and the latch is read whatever layout its record belongs to. -/
theorem leavesChipAlone_iff_chipSpared {b : Board}
    (hinvalid : headerInvalid (headerOf b.fram) = true) (hprobe : ProbeSucceeds fatFile b) :
    LeavesChipAlone fatFile b ↔ ChipSpared b := by
  have hdata := headerOf_not_blank hinvalid
  rw [leavesChipAlone_iff, radsatFramRecoveryNeeded, ChipSpared]
  simp only [wp_bind, i2cGetBusNum, wp_get, wp_pure]
  rw [wp_i2cSetBusNum_iff]
  cases hselect : b.busFails.headD false with
  | true =>
      simp only [if_true, wp_pure, true_or, iff_true]
      exact ⟨trivial, rfl, rfl, regionKept_refl b.fram⟩
  | false =>
      have hselected : i2cSetBusNum configFramI2cBus b =
          .ok false (afterSelect configFramI2cBus b) := by
        rw [i2cSetBusNum_run, hselect]
      have hat : Later b 0 (afterSelect configFramI2cBus b) :=
        ⟨if_neg (ne_true_of_eq_false hselect), rfl, rfl, rfl⟩
      have hensure {Q : Unit → Board → Prop} {R : PowerCut → Board → Prop} :=
        wp_framEnsureLayoutHeader_iff (b := afterSelect configFramI2cBus b) (Q := Q) (R := R) hdata
      rw [if_neg (by decide), wp_bind, hensure, hat.nextEvent]
      cases hread : (course b 0).isCut with
      | true =>
          simp only [if_true, true_or, or_true, iff_true]
          exact ⟨rfl, rfl, regionKept_refl b.fram⟩
      | false =>
          have hat₁ : Later b 1 (useEvent (afterSelect configFramI2cBus b)) :=
            hat.use (afterSelect configFramI2cBus b).fram
          have hensured := hensure.mp (wp_self framEnsureLayoutHeader _)
          rw [hat.nextEvent, hread, if_neg (by decide)] at hensured
          obtain ⟨b₂, hprobed⟩ := hprobe _ _ hselected hensured
          have honly : MmcOnly (useEvent (afterSelect configFramI2cBus b)) b₂ :=
            (wp_ok (radsatEmmcProbe_spec _) hprobed).1
          have hat₂ : Later b 1 b₂ :=
            ⟨honly.bus.trans hat₁.bus, honly.i2c.trans hat₁.i2c, honly.emmc.trans hat₁.emmc,
              honly.modifies.writes.trans hat₁.writes⟩
          simp only [Bool.false_eq_true, if_false, false_or]
          rw [wp_bind, wp, hprobed]
          exact wp_afterProbe_iff b.bus hat₂ honly.fram

theorem probeSucceeds_of_quiet {b : Board} (hquiet : b.Quiet)
    (hkernel : HasKernel fatFile b.emmc) : ProbeSucceeds fatFile b := by
  intro selected b₁ hselect hensure
  have hselected := wp_ok (i2cSetBusNum_spec configFramI2cBus b) hselect
  have honly := keeps_framEnsureLayoutHeader.of_ok hensure
  have hquiet₁ : b₁.Quiet := honly.quiet (hselected.1.quiet hquiet)
  have hspec := @radsatEmmcProbe_spec fatFile b₁
  have hemmc : b₁.emmc = b.emmc := honly.emmc.trans hselected.1.emmc
  unfold wp at hspec
  cases hrun : radsatEmmcProbe fatFile b₁ with
  | ok r b₂ =>
      rw [hrun] at hspec
      exact ⟨b₂, by rw [(hspec.2 hquiet₁).mpr (hemmc ▸ hkernel)]⟩
  | error e b₂ =>
      rw [hrun] at hspec
      exact absurd hquiet₁ hspec.1

/-- A header of version 6, over the records of `chip`. -/
def newerLayout (chip : Chip) : Chip :=
  writeAt chip framLayoutOffset.toNat
    (#v[0x46, 0x52, 0x41, 0x4d, 6, 0, 0, 0, 0, 0, 0, 0, 0, 0, 0, 0] : Vector U8 16) 16

/-- The record of a good probe is in both slots of its key already. -/
def probedChip : Chip :=
  newerLayout (writeAt (chipWith framKeyLastEmmcProbeOk probeOkRecord)
    (keyOffsetB framKeyLastEmmcProbeOk).toNat probeOkRecord 32)

theorem boardWith_probeSucceeds (chip : Chip) :
    ProbeSucceeds (fun _ _ => some fun _ _ => 0) (boardWith chip []) :=
  probeSucceeds_of_quiet ⟨rfl, rfl, rfl⟩ (Or.inl rfl)

theorem leavesChipAlone_probedChip :
    headerInvalid (headerOf (boardWith probedChip []).fram) = true ∧
      ProbeSucceeds (fun _ _ => some fun _ _ => 0) (boardWith probedChip []) ∧
      LeavesChipAlone (fun _ _ => some fun _ _ => 0) (boardWith probedChip []) := by
  have hinvalid : headerInvalid (headerOf (boardWith probedChip []).fram) = true := by
    decide +kernel
  have hprobe := boardWith_probeSucceeds probedChip
  refine ⟨hinvalid, hprobe, (leavesChipAlone_iff_chipSpared hinvalid hprobe).mpr ?_⟩
  have hlatch : ¬ keyValue boolKind framKeyEmmcRecoveryNeeded probedChip = some true := by
    decide +kernel
  refine Or.inr (Or.inr ⟨?_, Or.inr (Or.inr ⟨rfl, ?_, Or.inr fun hread => hlatch hread.2⟩)⟩)
  · unfold Idle
    decide +kernel
  · unfold Idle
    decide +kernel

/-- Key 9 of the newer layout holds a true bool. -/
def trueKeyChip : Chip :=
  newerLayout (chipWith framKeyEmmcRecoveryNeeded
    (framEncodeBool framKeyEmmcRecoveryNeeded true 1))

/-- Recovery is called for on the word of a record of another layout. -/
theorem not_leavesChipAlone_trueKeyChip :
    headerInvalid (headerOf (boardWith trueKeyChip []).fram) = true ∧
      ProbeSucceeds (fun _ _ => some fun _ _ => 0) (boardWith trueKeyChip []) ∧
      ¬ LeavesChipAlone (fun _ _ => some fun _ _ => 0) (boardWith trueKeyChip []) := by
  refine ⟨by decide +kernel, boardWith_probeSucceeds trueKeyChip, fun halone => ?_⟩
  have hrun : returned (fun b => b.bus)
      (radsatFramRecoveryNeeded (fun _ _ => some fun _ _ => 0) (boardWith trueKeyChip [])) =
        some (true, 2) := by
    decide +kernel
  obtain ⟨b', hok, -⟩ := ok_of_returned hrun
  cases wp_ok halone.1 hok

end RadsatLinux.UBoot.LayoutGate
