import RadsatLinux.UBoot.KeyFrames
import RadsatLinux.UBoot.RestoreSafety

/-!
# The attempt cap

`radsat_fram_run_recovery` up to its copy loop, and what its attempt counter decides there.
The counter is compared with the cap whether the copy is to start over or to be resumed.
-/

namespace RadsatLinux.UBoot.Attempts

open RadsatLinux.Library.Crash RadsatLinux.Library.BlockDevice
open RadsatLinux.Fram.Record RadsatLinux.Fram.Memory
open RadsatLinux.UBoot.Hardware RadsatLinux.UBoot.FramMission
open RadsatLinux.UBoot.Layout RadsatLinux.UBoot.LayoutGate
open RadsatLinux.UBoot.Recovery RadsatLinux.UBoot.RestoreSafety RadsatLinux.UBoot.KeyFrames

/-! ## The two halves of the function -/

/-- What follows the reads of the offset and of the counter, given what they yielded. -/
def enterWith (oldBus offset : Nat) (attempts : U64) : Boot (Option (Nat × Nat)) := do
  if framRecoveryAttemptCap ≤ attempts then
    let _ ← i2cSetBusNum oldBus
    return none
  countAttempt offset attempts
  let _ ← framSetBool framKeyEmmcRecoveryNeeded true
  let _ ← i2cSetBusNum oldBus
  return some (oldBus, offset)

/-- What comes before the copy loop: the bus to go back to and the sector to start from, or
`none` when the function gives up. -/
def enterRestore : Boot (Option (Nat × Nat)) := do
  let oldBus ← i2cGetBusNum
  if ← i2cSetBusNum configFramI2cBus then return none
  let offset ← framReadU64 framKeyEmmcRestoreOffset
  let attempts ← framReadU64 framKeyEmmcRecoveryAttempts
  enterWith oldBus (resumeFrom offset) (attempts.getD 0)

variable (fatFile : Disk → String → Option Disk)

/-- The copy loop from sector `offset` on, and what comes after it. -/
def restoreFrom (oldBus offset : Nat) : Boot Int := do
  let _ ← mmcRescan
  if ← copyFrom oldBus offset then return -1
  if (← radsatEmmcProbe fatFile) != 0 then return -1
  clearRecovery oldBus
  return 0

theorem radsatFramRunRecovery_eq :
    radsatFramRunRecovery fatFile = (do
      match ← enterRestore with
      | none => return -1
      | some (oldBus, offset) => restoreFrom fatFile oldBus offset) := by
  unfold radsatFramRunRecovery enterRestore enterWith restoreFrom
  simp only [bind_assoc]
  congr
  funext oldBus
  congr
  funext busFails
  cases busFails with
  | true => rfl
  | false =>
      simp only [bind_assoc, Bool.false_eq_true, if_false]
      congr
      funext offset
      congr
      funext attempts
      split
      · simp only [bind_assoc, pure_bind]
      · simp only [bind_assoc, pure_bind]

/-! ## Resuming -/

/-- The copy loop is entered at sector `k`, with the attempt counter as it was. -/
def EntersCopyAt (k : Nat) (b : Board) : Prop :=
  wp enterRestore
    (fun r b' => (∃ oldBus, r = some (oldBus, k)) ∧
      keyValue u64Kind framKeyEmmcRecoveryAttempts b'.fram =
        keyValue u64Kind framKeyEmmcRecoveryAttempts b.fram)
    (fun _ _ => False) b

/-- The bus can be selected, the stored offset is read, and the power stays on through the
read of the counter and the update of the latch. -/
structure ResumeServed (b : Board) : Prop where
  selected : b.busFails.headD false = false
  offsetRead : (course b 0).isOk = true
  attemptsRead : (course b 1).isCut = false
  latchSlotB : (course b 2).isCut = false
  latchSlotA : (course b 2).isOk = true → (course b 3).isCut = false

/-- What `fram_read_u64` yields in the course of transaction `k`. -/
theorem seen_later {b b' : Board} {k : Nat} {id : U8} (h : Later b k b')
    (hfram : b'.fram = b.fram) :
    (seen (keyOffset id) 32 b').bind (framDecode u64Kind id) =
      if (course b k).isOk = true then keyValue u64Kind id b.fram else none := by
  rw [seen, h.nextEvent, hfram]
  by_cases hok : (course b k).isOk = true
  · rw [if_pos ⟨hok, h.bus⟩, if_pos hok]
    rfl
  · rw [if_neg fun hgood => hok hgood.1, if_neg hok]
    rfl

theorem attempts_writeAt {chip : Chip} {offset count : Nat} {rec : Slot}
    (hbelow : offset + 32 ≤ (keyOffset framKeyEmmcRecoveryAttempts).toNat) :
    keyValue u64Kind framKeyEmmcRecoveryAttempts (writeAt chip offset rec count) =
      keyValue u64Kind framKeyEmmcRecoveryAttempts chip := by
  rw [keyValue, slotA, readAt_writeAt_apart chip rec count (Or.inr hbelow), keyValue, slotA]

/-- Setting the latch keeps the counter, and comes back unless the power goes. -/
theorem wp_setLatch_iff {b b' : Board} {Q : Prop} (h : Later b 2 b') (hfram : b'.fram = b.fram) :
    wp (framSetBool framKeyEmmcRecoveryNeeded true)
      (fun _ b' => Q ∧ keyValue u64Kind framKeyEmmcRecoveryAttempts b'.fram =
        keyValue u64Kind framKeyEmmcRecoveryAttempts b.fram) (fun _ _ => False) b' ↔
      Q ∧ (course b 2).isCut = false ∧
        ((course b 2).isOk = true → (course b 3).isCut = false) := by
  unfold framSetBool framSetKey framWriteKeySlots
  generalize framEncode boolKind framKeyEmmcRecoveryNeeded true 1 = rec
  have hB : Later b 3 (afterWrite (keyOffsetB framKeyEmmcRecoveryNeeded) rec b') := h.use _
  have hkeptB : keyValue u64Kind framKeyEmmcRecoveryAttempts
        (afterWrite (keyOffsetB framKeyEmmcRecoveryNeeded) rec b').fram =
      keyValue u64Kind framKeyEmmcRecoveryAttempts b.fram := by
    rw [afterWrite, attempts_writeAt (by decide), hfram]
  have hkeptA : keyValue u64Kind framKeyEmmcRecoveryAttempts
        (afterWrite (keyOffset framKeyEmmcRecoveryNeeded) rec
          (afterWrite (keyOffsetB framKeyEmmcRecoveryNeeded) rec b')).fram =
      keyValue u64Kind framKeyEmmcRecoveryAttempts b.fram := by
    rw [afterWrite, attempts_writeAt (by decide), hkeptB]
  rw [wp_bind, wp_framWrite_iff h.bus, h.nextEvent]
  cases hevent : course b 2 with
  | cut count => simp
  | fail count => simp [hkeptB]
  | ok =>
      simp only [I2cEvent.isCut_ok, I2cEvent.isOk_ok, Bool.false_eq_true, if_false, Bool.not_true]
      rw [wp_bind, wp_framWrite_iff hB.bus, hB.nextEvent]
      cases course b 3 with
      | cut count => simp
      | fail count => simp [hkeptA]
      | ok => simp [hkeptA]

/-- From the offset 0 the copy starts over. -/
theorem enterWith_zero {b b' : Board} {oldBus k : Nat} {attempts : U64} (hk : k ≠ 0) :
    ¬ wp (enterWith oldBus 0 attempts)
      (fun r b' => (∃ oldBus, r = some (oldBus, k)) ∧
        keyValue u64Kind framKeyEmmcRecoveryAttempts b'.fram =
          keyValue u64Kind framKeyEmmcRecoveryAttempts b.fram) (fun _ _ => False) b' := by
  unfold enterWith
  intro hwp
  split at hwp
  · rw [wp_bind, wp_i2cSetBusNum_iff] at hwp
    obtain ⟨⟨bus, hbus⟩, -⟩ := hwp
    cases hbus
  · rw [wp_bind] at hwp
    refine wp_const (wp_mono hwp (fun _ b₁ hlatch => ?_) fun _ _ h => h)
    rw [wp_bind] at hlatch
    refine wp_const (wp_mono hlatch (fun _ b₂ hreturn => ?_) fun _ _ h => h)
    rw [wp_bind, wp_i2cSetBusNum_iff] at hreturn
    obtain ⟨⟨bus, hbus⟩, -⟩ := hreturn
    exact hk (congrArg Prod.snd (Option.some.inj hbus)).symm

theorem enterWith_iff {b b' : Board} {oldBus k : Nat} {attempts : U64} (h : Later b 2 b')
    (hfram : b'.fram = b.fram) (hk : k ≠ 0) :
    wp (enterWith oldBus k attempts)
      (fun r b' => (∃ oldBus, r = some (oldBus, k)) ∧
        keyValue u64Kind framKeyEmmcRecoveryAttempts b'.fram =
          keyValue u64Kind framKeyEmmcRecoveryAttempts b.fram) (fun _ _ => False) b' ↔
      attempts < framRecoveryAttemptCap ∧ (course b 2).isCut = false ∧
        ((course b 2).isOk = true → (course b 3).isCut = false) := by
  unfold enterWith
  split
  · next hcap =>
      refine iff_of_false ?_ fun hbelow => absurd hbelow.1 (BitVec.not_lt.mpr hcap)
      rw [wp_bind, wp_i2cSetBusNum_iff]
      rintro ⟨⟨bus, hbus⟩, -⟩
      cases hbus
  · next hcap =>
      have hlatch := wp_setLatch_iff (Q := ∃ bus, some (oldBus, k) = some (bus, k)) h hfram
      rw [and_iff_right ⟨oldBus, rfl⟩] at hlatch
      rw [and_iff_right (BitVec.not_le.mp hcap), ← hlatch, countAttempt, if_neg hk, wp_bind,
        wp_pure, wp_bind]
      have hreturn (b₁ : Board) : wp (do
          let _ ← i2cSetBusNum oldBus
          return some (oldBus, k))
          (fun r b' => (∃ oldBus, r = some (oldBus, k)) ∧
            keyValue u64Kind framKeyEmmcRecoveryAttempts b'.fram =
              keyValue u64Kind framKeyEmmcRecoveryAttempts b.fram) (fun _ _ => False) b₁ ↔
          (∃ bus, some (oldBus, k) = some (bus, k)) ∧
            keyValue u64Kind framKeyEmmcRecoveryAttempts b₁.fram =
              keyValue u64Kind framKeyEmmcRecoveryAttempts b.fram := by
        rw [wp_bind, wp_i2cSetBusNum_iff]
        exact Iff.rfl
      exact ⟨fun hwp => wp_mono hwp (fun _ b₁ h => (hreturn b₁).mp h) fun _ _ h => h,
        fun hwp => wp_mono hwp (fun _ b₁ h => (hreturn b₁).mpr h) fun _ _ h => h⟩

section Resume

variable {b : Board} {a k : U64}

/-- A copy that was interrupted at sector `k` is resumed there when the boot gets through to
the loop, and the counter either is not read or is still below the cap. -/
theorem entersCopyAt_iff
    (hattempts : keyValue u64Kind framKeyEmmcRecoveryAttempts b.fram = some a)
    (hoffset : keyValue u64Kind framKeyEmmcRestoreOffset b.fram = some k)
    (hpos : 0 < k.toNat) (hspan : k.toNat < span) :
    EntersCopyAt k.toNat b ↔
      ResumeServed b ∧ ((course b 1).isOk = true → a < framRecoveryAttemptCap) := by
  unfold EntersCopyAt enterRestore i2cGetBusNum framReadU64
  simp only [wp_bind, wp_get, wp_pure, wp_i2cSetBusNum_iff]
  cases hselected : b.busFails.headD false with
  | true =>
      refine iff_of_false ?_ fun hserved => ?_
      · simp
      · rw [hserved.1.selected] at hselected
        cases hselected
  | false =>
  have h₀ : Later b 0 (afterSelect configFramI2cBus b) := by
    refine ⟨?_, rfl, rfl, rfl⟩
    change (if b.busFails.headD false = true then b.bus else configFramI2cBus) = _
    rw [hselected, if_neg Bool.false_ne_true]
  have h₁ : Later b 1 (useEvent (afterSelect configFramI2cBus b)) := h₀.use _
  have h₂ : Later b 2 (useEvent (useEvent (afterSelect configFramI2cBus b))) := h₁.use _
  have hk : k.toNat ≠ 0 := by omega
  have hresume : resumeFrom (some k) = k.toNat := by
    simp only [resumeFrom, Option.getD_some]
    rw [if_neg (by omega)]
  have hzero : resumeFrom none = 0 := by decide
  have hnone : (none : Option U64).getD 0 < framRecoveryAttemptCap := by decide
  simp only [Bool.false_eq_true, if_false, wp_bind, wp_framReadKey_iff, h₀.nextEvent,
    h₁.nextEvent, seen_later h₀ rfl, seen_later h₁ rfl, hattempts, hoffset]
  cases hoffsetEvent : course b 0 with
  | cut count =>
      refine iff_of_false (by simp) fun hserved => ?_
      have hread := hserved.1.offsetRead
      rw [hoffsetEvent] at hread
      cases hread
  | fail count =>
      refine iff_of_false ?_ fun hserved => ?_
      · simp only [I2cEvent.isCut_fail, I2cEvent.isOk_fail, Bool.false_eq_true, if_false, hzero]
        intro hwp
        split at hwp
        · exact hwp
        · rw [← hattempts] at hwp
          exact enterWith_zero hk hwp
      · have hread := hserved.1.offsetRead
        rw [hoffsetEvent] at hread
        cases hread
  | ok =>
      have hserved : ResumeServed b ↔ (course b 1).isCut = false ∧ (course b 2).isCut = false ∧
          ((course b 2).isOk = true → (course b 3).isCut = false) :=
        ⟨fun h => ⟨h.attemptsRead, h.latchSlotB, h.latchSlotA⟩,
          fun h => ⟨hselected, by rw [hoffsetEvent]; rfl, h.1, h.2.1, h.2.2⟩⟩
      simp only [I2cEvent.isCut_ok, I2cEvent.isOk_ok, Bool.false_eq_true, if_false, if_true,
        hresume]
      rw [← hattempts, hserved]
      cases course b 1 with
      | cut count => simp
      | fail count =>
          simp only [I2cEvent.isCut_fail, I2cEvent.isOk_fail, Bool.false_eq_true, if_false,
            true_and, false_implies, and_true]
          rw [enterWith_iff h₂ rfl hk, and_iff_right hnone]
      | ok =>
          simp only [I2cEvent.isCut_ok, I2cEvent.isOk_ok, Bool.false_eq_true, if_false, if_true,
            true_and, forall_const]
          rw [hattempts, Option.getD_some, ← hattempts, enterWith_iff h₂ rfl hk]
          exact and_comm

end Resume

/-- A chip that holds a counter and a restore offset. -/
def interruptedChip (attempts offset : U64) : Chip :=
  writeAt (chipWith framKeyEmmcRestoreOffset (framEncodeU64 framKeyEmmcRestoreOffset offset 1))
    (keyOffset framKeyEmmcRecoveryAttempts).toNat
    (framEncodeU64 framKeyEmmcRecoveryAttempts attempts 1) 32

theorem resumeServed_quiet (chip : Chip) : ResumeServed (boardWith chip []) :=
  ⟨rfl, rfl, rfl, rfl, fun _ => rfl⟩

/-- The fourth attempt was interrupted after one chunk, and is resumed. -/
theorem entersCopyAt_fourth :
    EntersCopyAt (0x800 : U64).toNat (boardWith (interruptedChip 4 0x800) []) := by
  have hattempts : keyValue u64Kind framKeyEmmcRecoveryAttempts
      (boardWith (interruptedChip 4 0x800) []).fram = some 4 := by decide +kernel
  have hoffset : keyValue u64Kind framKeyEmmcRestoreOffset
      (boardWith (interruptedChip 4 0x800) []).fram = some 0x800 := by decide +kernel
  rw [entersCopyAt_iff hattempts hoffset (by decide) (by decide)]
  exact ⟨resumeServed_quiet _, fun _ => by decide⟩

theorem not_entersCopyAt_of_none {b b' : Board} {k : Nat} (hrun : enterRestore b = .ok none b') :
    ¬ EntersCopyAt k b := by
  intro henters
  obtain ⟨⟨oldBus, hnone⟩, -⟩ := wp_ok henters hrun
  cases hnone

theorem enterRestore_last :
    (match enterRestore (boardWith (interruptedChip 5 0x800) []) with
      | .ok none _ => true
      | _ => false) = true := by
  decide +kernel

/-- The last attempt the cap admits was interrupted after one chunk, and is not. -/
theorem not_entersCopyAt_last :
    ¬ EntersCopyAt (0x800 : U64).toNat (boardWith (interruptedChip 5 0x800) []) := by
  have hrefused := enterRestore_last
  split at hrefused
  · next b hrun => exact not_entersCopyAt_of_none hrun
  · cases hrefused

/-! ## The counter -/

/-- The attempt counter as `radsat_fram_run_recovery` takes it when the read succeeds. -/
def counter (chip : Chip) : Option U64 :=
  keyValue u64Kind framKeyEmmcRecoveryAttempts chip

/-- The counter was read as `v`, or not read and taken for 0. -/
def ReadAs (chip : Chip) (v : U64) : Prop :=
  counter chip = some v ∨ v = 0

/-- What passing the cap test makes of the counter's slot: a torn version of what it held and
of the next count. -/
def Counted (b b' : Board) : Prop :=
  ∃ v count, ReadAs b.fram v ∧ v < framRecoveryAttemptCap ∧
    slotA b'.fram framKeyEmmcRecoveryAttempts =
      tear (slotA b.fram framKeyEmmcRecoveryAttempts)
        (framEncodeU64 framKeyEmmcRecoveryAttempts (v + 1) 1) count

theorem readAs_of_seen {b : Board} :
    ReadAs b.fram (((seen (keyOffset framKeyEmmcRecoveryAttempts) 32 b).bind
      (framDecode u64Kind framKeyEmmcRecoveryAttempts)).getD 0) := by
  unfold seen
  split
  · change ReadAs b.fram ((counter b.fram).getD 0)
    cases hcounter : counter b.fram with
    | none => exact Or.inr rfl
    | some v => exact Or.inl hcounter
  · exact Or.inr rfl

theorem Counted.kept {b b₁ b' : Board} (h : Counted b b₁)
    (hkept : SlotKept framKeyEmmcRecoveryAttempts b₁ b') : Counted b b' := by
  obtain ⟨v, count, hread, hcap, hslot⟩ := h
  exact ⟨v, count, hread, hcap, Eq.trans hkept hslot⟩

theorem countAttempt_counted (offset : Nat) {v : U64} {b : Board} (hv : ReadAs b.fram v)
    (hcap : v < framRecoveryAttemptCap) :
    wp (countAttempt offset v)
      (fun _ b' => (offset ≠ 0 → SlotKept framKeyEmmcRecoveryAttempts b b') ∧
        (SlotKept framKeyEmmcRecoveryAttempts b b' ∨ Counted b b'))
      (fun _ b' => SlotKept framKeyEmmcRecoveryAttempts b b' ∨ Counted b b') b := by
  have htorn {b' : Board} (h : ∃ count, slotA b'.fram framKeyEmmcRecoveryAttempts =
      tear (slotA b.fram framKeyEmmcRecoveryAttempts)
        (framEncode u64Kind framKeyEmmcRecoveryAttempts (v + 1) 1) count) : Counted b b' := by
    obtain ⟨count, hslot⟩ := h
    exact ⟨v, count, hv, hcap, hslot⟩
  unfold countAttempt
  split
  · next hzero =>
      refine wp_seq (wp_mono (wp_framSetKey_torn u64Kind (v + 1) (by decide) b)
        (fun _ _ h => htorn h) fun _ _ h => Or.inr (htorn h)) ?_
      intro _ b' hcounted
      exact ⟨fun hne => absurd hzero hne, Or.inr hcounted⟩
  · exact ⟨fun _ => SlotKept.refl _ b, Or.inl (SlotKept.refl _ b)⟩

/-- How the counter's slot may change on the way to the copy loop: not at all when the copy
is resumed or refused, and by one count when it starts over. -/
theorem enterWith_spec {oldBus offset : Nat} {v : U64} {b : Board} (hv : ReadAs b.fram v) :
    wp (enterWith oldBus offset v)
      (fun r b' =>
        (r = none → framRecoveryAttemptCap ≤ v) ∧
        ((∀ bus, r ≠ some (bus, 0)) → SlotKept framKeyEmmcRecoveryAttempts b b') ∧
        (SlotKept framKeyEmmcRecoveryAttempts b b' ∨ Counted b b'))
      (fun _ b' => SlotKept framKeyEmmcRecoveryAttempts b b' ∨ Counted b b') b := by
  have hsetBus (oldBus : Nat) :
      Keeps (SlotKept framKeyEmmcRecoveryAttempts) (i2cSetBusNum oldBus) :=
    keeps_i2cSetBusNum oldBus
  have hsetLatch : Keeps (SlotKept framKeyEmmcRecoveryAttempts)
      (framSetBool framKeyEmmcRecoveryNeeded true) :=
    keeps_framSetKey boolKind true (by decide) (by decide) (by decide)
  unfold enterWith
  split
  · next hcap =>
      refine wp_seq (wp_mono (hsetBus oldBus b) (fun _ _ h => h) fun _ _ h => Or.inl h) ?_
      intro _ b' hkept
      exact ⟨fun _ => hcap, fun _ => hkept, Or.inl hkept⟩
  · next hcap =>
      have hv' : v < framRecoveryAttemptCap := BitVec.not_le.mp hcap
      refine wp_seq (wp_mono (countAttempt_counted offset hv hv') (fun _ _ h => h)
        fun _ _ h => h) ?_
      rintro _ b₁ ⟨hkept₁, hcounted₁⟩
      refine wp_seq (wp_mono (hsetLatch b₁) (fun _ _ h => h)
        fun _ _ h => hcounted₁.imp (SlotKept.trans · h) (Counted.kept · h)) ?_
      intro _ b₂ hkept₂
      refine wp_seq (wp_mono (hsetBus oldBus b₂) (fun _ _ h => h)
        fun _ _ h => hcounted₁.imp (SlotKept.trans · (hkept₂.trans h))
          (Counted.kept · (hkept₂.trans h))) ?_
      intro _ b' hkept'
      have hkept := hkept₂.trans hkept'
      refine ⟨nofun, fun hresumed => ?_, hcounted₁.imp (SlotKept.trans · hkept)
        (Counted.kept · hkept)⟩
      have hoffset : offset ≠ 0 := fun hzero => hresumed oldBus (by rw [hzero])
      exact (hkept₁ hoffset).trans hkept

/-- A copy is refused only when the bus cannot be selected or the counter is at the cap. -/
theorem enterRestore_spec (b : Board) :
    wp enterRestore
      (fun r b' =>
        (r = none → b.busFails.headD false = true ∨
          ∃ v, counter b.fram = some v ∧ framRecoveryAttemptCap ≤ v) ∧
        ((∀ bus, r ≠ some (bus, 0)) → SlotKept framKeyEmmcRecoveryAttempts b b') ∧
        (SlotKept framKeyEmmcRecoveryAttempts b b' ∨ Counted b b'))
      (fun _ b' => SlotKept framKeyEmmcRecoveryAttempts b b' ∨ Counted b b') b := by
  unfold enterRestore i2cGetBusNum framReadU64
  simp only [wp_bind, wp_get, wp_pure, wp_i2cSetBusNum_iff]
  split
  · next hfails =>
      exact ⟨fun _ => Or.inl hfails, fun _ => SlotKept.refl _ b, Or.inl (SlotKept.refl _ b)⟩
  · next hselected =>
      simp only [wp_bind, wp_framReadKey_iff]
      split
      · exact Or.inl (SlotKept.refl _ b)
      split
      · exact Or.inl (SlotKept.refl _ b)
      generalize hread : useEvent (useEvent (afterSelect configFramI2cBus b)) = b₂
      have hfram : b₂.fram = b.fram := by rw [← hread]; rfl
      have hsame {b' : Board} (h : Counted b₂ b') : Counted b b' := by
        obtain ⟨v, count, hv, hcap, hslot⟩ := h
        rw [hfram] at hv hslot
        exact ⟨v, count, hv, hcap, hslot⟩
      have hkeep {b' : Board} (h : SlotKept framKeyEmmcRecoveryAttempts b₂ b') :
          SlotKept framKeyEmmcRecoveryAttempts b b' := by
        rw [SlotKept, hfram] at h
        exact h
      have hv : ReadAs b₂.fram (((seen (keyOffset framKeyEmmcRecoveryAttempts) 32
          (useEvent (afterSelect configFramI2cBus b))).bind
            (framDecode u64Kind framKeyEmmcRecoveryAttempts)).getD 0) := by
        rw [hfram]
        exact @readAs_of_seen (useEvent (afterSelect configFramI2cBus b))
      refine wp_mono (enterWith_spec hv) ?_ fun _ b' h => h.imp hkeep hsame
      rintro r b' ⟨hnone, hresumed, hslot⟩
      refine ⟨fun hr => Or.inr ?_, fun hne => hkeep (hresumed hne), hslot.imp hkeep hsame⟩
      have hcap := hnone hr
      rw [hfram] at hv
      rcases hv with hcounter | hzero
      · exact ⟨_, hcounter, hcap⟩
      · rw [hzero] at hcap
        exact absurd hcap (by decide)

end RadsatLinux.UBoot.Attempts
