import RadsatLinux.UBoot.FramMission

/-!
# Recovery at boot

`radsat_fram_recovery_needed` and `radsat_fram_run_recovery` with patches 0017 and 0018
applied.  The load address is one buffer whether it comes from the environment or from
the fallback constant, and console messages are left out.  `Modifies` is the frame
condition of everything here that does not write to the eMMC.
-/

namespace RadsatLinux.UBoot.Recovery

open RadsatLinux.Library.Crash RadsatLinux.Library.BlockDevice
open RadsatLinux.Fram.Record RadsatLinux.Fram.Memory
open RadsatLinux.UBoot.Hardware RadsatLinux.UBoot.FramMission

/-! ## The code -/

section Code

variable (fatFile : Disk → String → Option Disk)

def radsatEmmcProbe : Boot Int := do
  let _ ← mmcDev .emmc
  if ← mmcRescan then return -1
  if !(← fatload fatFile "/kernel") then return 0
  if !(← fatload fatFile "/uImage") then return 0
  return -1

/-- A failed probe latches recovery; otherwise the latch decides. -/
def latchedAfterProbe (probeOk : Bool) : Boot Bool := do
  if !probeOk then
    let _ ← framBumpU64 framKeyTotalBootFails
    let _ ← framSetBool framKeyEmmcRecoveryNeeded true
    return true
  return (← framReadBool framKeyEmmcRecoveryNeeded).getD false

def radsatFramRecoveryNeeded : Boot Bool := do
  let oldBus ← i2cGetBusNum
  if ← i2cSetBusNum configFramI2cBus then return false
  framEnsureLayoutHeader
  let probeOk := (← radsatEmmcProbe fatFile) == 0
  let _ ← framSetBool framKeyLastEmmcProbeOk probeOk
  let needed ← latchedAfterProbe probeOk
  let _ ← i2cSetBusNum oldBus
  return needed

def framRecoveryAttemptCap : U64 := 5

/-- `span`: the sectors the restore copies. -/
def span : Nat := 0x180000

/-- `chunk`: the sectors copied between two checkpoints. -/
def chunk : Nat := 0x800

/-- The offset `radsat_fram_run_recovery` starts from, given what it read. -/
def resumeFrom (offset : Option U64) : Nat :=
  let offset := (offset.getD 0).toNat
  if span ≤ offset then 0 else offset

/-- Only a restore that starts from sector 0 counts as an attempt. -/
def countAttempt (offset : Nat) (attempts : U64) : Boot Unit := do
  if offset = 0 then
    let _ ← framSetU64 framKeyEmmcRecoveryAttempts (attempts + 1)

def checkpoint (oldBus sector : Nat) : Boot Unit := do
  if ← i2cSetBusNum configFramI2cBus then return
  let _ ← framSetU64 framKeyEmmcRestoreOffset (BitVec.ofNat 64 sector)
  let _ ← i2cSetBusNum oldBus

/-- The body of the copy loop; `true` sets `fail`. -/
def copyChunk (oldBus blk n : Nat) : Boot Bool := do
  if ← mmcDev .sd then return true
  if ← mmcRead blk n then return true
  if ← mmcDev .emmc then return true
  if ← mmcWrite blk n then return true
  checkpoint oldBus (blk + n)
  return false

/-- The copy loop from sector `blk` on. -/
def copyFrom (oldBus blk : Nat) : Boot Bool := do
  if blk < span then
    let n := if span < blk + chunk then span - blk else chunk
    if ← copyChunk oldBus blk n then return true
    copyFrom oldBus (blk + chunk)
  else
    return false
termination_by span - blk
decreasing_by
  have hchunk : 0 < chunk := by decide
  omega

def clearRecovery (oldBus : Nat) : Boot Unit := do
  if ← i2cSetBusNum configFramI2cBus then return
  let _ ← framSetBool framKeyEmmcRecoveryNeeded false
  let _ ← framSetBool framKeyLastEmmcProbeOk true
  let _ ← framSetU64 framKeyBootMedia 0
  let _ ← framSetU64 framKeyEmmcRestoreOffset 0
  let _ ← i2cSetBusNum oldBus

def radsatFramRunRecovery : Boot Int := do
  let oldBus ← i2cGetBusNum
  if ← i2cSetBusNum configFramI2cBus then return -1
  let offset := resumeFrom (← framReadU64 framKeyEmmcRestoreOffset)
  let attempts := (← framReadU64 framKeyEmmcRecoveryAttempts).getD 0
  if framRecoveryAttemptCap ≤ attempts then
    let _ ← i2cSetBusNum oldBus
    return -1
  countAttempt offset attempts
  let _ ← framSetBool framKeyEmmcRecoveryNeeded true
  let _ ← i2cSetBusNum oldBus
  let _ ← mmcRescan
  if ← copyFrom oldBus offset then return -1
  if (← radsatEmmcProbe fatFile) != 0 then return -1
  clearRecovery oldBus
  return 0

/-- What `board_late_init` runs of the recovery code: `none` when no recovery is needed,
else what `radsat_fram_run_recovery` returned. -/
def recoveryBoot : Boot (Option Int) := do
  if ← radsatFramRecoveryNeeded fatFile then
    return some (← radsatFramRunRecovery fatFile)
  return none

end Code

/-! ## Frame condition -/

/-- Among what must not change by accident, only the slots of the keys in `keys` have. -/
structure Modifies (keys : List U8) (b b' : Board) : Prop where
  emmc : b'.emmc = b.emmc
  sd : b'.sd = b.sd
  writes : b'.writes = b.writes
  reliable : b.I2cReliable → b'.I2cReliable
  quiet : b.Quiet → b'.Quiet
  slots : ∀ id ∈ recoveryKeys, id ∉ keys → slotA b'.fram id = slotA b.fram id

namespace Modifies

variable {keys keys' : List U8} {b b₁ b₂ : Board}

theorem refl (keys : List U8) (b : Board) : Modifies keys b b :=
  ⟨rfl, rfl, rfl, id, id, fun _ _ _ => rfl⟩

theorem trans (h : Modifies keys b b₁) (h' : Modifies keys b₁ b₂) : Modifies keys b b₂ where
  emmc := h'.emmc.trans h.emmc
  sd := h'.sd.trans h.sd
  writes := h'.writes.trans h.writes
  reliable := h'.reliable ∘ h.reliable
  quiet := h'.quiet ∘ h.quiet
  slots id hid hout := (h'.slots id hid hout).trans (h.slots id hid hout)

theorem mono (h : Modifies keys b b₁) (hsub : keys ⊆ keys') : Modifies keys' b b₁ :=
  { h with slots := fun id hid hout => h.slots id hid fun hmem => hout (hsub hmem) }

theorem keyValue_eq {α : Type} (h : Modifies keys b b₁) (kind : ValueKind α) {id : U8}
    (hid : id ∈ recoveryKeys) (hout : id ∉ keys) :
    keyValue kind id b₁.fram = keyValue kind id b.fram := by
  rw [keyValue, h.slots id hid hout, keyValue]

end Modifies

theorem modifies_of_framOnly {b b' : Board} (h : FramOnly b b') (hfram : b'.fram = b.fram) :
    Modifies [] b b' :=
  ⟨h.emmc, h.sd, h.writes, h.reliable, h.quiet, fun id _ _ => by rw [hfram]⟩

theorem modifies_of_keyWrite {id : U8} {b b' : Board} (h : KeyWrite id b b')
    (hid : id ∈ recoveryKeys) : Modifies [id] b b' where
  emmc := h.framOnly.emmc
  sd := h.framOnly.sd
  writes := h.framOnly.writes
  reliable := h.framOnly.reliable
  quiet := h.framOnly.quiet
  slots _ hother hout := h.slotA_eq (recoveryKey_ne_zero hid) (recoveryKey_ne_zero hother)
    fun heq => hout (List.mem_singleton.mpr heq)

theorem recoveryKey_below_header {id : U8} (hid : id ∈ recoveryKeys) :
    (keyOffset id).toNat + 32 ≤ framLayoutOffset.toNat := by
  have hall : ∀ id ∈ recoveryKeys, (keyOffset id).toNat + 32 ≤ framLayoutOffset.toNat := by
    decide
  exact hall id hid

theorem modifies_of_header {b b' : Board} (h : FramOnly b b')
    (houtside : SameOutside framLayoutOffset.toNat 16 b.fram b'.fram) : Modifies [] b b' :=
  ⟨h.emmc, h.sd, h.writes, h.reliable, h.quiet,
    fun _ hid _ => houtside.readAt_eq (Or.inl (recoveryKey_below_header hid))⟩

/-! ## Specifications of the calls and commands

Each postcondition says what the call can do, that a call on a quiet board succeeds, and
that no power cut comes out of a quiet board. -/

theorem i2cSetBusNum_spec (bus : Nat) (b : Board) :
    wp (i2cSetBusNum bus)
      (fun r b' => Modifies [] b b' ∧ b'.fram = b.fram ∧ (r = false → b'.bus = bus) ∧
        (b.Quiet → r = false))
      (fun _ _ => False) b := by
  unfold wp i2cSetBusNum
  split
  next r b' hrun =>
    cases hfails : b.busFails with
    | nil =>
        rw [hfails] at hrun
        cases hrun
        exact ⟨⟨rfl, rfl, rfl, id, fun hquiet => ⟨rfl, hquiet.2⟩, fun _ _ _ => rfl⟩,
          rfl, fun _ => rfl, fun _ => rfl⟩
    | cons fails rest =>
        rw [hfails] at hrun
        have hnoisy : ¬ b.Quiet := fun hquiet => by
          rw [hquiet.1] at hfails
          cases hfails
        cases fails <;> cases hrun <;>
          exact ⟨⟨rfl, rfl, rfl, id, fun hquiet => absurd hquiet hnoisy, fun _ _ _ => rfl⟩,
            rfl, by simp, fun hquiet => absurd hquiet hnoisy⟩
  next e b' hrun =>
    split at hrun <;> cases hrun

/-- Of what an MMC command can change, only volatile state has changed. -/
structure MmcOnly (b b' : Board) : Prop where
  same : b' = { b with mmcDevice := b'.mmcDevice, load := b'.load, mmc := b'.mmc }
  quiet : b.Quiet → b'.Quiet

namespace MmcOnly

variable {b b₁ b₂ : Board}

theorem trans (h : MmcOnly b b₁) (h' : MmcOnly b₁ b₂) : MmcOnly b b₂ := by
  refine ⟨?_, h'.quiet ∘ h.quiet⟩
  rw [h'.same, h.same]

theorem bus (h : MmcOnly b b₁) : b₁.bus = b.bus := by rw [h.same]
theorem fram (h : MmcOnly b b₁) : b₁.fram = b.fram := by rw [h.same]
theorem emmc (h : MmcOnly b b₁) : b₁.emmc = b.emmc := by rw [h.same]
theorem sd (h : MmcOnly b b₁) : b₁.sd = b.sd := by rw [h.same]
theorem i2c (h : MmcOnly b b₁) : b₁.i2c = b.i2c := by rw [h.same]

theorem modifies (h : MmcOnly b b₁) : Modifies [] b b₁ where
  emmc := h.emmc
  sd := h.sd
  writes := by rw [h.same]
  reliable hrel := by
    rw [Board.I2cReliable, h.i2c]
    exact hrel
  quiet := h.quiet
  slots id _ _ := by rw [h.fram]

end MmcOnly

/-- An MMC command goes well, or some event makes it fail or cuts the power. -/
theorem wp_mmcCommand {f : MmcEvent → Boot Bool} {Q : Bool → Board → Prop}
    {R : PowerCut → Board → Prop} {b : Board}
    (hok : ∀ rest, MmcOnly b { b with mmc := rest } →
      wp (f .ok) Q R { b with mmc := rest })
    (hfail : ∀ left rest, ¬ b.Quiet → MmcOnly b { b with mmc := rest } →
      wp (f (.fail left)) Q R { b with mmc := rest })
    (hcut : ∀ left rest, ¬ b.Quiet → MmcOnly b { b with mmc := rest } →
      wp (f (.cut left)) Q R { b with mmc := rest }) :
    wp (nextMmc >>= f) Q R b := by
  rw [wp_bind]
  cases hmmc : b.mmc with
  | nil =>
      have hrun := hok b.mmc ⟨rfl, id⟩
      unfold wp nextMmc
      rw [hmmc]
      exact hrun
  | cons event rest =>
      have hnoisy : ¬ b.Quiet := by
        intro hquiet
        rw [hquiet.2.2] at hmmc
        cases hmmc
      have honly : MmcOnly b { b with mmc := rest } :=
        ⟨rfl, fun hquiet => absurd hquiet hnoisy⟩
      have hrun : wp (f event) Q R { b with mmc := rest } := by
        cases event with
        | ok => exact hok rest honly
        | fail left => exact hfail left rest hnoisy honly
        | cut left => exact hcut left rest hnoisy honly
      unfold wp nextMmc
      rw [hmmc]
      exact hrun

theorem mmcDev_spec (device : MmcDevice) (b : Board) :
    wp (mmcDev device)
      (fun r b' => MmcOnly b b' ∧ b'.load = b.load ∧ (r = false → b'.mmcDevice = device) ∧
        (b.Quiet → r = false))
      (fun _ b' => ¬ b.Quiet ∧ MmcOnly b b') b := by
  unfold mmcDev
  refine wp_mmcCommand (fun rest honly => ?_) (fun left rest hnoisy honly => ?_)
    fun left rest hnoisy honly => ?_
  · exact ⟨⟨rfl, honly.quiet⟩, rfl, fun _ => rfl, fun _ => rfl⟩
  · exact ⟨honly, rfl, nofun, fun hquiet => absurd hquiet hnoisy⟩
  · exact ⟨hnoisy, honly⟩

theorem mmcRescan_spec (b : Board) :
    wp mmcRescan (fun r b' => MmcOnly b b' ∧ (b.Quiet → r = false))
      (fun _ b' => ¬ b.Quiet ∧ MmcOnly b b') b := by
  unfold mmcRescan
  refine wp_mmcCommand (fun rest honly => ?_) (fun left rest hnoisy honly => ?_)
    fun left rest hnoisy honly => ?_
  · exact ⟨honly, fun _ => rfl⟩
  · exact ⟨honly, fun hquiet => absurd hquiet hnoisy⟩
  · exact ⟨hnoisy, honly⟩

theorem mmcRead_spec (blk n : Nat) (b : Board) :
    wp (mmcRead blk n)
      (fun r b' => MmcOnly b b' ∧
        (r = false → ∀ i, i < n → b'.load i = b.disk b.mmcDevice (blk + i)) ∧
        (b.Quiet → r = false))
      (fun _ b' => ¬ b.Quiet ∧ MmcOnly b b') b := by
  unfold mmcRead
  refine wp_mmcCommand (fun rest honly => ?_) (fun left rest hnoisy honly => ?_)
    fun left rest hnoisy honly => ?_
  · refine ⟨⟨rfl, honly.quiet⟩, fun _ i hi => ?_, fun _ => rfl⟩
    have hlt : i < 0 + n := by omega
    exact if_pos ⟨Nat.zero_le i, hlt⟩
  · exact ⟨⟨rfl, fun hquiet => absurd hquiet hnoisy⟩, nofun, fun hquiet => absurd hquiet hnoisy⟩
  · exact ⟨hnoisy, honly⟩

/-- A write to the eMMC that finished, failed or was cut short. -/
structure EmmcWritten (blk n : Nat) (b b' : Board) : Prop where
  emmc : ∃ data, b'.emmc = overwrite b.emmc blk n data
  sd : b'.sd = b.sd
  fram : b'.fram = b.fram
  writes : b'.writes = ⟨blk, n⟩ :: b.writes
  reliable : b.I2cReliable → b'.I2cReliable
  quiet : b.Quiet → b'.Quiet

theorem emmcWritten_storeSectors {b : Board} (blk n : Nat) (data : Disk) (rest : List MmcEvent)
    (hdevice : b.mmcDevice = .emmc) (honly : MmcOnly b { b with mmc := rest }) :
    wp (storeSectors blk n data)
      (fun _ b' => EmmcWritten blk n b b' ∧ b'.emmc = overwrite b.emmc blk n data)
      (fun _ _ => False) { b with mmc := rest } := by
  unfold storeSectors
  rw [wp_modify, hdevice]
  exact ⟨⟨⟨data, rfl⟩, rfl, rfl, rfl, id, fun hquiet => honly.quiet hquiet⟩, rfl⟩

theorem mmcWrite_spec {b : Board} (blk n : Nat) (hdevice : b.mmcDevice = .emmc) :
    wp (mmcWrite blk n)
      (fun r b' => EmmcWritten blk n b b' ∧
        (r = false → b'.emmc = overwrite b.emmc blk n fun i => b.load (i - blk)) ∧
        (b.Quiet → r = false))
      (fun _ b' => ¬ b.Quiet ∧ EmmcWritten blk n b b') b := by
  unfold mmcWrite
  refine wp_mmcCommand (fun rest honly => ?_) (fun left rest hnoisy honly => ?_)
    fun left rest hnoisy honly => ?_
  · dsimp only
    rw [wp_bind, wp_get]
    refine wp_seq (wp_mono (emmcWritten_storeSectors blk n _ rest hdevice honly)
      (fun _ _ h => h) nofun) ?_
    rintro _ b' ⟨hwritten, hemmc⟩
    exact ⟨hwritten, fun _ => hemmc, fun _ => rfl⟩
  · refine wp_seq (wp_mono (emmcWritten_storeSectors blk n left rest hdevice honly)
      (fun _ _ h => h) nofun) ?_
    rintro _ b' ⟨hwritten, -⟩
    exact ⟨hwritten, nofun, fun hquiet => absurd hquiet hnoisy⟩
  · refine wp_seq (wp_mono (emmcWritten_storeSectors blk n left rest hdevice honly)
      (fun _ _ h => h) nofun) ?_
    rintro _ b' ⟨hwritten, -⟩
    exact ⟨hnoisy, hwritten⟩

section Probe

variable {fatFile : Disk → String → Option Disk}

theorem fatload_spec (file : String) (b : Board) :
    wp (fatload fatFile file)
      (fun r b' => MmcOnly b b' ∧ (b.Quiet → r = (fatFile b.emmc file).isNone))
      (fun _ b' => ¬ b.Quiet ∧ MmcOnly b b') b := by
  unfold fatload
  refine wp_mmcCommand (fun rest honly => ?_) (fun left rest hnoisy honly => ?_)
    fun left rest hnoisy honly => ?_
  · dsimp only
    rw [wp_bind, wp_get]
    cases hfile : fatFile b.emmc file with
    | none => exact ⟨honly, fun _ => rfl⟩
    | some data => exact ⟨⟨rfl, honly.quiet⟩, fun _ => rfl⟩
  · exact ⟨⟨rfl, fun hquiet => absurd hquiet hnoisy⟩, fun hquiet => absurd hquiet hnoisy⟩
  · exact ⟨hnoisy, honly⟩

/-- The first partition holds a kernel image under one of the two names. -/
def HasKernel (fatFile : Disk → String → Option Disk) (disk : Disk) : Prop :=
  (fatFile disk "/kernel").isSome ∨ (fatFile disk "/uImage").isSome

theorem radsatEmmcProbe_spec (b : Board) :
    wp (radsatEmmcProbe fatFile)
      (fun r b' => MmcOnly b b' ∧ (b.Quiet → (r = 0 ↔ HasKernel fatFile b.emmc)))
      (fun _ b' => ¬ b.Quiet ∧ MmcOnly b b') b := by
  unfold radsatEmmcProbe
  refine wp_seq (wp_mono (mmcDev_spec .emmc b) (fun _ _ h => h) fun _ _ h => h) ?_
  rintro - b₁ ⟨honly₁, -⟩
  have noisy {b' : Board} (honly : MmcOnly b b') (hnoisy : ¬ b'.Quiet) : ¬ b.Quiet :=
    fun hquiet => hnoisy (honly.quiet hquiet)
  refine wp_seq (wp_mono (mmcRescan_spec b₁) (fun _ _ h => h)
    fun _ _ h => ⟨noisy honly₁ h.1, honly₁.trans h.2⟩) ?_
  rintro rescan b₂ ⟨honly₂, hrescan⟩
  have hto₂ := honly₁.trans honly₂
  cases rescan with
  | true =>
      refine ⟨hto₂, fun hquiet => ?_⟩
      cases hrescan (honly₁.quiet hquiet)
  | false =>
      refine wp_seq (wp_mono (fatload_spec "/kernel" b₂) (fun _ _ h => h)
        fun _ _ h => ⟨noisy hto₂ h.1, hto₂.trans h.2⟩) ?_
      rintro kernel b₃ ⟨honly₃, hkernel⟩
      have hto₃ := hto₂.trans honly₃
      have hkernel (hquiet : b.Quiet) : kernel = (fatFile b.emmc "/kernel").isNone := by
        rw [hkernel (hto₂.quiet hquiet), hto₂.emmc]
      cases kernel with
      | false =>
          refine ⟨hto₃, fun hquiet => iff_of_true rfl (Or.inl ?_)⟩
          rw [← Option.not_isNone, ← hkernel hquiet]
          rfl
      | true =>
          refine wp_seq (wp_mono (fatload_spec "/uImage" b₃) (fun _ _ h => h)
            fun _ _ h => ⟨noisy hto₃ h.1, hto₃.trans h.2⟩) ?_
          rintro uImage b₄ ⟨honly₄, huImage⟩
          have hto₄ := hto₃.trans honly₄
          have huImage (hquiet : b.Quiet) : uImage = (fatFile b.emmc "/uImage").isNone := by
            rw [huImage (hto₃.quiet hquiet), hto₃.emmc]
          cases uImage with
          | false =>
              refine ⟨hto₄, fun hquiet => iff_of_true rfl (Or.inr ?_)⟩
              rw [← Option.not_isNone, ← huImage hquiet]
              rfl
          | true =>
              refine ⟨hto₄, fun hquiet => iff_of_false (by decide) ?_⟩
              rw [HasKernel, ← Option.not_isNone, ← Option.not_isNone, ← hkernel hquiet,
                ← huImage hquiet]
              decide

end Probe

/-! ## Specifications of the recovery functions -/

/-- `m` modifies at most `keys`, however it ends; it returns with `Q`, and it is cut short
only on a board that is not quiet. -/
def Framed {α : Type} (keys : List U8) (m : Boot α) (Q : α → Board → Prop) (b : Board) : Prop :=
  wp m (fun r b' => Modifies keys b b' ∧ Q r b') (fun _ b' => ¬ b.Quiet ∧ Modifies keys b b') b

section Framed

variable {α β : Type} {keys keys' : List U8} {b : Board} {m : Boot α} {f : α → Boot β}
  {Q Q' : α → Board → Prop} {P : β → Board → Prop}

theorem Framed.mono (h : Framed keys m Q b) (hsub : keys ⊆ keys')
    (hQ : ∀ r b', Q r b' → Q' r b') : Framed keys' m Q' b :=
  wp_mono h (fun r b' h => ⟨h.1.mono hsub, hQ r b' h.2⟩) fun _ _ h => ⟨h.1, h.2.mono hsub⟩

theorem Framed.bind (hm : Framed keys m Q b) (hsub : keys ⊆ keys')
    (hf : ∀ r b₁, Modifies keys b b₁ → Q r b₁ → Framed keys' (f r) P b₁) :
    Framed keys' (m >>= f) P b := by
  refine wp_seq (wp_mono hm (fun _ _ h => h) fun _ _ h => ⟨h.1, h.2.mono hsub⟩) ?_
  rintro r b₁ ⟨hmod, hQ⟩
  refine wp_mono (hf r b₁ hmod hQ) ?_ ?_
  · rintro r' b' ⟨hmod', hP⟩
    exact ⟨(hmod.mono hsub).trans hmod', hP⟩
  · rintro e b' ⟨hnoisy, hmod'⟩
    exact ⟨fun hquiet => hnoisy (hmod.quiet hquiet), (hmod.mono hsub).trans hmod'⟩

theorem framed_pure (keys : List U8) {r : α} (hQ : Q r b) : Framed keys (pure r) Q b :=
  ⟨.refl keys b, hQ⟩

theorem framSetKey_framed (kind : ValueKind α) {id : U8} (value : α)
    (hid : id ∈ recoveryKeys) (hbus : b.bus = configFramI2cBus) (hrel : b.I2cReliable) :
    Framed [id] (framSetKey kind id value)
      (fun _ b' => b'.bus = b.bus ∧ keyValue kind id b'.fram = some value) b := by
  refine wp_mono (framSetKey_spec kind value (recoveryKey_ne_zero hid) hbus hrel) ?_ ?_
  · rintro r b' ⟨-, hwrite, hvalue⟩
    exact ⟨modifies_of_keyWrite hwrite hid, hwrite.framOnly.bus, hvalue⟩
  · rintro e b' ⟨hnoisy, hwrite, -⟩
    exact ⟨hnoisy, modifies_of_keyWrite hwrite hid⟩

theorem framReadKey_framed (kind : ValueKind α) (id : U8)
    (hbus : b.bus = configFramI2cBus) (hrel : b.I2cReliable) :
    Framed [] (framReadKey kind id)
      (fun r b' => r = keyValue kind id b.fram ∧ b'.bus = b.bus ∧ b'.fram = b.fram) b := by
  refine wp_mono (framReadKey_spec kind id hbus hrel) ?_ ?_
  · rintro r b' ⟨hr, honly, hfram⟩
    exact ⟨modifies_of_framOnly honly hfram, hr, honly.bus, hfram⟩
  · rintro e b' ⟨-, hnoisy, honly, hfram⟩
    exact ⟨hnoisy, modifies_of_framOnly honly hfram⟩

theorem framEnsureLayoutHeader_framed (hbus : b.bus = configFramI2cBus)
    (hrel : b.I2cReliable) :
    Framed [] framEnsureLayoutHeader (fun _ b' => b'.bus = b.bus) b := by
  refine wp_mono (framEnsureLayoutHeader_spec hbus hrel) ?_ ?_
  · rintro _ b' ⟨honly, houtside⟩
    exact ⟨modifies_of_header honly houtside, honly.bus⟩
  · rintro _ b' ⟨hnoisy, honly, houtside⟩
    exact ⟨hnoisy, modifies_of_header honly houtside⟩

theorem i2cGetBusNum_framed (b : Board) : Framed [] i2cGetBusNum (fun _ b' => b = b') b :=
  ⟨.refl [] b, rfl⟩

theorem i2cSetBusNum_framed (bus : Nat) (b : Board) :
    Framed [] (i2cSetBusNum bus)
      (fun r b' => (r = false → b'.bus = bus) ∧ (b.Quiet → r = false)) b :=
  wp_mono (i2cSetBusNum_spec bus b) (fun _ _ h => ⟨h.1, h.2.2⟩) nofun

theorem mmcRescan_framed (b : Board) : Framed [] mmcRescan (fun _ _ => True) b :=
  wp_mono (mmcRescan_spec b) (fun _ _ h => ⟨h.1.modifies, trivial⟩)
    fun _ _ h => ⟨h.1, h.2.modifies⟩

theorem radsatEmmcProbe_framed (fatFile : Disk → String → Option Disk) (b : Board) :
    Framed [] (radsatEmmcProbe fatFile)
      (fun r b' => b'.bus = b.bus ∧ (b.Quiet → (r = 0 ↔ HasKernel fatFile b.emmc))) b :=
  wp_mono (radsatEmmcProbe_spec b) (fun _ _ h => ⟨h.1.modifies, h.1.bus, h.2⟩)
    fun _ _ h => ⟨h.1, h.2.modifies⟩

end Framed

theorem framBumpU64_framed {b : Board} {id : U8} (hid : id ∈ recoveryKeys)
    (hbus : b.bus = configFramI2cBus) (hrel : b.I2cReliable) :
    Framed [id] (framBumpU64 id) (fun _ b' => b'.bus = b.bus) b := by
  refine (framReadKey_framed u64Kind id hbus hrel).bind (by simp) ?_
  rintro r b₁ hmod ⟨-, hbus₁, -⟩
  refine (framSetKey_framed u64Kind _ hid (hbus₁.trans hbus) (hmod.reliable hrel)).mono
    (List.Subset.refl _) ?_
  rintro _ b' ⟨hbus', -⟩
  exact hbus'.trans hbus₁

theorem latchedAfterProbe_framed {b : Board} (probeOk : Bool)
    (hbus : b.bus = configFramI2cBus) (hrel : b.I2cReliable) :
    Framed [framKeyTotalBootFails, framKeyEmmcRecoveryNeeded] (latchedAfterProbe probeOk)
      (fun r _ => r = (!probeOk ||
        (keyValue boolKind framKeyEmmcRecoveryNeeded b.fram).getD false)) b := by
  unfold latchedAfterProbe
  cases probeOk with
  | false =>
      refine (framBumpU64_framed (by decide) hbus hrel).bind (by simp) ?_
      intro _ b₁ hmod hbus₁
      refine (framSetKey_framed boolKind true (by decide) (hbus₁.trans hbus)
        (hmod.reliable hrel)).bind (by simp) ?_
      rintro _ b₂ - -
      exact framed_pure _ rfl
  | true =>
      refine (framReadKey_framed boolKind _ hbus hrel).bind (by simp) ?_
      rintro r b₁ - ⟨hr, -⟩
      exact framed_pure _ (by rw [hr]; rfl)

/-- `radsat_fram_recovery_needed` touches keys 8, 9 and 12; on a quiet board it asks for
recovery when the probe finds no kernel or the latch reads true. -/
theorem radsatFramRecoveryNeeded_framed (fatFile : Disk → String → Option Disk) {b : Board}
    (hrel : b.I2cReliable) :
    Framed [framKeyTotalBootFails, framKeyEmmcRecoveryNeeded, framKeyLastEmmcProbeOk]
      (radsatFramRecoveryNeeded fatFile)
      (fun r _ => b.Quiet → (¬ HasKernel fatFile b.emmc ∨
        keyValue boolKind framKeyEmmcRecoveryNeeded b.fram = some true) → r = true) b := by
  unfold radsatFramRecoveryNeeded
  refine (i2cGetBusNum_framed b).bind (by simp) ?_
  rintro oldBus _ - rfl
  refine (i2cSetBusNum_framed configFramI2cBus b).bind (by simp) ?_
  rintro busFails b₁ hmod₁ ⟨hbus₁, hset⟩
  cases busFails with
  | true => exact framed_pure _ fun hquiet => absurd (hset hquiet) nofun
  | false =>
      have hbus₁ := hbus₁ rfl
      refine (framEnsureLayoutHeader_framed hbus₁ (hmod₁.reliable hrel)).bind (by simp) ?_
      intro _ b₂ hmod₂ hbus₂
      have hmod₂ := hmod₁.trans hmod₂
      refine (radsatEmmcProbe_framed fatFile b₂).bind (by simp) ?_
      rintro probe b₃ hmod₃ ⟨hbus₃, hprobe⟩
      have hprobe (hquiet : b.Quiet) : probe = 0 ↔ HasKernel fatFile b.emmc := by
        rw [hprobe (hmod₂.quiet hquiet), hmod₂.emmc]
      have hmod₃ := hmod₂.trans hmod₃
      have hbus₃ : b₃.bus = configFramI2cBus := (hbus₃.trans hbus₂).trans hbus₁
      refine (framSetKey_framed boolKind (probe == 0) (by decide) hbus₃
        (hmod₃.reliable hrel)).bind (by simp) ?_
      rintro _ b₄ hmod₄ ⟨hbus₄, -⟩
      have hmod₄ : Modifies [framKeyLastEmmcProbeOk] b b₄ := (hmod₃.mono (by simp)).trans hmod₄
      refine (latchedAfterProbe_framed (probe == 0) (hbus₄.trans hbus₃)
        (hmod₄.reliable hrel)).bind (by simp) ?_
      rintro needed b₅ - hneeded
      refine (i2cSetBusNum_framed oldBus b₅).bind (by simp) ?_
      rintro _ b₆ - -
      refine framed_pure _ fun hquiet hwanted => ?_
      rw [hneeded, hmod₄.keyValue_eq boolKind (by decide) (by decide)]
      rcases hwanted with hnone | hlatch
      · have hne : probe ≠ 0 := fun heq => hnone ((hprobe hquiet).mp heq)
        simp [hne]
      · simp [hlatch]

end RadsatLinux.UBoot.Recovery
