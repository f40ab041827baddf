import RadsatLinux.UBoot.Recovery

/-!
# The restore under power cuts

`CopiedTo` is the invariant of a boot that may restore the eMMC: the first sectors of the
eMMC agree with the SD card up to the position of the copy, and the offset the next boot
would resume from is no further on.  Each step of the copy keeps it however the step
ends, so a boot does, and so does every run of boots.  The agreement is up to a reflexive
relation `r` and below a bound `bound`, so that the same run lemma serves an exact copy and
one whose disk signature is written separately.
-/

namespace RadsatLinux.UBoot.RestoreSafety

open RadsatLinux.Library.Crash RadsatLinux.Library.BlockDevice
open RadsatLinux.Fram.Record RadsatLinux.Fram.Memory
open RadsatLinux.UBoot.Hardware RadsatLinux.UBoot.FramMission RadsatLinux.UBoot.Recovery

/-- The sector a restore would start from. -/
def resumeOffset (chip : Chip) : Nat :=
  resumeFrom (keyValue u64Kind framKeyEmmcRestoreOffset chip)

theorem resumeFrom_none : resumeFrom none = 0 := by decide

theorem resumeFrom_le (offset : U64) : resumeFrom (some offset) ≤ offset.toNat := by
  simp only [resumeFrom, Option.getD_some]
  split <;> omega

theorem resumeFrom_lt (offset : Option U64) : resumeFrom offset < span := by
  have hspan : 0 < span := by decide
  simp only [resumeFrom]
  split <;> omega

theorem resumeFrom_sector {sector : Nat} (hsector : sector ≤ span) :
    resumeFrom (some (BitVec.ofNat 64 sector)) ≤ sector := by
  have hspan : span < 2 ^ 64 := by decide
  have hle := resumeFrom_le (BitVec.ofNat 64 sector)
  rwa [BitVec.toNat_ofNat, Nat.mod_eq_of_lt (by omega)] at hle

variable {r : Nat → Sector → Sector → Prop} {bound : Nat} {d : Durable}

/-! ## Invariant -/

/-- A board that was powered on with durable data `d` and has copied up to sector `blk`. -/
structure CopiedTo (r : Nat → Sector → Sector → Prop) (bound : Nat) (d : Durable)
    (blk : Nat) (b : Board) : Prop where
  sd : b.sd = d.sd
  above : ∀ i, span ≤ i → b.emmc i = d.emmc i
  writes : ∀ w ∈ b.writes, w.first + w.count ≤ span
  reliable : b.I2cReliable
  agree : AgreeBelow r (min blk bound) b.emmc b.sd
  resume : resumeOffset b.fram ≤ blk

/-- A board on which a restore may be resumed. -/
def Safe (r : Nat → Sector → Sector → Prop) (bound : Nat) (d : Durable) (b : Board) : Prop :=
  CopiedTo r bound d (resumeOffset b.fram) b

namespace CopiedTo

variable {blk n : Nat} {keys : List U8} {b b' : Board}

theorem reposition {blk' : Nat} (h : CopiedTo r bound d blk b)
    (hmin : min blk' bound ≤ min blk bound) (hresume : resumeOffset b.fram ≤ blk') :
    CopiedTo r bound d blk' b :=
  { h with agree := h.agree.anti hmin, resume := hresume }

theorem safe (h : CopiedTo r bound d blk b) : Safe r bound d b :=
  h.reposition (by have := h.resume; omega) (Nat.le_refl _)

theorem modifies_offset (h : CopiedTo r bound d blk b) (hmod : Modifies keys b b')
    (hresume : resumeOffset b'.fram ≤ blk) : CopiedTo r bound d blk b' where
  sd := hmod.sd.trans h.sd
  above i hi := by
    rw [hmod.emmc]
    exact h.above i hi
  writes := by
    rw [hmod.writes]
    exact h.writes
  reliable := hmod.reliable h.reliable
  agree := by
    rw [hmod.emmc, hmod.sd]
    exact h.agree
  resume := hresume

theorem modifies (h : CopiedTo r bound d blk b) (hmod : Modifies keys b b')
    (hout : framKeyEmmcRestoreOffset ∉ keys) : CopiedTo r bound d blk b' := by
  refine h.modifies_offset hmod ?_
  rw [resumeOffset, hmod.keyValue_eq u64Kind (by decide) hout]
  exact h.resume

/-- A write at the position of the copy may leave anything in its range. -/
theorem emmcWritten (h : CopiedTo r bound d blk b) (hwritten : EmmcWritten blk n b b')
    (hspan : blk + n ≤ span) : CopiedTo r bound d blk b' := by
  obtain ⟨data, hemmc⟩ := hwritten.emmc
  refine ⟨hwritten.sd.trans h.sd, ?_, ?_, hwritten.reliable h.reliable, ?_, ?_⟩
  · intro i hi
    rw [hemmc, overwrite_outside (Or.inr (Nat.le_trans hspan hi))]
    exact h.above i hi
  · rw [hwritten.writes]
    intro w hw
    rcases List.mem_cons.mp hw with rfl | hw
    · exact hspan
    · exact h.writes w hw
  · rw [hemmc, hwritten.sd]
    exact h.agree.overwrite_above (Nat.min_le_left _ _) data
  · rw [resumeOffset, hwritten.fram]
    exact h.resume

/-- A chunk taken from the SD card moves the position on. -/
theorem advance (hr : ∀ i x, r i x x) (h : CopiedTo r bound d blk b)
    (hwritten : EmmcWritten blk n b b') (hspan : blk + n ≤ span)
    (hdata : b'.emmc = overwrite b.emmc blk n b.sd) : CopiedTo r bound d (blk + n) b' := by
  have hkept := h.emmcWritten hwritten hspan
  refine { hkept with agree := ?_, resume := Nat.le_add_right_of_le hkept.resume }
  by_cases hbelow : blk ≤ bound
  · have hprefix : AgreeBelow r blk b.emmc b.sd := by
      simpa only [Nat.min_eq_left hbelow] using h.agree
    have hcopied : AgreeBelow r (blk + n) b'.emmc b'.sd := by
      rw [hdata, hwritten.sd]
      exact hprefix.copy_chunk hr
    exact hcopied.anti (Nat.min_le_left _ _)
  · exact hkept.agree.anti (by omega)

end CopiedTo

/-! ## One step of the copy -/

/-- `m` returns with `Q`, or is cut short on a board that is not quiet and leaves one on
which the restore may be resumed. -/
def Restoring {α : Type} (r : Nat → Sector → Sector → Prop) (bound : Nat) (d : Durable)
    (m : Boot α) (Q : α → Board → Prop) (b : Board) : Prop :=
  wp m (fun a b' => (b.Quiet → b'.Quiet) ∧ Q a b')
    (fun e b' => ¬ b.Quiet ∧ (e.Detected → Safe r bound d b')) b

section Restoring

variable {α β : Type} {b : Board} {m : Boot α} {f : α → Boot β} {Q Q' : α → Board → Prop}
  {P : β → Board → Prop} {blk : Nat} {keys : List U8}

theorem Restoring.bind (hm : Restoring r bound d m Q b)
    (hf : ∀ a b₁, (b.Quiet → b₁.Quiet) → Q a b₁ → Restoring r bound d (f a) P b₁) :
    Restoring r bound d (m >>= f) P b := by
  refine wp_seq hm ?_
  rintro a b₁ ⟨hquiet₁, hQ⟩
  refine wp_mono (hf a b₁ hquiet₁ hQ) ?_ ?_
  · rintro a' b' ⟨hquiet', hP⟩
    exact ⟨hquiet' ∘ hquiet₁, hP⟩
  · rintro e b' ⟨hnoisy, hsafe⟩
    exact ⟨fun hquiet => hnoisy (hquiet₁ hquiet), hsafe⟩

theorem Restoring.mono (h : Restoring r bound d m Q b)
    (hQ : ∀ a b', (b.Quiet → b'.Quiet) → Q a b' → Q' a b') : Restoring r bound d m Q' b :=
  wp_mono h (fun a b' h => ⟨h.1, hQ a b' h.1 h.2⟩) fun _ _ h => h

theorem restoring_pure {a : α} (hQ : Q a b) : Restoring r bound d (pure a) Q b :=
  ⟨id, hQ⟩

/-- What does not touch the saved offset keeps the invariant. -/
theorem CopiedTo.framed (h : CopiedTo r bound d blk b) (hm : Framed keys m Q b)
    (hout : framKeyEmmcRestoreOffset ∉ keys) :
    Restoring r bound d m
      (fun a b' => CopiedTo r bound d blk b' ∧ Modifies keys b b' ∧ Q a b') b :=
  wp_mono hm (fun _ _ hdone => ⟨hdone.1.quiet, h.modifies hdone.1 hout, hdone⟩)
    fun _ _ hcut => ⟨hcut.1, fun _ => (h.modifies hcut.2 hout).safe⟩

theorem CopiedTo.mmcOnly (h : CopiedTo r bound d blk b)
    (hm : wp m (fun a b' => MmcOnly b b' ∧ Q a b') (fun _ b' => ¬ b.Quiet ∧ MmcOnly b b') b) :
    Restoring r bound d m (fun a b' => CopiedTo r bound d blk b' ∧ MmcOnly b b' ∧ Q a b') b :=
  wp_mono hm (fun _ _ hdone => ⟨hdone.1.quiet, h.modifies hdone.1.modifies (by simp), hdone⟩)
    fun _ _ hcut => ⟨hcut.1, fun _ => (h.modifies hcut.2.modifies (by simp)).safe⟩

end Restoring

/-- Saving an offset no further on than the position of the copy. -/
theorem setRestoreOffset_spec {b : Board} {blk : Nat} {value : U64}
    (hvalue : resumeFrom (some value) ≤ blk) (h : CopiedTo r bound d blk b)
    (hbus : b.bus = configFramI2cBus) :
    Restoring r bound d (framSetU64 framKeyEmmcRestoreOffset value)
      (fun _ b' => CopiedTo r bound d blk b' ∧ Modifies [framKeyEmmcRestoreOffset] b b' ∧
        keyValue u64Kind framKeyEmmcRestoreOffset b'.fram = some value) b := by
  refine wp_mono (framSetKey_spec u64Kind value (recoveryKey_ne_zero (by decide)) hbus
    h.reliable) ?_ ?_
  · rintro _ b' ⟨-, hwrite, hread⟩
    have hmod : Modifies [framKeyEmmcRestoreOffset] b b' := modifies_of_keyWrite hwrite (by decide)
    refine ⟨hmod.quiet, h.modifies_offset hmod ?_, hmod, hread⟩
    rw [resumeOffset, hread]
    exact hvalue
  · rintro e b' ⟨hnoisy, hwrite, hread⟩
    refine ⟨hnoisy, fun hdetected => ?_⟩
    refine (h.modifies_offset (modifies_of_keyWrite hwrite (by decide)) ?_).safe
    -- The slot holds the old offset, the new one, or a record that is not read.
    rcases hread hdetected with hold | hnew | hnone
    · rw [resumeOffset, hold]
      exact h.resume
    · rw [resumeOffset, hnew]
      exact hvalue
    · rw [resumeOffset, hnone, resumeFrom_none]
      exact Nat.zero_le _

theorem checkpoint_spec {b : Board} (oldBus : Nat) {sector : Nat} (hsector : sector ≤ span)
    (h : CopiedTo r bound d sector b) :
    Restoring r bound d (checkpoint oldBus sector)
      (fun _ b' => CopiedTo r bound d sector b') b := by
  unfold checkpoint
  refine (h.framed (i2cSetBusNum_framed configFramI2cBus b) (by simp)).bind ?_
  rintro busFails b₁ - ⟨h₁, -, hbus₁, -⟩
  cases busFails with
  | true => exact restoring_pure h₁
  | false =>
      refine (setRestoreOffset_spec (resumeFrom_sector hsector) h₁ (hbus₁ rfl)).bind ?_
      rintro _ b₂ - ⟨h₂, -⟩
      refine (h₂.framed (i2cSetBusNum_framed oldBus b₂) (by simp)).bind ?_
      rintro _ b₃ - ⟨h₃, -⟩
      exact restoring_pure h₃

/-- A chunk that is copied moves the position on.  However else the body of the loop ends,
the restore may be resumed. -/
theorem copyChunk_spec (hr : ∀ i x, r i x x) {b : Board} (oldBus : Nat) {blk n : Nat}
    (hspan : blk + n ≤ span) (h : CopiedTo r bound d blk b) :
    Restoring r bound d (copyChunk oldBus blk n)
      (fun fail b' => (fail = false → CopiedTo r bound d (blk + n) b') ∧ Safe r bound d b' ∧
        (b.Quiet → fail = false)) b := by
  unfold copyChunk
  refine (h.mmcOnly (mmcDev_spec .sd b)).bind ?_
  rintro fail b₁ hquiet₁ ⟨h₁, -, -, hdevice₁, hdev⟩
  cases fail with
  | true => exact restoring_pure ⟨nofun, h₁.safe, fun hquiet => hdev hquiet⟩
  | false =>
  refine (h₁.mmcOnly (mmcRead_spec blk n b₁)).bind ?_
  rintro fail b₂ hquiet₂ ⟨h₂, honly₂, hload, hread⟩
  cases fail with
  | true => exact restoring_pure ⟨nofun, h₂.safe, fun hquiet => hread (hquiet₁ hquiet)⟩
  | false =>
  have hquiet₂ := hquiet₂ ∘ hquiet₁
  refine (h₂.mmcOnly (mmcDev_spec .emmc b₂)).bind ?_
  rintro fail b₃ hquiet₃ ⟨h₃, honly₃, hload₃, hdevice₃, hdev⟩
  cases fail with
  | true => exact restoring_pure ⟨nofun, h₃.safe, fun hquiet => hdev (hquiet₂ hquiet)⟩
  | false =>
  have hquiet₃ := hquiet₃ ∘ hquiet₂
  refine wp_seq (wp_mono (mmcWrite_spec blk n (hdevice₃ rfl)) (fun _ _ h => h)
    fun _ _ h => ⟨h.1, fun _ => (h₃.emmcWritten h.2 hspan).safe⟩) ?_
  rintro fail b₄ ⟨hwritten, hdata, hwrite⟩
  cases fail with
  | true =>
      exact ⟨hwritten.quiet, nofun, (h₃.emmcWritten hwritten hspan).safe,
        fun hquiet => hwrite (hquiet₃ hquiet)⟩
  | false =>
  -- The buffer holds the chunk of the SD card.
  have hsd : b₄.emmc = overwrite b₃.emmc blk n b₃.sd := by
    rw [hdata rfl]
    refine overwrite_congr fun i hlow hhigh => ?_
    rw [hload₃, hload rfl _ (by omega), hdevice₁ rfl, Nat.add_sub_cancel' hlow, honly₃.sd,
      honly₂.sd]
    rfl
  have h₄ := h₃.advance hr hwritten hspan hsd
  refine wp_mono ((checkpoint_spec oldBus hspan h₄).bind (f := fun _ => pure false)
    (P := fun fail b' => fail = false ∧ CopiedTo r bound d (blk + n) b')
    fun _ _ _ h₅ => restoring_pure ⟨rfl, h₅⟩) ?_ ?_
  · rintro fail b₅ ⟨hquiet₅, rfl, h₅⟩
    exact ⟨hquiet₅ ∘ hwritten.quiet, fun _ => h₅, h₅.safe, fun _ => rfl⟩
  · rintro e b₅ ⟨hnoisy, hsafe⟩
    exact ⟨fun hquiet => hnoisy (hwritten.quiet hquiet), hsafe⟩

/-! ## The whole restore -/

/-- The copy loop, by induction on its position. -/
theorem copyFrom_spec (hr : ∀ i x, r i x x) (hbound : bound ≤ span) (oldBus blk : Nat)
    {b : Board} (h : CopiedTo r bound d blk b) :
    Restoring r bound d (copyFrom oldBus blk)
      (fun fail b' => (fail = false → CopiedTo r bound d span b') ∧ Safe r bound d b' ∧
        (b.Quiet → fail = false)) b := by
  induction blk using copyFrom.induct generalizing b with
  | case1 blk hlt ih =>
      rw [copyFrom, if_pos hlt]
      dsimp only
      generalize hn : (if span < blk + chunk then span - blk else chunk) = n
      have hlast : n ≤ chunk ∧ blk + n ≤ span ∧ (n = chunk ∨ blk + n = span) := by
        rw [← hn]
        split <;> omega
      refine (copyChunk_spec hr oldBus hlast.2.1 h).bind ?_
      rintro fail b₁ hquiet₁ ⟨hcopied, hsafe, hfail⟩
      cases fail with
      | true => exact restoring_pure ⟨nofun, hsafe, hfail⟩
      | false =>
          have h₁ : CopiedTo r bound d (blk + chunk) b₁ := by
            have hcopied := hcopied rfl
            have hresume := hcopied.resume
            exact hcopied.reposition (by omega) (by omega)
          refine (ih h₁).mono ?_
          rintro fail b₂ - ⟨hdone, hsafe₂, hfail₂⟩
          exact ⟨hdone, hsafe₂, fun hquiet => hfail₂ (hquiet₁ hquiet)⟩
  | case2 blk hge =>
      rw [copyFrom, if_neg hge]
      have hspan : CopiedTo r bound d span b :=
        h.reposition (by omega) (Nat.le_of_lt (resumeFrom_lt _))
      exact restoring_pure ⟨fun _ => hspan, h.safe, fun _ => rfl⟩

/-- What the recovery keys say once a restore is complete. -/
structure Cleared (chip : Chip) : Prop where
  latch : keyValue boolKind framKeyEmmcRecoveryNeeded chip = some false
  probeOk : keyValue boolKind framKeyLastEmmcProbeOk chip = some true
  media : keyValue u64Kind framKeyBootMedia chip = some 0
  offset : keyValue u64Kind framKeyEmmcRestoreOffset chip = some 0

theorem clearRecovery_spec {b : Board} (oldBus : Nat) {blk : Nat}
    (h : CopiedTo r bound d blk b) :
    Restoring r bound d (clearRecovery oldBus)
      (fun _ b' => CopiedTo r bound d blk b' ∧ (b.Quiet → Cleared b'.fram)) b := by
  unfold clearRecovery
  refine (h.framed (i2cSetBusNum_framed configFramI2cBus b) (by simp)).bind ?_
  rintro busFails b₁ - ⟨h₁, -, hbus₁, hset₁⟩
  cases busFails with
  | true => exact restoring_pure ⟨h₁, fun hquiet => absurd (hset₁ hquiet) nofun⟩
  | false =>
  have hbus₁ := hbus₁ rfl
  refine (h₁.framed (framSetKey_framed boolKind false (by decide) hbus₁ h₁.reliable)
    (by decide)).bind ?_
  rintro _ b₂ - ⟨h₂, -, hbus₂, hlatch⟩
  have hbus₂ := hbus₂.trans hbus₁
  refine (h₂.framed (framSetKey_framed boolKind true (by decide) hbus₂ h₂.reliable)
    (by decide)).bind ?_
  rintro _ b₃ - ⟨h₃, hmod₃, hbus₃, hprobeOk⟩
  have hbus₃ := hbus₃.trans hbus₂
  refine (h₃.framed (framSetKey_framed u64Kind 0 (by decide) hbus₃ h₃.reliable)
    (by decide)).bind ?_
  rintro _ b₄ - ⟨h₄, hmod₄, hbus₄, hmedia⟩
  have hzero : resumeFrom (some 0) ≤ blk := Nat.zero_le blk
  refine (setRestoreOffset_spec hzero h₄ (hbus₄.trans hbus₃)).bind ?_
  rintro _ b₅ - ⟨h₅, hmod₅, hoffset⟩
  refine (h₅.framed (i2cSetBusNum_framed oldBus b₅) (by simp)).bind ?_
  rintro _ b₆ - ⟨h₆, hmod₆, -⟩
  refine restoring_pure ⟨h₆, fun _ => ⟨?_, ?_, ?_, ?_⟩⟩
  · rw [hmod₆.keyValue_eq _ (by decide) (by decide), hmod₅.keyValue_eq _ (by decide) (by decide),
      hmod₄.keyValue_eq _ (by decide) (by decide), hmod₃.keyValue_eq _ (by decide) (by decide)]
    exact hlatch
  · rw [hmod₆.keyValue_eq _ (by decide) (by decide), hmod₅.keyValue_eq _ (by decide) (by decide),
      hmod₄.keyValue_eq _ (by decide) (by decide)]
    exact hprobeOk
  · rw [hmod₆.keyValue_eq _ (by decide) (by decide), hmod₅.keyValue_eq _ (by decide) (by decide)]
    exact hmedia
  · rw [hmod₆.keyValue_eq _ (by decide) (by decide)]
    exact hoffset

theorem CopiedTo.complete {b : Board} (hbound : bound ≤ span) (h : CopiedTo r bound d span b) :
    AgreeBelow r bound b.emmc b.sd := by
  simpa only [Nat.min_eq_right hbound] using h.agree

/-- There are attempts left, and an eMMC restored from the SD card passes the probe. -/
structure Restorable (r : Nat → Sector → Sector → Prop) (bound : Nat)
    (fatFile : Disk → String → Option Disk) (d : Durable) (chip : Chip) : Prop where
  attempts : (keyValue u64Kind framKeyEmmcRecoveryAttempts chip).getD 0 < framRecoveryAttemptCap
  kernel : ∀ emmc, AgreeBelow r bound emmc d.sd → (∀ i, span ≤ i → emmc i = d.emmc i) →
    HasKernel fatFile emmc

theorem countAttempt_framed {b : Board} (offset : Nat) (attempts : U64)
    (hbus : b.bus = configFramI2cBus) (hrel : b.I2cReliable) :
    Framed [framKeyEmmcRecoveryAttempts] (countAttempt offset attempts)
      (fun _ b' => b'.bus = b.bus) b := by
  unfold countAttempt
  by_cases hzero : offset = 0
  · rw [if_pos hzero]
    refine (framSetKey_framed u64Kind _ (by decide) hbus hrel).bind (by simp) ?_
    rintro _ b₁ - ⟨hbus₁, -⟩
    exact framed_pure _ hbus₁
  · rw [if_neg hzero]
    exact framed_pure _ rfl

theorem radsatFramRunRecovery_spec (hr : ∀ i x, r i x x) (hbound : bound ≤ span)
    (fatFile : Disk → String → Option Disk) {b : Board} (h : Safe r bound d b) :
    Restoring r bound d (radsatFramRunRecovery fatFile)
      (fun ret b' => Safe r bound d b' ∧ (ret = 0 → AgreeBelow r bound b'.emmc b'.sd) ∧
        (b.Quiet → Restorable r bound fatFile d b.fram → ret = 0 ∧ Cleared b'.fram)) b := by
  unfold radsatFramRunRecovery
  refine (h.framed (i2cGetBusNum_framed b) (by simp)).bind ?_
  rintro oldBus _ - ⟨-, -, rfl⟩
  refine (h.framed (i2cSetBusNum_framed configFramI2cBus b) (by simp)).bind ?_
  rintro busFails b₁ - ⟨h₁, hmod₁, hbus₁, hset₁⟩
  cases busFails with
  | true =>
      exact restoring_pure ⟨h₁.safe, nofun, fun hquiet => absurd (hset₁ hquiet) nofun⟩
  | false =>
  have hbus₁ := hbus₁ rfl
  refine (h₁.framed (framReadKey_framed u64Kind framKeyEmmcRestoreOffset hbus₁ h₁.reliable)
    (by simp)).bind ?_
  rintro saved b₂ hquiet₂ ⟨h₂, hmod₂, hsaved, hbus₂, -⟩
  have hoffset : resumeFrom saved = resumeOffset b.fram := by
    rw [hsaved, hmod₁.keyValue_eq _ (by decide) (by simp), resumeOffset]
  have hbus₂ := hbus₂.trans hbus₁
  refine (h₂.framed (framReadKey_framed u64Kind framKeyEmmcRecoveryAttempts hbus₂ h₂.reliable)
    (by simp)).bind ?_
  rintro tried b₃ hquiet₃ ⟨h₃, hmod₃, htried, hbus₃, -⟩
  have htried : tried = keyValue u64Kind framKeyEmmcRecoveryAttempts b.fram := by
    rw [htried, (hmod₁.trans hmod₂).keyValue_eq _ (by decide) (by simp)]
  have hbus₃ := hbus₃.trans hbus₂
  dsimp only
  by_cases hcap : framRecoveryAttemptCap ≤ tried.getD 0
  · rw [if_pos hcap]
    refine (h₃.framed (i2cSetBusNum_framed oldBus b₃) (by simp)).bind ?_
    rintro _ b₄ - ⟨h₄, -⟩
    refine restoring_pure ⟨h₄.safe, nofun, fun _ hrestorable => ?_⟩
    rw [htried] at hcap
    exact absurd hrestorable.attempts (BitVec.not_lt.mpr hcap)
  · rw [if_neg hcap, hoffset]
    refine (h₃.framed (countAttempt_framed _ _ hbus₃ h₃.reliable) (by decide)).bind ?_
    rintro _ b₄ hquiet₄ ⟨h₄, -, hbus₄⟩
    refine (h₄.framed (framSetKey_framed boolKind true (by decide) (hbus₄.trans hbus₃)
      h₄.reliable) (by decide)).bind ?_
    rintro _ b₅ hquiet₅ ⟨h₅, -⟩
    refine (h₅.framed (i2cSetBusNum_framed oldBus b₅) (by simp)).bind ?_
    rintro _ b₆ hquiet₆ ⟨h₆, -⟩
    refine (h₆.framed (mmcRescan_framed b₆) (by simp)).bind ?_
    rintro _ b₇ hquiet₇ ⟨h₇, -⟩
    have hquietLoop (hquiet : b.Quiet) : b₇.Quiet :=
      hquiet₇ (hquiet₆ (hquiet₅ (hquiet₄ (hquiet₃ (hquiet₂ (hmod₁.quiet hquiet))))))
    refine (copyFrom_spec hr hbound oldBus _ h₇).bind ?_
    rintro fail b₈ hquiet₈ ⟨hcopied, hsafe₈, hfail⟩
    cases fail with
    | true =>
        exact restoring_pure
          ⟨hsafe₈, nofun, fun hquiet _ => absurd (hfail (hquietLoop hquiet)) nofun⟩
    | false =>
    have h₈ := hcopied rfl
    refine (h₈.framed (radsatEmmcProbe_framed fatFile b₈) (by simp)).bind ?_
    rintro probe b₉ hquiet₉ ⟨h₉, -, -, hprobe⟩
    by_cases hbad : probe != 0
    · rw [if_pos hbad]
      refine restoring_pure ⟨h₉.safe, nofun, fun hquiet hrestorable => ?_⟩
      have hkernel := hrestorable.kernel b₈.emmc
        (by rw [← h₈.sd]; exact h₈.complete hbound) h₈.above
      rw [(hprobe (hquiet₈ (hquietLoop hquiet))).mpr hkernel] at hbad
      cases hbad
    · rw [if_neg hbad]
      refine (clearRecovery_spec oldBus h₉).bind ?_
      rintro _ b' - ⟨h', hcleared⟩
      exact restoring_pure ⟨h'.safe, fun _ => h'.complete hbound,
        fun hquiet _ => ⟨rfl, hcleared (hquiet₉ (hquiet₈ (hquietLoop hquiet)))⟩⟩

/-- One boot: the restore may be resumed afterwards, however the boot ended. -/
theorem recoveryBoot_spec (hr : ∀ i x, r i x x) (hbound : bound ≤ span)
    (fatFile : Disk → String → Option Disk) {b : Board} (h : Safe r bound d b) :
    Restoring r bound d (recoveryBoot fatFile)
      (fun ret b' => Safe r bound d b' ∧ (ret = some 0 → AgreeBelow r bound b'.emmc b'.sd) ∧
        (b.Quiet → Restorable r bound fatFile d b.fram → (¬ HasKernel fatFile b.emmc ∨
          keyValue boolKind framKeyEmmcRecoveryNeeded b.fram = some true) →
          ret = some 0 ∧ Cleared b'.fram)) b := by
  unfold recoveryBoot
  refine (h.framed (radsatFramRecoveryNeeded_framed fatFile h.reliable) (by decide)).bind ?_
  rintro needed b₁ hquiet₁ ⟨h₁, hmod₁, hneeded⟩
  cases needed with
  | false =>
      exact restoring_pure ⟨h₁.safe, nofun,
        fun hquiet _ hwanted => absurd (hneeded hquiet hwanted) nofun⟩
  | true =>
      refine (radsatFramRunRecovery_spec hr hbound fatFile h₁.safe).bind ?_
      rintro ret b₂ - ⟨hsafe, hcomplete, hprogress⟩
      refine restoring_pure ⟨hsafe, fun heq => hcomplete (Option.some.inj heq), ?_⟩
      intro hquiet hrestorable hwanted
      obtain ⟨hret, hcleared⟩ := hprogress (hquiet₁ hquiet)
        ⟨by rw [hmod₁.keyValue_eq _ (by decide) (by decide)]; exact hrestorable.attempts,
          hrestorable.kernel⟩
      exact ⟨congrArg some hret, hcleared⟩

/-! ## Runs of boots -/

def PowerOn.I2cReliable (volatile : PowerOn) : Prop :=
  ∀ event ∈ volatile.i2c, ∀ stored, event ≠ .fail stored

/-- The durable state a restore may be resumed on. -/
def ResumeSafe (r : Nat → Sector → Sector → Prop) (bound : Nat) (d : Durable) : Prop :=
  AgreeBelow r (min (resumeOffset d.fram) bound) d.emmc d.sd

theorem ResumeSafe.safe (h : ResumeSafe r bound d) {volatile : PowerOn}
    (hrel : PowerOn.I2cReliable volatile) : Safe r bound d (powerOn volatile d) where
  sd := rfl
  above _ _ := rfl
  writes := by simp [powerOn]
  reliable := hrel
  agree := h
  resume := Nat.le_refl _

theorem Safe.resumeSafe {b : Board} (h : Safe r bound d b) : ResumeSafe r bound b.toDurable :=
  h.agree

/-- A boot that is wanted, and neither fails nor is cut short, restores the eMMC. -/
theorem recoveryBoot_completes (hr : ∀ i x, r i x x) (hbound : bound ≤ span)
    {fatFile : Disk → String → Option Disk} (hresume : ResumeSafe r bound d)
    {volatile : PowerOn} (hquiet : (powerOn volatile d).Quiet)
    (hrestorable : Restorable r bound fatFile d d.fram)
    (hwanted : ¬ HasKernel fatFile d.emmc ∨
      keyValue boolKind framKeyEmmcRecoveryNeeded d.fram = some true) :
    ∃ b, recoveryBoot fatFile (powerOn volatile d) = .ok (some 0) b ∧ Cleared b.fram ∧
      Safe r bound d b ∧ AgreeBelow r bound b.emmc b.sd := by
  have hrel : PowerOn.I2cReliable volatile := by
    have hi2c : volatile.i2c = [] := hquiet.2.1
    simp [PowerOn.I2cReliable, hi2c]
  have hspec := recoveryBoot_spec hr hbound fatFile (hresume.safe hrel)
  cases hboot : recoveryBoot fatFile (powerOn volatile d) with
  | ok ret b =>
      obtain ⟨-, hsafe, hagree, hprogress⟩ := wp_ok hspec hboot
      obtain ⟨rfl, hcleared⟩ := hprogress hquiet hrestorable hwanted
      exact ⟨b, rfl, hcleared, hsafe, hagree rfl⟩
  | error e b => exact absurd hquiet (wp_error hspec hboot).1

/-- A boot with any volatile state, any failing commands, and the power possibly cut. -/
abbrev RecoveryRound (fatFile : Disk → String → Option Disk) : Durable → Durable → Prop :=
  Round powerOn Board.toDurable (recoveryBoot fatFile) PowerOn.I2cReliable PowerCut.Detected

/-- What a boot keeps, every run of boots keeps: a restore may be resumed, the SD card has
not changed, and neither has the eMMC above the span. -/
theorem recoveryRounds_keep (hr : ∀ i x, r i x x) (hbound : bound ≤ span)
    {fatFile : Disk → String → Option Disk} {d₀ d : Durable}
    (hrun : Relation.ReflTransGen (RecoveryRound fatFile) d₀ d) (hinit : ResumeSafe r bound d₀) :
    ResumeSafe r bound d ∧ d.sd = d₀.sd ∧ ∀ i, span ≤ i → d.emmc i = d₀.emmc i := by
  refine Round.invariant (I := fun d => ResumeSafe r bound d ∧ d.sd = d₀.sd ∧
    ∀ i, span ≤ i → d.emmc i = d₀.emmc i) ?_ hrun ⟨hinit, rfl, fun _ _ => rfl⟩
  rintro volatile d hrel ⟨hresume, hsd, habove⟩
  have kept {b : Board} (hsafe : Safe r bound d b) : ResumeSafe r bound b.toDurable ∧
      b.sd = d₀.sd ∧ ∀ i, span ≤ i → b.emmc i = d₀.emmc i :=
    ⟨hsafe.resumeSafe, hsafe.sd.trans hsd, fun i hi => (hsafe.above i hi).trans (habove i hi)⟩
  exact wp_mono (recoveryBoot_spec hr hbound fatFile (hresume.safe hrel))
    (fun _ _ h => kept h.2.1) fun _ _ h hdetected => kept (h.2 hdetected)

/-- A boot from `d` ends with board `b`, by returning or by an admitted power cut. -/
def EndsIn (fatFile : Disk → String → Option Disk) (volatile : PowerOn) (d : Durable)
    (b : Board) : Prop :=
  (∃ ret, recoveryBoot fatFile (powerOn volatile d) = .ok ret b) ∨
    ∃ e, recoveryBoot fatFile (powerOn volatile d) = .error e b ∧ e.Detected

/-- The restore of the eMMC under power cuts and failing commands.  In every state that a
run of boots can reach from one with nothing to resume: below the offset that would be
resumed from, the eMMC equals the SD card; a restore that reports success leaves them
equal over the whole span; no sector above the span is written; and a boot that neither
fails nor is cut short, with an attempt left and a kernel on the card, completes. -/
theorem restore_powerCut_safe (fatFile : Disk → String → Option Disk) {d₀ d : Durable}
    (hinit : ∀ offset, ReadsBack u64Kind framKeyEmmcRestoreOffset d₀ (some offset) →
      offset = 0 ∨ span ≤ offset.toNat)
    (hrun : Relation.ReflTransGen (RecoveryRound fatFile) d₀ d) :
    (∀ k, ReadsBack u64Kind framKeyEmmcRestoreOffset d (some k) → 0 < k.toNat →
      k.toNat < span → ∀ i, i < k.toNat → d.emmc i = d.sd i) ∧
    (∀ volatile b, PowerOn.I2cReliable volatile →
      recoveryBoot fatFile (powerOn volatile d) = .ok (some 0) b →
      ∀ i, i < span → b.emmc i = d.sd i) ∧
    ((∀ i, span ≤ i → d.emmc i = d₀.emmc i) ∧ d.sd = d₀.sd ∧
      ∀ volatile b, PowerOn.I2cReliable volatile → EndsIn fatFile volatile d b →
        b.sd = d.sd ∧ ∀ w ∈ b.writes, w.first + w.count ≤ span) ∧
    ∀ volatile, (powerOn volatile d).Quiet →
      Restorable (fun _ x y => x = y) span fatFile d d.fram →
      (¬ HasKernel fatFile d.emmc ∨
        ReadsBack boolKind framKeyEmmcRecoveryNeeded d (some true)) →
      ∃ b, recoveryBoot fatFile (powerOn volatile d) = .ok (some 0) b ∧ Cleared b.fram := by
  have hresume₀ : ResumeSafe (fun _ x y => x = y) span d₀ := by
    have hzero : resumeOffset d₀.fram = 0 := by
      cases hread : keyValue u64Kind framKeyEmmcRestoreOffset d₀.fram with
      | none => rw [resumeOffset, hread, resumeFrom_none]
      | some offset =>
          rw [resumeOffset, hread]
          rcases hinit offset (readsBack_iff.mpr hread) with rfl | hlarge
          · rfl
          · exact if_pos hlarge
    rw [ResumeSafe, hzero, Nat.zero_min]
    exact AgreeBelow.zero _ _ _
  obtain ⟨hresume, hsd, habove⟩ :=
    recoveryRounds_keep (fun _ _ => rfl) (Nat.le_refl span) hrun hresume₀
  have boot {volatile : PowerOn} (hrel : PowerOn.I2cReliable volatile) :=
    recoveryBoot_spec (fun _ _ => rfl) (Nat.le_refl span) fatFile (hresume.safe hrel)
  refine ⟨?_, ?_, ⟨habove, hsd, ?_⟩, ?_⟩
  · intro k hread hpos hlt i hi
    have hoffset : resumeOffset d.fram = k.toNat := by
      rw [resumeOffset, readsBack_iff.mp hread]
      exact if_neg (Nat.not_le.mpr hlt)
    exact hresume i (by omega)
  · intro volatile b hrel hboot i hi
    obtain ⟨-, hsafe, hcomplete, -⟩ := wp_ok (boot hrel) hboot
    rw [hcomplete rfl i hi, hsafe.sd]
  · rintro volatile b hrel (⟨ret, hboot⟩ | ⟨e, hboot, hdetected⟩)
    · obtain ⟨-, hsafe, -⟩ := wp_ok (boot hrel) hboot
      exact ⟨hsafe.sd, hsafe.writes⟩
    · have hsafe := (wp_error (boot hrel) hboot).2 hdetected
      exact ⟨hsafe.sd, hsafe.writes⟩
  · intro volatile hquiet hrestorable hwanted
    obtain ⟨b, hboot, hcleared, -⟩ := recoveryBoot_completes (fun _ _ => rfl)
      (Nat.le_refl span) hresume hquiet hrestorable (hwanted.imp id readsBack_iff.mp)
    exact ⟨b, hboot, hcleared⟩

/-! ## A copy that is cut short -/

/-- `KLNX`, the signature of the card: 0x4B4C4E58 in little-endian order. -/
def cardSignature : Sector := fun j =>
  if j = 440 then 0x58 else if j = 441 then 0x4e else if j = 442 then 0x4c
  else if j = 443 then 0x4b else 0

/-- A blank FRAM, a blank eMMC and a card. -/
def blankEmmc : Durable :=
  ⟨fun _ => 0xff, fun _ _ => 0, fun i => if i = 0 then cardSignature else fun _ => 7⟩

/-- There is a kernel where the first partition has the data of the card. -/
def kernelOfCard (disk : Disk) (file : String) : Option Disk :=
  if file = "/kernel" ∧ disk 1 0 = 7 then some fun _ _ => 0 else none

theorem hasKernel_of_copied {emmc : Disk} (h : emmc 1 = blankEmmc.sd 1) :
    HasKernel kernelOfCard emmc := by
  have hdata : emmc 1 0 = 7 := by
    rw [h]
    rfl
  refine Or.inl ?_
  rw [kernelOfCard, if_pos ⟨rfl, hdata⟩]
  rfl

def quietPowerOn : PowerOn := ⟨0, .sd, fun _ _ => 0, [], [], []⟩

theorem quietPowerOn_quiet (d : Durable) : (powerOn quietPowerOn d).Quiet := ⟨rfl, rfl, rfl⟩

/-- The probe, the rescan and the first chunk go well; the power goes while the second chunk is
written, and its sectors hold neither the old nor the new data. -/
def secondChunkCut : PowerOn :=
  ⟨0, .sd, fun _ _ => 0, [], [], List.replicate 12 .ok ++ [.cut fun _ _ => 9]⟩

theorem secondChunkCut_outcome :
    (match recoveryBoot kernelOfCard (powerOn secondChunkCut blankEmmc) with
      | .error .elsewhere b =>
          decide (keyValue u64Kind framKeyEmmcRestoreOffset b.fram = some 0x800) &&
            decide (keyValue boolKind framKeyEmmcRecoveryNeeded b.fram = some true) &&
            decide (keyValue u64Kind framKeyEmmcRecoveryAttempts b.fram = some 1) &&
            decide (b.emmc 0x800 0 = 9)
      | _ => false) = true := by
  decide +kernel

/-- What the first boot leaves of a restore that was cut in its second chunk. -/
structure CutInSecondChunk (d : Durable) : Prop where
  round : RecoveryRound kernelOfCard blankEmmc d
  offset : keyValue u64Kind framKeyEmmcRestoreOffset d.fram = some 0x800
  latch : keyValue boolKind framKeyEmmcRecoveryNeeded d.fram = some true
  attempts : keyValue u64Kind framKeyEmmcRecoveryAttempts d.fram = some 1
  torn : d.emmc 0x800 0 = 9

theorem exists_cutInSecondChunk : ∃ d, CutInSecondChunk d := by
  have houtcome := secondChunkCut_outcome
  split at houtcome
  · next b hboot =>
      simp only [Bool.and_eq_true, decide_eq_true_eq] at houtcome
      obtain ⟨⟨⟨hoffset, hlatch⟩, hattempts⟩, htorn⟩ := houtcome
      have hrel : PowerOn.I2cReliable secondChunkCut := by
        simp [PowerOn.I2cReliable, secondChunkCut]
      exact ⟨b.toDurable, .cut hrel hboot trivial, hoffset, hlatch, hattempts, htorn⟩
  · cases houtcome

/-- The second boot resumes behind the first chunk, which is in place, and completes the copy. -/
theorem restore_powerCut_safe_resumed :
    ∃ d b, Relation.ReflTransGen (RecoveryRound kernelOfCard) blankEmmc d ∧
      ReadsBack u64Kind framKeyEmmcRestoreOffset d (some 0x800) ∧
      (∀ i, i < 0x800 → d.emmc i = d.sd i) ∧ d.emmc 0x800 ≠ d.sd 0x800 ∧
      recoveryBoot kernelOfCard (powerOn quietPowerOn d) = .ok (some 0) b ∧
      ∀ i, i < span → b.emmc i = d.sd i := by
  obtain ⟨d, hcut⟩ := exists_cutInSecondChunk
  have hrun := Relation.ReflTransGen.single hcut.round
  have hinit : ∀ offset, ReadsBack u64Kind framKeyEmmcRestoreOffset blankEmmc (some offset) →
      offset = 0 ∨ span ≤ offset.toNat := by
    intro offset hread
    have hnone : keyValue u64Kind framKeyEmmcRestoreOffset blankEmmc.fram = none := by
      decide +kernel
    rw [readsBack_iff, hnone] at hread
    cases hread
  obtain ⟨hcopied, hcomplete, ⟨-, hsd, -⟩, hprogress⟩ :=
    restore_powerCut_safe kernelOfCard hinit hrun
  have hread : ReadsBack u64Kind framKeyEmmcRestoreOffset d (some 0x800) :=
    readsBack_iff.mpr hcut.offset
  have hrestorable : Restorable (fun _ x y => x = y) span kernelOfCard d d.fram := by
    refine ⟨?_, fun emmc hagree _ => hasKernel_of_copied ?_⟩
    · rw [hcut.attempts]
      decide
    · rw [hagree 1 (by decide), hsd]
  obtain ⟨b, hboot, -⟩ := hprogress quietPowerOn (quietPowerOn_quiet d) hrestorable
    (Or.inr (readsBack_iff.mpr hcut.latch))
  have hreliable : PowerOn.I2cReliable quietPowerOn := by
    simp [PowerOn.I2cReliable, quietPowerOn]
  refine ⟨d, b, hrun, hread, hcopied 0x800 hread (by decide) (by decide), fun hsame => ?_, hboot,
    hcomplete quietPowerOn b hreliable hboot⟩
  have hbyte := congrFun hsame 0
  rw [hcut.torn, hsd] at hbyte
  exact absurd hbyte (by decide)

end RadsatLinux.UBoot.RestoreSafety
