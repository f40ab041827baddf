import RadsatLinux.UBoot.RestoreSafety

/-!
# From SPL to the recovery check

SPL tries the devices `board_boot_order` lists, and on each of them `u-boot.img` and then
`u-boot-bak.img`; it hangs when none loads.  Only a U-Boot that was loaded gets to
`board_late_init`, and so to the recovery check.  `loads` stands for the FAT code of SPL:
whether it finds and accepts a payload on a device.
-/

namespace RadsatLinux.UBoot.BootChain

open RadsatLinux.Library.Crash RadsatLinux.Library.BlockDevice
open RadsatLinux.Fram.Record RadsatLinux.Fram.Memory
open RadsatLinux.UBoot.Hardware RadsatLinux.UBoot.FramMission
open RadsatLinux.UBoot.Recovery RadsatLinux.UBoot.RestoreSafety

variable (loads : Disk → String → Bool) (fatFile : Disk → String → Option Disk)

/-! ## The chain -/

/-- `spl_boot_list` as `board_boot_order` fills it: `BOOT_DEVICE_MMC2`. -/
def boardBootOrder : List MmcDevice := [.emmc]

/-- The payloads SPL tries on a FAT partition, the primary one first. -/
def splPayloads : List String := ["u-boot.img", "u-boot-bak.img"]

/-- The device and file SPL loads U-Boot from. -/
def splBoot (d : Durable) : Option (MmcDevice × String) :=
  boardBootOrder.findSome? fun device =>
    (splPayloads.find? fun file => loads (d.disk device) file).map fun file => (device, file)

/-- Where a power-on ends: in an SPL without a payload, or in a U-Boot that has run the
recovery check of `board_late_init`. -/
inductive BootEnd where
  | splHang
  | lateInit (outcome : EStateM.Result PowerCut Board (Option Int))

def bootChain (volatile : PowerOn) (d : Durable) : BootEnd :=
  match splBoot loads d with
  | none => .splHang
  | some _ => .lateInit (recoveryBoot fatFile (powerOn volatile d))

/-! ## When the recovery check is reached -/

def ReachesRecoveryCheck (volatile : PowerOn) (d : Durable) : Prop :=
  bootChain loads fatFile volatile d =
    .lateInit (recoveryBoot fatFile (powerOn volatile d))

/-- SPL looks for its payload on the eMMC alone. -/
theorem splBoot_isSome (d : Durable) :
    (splBoot loads d).isSome ↔
      loads d.emmc "u-boot.img" = true ∨ loads d.emmc "u-boot-bak.img" = true := by
  cases hprimary : loads d.emmc "u-boot.img" <;>
    cases hbackup : loads d.emmc "u-boot-bak.img" <;>
      simp [splBoot, boardBootOrder, splPayloads, Durable.disk, hprimary, hbackup]

theorem bootChain_lateInit (volatile : PowerOn) (d : Durable) :
    ReachesRecoveryCheck loads fatFile volatile d ↔ (splBoot loads d).isSome := by
  rw [ReachesRecoveryCheck, bootChain]
  cases splBoot loads d <;> simp

/-- The boot chain gets to the recovery check exactly when the eMMC itself still yields a
payload; what the SD card holds makes no difference. -/
theorem reachesRecoveryCheck_iff (volatile : PowerOn) (d : Durable) :
    ReachesRecoveryCheck loads fatFile volatile d ↔
      loads d.emmc "u-boot.img" = true ∨ loads d.emmc "u-boot-bak.img" = true :=
  (bootChain_lateInit loads fatFile volatile d).trans (splBoot_isSome loads d)

/-- The payloads lie in the first `fatEnd` sectors. -/
def LoadsBelow (fatEnd : Nat) : Prop :=
  ∀ disk disk' : Disk, AgreeBelow (fun _ x y => x = y) fatEnd disk disk' →
    ∀ file, loads disk file = loads disk' file

/-- A restore that has got past the boot partition of a good card may lose power without
losing the recovery check. -/
theorem reachesRecoveryCheck_of_resumeOffset {fatEnd : Nat} (hbelow : LoadsBelow loads fatEnd)
    {d : Durable} (hresume : ResumeSafe (fun _ x y => x = y) span d)
    (hpast : fatEnd ≤ resumeOffset d.fram) (hcard : loads d.sd "u-boot.img" = true)
    (volatile : PowerOn) : ReachesRecoveryCheck loads fatFile volatile d := by
  rw [bootChain_lateInit, splBoot_isSome]
  left
  have hlt := resumeFrom_lt (keyValue u64Kind framKeyEmmcRestoreOffset d.fram)
  have hagree : AgreeBelow (fun _ x y => x = y) fatEnd d.emmc d.sd := by
    refine AgreeBelow.anti hresume (Nat.le_min.mpr ⟨hpast, ?_⟩)
    exact Nat.le_trans hpast (Nat.le_of_lt hlt)
  rw [hbelow d.emmc d.sd hagree]
  exact hcard

/-! ## A cut in the first chunk -/

/-- A disk whose first sector ends in the MBR signature. -/
def mbrSigned (disk : Disk) : Bool :=
  disk 0 510 == 0x55 && disk 0 511 == 0xaa

/-- No partition, and so no file, is found on a disk without an MBR. -/
def loadsFromMbr (disk : Disk) (_ : String) : Bool :=
  mbrSigned disk

def fatFileFromMbr (disk : Disk) (_ : String) : Option Disk :=
  if mbrSigned disk then some disk else none

def bootableDisk : Disk :=
  fun i j => if i = 0 ∧ j = 510 then 0x55 else if i = 0 ∧ j = 511 then 0xaa else 0

/-- A latched recovery of a board whose SD card and eMMC both boot. -/
def latchedBoard : Durable :=
  ⟨chipWith framKeyEmmcRecoveryNeeded (framEncodeBool framKeyEmmcRecoveryNeeded true 1),
    bootableDisk, bootableDisk⟩

/-- The probe succeeds and the power goes while the first chunk is written, with its sectors
erased. -/
def cutFirstChunk : PowerOn :=
  ⟨0, .sd, fun _ _ => 0, [], [], [.ok, .ok, .ok, .ok, .ok, .ok, .ok, .cut fun _ _ => 0]⟩

theorem cutFirstChunk_outcome :
    (match recoveryBoot fatFileFromMbr (powerOn cutFirstChunk latchedBoard) with
      | .error .elsewhere b => !mbrSigned b.emmc && mbrSigned b.sd
      | _ => false) = true := by
  decide +kernel

/-- The SD card holds everything, the restore of the eMMC is cut in its first chunk, and
no later power-on gets beyond SPL. -/
theorem splHang_after_cutFirstChunk :
    ∃ d, RecoveryRound fatFileFromMbr latchedBoard d ∧
      loadsFromMbr d.sd "u-boot.img" = true ∧
      ∀ volatile, bootChain loadsFromMbr fatFileFromMbr volatile d = .splHang := by
  have houtcome := cutFirstChunk_outcome
  cases hrun : recoveryBoot fatFileFromMbr (powerOn cutFirstChunk latchedBoard) with
  | ok ret b => simp [hrun] at houtcome
  | error e b =>
      cases e with
      | framWrite old new left => simp [hrun] at houtcome
      | elsewhere =>
          simp only [hrun, Bool.and_eq_true, Bool.not_eq_true'] at houtcome
          refine ⟨b.toDurable, Round.cut (by simp [PowerOn.I2cReliable, cutFirstChunk]) hrun
            trivial, houtcome.2, fun volatile => ?_⟩
          simp [bootChain, splBoot, boardBootOrder, splPayloads, Durable.disk, loadsFromMbr,
            houtcome.1]

end RadsatLinux.UBoot.BootChain
