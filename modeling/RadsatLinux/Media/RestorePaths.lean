import RadsatLinux.InstallOs.Shutdown
import RadsatLinux.UBoot.RestoreSafety

/-!
# The two restore paths

U-Boot and `install-os` restore the eMMC from the same card and share one restore offset.
Any alternation of their runs leaves a state from which either may go on.  What a completed
restore leaves is another matter: `install-os` copies up to the end of the third partition,
sets the disk signature of the eMMC and formats /home, and U-Boot copies a fixed span.
-/

namespace RadsatLinux.Media.RestorePaths

open RadsatLinux.Library.Crash RadsatLinux.Library.BlockDevice RadsatLinux.Library.ShellNumber
open RadsatLinux.Fram.Record RadsatLinux.Fram.Memory
open RadsatLinux.UBoot.Hardware RadsatLinux.UBoot.FramMission RadsatLinux.UBoot.Recovery
open RadsatLinux.UBoot.RestoreSafety
open RadsatLinux.InstallOs.Commands RadsatLinux.InstallOs.Script RadsatLinux.InstallOs.Restore
open RadsatLinux.InstallOs.RecordService RadsatLinux.InstallOs.CopySafety
open RadsatLinux.InstallOs.Shutdown

/-! ## The card -/

/-- A card that `genimage.cfg` describes: after the MBR come u-boot, rootfs and envar of
fixed sizes, and user. -/
structure Image where
  first : Nat
  userSize : Nat
  first_pos : 0 < first
  first_le : first ≤ 2048

namespace Image

variable (image : Image)

def parts : List Partition :=
  [⟨1, image.first, 32768⟩, ⟨2, image.first + 32768, 1048576⟩,
    ⟨3, image.first + 1081344, 4096⟩, ⟨4, image.first + 1085440, image.userSize⟩]

/-- The end of the third partition, and the start of the fourth. -/
def envarEnd : Nat := image.first + 1085440

def user : Partition := ⟨4, image.envarEnd, image.userSize⟩

theorem envarEnd_lt : image.envarEnd < 2 ^ 31 := by
  have hfirst := image.first_le
  unfold envarEnd
  omega

theorem essentialSpanSectors_parts : essentialSpanSectors image.parts = (image.envarEnd : Nat) := by
  have hend : image.first + 1081344 + 4096 = image.envarEnd := by
    unfold envarEnd
    omega
  change partEnd ⟨3, image.first + 1081344, 4096⟩ = _
  rw [partEnd_of_lt (hend.trans_lt image.envarEnd_lt), hend]

theorem envarEnd_pos : 0 < image.envarEnd := by
  unfold envarEnd
  omega

/-- U-Boot copies more than the first three partitions. -/
theorem envarEnd_lt_span : image.envarEnd < span := by
  have := image.first_le
  unfold envarEnd span
  omega

end Image

/-- What a completed restore is to leave: the first three partitions of the card, the disk
signature of the eMMC, and a /home that was not touched or is fresh. -/
structure Restored (image : Image) (fresh : Disk) (before after : Durable) : Prop where
  copied : ∀ i, i < image.envarEnd → ExceptSignature i (after.emmc i) (before.sd i)
  signature : ∀ j : Fin 512, 440 ≤ j.val → j.val < 444 → after.emmc 0 j = emmcSignature j
  home : (∀ i, image.envarEnd ≤ i → i < image.envarEnd + image.userSize →
      after.emmc i = before.emmc i) ∨
    ∀ i, image.envarEnd ≤ i → i < image.envarEnd + image.userSize → after.emmc i = fresh i

/-! ## Rounds -/

/-- What a run of `install-os` must find so that a restore can go on after it: the card, no
`dd` of a chunk that fails, a /home above the third partition, and a copy that starts at the
sector U-Boot would resume from, or at 0 if the request that resets the offset is served. -/
structure Fit (service : FramService) (image : Image) (linux : Linux) (d : Durable) : Prop where
  card : linux.parts .sd = image.parts
  dds : ∀ left, MmcEvent.fail left ∉ linux.dds
  home : ∀ p, homePartition linux image.envarEnd (imageSpanSectors image.parts) = some p →
    image.envarEnd ≤ p.start
  offset : startPos service (start linux d) image.envarEnd = resumeOffset d.fram ∨
    startPos service (start linux d) image.envarEnd = 0 ∧ ResetServed (start linux d)

/-- A boot of U-Boot or a run of `install-os`, whole or cut short. -/
inductive RestoreRound (service : FramService) (fatFile : Disk → String → Option Disk)
    (image : Image) (d : Durable) : Durable → Prop where
  | boot {d' : Durable} (hround : RecoveryRound fatFile d d') :
      RestoreRound service fatFile image d d'
  | install {mode : Mode} {linux : Linux} {e : Stop} {s' : System}
      (hfit : Fit service image linux d)
      (hrun : installOs service mode (start linux d) = .error e s')
      (hdetected : e.Detected uBootOffset) :
      RestoreRound service fatFile image d s'.toDurable

section

variable {service : FramService} {image : Image} {mode : Mode} {linux : Linux} {d : Durable}

/-- Sectors agree with the card up to the signature, below what U-Boot would resume from. -/
def sharedSetting (hstores : StoresForUBoot service) (hfit : Fit service image linux d)
    (mode : Mode) : Setting where
  service := service
  read := uBootOffset
  s₀ := mode.entry (start linux d)
  span := image.envarEnd
  fullSpan := imageSpanSectors image.parts
  r := ExceptSignature
  r' := ExceptSignature
  known pos offset := resumeFrom offset ≤ pos
  resumable offset emmc sd :=
    AgreeBelow ExceptSignature (min (resumeFrom offset) image.envarEnd) emmc sd
  span_lt := image.envarEnd_lt
  fullSpan_lt := imageSpanSectors_lt _
  read_store := hstores
  refl := exceptSignature_refl
  weaken _ _ _ := id
  signature _ bytes _ _ := exceptSignature_setSignature bytes
  known_mono hle hknown := Nat.le_trans hknown hle
  known_none _ := by
    rw [resumeFrom_none]
    exact Nat.zero_le _
  known_pos pos := by
    refine Nat.le_trans (resumeFrom_le _) ?_
    rw [BitVec.toNat_ofNat]
    exact Nat.mod_le _ _
  resumable_of _ hknown hagree := hagree.anti (Nat.le_trans (Nat.min_le_left _ _) hknown)
  faultless := by
    cases mode <;> exact hfit.dds
  home_above := by
    cases mode <;> exact hfit.home

/-- The copy starts inside the span, and what lies before its start is in place. -/
theorem Fit.start_agree (hfit : Fit service image linux d)
    (hsafe : ResumeSafe ExceptSignature image.envarEnd d) :
    startPos service (start linux d) image.envarEnd < image.envarEnd ∧
      AgreeBelow ExceptSignature (startPos service (start linux d) image.envarEnd)
        d.emmc d.sd := by
  have hcases := startPos_cases service (start linux d) image.envarEnd_pos image.envarEnd_lt
  rcases hfit.offset with heq | ⟨hzero, -⟩
  · have hresume : resumeOffset d.fram < span := resumeFrom_lt _
    have hspan : span < 2 ^ 31 := by decide
    have hbelow : resumeOffset d.fram < image.envarEnd := by omega
    rw [heq]
    exact ⟨hbelow, hsafe.anti (Nat.le_min.mpr ⟨Nat.le_refl _, Nat.le_of_lt hbelow⟩)⟩
  · rw [hzero]
    exact ⟨image.envarEnd_pos, AgreeBelow.zero _ _ _⟩

/-- Where both read the same offset, `install-os` starts where U-Boot would resume. -/
theorem startPos_resume {offset : U64} (hbelow : offset.toNat < image.envarEnd)
    (hget : (linux.framGetExec && linux.serviceRunning && linux.framGetAnswers) = true)
    (hservice : (service.flags d.fram).emmcRestoreOffset = some offset)
    (huBoot : uBootOffset d.fram = some offset) :
    startPos service (start linux d) image.envarEnd = resumeOffset d.fram := by
  have hstored : storedOffset service (start linux d) = offset.toNat := by
    have hflag : storedOffset service (start linux d) =
        ((service.flags d.fram).emmcRestoreOffset.getD 0).toNat := if_pos hget
    rw [hflag, hservice, Option.getD_some]
  have hresume : resumeOffset d.fram = offset.toNat := by
    have hspan := image.envarEnd_lt_span
    have hread : resumeOffset d.fram = resumeFrom (uBootOffset d.fram) := rfl
    rw [hread, huBoot]
    exact if_neg (Nat.not_le.mpr (hbelow.trans hspan))
  have htest : testGe offset.toNat image.envarEnd = false := by
    rw [testGe_natCast, decide_eq_false_iff_not]
    omega
  rw [startPos, hstored, htest, hresume]
  exact if_neg Bool.false_ne_true

/-- A run of `install-os` on a state that can be resumed leaves one, and one that is agreed
to and completes leaves a good eMMC. -/
theorem installOs_resumable (hstores : StoresForUBoot service)
    (hfit : Fit service image linux d) (hsafe : ResumeSafe ExceptSignature image.envarEnd d)
    (haccepted : Accepted (mode.entry (start linux d))) :
    wp (installOs service mode) (fun _ _ => False)
      (fun e s' => (sharedSetting hstores hfit mode).Halted e s' ∧
        (e = .exit 0 → Confirmed (mode.entry (start linux d)) →
          (sharedSetting hstores hfit mode).Good s'.emmc s'.sd)) (start linux d) := by
  have hspan : spanOf (mode.entry (start linux d)) = image.envarEnd := by
    have hcard : spanOf (mode.entry (start linux d)) =
        (essentialSpanSectors (linux.parts .sd)).toNat := by
      cases mode <;> rfl
    rw [hcard, hfit.card, image.essentialSpanSectors_parts, Int.toNat_natCast]
  have hfull : fullSpanOf (mode.entry (start linux d)) = imageSpanSectors image.parts := by
    rw [← hfit.card]
    cases mode <;> rfl
  obtain ⟨hbelow, hagree⟩ := hfit.start_agree hsafe
  have hknown : resumeFrom (uBootOffset d.fram) ≤
      min (startPos service (start linux d) image.envarEnd) image.envarEnd ∨
        startPos service (start linux d) image.envarEnd = 0 ∧ ResetServed (start linux d) := by
    refine hfit.offset.imp_left fun heq => ?_
    rw [Nat.min_eq_left (Nat.le_of_lt hbelow), heq]
    exact Nat.le_refl _
  refine installOs_holds (S := sharedSetting hstores hfit mode) ⟨?_, ?_, ?_, ?_, ?_, ?_⟩ mode rfl
  · rcases checkMedia_cases (mode.entry (start linux d)) with ⟨-, hcheck⟩ | ⟨hrefused, -⟩
    · rw [hspan, hfull] at hcheck
      exact hcheck
    · exact absurd haccepted hrefused
  · exact image.envarEnd_pos
  · cases mode <;> rfl
  · have hstart := hagree.anti (Nat.min_le_left _ image.envarEnd)
    cases mode <;> exact hstart
  · cases mode with
    | sdToEmmc => exact hknown
    | autoRecover => exact hknown.imp_right fun h => ⟨h.1, { h.2 with }⟩
  · cases mode <;> exact hsafe

variable {fatFile : Disk → String → Option Disk} {d₀ d' : Durable}

/-- Either kind of round leaves a state from which either kind may go on. -/
theorem RestoreRound.keeps (hstores : StoresForUBoot service)
    (hround : RestoreRound service fatFile image d d')
    (hsafe : ResumeSafe ExceptSignature image.envarEnd d) :
    ResumeSafe ExceptSignature image.envarEnd d' ∧ d'.sd = d.sd := by
  cases hround with
  | boot hround =>
      have hbound := Nat.le_of_lt image.envarEnd_lt_span
      obtain ⟨hsafe', hsd, -⟩ := recoveryRounds_keep exceptSignature_refl hbound
        (Relation.ReflTransGen.single hround) hsafe
      exact ⟨hsafe', hsd⟩
  | @install mode linux e s' hfit hrun hdetected =>
      by_cases haccepted : Accepted (mode.entry (start linux d))
      · obtain ⟨hhalted, -⟩ := wp_error (installOs_resumable hstores hfit hsafe haccepted) hrun
        refine ⟨?_, hhalted.sd.trans (by cases mode <;> rfl)⟩
        exact hhalted.resumable hdetected
      · rw [installOs_refused service haccepted] at hrun
        cases hrun
        cases mode <;> exact ⟨hsafe, rfl⟩

theorem restoreRounds_keep (hstores : StoresForUBoot service)
    (hruns : Relation.ReflTransGen (RestoreRound service fatFile image) d₀ d)
    (hinit : ResumeSafe ExceptSignature image.envarEnd d₀) :
    ResumeSafe ExceptSignature image.envarEnd d ∧ d.sd = d₀.sd := by
  induction hruns with
  | refl => exact ⟨hinit, rfl⟩
  | tail _ hround ih =>
      obtain ⟨hsafe, hsd⟩ := hround.keeps hstores ih.1
      exact ⟨hsafe, hsd.trans ih.2⟩

end

/-! ## Completed restores -/

/-- What the completing run of `install-os` must find besides: the disk signature is
written, and the fourth partition of the card becomes /home, or there is none to format and
no earlier round has touched it. -/
structure Completes (image : Image) (linux : Linux) (d₀ d : Durable) : Prop where
  signatures : ∀ left, MmcEvent.fail left ∉ linux.signatures
  home : (homePartition linux image.envarEnd (imageSpanSectors image.parts) = some image.user ∧
      ∀ left, MmcEvent.fail left ∉ linux.mkfs) ∨
    homePartition linux image.envarEnd (imageSpanSectors image.parts) = none ∧
      ∀ i, image.envarEnd ≤ i → i < image.envarEnd + image.userSize → d.emmc i = d₀.emmc i

theorem one_le_alignment : 1 ≤ 2048 := by decide

def genimageCard : Image := ⟨1, 6291456, Nat.one_pos, one_le_alignment⟩

theorem blankEmmc_resumeSafe {r : Nat → Sector → Sector → Prop} {bound : Nat} :
    ResumeSafe r bound blankEmmc := by
  have hzero : resumeOffset blankEmmc.fram = 0 := by decide +kernel
  rw [ResumeSafe, hzero, Nat.zero_min]
  exact AgreeBelow.zero _ _ _

/-- A Linux that runs from this card. -/
def cardLinux : Linux :=
  { twoChunkLinux [] with
    devs := [⟨"mmcblk0", some .sd, 8388608, true⟩, ⟨"mmcblk1", some .emmc, 8388608, true⟩]
    parts := fun _ => genimageCard.parts
    servicePidFile := true }

/-- The service outlives `stop_services`, and the power goes while the second chunk is copied. -/
def secondDdCut : Linux :=
  { cardLinux with servicePidFile := false, dds := [.ok, .cut fun _ _ => 9] }

theorem interrupted_outcome :
    (match recoveryBoot kernelOfCard (powerOn secondChunkCut blankEmmc) with
      | .error .elsewhere b =>
          match installOs recordService .sdToEmmc (start secondDdCut b.toDurable) with
          | .error .powerCut s' =>
              decide ((recordService.flags b.fram).emmcRestoreOffset = some 0x800) &&
                decide (uBootOffset b.fram = some 0x800) &&
                decide ((recordService.flags s'.fram).emmcRestoreOffset = some 0x2800) &&
                decide (uBootOffset s'.fram = some 0x2800) && decide (s'.emmc 0x2800 0 = 9)
          | _ => false
      | _ => false) = true := by
  decide +kernel

/-- What two rounds leave that were cut in their second chunks: a boot of U-Boot, and a run of
`install-os` that went on behind its first chunk. -/
structure Interrupted (d : Durable) : Prop where
  rounds : Relation.ReflTransGen (RestoreRound recordService kernelOfCard genimageCard) blankEmmc d
  service : (recordService.flags d.fram).emmcRestoreOffset = some 0x2800
  uBoot : uBootOffset d.fram = some 0x2800
  torn : d.emmc 0x2800 0 = 9

theorem exists_interrupted : ∃ d, Interrupted d := by
  have houtcome := interrupted_outcome
  split at houtcome
  · next b hboot =>
      split at houtcome
      · next s' hrun =>
          simp only [Bool.and_eq_true, decide_eq_true_eq] at houtcome
          obtain ⟨⟨⟨⟨hservice, huBoot⟩, hservice'⟩, huBoot'⟩, htorn⟩ := houtcome
          have hrel : PowerOn.I2cReliable secondChunkCut := by
            simp [PowerOn.I2cReliable, secondChunkCut]
          have hround : RestoreRound recordService kernelOfCard genimageCard blankEmmc
              b.toDurable := .boot (.cut hrel hboot trivial)
          have hfit : Fit recordService genimageCard secondDdCut b.toDurable := by
            refine ⟨rfl, by simp [secondDdCut], fun p hp => ?_, Or.inl ?_⟩
            · have huser : homePartition secondDdCut genimageCard.envarEnd
                  (imageSpanSectors genimageCard.parts) = some genimageCard.user := rfl
              obtain rfl := Option.some.inj (huser.symm.trans hp)
              exact Nat.le_refl _
            · exact startPos_resume (by decide) rfl hservice huBoot
          exact ⟨s'.toDurable, .tail (.single hround) (.install hfit hrun trivial), hservice',
            huBoot', htorn⟩
      · cases houtcome
  · cases houtcome

/-- A restore that U-Boot completes without the help of `install-os` leaves the disk
signature of the card. -/
theorem recoveryBoot_signature {fatFile : Disk → String → Option Disk} {d₀ d : Durable}
    (hinit : ResumeSafe (fun _ x y => x = y) span d₀)
    (hruns : Relation.ReflTransGen (RecoveryRound fatFile) d₀ d) {volatile : PowerOn}
    (hrel : PowerOn.I2cReliable volatile) {b : Board}
    (hboot : recoveryBoot fatFile (powerOn volatile d) = .ok (some 0) b) :
    b.emmc 0 = d₀.sd 0 := by
  obtain ⟨hsafe, hsd, -⟩ := recoveryRounds_keep (fun _ _ => rfl) (Nat.le_refl span) hruns hinit
  obtain ⟨-, hsafe', hcomplete, -⟩ := wp_ok (recoveryBoot_spec (fun _ _ => rfl)
    (Nat.le_refl span) fatFile (hsafe.safe hrel)) hboot
  rw [hcomplete rfl 0 (by decide), hsafe'.sd, hsd]

theorem blankEmmc_restorable :
    Restorable (fun _ x y => x = y) span kernelOfCard blankEmmc blankEmmc.fram where
  attempts := by decide +kernel
  kernel _ hagree _ := hasKernel_of_copied (hagree 1 (by decide))

end RadsatLinux.Media.RestorePaths
