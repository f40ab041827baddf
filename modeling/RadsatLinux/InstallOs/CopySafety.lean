import RadsatLinux.InstallOs.RecordService
import RadsatLinux.InstallOs.Restore

/-!
# No incomplete eMMC is declared good

Where no copying `dd` fails and `mkfs.ext4` stays above the copied span, every offset that
`install-os` stores and every clearing of the recovery flags is justified by the contents
of the eMMC at that moment.  A `dd` that fails is not noticed, and then neither is.
-/

namespace RadsatLinux.InstallOs.CopySafety

open RadsatLinux.Library.Crash RadsatLinux.Library.BlockDevice
open RadsatLinux.UBoot.Hardware
open RadsatLinux.InstallOs.Commands RadsatLinux.InstallOs.Script RadsatLinux.InstallOs.Restore
open RadsatLinux.InstallOs.RecordService

/-- What a run must find so that nothing it copies is lost: no `dd` of a chunk fails, and
the partition that becomes /home lies above the copied span. -/
structure Faultless (s : System) : Prop where
  dds : ∀ left, MmcEvent.fail left ∉ s.dds
  home : ∀ p, homePartition s.toLinux (spanOf s) (fullSpanOf s) = some p → spanOf s ≤ p.start

/-- An exact copy, and nothing asked of a run that is cut short. -/
def exactSetting (service : FramService) (s : System) (h : Faultless s) : Setting where
  service := service
  read chip := (service.flags chip).emmcRestoreOffset
  s₀ := s
  span := spanOf s
  fullSpan := fullSpanOf s
  r _ x y := x = y
  r' := ExceptSignature
  known _ _ := True
  resumable _ _ _ := True
  span_lt := spanOf_lt s
  fullSpan_lt := imageSpanSectors_lt _
  read_store request chip := by rw [service.flags_store, apply_emmcRestoreOffset]
  refl _ _ := rfl
  weaken _ _ _ hagree i hi j _ := by rw [hagree i hi]
  signature _ bytes _ _ := exceptSignature_setSignature bytes
  known_mono _ _ := trivial
  known_none _ := trivial
  known_pos _ := trivial
  resumable_of _ _ _ := trivial
  faultless := h.dds
  home_above := h.home

/-- In a run that starts with what it will not copy already in place, every offset stored
is one below which the eMMC equals the SD card at that moment, and recovery is cleared only
when the whole span does, up to the disk signature. -/
theorem installOs_sound (service : FramService) (mode : Mode) {s s' : System} {e : Stop}
    (htrace : s.trace = [])
    (hstart : ∀ i, i < startPos service s (spanOf s) → i < spanOf s → s.emmc i = s.sd i)
    (hfaultless : Faultless s) (hrun : installOs service mode s = .error e s') :
    (∀ offset d, (.setFlag (.emmcRestoreOffset offset), d) ∈ s'.trace →
      ∀ i, i < offset.toNat → d.emmc i = d.sd i) ∧
    (∀ d, (.clearRecovery, d) ∈ s'.trace →
      ∀ i, i < spanOf s → ExceptSignature i (d.emmc i) (d.sd i)) ∧
    s'.sd = s.sd := by
  have hentered : Faultless (mode.entry s) := by
    cases mode
    · exact hfaultless
    · exact ⟨hfaultless.dds, hfaultless.home⟩
  let S : Setting := exactSetting service (mode.entry s) hentered
  have hspan : S.span = spanOf s := by cases mode <;> rfl
  have hsd : S.s₀.sd = s.sd := by cases mode <;> rfl
  rcases checkMedia_cases (mode.entry s) with
    ⟨haccepted, hcheck⟩ | ⟨hrefused, -⟩
  · have hentry : S.Entry := by
      refine ⟨hcheck, haccepted.span_pos, ?_, ?_, Or.inl trivial, trivial⟩
      · cases mode <;> exact htrace
      · intro i hi
        obtain ⟨hbelow, hspan⟩ := Nat.lt_min.mp hi
        cases mode <;> exact hstart i hbelow hspan
    have hspec := installOs_holds hentry mode (s := s) rfl
    obtain ⟨hhalted, -⟩ := wp_error hspec hrun
    refine ⟨fun offset d hmem => hhalted.trace _ hmem, fun d hmem i hi => ?_,
      hhalted.sd.trans hsd⟩
    exact (hhalted.trace _ hmem).agree i (by rw [hspan]; exact hi)
  · -- Nothing was done.
    rw [installOs_refused service hrefused] at hrun
    cases hrun
    have htrace' : (mode.entry s).trace = [] := by cases mode <;> exact htrace
    rw [htrace']
    exact ⟨nofun, nofun, hsd⟩

/-! ## Two chunks -/

/-- A card whose first three partitions end at sector 16384, with /home right after them. -/
def twoChunkParts : List Partition :=
  [⟨1, 2048, 2048⟩, ⟨2, 4096, 8192⟩, ⟨3, 12288, 4096⟩, ⟨4, 16384, 2048⟩]

/-- A system that runs from the SD card, with a blank eMMC of the same layout and a service
that no pid file names. -/
def twoChunkLinux (dds : List MmcEvent) : Linux where
  devs := [⟨"mmcblk0", some .sd, 32768, true⟩, ⟨"mmcblk1", some .emmc, 32768, true⟩]
  others _ _ _ := 0
  parts _ := twoChunkParts
  rootSource := "/dev/mmcblk0p2"
  rootPartuuid := none
  yes := true
  doBackups := false
  answer := ""
  framSetExec := true
  framGetExec := true
  framGetAnswers := true
  serviceRunning := true
  servicePidFile := false
  partx := none
  lateP4 := none
  fresh := fun _ _ => 0xee
  requests := []
  dds := dds
  signatures := []
  mkfs := []
  mounts := [some ["kernel"]]
  slotMap := []

def twoChunkSystem (dds : List MmcEvent) : System :=
  start (twoChunkLinux dds) ⟨fun _ => 0xff, fun _ _ => 0, fun _ _ => 1⟩

/-- The power goes in the second chunk. -/
def cutSecondChunk : System := twoChunkSystem [.ok, .cut fun _ _ => 7]

/-- The second chunk fails to copy. -/
def failedSecondChunk : System := twoChunkSystem [.ok, .fail fun _ _ => 7]

theorem installOs_sound_cutSecondChunk :
    ∃ e s', installOs recordService .sdToEmmc cutSecondChunk = .error e s' ∧
      ∀ offset d, (.setFlag (.emmcRestoreOffset offset), d) ∈ s'.trace →
        ∀ i, i < offset.toNat → d.emmc i = d.sd i := by
  obtain ⟨e, s', hrun⟩ := installOs_stops recordService .sdToEmmc cutSecondChunk
  refine ⟨e, s', hrun, (installOs_sound recordService .sdToEmmc rfl ?_ ⟨?_, ?_⟩ hrun).1⟩
  · intro i hi _
    have hzero : startPos recordService cutSecondChunk (spanOf cutSecondChunk) = 0 := by
      decide +kernel
    rw [hzero] at hi
    exact absurd hi (Nat.not_lt_zero i)
  · intro left hmem
    simp [cutSecondChunk, twoChunkSystem, start, twoChunkLinux] at hmem
  · intro p hp
    have hp4 : homePartition cutSecondChunk.toLinux 16384 18432 = some ⟨4, 16384, 2048⟩ := rfl
    obtain rfl : p = ⟨4, 16384, 2048⟩ := Option.some.inj (hp.symm.trans hp4)
    decide

/-- The eMMC differs from the card in the second chunk when the action is recorded. -/
def recordedIncomplete (action : Action) (s : System) : Bool :=
  s.trace.any fun entry =>
    decide (entry.1 = action) && decide (entry.2.emmc 8192 0 ≠ entry.2.sd 8192 0)

theorem exists_of_recordedIncomplete {action : Action} {s : System}
    (h : recordedIncomplete action s = true) :
    ∃ d, (action, d) ∈ s.trace ∧ ¬ ExceptSignature 8192 (d.emmc 8192) (d.sd 8192) := by
  obtain ⟨⟨action', d⟩, hmem, hentry⟩ := List.any_eq_true.mp h
  rw [Bool.and_eq_true, decide_eq_true_eq, decide_eq_true_eq] at hentry
  rcases hentry with ⟨rfl, hne⟩
  exact ⟨d, hmem, fun hequal => hne (hequal 0 nofun)⟩

theorem failedSecondChunk_outcome :
    (match installOs recordService .sdToEmmc failedSecondChunk with
      | .error (.exit 0) s' =>
          recordedIncomplete (.setFlag (.emmcRestoreOffset 16384)) s' &&
            recordedIncomplete .clearRecovery s'
      | _ => false) = true := by
  decide +kernel

/-- The second chunk fails to copy.  Its end is stored as the restore offset all the same,
the recovery flags are cleared, and the script exits with status 0. -/
theorem installOs_unsound_failedSecondChunk :
    ∃ s', installOs recordService .sdToEmmc failedSecondChunk = .error (.exit 0) s' ∧
      (∃ d, (.setFlag (.emmcRestoreOffset 16384), d) ∈ s'.trace ∧
        ¬ ExceptSignature 8192 (d.emmc 8192) (d.sd 8192)) ∧
      ∃ d, (.clearRecovery, d) ∈ s'.trace ∧
        ¬ ExceptSignature 8192 (d.emmc 8192) (d.sd 8192) := by
  have houtcome := failedSecondChunk_outcome
  split at houtcome
  · next s' hrun =>
      rw [Bool.and_eq_true] at houtcome
      exact ⟨s', hrun, exists_of_recordedIncomplete houtcome.1,
        exists_of_recordedIncomplete houtcome.2⟩
  · cases houtcome

end RadsatLinux.InstallOs.CopySafety
