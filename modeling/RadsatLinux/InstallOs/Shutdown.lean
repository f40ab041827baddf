import RadsatLinux.InstallOs.Latch

/-!
# The service that `stop_services` stops

`fram-service` is one of the services with a pid file.  The latch is set before they are
stopped; the restore offset and the clearing of the flags come after, and a `fram-set` that
finds no service changes nothing.
-/

namespace RadsatLinux.InstallOs.Shutdown

open RadsatLinux.Library.Crash RadsatLinux.Library.BlockDevice
open RadsatLinux.Fram.Record RadsatLinux.Fram.Memory RadsatLinux.UBoot.Hardware
open RadsatLinux.InstallOs.Commands RadsatLinux.InstallOs.Script
open RadsatLinux.InstallOs.Restore RadsatLinux.InstallOs.RecordService
open RadsatLinux.InstallOs.CopySafety
open RadsatLinux.InstallOs.Latch

/-- The service runs, its pid file names it, and it serves every request. -/
structure Healthy (linux : Linux) : Prop where
  setExec : linux.framSetExec = true
  getExec : linux.framGetExec = true
  answers : linux.framGetAnswers = true
  running : linux.serviceRunning = true
  pidFile : linux.servicePidFile = true
  requests : linux.requests = []

/-- What happens to the media in a run, and what the verification finds. -/
structure Course where
  dds : List MmcEvent
  signatures : List MmcEvent
  mkfs : List MmcEvent
  mounts : List (Option (List String))

def Course.on (course : Course) (linux : Linux) : Linux :=
  { linux with
    dds := course.dds, signatures := course.signatures, mkfs := course.mkfs,
    mounts := course.mounts }

def clearedFlags : Flags where
  emmcRecoveryNeeded := some false
  emmcRestoreOffset := some 0
  lastEmmcProbeOk := some true
  bootMedia := some 0

/-- The flags when the run is a success, and those that a power cut after a chunk leaves. -/
structure Recorded (service : FramService) (e : Stop) (s : System) : Prop where
  success : e = .exit 0 → service.flags s.fram = clearedFlags
  chunk : ∀ pos d, (.chunkDone pos, d) ∈ s.trace → Latched service d.fram ∧
    (service.flags d.fram).emmcRestoreOffset = some (BitVec.ofNat 64 pos)

section

variable {service : FramService} {s : System}

/-- The latch is set and the service gone. -/
structure Unserved (service : FramService) (s : System) : Prop where
  latched : Latched service s.fram
  running : s.serviceRunning = false

/-- Besides, nothing disturbs the media, and the eMMC will be found bootable. -/
structure Undisturbed (service : FramService) (s : System) : Prop extends Unserved service s where
  uneventful : Uneventful s
  mounts : s.mounts = [some ["kernel"]]

theorem Unserved.framSet (h : Unserved service s) (request : FlagSet)
    {J : Stop → System → Prop} {P : System → Prop} (hP : P s) :
    wp (framSet service request) (fun _ => P) J s := by
  have hnone : requestOutcome s = none := by
    rw [requestOutcome_none_iff, h.running, Bool.and_false]
  rw [wp_framSet, hnone]
  exact hP

theorem undisturbed_kept (service : FramService) {J : Stop → System → Prop} :
    Kept service (Undisturbed service) J where
  writes := by
    intro first count s s' h hwrites
    obtain ⟨hdds, hsignatures, hmkfs⟩ := h.uneventful
    refine ⟨⟨?_, hwrites.running.trans h.running⟩, ⟨?_, ?_, ?_⟩, hwrites.mounts.trans h.mounts⟩
    · rw [hwrites.fram]
      exact h.latched
    · exact List.suffix_nil.mp (hdds ▸ hwrites.dds)
    · exact List.suffix_nil.mp (hsignatures ▸ hwrites.signatures)
    · exact List.suffix_nil.mp (hmkfs ▸ hwrites.mkfs)
  stops := fun h hevents _ => absurd h.uneventful hevents
  offset := fun _ h => h.toUnserved.framSet _ h
  chunkDone := fun _ h => { h with }
  parts := fun _ h => { h with }

end

/-- A run in which nothing goes wrong with the media. -/
def undisturbed : Course where
  dds := []
  signatures := []
  mkfs := []
  mounts := [some ["kernel"]]

/-- Such a run is a success, and leaves the latch as it set it. -/
theorem installOs_undisturbed (service : FramService) (mode : Mode) {linux : Linux}
    (d : Durable) (hhealthy : Healthy linux)
    (haccepted : Accepted (mode.entry (start (undisturbed.on linux) d)))
    (hconfirmed : Confirmed (mode.entry (start (undisturbed.on linux) d))) :
    ∃ s', installOs service mode (start (undisturbed.on linux) d) = .error (.exit 0) s' ∧
      Latched service s'.fram := by
  have hserved : requestOutcome (mode.entry (start (undisturbed.on linux) d)) =
      some .served := by
    cases mode <;>
      simp [requestOutcome, Mode.entry, start, Course.on, hhealthy.setExec, hhealthy.running,
        hhealthy.requests]
  have hstopped : (stopped (mode.entry (start (undisturbed.on linux) d))).serviceRunning =
      false := by
    cases mode <;>
      simp [stopped, Mode.entry, start, Course.on, hhealthy.running, hhealthy.pidFile]
  have hevents : Uneventful (mode.entry (start (undisturbed.on linux) d)) ∧
      (mode.entry (start (undisturbed.on linux) d)).mounts = [some ["kernel"]] := by
    cases mode <;> exact ⟨⟨rfl, rfl, rfl⟩, rfl⟩
  have hspec : wp (installOs service mode) (fun _ _ => False)
      (fun e s' => e = .exit 0 ∧ Latched service s'.fram) (start (undisturbed.on linux) d) := by
    refine installOs_wp haccepted hconfirmed (undisturbed_kept service) ?_ (fun s h => ?_)
      fun s (h : Unserved service s) => ?_
    · rw [wp_bind, framLatchRecovery, wp_framSet, hserved]
      dsimp only
      rw [wp_bind, wp_stopServices]
      refine (undisturbed_kept service).signedCopy _ _ ?_
      exact ⟨⟨latched_store_needed service _, hstopped⟩, hevents.1, hevents.2⟩
    · unfold verifyEmmcBootable
      rw [wp_bind, wp_mount, h.mounts]
      exact { h with }
    · have hclear : wp (framClearRecoveryAfterVerify service) (fun _ => Unserved service)
          (fun e s' => e = .exit 0 ∧ Latched service s'.fram) s :=
        framClearRecoveryAfterVerify_keeps (fun request s h => h.framSet request h) { h with }
      exact wp_mono hclear (fun _ _ h => ⟨rfl, h.latched⟩) fun _ _ h => h
  obtain ⟨e, s', hrun⟩ := installOs_stops service mode (start (undisturbed.on linux) d)
  obtain ⟨rfl, hlatched⟩ := wp_error hspec hrun
  exact ⟨s', hrun, hlatched⟩

/-- With a healthy service, a restore leaves the flags of a success, and stores the position
of every chunk, only where it does not begin at all, and then a cancelled one must have found
the flags of a success. -/
theorem recorded_iff (service : FramService) (mode : Mode) {linux : Linux} (d : Durable)
    (hhealthy : Healthy linux) :
    (∀ (course : Course) e s',
        installOs service mode (start (course.on linux) d) = .error e s' →
          Recorded service e s') ↔
      ¬ Accepted (mode.entry (start linux d)) ∨
        ¬ Confirmed (mode.entry (start linux d)) ∧ service.flags d.fram = clearedFlags := by
  have haccepted_iff (course : Course) : Accepted (mode.entry (start (course.on linux) d)) ↔
      Accepted (mode.entry (start linux d)) := by
    cases mode <;> exact Iff.rfl
  have hconfirmed_iff (course : Course) : Confirmed (mode.entry (start (course.on linux) d)) ↔
      Confirmed (mode.entry (start linux d)) := by
    cases mode <;> exact Iff.rfl
  have hfram (course : Course) :
      (mode.entry (start (course.on linux) d)).fram = d.fram := by
    cases mode <;> rfl
  have htrace (course : Course) :
      (mode.entry (start (course.on linux) d)).trace = [] := by
    cases mode <;> rfl
  have hnochunk (course : Course) (pos : Nat) (d' : Durable) :
      (.chunkDone pos, d') ∉ (mode.entry (start (course.on linux) d)).trace := by
    rw [htrace]
    exact List.not_mem_nil
  by_cases haccepted : Accepted (mode.entry (start linux d))
  · by_cases hconfirmed : Confirmed (mode.entry (start linux d))
    · constructor
      · intro hall
        obtain ⟨s', hrun, hlatched⟩ := installOs_undisturbed service mode d hhealthy
          ((haccepted_iff _).mpr haccepted) ((hconfirmed_iff _).mpr hconfirmed)
        have hcleared := (hall undisturbed _ s' hrun).success rfl
        rw [Latched, hcleared] at hlatched
        cases hlatched
      · rintro (hrefused | ⟨hdeclined, -⟩)
        · exact absurd haccepted hrefused
        · exact absurd hconfirmed hdeclined
    · constructor
      · intro hall
        have hrun := installOs_declined service ((haccepted_iff undisturbed).mpr haccepted)
          (mt (hconfirmed_iff undisturbed).mp hconfirmed)
        have hcleared := (hall undisturbed _ _ hrun).success rfl
        rw [hfram] at hcleared
        exact Or.inr ⟨hconfirmed, hcleared⟩
      · rintro (hrefused | ⟨-, hcleared⟩) course e s' hrun
        · exact absurd haccepted hrefused
        · rw [installOs_declined service ((haccepted_iff course).mpr haccepted)
            (mt (hconfirmed_iff course).mp hconfirmed)] at hrun
          cases hrun
          refine ⟨fun _ => ?_, fun pos d' hmem => absurd hmem (hnochunk course pos d')⟩
          rw [hfram]
          exact hcleared
  · refine ⟨fun _ => Or.inl haccepted, fun _ course e s' hrun => ?_⟩
    rw [installOs_refused service (mt (haccepted_iff course).mp haccepted)] at hrun
    cases hrun
    exact ⟨nofun, fun pos d' hmem => absurd hmem (hnochunk course pos d')⟩

/-- The service runs and its pid file names it. -/
def pidFileLinux : Linux := { twoChunkLinux [] with servicePidFile := true }

def blankMedia : Durable := ⟨fun _ => 0xff, fun _ _ => 0, fun _ _ => 1⟩

theorem pidFileLinux_healthy : Healthy pidFileLinux := ⟨rfl, rfl, rfl, rfl, rfl, rfl⟩

theorem recorded_iff_pidFile :
    (∀ (course : Course) e s',
        installOs recordService .autoRecover (start (course.on pidFileLinux) blankMedia) =
          .error e s' → Recorded recordService e s') ↔
      ¬ Accepted (Mode.autoRecover.entry (start pidFileLinux blankMedia)) ∨
        ¬ Confirmed (Mode.autoRecover.entry (start pidFileLinux blankMedia)) ∧
          recordService.flags blankMedia.fram = clearedFlags :=
  recorded_iff recordService .autoRecover blankMedia pidFileLinux_healthy

theorem pidFileLinux_outcome :
    (match installOs recordService .sdToEmmc (start pidFileLinux blankMedia) with
      | .error (.exit 0) s' =>
          decide ((recordService.flags s'.fram).emmcRecoveryNeeded = some true) &&
            s'.trace.any fun entry => decide (entry.1 = .chunkDone 8192) &&
              decide ((recordService.flags entry.2.fram).emmcRestoreOffset = none)
      | _ => false) = true := by
  decide +kernel

/-- The restore ends with status 0 and leaves the latch set; after the first chunk there is
no offset. -/
theorem installOs_leaves_latch :
    ∃ s', installOs recordService .sdToEmmc (start pidFileLinux blankMedia) =
        .error (.exit 0) s' ∧
      (recordService.flags s'.fram).emmcRecoveryNeeded = some true ∧
      ∃ d, (.chunkDone 8192, d) ∈ s'.trace ∧
        (recordService.flags d.fram).emmcRestoreOffset = none := by
  have houtcome := pidFileLinux_outcome
  split at houtcome
  · next s' hrun =>
      rw [Bool.and_eq_true, decide_eq_true_eq] at houtcome
      rcases houtcome with ⟨hneeded, hany⟩
      obtain ⟨⟨action, d⟩, hmem, hentry⟩ := List.any_eq_true.mp hany
      rw [Bool.and_eq_true, decide_eq_true_eq, decide_eq_true_eq] at hentry
      rcases hentry with ⟨rfl, hnone⟩
      exact ⟨s', hrun, hneeded, d, hmem, hnone⟩
  · cases houtcome

end RadsatLinux.InstallOs.Shutdown
