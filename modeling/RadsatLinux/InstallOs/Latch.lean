import RadsatLinux.InstallOs.CopySafety

/-!
# The latch and the first write

`fram_latch_recovery` runs before anything is written, and nothing looks at whether it
worked.  `Kept` collects what has to be checked of an assertion so that everything after the
latch keeps it; with it, the runs that write the eMMC only while the latch is set are told
exactly.
-/

namespace RadsatLinux.InstallOs.Latch

open RadsatLinux.Library.Crash RadsatLinux.Library.BlockDevice RadsatLinux.Library.ShellNumber
open RadsatLinux.Fram.Record RadsatLinux.Fram.Memory RadsatLinux.UBoot.Hardware
open RadsatLinux.InstallOs.Commands RadsatLinux.InstallOs.Script
open RadsatLinux.InstallOs.Restore RadsatLinux.InstallOs.RecordService
open RadsatLinux.InstallOs.CopySafety

/-! ## Requests -/

/-- What becomes of the next request: there is none without `fram-set`, and it goes nowhere
when the service does not run. -/
def requestOutcome (s : System) : Option RequestEvent :=
  if s.framSetExec && s.serviceRunning then some (s.requests.headD .served) else none

theorem wp_framSet (service : FramService) (request : FlagSet) (Q : Unit → System → Prop)
    (R : Stop → System → Prop) (s : System) :
    wp (framSet service request) Q R s ↔
      match requestOutcome s with
      | none => Q () s
      | some .served =>
          Q () { s with
            fram := service.store request s.fram, requests := s.requests.tail,
            trace := (.setFlag request, { s.toDurable with
              fram := service.store request s.fram }) :: s.trace }
      | some .failed => Q () { s with requests := s.requests.tail }
      | some (.cut left) =>
          R (.framCut request s.fram left)
            { s with fram := left, requests := s.requests.tail } := by
  unfold framSet requestOutcome
  rw [wp_bind, wp_get]
  by_cases hreach : (s.framSetExec && s.serviceRunning) = true
  · rw [if_pos hreach, if_neg (by simpa using hreach), wp_bind, wp_nextRequest]
    cases s.requests.headD .served with
    | served => exact Iff.rfl
    | failed => exact Iff.rfl
    | cut left => exact Iff.rfl
  · have hfails : (!s.framSetExec || !s.serviceRunning) = true := by
      rwa [← Bool.not_and, Bool.not_eq_true', ← Bool.not_eq_true]
    rw [if_neg hreach, if_pos hfails]
    exact Iff.rfl

/-! ## Commands that write the eMMC -/

/-- A write of `count` sectors of the eMMC from `first` on: it is recorded, the queues only
get shorter, and the FRAM, the card and the service are as they were. -/
structure WritesEmmc (first count : Nat) (s s' : System) : Prop where
  fram : s'.fram = s.fram
  sd : s'.sd = s.sd
  running : s'.serviceRunning = s.serviceRunning
  mounts : s'.mounts = s.mounts
  dds : s'.dds <:+ s.dds
  signatures : s'.signatures <:+ s.signatures
  mkfs : s'.mkfs <:+ s.mkfs
  trace : ∃ d : Durable, d.fram = s.fram ∧ s'.trace = (.emmcWrite first count, d) :: s.trace

/-- Nothing will happen to what is written. -/
def Uneventful (s : System) : Prop :=
  s.dds = [] ∧ s.signatures = [] ∧ s.mkfs = []

theorem dd_writes (bs skip count : Nat) (s : System) :
    wp (dd .sd .emmc bs skip skip count)
      (fun _ s' => WritesEmmc (skip * bs) (count * bs) s s')
      (fun e s' => e = .powerCut ∧ ¬ Uneventful s ∧ WritesEmmc (skip * bs) (count * bs) s s')
      s := by
  unfold dd
  dsimp only
  rw [wp_bind, record, wp_modify, wp_bind, wp_nextDd]
  cases hevent : s.dds.headD .ok with
  | ok =>
      exact ⟨rfl, rfl, rfl, rfl, List.tail_suffix _, List.suffix_rfl, List.suffix_rfl,
        s.toDurable, rfl, rfl⟩
  | fail left =>
      exact ⟨rfl, rfl, rfl, rfl, List.tail_suffix _, List.suffix_rfl, List.suffix_rfl,
        s.toDurable, rfl, rfl⟩
  | cut left =>
      refine ⟨rfl, ?_, rfl, rfl, rfl, rfl, List.tail_suffix _, List.suffix_rfl, List.suffix_rfl,
        s.toDurable, rfl, rfl⟩
      rintro ⟨hdds, -⟩
      rw [hdds] at hevent
      cases hevent

theorem writeSignature_writes (bytes : Sector) (s : System) :
    wp (writeSignature .emmc bytes) (fun _ s' => WritesEmmc 0 1 s s')
      (fun e s' => e = .powerCut ∧ ¬ Uneventful s ∧ WritesEmmc 0 1 s s') s := by
  unfold writeSignature
  rw [wp_bind, record, wp_modify, wp_bind, wp_nextSignature]
  cases hevent : s.signatures.headD .ok with
  | ok =>
      exact ⟨rfl, rfl, rfl, rfl, List.suffix_rfl, List.tail_suffix _, List.suffix_rfl,
        s.toDurable, rfl, rfl⟩
  | fail left =>
      exact ⟨rfl, rfl, rfl, rfl, List.suffix_rfl, List.tail_suffix _, List.suffix_rfl,
        s.toDurable, rfl, rfl⟩
  | cut left =>
      refine ⟨rfl, ?_, rfl, rfl, rfl, rfl, List.suffix_rfl, List.tail_suffix _, List.suffix_rfl,
        s.toDurable, rfl, rfl⟩
      rintro ⟨-, hsignatures, -⟩
      rw [hsignatures] at hevent
      cases hevent

theorem mkfsExt4_writes (p : Partition) (s : System) :
    wp (mkfsExt4 p) (fun _ s' => WritesEmmc p.start p.size s s')
      (fun e s' => e = .powerCut ∧ ¬ Uneventful s ∧ WritesEmmc p.start p.size s s') s := by
  unfold mkfsExt4
  rw [wp_bind, record, wp_modify, wp_bind, wp_nextMkfs]
  cases hevent : s.mkfs.headD .ok with
  | ok =>
      exact ⟨rfl, rfl, rfl, rfl, List.suffix_rfl, List.suffix_rfl, List.tail_suffix _,
        s.toDurable, rfl, rfl⟩
  | fail left =>
      exact ⟨rfl, rfl, rfl, rfl, List.suffix_rfl, List.suffix_rfl, List.tail_suffix _,
        s.toDurable, rfl, rfl⟩
  | cut left =>
      refine ⟨rfl, ?_, rfl, rfl, rfl, rfl, List.suffix_rfl, List.suffix_rfl, List.tail_suffix _,
        s.toDurable, rfl, rfl⟩
      rintro ⟨-, -, hmkfs⟩
      rw [hmkfs] at hevent
      cases hevent

/-! ## Assertions that the restore keeps -/

/-- `I` survives whatever follows the latch, up to the verification, and `J` holds where one
of these commands stops the script. -/
structure Kept (service : FramService) (I : System → Prop) (J : Stop → System → Prop) :
    Prop where
  writes : ∀ {first count s s'}, I s → WritesEmmc first count s s' → I s'
  stops : ∀ {first count s s'}, I s → ¬ Uneventful s → WritesEmmc first count s s' →
    J .powerCut s'
  offset : ∀ {s} pos, I s → wp (framSetRestoreOffset service pos) (fun _ => I) J s
  chunkDone : ∀ {s} pos, I s → I { s with trace := (.chunkDone pos, s.toDurable) :: s.trace }
  parts : ∀ {s} parts, I s → I { s with parts := parts }

namespace Kept

variable {service : FramService} {I : System → Prop} {J : Stop → System → Prop} {s : System}

/-- A command that writes the eMMC keeps `I`. -/
theorem command (h : Kept service I J) {α : Type} {m : Script α} {first count : Nat}
    (hm : wp m (fun _ s' => WritesEmmc first count s s')
      (fun e s' => e = .powerCut ∧ ¬ Uneventful s ∧ WritesEmmc first count s s') s)
    (hI : I s) : wp m (fun _ => I) J s := by
  refine wp_mono hm (fun _ _ hwrites => h.writes hI hwrites) ?_
  rintro _ s' ⟨rfl, hevents, hwrites⟩
  exact h.stops hI hevents hwrites

theorem runDd (h : Kept service I J) {call : DdCall} (hsame : call.skip = call.seek) (hI : I s) :
    wp (runDd .sd .emmc call) (fun _ => I) J s := by
  unfold Script.runDd
  split
  · rw [hsame]
    exact h.command (dd_writes _ _ _ _) hI
  · exact hI

theorem ddSpan (h : Kept service I J) (count pos : Nat) (hI : I s) :
    wp (ddSpan .sd .emmc count pos pos) (fun _ => I) J s := by
  unfold Script.ddSpan
  refine wp_forM (fun call hcall s hI => ?_) hI
  exact wp_seq (h.runDd (ddCalls_same hcall) hI) fun _ _ hI => hI

theorem copyChunks (h : Kept service I J) (span pos : Nat) (hI : I s) :
    wp (copyChunks service span pos) (fun _ => I) J s := by
  induction pos using copyChunks.induct span generalizing s with
  | case1 pos hlt ih =>
      rw [Script.copyChunks, if_pos hlt]
      refine wp_seq (h.ddSpan _ _ hI) ?_
      intro _ s₁ hI₁
      refine wp_seq (h.offset _ hI₁) ?_
      intro _ s₂ hI₂
      rw [wp_bind, record, wp_modify]
      exact ih (h.chunkDone _ hI₂)
  | case2 pos hge =>
      rw [Script.copyChunks, if_neg hge]
      exact hI

theorem ddSpanResumable (h : Kept service I J) (span pos : Nat) (hI : I s) :
    wp (ddSpanResumable service span pos) (fun _ => I) J s := by
  unfold Script.ddSpanResumable
  dsimp only
  generalize (if testGe pos span then 0 else pos) = pos
  split
  · refine wp_seq (h.offset 0 hI) ?_
    exact fun _ _ hI => h.copyChunks _ _ hI
  · exact h.copyChunks _ _ hI

/-- The copy and the signature. -/
theorem signedCopy (h : Kept service I J) (span pos : Nat) (hI : I s) :
    wp (do
      Script.ddSpanResumable service span pos
      setDiskSignatureEmmc) (fun _ => I) J s :=
  wp_seq (h.ddSpanResumable span pos hI) fun _ s' hI' =>
    h.command (writeSignature_writes _ s') hI'

theorem partxUpdate (h : Kept service I J) (hI : I s) :
    wp partxUpdate (fun _ => I) J s := by
  unfold Script.partxUpdate
  rw [wp_modify]
  split
  · exact h.parts _ hI
  · exact hI

theorem makeHome (h : Kept service I J) (span fullSpan : Nat) (hI : I s) :
    wp (makeHome span fullSpan) (fun _ => I) J s := by
  unfold Script.makeHome
  rw [wp_bind, wp_get]
  split
  · rw [wp_bind, waitForP4, wp_bind, wp_get]
    split
    · rw [wp_pure]
      exact h.command (mkfsExt4_writes _ s) hI
    · rw [wp_pure]
      cases s.lateP4 with
      | some p => exact h.command (mkfsExt4_writes p s) hI
      | none => exact hI
  · exact hI

end Kept

theorem verifyEmmcBootable_mounts (s : System) :
    wp verifyEmmcBootable (fun _ s' => ∃ mounts, s' = { s with mounts := mounts })
      (fun _ _ => False) s := by
  unfold verifyEmmcBootable
  rw [wp_bind, wp_mount]
  cases s.mounts.headD none with
  | some files => exact ⟨_, rfl⟩
  | none =>
      dsimp only
      rw [wp_bind, wp_mount]
      split <;> exact ⟨_, rfl⟩

/-- What every request keeps, and the record of the clearing, is kept by all of it. -/
theorem framClearRecoveryAfterVerify_keeps {service : FramService} {P : System → Prop}
    {J : Stop → System → Prop} {s : System}
    (hset : ∀ request s, P s → wp (framSet service request) (fun _ => P) J s)
    (h : P { s with trace := (.clearRecovery, s.toDurable) :: s.trace }) :
    wp (framClearRecoveryAfterVerify service) (fun _ => P) J s := by
  unfold framClearRecoveryAfterVerify
  rw [wp_bind, record, wp_modify]
  refine wp_seq (hset _ _ h) ?_
  intro _ s₁ h₁
  refine wp_seq (hset _ _ h₁) ?_
  intro _ s₂ h₂
  refine wp_seq (hset _ _ h₂) ?_
  exact fun _ s₃ h₃ => hset _ _ h₃

/-- A run that gets past the confirmation: `I` is established by the signed copy and kept by what
follows it, and `I'` holds of an eMMC found bootable. -/
theorem installOs_wp {service : FramService} {mode : Mode} {s : System} {I I' : System → Prop}
    {J : Stop → System → Prop} (haccepted : Accepted (mode.entry s))
    (hconfirmed : Confirmed (mode.entry s)) (hkept : Kept service I J)
    (hcopy : wp (do
        framLatchRecovery service
        stopServices
        ddSpanResumable service (spanOf (mode.entry s))
          (startPos service (mode.entry s) (spanOf (mode.entry s)))
        setDiskSignatureEmmc)
      (fun _ => I) J (mode.entry s))
    (hverify : ∀ s, I s → wp verifyEmmcBootable
      (fun bootable s' => if bootable then I' s' else J (.exit 1) s') J s)
    (hclear : ∀ s, I' s →
      wp (framClearRecoveryAfterVerify service) (fun _ s' => J (.exit 0) s') J s) :
    wp (installOs service mode) (fun _ _ => False) J s := by
  rw [wp, installOs_eq]
  change wp (doSdToEmmc service >>= fun _ => throw (.exit 0)) (fun _ _ => False) J (mode.entry s)
  refine wp_seq (Q := fun _ s' => J (.exit 0) s') ?_ fun _ _ h => h
  rcases checkMedia_cases (mode.entry s) with ⟨-, hcheck⟩ | ⟨hrefused, -⟩
  · rcases confirm_cases (mode.entry s) with ⟨-, hconfirm⟩ | ⟨hdeclined, -⟩
    · unfold doSdToEmmc
      refine wp_of_ok hcheck (wp_of_ok (framGetRestoreOffset_run service _) ?_)
      refine wp_of_ok hconfirm ?_
      rw [wp_bind] at hcopy ⊢
      refine wp_mono hcopy (fun _ s₁ hcopy => ?_) fun _ _ h => h
      rw [wp_bind] at hcopy ⊢
      refine wp_mono hcopy (fun _ s₂ hcopy => ?_) fun _ _ h => h
      rw [wp_bind] at hcopy ⊢
      refine wp_mono hcopy (fun _ s₃ hcopy => ?_) fun _ _ h => h
      refine wp_seq hcopy ?_
      intro _ s₄ h₄
      refine wp_seq (hkept.partxUpdate h₄) ?_
      intro _ s₅ h₅
      refine wp_seq (hkept.makeHome _ _ h₅) ?_
      intro _ s₆ h₆
      refine wp_seq (hverify s₆ h₆) ?_
      intro bootable s₇ h₇
      cases bootable with
      | false => exact h₇
      | true => exact hclear s₇ h₇
    · exact absurd hconfirmed hdeclined
  · exact absurd haccepted hrefused

/-! ## Writing under the latch -/

def Latched (service : FramService) (chip : Chip) : Prop :=
  (service.flags chip).emmcRecoveryNeeded = some true

def WrittenLatched (service : FramService) : Action × Durable → Prop
  | (.emmcWrite _ count, d) => 0 < count → Latched service d.fram
  | _ => True

/-- No sector of the eMMC was written while the latch was not set. -/
def UnderLatch (service : FramService) (trace : List (Action × Durable)) : Prop :=
  ∀ entry ∈ trace, WrittenLatched service entry

theorem underLatch_cons {service : FramService} {entry : Action × Durable}
    {trace : List (Action × Durable)} :
    UnderLatch service (entry :: trace) ↔
      WrittenLatched service entry ∧ UnderLatch service trace :=
  List.forall_mem_cons

section

variable {service : FramService} {s : System}

theorem WritesEmmc.underLatch {first count : Nat} {s' : System}
    (h : WritesEmmc first count s s') (hlatched : Latched service s.fram)
    (htrace : UnderLatch service s.trace) : UnderLatch service s'.trace := by
  obtain ⟨d, hfram, hd⟩ := h.trace
  rw [hd]
  refine underLatch_cons.mpr ⟨fun _ => ?_, htrace⟩
  rw [hfram]
  exact hlatched

theorem latched_store_offset {chip : Chip} (offset : U64) :
    Latched service (service.store (.emmcRestoreOffset offset) chip) ↔ Latched service chip := by
  unfold Latched
  rw [service.flags_store]
  exact Iff.rfl

theorem framSet_underLatch (request : FlagSet) (h : UnderLatch service s.trace) :
    wp (framSet service request) (fun _ s' => UnderLatch service s'.trace)
      (fun _ s' => UnderLatch service s'.trace) s := by
  rw [wp_framSet]
  split
  · exact h
  · exact underLatch_cons.mpr ⟨trivial, h⟩
  · exact h
  · exact h

theorem framSet_notUnderLatch (request : FlagSet) (h : ¬ UnderLatch service s.trace) :
    wp (framSet service request) (fun _ s' => ¬ UnderLatch service s'.trace)
      (fun _ s' => ¬ UnderLatch service s'.trace) s := by
  rw [wp_framSet]
  split
  · exact h
  · exact fun hunder => h (underLatch_cons.mp hunder).2
  · exact h
  · exact h

theorem underLatch_kept (service : FramService) :
    Kept service (fun s => Latched service s.fram ∧ UnderLatch service s.trace)
      (fun _ s => UnderLatch service s.trace) where
  writes := by
    rintro first count s s' ⟨hlatched, htrace⟩ hwrites
    refine ⟨?_, hwrites.underLatch hlatched htrace⟩
    rw [hwrites.fram]
    exact hlatched
  stops := fun ⟨hlatched, htrace⟩ _ hwrites => hwrites.underLatch hlatched htrace
  offset := by
    rintro s pos ⟨hlatched, htrace⟩
    rw [framSetRestoreOffset, wp_framSet]
    split
    · exact ⟨hlatched, htrace⟩
    · exact ⟨(latched_store_offset _).mpr hlatched, underLatch_cons.mpr ⟨trivial, htrace⟩⟩
    · exact ⟨hlatched, htrace⟩
    · exact htrace
  chunkDone := fun _ ⟨hlatched, htrace⟩ =>
    ⟨hlatched, underLatch_cons.mpr ⟨trivial, htrace⟩⟩
  parts := fun _ h => h

/-- A write without the latch stays on record. -/
theorem notUnderLatch_kept (service : FramService) :
    Kept service (fun s => ¬ UnderLatch service s.trace)
      (fun _ s => ¬ UnderLatch service s.trace) where
  writes := by
    intro first count s s' h hwrites
    obtain ⟨d, -, hd⟩ := hwrites.trace
    rw [hd]
    exact fun hunder => h (underLatch_cons.mp hunder).2
  stops := by
    intro first count s s' h _ hwrites
    obtain ⟨d, -, hd⟩ := hwrites.trace
    rw [hd]
    exact fun hunder => h (underLatch_cons.mp hunder).2
  offset := fun _ h => framSet_notUnderLatch _ h
  chunkDone := fun _ h hunder => h (underLatch_cons.mp hunder).2
  parts := fun _ h => h

/-! ## The first write -/

theorem WritesEmmc.notUnderLatch {first count : Nat} {s' : System}
    (h : WritesEmmc first count s s') (hcount : 0 < count) (hlatched : ¬ Latched service s.fram) :
    ¬ UnderLatch service s'.trace := by
  obtain ⟨d, hfram, hd⟩ := h.trace
  rw [hd]
  intro hunder
  have hwritten := (underLatch_cons.mp hunder).1 hcount
  rw [hfram] at hwritten
  exact hlatched hwritten

theorem dd_unlatched {bs skip count : Nat} (hcount : 0 < count * bs)
    (hlatched : ¬ Latched service s.fram) :
    wp (dd .sd .emmc bs skip skip count) (fun _ s' => ¬ UnderLatch service s'.trace)
      (fun _ s' => ¬ UnderLatch service s'.trace) s :=
  wp_mono (dd_writes bs skip count s) (fun _ _ h => h.notUnderLatch hcount hlatched)
    fun _ _ h => h.2.2.notUnderLatch hcount hlatched

theorem setDiskSignatureEmmc_unlatched (hlatched : ¬ Latched service s.fram) :
    wp setDiskSignatureEmmc (fun _ s' => ¬ UnderLatch service s'.trace)
      (fun _ s' => ¬ UnderLatch service s'.trace) s :=
  wp_mono (writeSignature_writes _ s) (fun _ _ h => h.notUnderLatch Nat.one_pos hlatched)
    fun _ _ h => h.2.2.notUnderLatch Nat.one_pos hlatched

theorem ddSpan_unlatched {count : Nat} (pos : Nat) (hcount : 0 < count) (hsmall : count < 2 ^ 31)
    (hlatched : ¬ Latched service s.fram) :
    wp (ddSpan .sd .emmc count pos pos) (fun _ s' => ¬ UnderLatch service s'.trace)
      (fun _ s' => ¬ UnderLatch service s'.trace) s := by
  have hkept := notUnderLatch_kept service
  by_cases hpos : pos = 0
  · subst hpos
    rw [ddSpan_start .sd .emmc hsmall]
    split
    · exact wp_seq (dd_unlatched (by omega) hlatched) fun _ _ h => h
    · split
      · refine wp_seq (dd_unlatched (by omega) hlatched) ?_
        intro _ s₁ h₁
        exact wp_seq (hkept.command (dd_writes _ _ _ _) h₁) fun _ _ h => h
      · exact wp_seq (dd_unlatched (by omega) hlatched) fun _ _ h => h
  · rw [ddSpan_offset .sd .emmc (Or.inl hpos)]
    exact wp_seq (dd_unlatched (by omega) hlatched) fun _ _ h => h

/-- The loop and the signature write without the latch; where the loop does not run, the signature
is the first that is written. -/
theorem copyChunks_unlatched (span pos : Nat) (hlatched : ¬ Latched service s.fram) :
    wp (do
      copyChunks service span pos
      setDiskSignatureEmmc) (fun _ s' => ¬ UnderLatch service s'.trace)
      (fun _ s' => ¬ UnderLatch service s'.trace) s := by
  have hkept := notUnderLatch_kept service
  rw [copyChunks]
  split
  · next hlt =>
      obtain ⟨hcount, hchunk, -⟩ := chunkAt_of_testLt hlt
      have hsmall : chunkAt span pos < 2 ^ 31 := Nat.lt_of_le_of_lt hchunk (by decide)
      have hrest {s : System} (h : ¬ UnderLatch service s.trace) :
          wp (do
            copyChunks service span (nextPos span pos)
            setDiskSignatureEmmc) (fun _ s' => ¬ UnderLatch service s'.trace)
            (fun _ s' => ¬ UnderLatch service s'.trace) s :=
        wp_seq (hkept.copyChunks _ _ h) fun _ s' h' =>
          hkept.command (writeSignature_writes _ s') h'
      simp only [bind_assoc]
      refine wp_seq (ddSpan_unlatched pos hcount hsmall hlatched) ?_
      intro _ s₁ h₁
      refine wp_seq (hkept.offset _ h₁) ?_
      intro _ s₂ h₂
      rw [wp_bind, record, wp_modify]
      exact hrest (hkept.chunkDone _ h₂)
  · rw [pure_bind]
    exact setDiskSignatureEmmc_unlatched hlatched

/-- A signed copy that begins without the latch writes without it, unless the power goes while the
offset is reset. -/
theorem signedCopy_unlatched {span pos : Nat} (hrestart : testGe pos span = false)
    (hlatched : ¬ Latched service s.fram)
    (hreset : testGt pos 0 = false → ∀ left, requestOutcome s ≠ some (.cut left)) :
    wp (do
      ddSpanResumable service span pos
      setDiskSignatureEmmc) (fun _ s' => ¬ UnderLatch service s'.trace)
      (fun _ s' => ¬ UnderLatch service s'.trace) s := by
  unfold ddSpanResumable
  rw [hrestart]
  simp only [Bool.false_eq_true, if_false]
  cases htest : testGt pos 0 with
  | true =>
      simp only [Bool.not_true, Bool.false_eq_true, if_false]
      exact copyChunks_unlatched span pos hlatched
  | false =>
      simp only [Bool.not_false, if_true, bind_assoc]
      rw [wp_bind, framSetRestoreOffset, wp_framSet]
      split
      · exact copyChunks_unlatched span pos hlatched
      · exact copyChunks_unlatched span pos fun h => hlatched ((latched_store_offset _).mp h)
      · exact copyChunks_unlatched span pos hlatched
      · next left hcut => exact absurd hcut (hreset htest left)

end

/-! ## Latch before write -/

def stopped (s : System) : System :=
  { s with serviceRunning := s.serviceRunning && !s.servicePidFile }

theorem wp_stopServices (Q : Unit → System → Prop) (R : Stop → System → Prop) (s : System) :
    wp stopServices Q R s ↔ Q () (stopped s) := Iff.rfl

/-- What becomes of the second request, once the services have been stopped. -/
def secondOutcome (s : System) : Option RequestEvent :=
  requestOutcome (stopped { s with requests := s.requests.tail })

theorem requestOutcome_none_iff {s : System} :
    requestOutcome s = none ↔ (s.framSetExec && s.serviceRunning) = false := by
  unfold requestOutcome
  cases s.framSetExec && s.serviceRunning with
  | false => simp
  | true => simp

/-- Stopping the services makes no request arrive. -/
theorem requestOutcome_stopped {s : System} (requests : List RequestEvent)
    (h : requestOutcome s = none) :
    requestOutcome (stopped { s with requests := requests }) = none := by
  rw [requestOutcome_none_iff] at h ⊢
  change (s.framSetExec && (s.serviceRunning && !s.servicePidFile)) = false
  rw [← Bool.and_assoc, h, Bool.false_and]

/-- The run begins no copy, or the latch is set when it does. -/
inductive LatchAssured (service : FramService) (s : System) : Prop where
  | refused (h : ¬ Accepted s)
  | declined (h : ¬ Confirmed s)
  | latched (h : Latched service s.fram)
  | served (h : requestOutcome s = some .served)
  | latchCut {left : Chip} (h : requestOutcome s = some (.cut left))
  | resetCut {left : Chip} (hstart : testGt (startPos service s (spanOf s)) 0 = false)
      (h : secondOutcome s = some (.cut left))

theorem latched_store_needed (service : FramService) (chip : Chip) :
    Latched service (service.store (.emmcRecoveryNeeded true) chip) := by
  unfold Latched
  rw [service.flags_store]
  rfl

/-- The latch, the end of the services and the signed copy, where the latch is assured. -/
theorem LatchAssured.copy {service : FramService} {s : System} (h : LatchAssured service s)
    (haccepted : Accepted s) (hconfirmed : Confirmed s)
    (hunder : UnderLatch service s.trace) :
    wp (do
        framLatchRecovery service
        stopServices
        ddSpanResumable service (spanOf s) (startPos service s (spanOf s))
        setDiskSignatureEmmc)
      (fun _ s' => Latched service s'.fram ∧ UnderLatch service s'.trace)
      (fun _ s' => UnderLatch service s'.trace) s := by
  have hlatch : wp (framLatchRecovery service)
      (fun _ s₁ => UnderLatch service s₁.trace ∧
        (Latched service s₁.fram ∨ testGt (startPos service s (spanOf s)) 0 = false ∧
          ∃ left, requestOutcome (stopped s₁) = some (.cut left)))
      (fun _ s' => UnderLatch service s'.trace) s := by
    rw [framLatchRecovery, wp_framSet]
    split
    · next hnone =>
        refine ⟨hunder, Or.inl ?_⟩
        cases h with
        | refused h => exact absurd haccepted h
        | declined h => exact absurd hconfirmed h
        | latched h => exact h
        | served h => cases hnone.symm.trans h
        | latchCut h => cases hnone.symm.trans h
        | resetCut hstart h => cases (requestOutcome_stopped _ hnone).symm.trans h
    · exact ⟨underLatch_cons.mpr ⟨trivial, hunder⟩, Or.inl (latched_store_needed _ _)⟩
    · next hfailed =>
        refine ⟨hunder, ?_⟩
        cases h with
        | refused h => exact absurd haccepted h
        | declined h => exact absurd hconfirmed h
        | latched h => exact Or.inl h
        | served h => cases hfailed.symm.trans h
        | latchCut h => cases hfailed.symm.trans h
        | resetCut hstart h => exact Or.inr ⟨hstart, _, h⟩
    · exact hunder
  refine wp_seq hlatch ?_
  rintro _ s₁ ⟨hunder₁, hlatched | ⟨hstart, left, hcut⟩⟩
  · rw [wp_bind, wp_stopServices]
    exact (underLatch_kept service).signedCopy _ _ ⟨hlatched, hunder₁⟩
  · -- The power goes while the offset is set to 0.
    have hrestart := testGe_startPos service s haccepted.span_pos
    rw [wp_bind, wp_stopServices, ddSpanResumable, hrestart]
    simp only [Bool.false_eq_true, if_false, hstart, Bool.not_false, if_true, bind_assoc]
    rw [wp_bind, framSetRestoreOffset, wp_framSet, hcut]
    exact hunder₁

/-- Where the latch is not assured, something is written without it. -/
theorem copy_unlatched {service : FramService} {s : System} (haccepted : Accepted s)
    (h : ¬ LatchAssured service s) :
    wp (do
        framLatchRecovery service
        stopServices
        ddSpanResumable service (spanOf s) (startPos service s (spanOf s))
        setDiskSignatureEmmc)
      (fun _ s' => ¬ UnderLatch service s'.trace)
      (fun _ s' => ¬ UnderLatch service s'.trace) s := by
  have hlatched : ¬ Latched service s.fram := fun hlatched => h (.latched hlatched)
  have hlatch : wp (framLatchRecovery service)
      (fun _ s₁ => ¬ Latched service s₁.fram ∧
        (testGt (startPos service s (spanOf s)) 0 = false → ∀ left,
          requestOutcome (stopped s₁) ≠ some (.cut left)))
      (fun _ s' => ¬ UnderLatch service s'.trace) s := by
    rw [framLatchRecovery, wp_framSet]
    split
    · next hnone =>
        refine ⟨hlatched, fun _ left hcut => ?_⟩
        cases (requestOutcome_stopped s.requests hnone).symm.trans hcut
    · next hserved => exact absurd (.served hserved) h
    · exact ⟨hlatched, fun hstart left hcut => h (.resetCut hstart hcut)⟩
    · next hcut => exact absurd (.latchCut hcut) h
  refine wp_seq hlatch ?_
  rintro _ s₁ ⟨hlatched₁, hreset⟩
  rw [wp_bind, wp_stopServices]
  exact signedCopy_unlatched (testGe_startPos service s haccepted.span_pos) hlatched₁ hreset

/-- A run of the script writes no sector of the eMMC without the latch exactly when it
begins no copy or the latch is set when it does. -/
theorem latchedBeforeWrite_iff (service : FramService) (mode : Mode) (linux : Linux)
    (d : Durable) :
    (∀ e s', installOs service mode (start linux d) = .error e s' →
        UnderLatch service s'.trace) ↔
      LatchAssured service (mode.entry (start linux d)) := by
  have hunder : UnderLatch service (mode.entry (start linux d)).trace := by
    cases mode <;> nofun
  by_cases haccepted : Accepted (mode.entry (start linux d))
  · by_cases hconfirmed : Confirmed (mode.entry (start linux d))
    · constructor
      · intro hall
        by_contra hnot
        have hspec : wp (installOs service mode) (fun _ _ => False)
            (fun _ s' => ¬ UnderLatch service s'.trace) (start linux d) := by
          refine installOs_wp haccepted hconfirmed (notUnderLatch_kept service)
            (copy_unlatched haccepted hnot) (fun s h => ?_)
            fun s (h : ¬ UnderLatch service s.trace) => ?_
          · refine wp_mono (verifyEmmcBootable_mounts s) ?_ fun _ _ h => h.elim
            rintro bootable _ ⟨mounts, rfl⟩
            cases bootable <;> exact h
          · exact framClearRecoveryAfterVerify_keeps
              (fun request s h => framSet_notUnderLatch request h)
              fun hunder => h (underLatch_cons.mp hunder).2
        obtain ⟨e, s', hrun⟩ := installOs_stops service mode (start linux d)
        exact wp_error hspec hrun (hall e s' hrun)
      · intro hassured e s' hrun
        have hspec : wp (installOs service mode) (fun _ _ => False)
            (fun _ s' => UnderLatch service s'.trace) (start linux d) := by
          refine installOs_wp haccepted hconfirmed (underLatch_kept service)
            (hassured.copy haccepted hconfirmed hunder) (fun s h => ?_)
            fun s (h : UnderLatch service s.trace) => ?_
          · refine wp_mono (verifyEmmcBootable_mounts s) ?_ fun _ _ h => h.elim
            rintro bootable _ ⟨mounts, rfl⟩
            cases bootable <;> exact h.2
          · exact framClearRecoveryAfterVerify_keeps
              (fun request s h => framSet_underLatch request h)
              (underLatch_cons.mpr ⟨trivial, h⟩)
        have hunder' := wp_error hspec hrun
        exact hunder'
    · refine ⟨fun _ => .declined hconfirmed, fun _ e s' hrun => ?_⟩
      rw [installOs_declined service haccepted hconfirmed] at hrun
      cases hrun
      exact hunder
  · refine ⟨fun _ => .refused haccepted, fun _ e s' hrun => ?_⟩
    rw [installOs_refused service haccepted] at hrun
    cases hrun
    exact hunder

/-- The service refuses the first request. -/
def refusedLatch : System :=
  start { twoChunkLinux [] with requests := [.failed] } ⟨fun _ => 0xff, fun _ _ => 0, fun _ _ => 1⟩

/-- The first two chunks are written while the latch is not set. -/
theorem refusedLatch_outcome :
    (match installOs recordService .sdToEmmc refusedLatch with
      | .error (.exit 0) s' => s'.trace.any fun entry =>
          decide (entry.1 = .emmcWrite 0 8192) &&
            decide ((recordService.flags entry.2.fram).emmcRecoveryNeeded ≠ some true)
      | _ => false) = true := by
  decide +kernel

/-- The service refuses the latch, and the script goes on to write the eMMC and ends with
status 0. -/
theorem installOs_writes_without_latch :
    ∃ s', installOs recordService .sdToEmmc refusedLatch = .error (.exit 0) s' ∧
      ∃ d, (.emmcWrite 0 8192, d) ∈ s'.trace ∧
        (recordService.flags d.fram).emmcRecoveryNeeded ≠ some true := by
  have houtcome := refusedLatch_outcome
  split at houtcome
  · next s' hrun =>
      obtain ⟨⟨action, d⟩, hmem, hentry⟩ := List.any_eq_true.mp houtcome
      rw [Bool.and_eq_true, decide_eq_true_eq, decide_eq_true_eq] at hentry
      rcases hentry with ⟨rfl, hunlatched⟩
      exact ⟨s', hrun, d, hmem, hunlatched⟩
  · cases houtcome

end RadsatLinux.InstallOs.Latch
