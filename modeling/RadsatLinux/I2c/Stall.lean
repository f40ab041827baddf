import RadsatLinux.I2c.Storm

/-!
# The stall count and a live transfer

The epilogue of `omap_i2c_isr_thread` counts the returns at which a source that was pending
on entry is pending.  It does so whether or not the handler moved bytes in between, so that
a transfer whose next byte arrives before every return is taken for a stuck source.
-/

namespace RadsatLinux.I2c.Stall

open RadsatLinux.Library.Stateful
open RadsatLinux.I2c.FrameQueue RadsatLinux.I2c.Omap RadsatLinux.I2c.Frames RadsatLinux.I2c.Storm

variable (unpatched : Unpatched)

/-- `irq_progress` when the handler comes to its epilogue. -/
def progressed (omap : OmapI2cDev) : Bool := (isrThreadWork unpatched omap).2.irqProgress

/-- The sources that are pending on entry, and pending when the handler is about to return. -/
def pendingAgain (omap : OmapI2cDev) : U16 :=
  ((do
    let out ← isrThreadWork unpatched
    return (← pendingIrq) &&& out.entryPending) omap).1

/-- States in which the handler is entered one time after the other.  Between two of them
anything may happen on the bus and in the driver, but the stall count stays. -/
def Invocations : U8 → List OmapI2cDev → Prop
  | _, [] => True
  | stall, omap :: rest =>
      omap.irqStall = stall ∧ Invocations (isrThread unpatched omap).2.irqStall rest

instance decidableInvocations : ∀ stall run, Decidable (Invocations unpatched stall run)
  | _, [] => isTrue trivial
  | stall, omap :: rest =>
      have := decidableInvocations (isrThread unpatched omap).2.irqStall rest
      inferInstanceAs (Decidable (omap.irqStall = stall ∧
        Invocations unpatched (isrThread unpatched omap).2.irqStall rest))

/-- After so many returns in a row with a source that is pending again, there are never
`OMAP_I2C_STALL_LIMIT` of them. -/
def StreaksEnd : Nat → List OmapI2cDev → Prop
  | _, [] => True
  | streak, omap :: rest =>
      if pendingAgain unpatched omap = 0 then StreaksEnd 0 rest
      else streak + 1 < stallLimit.toNat ∧ StreaksEnd (streak + 1) rest

/-! ## The count -/

section Count

variable {omap : OmapI2cDev}

def SameStall (omap omap' : OmapI2cDev) : Prop := omap'.irqStall = omap.irqStall

theorem sameStall_frame : Frame SameStall where
  refl _ := rfl
  trans _ _ _ h h' := h'.trans h
  tick omap := by
    obtain ⟨stat, rxFifo, incoming, heard, htick⟩ := tick_same omap
    change (tick omap).2.irqStall = omap.irqStall
    rw [htick]
  moves _ _ _ _ _ _ := rfl

theorem sameStall_ackFrame : AckFrame SameStall where
  toFrame := sameStall_frame
  ack _ := sameStall_frame.bind sameStall_frame.tick fun _ _ => rfl

theorem sameStall_listenFrame : ListenFrame SameStall where
  toAckFrame := sameStall_ackFrame
  registers _ _ _ _ := rfl
  unaddressed _ := rfl

theorem sameStall_masterFrame : MasterFrame SameStall where
  toAckFrame := sameStall_ackFrame
  drop := sameStall_ackFrame.dropIgnored sameStall_listenFrame.maskIrqSources
  complete _ _ := rfl
  data _ _ h := by
    obtain ⟨stat, rxFifo, sent, incoming, heard, cmdErr, rfl⟩ := h.same
    rfl

theorem isrThreadWork_stall (omap : OmapI2cDev) :
    SameStall omap (isrThreadWork unpatched omap).2 := by
  have frame := sameStall_frame
  have hwork : Keeps SameStall (isrThreadWork unpatched) := by
    refine frame.bind (frame.setProgress _) fun _ => frame.bind frame.readIe fun _ =>
      frame.bind frame.pendingIrq fun _ => frame.bind frame.get fun _ => ?_
    split
    · exact frame.bind (sameStall_listenFrame.slaveEvent _) fun _ => frame.pure _
    · exact frame.bind (sameStall_masterFrame.masterLoop unpatched _ _) fun _ => frame.pure _
  exact hwork omap

/-! ## Giving up -/

/-- No byte moved if the handler gave up. -/
def Idle (gaveUp : Bool) (omap : OmapI2cDev) : Prop := gaveUp = true → omap.irqProgress = false

theorem slaveEvent_gaveUp (left : Nat) (omap : OmapI2cDev) : wp (slaveEvent left) Idle omap := by
  induction left generalizing omap with
  | zero =>
      refine wp_next fun bits omap => wp_next fun stat omap => ?_
      dsimp only
      split
      · exact fun h => by cases h
      · rw [wp_bind, wp_get, wp_pure]
        intro h
        rwa [Bool.not_eq_true'] at h
  | succ left ih =>
      refine wp_next fun bits omap => wp_next fun stat omap => ?_
      dsimp only
      split
      · exact fun h => by cases h
      · exact wp_next fun _ omap => ih omap

theorem masterLoop_gaveUp (left : Nat) (err : U16) (omap : OmapI2cDev) :
    wp (masterLoop unpatched left err) (fun exit => Idle exit.gaveUp) omap := by
  induction left generalizing err omap with
  | zero =>
      refine wp_next fun bits omap => wp_next fun stat omap => wp_next fun stat omap => ?_
      split
      · exact fun h => by cases h
      rw [wp_bind, wp_get]
      split
      · exact fun h => by cases h
      · rename_i hidle
        exact fun _ => Bool.eq_false_iff.mpr hidle
  | succ left ih =>
      refine wp_next fun bits omap => wp_next fun stat omap => wp_next fun stat omap => ?_
      split
      · exact fun h => by cases h
      refine wp_next fun next omap => ?_
      cases next with
      | again err => exact ih err omap
      | finish err => exact fun h => by cases h

theorem isrThreadWork_gaveUp (hlive : progressed unpatched omap = true) :
    (isrThreadWork unpatched omap).1.gaveUp = false := by
  have hidle : wp (isrThreadWork unpatched) (fun out => Idle out.gaveUp) omap := by
    refine wp_next fun _ omap => wp_next fun _ omap => wp_next fun _ omap =>
      wp_next fun _ omap => ?_
    split
    · exact wp_seq (slaveEvent_gaveUp _ omap) fun _ _ h => h
    · exact wp_seq (masterLoop_gaveUp unpatched _ _ omap) fun _ _ h => h
  refine Bool.eq_false_iff.mpr fun hgaveUp => ?_
  cases hlive.symm.trans (hidle hgaveUp)

/-! ## One invocation -/

/-- The pending sources when the handler is about to return, and the state after that read. -/
def atExit (omap : OmapI2cDev) : U16 × OmapI2cDev :=
  pendingIrq (isrThreadWork unpatched omap).2

theorem atExit_stall (omap : OmapI2cDev) : SameStall omap (atExit unpatched omap).2 :=
  sameStall_frame.trans _ _ _ (isrThreadWork_stall unpatched omap) (sameStall_frame.pendingIrq _)

/-- The state with the stall count up to date. -/
def recount (omap : OmapI2cDev) : OmapI2cDev :=
  (countStall (isrThreadWork unpatched omap).1.entryPending (atExit unpatched omap).1
    (atExit unpatched omap).2).2

theorem recount_reset (h : pendingAgain unpatched omap = 0) :
    (recount unpatched omap).irqStall = 0 := by
  change (if pendingAgain unpatched omap ≠ 0 then _ else _ : OmapI2cDev).irqStall = 0
  rw [if_neg (not_not.mpr h)]

theorem recount_advance (h : pendingAgain unpatched omap ≠ 0) :
    (recount unpatched omap).irqStall.toNat =
      if omap.irqStall.toNat < 250 then omap.irqStall.toNat + 1 else omap.irqStall.toNat := by
  have hcount := @countStall_overlap (atExit unpatched omap).2 _ _ h
  rwa [atExit_stall unpatched omap] at hcount

theorem forced_live (hlive : progressed unpatched omap = true) :
    forced unpatched omap = decide (stallLimit ≤ (recount unpatched omap).irqStall) := by
  rw [forced, bind_apply, bind_apply, forceFlag_apply, isrThreadWork_gaveUp unpatched hlive]
  rfl

/-- An invocation that is not forced leaves the count as its epilogue made it. -/
theorem isrThread_stall (h : forced unpatched omap = false) :
    (isrThread unpatched omap).2.irqStall = (recount unpatched omap).irqStall := by
  have hspared : wp (quiesceIrq unpatched false) (fun abandoned after =>
      abandoned = false ∧ SameStall (recount unpatched omap) after) (recount unpatched omap) := by
    refine wp_seq (Q := fun _ => SameStall (recount unpatched omap))
      (sameStall_frame.pendingIrq _) fun pending after hsame => ?_
    have hunforced : (decide (pending = 0) || !false) = true := Bool.or_true _
    rw [if_pos hunforced]
    exact ⟨rfl, hsame⟩
  have hfinish (out : AtOut) (after : OmapI2cDev) :
      SameStall after (isrThreadFinish out false after).2 :=
    sameStall_frame.bind (sameStall_frame.setProgress _)
      (fun _ => sameStall_listenFrame.restoreSavedIrqs _) after
  have hrun : (isrThread unpatched omap).2 =
      (isrThreadFinish (isrThreadWork unpatched omap).1
        (quiesceIrq unpatched (forced unpatched omap) (recount unpatched omap)).1
        (quiesceIrq unpatched (forced unpatched omap) (recount unpatched omap)).2).2 := rfl
  rw [hrun, h, hspared.1]
  exact (hfinish _ _).trans hspared.2

end Count

/-! ## Runs -/

theorem forced_overlap {omap : OmapI2cDev} (hlive : progressed unpatched omap = true)
    (hagain : pendingAgain unpatched omap ≠ 0) :
    forced unpatched omap = false ↔ omap.irqStall.toNat + 1 < stallLimit.toNat := by
  have hcount := recount_advance unpatched hagain
  have hlimit : stallLimit.toNat = 8 := rfl
  rw [forced_live unpatched hlive, decide_eq_false_iff_not, BitVec.not_le, BitVec.lt_def, hcount]
  split
  · exact Iff.rfl
  · omega

/-- When every invocation moves a byte, the recovery is never forced exactly if there are never
`OMAP_I2C_STALL_LIMIT` returns in a row with a source that is pending again. -/
theorem neverForced_iff (stall : U8) (run : List OmapI2cDev)
    (hrun : Invocations unpatched stall run)
    (hlive : ∀ omap ∈ run, progressed unpatched omap = true) :
    (∀ omap ∈ run, forced unpatched omap = false) ↔ StreaksEnd unpatched stall.toNat run := by
  induction run generalizing stall with
  | nil => exact ⟨fun _ => trivial, fun _ omap hmem => by cases hmem⟩
  | cons omap rest ih =>
      obtain ⟨rfl, hrest⟩ := hrun
      have hfirst := hlive omap List.mem_cons_self
      have hlater := ih _ hrest fun later hmem => hlive later (List.mem_cons_of_mem _ hmem)
      rw [List.forall_mem_cons, StreaksEnd]
      split
      · rename_i hagain
        have hspared : forced unpatched omap = false := by
          rw [forced_live unpatched hfirst, recount_reset unpatched hagain]
          rfl
        rw [isrThread_stall unpatched hspared, recount_reset unpatched hagain] at hlater
        exact ⟨fun h => hlater.mp h.2, fun hends => ⟨hspared, hlater.mpr hends⟩⟩
      · rename_i hagain
        have hoverlap := forced_overlap unpatched hfirst hagain
        have hcount := recount_advance unpatched hagain
        have hnext (hspared : forced unpatched omap = false) :
            (isrThread unpatched omap).2.irqStall.toNat = omap.irqStall.toNat + 1 := by
          have hlt : omap.irqStall.toNat + 1 < 8 := hoverlap.mp hspared
          rw [isrThread_stall unpatched hspared, hcount, if_pos (by omega)]
        constructor
        · rintro ⟨hspared, hrest⟩
          exact ⟨hoverlap.mp hspared, hnext hspared ▸ hlater.mp hrest⟩
        · rintro ⟨hlt, hends⟩
          have hspared := hoverlap.mpr hlt
          exact ⟨hspared, hlater.mpr ((hnext hspared).symm ▸ hends)⟩

/-! ## A transfer that is abandoned -/

/-- One byte is in the receive FIFO when the handler is entered, and the next one arrives just
before the handler looks at what is pending on return. -/
def streaming (stall : Nat) : OmapI2cDev :=
  { listening with
    stat := statRrdy
    ie := listening.ie ||| statBf
    aas := true
    rxFifo := [0x41]
    irqStall := stall
    incoming := List.replicate 10 [] ++ [[.byte 0x42]] }

/-- Seven such invocations are spared. -/
theorem neverForced_sevenBytes :
    (∀ omap ∈ (List.range 7).map streaming, forced byteWise omap = false) ↔
      StreaksEnd byteWise (0 : U8).toNat ((List.range 7).map streaming) :=
  neverForced_iff byteWise 0 ((List.range 7).map streaming) (by decide +kernel)
    (by decide +kernel)

/-- A byte moves in each of eight invocations, and the last one abandons the transfer. -/
theorem not_neverForced_eightBytes : ∃ run, Invocations byteWise 0 run ∧
    (∀ omap ∈ run, progressed byteWise omap = true) ∧
      ¬ ∀ omap ∈ run, forced byteWise omap = false := by
  refine ⟨(List.range 8).map streaming, ?_, ?_, ?_⟩
  · decide +kernel
  · decide +kernel
  · decide +kernel

end RadsatLinux.I2c.Stall
