import RadsatLinux.I2c.Sharing

/-!
# Transfers that meet a radio

`omap_i2c_prepare_master` masks the sources for the slave but leaves the flag that tells the
handler which loop to run.  A transfer that begins after a radio has addressed the controller is
left to the slave loop, which knows nothing of commands.
-/

namespace RadsatLinux.I2c.Transfers

open RadsatLinux.Library.Bits RadsatLinux.Library.Stateful
open RadsatLinux.I2c.FrameQueue RadsatLinux.I2c.Omap RadsatLinux.I2c.Frames RadsatLinux.I2c.Storm
  RadsatLinux.I2c.Listen RadsatLinux.I2c.Placement RadsatLinux.I2c.Sharing

section Handlers

variable {unpatched : Unpatched} {omap omap' omap'' : OmapI2cDev}

/-! ## A slave transaction whose stop is masked -/

/-- The command in progress is not completed. -/
def Pends (omap omap' : OmapI2cDev) : Prop := omap'.completions = omap.completions

theorem pends_frame : MaskFrame Pends where
  refl _ := rfl
  trans _ _ _ h h' := h'.trans h
  tick omap := by
    obtain ⟨stat, rxFifo, incoming, heard, htick⟩ := tick_same omap
    rw [htick]
    rfl
  moves _ _ _ _ _ _ := rfl
  ack _ omap := by
    obtain ⟨stat, rxFifo, incoming, heard, htick⟩ := tick_same omap
    change (tick omap).2.completions = omap.completions
    rw [htick]
  enable _ _ := rfl

/-- Nor do the flags change. -/
structure Awaits (omap omap' : OmapI2cDev) : Prop extends Same omap omap' where
  pends : Pends omap omap'

theorem awaits_frame : AckFrame Awaits where
  refl omap := ⟨same_frame.refl omap, rfl⟩
  trans _ _ _ h h' := ⟨h.toSame.trans h'.toSame, h'.pends.trans h.pends⟩
  tick omap := ⟨same_tick omap, pends_frame.tick omap⟩
  moves omap rxFifo sent idle irqProgress log :=
    ⟨same_frame.moves omap rxFifo sent idle irqProgress log, rfl⟩
  ack mask omap := ⟨same_frame.ack mask omap, pends_frame.ack mask omap⟩

/-- A pass that sees no stop. -/
theorem slaveServe_awaits {stat : U16} (hbf : stat &&& statBf = 0) :
    Keeps Awaits (slaveServe stat) := by
  have frame := awaits_frame
  have hreceive (mask : U16) : Keeps Awaits (do
      slaveWriteReceived (← slaveNumBytes)
      ackStat mask) :=
    frame.bind frame.slaveNumBytes fun _ => frame.bind (frame.slaveWriteReceived _) fun _ =>
      frame.ack _
  unfold slaveServe
  split
  · exact hreceive _
  split
  · exact hreceive _
  split
  · exact frame.bind frame.slaveReadProcessed fun _ => frame.ack _
  split
  · contradiction
  split
  · exact frame.bind frame.readData fun _ => frame.ack _
  split
  · exact frame.bind (frame.writeData _) fun _ => frame.ack _
  · exact frame.ack _

theorem slaveEvent_awaits (left : Nat) (omap : OmapI2cDev) (hbf : omap.ie &&& statBf = 0) :
    Awaits omap (slaveEvent left omap).2 := by
  have frame := awaits_frame
  have hpass {stat : U16} (hstat : stat &&& statBf = 0) : Keeps Awaits (slavePass stat) :=
    frame.bind (frame.slaveFlags stat) fun _ => slaveServe_awaits hstat
  induction left generalizing omap with
  | zero =>
      refine frame.bind frame.readIe (fun _ => frame.bind frame.readStat fun _ => ?_) omap
      dsimp only
      split
      · exact frame.pure _
      · exact frame.bind frame.get fun _ => frame.pure _
  | succ left ih =>
      have hbits : (readIe omap).1 = omap.ie := (readIe_returns omap).1
      have hread := frame.trans _ _ _ (frame.readIe omap) (frame.readStat (readIe omap).2)
      rw [slaveEvent, bind_apply, bind_apply, hbits]
      dsimp only
      split
      · exact hread
      · rw [bind_apply]
        have hstat : (readStat (readIe omap).2).1 &&& omap.ie &&& statBf = 0 := by
          rw [BitVec.and_assoc, hbf]
          exact BitVec.and_zero
        have hpassed := frame.trans _ _ _ hread (hpass hstat (readStat (readIe omap).2).2)
        refine frame.trans _ _ _ hpassed (ih _ ?_)
        rw [hpassed.ie]
        exact hbf

/-- A recovery that does not come about has only looked. -/
theorem quiesceIrq_spared' (force : Bool) (omap : OmapI2cDev)
    (hspared : (quiesceIrq unpatched force omap).1 = false) :
    (quiesceIrq unpatched force omap).2 = (pendingIrq omap).2 := by
  revert hspared
  change wp (quiesceIrq unpatched force)
    (fun abandoned omap' => abandoned = false → omap' = (pendingIrq omap).2) omap
  refine wp_seq (Q := fun _ omap' => omap' = (pendingIrq omap).2) rfl fun pending seen hseen => ?_
  split
  · exact fun _ => hseen
  have hlast (recovered : OmapI2cDev) : wp (do
      let pending ← pendingIrq
      if pending ≠ 0 then
        maskIrqSources pending
        ackStat pending
      modify fun omap : OmapI2cDev =>
        { omap with irqStall := 0, irqStallStat := 0, irqProgress := false }
      return true) (fun abandoned omap' => abandoned = false → omap' = (pendingIrq omap).2)
        recovered := by
    refine wp_next fun pending recovered => ?_
    dsimp only
    split
    · exact fun h => by cases h
    · exact fun h => by cases h
  refine wp_next fun _ omap => wp_next fun _ omap => wp_next fun _ omap => wp_next fun _ omap =>
    wp_next fun _ omap => ?_
  dsimp only
  split
  · exact wp_next fun _ omap => wp_next fun _ omap => hlast omap
  · exact hlast omap

theorem isrThreadWork_awaits (unpatched : Unpatched) (haas : omap.aas = true)
    (hbf : omap.ie &&& statBf = 0) :
    (isrThreadWork unpatched omap).1.savedIe = omap.ie ∧
      Awaits omap (isrThreadWork unpatched omap).2 := by
  have frame := awaits_frame
  have hread : Awaits omap (pendingIrq (readIe (entered omap)).2).2 :=
    frame.bind (frame.setProgress false) (fun _ => frame.bind frame.readIe fun _ =>
      frame.pendingIrq) omap
  have hsaved : (readIe (entered omap)).1 = omap.ie := (readIe_returns (entered omap)).1
  have hrun : isrThreadWork unpatched omap =
      (⟨⟨(slaveEvent isrLimit (pendingIrq (readIe (entered omap)).2).2).1, false⟩,
        (readIe (entered omap)).1, (pendingIrq (readIe (entered omap)).2).1⟩,
        (slaveEvent isrLimit (pendingIrq (readIe (entered omap)).2).2).2) := by
    rw [isrThreadWork, bind_apply, setProgress_apply, bind_apply, bind_apply, bind_apply, get_apply]
    dsimp only
    rw [hread.aas.trans haas]
    rfl
  rw [hrun]
  refine ⟨hsaved, frame.trans _ _ _ hread (slaveEvent_awaits isrLimit _ ?_)⟩
  rw [hread.ie]
  exact hbf

theorem isrThreadEpilogue_pends {out : AtOut}
    (hspared : (epilogueAbandons unpatched out omap).1 = false) :
    Pends omap (isrThreadEpilogue unpatched out omap).2 := by
  have frame := pends_frame
  have hforced : Keeps Pends (do forceFlag out (← pendingIrq)) := by
    refine frame.bind frame.pendingIrq fun exitPending => frame.bind (fun omap => ?_) fun _ =>
      frame.bind frame.get fun _ => frame.pure _
    rw [countStall_same]
    rfl
  have hquiesce : Pends omap (epilogueAbandons unpatched out omap).2 := by
    have hlooked := quiesceIrq_spared' _ _ hspared
    refine frame.trans _ _ _ (hforced omap) ?_
    rw [Pends, epilogueAbandons]
    exact (congrArg OmapI2cDev.completions hlooked).trans (frame.pendingIrq _)
  have hfinish : Keeps Pends (isrThreadFinish out false) :=
    frame.bind (frame.setProgress false) fun _ => frame.restoreSavedIrqs _
  have hrun : (isrThreadEpilogue unpatched out omap).2 = (isrThreadFinish out
      (epilogueAbandons unpatched out omap).1 (epilogueAbandons unpatched out omap).2).2 := rfl
  rw [hrun, hspared]
  exact frame.trans _ _ _ hquiesce (hfinish _)

/-- The slave loop has taken over a transfer. -/
theorem isrThread_awaits (hinit : EnablesSaved unpatched) (haas : omap.aas = true)
    (hdisarmed : Disarmed omap) (hspared : abandoned unpatched omap = false) :
    Unarmed omap (isrThread unpatched omap).2 ∧ Pends omap (isrThread unpatched omap).2 := by
  obtain ⟨hsaved, hwork⟩ := isrThreadWork_awaits unpatched haas
    (hdisarmed.source (by decide))
  rw [abandoned_apply] at hspared
  rw [isrThread_apply]
  have hmask := hsaved ▸ hdisarmed.ie
  constructor
  · exact (Same.unarmed hwork.toSame).trans
      (isrThreadEpilogue_unarmed hinit hmask (Or.inr hspared))
  · exact (isrThreadEpilogue_pends hspared).trans hwork.pends

end Handlers

/-! ## A transfer and the radios -/

variable {κ : Type} [DecidableEq κ] {unpatched : Unpatched} {client : κ → SlaveClient}
  {a : Adapter κ}

/-- The recovery is forced. -/
def abandons (unpatched : Unpatched) (a : Adapter κ) : Move κ → Bool
  | .isrThread => abandoned unpatched a.omap
  | _ => false

/-- The transfer goes on, and no recovery is forced. -/
def goesOn (unpatched : Unpatched) (client : κ → SlaveClient) :
    Adapter κ → List (Move κ) → Bool
  | _, [] => true
  | _, .xferEnd :: _ => false
  | a, m :: rest =>
      !abandons unpatched a m && goesOn unpatched client (a.move unpatched client m) rest

/-- The transfer of `first` goes on in `a`. -/
structure During (client : κ → SlaveClient) (first a : Adapter κ) : Prop extends
    Good client a where
  busy : a.transfer = true
  disarmed : Disarmed a.omap
  aas : a.omap.aas = first.omap.aas
  pends : first.omap.aas = true → Pends first.omap a.omap

theorem isr_pends : Keeps Pends isr := by
  have frame := pends_frame
  refine frame.bind frame.readIe fun _ => frame.bind frame.readStat fun _ => ?_
  dsimp only
  split
  · exact frame.bind (frame.enableIrqs _) fun _ => frame.bind (fun _ => rfl) fun _ => frame.pure _
  · exact frame.pure _

omit [DecidableEq κ] in
/-- The controller goes on, and neither the flag nor the sources for a slave change. -/
theorem During.setOmap {first : Adapter κ} {omap : OmapI2cDev} (h : During client first a)
    (hgood : Good client { a with omap := omap }) (hunarmed : Unarmed a.omap omap)
    (hpends : a.omap.aas = true → Pends a.omap omap) :
    During client first { a with omap := omap } :=
  ⟨hgood, h.busy, hunarmed.disarmed h.disarmed, hunarmed.aas.trans h.aas, fun haas =>
    (hpends (h.aas.trans haas)).trans (h.pends haas)⟩

theorem During.move {first : Adapter κ} (hinit : EnablesSaved unpatched)
    (h : During client first a) {m : Move κ} (hgoing : m ≠ .xferEnd)
    (hspared : abandons unpatched a m = false) :
    During client first (a.move unpatched client m) := by
  have hgood := h.toGood.move hinit m
  have hlocked {stage : Stage} {c : κ} : ¬ (a.stage c = stage ∧ (!a.transfer) = true) := by
    rw [h.busy]
    exact fun hopen => Bool.false_ne_true hopen.2
  have hused : a.usage ≠ 0 := by
    rw [h.usage, h.busy]
    exact Nat.succ_ne_zero _
  cases m with
  | xferEnd => exact absurd rfl hgoing
  | probe c refused =>
      simp only [Adapter.move] at hgood ⊢
      split at hgood
      · next hopen =>
          rw [if_pos hopen]
          exact ⟨hgood, h.busy, h.disarmed, h.aas, h.pends⟩
      · next hopen =>
          rw [if_neg hopen]
          exact h
  | release c =>
      simp only [Adapter.move] at hgood ⊢
      split at hgood
      · next hopen =>
          rw [if_pos hopen]
          exact ⟨hgood, h.busy, h.disarmed, h.aas, h.pends⟩
      · next hopen =>
          rw [if_neg hopen]
          exact h
  | register c refused =>
      rw [Adapter.move, if_neg hlocked]
      exact h
  | unregister c =>
      rw [Adapter.move, if_neg hlocked]
      exact h
  | xferStart refused =>
      rw [Adapter.move, h.busy]
      exact h
  | isr => exact h.setOmap hgood (isr_unarmed h.disarmed) fun _ => isr_pends a.omap
  | isrThread =>
      cases haas : a.omap.aas with
      | false =>
          refine h.setOmap hgood (isrThread_unarmed hinit haas h.disarmed (Or.inr hspared)) ?_
          intro haddressed
          cases haas.symm.trans haddressed
      | true =>
          obtain ⟨hunarmed, hpends⟩ := isrThread_awaits hinit haas h.disarmed hspared
          exact h.setOmap hgood hunarmed fun _ => hpends
  | bus incoming => exact h.setOmap hgood (unarmed_of_same rfl rfl rfl rfl) fun _ => rfl
  | elsewhere w =>
      have hopen : a.transfer = true ∨ a.usage = 0 := Or.inl h.busy
      rw [Adapter.move, if_pos hopen] at hgood ⊢
      exact h.setOmap hgood ⟨rfl, rfl, w.apply_disarmed⟩ fun _ => rfl
  | suspend saved =>
      rw [Adapter.move, if_neg hused]
      exact h

/-- A transfer begins with no source for a slave. -/
theorem during_xferStart (h : Good client a) (hfree : a.transfer = false) :
    During client (a.move unpatched client (.xferStart false))
      (a.move unpatched client (.xferStart false)) := by
  have hrun : a.move unpatched client (.xferStart false) =
      { a.pmGet with omap := (prepareMaster a.omap).2, transfer := true } := by
    rw [Adapter.move, hfree]
    rfl
  have hgood := h.xferStart hfree
  rw [hrun]
  refine ⟨hgood, rfl, ⟨?_, hgood.iestate⟩, rfl, fun _ => rfl⟩
  cases howner : a.owner with
  | none => exact (hgood.alone howner).2
  | some c => exact prepareMaster_masks (h.slave_some howner)

theorem during_run {first : Adapter κ} (hinit : EnablesSaved unpatched) (h : During client first a)
    {moves : List (Move κ)} (hgoing : goesOn unpatched client a moves = true) :
    During client first (a.run unpatched client moves) := by
  induction moves generalizing a with
  | nil => exact h
  | cons m rest ih =>
      have hmoves : m ≠ .xferEnd ∧ abandons unpatched a m = false ∧
          goesOn unpatched client (a.move unpatched client m) rest = true := by
        cases m with
        | xferEnd => cases hgoing
        | _ =>
            simp only [goesOn, Bool.and_eq_true, Bool.not_eq_true'] at hgoing
            exact ⟨nofun, hgoing⟩
      exact ih (h.move hinit hmoves.1 hmoves.2.1) hmoves.2.2

/-- One loop has the interrupts of a whole transfer, and which one it is depends on whether a
radio had addressed the controller when the transfer began.  If so, the handler never completes
the command. -/
theorem run_oneLoop {omap : OmapI2cDev} (hinit : EnablesSaved unpatched) (hprobed : Probed omap)
    (before : List (Move κ)) {during : List (Move κ)} (first : Adapter κ)
    (hfree : ((Adapter.probed omap).run unpatched client before).transfer = false)
    (hfirst : first = ((Adapter.probed omap).run unpatched client before).move unpatched client
      (.xferStart false))
    (hgoing : goesOn unpatched client first during = true) :
    (first.run unpatched client during).omap.aas = first.omap.aas ∧
      (first.omap.aas = true → (first.run unpatched client during).omap.completions =
        first.omap.completions) := by
  subst hfirst
  have hduring := during_run hinit
    (during_xferStart (good_run hinit (good_probed hprobed) before) hfree) hgoing
  exact ⟨hduring.aas, hduring.pends⟩

/-- A radio addresses the controller, and a transfer begins before the thread has run. -/
def addressed : List (Move Bool) :=
  [.probe false false, .register false false, .bus [[.start]], .isr]

/-- The message is sent, and the controller says so. -/
def sent : List (Move Bool) :=
  [.elsewhere ⟨statArdy, 0x601f, 0x8601, 9, [], [], false, 0, true⟩, .isr, .isrThread]

theorem run_oneLoop_addressed :
    (((Adapter.probed unregistered).run byteWise twoClients addressed).move byteWise twoClients
      (.xferStart false)).omap.aas = true ∧
    ((((Adapter.probed unregistered).run byteWise twoClients addressed).move byteWise twoClients
      (.xferStart false)).run byteWise twoClients sent).omap.stat = 0 ∧
    ((((Adapter.probed unregistered).run byteWise twoClients addressed).move byteWise twoClients
      (.xferStart false)).run byteWise twoClients sent).omap.completions = 0 := by
  have haas : (((Adapter.probed unregistered).run byteWise twoClients addressed).move byteWise
      twoClients (.xferStart false)).omap.aas = true := by decide
  refine ⟨haas, by decide, ?_⟩
  exact (run_oneLoop enablesSaved_byteWise ⟨rfl, rfl, by decide, by decide⟩ addressed _
    (by decide) rfl (by decide)).2 haas

end RadsatLinux.I2c.Transfers
