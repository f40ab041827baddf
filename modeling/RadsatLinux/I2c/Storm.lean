import RadsatLinux.I2c.Quiet

/-!
# A stuck interrupt source

The interrupt of the controller is level triggered, and the thread runs again as long as the
line is up.  With a bit that can be cleared neither by an ack nor by a reset, the line goes
down within `OMAP_I2C_STALL_LIMIT + 1` invocations of `omap_i2c_isr_thread` under the first
register scheme.  Under the second one the status register shows no source that is masked, so
that the restore on return takes the source for clear and enables it again.
-/

namespace RadsatLinux.I2c.Storm

open RadsatLinux.Library.Bits RadsatLinux.Library.Stateful
open RadsatLinux.I2c.FrameQueue RadsatLinux.I2c.Omap RadsatLinux.I2c.Frames RadsatLinux.I2c.Quiet

/-- The sources that hold the line up: what `omap_i2c_pending_irq` reads. -/
def line (omap : OmapI2cDev) : U16 := omap.stat &&& omap.ie &&& statIrqMask

/-- Those of them that neither an ack nor a reset can clear. -/
def stuckLine (omap : OmapI2cDev) : U16 := line omap &&& omap.stuck

variable (unpatched : Unpatched)

/-- So many invocations in a row. -/
def isrThreads (omap : OmapI2cDev) : Nat → OmapI2cDev
  | 0 => omap
  | n + 1 => (isrThread unpatched (isrThreads omap n)).2

/-- The argument `force` in the invocation that starts in this state. -/
def forced (omap : OmapI2cDev) : Bool :=
  ((do
    let out ← isrThreadWork unpatched
    forceFlag out (← pendingIrq)) omap).1

/-! ## The epilogue -/

section Epilogue

variable {omap : OmapI2cDev}

theorem pendingIrq_quiet (hquiet : omap.incoming = []) : pendingIrq omap = (line omap, omap) := by
  rw [pendingIrq, bind_apply, readStat_quiet hquiet, bind_apply, readIe_quiet hquiet]
  dsimp only
  rw [shown_and_ie]
  rfl

/-- Only sources that the status register does not show are enabled again. -/
theorem restoreSavedIrqs_quiet (hquiet : omap.incoming = []) (saved : U16) :
    (restoreSavedIrqs saved omap).2 =
      { omap with ie := omap.ie ||| (saved &&& ~~~ omap.shown &&& statIrqMask) } := by
  have hreadBack (omap' : OmapI2cDev) (h : omap'.incoming = []) :
      ((do let _ ← readIe : Irq Unit) omap').2 = omap' := by
    rw [bind_apply, readIe_quiet h]
    rfl
  rw [restoreSavedIrqs, bind_apply, readStat_quiet hquiet]
  dsimp only
  split
  · rename_i hnone
    rw [hnone]
    change omap = { omap with ie := omap.ie ||| 0#16 }
    rw [BitVec.or_zero]
  rw [bind_apply, get_apply]
  dsimp only
  split
  · rw [bind_apply, readIe_quiet hquiet, bind_apply, writeIe_quiet hquiet]
    exact hreadBack _ hquiet
  · rw [bind_apply, irqEnableSet_quiet hquiet]
    exact hreadBack _ hquiet

/-- What the restore makes of the line: nothing new under the first scheme, and all that is
pending among the saved sources under the second one. -/
theorem line_restored (omap : OmapI2cDev) (saved : U16) :
    line { omap with ie := omap.ie ||| (saved &&& ~~~ omap.shown &&& statIrqMask) } =
      if omap.scheme = 0 then line omap else omap.stat &&& (omap.ie ||| saved) &&& statIrqMask := by
  unfold OmapI2cDev.shown line
  apply BitVec.eq_of_getLsbD_eq
  intro i hlt
  split
  · simp only [BitVec.getLsbD_and, BitVec.getLsbD_or, BitVec.getLsbD_not, hlt, decide_true,
      Bool.true_and]
    cases omap.stat.getLsbD i with
    | false => rfl
    | true => simp only [Bool.not_true, Bool.and_false, Bool.false_and, Bool.or_false]
  · simp only [BitVec.getLsbD_and, BitVec.getLsbD_or, BitVec.getLsbD_not, hlt, decide_true,
      Bool.true_and]
    cases omap.stat.getLsbD i with
    | false => rfl
    | true =>
        cases omap.ie.getLsbD i with
        | true => rfl
        | false => cases statIrqMask.getLsbD i <;> cases saved.getLsbD i <;> rfl

/-- The count changes nothing but the two fields of the count. -/
theorem countStall_same (entryPending exitPending : U16) (omap : OmapI2cDev) :
    (countStall entryPending exitPending omap).2 =
      { omap with
        irqStall := (countStall entryPending exitPending omap).2.irqStall
        irqStallStat := (countStall entryPending exitPending omap).2.irqStallStat } := by
  change (if _ then _ else _ : OmapI2cDev) = { omap with
    irqStall := (if _ then _ else _ : OmapI2cDev).irqStall
    irqStallStat := (if _ then _ else _ : OmapI2cDev).irqStallStat }
  split <;> rfl

/-- An overlap counts, up to 250. -/
theorem countStall_overlap {entryPending exitPending : U16} (h : exitPending &&& entryPending ≠ 0) :
    (countStall entryPending exitPending omap).2.irqStall.toNat =
      if omap.irqStall.toNat < 250 then omap.irqStall.toNat + 1 else omap.irqStall.toNat := by
  change (if _ then _ else _ : OmapI2cDev).irqStall.toNat = _
  rw [if_pos h]
  change (if omap.irqStall.toNat < 250 then _ else _ : U8).toNat = _
  split
  · rename_i hlt
    change (omap.irqStall.toNat + 1) % 256 = _
    omega
  · rfl

theorem forceFlag_apply (out : AtOut) (exitPending : U16) (omap : OmapI2cDev) :
    forceFlag out exitPending omap =
      ((out.gaveUp && exitPending != 0) ||
          decide (stallLimit ≤ (countStall out.entryPending exitPending omap).2.irqStall),
        (countStall out.entryPending exitPending omap).2) :=
  rfl

/-- Without force, or with the line down, nothing is masked. -/
theorem quiesceIrq_spared (hquiet : omap.incoming = []) {force : Bool}
    (h : line omap = 0 ∨ force = false) : quiesceIrq unpatched force omap = (false, omap) := by
  have hspared : (decide (line omap = 0) || !force) = true := by
    rcases h with hline | rfl
    · rw [hline]
      rfl
    · exact Bool.or_true _
  rw [quiesceIrq, bind_apply, pendingIrq_quiet hquiet]
  dsimp only
  rw [if_pos hspared]
  rfl

theorem softReset_acks (hquiet : omap.incoming = []) : Acks omap (softReset omap).2 := by
  rw [softReset, bind_apply, tick_nil hquiet]
  constructor
  · exact hquiet
  · rfl
  · rfl
  · rfl
  · exact id
  · exact Within.and_left _ _
  · exact Within.refl _

theorem resetNosleep_acks (hquiet : omap.incoming = []) : Acks omap (resetNosleep omap).2 := by
  have frame := acks_frame
  have hdone : Keeps (Quietly Acks) (do
      if (← get).resetDone && decide (revOn3430 < (← get).rev) then
        modify fun omap : OmapI2cDev => { omap with bbValid := false }) := by
    refine frame.bind frame.get fun _ => frame.bind frame.get fun _ => ?_
    split
    · exact fun _ hquiet => acks_of_same hquiet rfl rfl rfl rfl id rfl
    · exact frame.pure _
  have hreset : Keeps (Quietly Acks) resetNosleep := by
    refine frame.bind frame.get fun omap => ?_
    split
    · exact frame.pure _
    · exact frame.bind frame.get fun _ => frame.bind (frame.writeCon _) fun _ =>
        frame.bind (fun _ => softReset_acks) fun _ => frame.bind (frame.writeCon _) fun _ => hdone
  exact hreset omap hquiet

theorem init_acks (hquiet : omap.incoming = []) : Acks omap (unpatched.init omap).2 := by
  obtain ⟨omap', ie, con, hdata, hinit⟩ := unpatched.init_data omap
  have hsettles := settles_of_dataAccess hdata hquiet
  rw [hinit]
  exact ⟨hsettles.incoming, hsettles.scheme, hsettles.stuck, hsettles.irqStall, hsettles.aas,
    hsettles.lost, hsettles.keptStuck⟩

theorem line_masked (hquiet : omap.incoming = []) :
    line (maskIrqSources (line omap) omap).2 = 0 := by
  rw [maskIrqSources_quiet hquiet]
  by_contra hset
  obtain ⟨i, hbit⟩ := exists_bit_of_ne_zero hset
  simp only [line, BitVec.getLsbD_and, BitVec.getLsbD_not, Bool.and_eq_true] at hbit
  obtain ⟨⟨hstat, hie, _, hgone⟩, hmask⟩ := hbit
  rw [hstat, hie, hmask] at hgone
  cases hgone

theorem line_settles {omap' : OmapI2cDev} (h : Settles omap omap') :
    Within (line omap') (line omap) :=
  (h.lost.and_mono h.ie).and_mono (Within.refl _)

/-- How a forced recovery ends: it says so, the line is down, and what held it up is gone or
stuck. -/
structure Recovered (omap : OmapI2cDev) (after : Bool × OmapI2cDev) : Prop where
  abandoned : after.1 = true
  incoming : after.2.incoming = []
  scheme : after.2.scheme = omap.scheme
  stuck : after.2.stuck = omap.stuck
  lost : Within after.2.stat omap.stat
  keptStuck : Within (omap.stat &&& omap.stuck) after.2.stat
  line : line after.2 = 0
  cleared : Within (after.2.stat &&& Storm.line omap) omap.stuck

theorem acks_then {α β : Type} {before : OmapI2cDev} {m : Irq α} {f : α → Irq β}
    {P : β × OmapI2cDev → Prop} (hacks : Acks omap before) (hm : Keeps (Quietly Acks) m)
    (hf : ∀ a after, Acks omap after → P (f a after)) : P ((m >>= f) before) :=
  hf _ _ (hacks.trans (hm before hacks.incoming))

theorem quiesceIrq_forced (hquiet : omap.incoming = []) (hline : line omap ≠ 0) :
    Recovered omap (quiesceIrq unpatched true omap) := by
  have hmasked := maskIrqSources_settles (line omap) omap hquiet
  have hacked := ackStat_wipes hmasked.incoming (line omap)
  have hforce : ¬((decide (line omap = 0) || !true) = true) := by
    rw [decide_eq_false hline]
    decide
  rw [quiesceIrq, bind_apply, pendingIrq_quiet hquiet]
  dsimp only
  rw [if_neg hforce, bind_apply, bind_apply]
  generalize (ackStat (line omap) (maskIrqSources (line omap) omap).2).2 = acked at hacked ⊢
  have hbefore : Acks omap acked := hmasked.toAcks.trans hacked.toAcks
  have hdone (after : OmapI2cDev) (h : Acks acked after) (hzero : line after = 0) :
      Recovered omap ((do
        modify fun omap : OmapI2cDev =>
          { omap with irqStall := 0, irqStallStat := 0, irqProgress := false }
        return true : Irq Bool) after) := by
    have hacks := hbefore.trans h
    refine ⟨rfl, hacks.incoming, hacks.scheme, hacks.stuck, hacks.lost, hacks.keptStuck, hzero, ?_⟩
    intro i hbit
    change (after.stat &&& Storm.line omap).getLsbD i = true at hbit
    rw [BitVec.getLsbD_and, Bool.and_eq_true] at hbit
    have hstuck := hacked.wiped i hbit.2 (h.lost i hbit.1)
    exact hmasked.stuck ▸ hstuck
  have haas : Keeps (Quietly Acks) (modify fun omap : OmapI2cDev => { omap with aas := false }) :=
    acks_frame.unaddressed
  have hlast (after : OmapI2cDev) (h : Acks acked after) : Recovered omap ((do
      let pending ← pendingIrq
      if pending ≠ 0 then
        maskIrqSources pending
        ackStat pending
      modify fun omap : OmapI2cDev =>
        { omap with irqStall := 0, irqStallStat := 0, irqProgress := false }
      return true : Irq Bool) after) := by
    rw [bind_apply, pendingIrq_quiet h.incoming]
    dsimp only
    split
    · have hmasked := maskIrqSources_settles (line after) after h.incoming
      have hacked := settles_frame.ack (line after) _ hmasked.incoming
      refine hdone _ ((h.trans hmasked.toAcks).trans hacked.toAcks) ?_
      exact (line_settles hacked).eq_zero (line_masked h.incoming)
    · rename_i hzero
      exact hdone after h (not_not.mp hzero)
  refine acks_then (acks_frame.refl acked hacked.incoming) (fun _ => resetNosleep_acks)
    fun _ _ h => ?_
  refine acks_then h (fun _ => init_acks unpatched) fun _ _ h => ?_
  refine acks_then h acks_frame.get fun _ _ h => ?_
  split
  · refine acks_then h haas fun _ _ h => ?_
    exact acks_then h acks_frame.listenSlave fun _ _ h => hlast _ h
  · exact hlast _ h

/-- The flag that the epilogue computes when it is reached in the state `omap`. -/
def forceAt (out : AtOut) (omap : OmapI2cDev) : Bool := (forceFlag out (line omap) omap).1

/-- The state with the stall count up to date. -/
def counted (out : AtOut) (omap : OmapI2cDev) : OmapI2cDev :=
  (countStall out.entryPending (line omap) omap).2

theorem isrThreadEpilogue_quiet (hquiet : omap.incoming = []) (out : AtOut) :
    isrThreadEpilogue unpatched out omap =
      isrThreadFinish out (quiesceIrq unpatched (forceAt out omap) (counted out omap)).1
        (quiesceIrq unpatched (forceAt out omap) (counted out omap)).2 := by
  rw [isrThreadEpilogue, bind_apply, pendingIrq_quiet hquiet]
  rfl

theorem counted_quiet (hquiet : omap.incoming = []) (out : AtOut) :
    (counted out omap).incoming = [] := by
  rw [counted, countStall_same]
  exact hquiet

theorem line_counted (out : AtOut) : line (counted out omap) = line omap := by
  rw [counted, countStall_same]
  rfl

/-- An epilogue that recovers nothing only restores. -/
theorem isrThreadEpilogue_spared (hquiet : omap.incoming = []) (out : AtOut)
    (h : line omap = 0 ∨ forceAt out omap = false) :
    (isrThreadEpilogue unpatched out omap).2 =
      { omap with
        irqStall := (counted out omap).irqStall
        irqStallStat := (counted out omap).irqStallStat
        irqProgress := false
        ie := omap.ie ||| (out.savedIe &&& ~~~ omap.shown &&& statIrqMask) } := by
  rw [isrThreadEpilogue_quiet unpatched hquiet,
    quiesceIrq_spared unpatched (counted_quiet hquiet out) (by rwa [line_counted])]
  have hfinish : (isrThreadFinish out false (counted out omap)).2 =
      (restoreSavedIrqs out.savedIe { counted out omap with irqProgress := false }).2 := rfl
  rw [hfinish, restoreSavedIrqs_quiet (by exact counted_quiet hquiet out)]
  dsimp only [counted, OmapI2cDev.shown]
  rw [countStall_same]

theorem line_spared (hquiet : omap.incoming = []) (out : AtOut)
    (h : line omap = 0 ∨ forceAt out omap = false) :
    line (isrThreadEpilogue unpatched out omap).2 = if omap.scheme = 0 then line omap
      else omap.stat &&& (omap.ie ||| out.savedIe) &&& statIrqMask := by
  rw [isrThreadEpilogue_spared unpatched hquiet out h]
  exact line_restored omap out.savedIe

/-- After a recovery only what the restore enables again can hold the line up. -/
structure Forced (out : AtOut) (omap omap' : OmapI2cDev) : Prop where
  incoming : omap'.incoming = []
  scheme : omap'.scheme = omap.scheme
  stuck : omap'.stuck = omap.stuck
  keptStuck : Within (omap.stat &&& omap.stuck) omap'.stat
  down : omap.scheme = 0 → line omap' = 0
  saved : omap.scheme ≠ 0 → line omap' = omap'.stat &&& out.savedIe &&& statIrqMask
  lost : Within omap'.stat omap.stat
  cleared : Within (omap'.stat &&& line omap) omap.stuck

theorem isrThreadEpilogue_forced (hquiet : omap.incoming = []) (out : AtOut)
    (hline : line omap ≠ 0) (hforce : forceAt out omap = true) :
    Forced out omap (isrThreadEpilogue unpatched out omap).2 := by
  rw [isrThreadEpilogue_quiet unpatched hquiet, hforce]
  have hrecovered := quiesceIrq_forced unpatched (counted_quiet hquiet out)
    (by rwa [line_counted])
  generalize quiesceIrq unpatched true (counted out omap) = after at hrecovered ⊢
  rw [counted, countStall_same] at hrecovered
  have hfinish : ∃ before, (isrThreadFinish out true after.2).2 =
        (restoreSavedIrqs out.savedIe before).2 ∧
      before.incoming = after.2.incoming ∧ before.scheme = after.2.scheme ∧
      before.stuck = after.2.stuck ∧ before.stat = after.2.stat ∧
      line before = line after.2 := by
    unfold isrThreadFinish
    cases out.completed with
    | true => exact ⟨_, rfl, rfl, rfl, rfl, rfl, rfl⟩
    | false => exact ⟨_, rfl, rfl, rfl, rfl, rfl, rfl⟩
  obtain ⟨before, hrun, hincoming, hscheme, hstuck, hstat, hsame⟩ := hfinish
  have hzero : line before = 0 := hsame.trans hrecovered.line
  have hkept := hscheme.trans hrecovered.scheme
  have hrestored := line_restored before out.savedIe
  rw [hrecovered.abandoned, hrun, restoreSavedIrqs_quiet (hincoming.trans hrecovered.incoming)]
  constructor
  · exact hincoming.trans hrecovered.incoming
  · exact hkept
  · exact hstuck.trans hrecovered.stuck
  · exact hstat ▸ hrecovered.keptStuck
  · intro hfirst
    rw [hrestored, if_pos (hkept.trans hfirst)]
    exact hzero
  · intro hsecond
    rw [hrestored, if_neg (hkept.trans_ne hsecond)]
    -- The line was down, so that only the saved sources count.
    have hnone : before.stat &&& before.ie &&& statIrqMask = 0 := hzero
    apply BitVec.eq_of_getLsbD_eq
    intro i hlt
    have hbit : (before.stat &&& before.ie &&& statIrqMask).getLsbD i = false := by
      rw [hnone]
      exact BitVec.getLsbD_zero
    simp only [BitVec.getLsbD_and, BitVec.getLsbD_or] at hbit ⊢
    cases hie : before.ie.getLsbD i with
    | false => rw [Bool.false_or]
    | true =>
        rw [hie, Bool.and_true] at hbit
        rw [Bool.true_or, Bool.and_true, hbit, Bool.and_right_comm, hbit]
        rfl
  · exact hstat ▸ hrecovered.lost
  · exact hstat ▸ hrecovered.cleared

end Epilogue

/-! ## One invocation -/

section Invocation

variable {omap : OmapI2cDev}

/-- No stop will be taken any more. -/
def Steady (omap : OmapI2cDev) : Prop := omap.aas = false ∨ Blocked omap

/-- The state when the handler has cleared `irq_progress`. -/
def entered (omap : OmapI2cDev) : OmapI2cDev := (setProgress false omap).2

theorem setProgress_apply : setProgress false omap = ((), entered omap) := rfl

theorem serves_entered (hquiet : omap.incoming = []) : Serves notBf omap (entered omap) :=
  (serves_frame notBf).setProgress false omap hquiet

/-- The handler comes to the label `out` with what it saw on entry. -/
theorem isrThreadWork_quiet (hquiet : omap.incoming = []) :
    isrThreadWork unpatched omap =
      if omap.aas = true then
        (⟨⟨(slaveEvent isrLimit (entered omap)).1, false⟩, omap.ie, line omap⟩,
          (slaveEvent isrLimit (entered omap)).2)
      else
        (⟨(masterLoop unpatched isrLimit 0 (entered omap)).1, omap.ie, line omap⟩,
          (masterLoop unpatched isrLimit 0 (entered omap)).2) := by
  have hentered : (entered omap).incoming = [] := hquiet
  have haas : (entered omap).aas = omap.aas := rfl
  rw [isrThreadWork, bind_apply, setProgress_apply, bind_apply, readIe_quiet hentered, bind_apply,
    pendingIrq_quiet hentered, bind_apply, get_apply]
  dsimp only
  rw [haas]
  cases omap.aas with
  | true => rfl
  | false => rfl

theorem isrThreadWork_seen (hquiet : omap.incoming = []) :
    (isrThreadWork unpatched omap).1.savedIe = omap.ie ∧
      (isrThreadWork unpatched omap).1.entryPending = line omap := by
  rw [isrThreadWork_quiet unpatched hquiet]
  split
  · exact ⟨rfl, rfl⟩
  · exact ⟨rfl, rfl⟩

theorem isrThreadWork_acks (hquiet : omap.incoming = []) :
    Acks omap (isrThreadWork unpatched omap).2 := by
  have hentered := serves_entered hquiet
  rw [isrThreadWork_quiet unpatched hquiet]
  split
  · exact hentered.toAcks.trans (acks_frame.slaveEvent isrLimit _ hentered.incoming)
  · exact (hentered.toSettles.trans
      (settles_frame.masterLoop unpatched isrLimit 0 _ hentered.incoming)).toAcks

/-- From a steady state no source is enabled on the way to `out`. -/
theorem isrThreadWork_settles (hquiet : omap.incoming = []) (hsteady : Steady omap) :
    Settles omap (isrThreadWork unpatched omap).2 := by
  have hentered := serves_entered hquiet
  rw [isrThreadWork_quiet unpatched hquiet]
  rcases hsteady with haas | hblocked
  · rw [haas]
    exact hentered.toSettles.trans
      (settles_frame.masterLoop unpatched isrLimit 0 _ hentered.incoming)
  split
  · exact (hentered.trans (slaveEvent_blocked isrLimit _ hentered.incoming hblocked)).toSettles
  · exact hentered.toSettles.trans
      (settles_frame.masterLoop unpatched isrLimit 0 _ hentered.incoming)

/-- One invocation is enough to take a stop that can be taken. -/
theorem isrThreadWork_steady (hquiet : omap.incoming = []) :
    (isrThreadWork unpatched omap).2.aas = false ∨
      Blocked (isrThreadWork unpatched omap).2 ∧ (isrThreadWork unpatched omap).2.ie = omap.ie := by
  have hentered := serves_entered hquiet
  have hacks := isrThreadWork_acks unpatched hquiet
  rw [isrThreadWork_quiet unpatched hquiet] at hacks ⊢
  cases haas : omap.aas with
  | false =>
      rw [haas] at hacks
      left
      exact Bool.eq_false_iff.mpr fun h => by cases haas.symm.trans (hacks.aas h)
  | true =>
      change (slaveEvent isrLimit (entered omap)).2.aas = false ∨
        Blocked (slaveEvent isrLimit (entered omap)).2 ∧
          (slaveEvent isrLimit (entered omap)).2.ie = omap.ie
      by_cases hblocked : Blocked (entered omap)
      · have hserves := slaveEvent_blocked isrLimit _ hentered.incoming hblocked
        exact Or.inr ⟨hblocked.serves hserves, hserves.ieSame⟩
      · left
        refine slaveEvent_takesStop isrLimit _ hentered.incoming hblocked ?_
        exact Nat.lt_of_le_of_lt (hits_le_length _ _) (by decide)

theorem forced_quiet (hquiet : omap.incoming = []) :
    forced unpatched omap =
      forceAt (isrThreadWork unpatched omap).1 (isrThreadWork unpatched omap).2 := by
  rw [forced, bind_apply, bind_apply,
    pendingIrq_quiet (isrThreadWork_acks unpatched hquiet).incoming]
  rfl

/-- No pending source is disabled on the way to `out`, but for stuck ones. -/
theorem isrThreadWork_releases (hquiet : omap.incoming = []) :
    Releases omap (isrThreadWork unpatched omap).2 := by
  have hentered := serves_entered hquiet
  rw [isrThreadWork_quiet unpatched hquiet]
  split
  · exact hentered.releases.trans
      (releases_stopFrame.slaveEvent isrLimit _ hentered.incoming)
  · exact hentered.releases.trans
      (releases_masterFrame.masterLoop unpatched isrLimit 0 _ hentered.incoming)

theorem isrThread_frame (hquiet : omap.incoming = []) :
    (isrThread unpatched omap).2.incoming = [] ∧
      (isrThread unpatched omap).2.scheme = omap.scheme ∧
      (isrThread unpatched omap).2.stuck = omap.stuck := by
  have hacks := isrThreadWork_acks unpatched hquiet
  rw [isrThread, bind_apply]
  by_cases hspared : line (isrThreadWork unpatched omap).2 = 0 ∨
      forceAt (isrThreadWork unpatched omap).1 (isrThreadWork unpatched omap).2 = false
  · rw [isrThreadEpilogue_spared unpatched hacks.incoming _ hspared]
    exact ⟨hacks.incoming, hacks.scheme, hacks.stuck⟩
  · obtain ⟨hline, hforce⟩ := not_or.mp hspared
    have hforced := isrThreadEpilogue_forced unpatched hacks.incoming _ hline
      (Bool.not_eq_false _ ▸ hforce)
    exact ⟨hforced.incoming, hforced.scheme.trans hacks.scheme, hforced.stuck.trans hacks.stuck⟩

/-- What the restore enables again of what holds the line up. -/
def reenabled (omap : OmapI2cDev) : U16 := if omap.scheme = 0 then 0 else stuckLine omap

theorem getLsbD_line (omap : OmapI2cDev) (i : Nat) : (line omap).getLsbD i =
    (omap.stat.getLsbD i && omap.ie.getLsbD i && statIrqMask.getLsbD i) := by
  rw [line, BitVec.getLsbD_and, BitVec.getLsbD_and]

theorem reenabled_bit (hscheme : omap.scheme ≠ 0) {i : Nat} (hstat : omap.stat.getLsbD i = true)
    (hie : omap.ie.getLsbD i = true) (hmask : statIrqMask.getLsbD i = true)
    (hstuck : omap.stuck.getLsbD i = true) : (reenabled omap).getLsbD i = true := by
  rw [reenabled, if_neg hscheme, stuckLine, BitVec.getLsbD_and, getLsbD_line, hstat, hie, hmask,
    hstuck]
  rfl

/-- A saved source that is still pending was masked as a stuck one, or is enabled at `out`. -/
theorem saved_cases (hquiet : omap.incoming = []) (hscheme : omap.scheme ≠ 0) {i : Nat}
    (hstat : (isrThreadWork unpatched omap).2.stat.getLsbD i = true)
    (hsaved : omap.ie.getLsbD i = true) (hmask : statIrqMask.getLsbD i = true) :
    (reenabled omap).getLsbD i = true ∨
      (line (isrThreadWork unpatched omap).2).getLsbD i = true := by
  have hreleases := isrThreadWork_releases unpatched hquiet
  cases hie : (isrThreadWork unpatched omap).2.ie.getLsbD i with
  | true =>
      right
      rw [getLsbD_line, hstat, hie, hmask]
      rfl
  | false =>
      left
      exact reenabled_bit hscheme (hreleases.lost i hstat) hsaved hmask
        (hreleases.released hscheme i hsaved hie hstat)

/-- After an invocation nothing holds the line up but what the restore enables again, and what
held it up at the label `out` if no recovery was forced. -/
theorem isrThread_line (hquiet : omap.incoming = []) {i : Nat}
    (hbit : (line (isrThread unpatched omap).2).getLsbD i = true) :
    (reenabled omap).getLsbD i = true ∨ forced unpatched omap = false ∧
      (line (isrThreadWork unpatched omap).2).getLsbD i = true := by
  have hacks := isrThreadWork_acks unpatched hquiet
  obtain ⟨hsavedIe, -⟩ := isrThreadWork_seen unpatched hquiet
  have hcases := @saved_cases unpatched omap hquiet (i := i)
  rw [isrThread, bind_apply] at hbit
  rw [forced_quiet unpatched hquiet]
  generalize isrThreadWork unpatched omap = work at hacks hsavedIe hcases hbit ⊢
  by_cases hspared : line work.2 = 0 ∨ forceAt work.1 work.2 = false
  · have hup (h : (line work.2).getLsbD i = true) : (reenabled omap).getLsbD i = true ∨
        forceAt work.1 work.2 = false ∧ (line work.2).getLsbD i = true := by
      rcases hspared with hzero | hforce
      · exact absurd hzero (ne_zero_of_bit h)
      · exact Or.inr ⟨hforce, h⟩
    rw [line_spared unpatched hacks.incoming _ hspared, hacks.scheme, hsavedIe] at hbit
    split at hbit
    · exact hup hbit
    · rename_i hscheme
      simp only [BitVec.getLsbD_and, BitVec.getLsbD_or, Bool.and_eq_true, Bool.or_eq_true] at hbit
      obtain ⟨⟨hstat, hie | hsaved⟩, hmask⟩ := hbit
      · refine hup ?_
        rw [getLsbD_line, hstat, hie, hmask]
        rfl
      · exact (hcases hscheme hstat hsaved hmask).elim Or.inl hup
  · obtain ⟨hline, hforce⟩ := not_or.mp hspared
    have hforced := isrThreadEpilogue_forced unpatched hacks.incoming work.1 hline
      (Bool.not_eq_false _ ▸ hforce)
    by_cases hscheme : omap.scheme = 0
    · exact absurd (hforced.down (hacks.scheme.trans hscheme)) (ne_zero_of_bit hbit)
    rw [hforced.saved (hacks.scheme.trans_ne hscheme), hsavedIe] at hbit
    simp only [BitVec.getLsbD_and, Bool.and_eq_true] at hbit
    obtain ⟨⟨hstat, hsaved⟩, hmask⟩ := hbit
    have hbefore := hforced.lost i hstat
    refine Or.inl ((hcases hscheme hbefore hsaved hmask).elim id fun hup => ?_)
    -- What held the line up when the recovery began is gone, or stuck.
    have hstuck := hforced.cleared i (by rw [BitVec.getLsbD_and, hstat, hup]; rfl)
    exact reenabled_bit hscheme (hacks.lost i hbefore) hsaved hmask (hacks.stuck ▸ hstuck)

/-- What the restore enables again holds the line up on return. -/
theorem reenabled_within (hquiet : omap.incoming = []) :
    Within (reenabled omap) (stuckLine (isrThread unpatched omap).2) := by
  intro i hbit
  by_cases hscheme : omap.scheme = 0
  · rw [reenabled, if_pos hscheme] at hbit
    cases BitVec.getLsbD_zero.symm.trans hbit
  rw [reenabled, if_neg hscheme, stuckLine, BitVec.getLsbD_and, getLsbD_line] at hbit
  simp only [Bool.and_eq_true] at hbit
  obtain ⟨⟨⟨hstat, hsaved⟩, hmask⟩, hstuck⟩ := hbit
  have hacks := isrThreadWork_acks unpatched hquiet
  obtain ⟨hsavedIe, -⟩ := isrThreadWork_seen unpatched hquiet
  have hkept := hacks.keptStuck i (by rw [BitVec.getLsbD_and, hstat, hstuck]; rfl)
  rw [stuckLine, BitVec.getLsbD_and, (isrThread_frame unpatched hquiet).2.2, hstuck, Bool.and_true,
    isrThread, bind_apply]
  generalize isrThreadWork unpatched omap = work at hacks hsavedIe hkept ⊢
  have hscheme' := hacks.scheme.trans_ne hscheme
  by_cases hspared : line work.2 = 0 ∨ forceAt work.1 work.2 = false
  · rw [line_spared unpatched hacks.incoming _ hspared, if_neg hscheme', hsavedIe]
    simp only [BitVec.getLsbD_and, BitVec.getLsbD_or, hkept, hsaved, hmask, Bool.or_true,
      Bool.and_self]
  · obtain ⟨hline, hforce⟩ := not_or.mp hspared
    have hforced := isrThreadEpilogue_forced unpatched hacks.incoming work.1 hline
      (Bool.not_eq_false _ ▸ hforce)
    have hleft := hforced.keptStuck i (by rw [BitVec.getLsbD_and, hkept, hacks.stuck, hstuck]; rfl)
    rw [hforced.saved hscheme', hsavedIe]
    simp only [BitVec.getLsbD_and, hleft, hsaved, hmask, Bool.and_self]

/-- Without such a source a forced recovery brings the line down. -/
theorem isrThread_forced (hquiet : omap.incoming = []) (hnone : reenabled omap = 0)
    (hforced : forced unpatched omap = true) : line (isrThread unpatched omap).2 = 0 := by
  by_contra hup
  obtain ⟨i, hbit⟩ := exists_bit_of_ne_zero hup
  rcases isrThread_line unpatched hquiet hbit with hagain | ⟨hspared, -⟩
  · exact ne_zero_of_bit hagain hnone
  · cases hforced.symm.trans hspared

/-- Once the line is down it stays down. -/
theorem isrThread_down (hquiet : omap.incoming = []) (hdown : line omap = 0) :
    line (isrThread unpatched omap).2 = 0 := by
  have hnone : reenabled omap = 0 := by
    rw [reenabled, stuckLine, hdown, ite_eq_left_iff]
    exact fun _ => BitVec.zero_and
  have hsteady : Steady omap := by
    refine Or.inr (Or.inr (Within.eq_zero ?_ hdown))
    exact (Within.refl _).and_mono (within_of_and_eq (by decide))
  have hsettles := isrThreadWork_settles unpatched hquiet hsteady
  by_contra hup
  obtain ⟨i, hbit⟩ := exists_bit_of_ne_zero hup
  rcases isrThread_line unpatched hquiet hbit with hagain | ⟨-, hwork⟩
  · exact ne_zero_of_bit hagain hnone
  · exact ne_zero_of_bit (line_settles hsettles i hwork) hdown

/-- What an invocation without a forced recovery returns with. -/
structure Spared (omap omap' : OmapI2cDev) : Prop where
  steady : Steady omap'
  belowLimit : omap'.irqStall < stallLimit
  counts : Steady omap → omap.irqStall < stallLimit → reenabled omap = 0 → line omap' ≠ 0 →
    omap'.irqStall.toNat = omap.irqStall.toNat + 1

theorem isrThread_spared (hquiet : omap.incoming = []) (hforced : forced unpatched omap = false) :
    Spared omap (isrThread unpatched omap).2 := by
  have hacks := isrThreadWork_acks unpatched hquiet
  obtain ⟨hsaved, hentry⟩ := isrThreadWork_seen unpatched hquiet
  have hsteady := isrThreadWork_steady unpatched hquiet
  have hsettles := isrThreadWork_settles unpatched hquiet
  have hline := fun i => @isrThread_line unpatched omap hquiet i
  rw [forced_quiet unpatched hquiet] at hforced
  rw [isrThread, bind_apply] at hline ⊢
  generalize isrThreadWork unpatched omap = work
    at hacks hsaved hentry hsteady hsettles hforced hline ⊢
  rw [isrThreadEpilogue_spared unpatched hacks.incoming _ (Or.inr hforced)] at hline ⊢
  constructor
  · rcases hsteady with haas | ⟨hblocked, hie⟩
    · exact Or.inl haas
    · right
      rw [hsaved, ← hie, BitVec.and_assoc, or_and_self]
      exact hblocked
  · rw [forceAt, forceFlag_apply, Bool.or_eq_false_iff, decide_eq_false_iff_not] at hforced
    exact BitVec.not_le.mp hforced.2
  · intro hfrom hlt hnone hup
    have hsame : work.2.irqStall = omap.irqStall := hacks.irqStall
    have hoverlap : line work.2 &&& work.1.entryPending ≠ 0 := by
      obtain ⟨i, hbit⟩ := exists_bit_of_ne_zero hup
      rw [hentry, (line_settles (hsettles hfrom)).and_eq]
      rcases hline i hbit with hagain | ⟨-, hwork⟩
      · exact absurd hnone (ne_zero_of_bit hagain)
      · exact ne_zero_of_bit hwork
    have hlt : omap.irqStall.toNat < 8 := hlt
    change (counted work.1 work.2).irqStall.toNat = _
    rw [counted, countStall_overlap hoverlap, hsame, if_pos (by omega)]

end Invocation

/-! ## Invocations in a row -/

section Run

variable {omap : OmapI2cDev}

theorem isrThreads_frame (hquiet : omap.incoming = []) (n : Nat) :
    (isrThreads unpatched omap n).incoming = [] ∧
      (isrThreads unpatched omap n).scheme = omap.scheme := by
  induction n with
  | zero => exact ⟨hquiet, rfl⟩
  | succ n ih =>
      obtain ⟨hincoming, hscheme, -⟩ := isrThread_frame unpatched ih.1
      exact ⟨hincoming, hscheme.trans ih.2⟩

theorem isrThreads_down (hquiet : omap.incoming = []) {k : Nat}
    (hdown : line (isrThreads unpatched omap k) = 0) (n : Nat) :
    line (isrThreads unpatched omap (k + n)) = 0 := by
  induction n with
  | zero => exact hdown
  | succ n ih => exact isrThread_down unpatched (isrThreads_frame unpatched hquiet (k + n)).1 ih

/-- What is enabled again once is enabled again on every return. -/
theorem isrThreads_reenabled (hquiet : omap.incoming = []) (k n : Nat) :
    Within (reenabled (isrThreads unpatched omap k)) (reenabled (isrThreads unpatched omap (k + n)))
    := by
  induction n with
  | zero => exact Within.refl _
  | succ n ih =>
      obtain ⟨hincoming, hscheme⟩ := isrThreads_frame unpatched hquiet (k + n)
      have hnext := reenabled_within unpatched hincoming
      refine ih.trans fun i hbit => ?_
      have hscheme' := (isrThreads_frame unpatched hquiet (k + (n + 1))).2
      rw [reenabled, hscheme']
      split
      · rename_i hfirst
        rw [reenabled, hscheme, if_pos hfirst] at hbit
        exact hbit
      · exact hnext i hbit

/-- As long as the line is up on every return, each of them counts, but for the first. -/
theorem isrThreads_streak (hquiet : omap.incoming = [])
    (hnone : ∀ k, reenabled (isrThreads unpatched omap k) = 0) (n : Nat)
    (hup : ∀ k, 1 ≤ k → k ≤ n + 1 → line (isrThreads unpatched omap k) ≠ 0) :
    Steady (isrThreads unpatched omap (n + 1)) ∧
      (isrThreads unpatched omap (n + 1)).irqStall < stallLimit ∧
      n ≤ (isrThreads unpatched omap (n + 1)).irqStall.toNat := by
  have hspared (k : Nat) (hk : k ≤ n) :
      Spared (isrThreads unpatched omap k) (isrThreads unpatched omap (k + 1)) := by
    have hincoming := (isrThreads_frame unpatched hquiet k).1
    refine isrThread_spared unpatched hincoming (Bool.eq_false_iff.mpr fun hforced => ?_)
    exact hup (k + 1) (Nat.le_add_left 1 k) (Nat.succ_le_succ hk)
      (isrThread_forced unpatched hincoming (hnone k) hforced)
  induction n with
  | zero =>
      exact ⟨(hspared 0 (Nat.le_refl 0)).steady, (hspared 0 (Nat.le_refl 0)).belowLimit,
        Nat.zero_le _⟩
  | succ n ih =>
      have hlast := hspared (n + 1) (Nat.le_refl _)
      obtain ⟨hsteady, hlt, hcount⟩ := ih (fun k hk hle => hup k hk (Nat.le_succ_of_le hle))
        fun k hk => hspared k (Nat.le_succ_of_le hk)
      refine ⟨hlast.steady, hlast.belowLimit, ?_⟩
      have hagain := hup (n + 2) (Nat.le_add_left 1 _) (Nat.le_refl _)
      rw [hlast.counts hsteady hlt (hnone (n + 1)) hagain]
      exact Nat.succ_le_succ hcount

theorem noStorm_of_none (hquiet : omap.incoming = [])
    (hnone : ∀ k, reenabled (isrThreads unpatched omap k) = 0) :
    (∃ k, 1 ≤ k ∧ k ≤ stallLimit.toNat + 1 ∧ line (isrThreads unpatched omap k) = 0) ∧
      ∀ k, forced unpatched (isrThreads unpatched omap k) = true →
        line (isrThreads unpatched omap (k + 1)) = 0 := by
  constructor
  · by_contra hstorm
    have hup (k : Nat) (hk : 1 ≤ k) (hle : k ≤ stallLimit.toNat + 1) :
        line (isrThreads unpatched omap k) ≠ 0 :=
      fun hzero => hstorm ⟨k, hk, hle, hzero⟩
    obtain ⟨-, hlt, hcount⟩ := isrThreads_streak unpatched hquiet hnone stallLimit.toNat hup
    exact Nat.not_lt.mpr hcount hlt
  · intro k hforced
    exact isrThread_forced unpatched (isrThreads_frame unpatched hquiet k).1 (hnone k) hforced

/-- A return with the line down shows that nothing was enabled again before it, and none follows
with the line up. -/
theorem none_of_down (hquiet : omap.incoming = []) {k : Nat}
    (hdown : line (isrThreads unpatched omap k) = 0) (n : Nat) :
    reenabled (isrThreads unpatched omap n) = 0 := by
  have hzero (m : Nat) (h : line (isrThreads unpatched omap m) = 0) :
      reenabled (isrThreads unpatched omap m) = 0 := by
    rw [reenabled, stuckLine, h, ite_eq_left_iff]
    exact fun _ => BitVec.zero_and
  rcases Nat.le_total n k with hle | hle
  · have hkept := isrThreads_reenabled unpatched hquiet n (k - n)
    rw [Nat.add_sub_cancel' hle] at hkept
    exact hkept.eq_zero (hzero k hdown)
  · have hlater := isrThreads_down unpatched hquiet hdown (n - k)
    rw [Nat.add_sub_cancel' hle] at hlater
    exact hzero n hlater

/-- A received byte whose status cannot be cleared. -/
def stuckRrdy (scheme rev : Nat) : OmapI2cDev :=
  { listening with
    stat := statRrdy
    stuck := statRrdy
    scheme := scheme
    rev := rev
    aas := true }

end Run

end RadsatLinux.I2c.Storm
