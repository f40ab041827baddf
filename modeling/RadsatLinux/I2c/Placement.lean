import RadsatLinux.I2c.Listen

/-!
# What the handlers keep of a slave

`omap_i2c_isr` and `omap_i2c_isr_thread` leave a registered slave and the place of the controller
on the bus alone, and without a slave, or without a recovery, they enable no source for one.
-/

namespace RadsatLinux.I2c.Placement

open RadsatLinux.Library.Bits RadsatLinux.Library.Stateful
open RadsatLinux.I2c.FrameQueue RadsatLinux.I2c.Omap RadsatLinux.I2c.Frames RadsatLinux.I2c.Storm
  RadsatLinux.I2c.Listen

/-- `OMAP_I2C_IE_AAS | OMAP_I2C_IE_BF | OMAP_I2C_IE_ROVR | OMAP_I2C_IE_XUDF` -/
def slaveSources : U16 := statAas ||| statBf ||| statRovr ||| statXudf

/-- The control register of listen mode. -/
def listenCon (speed : Nat) (slave : SlaveClient) : U16 :=
  let con := if 400 < speed then conEn ||| conOpmodeHs else conEn
  if slave.ten then con ||| conXoa else con

/-- The controller has the address of this slave, and is not set up for anything else. -/
structure Placed (slave : SlaveClient) (omap : OmapI2cDev) : Prop where
  oa : omap.oa = slave.addr
  con : omap.con = listenCon omap.speed slave

/-! ## The handlers and the registers -/

/-- Sources are enabled and masked besides. -/
structure MaskFrame (r : OmapI2cDev → OmapI2cDev → Prop) : Prop extends AckFrame r where
  enable : ∀ omap ie, r omap { omap with ie := ie }

namespace MaskFrame

variable {r : OmapI2cDev → OmapI2cDev → Prop} (frame : MaskFrame r)
include frame

theorem writeIe (value : U16) : Keeps r (writeIe value) :=
  frame.bind frame.tick fun _ omap => frame.enable omap value

theorem irqEnableSet (mask : U16) : Keeps r (irqEnableSet mask) :=
  frame.bind frame.tick fun _ omap => frame.enable omap _

theorem irqEnableClr (mask : U16) : Keeps r (irqEnableClr mask) :=
  frame.bind frame.tick fun _ omap => frame.enable omap _

theorem enableIrqs (mask : U16) : Keeps r (enableIrqs mask) := by
  refine frame.bind frame.get fun omap => ?_
  split
  · exact frame.writeIe _
  · exact frame.irqEnableSet _

theorem disableIrqs (mask : U16) : Keeps r (disableIrqs mask) := by
  refine frame.bind frame.get fun omap => ?_
  split
  · exact frame.bind frame.readIe fun _ => frame.writeIe _
  · exact frame.irqEnableClr _

theorem maskIrqSources (mask : U16) : Keeps r (maskIrqSources mask) := by
  have hreadBack : Keeps r (do let _ ← readStat) :=
    frame.bind frame.readStat fun _ => frame.pure _
  dsimp only [Omap.maskIrqSources]
  split
  · exact frame.pure _
  refine frame.bind frame.get fun omap => ?_
  split
  · exact frame.bind frame.readIe fun _ => frame.bind (frame.writeIe _) fun _ => hreadBack
  · exact frame.bind (frame.irqEnableClr _) fun _ => hreadBack

theorem restoreSavedIrqs (saved : U16) : Keeps r (restoreSavedIrqs saved) := by
  have hreadBack : Keeps r (do let _ ← readIe) :=
    frame.bind frame.readIe fun _ => frame.pure _
  refine frame.bind frame.readStat fun _ => ?_
  dsimp only
  split
  · exact frame.pure _
  refine frame.bind frame.get fun omap => ?_
  split
  · exact frame.bind frame.readIe fun _ => frame.bind (frame.writeIe _) fun _ => hreadBack
  · exact frame.bind (frame.irqEnableSet _) fun _ => hreadBack

end MaskFrame

/-- What only a registration or the code elsewhere changes. -/
structure Carries (omap omap' : OmapI2cDev) : Prop where
  slave : omap'.slave = omap.slave
  iestate : omap'.iestate = omap.iestate
  speed : omap'.speed = omap.speed

/-- Besides, a controller in its place stays there. -/
structure Stays (omap omap' : OmapI2cDev) : Prop extends Carries omap omap' where
  placed : ∀ c, omap.slave = some c → Placed c omap → Placed c omap'

section Handlers

variable {omap omap' omap'' : OmapI2cDev}

theorem Carries.trans (h : Carries omap omap') (h' : Carries omap' omap'') :
    Carries omap omap'' :=
  ⟨h'.slave.trans h.slave, h'.iestate.trans h.iestate, h'.speed.trans h.speed⟩

theorem Stays.trans (h : Stays omap omap') (h' : Stays omap' omap'') : Stays omap omap'' where
  toCarries := h.toCarries.trans h'.toCarries
  placed c hslave hplaced := h'.placed c (h.slave.trans hslave) (h.placed c hslave hplaced)

theorem Carries.stays (h : Carries omap omap') (hoa : omap'.oa = omap.oa)
    (hcon : omap'.con = omap.con) : Stays omap omap' := by
  refine ⟨h, fun c _ hplaced => ⟨hoa.trans hplaced.oa, ?_⟩⟩
  rw [hcon, h.speed]
  exact hplaced.con

theorem stays_tick (omap : OmapI2cDev) : Stays omap (tick omap).2 := by
  obtain ⟨stat, rxFifo, incoming, heard, htick⟩ := tick_same omap
  rw [htick]
  exact Carries.stays ⟨rfl, rfl, rfl⟩ rfl rfl

theorem stays_maskFrame : MaskFrame Stays where
  refl _ := Carries.stays ⟨rfl, rfl, rfl⟩ rfl rfl
  trans _ _ _ h h' := h.trans h'
  tick := stays_tick
  moves _ _ _ _ _ _ := Carries.stays ⟨rfl, rfl, rfl⟩ rfl rfl
  ack _ omap := (stays_tick omap).trans (Carries.stays ⟨rfl, rfl, rfl⟩ rfl rfl)
  enable _ _ := Carries.stays ⟨rfl, rfl, rfl⟩ rfl rfl

theorem carries_frame : ListenFrame Carries where
  refl _ := ⟨rfl, rfl, rfl⟩
  trans _ _ _ h h' := h.trans h'
  tick omap := (stays_tick omap).toCarries
  moves _ _ _ _ _ _ := ⟨rfl, rfl, rfl⟩
  ack mask omap := (stays_maskFrame.ack mask omap).toCarries
  registers _ _ _ _ := ⟨rfl, rfl, rfl⟩
  unaddressed _ := ⟨rfl, rfl, rfl⟩

theorem writeOa_carries (value : U16) (omap : OmapI2cDev) :
    Carries omap (writeOa value omap).2 ∧ (writeOa value omap).2.oa = value :=
  ⟨(stays_tick omap).toCarries.trans ⟨rfl, rfl, rfl⟩, rfl⟩

theorem writeCon_carries (value : U16) (omap : OmapI2cDev) :
    Carries omap (writeCon value omap).2 ∧ (writeCon value omap).2.oa = omap.oa ∧
      (writeCon value omap).2.con = value := by
  obtain ⟨stat, rxFifo, incoming, heard, htick⟩ := tick_same omap
  have hwrite : (writeCon value omap).2 = { (tick omap).2 with con := value } := rfl
  rw [hwrite, htick]
  exact ⟨⟨rfl, rfl, rfl⟩, rfl, rfl⟩

/-- Listen mode puts the controller in its place. -/
theorem listenSlave_places {slave : SlaveClient} (hslave : omap.slave = some slave) :
    Carries omap (listenSlave omap).2 ∧ Placed slave (listenSlave omap).2 := by
  have frame := stays_maskFrame
  change wp listenSlave (fun _ omap' => Carries omap omap' ∧ Placed slave omap') omap
  rw [listenSlave, wp_bind, wp_get, hslave]
  dsimp only
  rw [wp_bind, wp_get, wp_bind, wp_modify]
  have hentered : Carries omap { omap with aas := false, idle := true } := ⟨rfl, rfl, rfl⟩
  refine wp_seq (Q := fun _ => Carries omap)
    (hentered.trans (frame.disableIrqs _ _).toCarries) fun _ disabled hdisabled => ?_
  refine wp_seq (Q := fun _ (omap' : OmapI2cDev) => Carries omap omap' ∧ omap'.oa = slave.addr)
    ⟨hdisabled.trans (writeOa_carries _ _).1, rfl⟩ fun _ addressed haddressed => ?_
  refine wp_seq (Q := fun _ omap' => Carries omap omap' ∧ Placed slave omap') ?_
    fun _ configured hconfigured => ?_
  · obtain ⟨hcarries, hoa, hcon⟩ := writeCon_carries (if slave.ten then
      (if 400 < omap.speed then conEn ||| conOpmodeHs else conEn) ||| conXoa
      else (if 400 < omap.speed then conEn ||| conOpmodeHs else conEn)) addressed
    have hspeed := haddressed.1.trans hcarries
    refine ⟨hspeed, hoa.trans haddressed.2, ?_⟩
    rw [hspeed.speed]
    exact hcon
  · have hlater : Stays configured ((do
        clearSlaveState
        enableIrqs ((← get).iestate ||| statAas ||| statRovr ||| statXudf) : Irq Unit)
        configured).2 :=
      frame.bind frame.clearSlaveState (fun _ => frame.bind frame.get fun _ =>
        frame.enableIrqs _) configured
    exact ⟨hconfigured.1.trans hlater.toCarries,
      hlater.placed slave (hconfigured.1.slave.trans hslave) hconfigured.2⟩

theorem listenSlave_stays : Keeps Stays listenSlave := by
  intro omap
  cases hslave : omap.slave with
  | none =>
      rw [listenSlave, bind_apply, get_apply, hslave]
      exact stays_maskFrame.refl omap
  | some slave =>
      obtain ⟨hcarries, hplaced⟩ := listenSlave_places hslave
      refine ⟨hcarries, fun c hc _ => ?_⟩
      cases hslave.symm.trans hc
      exact hplaced

theorem stays_stopFrame : StopFrame Stays where
  toAckFrame := stays_maskFrame.toAckFrame
  stop := by
    have frame := stays_maskFrame
    exact frame.bind (fun _ => Carries.stays ⟨rfl, rfl, rfl⟩ rfl rfl) fun _ =>
      frame.bind (frame.slaveCallback _) fun _ => frame.bind (frame.ack _) fun _ =>
        listenSlave_stays

theorem stays_masterFrame : MasterFrame Stays where
  toAckFrame := stays_maskFrame.toAckFrame
  drop := stays_maskFrame.toAckFrame.dropIgnored stays_maskFrame.maskIrqSources
  complete _ _ := Carries.stays ⟨rfl, rfl, rfl⟩ rfl rfl
  data omap omap' h := by
    obtain ⟨stat, rxFifo, sent, incoming, heard, cmdErr, rfl⟩ := h.same
    exact Carries.stays ⟨rfl, rfl, rfl⟩ rfl rfl

variable (unpatched : Unpatched)

theorem countStall_stays (entryPending exitPending : U16) :
    Keeps Stays (countStall entryPending exitPending) := by
  intro omap
  rw [countStall_same]
  exact Carries.stays ⟨rfl, rfl, rfl⟩ rfl rfl

theorem resetNosleep_carries : Keeps Carries resetNosleep := by
  have frame := carries_frame
  have hdone : Keeps Carries (do
      if (← get).resetDone && decide (revOn3430 < (← get).rev) then
        modify fun omap : OmapI2cDev => { omap with bbValid := false }) := by
    refine frame.bind frame.get fun _ => frame.bind frame.get fun _ => ?_
    split
    · exact fun _ => ⟨rfl, rfl, rfl⟩
    · exact frame.pure _
  have hsoft : Keeps Carries softReset :=
    frame.bind frame.tick fun _ _ => ⟨rfl, rfl, rfl⟩
  refine frame.bind frame.get fun omap => ?_
  split
  · exact frame.pure _
  · exact frame.bind frame.get fun _ => frame.bind (frame.writeCon _) fun _ =>
      frame.bind hsoft fun _ => frame.bind (frame.writeCon _) fun _ => hdone

theorem init_carries : Keeps Carries unpatched.init := by
  intro omap
  obtain ⟨omap', ie, con, hdata, hinit⟩ := unpatched.init_data omap
  obtain ⟨stat, rxFifo, sent, incoming, heard, cmdErr, rfl⟩ := hdata.same
  rw [hinit]
  exact ⟨rfl, rfl, rfl⟩

/-- The recovery puts a slave in its place as well. -/
theorem quiesceIrq_stays (force : Bool) : Keeps Stays (quiesceIrq unpatched force) := by
  have frame := stays_maskFrame
  have hlast : Keeps Stays (do
      let pending ← pendingIrq
      if pending ≠ 0 then
        maskIrqSources pending
        ackStat pending
      modify fun omap : OmapI2cDev =>
        { omap with irqStall := 0, irqStallStat := 0, irqProgress := false }
      return true) := by
    have hdone : Keeps Stays (do
        modify fun omap : OmapI2cDev =>
          { omap with irqStall := 0, irqStallStat := 0, irqProgress := false }
        return true) :=
      frame.bind (fun _ => Carries.stays ⟨rfl, rfl, rfl⟩ rfl rfl) fun _ => frame.pure _
    refine frame.bind frame.pendingIrq fun pending => ?_
    dsimp only
    split
    · exact frame.bind (frame.maskIrqSources _) fun _ => frame.bind (frame.ack _) fun _ => hdone
    · exact hdone
  refine frame.bind frame.pendingIrq fun pending => ?_
  dsimp only
  split
  · exact frame.pure _
  intro omap
  change wp _ (fun _ => Stays omap) omap
  refine wp_seq (Q := fun _ => Carries omap) (carries_frame.maskIrqSources pending omap)
    fun _ masked hmasked => ?_
  refine wp_seq (Q := fun _ => Carries omap)
    (hmasked.trans (carries_frame.ack pending masked)) fun _ acked hacked => ?_
  refine wp_seq (Q := fun _ => Carries omap)
    (hacked.trans (resetNosleep_carries acked)) fun _ reset hreset => ?_
  refine wp_seq (Q := fun _ => Carries omap)
    (hreset.trans (init_carries unpatched reset)) fun _ ready hready => ?_
  rw [wp_bind, wp_get]
  cases hslave : ready.slave with
  | none =>
      refine ⟨hready.trans (hlast ready).toCarries, fun c hc => ?_⟩
      cases (hready.slave.trans hc).symm.trans hslave
  | some slave =>
      have hunaddressed : Carries omap { ready with aas := false } := ⟨hready.slave, hready.iestate,
        hready.speed⟩
      have hslave' : { ready with aas := false }.slave = some slave := hslave
      obtain ⟨hcarries, hplaced⟩ := listenSlave_places hslave'
      have hlater := hlast (listenSlave { ready with aas := false }).2
      refine ⟨(hunaddressed.trans hcarries).trans hlater.toCarries, fun c hc _ => ?_⟩
      cases hslave.symm.trans (hready.slave.trans hc)
      exact hlater.placed slave (hcarries.slave.trans hslave) hplaced

theorem isrThreadWork_stays : Keeps Stays (isrThreadWork unpatched) := by
  have frame := stays_maskFrame
  refine frame.bind (frame.setProgress _) fun _ => frame.bind frame.readIe fun _ =>
    frame.bind frame.pendingIrq fun _ => frame.bind frame.get fun _ => ?_
  split
  · exact frame.bind (stays_stopFrame.slaveEvent _) fun _ => frame.pure _
  · exact frame.bind (stays_masterFrame.masterLoop unpatched _ _) fun _ => frame.pure _

theorem isrThreadFinish_stays (out : AtOut) (abandoned : Bool) :
    Keeps Stays (isrThreadFinish out abandoned) := by
  have frame := stays_maskFrame
  have hfinish : Keeps Stays (do
      setProgress false
      restoreSavedIrqs out.savedIe) :=
    frame.bind (frame.setProgress _) fun _ => frame.restoreSavedIrqs _
  dsimp only [isrThreadFinish]
  split
  · refine frame.bind (fun _ => Carries.stays ⟨rfl, rfl, rfl⟩ rfl rfl) fun _ => ?_
    split
    · exact frame.bind (stays_masterFrame.complete _) fun _ => hfinish
    · exact hfinish
  · exact hfinish

theorem isrThread_stays : Keeps Stays (isrThread unpatched) := by
  have frame := stays_maskFrame
  refine frame.bind (isrThreadWork_stays unpatched) fun out => ?_
  refine frame.bind frame.pendingIrq fun _ => frame.bind ?_ fun force => ?_
  · exact frame.bind (countStall_stays _ _) fun _ => frame.bind frame.get fun _ => frame.pure _
  · exact frame.bind (quiesceIrq_stays unpatched force) fun _ => isrThreadFinish_stays out _

theorem isr_stays : Keeps Stays isr := by
  have frame := stays_maskFrame
  refine frame.bind frame.readIe fun _ => frame.bind frame.readStat fun _ => ?_
  dsimp only
  split
  · refine frame.bind (frame.enableIrqs _) fun _ => frame.bind (fun _ => ?_) fun _ => frame.pure _
    exact Carries.stays ⟨rfl, rfl, rfl⟩ rfl rfl
  · exact frame.pure _

/-! ## The handlers without a slave transaction -/

/-- Neither the enabled nor the saved sources are for a slave. -/
structure Disarmed (omap : OmapI2cDev) : Prop where
  ie : omap.ie &&& slaveSources = 0
  iestate : omap.iestate &&& slaveSources = 0

/-- No source for a slave comes up, and nobody is addressed. -/
structure Unarmed (omap omap' : OmapI2cDev) : Prop where
  slave : omap'.slave = omap.slave
  aas : omap'.aas = omap.aas
  disarmed : Disarmed omap → Disarmed omap'

theorem Unarmed.trans (h : Unarmed omap omap') (h' : Unarmed omap' omap'') :
    Unarmed omap omap'' :=
  ⟨h'.slave.trans h.slave, h'.aas.trans h.aas, h'.disarmed ∘ h.disarmed⟩

theorem or_and_slaveSources {ie iestate : U16} (hie : ie &&& slaveSources = 0)
    (hiestate : iestate &&& slaveSources = 0) : (ie ||| iestate) &&& slaveSources = 0 := by
  rw [BitVec.and_or_distrib_right, hie, hiestate]
  rfl

theorem Disarmed.source {bit : U16} (h : Disarmed omap) (hbit : bit &&& slaveSources = bit) :
    omap.ie &&& bit = 0 :=
  ((Within.refl _).and_mono (within_of_and_eq hbit)).eq_zero h.ie

theorem unarmed_of_same (hslave : omap'.slave = omap.slave) (haas : omap'.aas = omap.aas)
    (hie : omap'.ie = omap.ie) (hiestate : omap'.iestate = omap.iestate) : Unarmed omap omap' :=
  ⟨hslave, haas, fun h => ⟨hie ▸ h.ie, hiestate ▸ h.iestate⟩⟩

theorem Same.unarmed (h : Same omap omap') : Unarmed omap omap' :=
  unarmed_of_same h.slave h.aas h.ie h.iestate

theorem Writes.unarmed {ie : U16} (h : Writes ie omap omap')
    (hie : Disarmed omap → ie &&& slaveSources = 0) : Unarmed omap omap' := by
  refine ⟨h.slave, h.aas, fun hdisarmed => ⟨?_, ?_⟩⟩
  · rw [h.ie]
    exact hie hdisarmed
  · rw [h.iestate]
    exact hdisarmed.iestate

theorem disableIrqs_unarmed (mask : U16) : Keeps Unarmed (disableIrqs mask) := fun omap =>
  Writes.unarmed (disableIrqs_writes mask omap) fun h => (Within.and_left _ _).and_eq_zero h.ie

theorem maskIrqSources_unarmed (mask : U16) : Keeps Unarmed (maskIrqSources mask) := by
  intro omap
  have hreadBack (omap : OmapI2cDev) : Unarmed omap (readStat omap).2 :=
    Same.unarmed (same_frame.readStat omap)
  by_cases hnone : mask = 0
  · rw [maskIrqSources, if_pos hnone]
    exact Same.unarmed (same_frame.refl omap)
  · have hrun : (maskIrqSources mask omap).2 = (readStat (disableIrqs mask omap).2).2 := by
      rw [maskIrqSources, if_neg hnone, disableIrqs, bind_apply, bind_apply, get_apply]
      dsimp only
      split <;> rfl
    rw [hrun]
    exact (disableIrqs_unarmed mask omap).trans (hreadBack _)

theorem unarmed_ackFrame : AckFrame Unarmed where
  refl omap := Same.unarmed (same_frame.refl omap)
  trans _ _ _ h h' := h.trans h'
  tick omap := Same.unarmed (same_tick omap)
  moves omap rxFifo sent idle irqProgress log :=
    Same.unarmed (same_frame.moves omap rxFifo sent idle irqProgress log)
  ack mask omap := Same.unarmed (same_frame.ack mask omap)

theorem unarmed_masterFrame : MasterFrame Unarmed where
  toAckFrame := unarmed_ackFrame
  drop := unarmed_ackFrame.dropIgnored maskIrqSources_unarmed
  complete _ _ := unarmed_of_same rfl rfl rfl rfl
  data omap omap' h := by
    obtain ⟨stat, rxFifo, sent, incoming, heard, cmdErr, rfl⟩ := h.same
    exact unarmed_of_same rfl rfl rfl rfl

/-- `__omap_i2c_init` writes the saved mask to the enable register. -/
def EnablesSaved (unpatched : Unpatched) : Prop :=
  ∀ omap, Within (unpatched.init omap).2.ie (omap.ie ||| omap.iestate)

variable {unpatched}

theorem resetNosleep_unarmed : Keeps Unarmed resetNosleep := by
  have frame := unarmed_masterFrame
  have hcon (value : U16) : Keeps Unarmed (writeCon value) := fun omap =>
    Same.unarmed (writeCon_same value omap)
  have hsoft : Keeps Unarmed softReset := by
    refine frame.bind frame.tick fun _ _ => ?_
    exact unarmed_of_same rfl rfl rfl rfl
  have hdone : Keeps Unarmed (do
      if (← get).resetDone && decide (revOn3430 < (← get).rev) then
        modify fun omap : OmapI2cDev => { omap with bbValid := false }) := by
    refine frame.bind frame.get fun _ => frame.bind frame.get fun _ => ?_
    split
    · exact fun _ => unarmed_of_same rfl rfl rfl rfl
    · exact frame.pure _
  refine frame.bind frame.get fun omap => ?_
  split
  · exact frame.pure _
  · exact frame.bind frame.get fun _ => frame.bind (hcon _) fun _ => frame.bind hsoft fun _ =>
      frame.bind (hcon _) fun _ => hdone

theorem init_unarmed (hinit : EnablesSaved unpatched) : Keeps Unarmed unpatched.init := by
  intro omap
  have hie := hinit omap
  obtain ⟨omap', ie, con, hdata, heq⟩ := unpatched.init_data omap
  obtain ⟨stat, rxFifo, sent, incoming, heard, cmdErr, rfl⟩ := hdata.same
  rw [heq] at hie ⊢
  exact ⟨rfl, rfl, fun h => ⟨hie.and_eq_zero (or_and_slaveSources h.ie h.iestate), h.iestate⟩⟩

/-- The end of a recovery, after the controller listens again. -/
theorem quiesceIrq_last : Keeps Unarmed (do
    let pending ← pendingIrq
    if pending ≠ 0 then
      maskIrqSources pending
      ackStat pending
    modify fun omap : OmapI2cDev =>
      { omap with irqStall := 0, irqStallStat := 0, irqProgress := false }
    return true) := by
  have frame := unarmed_masterFrame
  have hdone : Keeps Unarmed (do
      modify fun omap : OmapI2cDev =>
        { omap with irqStall := 0, irqStallStat := 0, irqProgress := false }
      return true) :=
    frame.bind (fun _ => unarmed_of_same rfl rfl rfl rfl) fun _ => frame.pure _
  refine frame.bind frame.pendingIrq fun pending => ?_
  dsimp only
  split
  · exact frame.bind (maskIrqSources_unarmed _) fun _ => frame.bind (frame.ack _) fun _ => hdone
  · exact hdone

/-- Without a slave there is nothing that a recovery could listen for. -/
theorem quiesceIrq_unarmed (hinit : EnablesSaved unpatched) (hslave : omap.slave = none)
    (force : Bool) : Unarmed omap (quiesceIrq unpatched force omap).2 := by
  have frame := unarmed_masterFrame
  change wp _ (fun _ => Unarmed omap) omap
  refine wp_seq (Q := fun _ => Unarmed omap) (frame.pendingIrq omap) fun pending seen hseen => ?_
  split
  · exact hseen
  refine wp_seq (Q := fun _ => Unarmed omap) (hseen.trans (maskIrqSources_unarmed pending seen))
    fun _ masked hmasked => ?_
  refine wp_seq (Q := fun _ => Unarmed omap) (hmasked.trans (frame.ack pending masked))
    fun _ acked hacked => ?_
  refine wp_seq (Q := fun _ => Unarmed omap) (hacked.trans (resetNosleep_unarmed acked))
    fun _ reset hreset => ?_
  refine wp_seq (Q := fun _ => Unarmed omap) (hreset.trans (init_unarmed hinit reset))
    fun _ ready hready => ?_
  rw [wp_bind, wp_get, hready.slave.trans hslave]
  exact hready.trans (quiesceIrq_last ready)

theorem restoreSavedIrqs_unarmed {saved : U16} (hsaved : saved &&& slaveSources = 0) :
    Keeps Unarmed (restoreSavedIrqs saved) := by
  refine fun omap => Writes.unarmed (restoreSavedIrqs_writes saved omap) fun h => ?_
  refine or_and_slaveSources h.ie ?_
  exact ((Within.and_left _ _).trans (Within.and_left _ _)).and_eq_zero hsaved

theorem isrThreadFinish_unarmed {out : AtOut} (hsaved : out.savedIe &&& slaveSources = 0)
    (abandoned : Bool) : Keeps Unarmed (isrThreadFinish out abandoned) := by
  have frame := unarmed_masterFrame
  have hfinish : Keeps Unarmed (do
      setProgress false
      restoreSavedIrqs out.savedIe) :=
    frame.bind (frame.setProgress _) fun _ => restoreSavedIrqs_unarmed hsaved
  dsimp only [isrThreadFinish]
  split
  · refine frame.bind (fun _ => unarmed_of_same rfl rfl rfl rfl) fun _ => ?_
    split
    · exact frame.bind (frame.complete _) fun _ => hfinish
    · exact hfinish
  · exact hfinish

/-- An invocation that finds nobody addressed runs the master loop. -/
theorem isrThreadWork_unarmed (unpatched : Unpatched) (haas : omap.aas = false) :
    (isrThreadWork unpatched omap).1.savedIe = omap.ie ∧
      Unarmed omap (isrThreadWork unpatched omap).2 := by
  have frame := unarmed_masterFrame
  have hentered : Same omap (entered omap) := ⟨rfl, rfl, rfl, rfl, rfl⟩
  obtain ⟨hsaved, hread⟩ := readIe_returns (entered omap)
  have hpending := hread.trans (same_frame.pendingIrq _)
  have hnobody := hpending.aas.trans (hentered.aas.trans haas)
  have hrun : isrThreadWork unpatched omap =
      (⟨(masterLoop unpatched isrLimit 0 (pendingIrq (readIe (entered omap)).2).2).1,
        (readIe (entered omap)).1, (pendingIrq (readIe (entered omap)).2).1⟩,
        (masterLoop unpatched isrLimit 0 (pendingIrq (readIe (entered omap)).2).2).2) := by
    rw [isrThreadWork, bind_apply, setProgress_apply, bind_apply, bind_apply, bind_apply, get_apply]
    dsimp only
    rw [hnobody]
    rfl
  rw [hrun]
  refine ⟨hsaved, ?_⟩
  exact (Same.unarmed (hentered.trans hpending)).trans (frame.masterLoop unpatched _ _ _)

theorem forceFlag_same (out : AtOut) (exitPending : U16) : Keeps Same (forceFlag out exitPending) :=
  same_frame.bind (countStall_keeps _ _) fun _ => same_frame.bind same_frame.get fun _ =>
    same_frame.pure _

/-- What `omap_i2c_quiesce_irq` returns in this epilogue. -/
def epilogueAbandons (unpatched : Unpatched) (out : AtOut) : Irq Bool := do
  quiesceIrq unpatched (← forceFlag out (← pendingIrq))

/-- A recovery is what could enable sources for a slave, if there is one. -/
theorem isrThreadEpilogue_unarmed (hinit : EnablesSaved unpatched) {out : AtOut}
    (hsaved : out.savedIe &&& slaveSources = 0)
    (hcalm : omap.slave = none ∨ (epilogueAbandons unpatched out omap).1 = false) :
    Unarmed omap (isrThreadEpilogue unpatched out omap).2 := by
  have hforced : Same omap ((do forceFlag out (← pendingIrq)) omap).2 :=
    (same_frame.pendingIrq omap).trans (forceFlag_same out (pendingIrq omap).1 _)
  have hquiet : Unarmed omap (epilogueAbandons unpatched out omap).2 := by
    rcases hcalm with hslave | hspared
    · exact (Same.unarmed hforced).trans (quiesceIrq_unarmed hinit (hforced.slave.trans hslave) _)
    · exact Same.unarmed (hforced.trans (quiesceIrq_same unpatched _ _ hspared))
  exact hquiet.trans (isrThreadFinish_unarmed hsaved _ _)

theorem isrThread_apply (unpatched : Unpatched) (omap : OmapI2cDev) :
    (isrThread unpatched omap).2 = (isrThreadEpilogue unpatched (isrThreadWork unpatched omap).1
      (isrThreadWork unpatched omap).2).2 :=
  rfl

theorem abandoned_apply (unpatched : Unpatched) (omap : OmapI2cDev) :
    abandoned unpatched omap = (epilogueAbandons unpatched (isrThreadWork unpatched omap).1
      (isrThreadWork unpatched omap).2).1 :=
  rfl

theorem isrThread_unarmed (hinit : EnablesSaved unpatched) (haas : omap.aas = false)
    (hdisarmed : Disarmed omap) (hcalm : omap.slave = none ∨ abandoned unpatched omap = false) :
    Unarmed omap (isrThread unpatched omap).2 := by
  obtain ⟨hsaved, hwork⟩ := isrThreadWork_unarmed unpatched haas
  rw [abandoned_apply] at hcalm
  rw [isrThread_apply]
  have hmask := hsaved ▸ hdisarmed.ie
  exact hwork.trans (isrThreadEpilogue_unarmed hinit hmask (hcalm.imp_left hwork.slave.trans))

end Handlers

end RadsatLinux.I2c.Placement
