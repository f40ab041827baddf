import RadsatLinux.I2c.Omap
import RadsatLinux.Library.Stateful

/-!
# What the loops of the driver keep

A relation between states that is closed under what a loop does to the device holds between
the states before and after the loop.  `Frame` has the closure conditions that every piece
of the handlers needs; the loops that ack, listen or complete a command need more.
-/

namespace RadsatLinux.I2c.Frames

open RadsatLinux.Library.Stateful
open RadsatLinux.I2c.FrameQueue RadsatLinux.I2c.Omap

/-- Time passes, and data and the flags of the transfer move. -/
structure Frame (r : OmapI2cDev → OmapI2cDev → Prop) : Prop where
  refl : ∀ omap, r omap omap
  trans : ∀ omap₁ omap₂ omap₃, r omap₁ omap₂ → r omap₂ omap₃ → r omap₁ omap₃
  tick : Keeps r tick
  moves : ∀ omap rxFifo sent idle irqProgress log,
    r omap { omap with
      rxFifo := rxFifo
      sent := sent
      idle := idle
      irqProgress := irqProgress
      log := log }

/-- Besides, status bits are acked. -/
structure AckFrame (r : OmapI2cDev → OmapI2cDev → Prop) : Prop extends Frame r where
  ack : ∀ mask, Keeps r (ackStat mask)

/-- Besides, a stop is taken. -/
structure StopFrame (r : OmapI2cDev → OmapI2cDev → Prop) : Prop extends AckFrame r where
  stop : Keeps r slaveStop

/-- Besides, the controller may go back to listening. -/
structure ListenFrame (r : OmapI2cDev → OmapI2cDev → Prop) : Prop extends AckFrame r where
  registers : ∀ omap ie con oa, r omap { omap with ie := ie, con := con, oa := oa }
  unaddressed : ∀ omap, r omap { omap with aas := false }

/-- Besides, the ready bits of the other direction are dropped, and commands end. -/
structure MasterFrame (r : OmapI2cDev → OmapI2cDev → Prop) : Prop extends AckFrame r where
  drop : ∀ stat, Keeps r (dropIgnored stat)
  complete : ∀ err, Keeps r (completeCmd err)
  data : ∀ omap omap', DataAccess omap omap' → r omap omap'

variable {r : OmapI2cDev → OmapI2cDev → Prop} {α β : Type}

/-! ## Accesses -/

theorem busEvents_same (events : List BusEvent) (omap : OmapI2cDev) :
    ∃ stat rxFifo heard, events.foldl busEvent omap =
      { omap with stat := stat, rxFifo := rxFifo, heard := heard } := by
  induction events generalizing omap with
  | nil => exact ⟨omap.stat, omap.rxFifo, omap.heard, rfl⟩
  | cons event events ih =>
      obtain ⟨stat, rxFifo, heard, hrest⟩ := ih (busEvent omap event)
      refine ⟨stat, rxFifo, heard, ?_⟩
      rw [List.foldl_cons, hrest]
      cases event with
      | start => rfl
      | byte value => rfl
      | stop => rfl

/-- What comes in on the bus sets status bits and fills the receive FIFO. -/
theorem tick_same (omap : OmapI2cDev) : ∃ stat rxFifo incoming heard, (tick omap).2 =
    { omap with stat := stat, rxFifo := rxFifo, incoming := incoming, heard := heard } := by
  cases hincoming : omap.incoming with
  | nil =>
      refine ⟨omap.stat, omap.rxFifo, omap.incoming, omap.heard, ?_⟩
      rw [tick_nil hincoming]
  | cons events rest =>
      obtain ⟨stat, rxFifo, heard, hevents⟩ := busEvents_same events { omap with incoming := rest }
      refine ⟨stat, rxFifo, rest, heard, ?_⟩
      rw [tick_cons hincoming, hevents]

namespace Frame

variable (frame : Frame r)
include frame

theorem pure (a : α) : Keeps r (Pure.pure a : Irq α) := Keeps.pure frame.refl a

theorem bind {m : Irq α} {f : α → Irq β} (hm : Keeps r m) (hf : ∀ a, Keeps r (f a)) :
    Keeps r (m >>= f) :=
  Keeps.bind frame.trans hm hf

theorem get : Keeps r (MonadState.get : Irq OmapI2cDev) := frame.refl

theorem setIdle (idle : Bool) : Keeps r (setIdle idle) :=
  fun omap => frame.moves omap omap.rxFifo omap.sent idle omap.irqProgress omap.log

theorem setProgress (progress : Bool) : Keeps r (setProgress progress) :=
  fun omap => frame.moves omap omap.rxFifo omap.sent omap.idle progress omap.log

theorem slaveCallback (event : I2cSlaveEvent) : Keeps r (slaveCallback event) :=
  fun omap => frame.moves omap omap.rxFifo omap.sent omap.idle omap.irqProgress _

theorem readStat : Keeps r readStat :=
  frame.bind frame.tick fun _ => frame.bind frame.get fun _ => frame.pure _

theorem readIe : Keeps r readIe :=
  frame.bind frame.tick fun _ => frame.bind frame.get fun _ => frame.pure _

theorem readRxStat : Keeps r readRxStat :=
  frame.bind frame.tick fun _ => frame.bind frame.get fun _ => frame.pure _

theorem readData : Keeps r readData := by
  refine frame.bind frame.tick fun _ => frame.bind frame.get fun _ => frame.bind ?_ fun _ => ?_
  · exact fun omap => frame.moves omap _ omap.sent omap.idle omap.irqProgress omap.log
  · exact frame.pure _

theorem writeData (value : U8) : Keeps r (writeData value) :=
  frame.bind frame.tick fun _ omap =>
    frame.moves omap omap.rxFifo _ omap.idle omap.irqProgress omap.log

theorem clearFifos : Keeps r clearFifos :=
  frame.bind frame.tick fun _ omap => frame.moves omap [] [] omap.idle omap.irqProgress omap.log

theorem pendingIrq : Keeps r pendingIrq :=
  frame.bind frame.readStat fun _ => frame.bind frame.readIe fun _ => frame.pure _

theorem slaveWriteReceived (numBytes : Nat) : Keeps r (slaveWriteReceived numBytes) := by
  induction numBytes with
  | zero => exact frame.pure _
  | succ numBytes ih =>
      have hbyte : Keeps r (do
          let value ← Omap.readData
          Omap.setProgress true
          Omap.slaveCallback (.writeReceived value)
          Omap.slaveWriteReceived numBytes) :=
        frame.bind frame.readData fun _ => frame.bind (frame.setProgress _) fun _ =>
          frame.bind (frame.slaveCallback _) fun _ => ih
      refine frame.bind frame.get fun omap => ?_
      split
      · exact frame.bind (frame.setIdle _) fun _ =>
          frame.bind (frame.slaveCallback _) fun _ => hbyte
      · exact hbyte

theorem slaveReadProcessed : Keeps r slaveReadProcessed := by
  have hbyte : Keeps r (do
      Omap.setProgress true
      Omap.writeData frameqReadFillByte) :=
    frame.bind (frame.setProgress _) fun _ => frame.writeData _
  refine frame.bind frame.get fun omap => ?_
  split
  · exact frame.bind (frame.setIdle _) fun _ => frame.bind (frame.slaveCallback _) fun _ => hbyte
  · exact frame.bind (frame.slaveCallback _) fun _ => hbyte

theorem slaveNumBytes : Keeps r slaveNumBytes := by
  refine frame.bind frame.get fun omap => ?_
  split
  · exact frame.bind frame.readRxStat fun _ => frame.pure _
  · exact frame.bind (frame.pure _) fun _ => frame.pure _

end Frame

/-! ## The slave loop -/

namespace AckFrame

variable (frame : AckFrame r)
include frame

theorem clearSlaveState : Keeps r clearSlaveState := by
  have hclear (mask : U16) : Keeps r (do clearFifos; ackStat mask) :=
    frame.bind frame.clearFifos fun _ => frame.ack mask
  have hunderflow (stat mask : U16) : Keeps r (do
      if stat &&& statXudf ≠ 0 then
        writeData 0xff
      clearFifos
      ackStat mask) := by
    dsimp only
    split
    · exact frame.bind (frame.writeData _) fun _ => hclear mask
    · exact hclear mask
  refine frame.bind frame.readStat fun stat => ?_
  dsimp only
  split
  · exact frame.bind frame.readData fun _ => hunderflow stat _
  · exact hunderflow stat _

theorem dropIgnored (hmask : ∀ mask, Keeps r (maskIrqSources mask)) (stat : U16) :
    Keeps r (dropIgnored stat) := by
  have hdrop (ignored : U16) : Keeps r (do
      if ignored = 0 then return stat
      ackStat ignored
      if (← readStat) &&& ignored ≠ 0 then
        maskIrqSources ignored
      return stat &&& ~~~ ignored) := by
    dsimp only
    split
    · exact frame.pure _
    refine frame.bind (frame.ack _) fun _ => frame.bind frame.readStat fun _ => ?_
    split
    · exact frame.bind (hmask _) fun _ => frame.pure _
    · exact frame.pure _
  exact frame.bind frame.get fun omap => hdrop _

theorem slaveFlags (stat : U16) : Keeps r (slaveFlags stat) := by
  have hardy : Keeps r (if stat &&& (statArdy ||| statNack) ≠ 0 then
      ackStat (statArdy ||| statNack) else Pure.pure ()) := by
    split
    · exact frame.ack _
    · exact frame.pure _
  dsimp only [Omap.slaveFlags]
  split
  · exact frame.bind (frame.setIdle _) fun _ => frame.bind (frame.ack _) fun _ => hardy
  · exact hardy

end AckFrame

namespace StopFrame

variable (frame : StopFrame r)
include frame

theorem slaveServe (stat : U16) : Keeps r (slaveServe stat) := by
  have hreceive (mask : U16) : Keeps r (do
      slaveWriteReceived (← slaveNumBytes)
      ackStat mask) :=
    frame.bind frame.slaveNumBytes fun _ => frame.bind (frame.slaveWriteReceived _) fun _ =>
      frame.ack _
  unfold Omap.slaveServe
  split
  · exact hreceive _
  split
  · exact hreceive _
  split
  · exact frame.bind frame.slaveReadProcessed fun _ => frame.ack _
  split
  · exact frame.stop
  split
  · exact frame.bind frame.readData fun _ => frame.ack _
  split
  · exact frame.bind (frame.writeData _) fun _ => frame.ack _
  · exact frame.ack _

theorem slavePass (stat : U16) : Keeps r (slavePass stat) :=
  frame.bind (frame.slaveFlags stat) fun _ => frame.slaveServe stat

theorem slaveEvent (left : Nat) : Keeps r (slaveEvent left) := by
  induction left with
  | zero =>
      refine frame.bind frame.readIe fun _ => frame.bind frame.readStat fun _ => ?_
      dsimp only
      split
      · exact frame.pure _
      · exact frame.bind frame.get fun _ => frame.pure _
  | succ left ih =>
      refine frame.bind frame.readIe fun _ => frame.bind frame.readStat fun _ => ?_
      dsimp only
      split
      · exact frame.pure _
      · exact frame.bind (frame.slavePass _) fun _ => ih

end StopFrame

namespace ListenFrame

variable (frame : ListenFrame r)
include frame

theorem writeIe (value : U16) : Keeps r (writeIe value) :=
  frame.bind frame.tick fun _ omap => frame.registers omap value omap.con omap.oa

theorem irqEnableSet (mask : U16) : Keeps r (irqEnableSet mask) :=
  frame.bind frame.tick fun _ omap => frame.registers omap _ omap.con omap.oa

theorem irqEnableClr (mask : U16) : Keeps r (irqEnableClr mask) :=
  frame.bind frame.tick fun _ omap => frame.registers omap _ omap.con omap.oa

theorem writeCon (value : U16) : Keeps r (writeCon value) :=
  frame.bind frame.tick fun _ omap => frame.registers omap omap.ie value omap.oa

theorem writeOa (value : U16) : Keeps r (writeOa value) :=
  frame.bind frame.tick fun _ omap => frame.registers omap omap.ie omap.con value

theorem enableIrqs (mask : U16) : Keeps r (enableIrqs mask) := by
  refine frame.bind frame.get fun omap => ?_
  split
  · exact frame.writeIe _
  · exact frame.irqEnableSet _

theorem disableIrqs (mask : U16) : Keeps r (disableIrqs mask) := by
  refine frame.bind frame.get fun omap => ?_
  split
  · exact frame.bind frame.readIe fun _ => frame.writeIe _
  · exact frame.irqEnableClr _

theorem maskIrqSources (mask : U16) : Keeps r (maskIrqSources mask) := by
  have hreadBack : Keeps r (do let _ ← readStat) :=
    frame.bind frame.readStat fun _ => frame.pure _
  dsimp only [Omap.maskIrqSources]
  split
  · exact frame.pure _
  refine frame.bind frame.get fun omap => ?_
  split
  · exact frame.bind frame.readIe fun _ => frame.bind (frame.writeIe _) fun _ => hreadBack
  · exact frame.bind (frame.irqEnableClr _) fun _ => hreadBack

theorem restoreSavedIrqs (saved : U16) : Keeps r (restoreSavedIrqs saved) := by
  have hreadBack : Keeps r (do let _ ← readIe) :=
    frame.bind frame.readIe fun _ => frame.pure _
  refine frame.bind frame.readStat fun _ => ?_
  dsimp only
  split
  · exact frame.pure _
  refine frame.bind frame.get fun omap => ?_
  split
  · exact frame.bind frame.readIe fun _ => frame.bind (frame.writeIe _) fun _ => hreadBack
  · exact frame.bind (frame.irqEnableSet _) fun _ => hreadBack

theorem listenSlave : Keeps r listenSlave := by
  refine frame.bind frame.get fun omap => ?_
  cases omap.slave with
  | none => exact frame.pure _
  | some slave =>
      have hlistening : Keeps r (modify fun omap => { omap with aas := false, idle := true }) :=
        fun omap => frame.trans _ _ _ (frame.unaddressed omap)
          (frame.moves _ omap.rxFifo omap.sent true omap.irqProgress omap.log)
      refine frame.bind frame.get fun _ => frame.bind hlistening fun _ => ?_
      exact frame.bind (frame.disableIrqs _) fun _ => frame.bind (frame.writeOa _) fun _ =>
        frame.bind (frame.writeCon _) fun _ => frame.bind frame.clearSlaveState fun _ =>
          frame.bind frame.get fun _ => frame.enableIrqs _

theorem stopFrame : StopFrame r where
  toAckFrame := frame.toAckFrame
  stop := frame.bind frame.unaddressed fun _ => frame.bind (frame.slaveCallback _) fun _ =>
    frame.bind (frame.ack _) fun _ => frame.listenSlave

theorem slaveEvent (left : Nat) : Keeps r (slaveEvent left) := frame.stopFrame.slaveEvent left

end ListenFrame

/-! ## The master loop -/

namespace MasterFrame

variable (frame : MasterFrame r)
include frame

theorem whenSet (stat bit mask : U16) : Keeps r (whenSet stat bit (ackStat mask)) := by
  unfold Omap.whenSet
  split
  · exact frame.ack _
  · exact frame.pure _

variable (unpatched : Unpatched)

theorem masterData (stat err : U16) : Keeps r (masterData unpatched stat err) := by
  have hreceive (rdr : Bool) (mask : U16) : Keeps r (do
      unpatched.receive rdr
      setProgress true
      ackStat mask
      return Next.again err) :=
    frame.bind (fun omap => frame.data _ _ (unpatched.receive_data rdr omap)) fun _ =>
      frame.bind (frame.setProgress _) fun _ => frame.bind (frame.ack _) fun _ => frame.pure _
  have htransmit (xdr : Bool) (mask : U16) : Keeps r (do
      if ← unpatched.transmit xdr then return Next.finish err
      setProgress true
      ackStat mask
      return Next.again err) := by
    refine frame.bind (fun omap => frame.data _ _ (unpatched.transmit_data xdr omap))
      fun failed => ?_
    cases failed with
    | true => exact frame.pure _
    | false =>
        exact frame.bind (frame.setProgress _) fun _ => frame.bind (frame.ack _) fun _ =>
          frame.pure _
  have hack (mask : U16) (next : Next) : Keeps r (do ackStat mask; return next) :=
    frame.bind (frame.ack _) fun _ => frame.pure _
  dsimp only [Omap.masterData]
  split
  · exact hreceive true _
  split
  · exact hreceive false _
  split
  · exact htransmit true _
  split
  · exact htransmit false _
  split
  · exact hack _ _
  split
  · exact hack _ _
  · exact hack _ _

theorem masterPass (stat err : U16) : Keeps r (masterPass unpatched stat err) := by
  refine frame.bind (frame.whenSet _ _ _) fun _ => frame.bind (frame.whenSet _ _ _) fun _ =>
    frame.bind (frame.whenSet _ _ _) fun _ => frame.bind (frame.whenSet _ _ _) fun _ => ?_
  dsimp only
  split
  · exact frame.pure _
  split
  · exact frame.bind (frame.ack _) fun _ => frame.pure _
  · exact frame.masterData unpatched _ _

theorem masterLoop (left : Nat) (err : U16) : Keeps r (masterLoop unpatched left err) := by
  induction left generalizing err with
  | zero =>
      refine frame.bind frame.readIe fun _ => frame.bind frame.readStat fun _ =>
        frame.bind (frame.drop _) fun _ => ?_
      split
      · exact frame.pure _
      refine frame.bind frame.get fun _ => ?_
      split
      · exact frame.pure _
      · exact frame.bind (frame.complete _) fun _ => frame.pure _
  | succ left ih =>
      refine frame.bind frame.readIe fun _ => frame.bind frame.readStat fun _ =>
        frame.bind (frame.drop _) fun _ => ?_
      split
      · exact frame.pure _
      refine frame.bind (frame.masterPass unpatched _ _) fun next => ?_
      cases next with
      | finish err => exact frame.bind (frame.complete _) fun _ => frame.pure _
      | again err => exact ih err

end MasterFrame

end RadsatLinux.I2c.Frames
