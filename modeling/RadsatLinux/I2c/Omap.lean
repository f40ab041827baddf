import RadsatLinux.I2c.FrameQueue

/-!
# The OMAP I2C driver

The interrupt side of `drivers/i2c/busses/i2c-omap.c` with patches 0003 and 0005 applied:
`omap_i2c_isr`, both loops of `omap_i2c_isr_thread`, and the recovery in its epilogue.  The
bits of the status register stay set until they are acked; those in `stuck` cannot be
cleared at all.  What the bus does while the driver runs is an input: `incoming` lists,
access by access, the events that come before each register access, and `heard` has those that
have come.
-/

namespace RadsatLinux.I2c.Omap

open RadsatLinux.I2c.FrameQueue

abbrev U16 := BitVec 16

/-! ## Registers -/

/-- `OMAP_I2C_STAT_*`.  The enable bits `OMAP_I2C_IE_*` have the same positions. -/
def statXdr : U16 := 0x4000
def statRdr : U16 := 0x2000
def statBb : U16 := 0x1000
def statRovr : U16 := 0x0800
def statXudf : U16 := 0x0400
def statAas : U16 := 0x0200
def statBf : U16 := 0x0100
def statXrdy : U16 := 0x0010
def statRrdy : U16 := 0x0008
def statArdy : U16 := 0x0004
def statNack : U16 := 0x0002
def statAl : U16 := 0x0001

/-- `OMAP_I2C_STAT_IRQ_MASK` -/
def statIrqMask : U16 := 0x6fff &&& ~~~ statBb

/-- `OMAP_I2C_CON_EN`, `OMAP_I2C_CON_OPMODE_HS` and `OMAP_I2C_CON_XOA` -/
def conEn : U16 := 0x8000
def conOpmodeHs : U16 := 0x1000
def conXoa : U16 := 0x0080

/-- `OMAP_I2C_OMAP1_REV_2` and `OMAP_I2C_REV_ON_3430_3530` -/
def omap1Rev2 : Nat := 0x20
def revOn3430 : Nat := 0x3c

/-- `OMAP_I2C_ISR_LIMIT` -/
def isrLimit : Nat := 100

/-- `OMAP_I2C_STALL_LIMIT` -/
def stallLimit : U8 := 8

/-- What the controller sees on the bus: a start with its own address, a byte that a master
writes to it, a stop. -/
inductive BusEvent where
  | start
  | byte (value : U8)
  | stop
  deriving DecidableEq

/-- The registered `i2c_client`: its address, and whether that has ten bits. -/
structure SlaveClient where
  addr : U16
  ten : Bool

/-- `struct omap_i2c_dev` and the registers.  `log` is what the slave backend was called
with; `sent` are the bytes written to the data register. -/
structure OmapI2cDev where
  stat : U16
  ie : U16
  con : U16
  oa : U16
  rxFifo : List U8
  sent : List U8
  stuck : U16
  resetDone : Bool
  incoming : List (List BusEvent)
  heard : List BusEvent
  scheme : Nat
  rev : Nat
  speed : Nat
  fifoSize : Nat
  iestate : U16
  receiver : Bool
  slave : Option SlaveClient
  aas : Bool
  idle : Bool
  cmdErr : U16
  completions : Nat
  bbValid : Bool
  irqStall : U8
  irqStallStat : U16
  irqProgress : Bool
  log : List Input

abbrev Irq := StateM OmapI2cDev

/-- An event sets its sticky bit, and a byte goes into the receive FIFO. -/
def busEvent (omap : OmapI2cDev) : BusEvent → OmapI2cDev
  | .start => { omap with stat := omap.stat ||| statAas, heard := omap.heard ++ [.start] }
  | .byte value =>
      { omap with
        stat := omap.stat ||| statRrdy
        rxFifo := omap.rxFifo ++ [value]
        heard := omap.heard ++ [.byte value] }
  | .stop => { omap with stat := omap.stat ||| statBf, heard := omap.heard ++ [.stop] }

/-- The events that come before one register access. -/
def tick : Irq Unit :=
  modify fun omap =>
    match omap.incoming with
    | [] => omap
    | events :: rest => events.foldl busEvent { omap with incoming := rest }

theorem tick_nil {omap : OmapI2cDev} (h : omap.incoming = []) : (tick omap).2 = omap := by
  obtain ⟨_, hmodified⟩ : ∃ f, tick = modify f ∧ f omap = omap := by
    refine ⟨_, rfl, ?_⟩
    rw [h]
  rw [hmodified.1]
  exact hmodified.2

theorem tick_cons {omap : OmapI2cDev} {events : List BusEvent} {rest : List (List BusEvent)}
    (h : omap.incoming = events :: rest) :
    (tick omap).2 = events.foldl busEvent { omap with incoming := rest } := by
  obtain ⟨_, hmodified⟩ : ∃ f, tick = modify f ∧
      f omap = events.foldl busEvent { omap with incoming := rest } := by
    refine ⟨_, rfl, ?_⟩
    rw [h]
  rw [hmodified.1]
  exact hmodified.2

/-- What `OMAP_I2C_STAT_REG` shows.  Under the second register scheme it is `IRQSTATUS`, which has
the enabled events only. -/
def OmapI2cDev.shown (omap : OmapI2cDev) : U16 :=
  if omap.scheme = 0 then omap.stat else omap.stat &&& omap.ie

def readStat : Irq U16 := do
  tick
  return (← get).shown

/-- Bits are cleared by writing them back, but for those that are stuck. -/
def ackStat (mask : U16) : Irq Unit := do
  tick
  modify fun omap => { omap with stat := omap.stat &&& ~~~ (mask &&& ~~~ omap.stuck) }

def readIe : Irq U16 := do
  tick
  return (← get).ie

def writeIe (value : U16) : Irq Unit := do
  tick
  modify fun omap => { omap with ie := value }

/-- `OMAP_I2C_IP_V2_IRQENABLE_SET` -/
def irqEnableSet (mask : U16) : Irq Unit := do
  tick
  modify fun omap => { omap with ie := omap.ie ||| mask }

/-- `OMAP_I2C_IP_V2_IRQENABLE_CLR` -/
def irqEnableClr (mask : U16) : Irq Unit := do
  tick
  modify fun omap => { omap with ie := omap.ie &&& ~~~ mask }

def writeCon (value : U16) : Irq Unit := do
  tick
  modify fun omap => { omap with con := value }

def writeOa (value : U16) : Irq Unit := do
  tick
  modify fun omap => { omap with oa := value }

def readData : Irq U8 := do
  tick
  let value := (← get).rxFifo.headD 0
  modify fun omap => { omap with rxFifo := omap.rxFifo.tail }
  return value

def writeData (value : U8) : Irq Unit := do
  tick
  modify fun omap => { omap with sent := omap.sent ++ [value] }

/-- `(OMAP_I2C_BUFSTAT_REG >> 8) & 0x3f`, the bytes in the receive FIFO. -/
def readRxStat : Irq Nat := do
  tick
  return (← get).rxFifo.length % 64

/-- `OMAP_I2C_BUF_RXFIF_CLR | OMAP_I2C_BUF_TXFIF_CLR` -/
def clearFifos : Irq Unit := do
  tick
  modify fun omap => { omap with rxFifo := [], sent := [] }

/-- `SYSC_SOFTRESET_MASK` written: what can be cleared is cleared. -/
def softReset : Irq Unit := do
  tick
  modify fun omap => { omap with stat := omap.stat &&& omap.stuck, rxFifo := [], sent := [] }

/-! ## Enabling and masking -/

def enableIrqs (mask : U16) : Irq Unit := do
  if (← get).scheme = 0 then writeIe mask else irqEnableSet mask

def disableIrqs (mask : U16) : Irq Unit := do
  if (← get).scheme = 0 then writeIe ((← readIe) &&& ~~~ mask) else irqEnableClr mask

def clearSlaveState : Irq Unit := do
  let stat ← readStat
  if stat &&& statRovr ≠ 0 then
    let _ ← readData
  if stat &&& statXudf ≠ 0 then
    writeData 0xff
  clearFifos
  ackStat (statXdr ||| statRdr ||| statRovr ||| statXudf ||| statAas ||| statBf ||| statXrdy |||
    statRrdy ||| statArdy ||| statNack ||| statAl)

def listenSlave : Irq Unit := do
  match (← get).slave with
  | none => return
  | some slave =>
      let con := if 400 < (← get).speed then conEn ||| conOpmodeHs else conEn
      let con := if slave.ten then con ||| conXoa else con
      modify fun omap => { omap with aas := false, idle := true }
      disableIrqs (statAas ||| statBf ||| statRovr ||| statXudf)
      writeOa slave.addr
      writeCon con
      clearSlaveState
      enableIrqs ((← get).iestate ||| statAas ||| statRovr ||| statXudf)

/-! ## The slave loop -/

/-- `i2c_slave_event`, as far as the frame queue is concerned. -/
def slaveCallback (event : I2cSlaveEvent) : Irq Unit :=
  modify fun omap => { omap with log := omap.log ++ [.callback event] }

def setIdle (idle : Bool) : Irq Unit := modify fun omap => { omap with idle := idle }

def setProgress (progress : Bool) : Irq Unit :=
  modify fun omap => { omap with irqProgress := progress }

def slaveWriteReceived : Nat → Irq Unit
  | 0 => return
  | numBytes + 1 => do
      if (← get).idle then
        setIdle false
        slaveCallback .writeRequested
      let value ← readData
      setProgress true
      slaveCallback (.writeReceived value)
      slaveWriteReceived numBytes

def slaveReadProcessed : Irq Unit := do
  if (← get).idle then
    setIdle false
    slaveCallback .readRequested
  else
    slaveCallback .readProcessed
  setProgress true
  writeData frameqReadFillByte

/-- The bytes to take when the receive FIFO has some. -/
def slaveNumBytes : Irq Nat := do
  let numBytes ← if (← get).fifoSize ≠ 0 then readRxStat else pure 1
  return if numBytes = 0 then 1 else numBytes

/-- The start of the loop body of `omap_i2c_slave_event`. -/
def slaveFlags (stat : U16) : Irq Unit := do
  if stat &&& statAas ≠ 0 then
    setIdle true
    ackStat statAas
  if stat &&& (statArdy ||| statNack) ≠ 0 then
    ackStat (statArdy ||| statNack)

/-- A stop: the backend hears of it, and the controller listens again. -/
def slaveStop : Irq Unit := do
  modify fun omap => { omap with aas := false }
  slaveCallback .stop
  ackStat statBf
  listenSlave

/-- The branches of the loop body. -/
def slaveServe (stat : U16) : Irq Unit := do
  if stat &&& statRdr ≠ 0 then
    slaveWriteReceived (← slaveNumBytes)
    ackStat statRdr
  else if stat &&& statRrdy ≠ 0 then
    slaveWriteReceived (← slaveNumBytes)
    ackStat statRrdy
  else if stat &&& (statXdr ||| statXrdy) ≠ 0 then
    slaveReadProcessed
    ackStat (statXdr ||| statXrdy)
  else if stat &&& statBf ≠ 0 then
    slaveStop
  else if stat &&& statRovr ≠ 0 then
    let _ ← readData
    ackStat statRovr
  else if stat &&& statXudf ≠ 0 then
    writeData 0xff
    ackStat statXudf
  else
    ackStat (stat &&& statIrqMask)

/-- The body of the loop of `omap_i2c_slave_event`, for a status that is not zero. -/
def slavePass (stat : U16) : Irq Unit := do
  slaveFlags stat
  slaveServe stat

/-- `omap_i2c_slave_event` with so many passes left; `true` when it gave up. -/
def slaveEvent (left : Nat) : Irq Bool := do
  let bits ← readIe
  let stat := (← readStat) &&& bits
  if stat = 0 then return false
  match left with
  | 0 => return !(← get).irqProgress
  | left + 1 =>
      slavePass stat
      slaveEvent left

/-! ## The master loop -/

/-- What one access of the code outside the patches can do to the device: it moves data, and
may ack status bits, but leaves the enable register and the driver's flags alone. -/
structure DataAccess (omap omap' : OmapI2cDev) : Prop where
  same : ∃ stat rxFifo sent incoming heard cmdErr, omap' =
    { omap with
      stat := stat
      rxFifo := rxFifo
      sent := sent
      incoming := incoming
      heard := heard
      cmdErr := cmdErr }
  quiet : omap.incoming = [] →
    omap'.incoming = [] ∧ ∃ acked, omap'.stat = omap.stat &&& ~~~ (acked &&& ~~~ omap.stuck)

/-- The parts of the driver that the patches leave as they are: how the master loop moves
bytes (`receive`, for `RDR` or not; `transmit`, for `XDR` or not, `true` when it fails), and
`__omap_i2c_init`, which may leave any enable mask. -/
structure Unpatched where
  receive : Bool → Irq Unit
  transmit : Bool → Irq Bool
  init : Irq Unit
  receive_data : ∀ rdr omap, DataAccess omap (receive rdr omap).2
  transmit_data : ∀ xdr omap, DataAccess omap (transmit xdr omap).2
  init_data : ∀ omap, ∃ omap' ie con, DataAccess omap omap' ∧
    (init omap).2 = { omap' with ie := ie, con := con }

def maskIrqSources (mask : U16) : Irq Unit := do
  if mask = 0 then return
  if (← get).scheme = 0 then writeIe ((← readIe) &&& ~~~ mask) else irqEnableClr mask
  let _ ← readStat

def completeCmd (err : U16) : Irq Unit :=
  modify fun omap =>
    { omap with cmdErr := omap.cmdErr ||| err, completions := omap.completions + 1 }

/-- How a pass of the master loop ends: with another one, or with the end of the command. -/
inductive Next where
  | again (err : U16)
  | finish (err : U16)

/-- The ready bits of the other direction are acked, and masked if they stay. -/
def dropIgnored (stat : U16) : Irq U16 := do
  let ignored := if (← get).receiver then stat &&& (statXdr ||| statXrdy)
    else stat &&& (statRdr ||| statRrdy)
  if ignored = 0 then return stat
  ackStat ignored
  if (← readStat) &&& ignored ≠ 0 then
    maskIrqSources ignored
  return stat &&& ~~~ ignored

def whenSet (stat bit : U16) (action : Irq Unit) : Irq Unit :=
  if stat &&& bit ≠ 0 then action else pure ()

variable (unpatched : Unpatched)

/-- The branches of the master loop that move data or look at what is left. -/
def masterData (stat err : U16) : Irq Next := do
  if stat &&& statRdr ≠ 0 then
    unpatched.receive true
    setProgress true
    ackStat statRdr
    return .again err
  if stat &&& statRrdy ≠ 0 then
    unpatched.receive false
    setProgress true
    ackStat statRrdy
    return .again err
  if stat &&& statXdr ≠ 0 then
    if ← unpatched.transmit true then return .finish err
    setProgress true
    ackStat statXdr
    return .again err
  if stat &&& statXrdy ≠ 0 then
    if ← unpatched.transmit false then return .finish err
    setProgress true
    ackStat statXrdy
    return .again err
  if stat &&& statRovr ≠ 0 then
    ackStat statRovr
    return .finish (err ||| statRovr)
  if stat &&& statXudf ≠ 0 then
    ackStat statXudf
    return .finish (err ||| statXudf)
  ackStat (stat &&& statIrqMask)
  return .again err

/-- The body of the master loop, for a status that is not zero. -/
def masterPass (stat err : U16) : Irq Next := do
  let err := err ||| (stat &&& (statNack ||| statAl))
  whenSet stat statNack (ackStat statNack)
  whenSet stat statAl (ackStat statAl)
  whenSet stat statArdy (ackStat statArdy)
  whenSet stat statBf (ackStat statBf)
  let stat := stat &&& ~~~ statBf
  -- `continue` in a `do … while (stat)` whose `stat` has become zero leaves the loop.
  if stat = 0 then return .finish err
  if stat &&& (statArdy ||| statNack ||| statAl) ≠ 0 then
    ackStat (statRrdy ||| statRdr ||| statXrdy ||| statXdr ||| statArdy)
    return .finish err
  masterData unpatched stat err

/-- How the handler comes to its epilogue. -/
structure Exit where
  gaveUp : Bool
  completed : Bool

/-- The master loop with so many passes left. -/
def masterLoop (left : Nat) (err : U16) : Irq Exit := do
  let bits ← readIe
  let stat ← dropIgnored ((← readStat) &&& bits)
  if stat = 0 then return ⟨false, false⟩
  match left with
  | 0 =>
      if (← get).irqProgress then return ⟨false, false⟩
      completeCmd (err ||| statAl)
      return ⟨true, true⟩
  | left + 1 =>
      match ← masterPass unpatched stat err with
      | .finish err =>
          completeCmd err
          return ⟨false, true⟩
      | .again err => masterLoop left err

/-! ## The epilogue -/

def pendingIrq : Irq U16 := do
  let stat ← readStat
  let ie ← readIe
  return stat &&& ie &&& statIrqMask

def resetNosleep : Irq Unit := do
  if (← get).rev < omap1Rev2 then return
  writeCon ((← get).con &&& ~~~ conEn)
  softReset
  writeCon conEn
  if (← get).resetDone && decide (revOn3430 < (← get).rev) then
    modify fun omap => { omap with bbValid := false }

/-- `true` when the current transfer was abandoned. -/
def quiesceIrq (force : Bool) : Irq Bool := do
  let pending ← pendingIrq
  if pending = 0 || !force then return false
  maskIrqSources pending
  ackStat pending
  resetNosleep
  unpatched.init
  if (← get).slave.isSome then
    modify fun omap => { omap with aas := false }
    listenSlave
  let pending ← pendingIrq
  if pending ≠ 0 then
    maskIrqSources pending
    ackStat pending
  modify fun omap => { omap with irqStall := 0, irqStallStat := 0, irqProgress := false }
  return true

def restoreSavedIrqs (saved : U16) : Irq Unit := do
  let want := saved &&& ~~~ (← readStat) &&& statIrqMask
  if want = 0 then return
  if (← get).scheme = 0 then writeIe ((← readIe) ||| want) else irqEnableSet want
  let _ ← readIe

/-- The stall count, in an epilogue that sees `entryPending` and `exitPending`. -/
def countStall (entryPending exitPending : U16) : Irq Unit :=
  modify fun omap =>
    if exitPending &&& entryPending ≠ 0 then
      { omap with
        irqStall := if omap.irqStall < 250 then omap.irqStall + 1 else omap.irqStall
        irqStallStat := exitPending &&& entryPending }
    else { omap with irqStall := 0, irqStallStat := 0 }

/-- What the handler knows when it comes to the label `out`. -/
structure AtOut extends Exit where
  savedIe : U16
  entryPending : U16

/-- `omap_i2c_isr_thread` up to the label `out`. -/
def isrThreadWork : Irq AtOut := do
  setProgress false
  let savedIe ← readIe
  let entryPending ← pendingIrq
  if (← get).aas then
    let gaveUp ← slaveEvent isrLimit
    return ⟨⟨gaveUp, false⟩, savedIe, entryPending⟩
  let exit ← masterLoop unpatched isrLimit 0
  return ⟨exit, savedIe, entryPending⟩

/-- The argument `force` of `omap_i2c_quiesce_irq`, with the stall count already up to date. -/
def forceFlag (out : AtOut) (exitPending : U16) : Irq Bool := do
  countStall out.entryPending exitPending
  return (out.gaveUp && exitPending != 0) || decide (stallLimit ≤ (← get).irqStall)

/-- The rest of the handler, after `omap_i2c_quiesce_irq`. -/
def isrThreadFinish (out : AtOut) (abandoned : Bool) : Irq Unit := do
  if abandoned then
    modify fun omap => { omap with cmdErr := omap.cmdErr ||| statAl }
    if !out.completed then
      completeCmd statAl
  setProgress false
  restoreSavedIrqs out.savedIe

/-- `omap_i2c_isr_thread` from the label `out` on. -/
def isrThreadEpilogue (out : AtOut) : Irq Unit := do
  let exitPending ← pendingIrq
  let force ← forceFlag out exitPending
  isrThreadFinish out (← quiesceIrq unpatched force)

def isrThread : Irq Unit := do
  let out ← isrThreadWork unpatched
  isrThreadEpilogue unpatched out

/-- `omap_i2c_isr`; `true` when it wakes the thread. -/
def isr : Irq Bool := do
  let mask ← readIe
  let stat := (← readStat) &&& mask
  if stat &&& statAas ≠ 0 then
    enableIrqs statBf
    modify fun omap => { omap with aas := true }
  return stat != 0

/-! ## A controller -/

theorem dataAccess_of_move (omap : OmapI2cDev) (rxFifo sent : List U8) :
    DataAccess omap { omap with rxFifo := rxFifo, sent := sent } where
  same := ⟨omap.stat, rxFifo, sent, omap.incoming, omap.heard, omap.cmdErr, rfl⟩
  quiet hquiet := ⟨hquiet, 0, by
    change omap.stat = omap.stat &&& ~~~ (0#16 &&& _)
    rw [BitVec.zero_and, BitVec.not_zero, BitVec.and_allOnes]⟩

/-- A master transfer moves its bytes one by one. -/
def byteWise : Unpatched where
  receive _ := modify fun omap : OmapI2cDev => { omap with rxFifo := omap.rxFifo.tail }
  transmit _ := do
    modify fun omap : OmapI2cDev => { omap with sent := omap.sent ++ [0] }
    return false
  init := modify fun omap : OmapI2cDev => { omap with ie := omap.iestate, con := conEn }
  receive_data _ omap := dataAccess_of_move omap omap.rxFifo.tail omap.sent
  transmit_data _ omap := dataAccess_of_move omap omap.rxFifo (omap.sent ++ [0])
  init_data omap := ⟨omap, omap.iestate, conEn, dataAccess_of_move omap omap.rxFifo omap.sent, rfl⟩

/-- The controller of the AM335x with a slave registered, and nothing on the bus. -/
def listening : OmapI2cDev where
  stat := 0
  ie := 0x6e1f
  con := conEn
  oa := 9
  rxFifo := []
  sent := []
  stuck := 0
  resetDone := true
  incoming := []
  heard := []
  scheme := 1
  rev := 0x50400002
  speed := 100
  fifoSize := 16
  iestate := 0x601f
  receiver := false
  slave := some ⟨9, false⟩
  aas := false
  idle := true
  cmdErr := 0
  completions := 0
  bbValid := true
  irqStall := 0
  irqStallStat := 0
  irqProgress := false
  log := []

end RadsatLinux.I2c.Omap
