import RadsatLinux.I2c.Placement

/-!
# Slave and master on one controller

`omap_i2c_reg_slave`, `omap_i2c_unreg_slave` and the two ends of `omap_i2c_xfer`, with the frame
queue clients that register and unregister and with interrupts in between.  The lock of the
adapter keeps registrations and transfers apart.  The controller is powered for each
registration and for each transfer.
-/

namespace RadsatLinux.I2c.Sharing

open RadsatLinux.Library.Bits RadsatLinux.Library.Stateful
open RadsatLinux.I2c.FrameQueue RadsatLinux.I2c.Omap RadsatLinux.I2c.Frames RadsatLinux.I2c.Storm
  RadsatLinux.I2c.Listen RadsatLinux.I2c.Placement

/-! ## The driver -/

def readCon : Irq U16 := do
  tick
  return (← get).con

/-- `omap_i2c_prepare_master` -/
def prepareMaster : Irq Unit := do
  if (← get).slave.isSome then
    disableIrqs slaveSources

/-- `omap_i2c_reg_slave` under the lock; `false` for `-EBUSY`. -/
def regSlave (slave : SlaveClient) : Irq Bool := do
  if (← get).slave.isSome then return false
  modify fun omap => { omap with slave := some slave, aas := false, idle := true }
  if slave.ten then
    writeCon ((← readCon) ||| conXoa)
  writeOa slave.addr
  listenSlave
  return true

/-- `omap_i2c_unreg_slave` under the lock. -/
def unregSlave (slave : SlaveClient) : Irq Unit := do
  disableIrqs slaveSources
  if slave.ten then
    writeCon ((← readCon) &&& ~~~ conXoa)
  writeOa 0
  modify fun omap => { omap with slave := none, aas := false, idle := false }

/-- What the code outside the patches leaves in the registers when it sets up a message, resets
the controller, suspends or resumes it.  It enables nothing but what the enable register or
`iestate` has. -/
structure Elsewhere where
  stat : U16
  ie : U16
  con : U16
  oa : U16
  rxFifo : List U8
  sent : List U8
  receiver : Bool
  cmdErr : U16
  bbValid : Bool

def Elsewhere.apply (w : Elsewhere) (omap : OmapI2cDev) : OmapI2cDev :=
  { omap with
    stat := w.stat
    ie := w.ie &&& (omap.ie ||| omap.iestate)
    con := w.con
    oa := w.oa
    rxFifo := w.rxFifo
    sent := w.sent
    receiver := w.receiver
    cmdErr := w.cmdErr
    bbValid := w.bbValid }

/-! ## The adapter and its clients -/

/-- How far `frameq_probe` and `frameq_remove` have come with a client: there is nothing, there
is the device node, the slave is registered too, it is unregistered again. -/
inductive Stage where
  | absent
  | named
  | bound
  | unbound
  deriving DecidableEq

/-- `owner` is the client `omap->slave` points to; `usage` and `suspended` belong to runtime
power management. -/
structure Adapter (κ : Type) where
  omap : OmapI2cDev
  owner : Option κ
  stage : κ → Stage
  transfer : Bool
  usage : Nat
  suspended : Bool

/-- A request that is `refused` fails before it has touched anything: for an address, for
memory, for a name that is taken, or because the controller does not resume. -/
inductive Move (κ : Type) where
  | probe (c : κ) (refused : Bool)
  | register (c : κ) (refused : Bool)
  | unregister (c : κ)
  | release (c : κ)
  | xferStart (refused : Bool)
  | xferEnd
  | isr
  | isrThread
  | bus (incoming : List (List BusEvent))
  | elsewhere (w : Elsewhere)
  | suspend (saved : U16)

variable {κ : Type} [DecidableEq κ]

/-- `pm_runtime_get_sync` -/
def Adapter.pmGet (a : Adapter κ) : Adapter κ := { a with usage := a.usage + 1, suspended := false }

/-- `pm_runtime_put_autosuspend`, `pm_runtime_put_noidle` -/
def Adapter.pmPut (a : Adapter κ) : Adapter κ := { a with usage := a.usage - 1 }

def Adapter.set (a : Adapter κ) (c : κ) (stage : Stage) : Adapter κ :=
  { a with stage := Function.update a.stage c stage }

/-- `i2c_slave_register`, and what `frameq_probe` makes of its result. -/
def Adapter.register (a : Adapter κ) (c : κ) (client : SlaveClient) : Adapter κ :=
  let powered := a.pmGet
  let (registered, omap) := regSlave client powered.omap
  if registered then { powered with omap := omap, owner := some c }.set c .bound
  else { powered with omap := omap }.pmPut.set c .absent

variable (unpatched : Unpatched) (client : κ → SlaveClient)

def Adapter.move (a : Adapter κ) : Move κ → Adapter κ
  | .probe c refused => if a.stage c = .absent ∧ !refused then a.set c .named else a
  | .register c refused =>
      if a.stage c = .named ∧ !a.transfer then
        if refused then a.set c .absent else a.register c (client c)
      else a
  | .unregister c =>
      if a.stage c = .bound ∧ !a.transfer then
        { a with omap := (unregSlave (client c) a.omap).2, owner := none }.pmPut.set c .unbound
      else a
  | .release c => if a.stage c = .unbound then a.set c .absent else a
  | .xferStart refused =>
      if !a.transfer ∧ !refused then
        { a.pmGet with omap := (prepareMaster a.omap).2, transfer := true }
      else a
  | .xferEnd =>
      if a.transfer then { a with omap := (listenSlave a.omap).2, transfer := false }.pmPut
      else a
  | .isr => { a with omap := (isr a.omap).2 }
  | .isrThread => { a with omap := (isrThread unpatched a.omap).2 }
  | .bus incoming => { a with omap := { a.omap with incoming := incoming } }
  | .elsewhere w => if a.transfer ∨ a.usage = 0 then { a with omap := w.apply a.omap } else a
  | .suspend saved =>
      if a.usage = 0 then
        { a with
          omap := { a.omap with iestate := saved &&& (a.omap.ie ||| a.omap.iestate) }
          suspended := true }
      else a

def Adapter.run (a : Adapter κ) (moves : List (Move κ)) : Adapter κ :=
  moves.foldl (Adapter.move unpatched client) a

/-- After `omap_i2c_probe`, with no client. -/
def Adapter.probed (omap : OmapI2cDev) : Adapter κ :=
  ⟨omap, none, fun _ => .absent, false, 0, false⟩

/-! ## What holds in every state -/

structure Good (a : Adapter κ) : Prop where
  slave : a.omap.slave = a.owner.map client
  bound : ∀ c, a.stage c = .bound ↔ a.owner = some c
  usage : a.usage = a.owner.isSome.toNat + a.transfer.toNat
  awake : a.suspended = true → a.usage = 0
  iestate : a.omap.iestate &&& slaveSources = 0
  alone : a.owner = none → a.omap.aas = false ∧ a.omap.ie &&& slaveSources = 0
  placed : a.transfer = false → ∀ c, a.owner = some c → Placed (client c) a.omap

/-! ## The moves -/

section Moves

variable {omap : OmapI2cDev}

theorem and_not_slaveSources (ie : U16) : ie &&& ~~~ slaveSources &&& slaveSources = 0 := by
  rw [BitVec.and_assoc, BitVec.and_comm (~~~ slaveSources), BitVec.and_not_self]
  exact BitVec.and_zero

theorem readCon_stays : Keeps Stays readCon := by
  have frame := stays_maskFrame
  exact frame.bind frame.tick fun _ => frame.bind frame.get fun _ => frame.pure _

theorem regSlave_busy {slave : SlaveClient} (hbusy : omap.slave ≠ none) :
    regSlave slave omap = (false, omap) := by
  rw [regSlave, bind_apply, get_apply]
  dsimp only
  rw [if_pos (Option.isSome_iff_ne_none.mpr hbusy)]
  rfl

/-- A registered slave, and whatever the call says in front of it. -/
structure Registered (new : SlaveClient) (omap : OmapI2cDev) (result : Bool)
    (omap' : OmapI2cDev) : Prop where
  result : result = true
  slave : omap'.slave = some new
  iestate : omap'.iestate = omap.iestate
  placed : Placed new omap'

theorem regSlave_registers (slave : SlaveClient) (hnone : omap.slave = none) :
    wp (regSlave slave) (Registered slave omap) omap := by
  rw [regSlave, wp_bind, wp_get, hnone]
  dsimp only [Option.isSome_none]
  rw [if_neg Bool.false_ne_true, wp_bind, wp_modify]
  have hlisten (begun : OmapI2cDev) (hslave : begun.slave = some slave)
      (hiestate : begun.iestate = omap.iestate) : wp (do
        writeOa slave.addr
        listenSlave
        return true) (Registered slave omap) begun := by
    obtain ⟨haddressed, -⟩ := writeOa_carries slave.addr begun
    obtain ⟨hcarries, hplaced⟩ := listenSlave_places (haddressed.slave.trans hslave)
    have hlater := haddressed.trans hcarries
    exact ⟨rfl, hlater.slave.trans hslave, hlater.iestate.trans hiestate, hplaced⟩
  split
  · refine wp_seq (Q := fun _ => Carries _) (readCon_stays _).toCarries fun con read hread => ?_
    refine wp_seq (Q := fun _ => Carries _)
      (hread.trans (writeCon_carries (con ||| conXoa) read).1) fun _ begun hbegun => ?_
    exact hlisten begun hbegun.slave hbegun.iestate
  · exact hlisten _ rfl rfl

/-- An unregistered slave leaves nothing enabled. -/
structure Unregistered (omap omap' : OmapI2cDev) : Prop where
  slave : omap'.slave = none
  aas : omap'.aas = false
  iestate : omap'.iestate = omap.iestate
  ie : omap'.ie &&& slaveSources = 0

theorem readCon_same : Keeps Same readCon :=
  same_frame.bind same_frame.tick fun _ => same_frame.bind same_frame.get fun _ =>
    same_frame.pure _

theorem unregSlave_unregisters (slave : SlaveClient) (omap : OmapI2cDev) :
    Unregistered omap (unregSlave slave omap).2 := by
  change wp (unregSlave slave) (fun _ => Unregistered omap) omap
  have hend (masked : OmapI2cDev) (hie : masked.ie &&& slaveSources = 0)
      (hiestate : masked.iestate = omap.iestate) : wp (do
        writeOa 0
        modify fun omap => { omap with slave := none, aas := false, idle := false })
      (fun _ => Unregistered omap) masked := by
    have hwritten := writeOa_same 0 masked
    refine ⟨rfl, rfl, hwritten.iestate.trans hiestate, ?_⟩
    exact (congrArg (· &&& slaveSources) hwritten.ie).trans hie
  refine wp_seq (Q := fun _ => Writes (omap.ie &&& ~~~ slaveSources) omap)
    (disableIrqs_writes slaveSources omap) fun _ masked hmasked => ?_
  have hie : masked.ie &&& slaveSources = 0 := by
    rw [hmasked.ie]
    exact and_not_slaveSources _
  split
  · refine wp_seq (Q := fun _ => Same masked) (readCon_same masked) fun con read hread => ?_
    refine wp_seq (Q := fun _ => Same masked)
      (hread.trans (writeCon_same (con &&& ~~~ conXoa) read)) fun _ written hwritten => ?_
    refine hend written ?_ (hwritten.iestate.trans hmasked.iestate)
    rw [hwritten.ie]
    exact hie
  · exact hend masked hie hmasked.iestate

/-- Before a transfer no source for a slave is left. -/
theorem prepareMaster_unarmed : Keeps Unarmed prepareMaster := by
  refine unarmed_masterFrame.bind unarmed_masterFrame.get fun omap => ?_
  split
  · exact disableIrqs_unarmed _
  · exact unarmed_masterFrame.pure _

theorem prepareMaster_masks {slave : SlaveClient} (hslave : omap.slave = some slave) :
    (prepareMaster omap).2.ie &&& slaveSources = 0 := by
  have hrun : prepareMaster omap = disableIrqs slaveSources omap := by
    rw [prepareMaster, bind_apply, get_apply, hslave]
    rfl
  rw [hrun, (disableIrqs_writes slaveSources omap).ie]
  exact and_not_slaveSources _

theorem prepareMaster_stays : Keeps Stays prepareMaster := by
  have frame := stays_maskFrame
  refine frame.bind frame.get fun omap => ?_
  split
  · exact frame.disableIrqs _
  · exact frame.pure _

/-- With no source for a slave enabled, nobody is addressed. -/
theorem isr_unarmed (hdisarmed : Disarmed omap) : Unarmed omap (isr omap).2 := by
  have hread := same_frame.readIe omap
  have hseen := hread.trans (same_frame.readStat (readIe omap).2)
  have hmask : (readIe omap).1 = omap.ie := (readIe_returns omap).1
  have hnone : (readStat (readIe omap).2).1 &&& omap.ie &&& statAas = 0 := by
    rw [BitVec.and_assoc, hdisarmed.source (by decide)]
    exact BitVec.and_zero
  have hrun : (isr omap).2 = (readStat (readIe omap).2).2 := by
    rw [isr, bind_apply, bind_apply, hmask]
    dsimp only
    rw [if_neg (not_not.mpr hnone)]
    rfl
  rw [hrun]
  exact Same.unarmed hseen

theorem Elsewhere.apply_disarmed (w : Elsewhere) (h : Disarmed omap) : Disarmed (w.apply omap) := by
  have hwithin : Within (w.ie &&& (omap.ie ||| omap.iestate)) (omap.ie ||| omap.iestate) := by
    rw [BitVec.and_comm]
    exact Within.and_left _ _
  exact ⟨hwithin.and_eq_zero (or_and_slaveSources h.ie h.iestate), h.iestate⟩

end Moves

/-! ## The adapter -/

variable {unpatched client} {a : Adapter κ}

omit [DecidableEq κ] in
theorem Good.disarmed (h : Good client a) (hnone : a.owner = none) : Disarmed a.omap :=
  ⟨(h.alone hnone).2, h.iestate⟩

/-- A client that is not bound changes its stage. -/
theorem Good.setStage {c : κ} {stage : Stage} (h : Good client a) (hold : a.stage c ≠ .bound)
    (hnew : stage ≠ .bound) : Good client (a.set c stage) := by
  refine ⟨h.slave, fun c' => ?_, h.usage, h.awake, h.iestate, h.alone, h.placed⟩
  by_cases heq : c' = c
  · subst heq
    change Function.update a.stage c' stage c' = .bound ↔ _
    rw [Function.update_self]
    exact iff_of_false hnew fun howner => hold ((h.bound c').mpr howner)
  · change Function.update a.stage c stage c' = .bound ↔ _
    rw [Function.update_of_ne heq]
    exact h.bound c'

omit [DecidableEq κ] in
/-- The controller goes on, with the same slave. -/
theorem Good.setOmap {omap : OmapI2cDev} (h : Good client a) (hslave : omap.slave = a.omap.slave)
    (hiestate : omap.iestate &&& slaveSources = 0)
    (halone : a.owner = none → omap.aas = false ∧ omap.ie &&& slaveSources = 0)
    (hplaced : a.transfer = false → ∀ c, a.owner = some c → Placed (client c) omap) :
    Good client { a with omap := omap } :=
  ⟨hslave.trans h.slave, h.bound, h.usage, h.awake, hiestate, halone, hplaced⟩

omit [DecidableEq κ] in
theorem Good.slave_some {c : κ} (h : Good client a) (howner : a.owner = some c) :
    a.omap.slave = some (client c) := by
  rw [h.slave, howner]
  rfl

omit [DecidableEq κ] in
theorem Good.slave_none (h : Good client a) (hnone : a.owner = none) : a.omap.slave = none := by
  rw [h.slave, hnone]
  rfl

omit [DecidableEq κ] in
theorem Good.handler {omap : OmapI2cDev} (h : Good client a) (hstays : Stays a.omap omap)
    (hunarmed : a.owner = none → Unarmed a.omap omap) : Good client { a with omap := omap } := by
  refine h.setOmap hstays.slave ?_ (fun hnone => ?_) fun hfree c howner => ?_
  · rw [hstays.iestate]
    exact h.iestate
  · have hunarmed := hunarmed hnone
    exact ⟨hunarmed.aas.trans (h.alone hnone).1, (hunarmed.disarmed (h.disarmed hnone)).ie⟩
  · exact hstays.placed _ (h.slave_some howner) (h.placed hfree c howner)

theorem register_eq (a : Adapter κ) (c : κ) (new : SlaveClient) :
    a.register c new =
      if (regSlave new a.omap).1 then
        { a.pmGet with omap := (regSlave new a.omap).2, owner := some c }.set c .bound
      else { a.pmGet with omap := (regSlave new a.omap).2 }.pmPut.set c .absent :=
  rfl

/-- Registering: the first client gets the controller, and another one changes nothing. -/
theorem Good.register {c : κ} (h : Good client a) (hnamed : a.stage c = .named)
    (hfree : a.transfer = false) : Good client (a.register c (client c)) := by
  rw [register_eq]
  cases howner : a.owner with
  | none =>
      have hregistered := regSlave_registers (client c) (h.slave_none howner)
      have husage : a.usage = 0 := by rw [h.usage, howner, hfree]; rfl
      rw [if_pos hregistered.result]
      constructor
      · exact hregistered.slave
      · intro c'
        by_cases heq : c' = c
        · subst heq
          exact iff_of_true (Function.update_self _ _ _) rfl
        · refine iff_of_false (fun hbound => ?_) fun hsame => heq (Option.some.inj hsame).symm
          have hbound' : Function.update a.stage c .bound c' = .bound := hbound
          rw [Function.update_of_ne heq, h.bound, howner] at hbound'
          cases hbound'
      · change a.usage + 1 = 1 + a.transfer.toNat
        rw [husage, hfree]
        rfl
      · exact nofun
      · exact hregistered.iestate ▸ h.iestate
      · exact nofun
      · intro _ c' howner'
        cases howner'
        exact hregistered.placed
  | some c' =>
      have hbusy : a.omap.slave ≠ none := by
        rw [h.slave_some howner]
        exact Option.some_ne_none _
      have hunbound : a.stage c ≠ .bound := by rw [hnamed]; exact nofun
      rw [regSlave_busy hbusy, if_neg Bool.false_ne_true]
      have hrefused : Good client { a.pmGet with omap := a.omap }.pmPut :=
        ⟨h.slave, h.bound, h.usage, nofun, h.iestate, h.alone, h.placed⟩
      exact hrefused.setStage hunbound nofun

theorem Good.unregister {c : κ} (h : Good client a) (hbound : a.stage c = .bound)
    (hfree : a.transfer = false) :
    Good client ({ a with omap := (unregSlave (client c) a.omap).2, owner := none }.pmPut.set c
      .unbound) := by
  have hleft := unregSlave_unregisters (client c) a.omap
  have howner := (h.bound c).mp hbound
  have husage : a.usage = 1 := by rw [h.usage, howner, hfree]; rfl
  constructor
  · exact hleft.slave
  · intro c'
    refine iff_of_false (fun hbound' => ?_) nofun
    have hstage : Function.update a.stage c .unbound c' = .bound := hbound'
    by_cases heq : c' = c
    · subst heq
      rw [Function.update_self] at hstage
      cases hstage
    · rw [Function.update_of_ne heq, h.bound, howner] at hstage
      exact heq (Option.some.inj hstage).symm
  · change a.usage - 1 = 0 + a.transfer.toNat
    rw [husage, hfree]
    rfl
  · intro hsuspended
    cases husage.symm.trans (h.awake hsuspended)
  · exact hleft.iestate ▸ h.iestate
  · exact fun _ => ⟨hleft.aas, hleft.ie⟩
  · exact nofun

omit [DecidableEq κ] in
theorem Good.xferStart (h : Good client a) (hfree : a.transfer = false) :
    Good client { a.pmGet with omap := (prepareMaster a.omap).2, transfer := true } := by
  have hhandled := h.handler (prepareMaster_stays a.omap) fun _ => prepareMaster_unarmed a.omap
  refine ⟨hhandled.slave, hhandled.bound, ?_, nofun, hhandled.iestate, hhandled.alone, nofun⟩
  change a.usage + 1 = a.owner.isSome.toNat + 1
  rw [h.usage, hfree]
  rfl

omit [DecidableEq κ] in
/-- After a transfer the controller listens again, if it has a slave. -/
theorem Good.xferEnd (h : Good client a) (hbusy : a.transfer = true) :
    Good client { a with omap := (listenSlave a.omap).2, transfer := false }.pmPut := by
  have hstays := listenSlave_stays a.omap
  constructor
  · exact hstays.slave.trans h.slave
  · exact h.bound
  · change a.usage - 1 = a.owner.isSome.toNat + 0
    rw [h.usage, hbusy]
    rfl
  · intro hsuspended
    have hzero := h.awake hsuspended
    rw [h.usage, hbusy] at hzero
    exact absurd hzero (Nat.succ_ne_zero _)
  · exact hstays.iestate ▸ h.iestate
  · intro hnone
    have hsame : (listenSlave a.omap).2 = a.omap := by
      rw [listenSlave, bind_apply, get_apply, h.slave_none hnone]
      rfl
    change (listenSlave a.omap).2.aas = false ∧ (listenSlave a.omap).2.ie &&& slaveSources = 0
    rw [hsame]
    exact h.alone hnone
  · intro _ c howner
    exact (listenSlave_places (h.slave_some howner)).2

theorem Good.move (hinit : EnablesSaved unpatched) (h : Good client a) (m : Move κ) :
    Good client (a.move unpatched client m) := by
  cases m with
  | probe c refused =>
      simp only [Adapter.move]
      split
      · next hopen => exact h.setStage (by rw [hopen.1]; exact nofun) nofun
      · exact h
  | register c refused =>
      simp only [Adapter.move]
      split
      · next hopen =>
          have hfree : a.transfer = false := by simpa using hopen.2
          split
          · exact h.setStage (by rw [hopen.1]; exact nofun) nofun
          · exact h.register hopen.1 hfree
      · exact h
  | unregister c =>
      simp only [Adapter.move]
      split
      · next hopen => exact h.unregister hopen.1 (by simpa using hopen.2)
      · exact h
  | release c =>
      simp only [Adapter.move]
      split
      · next hopen => exact h.setStage (by rw [hopen]; exact nofun) nofun
      · exact h
  | xferStart refused =>
      simp only [Adapter.move]
      split
      · next hopen => exact h.xferStart (by simpa using hopen.1)
      · exact h
  | xferEnd =>
      simp only [Adapter.move]
      split
      · next hbusy => exact h.xferEnd hbusy
      · exact h
  | isr => exact h.handler (isr_stays a.omap) fun hnone => isr_unarmed (h.disarmed hnone)
  | isrThread =>
      exact h.handler (isrThread_stays unpatched a.omap) fun hnone =>
        isrThread_unarmed hinit (h.alone hnone).1 (h.disarmed hnone) (Or.inl (h.slave_none hnone))
  | bus incoming =>
      exact h.handler (Carries.stays ⟨rfl, rfl, rfl⟩ rfl rfl) fun _ =>
        unarmed_of_same rfl rfl rfl rfl
  | elsewhere w =>
      simp only [Adapter.move]
      split
      · next hopen =>
          refine h.setOmap rfl h.iestate (fun hnone => ?_) fun hfree c howner => ?_
          · exact ⟨(h.alone hnone).1, (w.apply_disarmed (h.disarmed hnone)).ie⟩
          · rcases hopen with hbusy | hidle
            · cases hfree.symm.trans hbusy
            · rw [h.usage, howner] at hidle
              exact absurd hidle (Nat.ne_of_gt (Nat.add_pos_left Nat.one_pos _))
      · exact h
  | suspend saved =>
      simp only [Adapter.move]
      split
      · next hidle =>
          have hnone : a.owner = none := by
            cases howner : a.owner with
            | none => rfl
            | some c =>
                rw [h.usage, howner] at hidle
                exact absurd hidle (Nat.ne_of_gt (Nat.add_pos_left Nat.one_pos _))
          have hdisarmed := h.disarmed hnone
          have hsaved : Within (saved &&& (a.omap.ie ||| a.omap.iestate))
              (a.omap.ie ||| a.omap.iestate) := by
            rw [BitVec.and_comm]
            exact Within.and_left _ _
          refine ⟨h.slave, h.bound, h.usage, fun _ => hidle, ?_, h.alone, fun _ c howner => ?_⟩
          · exact hsaved.and_eq_zero (or_and_slaveSources hdisarmed.ie hdisarmed.iestate)
          · cases hnone.symm.trans howner
      · exact h

theorem good_run (hinit : EnablesSaved unpatched) (h : Good client a) (moves : List (Move κ)) :
    Good client (a.run unpatched client moves) := by
  induction moves generalizing a with
  | nil => exact h
  | cons m rest ih => exact ih (h.move hinit m)

/-! ## What the clients and the bus can rely on -/

/-- The state `omap_i2c_probe` leaves: no slave, and no source for one. -/
structure Probed (omap : OmapI2cDev) : Prop where
  slave : omap.slave = none
  aas : omap.aas = false
  disarmed : Disarmed omap

/-- At most one client is bound, and it has the controller.  The slave loop runs for a bound
client only.  The controller is powered while it is used, and only then counted as used.  It
listens with the address of its client, but during a transfer, and exactly so after one. -/
structure Shared (unpatched : Unpatched) (client : κ → SlaveClient) (a : Adapter κ) : Prop where
  slave : a.omap.slave = a.owner.map client
  bound : ∀ c, a.stage c = .bound ↔ a.owner = some c
  served : a.omap.aas = true → ∃ c, a.owner = some c ∧ a.omap.slave = some (client c)
  powered : a.owner ≠ none ∨ a.transfer = true → a.suspended = false
  usage : a.usage = a.owner.isSome.toNat + a.transfer.toNat
  placed : a.transfer = false → ∀ c, a.owner = some c → Placed (client c) a.omap
  listens : a.transfer = true → ∀ c, a.owner = some c →
    ListensExactly (a.move unpatched client .xferEnd).omap.ie ∧
      (a.move unpatched client .xferEnd).omap.aas = false

omit [DecidableEq κ] in
theorem good_probed {omap : OmapI2cDev} (hprobed : Probed omap) :
    Good client (Adapter.probed omap : Adapter κ) where
  slave := hprobed.slave
  bound _ := iff_of_false nofun nofun
  usage := rfl
  awake _ := rfl
  iestate := hprobed.disarmed.iestate
  alone _ := ⟨hprobed.aas, hprobed.disarmed.ie⟩
  placed := nofun

omit [DecidableEq κ] in
theorem Good.powered (h : Good client a) (hused : a.owner ≠ none ∨ a.transfer = true) :
    a.suspended = false := by
  rw [← Bool.not_eq_true]
  intro hsuspended
  have hzero := h.awake hsuspended
  rw [h.usage] at hzero
  rcases hused with howner | htransfer
  · rw [Option.isSome_iff_ne_none.mpr howner] at hzero
    exact absurd hzero (Nat.ne_of_gt (Nat.add_pos_left Nat.one_pos _))
  · rw [htransfer] at hzero
    exact absurd hzero (Nat.succ_ne_zero _)

omit [DecidableEq κ] in
theorem Good.listens {c : κ} (h : Good client a) (howner : a.owner = some c) :
    ListensExactly (listenSlave a.omap).2.ie ∧ (listenSlave a.omap).2.aas = false := by
  have hslave := h.slave_some howner
  obtain ⟨-, -, -, -, hlistening⟩ := listenSlave_enters a.omap
  obtain ⟨haas, hbf, hsources⟩ := hlistening (by rw [hslave]; exact Option.some_ne_none _)
  refine ⟨(listensExactly_of_within hsources).mpr ?_, haas⟩
  rw [hbf, ← and_statBf_eq_zero]
  exact ((Within.refl _).and_mono (within_of_and_eq (by decide))).eq_zero h.iestate

theorem Good.shared (h : Good client a) : Shared unpatched client a where
  slave := h.slave
  bound := h.bound
  served haas := by
    cases howner : a.owner with
    | none => cases (h.alone howner).1.symm.trans haas
    | some c => exact ⟨c, rfl, h.slave_some howner⟩
  powered := h.powered
  usage := h.usage
  placed := h.placed
  listens htransfer c howner := by
    rw [Adapter.move, if_pos htransfer]
    exact h.listens howner

/-- Whoever comes and goes, and whatever happens on the bus in between. -/
theorem run_shared {omap : OmapI2cDev} (hinit : EnablesSaved unpatched) (hprobed : Probed omap)
    (moves : List (Move κ)) :
    Shared unpatched client ((Adapter.probed omap).run unpatched client moves) :=
  (good_run hinit (good_probed hprobed) moves).shared

/-- The controller of the AM335x after its probe. -/
def unregistered : OmapI2cDev := { listening with ie := 0x601f, oa := 0, slave := none }

theorem enablesSaved_byteWise : EnablesSaved byteWise := by
  intro omap i hbit
  have hsaved : omap.iestate.getLsbD i = true := hbit
  rw [BitVec.getLsbD_or, hsaved, Bool.or_true]

/-- Two clients on the addresses 9 and 10. -/
def twoClients : Bool → SlaveClient
  | false => ⟨9, false⟩
  | true => ⟨10, false⟩

/-- The second one comes while the first has the controller, and again after it has left. -/
def turns : List (Move Bool) :=
  [.probe false false, .register false false, .probe true false, .register true false,
    .unregister false, .release false, .probe true false, .register true false, .bus [[.start]],
    .isr]

theorem run_shared_turns :
    Shared byteWise twoClients ((Adapter.probed unregistered).run byteWise twoClients turns) ∧
      ((Adapter.probed unregistered).run byteWise twoClients turns).owner = some true ∧
      ((Adapter.probed unregistered).run byteWise twoClients turns).omap.oa = 10 ∧
      ((Adapter.probed unregistered).run byteWise twoClients turns).omap.aas = true :=
  ⟨run_shared enablesSaved_byteWise ⟨rfl, rfl, by decide, by decide⟩ turns, by decide, by decide,
    by decide⟩

end RadsatLinux.I2c.Sharing
