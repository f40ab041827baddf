import RadsatLinux.I2c.Quiet

/-!
# What arrives while a handler runs

`heard` tells the transactions that the masters have made.  What holds at one register access of
a handler holds at the next one if no event that may come in between undoes it (`Stable`), and
where none may come a piece of a handler does what it does on a quiet bus (`Silent`).
-/

namespace RadsatLinux.I2c.Arrivals

open RadsatLinux.Library.Stateful
open RadsatLinux.I2c.FrameQueue RadsatLinux.I2c.Omap RadsatLinux.I2c.Frames RadsatLinux.I2c.Quiet

/-! ## Transactions -/

/-- The transactions that are over, and the bytes so far of the one that is not. -/
structure Bus where
  closed : List (List U8)
  current : Option (List U8)
  deriving DecidableEq

def Bus.idle : Bus := ⟨[], none⟩

/-- What an event does to the transactions. -/
def Bus.event (bus : Bus) : BusEvent → Bus
  | .start => { bus with current := some [] }
  | .byte value => { bus with current := bus.current.map (· ++ [value]) }
  | .stop => { closed := bus.closed ++ bus.current.toList, current := none }

/-- A master write goes from its start to its stop, and fits the FIFO: the driver reads the number
of bytes there in six bits. -/
def Bus.expects (bus : Bus) : BusEvent → Bool
  | .start => bus.current.isNone
  | .byte _ => bus.current.any fun bytes => decide (bytes.length + 1 < 64)
  | .stop => bus.current.isSome

def Bus.legal (bus : Bus) : List BusEvent → Bool
  | [] => true
  | event :: rest => bus.expects event && (bus.event event).legal rest

def transactions (heard : List BusEvent) : Bus := heard.foldl Bus.event Bus.idle

/-- The events are those of master writes, one after the other. -/
def MasterWrites (heard : List BusEvent) : Prop := Bus.idle.legal heard = true

def starts (heard : List BusEvent) : Nat := heard.count .start

theorem transactions_append (heard more : List BusEvent) :
    transactions (heard ++ more) = more.foldl Bus.event (transactions heard) :=
  List.foldl_append

theorem Bus.legal_append (bus : Bus) (heard more : List BusEvent) :
    bus.legal (heard ++ more) = (bus.legal heard && (heard.foldl Bus.event bus).legal more) := by
  induction heard generalizing bus with
  | nil => rfl
  | cons event rest ih =>
      change (bus.expects event && (bus.event event).legal (rest ++ more)) = _
      rw [ih, ← Bool.and_assoc]
      rfl

theorem masterWrites_append {heard more : List BusEvent} :
    MasterWrites (heard ++ more) ↔
      MasterWrites heard ∧ (transactions heard).legal more = true := by
  rw [MasterWrites, Bus.legal_append, Bool.and_eq_true]
  rfl

/-! ## What has been heard -/

/-- Time has passed: what was heard is still known. -/
def Extends (omap omap' : OmapI2cDev) : Prop := omap.heard <+: omap'.heard

/-- The masters have only made writes, and have begun at most `n` of them. -/
structure Promised (n : Nat) (omap : OmapI2cDev) : Prop where
  writes : MasterWrites omap.heard
  begun : starts omap.heard ≤ n

theorem extends_of_same {omap omap' : OmapI2cDev} (h : omap'.heard = omap.heard) :
    Extends omap omap' := by
  rw [Extends, h]

theorem busEvent_heard (omap : OmapI2cDev) (event : BusEvent) :
    (busEvent omap event).heard = omap.heard ++ [event] := by
  cases event with
  | start => rfl
  | byte value => rfl
  | stop => rfl

theorem busEvents_heard (omap : OmapI2cDev) (events : List BusEvent) :
    (events.foldl busEvent omap).heard = omap.heard ++ events := by
  induction events generalizing omap with
  | nil => exact (List.append_nil _).symm
  | cons event rest ih =>
      rw [List.foldl_cons, ih, busEvent_heard, List.append_assoc]
      rfl

theorem extends_tick : Keeps Extends tick := by
  intro omap
  cases hincoming : omap.incoming with
  | nil =>
      rw [tick_nil hincoming]
      exact List.prefix_refl _
  | cons events rest =>
      rw [tick_cons hincoming, Extends, busEvents_heard]
      exact List.prefix_append _ _

theorem extends_frame : ListenFrame Extends where
  refl _ := List.prefix_refl _
  trans _ _ _ h h' := h.trans h'
  tick := extends_tick
  moves _ _ _ _ _ _ := List.prefix_refl _
  ack _ omap := extends_tick omap
  registers _ _ _ _ := List.prefix_refl _
  unaddressed _ := List.prefix_refl _

theorem Extends.starts_le {omap omap' : OmapI2cDev} (h : Extends omap omap') :
    starts omap.heard ≤ starts omap'.heard :=
  h.sublist.count_le _

theorem Promised.earlier {n : Nat} {omap omap' : OmapI2cDev} (h : Extends omap omap')
    (hkept : Promised n omap') : Promised n omap := by
  refine ⟨?_, h.starts_le.trans hkept.begun⟩
  obtain ⟨more, hmore⟩ := h
  have hwrites := hkept.writes
  rw [← hmore, masterWrites_append] at hwrites
  exact hwrites.1

/-- The masters, who begin at most `n` transactions. -/
theorem masters (n : Nat) : Environment Extends (Promised n) where
  refl _ := List.prefix_refl _
  trans _ _ _ h h' := h.trans h'
  earlier _ _ h hkept := hkept.earlier h

/-- An event that may come is one that a master write goes on with, or a start that is left. -/
theorem Promised.event {n : Nat} {omap : OmapI2cDev} {event : BusEvent}
    (h : Promised n (busEvent omap event)) :
    (transactions omap.heard).expects event = true ∧
      (event = .start → starts omap.heard < n) := by
  have hwrites := h.writes
  have hstarts := h.begun
  rw [busEvent_heard] at hwrites hstarts
  constructor
  · have hlegal := (masterWrites_append.mp hwrites).2
    change (_ && true) = true at hlegal
    rwa [Bool.and_true] at hlegal
  · rintro rfl
    rw [starts, List.count_append] at hstarts
    exact hstarts

/-- The bus is idle and no start is left: nothing comes. -/
theorem Promised.nothing {n : Nat} {omap omap' : OmapI2cDev} (h : Extends omap omap')
    (hkept : Promised n omap') (hidle : (transactions omap.heard).current = none)
    (hstarts : starts omap.heard = n) : omap'.heard = omap.heard := by
  obtain ⟨more, hmore⟩ := h
  have hwrites := hkept.writes
  have hle := hkept.begun
  rw [← hmore] at hwrites hle
  have hlegal := (masterWrites_append.mp hwrites).2
  cases more with
  | nil => rw [← hmore, List.append_nil]
  | cons event rest =>
      have hexpects := (Bool.and_eq_true_iff.mp hlegal).1
      cases event with
      | start =>
          rw [starts, List.count_append, List.count_cons_self] at hle
          have hcount : List.count BusEvent.start omap.heard = n := hstarts
          omega
      | byte value =>
          rw [Bus.expects, hidle] at hexpects
          cases hexpects
      | stop =>
          rw [Bus.expects, hidle] at hexpects
          cases hexpects

/-! ## Between two accesses -/

/-- No event that may come undoes `P`, which says nothing of what is yet to come. -/
structure Stable (n : Nat) (P : OmapI2cDev → Prop) : Prop where
  event : ∀ omap event, P omap → Promised n (busEvent omap event) → P (busEvent omap event)
  incoming : ∀ omap incoming, P omap → P { omap with incoming := incoming }

/-- With at most `n` transactions begun, `m` leads from `P` to `Q`. -/
abbrev Runs (n : Nat) {α : Type} (P : OmapI2cDev → Prop) (m : Irq α) (Q : α → OmapI2cDev → Prop) :
    Prop :=
  Meets Extends (Promised n) P m Q

section Accesses

variable {n : Nat} {P P' : OmapI2cDev → Prop} {Q : Unit → OmapI2cDev → Prop}

theorem Stable.and (h : Stable n P) (h' : Stable n P') :
    Stable n fun omap => P omap ∧ P' omap where
  event omap event hp hkept := ⟨h.event omap event hp.1 hkept, h'.event omap event hp.2 hkept⟩
  incoming omap incoming hp := ⟨h.incoming omap incoming hp.1, h'.incoming omap incoming hp.2⟩

theorem Stable.or (h : Stable n P) (h' : Stable n P') :
    Stable n fun omap => P omap ∨ P' omap where
  event omap event hp hkept :=
    hp.imp (fun hp => h.event omap event hp hkept) fun hp => h'.event omap event hp hkept
  incoming omap incoming hp := hp.imp (h.incoming omap incoming) (h'.incoming omap incoming)

theorem Stable.exists {ι : Type} {P : ι → OmapI2cDev → Prop} (h : ∀ i, Stable n (P i)) :
    Stable n fun omap => ∃ i, P i omap where
  event omap event hp hkept := hp.imp fun i hp => (h i).event omap event hp hkept
  incoming omap incoming hp := hp.imp fun i hp => (h i).incoming omap incoming hp

/-- What the bus does not set. -/
theorem stable_of_same {P : OmapI2cDev → Prop}
    (h : ∀ omap stat rxFifo heard incoming, P omap →
      P { omap with stat := stat, rxFifo := rxFifo, heard := heard, incoming := incoming }) :
    Stable n P where
  event omap event hp _ := by
    cases event with
    | start => exact h omap _ omap.rxFifo _ omap.incoming hp
    | byte value => exact h omap _ _ _ omap.incoming hp
    | stop => exact h omap _ omap.rxFifo _ omap.incoming hp
  incoming omap incoming hp := h omap omap.stat omap.rxFifo omap.heard incoming hp

theorem Stable.events (h : Stable n P) (events : List BusEvent) {omap : OmapI2cDev}
    (hp : P omap) (hkept : Promised n (events.foldl busEvent omap)) :
    P (events.foldl busEvent omap) := by
  induction events generalizing omap with
  | nil => exact hp
  | cons event rest ih =>
      have hextends :
          Extends (busEvent omap event) (rest.foldl busEvent (busEvent omap event)) := by
        rw [Extends, busEvents_heard]
        exact List.prefix_append _ _
      exact ih (h.event omap event hp (hkept.earlier hextends)) hkept

theorem Stable.tick (h : Stable n P) : Runs n P tick fun _ => P where
  later := extends_tick
  holds omap hp hkept := by
    cases hincoming : omap.incoming with
    | nil =>
        rw [tick_nil hincoming]
        exact hp
    | cons events rest =>
        rw [tick_cons hincoming] at hkept ⊢
        exact h.events events (h.incoming omap rest hp) hkept

theorem Stable.read (h : Stable n P) {α : Type} (f : OmapI2cDev → α) :
    Runs n P (do Omap.tick; return f (← get)) fun value omap => P omap ∧ value = f omap :=
  (masters n).bind h.tick fun _ => Meets.get fun read =>
    (masters n).pure _ fun _ hp => ⟨hp.1, by rw [hp.2]⟩

theorem Stable.readStat (h : Stable n P) :
    Runs n P readStat fun value omap => P omap ∧ value = omap.shown :=
  h.read OmapI2cDev.shown

theorem Stable.readIe (h : Stable n P) :
    Runs n P readIe fun value omap => P omap ∧ value = omap.ie :=
  h.read OmapI2cDev.ie

theorem Stable.write (h : Stable n P) {f : OmapI2cDev → OmapI2cDev}
    (hheard : ∀ omap, (f omap).heard = omap.heard) (hf : ∀ omap, P omap → Q () (f omap)) :
    Runs n P (do Omap.tick; modify f) Q :=
  (masters n).bind h.tick fun _ => Meets.update
    (fun omap => extends_of_same (hheard omap)) hf

/-- Under the second register scheme sources are enabled one by one. -/
theorem Stable.irqEnableSet (h : Stable n P) (mask : U16)
    (hf : ∀ omap, P omap → Q () { omap with ie := omap.ie ||| mask }) :
    Runs n P (irqEnableSet mask) Q :=
  h.write (fun _ => rfl) hf

theorem Stable.enableIrqs (h : Stable n P) (hscheme : ∀ omap, P omap → omap.scheme ≠ 0)
    (mask : U16) (hf : ∀ omap, P omap → Q () { omap with ie := omap.ie ||| mask }) :
    Runs n P (enableIrqs mask) Q := by
  refine Meets.get fun read => ?_
  split
  · rename_i hfirst
    refine ⟨extends_frame.writeIe mask, fun omap hp _ => ?_⟩
    exact absurd (hp.2 ▸ hfirst) (hscheme omap hp.1)
  · exact (h.irqEnableSet mask hf).mono (fun _ hp => hp.1) fun _ _ hq => hq

theorem Stable.pendingIrq (h : Stable n P) : Runs n P pendingIrq fun _ => P :=
  (masters n).bind h.readStat fun _ =>
    (masters n).bind (h.readIe.mono (fun _ hp => hp.1) fun _ _ hp => hp.1) fun _ =>
      (masters n).pure _ fun _ hp => hp

end Accesses

/-! ## A quiet stretch -/

/-- Nothing is yet to come. -/
def quieten (omap : OmapI2cDev) : OmapI2cDev := { omap with incoming := [] }

/-- If nothing comes, what was to come later makes no difference. -/
structure Silent {α : Type} (m : Irq α) : Prop where
  later : Keeps Extends m
  quiet : ∀ omap, (m omap).2.heard = omap.heard →
    m (quieten omap) = ((m omap).1, quieten (m omap).2)

section Silence

variable {α β : Type}

theorem Silent.pure (a : α) : Silent (Pure.pure a : Irq α) where
  later := extends_frame.pure a
  quiet _ _ := rfl

theorem Silent.bind {m : Irq α} {f : α → Irq β} (hm : Silent m) (hf : ∀ a, Silent (f a)) :
    Silent (m >>= f) where
  later := extends_frame.bind hm.later fun a => (hf a).later
  quiet omap hheard := by
    have hrest : (f (m omap).1 (m omap).2).2.heard = omap.heard := hheard
    have hlater := (hf (m omap).1).later (m omap).2
    rw [Extends, hrest] at hlater
    have hfirst : (m omap).2.heard = omap.heard :=
      hlater.eq_of_length_le (hm.later omap).length_le
    rw [bind_apply, hm.quiet omap hfirst]
    exact (hf _).quiet _ (hrest.trans hfirst.symm)

theorem Silent.get {f : OmapI2cDev → Irq β} (hf : ∀ omap, Silent (f omap))
    (hsame : ∀ omap, f (quieten omap) = f omap) : Silent (MonadState.get >>= f) where
  later omap := (hf omap).later omap
  quiet omap hheard := by
    rw [bind_apply, get_apply, hsame]
    exact (hf omap).quiet omap hheard

theorem Silent.update {f : OmapI2cDev → OmapI2cDev} (hheard : ∀ omap, (f omap).heard = omap.heard)
    (hsame : ∀ omap, f (quieten omap) = quieten (f omap)) : Silent (modify f : Irq Unit) where
  later omap := extends_of_same (hheard omap)
  quiet omap _ := by
    rw [modify_apply, hsame]
    rfl

theorem silent_tick : Silent tick where
  later := extends_tick
  quiet omap hheard := by
    have hquieten : (tick (quieten omap)).2 = quieten omap := tick_nil rfl
    have hsame : (tick omap).2 = { omap with incoming := omap.incoming.tail } := by
      cases hincoming : omap.incoming with
      | nil =>
          rw [tick_nil hincoming, List.tail_nil, ← hincoming]
      | cons events rest =>
          rw [tick_cons hincoming, busEvents_heard] at hheard
          have hnone : events = [] := List.append_right_eq_self.mp hheard
          rw [tick_cons hincoming, hnone]
          rfl
    rw [hsame]
    exact Prod.ext rfl hquieten

theorem Silent.read {f : OmapI2cDev → α} (hsame : ∀ omap, f (quieten omap) = f omap) :
    Silent (do tick; return f (← MonadState.get)) :=
  silent_tick.bind fun _ => Silent.get (fun _ => Silent.pure _) fun omap => by rw [hsame]

theorem Silent.write {f : OmapI2cDev → OmapI2cDev} (hheard : ∀ omap, (f omap).heard = omap.heard)
    (hsame : ∀ omap, f (quieten omap) = quieten (f omap)) : Silent (do tick; modify f) :=
  silent_tick.bind fun _ => Silent.update hheard hsame

theorem silent_ackStat (mask : U16) : Silent (ackStat mask) :=
  Silent.write (fun _ => rfl) fun _ => rfl

theorem silent_enableIrqs (mask : U16) : Silent (enableIrqs mask) := by
  refine Silent.get (fun omap => ?_) fun _ => rfl
  split
  · exact Silent.write (fun _ => rfl) fun _ => rfl
  · exact Silent.write (fun _ => rfl) fun _ => rfl

theorem silent_disableIrqs (mask : U16) : Silent (disableIrqs mask) := by
  refine Silent.get (fun omap => ?_) fun _ => rfl
  split
  · exact (Silent.read fun _ => rfl).bind fun _ => Silent.write (fun _ => rfl) fun _ => rfl
  · exact Silent.write (fun _ => rfl) fun _ => rfl

theorem silent_readData : Silent readData := by
  have hpop (value : U8) : Silent (do
      modify fun omap : OmapI2cDev => { omap with rxFifo := omap.rxFifo.tail }
      return value) :=
    Silent.bind (Silent.update (fun _ => rfl) fun _ => rfl) fun _ => Silent.pure _
  exact silent_tick.bind fun _ => Silent.get (fun omap => hpop (omap.rxFifo.headD 0)) fun _ => rfl

theorem silent_clearSlaveState : Silent clearSlaveState := by
  have hfifos : Silent clearFifos := Silent.write (fun _ => rfl) fun _ => rfl
  have hdata (value : U8) : Silent (writeData value) := Silent.write (fun _ => rfl) fun _ => rfl
  have hclear (mask : U16) : Silent (do clearFifos; ackStat mask) :=
    hfifos.bind fun _ => silent_ackStat mask
  have hunderflow (stat mask : U16) : Silent (do
      if stat &&& statXudf ≠ 0 then
        writeData 0xff
      clearFifos
      ackStat mask) := by
    dsimp only
    split
    · exact (hdata _).bind fun _ => hclear mask
    · exact hclear mask
  have hstat : Silent readStat := Silent.read fun _ => rfl
  refine hstat.bind fun stat => ?_
  dsimp only
  split
  · exact silent_readData.bind fun _ => hunderflow stat _
  · exact hunderflow stat _

theorem silent_listenSlave : Silent listenSlave := by
  have hlistening : Silent (modify fun omap => { omap with aas := false, idle := true }) :=
    Silent.update (fun _ => rfl) fun _ => rfl
  have hoa (value : U16) : Silent (writeOa value) := Silent.write (fun _ => rfl) fun _ => rfl
  have hcon (value : U16) : Silent (writeCon value) := Silent.write (fun _ => rfl) fun _ => rfl
  refine Silent.get (fun omap => ?_) fun _ => rfl
  cases omap.slave with
  | none => exact Silent.pure _
  | some slave =>
      refine Silent.get (fun _ => hlistening.bind fun _ => (silent_disableIrqs _).bind fun _ => ?_)
        fun _ => rfl
      exact (hoa _).bind fun _ => (hcon _).bind fun _ => silent_clearSlaveState.bind fun _ =>
        Silent.get (fun _ => silent_enableIrqs _) fun _ => rfl

theorem silent_slaveStop : Silent slaveStop := by
  have hunaddressed : Silent (modify fun omap => { omap with aas := false }) :=
    Silent.update (fun _ => rfl) fun _ => rfl
  have hcallback : Silent (slaveCallback .stop) := Silent.update (fun _ => rfl) fun _ => rfl
  exact hunaddressed.bind fun _ => hcallback.bind fun _ =>
    (silent_ackStat _).bind fun _ => silent_listenSlave

end Silence

end RadsatLinux.I2c.Arrivals
