import RadsatLinux.I2c.Arrivals
import RadsatLinux.I2c.Storm

/-!
# The slave loop while a master writes

What `omap_i2c_isr_thread` has of the transaction on the bus, at each of its register accesses.
Bytes and the stop may come at any of them; a start may not, until the loop is over.
-/

namespace RadsatLinux.I2c.SlaveLoop

open RadsatLinux.Library.Bits RadsatLinux.Library.Stateful
open RadsatLinux.I2c.FrameQueue RadsatLinux.I2c.Omap RadsatLinux.I2c.Frames RadsatLinux.I2c.Quiet
  RadsatLinux.I2c.Storm RadsatLinux.I2c.Arrivals

/-! ## The driver and the transaction -/

/-- The status when these of `AAS`, `RRDY` and `BF` are pending. -/
def pending (aas rrdy bf : Bool) : U16 :=
  (if aas then statAas else 0) ||| (if rrdy then statRrdy else 0) ||| (if bf then statBf else 0)

/-- What no handler changes, and the sources that are always enabled. -/
structure Ready (omap : OmapI2cDev) : Prop where
  stuck : omap.stuck = 0
  scheme : omap.scheme ≠ 0
  fifoSize : omap.fifoSize ≠ 0
  slave : omap.slave ≠ none
  iestate : Within statRrdy omap.iestate
  ie : Within (statAas ||| statRrdy) omap.ie
  bfEnabled : omap.aas = true → Within statBf omap.ie

/-- The bytes so far of the transaction on the bus: those that the backend has, and those that are
still in the FIFO. -/
def bytes (omap : OmapI2cDev) : List U8 := received omap.log ++ omap.rxFifo

/-- In the transaction after these ones, which is over if `BF` is pending. -/
structure Serving (p : Params) (n : Nat) (before : List (List U8)) (aas rrdy bf : Bool)
    (omap : OmapI2cDev) : Prop extends Ready omap where
  stat : omap.stat = pending aas rrdy bf
  begun : starts omap.heard = n
  bus : transactions omap.heard =
    if bf then ⟨before ++ [bytes omap], none⟩ else ⟨before, some (bytes omap)⟩
  fits : (bytes omap).length < 64
  fresh : aas = true ∨ omap.idle = true → received omap.log = []
  frames : (enqueued p omap.log).Sublist before

/-- Between two transactions. -/
structure Listening (p : Params) (closed : List (List U8)) (omap : OmapI2cDev) : Prop
    extends Ready omap where
  stat : omap.stat = 0
  aas : omap.aas = false
  rxFifo : omap.rxFifo = []
  bus : transactions omap.heard = ⟨closed, none⟩
  nothing : received omap.log = []
  frames : (enqueued p omap.log).Sublist closed

/-- A status of its own bits, cut down to a mask. -/
theorem pending_and (aas rrdy bf : Bool) :
    pending aas rrdy bf &&& statAas = pending aas false false ∧
      pending aas rrdy bf &&& statRrdy = pending false rrdy false ∧
      pending aas rrdy bf &&& statBf = pending false false bf := by
  cases aas <;> cases rrdy <;> cases bf <;> decide

theorem pending_within (aas rrdy bf : Bool) :
    Within (pending aas rrdy bf) (statAas ||| statRrdy ||| statBf) := by
  refine within_of_and_eq ?_
  cases aas <;> cases rrdy <;> cases bf <;> decide

/-- The other sources of the slave loop stay clear. -/
theorem pending_and_other (aas rrdy bf : Bool) {mask : U16}
    (h : (statAas ||| statRrdy ||| statBf) &&& mask = 0) : pending aas rrdy bf &&& mask = 0 :=
  ((pending_within aas rrdy bf).and_mono (Within.refl _)).eq_zero h

/-- Only the status, data and flags of the transfer have changed. -/
theorem Ready.moved {omap : OmapI2cDev} (h : Ready omap) (stat : U16) (rxFifo sent : List U8)
    (incoming : List (List BusEvent)) (heard : List BusEvent) (idle irqProgress : Bool)
    (irqStall : U8) (irqStallStat : U16) (log : List Input) : Ready { omap with
      stat := stat
      rxFifo := rxFifo
      sent := sent
      incoming := incoming
      heard := heard
      idle := idle
      irqProgress := irqProgress
      irqStall := irqStall
      irqStallStat := irqStallStat
      log := log } :=
  ⟨h.stuck, h.scheme, h.fifoSize, h.slave, h.iestate, h.ie, h.bfEnabled⟩

section Events

variable {p : Params} {n : Nat} {before closed : List (List U8)} {aas rrdy bf : Bool}
  {omap : OmapI2cDev}

theorem Serving.fits_fifo (h : Serving p n before aas rrdy bf omap) : omap.rxFifo.length < 64 := by
  refine Nat.lt_of_le_of_lt ?_ h.fits
  rw [bytes, List.length_append]
  exact Nat.le_add_left _ _

/-- What is yet to come, and flags that the transaction does not depend on. -/
theorem Serving.moved (h : Serving p n before aas rrdy bf omap) (incoming : List (List BusEvent))
    (irqProgress : Bool) (irqStall : U8) (irqStallStat : U16) :
    Serving p n before aas rrdy bf { omap with
      incoming := incoming
      irqProgress := irqProgress
      irqStall := irqStall
      irqStallStat := irqStallStat } :=
  ⟨h.toReady.moved _ _ _ _ _ _ _ _ _ _, h.stat, h.begun, h.bus, h.fits, h.fresh, h.frames⟩

theorem Listening.moved (h : Listening p closed omap) (incoming : List (List BusEvent))
    (irqProgress : Bool) (irqStall : U8) (irqStallStat : U16) :
    Listening p closed { omap with
      incoming := incoming
      irqProgress := irqProgress
      irqStall := irqStall
      irqStallStat := irqStallStat } :=
  ⟨h.toReady.moved _ _ _ _ _ _ _ _ _ _, h.stat, h.aas, h.rxFifo, h.bus, h.nothing, h.frames⟩

/-- Another byte of the transaction, or its stop. -/
theorem Serving.event (h : Serving p n before aas rrdy bf omap) {event : BusEvent}
    (hkept : Promised n (busEvent omap event)) :
    (∃ value, event = .byte value ∧ bf = false ∧
        Serving p n before aas true false (busEvent omap event)) ∨
      event = .stop ∧ bf = false ∧ Serving p n before aas rrdy true (busEvent omap event) := by
  obtain ⟨hexpects, hstart⟩ := hkept.event
  have hbegun : starts (busEvent omap event).heard ≤ n := hkept.begun
  rw [h.bus] at hexpects
  have hcourse : transactions (busEvent omap event).heard =
      (transactions omap.heard).event event := by
    rw [busEvent_heard, transactions_append]
    rfl
  cases event with
  | start => exact absurd (hstart rfl) (h.begun ▸ Nat.lt_irrefl _)
  | byte value =>
      cases bf with
      | true => cases hexpects
      | false =>
          refine Or.inl ⟨value, rfl, rfl, ?_⟩
          have hbytes : bytes (busEvent omap (.byte value)) = bytes omap ++ [value] :=
            (List.append_assoc _ _ _).symm
          constructor
          · exact h.toReady.moved _ _ _ _ _ _ _ _ _ _
          · change omap.stat ||| statRrdy = _
            rw [h.stat]
            cases aas <;> cases rrdy <;> decide
          · refine Nat.le_antisymm hbegun ?_
            rw [busEvent_heard, ← h.begun]
            exact (List.prefix_append _ _).sublist.count_le _
          · rw [hcourse, h.bus, hbytes]
            rfl
          · rw [hbytes, List.length_append]
            exact of_decide_eq_true hexpects
          · exact h.fresh
          · exact h.frames
  | stop =>
      cases bf with
      | true => cases hexpects
      | false =>
          refine Or.inr ⟨rfl, rfl, ?_⟩
          constructor
          · exact h.toReady.moved _ _ _ _ _ _ _ _ _ _
          · change omap.stat ||| statBf = _
            rw [h.stat]
            cases aas <;> cases rrdy <;> decide
          · refine Nat.le_antisymm hbegun ?_
            rw [busEvent_heard, ← h.begun]
            exact (List.prefix_append _ _).sublist.count_le _
          · rw [hcourse, h.bus]
            rfl
          · exact h.fits
          · exact h.fresh
          · exact h.frames

/-- While the driver listens only a start can come. -/
theorem Listening.event (h : Listening p closed omap) {event : BusEvent}
    (hkept : Promised n (busEvent omap event)) (hlast : n ≤ starts omap.heard + 1) :
    Serving p n closed true false false (busEvent omap event) := by
  obtain ⟨hexpects, hstart⟩ := hkept.event
  rw [h.bus] at hexpects
  cases event with
  | start =>
      have hbytes : bytes (busEvent omap .start) = [] := by
        change received omap.log ++ omap.rxFifo = []
        rw [h.nothing, h.rxFifo]
        rfl
      constructor
      · exact h.toReady.moved _ _ _ _ _ _ _ _ _ _
      · change omap.stat ||| statAas = _
        rw [h.stat]
        rfl
      · refine Nat.le_antisymm hkept.begun ?_
        rw [busEvent_heard, starts, List.count_append]
        exact hlast
      · rw [busEvent_heard, transactions_append, h.bus, hbytes]
        rfl
      · rw [hbytes]
        decide
      · exact fun _ => h.nothing
      · exact h.frames
  | byte value => cases hexpects
  | stop => cases hexpects

end Events

/-! ## What stays true while the master goes on -/

/-- In a transaction of which at least these of `RRDY` and `BF` are pending.  At least so many
bytes wait in the FIFO; some wait if `RRDY` has come in the meantime. -/
structure Amid (p : Params) (n : Nat) (before : List (List U8)) (aas rrdy bf : Bool) (waiting : Nat)
    (omap : OmapI2cDev) : Prop where
  waiting : waiting ≤ omap.rxFifo.length
  serving : ∃ rrdy' bf', (rrdy = true → rrdy' = true) ∧ (bf = true → bf' = true) ∧
    (rrdy' = true → rrdy = false → omap.rxFifo ≠ []) ∧ Serving p n before aas rrdy' bf' omap

section Stability

variable {p : Params} {n : Nat} {before : List (List U8)} {aas rrdy bf : Bool} {waiting : Nat}
  {omap : OmapI2cDev}

theorem Amid.moved (h : Amid p n before aas rrdy bf waiting omap) (irqProgress : Bool)
    (irqStall : U8) (irqStallStat : U16) : Amid p n before aas rrdy bf waiting { omap with
      irqProgress := irqProgress
      irqStall := irqStall
      irqStallStat := irqStallStat } := by
  obtain ⟨hwaiting, rrdy', bf', hrrdy, hbf, hfilled, hserving⟩ := h
  exact ⟨hwaiting, rrdy', bf', hrrdy, hbf, hfilled, hserving.moved omap.incoming _ _ _⟩

theorem Ready.enable (h : Ready omap) (more : U16) :
    Ready { omap with ie := omap.ie ||| more } := by
  have hgrows : Within omap.ie (omap.ie ||| more) := by
    intro i hbit
    rw [BitVec.getLsbD_or, hbit, Bool.true_or]
  exact ⟨h.stuck, h.scheme, h.fifoSize, h.slave, h.iestate, h.ie.trans hgrows,
    fun haas => (h.bfEnabled haas).trans hgrows⟩

theorem Amid.enable (h : Amid p n before aas rrdy bf waiting omap) (more : U16) :
    Amid p n before aas rrdy bf waiting { omap with ie := omap.ie ||| more } := by
  obtain ⟨hwaiting, rrdy', bf', hrrdy, hbf, hfilled, hserving⟩ := h
  refine ⟨hwaiting, rrdy', bf', hrrdy, hbf, hfilled, ?_⟩
  exact ⟨hserving.toReady.enable more, hserving.stat, hserving.begun, hserving.bus,
    hserving.fits, hserving.fresh, hserving.frames⟩

/-- The hard handler has seen the start. -/
theorem Amid.address (h : Amid p n before aas rrdy bf waiting omap) :
    Amid p n before aas rrdy bf waiting { omap with ie := omap.ie ||| statBf, aas := true } := by
  obtain ⟨hwaiting, rrdy', bf', hrrdy, hbf, hfilled, hserving⟩ := h.enable statBf
  refine ⟨hwaiting, rrdy', bf', hrrdy, hbf, hfilled, ?_⟩
  refine ⟨⟨hserving.stuck, hserving.scheme, hserving.fifoSize, hserving.slave, hserving.iestate,
    hserving.ie, fun _ i hbit => ?_⟩, hserving.stat, hserving.begun, hserving.bus, hserving.fits,
    hserving.fresh, hserving.frames⟩
  change (omap.ie ||| statBf).getLsbD i = true
  rw [BitVec.getLsbD_or, hbit, Bool.or_true]

theorem Amid.scheme (h : Amid p n before aas rrdy bf waiting omap) : omap.scheme ≠ 0 := by
  obtain ⟨-, rrdy', bf', -, -, -, hserving⟩ := h
  exact hserving.scheme

theorem stable_amid : Stable n (Amid p n before aas rrdy bf waiting) where
  event omap event h hkept := by
    obtain ⟨hwaiting, rrdy', bf', hrrdy, hbf, hfilled, hserving⟩ := h
    rcases hserving.event hkept with ⟨value, rfl, hopen, hnext⟩ | ⟨rfl, hopen, hnext⟩
    · have hlength : (busEvent omap (.byte value)).rxFifo.length = omap.rxFifo.length + 1 :=
        List.length_append
      refine ⟨hlength ▸ Nat.le_succ_of_le hwaiting, true, false, fun _ => rfl, ?_, ?_, hnext⟩
      · exact fun h => (hbf h).symm.trans hopen ▸ rfl
      · exact fun _ _ => List.append_ne_nil_of_right_ne_nil _ (List.cons_ne_nil _ _)
    · exact ⟨hwaiting, rrdy', true, hrrdy, fun _ => rfl, hfilled, hnext⟩
  incoming omap incoming h := by
    obtain ⟨hwaiting, rrdy', bf', hrrdy, hbf, hfilled, hserving⟩ := h
    exact ⟨hwaiting, rrdy', bf', hrrdy, hbf, hfilled, hserving.moved _ _ _ _⟩

theorem stable_addressed : Stable n fun omap => omap.aas = true :=
  stable_of_same fun _ _ _ _ _ h => h

theorem stable_begun (idle : Bool) : Stable n fun omap => omap.idle = idle :=
  stable_of_same fun _ _ _ _ _ h => h

/-- Listening, with no start left to come. -/
theorem stable_rest : Stable n fun omap =>
    ∃ closed, Listening p closed omap ∧ starts omap.heard = n where
  event omap event h hkept := by
    obtain ⟨closed, hlistening, hbegun⟩ := h
    have hextends : Extends omap (busEvent omap event) := by
      rw [Extends, busEvent_heard]
      exact List.prefix_append _ _
    have hnone : (transactions omap.heard).current = none := by rw [hlistening.bus]
    have hsame := Promised.nothing hextends hkept hnone hbegun
    rw [busEvent_heard] at hsame
    exact absurd (List.append_right_eq_self.mp hsame) (List.cons_ne_nil _ _)
  incoming omap incoming h := by
    obtain ⟨closed, hlistening, hbegun⟩ := h
    exact ⟨closed, hlistening.moved _ _ _ _, hbegun⟩

end Stability

/-! ## Passes -/

section Passes

variable {p : Params} {n : Nat} {before : List (List U8)} {aas rrdy bf : Bool} {waiting : Nat}
  {omap : OmapI2cDev}

/-- Acking turns this status into that one. -/
theorem Serving.ack {aas' rrdy' : Bool} (h : Serving p n before aas rrdy bf omap) (mask : U16)
    (hstat : pending aas rrdy bf &&& ~~~(mask &&& ~~~0) = pending aas' rrdy' bf)
    (haas : aas' = true → aas = true) : Serving p n before aas' rrdy' bf
      { omap with stat := omap.stat &&& ~~~(mask &&& ~~~ omap.stuck) } := by
  constructor
  · exact h.toReady.moved _ _ _ _ _ _ _ _ _ _
  · change omap.stat &&& ~~~(mask &&& ~~~ omap.stuck) = _
    rw [h.stat, h.stuck, hstat]
  · exact h.begun
  · exact h.bus
  · exact h.fits
  · exact fun hfirst => h.fresh (hfirst.imp haas id)
  · exact h.frames

/-- `AAS` makes the next byte the first one, and is acked. -/
theorem slaveFlags_pending (aas rrdy bf : Bool) : slaveFlags (pending aas rrdy bf) =
    if aas then (do setIdle true; ackStat statAas) else pure () := by
  have hardy : ¬(pending aas rrdy bf &&& (statArdy ||| statNack) ≠ 0) := by
    rw [pending_and_other _ _ _ (by decide)]
    exact not_not.mpr rfl
  rw [slaveFlags]
  dsimp only
  rw [if_neg hardy, (pending_and _ _ _).1]
  cases aas with
  | false => exact if_neg (by decide)
  | true => exact if_pos (by decide)

theorem slaveFlags_amid : Runs n
    (fun omap => Amid p n before aas rrdy bf waiting omap ∧ omap.aas = true)
    (slaveFlags (pending aas rrdy bf))
    fun _ omap => Amid p n before false rrdy bf waiting omap ∧ omap.aas = true := by
  rw [slaveFlags_pending]
  cases aas with
  | false => exact (masters n).pure _ fun _ h => h
  | true =>
      have hidle : Runs n (fun omap => Amid p n before true rrdy bf waiting omap ∧ omap.aas = true)
          (setIdle true)
          fun _ omap => Amid p n before true rrdy bf waiting omap ∧ omap.aas = true := by
        refine Meets.update (fun _ => extends_of_same rfl) fun omap h => ⟨?_, h.2⟩
        obtain ⟨⟨hwaiting, rrdy', bf', hrrdy, hbf, hfilled, hserving⟩, -⟩ := h
        refine ⟨hwaiting, rrdy', bf', hrrdy, hbf, hfilled, ?_⟩
        exact ⟨hserving.toReady.moved _ _ _ _ _ _ _ _ _ _, hserving.stat, hserving.begun,
          hserving.bus, hserving.fits, fun _ => hserving.fresh (Or.inl rfl), hserving.frames⟩
      refine (masters n).bind hidle fun _ =>
        (stable_amid.and stable_addressed).write (fun _ => rfl) fun omap h => ⟨?_, h.2⟩
      obtain ⟨⟨hwaiting, rrdy', bf', hrrdy, hbf, hfilled, hserving⟩, -⟩ := h
      refine ⟨hwaiting, rrdy', bf', hrrdy, hbf, hfilled, hserving.ack _ ?_ fun h => by cases h⟩
      cases rrdy' <;> cases bf' <;> decide

theorem slaveNumBytes_amid : Runs n
    (fun omap => Amid p n before false true bf 1 omap ∧ omap.aas = true) slaveNumBytes
    fun numBytes omap => Amid p n before false true bf numBytes omap ∧ omap.aas = true := by
  refine Meets.get fun read => ?_
  dsimp only
  split
  · refine (masters n).bind
      (((stable_amid.and stable_addressed).read _).mono (fun _ h => h.1) fun _ _ h => h)
      fun count => (masters n).pure _ fun omap h => ?_
    obtain ⟨⟨⟨hone, hserving⟩, haddressed⟩, hcount⟩ := h
    obtain ⟨rrdy', bf', hrrdy, hbf, hfilled, hserving⟩ := hserving
    rw [Nat.mod_eq_of_lt hserving.fits_fifo] at hcount
    refine ⟨⟨?_, rrdy', bf', hrrdy, hbf, hfilled, hserving⟩, haddressed⟩
    split
    · exact hone
    · exact hcount.le
  · rename_i hnofifo
    refine (masters n).bind (Q := fun _ _ => False) ((masters n).pure _ fun omap h => ?_)
      fun _ => (masters n).pure _ fun _ h => h.elim
    obtain ⟨⟨⟨-, rrdy', bf', -, -, -, hserving⟩, -⟩, rfl⟩ := h
    exact hnofifo hserving.fifoSize

/-- A byte that is read goes to the backend before anything else comes. -/
theorem readByte_amid (waiting : Nat) {m : Irq Unit} {Q : Unit → OmapI2cDev → Prop}
    (hm : Runs n (fun omap => Amid p n before false true bf waiting omap ∧ omap.aas = true) m Q) :
    Runs n (fun omap => Amid p n before false true bf (waiting + 1) omap ∧ omap.aas = true ∧
      omap.idle = false) (do
        let value ← readData
        setProgress true
        slaveCallback (.writeReceived value)
        m) Q := by
  have hread : Runs n (fun omap => Amid p n before false true bf (waiting + 1) omap ∧
      omap.aas = true ∧ omap.idle = false) readData fun value omap => Amid p n before false true bf
        (waiting + 1) { omap with rxFifo := value :: omap.rxFifo } ∧ omap.aas = true ∧
          omap.idle = false := by
    refine (masters n).bind
      (stable_amid.and (stable_addressed.and (stable_begun false))).tick fun _ =>
        Meets.get fun read => (masters n).bind
          (Meets.update (fun _ => extends_of_same rfl) fun omap h => ?_)
          fun _ => (masters n).pure _ fun _ h => h
    obtain ⟨⟨hamid, hrest⟩, rfl⟩ := h
    refine ⟨?_, hrest⟩
    obtain ⟨value, fifo, hfifo⟩ := List.exists_cons_of_length_pos
      (Nat.lt_of_lt_of_le (Nat.succ_pos _) hamid.waiting)
    change Amid p n before false true bf (waiting + 1)
      { omap with rxFifo := omap.rxFifo.headD 0 :: omap.rxFifo.tail }
    rw [hfifo, List.headD_cons, List.tail_cons, ← hfifo]
    exact hamid
  refine (masters n).bind hread fun value => ?_
  have hprogress : Runs n (fun omap => Amid p n before false true bf (waiting + 1)
        { omap with rxFifo := value :: omap.rxFifo } ∧ omap.aas = true ∧ omap.idle = false)
      (setProgress true) fun _ omap => Amid p n before false true bf (waiting + 1)
        { omap with rxFifo := value :: omap.rxFifo } ∧ omap.aas = true ∧ omap.idle = false := by
    refine Meets.update (fun _ => extends_of_same rfl) fun omap h => ⟨?_, h.2⟩
    obtain ⟨hwaiting, rrdy', bf', hrrdy, hbf, hfilled, hserving⟩ := h.1
    exact ⟨hwaiting, rrdy', bf', hrrdy, hbf, hfilled, hserving.moved omap.incoming _ _ _⟩
  refine (masters n).bind hprogress fun _ =>
    (masters n).bind (Meets.update (fun _ => extends_of_same rfl) fun omap h => ⟨?_, h.2.1⟩)
      fun _ => hm
  obtain ⟨⟨hwaiting, rrdy', bf', hrrdy, hbf, hfilled, hserving⟩, -, hidle⟩ := h
  have hbytes : received (omap.log ++ [.callback (.writeReceived value)]) ++ omap.rxFifo =
      received omap.log ++ value :: omap.rxFifo := by
    rw [received_append]
    exact List.append_assoc _ [value] _
  refine ⟨Nat.le_of_succ_le_succ hwaiting, rrdy', bf', hrrdy, hbf, (fun _ h => by cases h), ?_⟩
  constructor
  · exact hserving.toReady.moved _ _ _ _ _ _ _ _ _ _
  · exact hserving.stat
  · exact hserving.begun
  · have hbus := hserving.bus
    rw [bytes] at hbus ⊢
    exact hbytes ▸ hbus
  · have hfits := hserving.fits
    rw [bytes] at hfits ⊢
    exact hbytes ▸ hfits
  · rintro (hnone | hfirst)
    · cases hnone
    · cases hidle.symm.trans hfirst
  · change (enqueued p (omap.log ++ [.callback (.writeReceived value)])).Sublist before
    rw [enqueued_other p omap.log rfl]
    exact hserving.frames

/-- As many bytes as wait go to the backend, after a write request if they start a transaction. -/
theorem slaveWriteReceived_amid (waiting : Nat) : Runs n
    (fun omap => Amid p n before false true bf waiting omap ∧ omap.aas = true)
    (slaveWriteReceived waiting)
    fun _ omap => Amid p n before false true bf 0 omap ∧ omap.aas = true := by
  induction waiting with
  | zero => exact (masters n).pure _ fun _ h => h
  | succ waiting ih =>
      refine Meets.get fun read => ?_
      split
      · have hidle : Runs n (fun omap => (Amid p n before false true bf (waiting + 1) omap ∧
              omap.aas = true) ∧ omap = read) (setIdle false) fun _ omap =>
            Amid p n before false true bf (waiting + 1) omap ∧ omap.aas = true ∧
              omap.idle = false ∧ received omap.log = [] := by
          refine Meets.update (fun _ => extends_of_same rfl) fun omap h => ?_
          obtain ⟨⟨⟨hwaiting, rrdy', bf', hrrdy, hbf, hfilled, hserving⟩, haddressed⟩, rfl⟩ := h
          have hnone := hserving.fresh (Or.inr ‹omap.idle = true›)
          refine ⟨⟨hwaiting, rrdy', bf', hrrdy, hbf, hfilled, ?_⟩, haddressed, rfl, hnone⟩
          exact ⟨hserving.toReady.moved _ _ _ _ _ _ _ _ _ _, hserving.stat, hserving.begun,
            hserving.bus, hserving.fits, fun _ => hnone, hserving.frames⟩
        refine (masters n).bind hidle fun _ => (masters n).bind
          (Meets.update (fun _ => extends_of_same rfl) fun omap h => ?_)
          fun _ => readByte_amid waiting ih
        obtain ⟨⟨hwaiting, rrdy', bf', hrrdy, hbf, hfilled, hserving⟩, haddressed, hidle, hnone⟩ :=
          h
        have hlog : received (omap.log ++ [.callback .writeRequested]) = received omap.log := by
          rw [received_append, hnone]
          rfl
        refine ⟨⟨hwaiting, rrdy', bf', hrrdy, hbf, hfilled, ?_⟩, haddressed, hidle⟩
        constructor
        · exact hserving.toReady.moved _ _ _ _ _ _ _ _ _ _
        · exact hserving.stat
        · exact hserving.begun
        · have hbus := hserving.bus
          rw [bytes] at hbus ⊢
          exact hlog.symm ▸ hbus
        · have hfits := hserving.fits
          rw [bytes] at hfits ⊢
          exact hlog.symm ▸ hfits
        · exact fun _ => hlog.trans hnone
        · change (enqueued p (omap.log ++ [.callback .writeRequested])).Sublist before
          rw [enqueued_other p omap.log rfl]
          exact hserving.frames
      · refine (readByte_amid waiting ih).mono (fun omap h => ?_) fun _ _ h => h
        obtain ⟨⟨hamid, haddressed⟩, rfl⟩ := h
        exact ⟨hamid, haddressed, Bool.eq_false_iff.mpr ‹_›⟩

/-- In a transaction, at the head of the loop. -/
def AtHead (p : Params) (n : Nat) (omap : OmapI2cDev) : Prop :=
  (∃ aas before, Amid p n before aas false false 0 omap) ∧ omap.aas = true

theorem stable_atHead : Stable n (AtHead p n) :=
  (Stable.exists fun _ => Stable.exists fun _ => stable_amid).and stable_addressed

/-- A pass with data: all of it that is there goes to the backend. -/
theorem slavePass_drains : Runs n
    (fun omap => Amid p n before aas true bf 1 omap ∧ omap.aas = true)
    (slavePass (pending aas true bf)) fun _ => AtHead p n := by
  have hserve : slaveServe (pending aas true bf) = (do
        slaveWriteReceived (← slaveNumBytes)
        ackStat statRrdy) := by
    have hrdr : ¬(pending aas true bf &&& statRdr ≠ 0) := by
      rw [pending_and_other _ _ _ (by decide)]
      exact not_not.mpr rfl
    rw [slaveServe, if_neg hrdr, (pending_and _ _ _).2.1]
    exact if_pos (by decide)
  rw [slavePass, hserve]
  refine (masters n).bind slaveFlags_amid fun _ => (masters n).bind slaveNumBytes_amid
    fun waiting => (masters n).bind (slaveWriteReceived_amid waiting) fun _ => ?_
  refine (stable_amid.and stable_addressed).write (fun _ => rfl) fun omap h => ⟨?_, h.2⟩
  obtain ⟨⟨-, rrdy', bf', -, -, -, hserving⟩, -⟩ := h
  refine ⟨false, before, Nat.zero_le _, false, bf', id, (fun h => by cases h),
    (fun h => by cases h), ?_⟩
  refine hserving.ack statRrdy ?_ id
  cases rrdy' <;> cases bf' <;> decide

/-- A pass in which the driver only sees that it is addressed. -/
theorem slavePass_addressed : Runs n
    (fun omap => Amid p n before true false false 0 omap ∧ omap.aas = true)
    (slavePass (pending true false false)) fun _ => AtHead p n := by
  have hserve : slaveServe (pending true false false) = ackStat statAas := rfl
  rw [slavePass, hserve]
  refine (masters n).bind slaveFlags_amid fun _ =>
    (stable_amid.and stable_addressed).write (fun _ => rfl) fun omap h => ⟨⟨false, before, ?_⟩, h.2⟩
  obtain ⟨⟨hwaiting, rrdy', bf', hrrdy, hbf, hfilled, hserving⟩, -⟩ := h
  refine ⟨hwaiting, rrdy', bf', hrrdy, hbf, hfilled, hserving.ack statAas ?_ id⟩
  cases rrdy' <;> cases bf' <;> decide

/-! ## The stop -/

theorem clearSlaveState_quiet (hquiet : omap.incoming = []) (hstat : omap.stat = 0) :
    (clearSlaveState omap).2 = { omap with rxFifo := [], sent := [] } := by
  have hclear (mask : U16) : ((do clearFifos; ackStat mask : Irq Unit) omap).2 =
      { omap with rxFifo := [], sent := [] } := by
    rw [bind_apply, clearFifos_quiet hquiet, ackStat_quiet (by exact hquiet)]
    dsimp only
    rw [hstat]
    congr 1
    exact BitVec.zero_and
  have hnone (bit : U16) : ¬(omap.shown &&& bit ≠ 0) := by
    rw [(shown_within omap).eq_zero hstat]
    exact not_not.mpr BitVec.zero_and
  rw [clearSlaveState, bind_apply, readStat_quiet hquiet]
  dsimp only
  rw [if_neg (hnone _), if_neg (hnone _)]
  exact hclear _

/-- Back to listening, with nothing pending. -/
theorem listenSlave_quiet (hready : Ready omap) (hquiet : omap.incoming = [])
    (hstat : omap.stat = 0) :
    ∃ con oa, (listenSlave omap).2 =
      { omap with
        aas := false
        idle := true
        ie := omap.ie &&& ~~~(statAas ||| statBf ||| statRovr ||| statXudf) |||
          (omap.iestate ||| statAas ||| statRovr ||| statXudf)
        con := con
        oa := oa
        rxFifo := []
        sent := [] } := by
  obtain ⟨slave, hslave⟩ := Option.ne_none_iff_exists'.mp hready.slave
  rw [listenSlave, bind_apply, get_apply]
  dsimp only
  rw [hslave]
  dsimp only
  rw [bind_apply, get_apply, bind_apply, modify_apply, bind_apply,
    disableIrqs_quiet (by exact hquiet) (by exact hready.scheme), bind_apply,
    writeOa_quiet (by exact hquiet), bind_apply, writeCon_quiet (by exact hquiet), bind_apply,
    clearSlaveState_quiet (by exact hquiet) (by exact hstat), bind_apply, get_apply,
    enableIrqs_quiet (by exact hquiet) (by exact hready.scheme)]
  dsimp only
  rw [hslave]
  exact ⟨_, _, rfl⟩

/-- The stop of a transaction all of whose bytes have gone to the backend. -/
theorem slaveStop_listens (h : Serving p n before false false true omap)
    (hquiet : omap.incoming = []) (hfifo : omap.rxFifo = []) :
    Listening p (before ++ [bytes omap]) (slaveStop omap).2 := by
  have hcontent : bytes omap = received omap.log := by
    rw [bytes, hfifo, List.append_nil]
  have hrun : slaveStop omap = listenSlave
      { omap with aas := false, stat := 0, log := omap.log ++ [.callback .stop] } := by
    rw [slaveStop, bind_apply, modify_apply, bind_apply, bind_apply]
    change listenSlave (ackStat statBf
      { omap with aas := false, log := omap.log ++ [.callback .stop] }).2 = _
    rw [ackStat_quiet (by exact hquiet)]
    dsimp only
    rw [h.stuck, h.stat]
    rfl
  have hready : Ready
      { omap with aas := false, stat := 0, log := omap.log ++ [.callback .stop] } :=
    ⟨h.stuck, h.scheme, h.fifoSize, h.slave, h.iestate, h.ie, fun h => by cases h⟩
  obtain ⟨con, oa, hlisten⟩ := listenSlave_quiet hready hquiet rfl
  rw [hrun, hlisten]
  constructor
  · constructor
    · exact h.stuck
    · exact h.scheme
    · exact h.fifoSize
    · exact h.slave
    · exact h.iestate
    · intro i hbit
      simp only [BitVec.getLsbD_or, Bool.or_eq_true] at hbit ⊢
      rcases hbit with haas | hrrdy
      · exact Or.inr (Or.inl (Or.inl (Or.inr haas)))
      · exact Or.inr (Or.inl (Or.inl (Or.inl (h.iestate i hrrdy))))
    · exact fun h => by cases h
  · rfl
  · rfl
  · rfl
  · exact h.bus
  · change received (omap.log ++ [.callback .stop]) = []
    rw [received_append]
    rfl
  · rw [hcontent]
    exact (enqueued_stop p omap.log).trans (h.frames.append (List.Sublist.refl _))

theorem slavePass_stop (aas : Bool) : slavePass (pending aas false true) =
    ((if aas then (do setIdle true; ackStat statAas) else pure ()) >>= fun _ => slaveStop) := by
  have hserve : slaveServe (pending aas false true) = slaveStop := by
    cases aas with
    | false => rfl
    | true => rfl
  rw [slavePass, slaveFlags_pending, hserve]

theorem slavePass_listens (h : Serving p n before aas false true omap)
    (hquiet : omap.incoming = []) (hfifo : omap.rxFifo = []) :
    Listening p (before ++ [bytes omap]) (slavePass (pending aas false true) omap).2 := by
  rw [slavePass_stop]
  cases aas with
  | false => exact slaveStop_listens h hquiet hfifo
  | true =>
      have hflags : ((do setIdle true; ackStat statAas; slaveStop : Irq Unit) omap).2 =
          (slaveStop (ackStat statAas { omap with idle := true }).2).2 := rfl
      change Listening p _ ((do setIdle true; ackStat statAas; slaveStop : Irq Unit) omap).2
      rw [hflags, ackStat_quiet (by exact hquiet)]
      have hidle : Serving p n before true false true { omap with idle := true } :=
        ⟨h.toReady.moved _ _ _ _ _ _ _ _ _ _, h.stat, h.begun, h.bus, h.fits,
          fun _ => h.fresh (Or.inl rfl), h.frames⟩
      exact slaveStop_listens (hidle.ack statAas (by decide) fun _ => rfl) hquiet hfifo

/-- Nothing comes between the stop and the next start, which is yet to be left to come. -/
theorem slavePass_rests (h : Serving p n before aas false true omap) (hfifo : omap.rxFifo = [])
    (hkept : Promised n (slavePass (pending aas false true) omap).2) :
    ∃ closed, Listening p closed (slavePass (pending aas false true) omap).2 ∧
      starts (slavePass (pending aas false true) omap).2.heard = n := by
  have hsilent : Silent (slavePass (pending aas false true)) := by
    rw [slavePass_stop]
    cases aas with
    | false => exact silent_slaveStop
    | true =>
        have hidle : Silent (setIdle true) := Silent.update (fun _ => rfl) fun _ => rfl
        exact hidle.bind fun _ => (silent_ackStat _).bind fun _ => silent_slaveStop
  have hnone : (transactions omap.heard).current = none := by
    rw [h.bus]
    rfl
  have hheard := Promised.nothing (hsilent.later omap) hkept hnone h.begun
  have hquieten : Serving p n before aas false true (quieten omap) := h.moved [] _ _ _
  have hlistening := slavePass_listens hquieten rfl hfifo
  rw [hsilent.quiet omap hheard] at hlistening
  refine ⟨_, hlistening.moved (slavePass (pending aas false true) omap).2.incoming _ _ _, ?_⟩
  rw [hheard]
  exact h.begun

end Passes

/-! ## The loop -/

/-- The status that a pass of the loop begins with. -/
def slaveStatus : Irq U16 := do
  let bits ← readIe
  return (← readStat) &&& bits

/-- The pass for this status is the one for the stop. -/
def takesStop (stat : U16) : Bool :=
  stat &&& (statRdr ||| statRrdy ||| statXdr ||| statXrdy) == 0 && stat &&& statBf != 0

/-- No pass takes a stop while a byte is in the FIFO: one that came in an earlier pass between the
read of the FIFO level and the ack of `RRDY`, with none after it. -/
def stopsWhole : Nat → OmapI2cDev → Bool
  | 0, _ => true
  | left + 1, omap =>
      let seen := slaveStatus omap
      seen.1 == 0 || (!takesStop seen.1 || seen.2.rxFifo.isEmpty) &&
        stopsWhole left (slavePass seen.1 seen.2).2

section Loop

variable {p : Params} {n : Nat} {omap : OmapI2cDev}

/-- Where a pass leaves the driver: in the transaction, or back to listening. -/
def Handling (p : Params) (n : Nat) (omap : OmapI2cDev) : Prop :=
  AtHead p n omap ∨ ∃ closed, Listening p closed omap ∧ starts omap.heard = n

theorem stable_handling : Stable n (Handling p n) := stable_atHead.or stable_rest

theorem slaveStatus_handling : Runs n (Handling p n) slaveStatus
    fun stat omap => Handling p n omap ∧ stat = omap.stat &&& omap.ie := by
  have hie (bits : U16) : Stable n fun omap => omap.ie = bits :=
    stable_of_same fun _ _ _ _ _ h => h
  refine (masters n).bind stable_handling.readIe fun bits => (masters n).bind
    ((stable_handling.and (hie bits)).readStat.mono (fun _ h => ⟨h.1, h.2.symm⟩) fun _ _ h => h)
    fun stat => (masters n).pure _ fun omap h => ?_
  obtain ⟨⟨hhandling, rfl⟩, rfl⟩ := h
  exact ⟨hhandling, shown_and_ie omap⟩

theorem slaveEvent_pass (left : Nat) (omap : OmapI2cDev) : slaveEvent (left + 1) omap =
    if (slaveStatus omap).1 = 0 then (false, (slaveStatus omap).2)
    else slaveEvent left (slavePass (slaveStatus omap).1 (slaveStatus omap).2).2 := by
  rw [slaveEvent]
  change (if (slaveStatus omap).1 = 0 then pure false else do
    slavePass (slaveStatus omap).1
    slaveEvent left : Irq Bool) (slaveStatus omap).2 = _
  by_cases hnone : (slaveStatus omap).1 = 0
  · rw [if_pos hnone, if_pos hnone]
    rfl
  · rw [if_neg hnone, if_neg hnone]
    rfl

/-- One pass, if it takes no stop with bytes in the FIFO. -/
theorem slavePass_handling (hhandling : Handling p n omap)
    (hsome : omap.stat &&& omap.ie ≠ 0)
    (hwhole : takesStop (omap.stat &&& omap.ie) = true → omap.rxFifo = [])
    (hkept : Promised n (slavePass (omap.stat &&& omap.ie) omap).2) :
    Handling p n (slavePass (omap.stat &&& omap.ie) omap).2 := by
  rcases hhandling with ⟨⟨aas, before, hamid⟩, haddressed⟩ | ⟨closed, hlistening, -⟩
  · obtain ⟨-, rrdy, bf, -, -, hfilled, hserving⟩ := hamid
    have henabled : omap.stat &&& omap.ie = pending aas rrdy bf := by
      rw [← hserving.stat]
      refine Within.and_eq ?_
      rw [hserving.stat]
      refine (pending_within _ _ _).trans fun i hbit => ?_
      rw [BitVec.getLsbD_or, Bool.or_eq_true] at hbit
      rcases hbit with hbit | hbit
      · exact hserving.ie i hbit
      · exact hserving.bfEnabled haddressed i hbit
    rw [henabled] at hsome hwhole hkept ⊢
    cases rrdy with
    | true =>
        have hone : 1 ≤ omap.rxFifo.length := List.length_pos_iff.mpr (hfilled rfl rfl)
        refine Or.inl (slavePass_drains.holds omap ⟨⟨hone, true, bf, id, id, ?_, hserving⟩,
          haddressed⟩ hkept)
        exact fun _ h => by cases h
    | false =>
        cases bf with
        | true =>
            have htakes : takesStop (pending aas false true) = true := by
              cases aas with
              | false => rfl
              | true => rfl
            exact Or.inr (slavePass_rests hserving (hwhole htakes) hkept)
        | false =>
            cases aas with
            | false => exact absurd rfl hsome
            | true =>
                refine Or.inl (slavePass_addressed.holds omap ⟨⟨Nat.zero_le _, false, false, id, id,
                  ?_, hserving⟩, haddressed⟩ hkept)
                exact fun h => by cases h
  · rw [hlistening.stat] at hsome
    exact absurd BitVec.zero_and hsome

theorem later_slavePass (stat : U16) : Keeps Extends (slavePass stat) :=
  extends_frame.stopFrame.slavePass stat

/-- The loop, by induction on the passes that are left. -/
theorem slaveEvent_handling (left : Nat) (hhandling : Handling p n omap)
    (hwhole : stopsWhole left omap = true) (hkept : Promised n (slaveEvent left omap).2) :
    Handling p n (slaveEvent left omap).2 := by
  induction left generalizing omap with
  | zero =>
      have hzero : (slaveEvent 0 omap).2 = (slaveStatus omap).2 := by
        rw [slaveEvent, bind_apply, bind_apply]
        dsimp only
        split <;> rfl
      rw [hzero] at hkept ⊢
      exact (slaveStatus_handling.holds omap hhandling hkept).1
  | succ left ih =>
      have hseen := slaveStatus_handling.holds omap hhandling
      rw [stopsWhole, Bool.or_eq_true, beq_iff_eq] at hwhole
      rw [slaveEvent_pass] at hkept ⊢
      by_cases hnone : (slaveStatus omap).1 = 0
      · rw [if_pos hnone] at hkept ⊢
        exact (hseen hkept).1
      · rw [if_neg hnone] at hkept ⊢
        obtain ⟨hstop, hrest⟩ := (Bool.and_eq_true_iff.mp (hwhole.resolve_left hnone))
        have hpassed := hkept.earlier (extends_frame.slaveEvent left _)
        obtain ⟨hhandling, hstat⟩ := hseen (hpassed.earlier (later_slavePass _ _))
        generalize (slaveStatus omap).1 = stat at *
        subst hstat
        refine ih (slavePass_handling hhandling hnone ?_ hpassed) hrest hkept
        intro htakes
        rw [htakes] at hstop
        exact List.isEmpty_iff.mp hstop

end Loop

end RadsatLinux.I2c.SlaveLoop
