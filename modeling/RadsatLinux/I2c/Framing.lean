import RadsatLinux.I2c.SlaveLoop

/-!
# Frames and transactions

From the bus to the frame queue: a start, the bytes of a master write and its stop set
sticky bits and fill the receive FIFO, and the two handlers run after any delay, with more of the
same coming while they run.  When the stop of a transaction is handled before the next start, and
finds none of its bytes in the FIFO, each frame that the queue takes has the bytes of one
transaction.
-/

namespace RadsatLinux.I2c.Framing

open RadsatLinux.Library.Bits RadsatLinux.Library.Stateful
open RadsatLinux.I2c.FrameQueue RadsatLinux.I2c.Omap RadsatLinux.I2c.Frames RadsatLinux.I2c.Quiet
  RadsatLinux.I2c.Storm RadsatLinux.I2c.Arrivals RadsatLinux.I2c.SlaveLoop

/-! ## The bus and the handlers -/

/-- An event on the bus, a run of one of the two handlers with what comes in before each of its
register accesses, or a `frameq_read`. -/
inductive Event where
  | bus (event : BusEvent)
  | isr (incoming : List (List BusEvent))
  | thread (incoming : List (List BusEvent))
  | read (size : Nat) (copyFails : Bool)

/-- The driver, and whether its thread is to run. -/
structure World where
  omap : OmapI2cDev
  woken : Bool

/-- The driver as a handler finds it. -/
def World.entry (w : World) (incoming : List (List BusEvent)) : OmapI2cDev :=
  { w.omap with incoming := incoming }

variable (unpatched : Unpatched)

def World.step (w : World) : Event → World
  | .bus event => { w with omap := busEvent w.omap event }
  | .isr incoming =>
      let done := isr (w.entry incoming)
      { omap := quieten done.2, woken := w.woken || done.1 }
  | .thread incoming =>
      if w.woken then
        { omap := quieten (isrThread unpatched (w.entry incoming)).2, woken := false }
      else w
  | .read size copyFails =>
      { w with omap := { w.omap with log := w.omap.log ++ [.read size copyFails] } }

def World.run (w : World) : List Event → World
  | [] => w
  | event :: rest => (w.step unpatched event).run rest

/-- `P` holds of every event, in the state that it comes in. -/
def World.Each (P : World → Event → Prop) (w : World) : List Event → Prop
  | [] => True
  | event :: rest => P w event ∧ (w.step unpatched event).Each P rest

/-- The masters do writes and nothing else. -/
def Legal (w : World) (event : Event) : Prop :=
  MasterWrites (w.step unpatched event).omap.heard

/-- A start may come now, and no second one after it: the driver listens, since the stop before has
been handled. -/
def allowed (omap : OmapI2cDev) : Nat :=
  if omap.aas = false ∧ omap.stat &&& statAas = 0 then 1 else 0

/-- The thread at the head of its loop. -/
def atLoop (omap : OmapI2cDev) : OmapI2cDev :=
  (pendingIrq (readIe (setProgress false omap).2).2).2

/-- No start comes before the thread is done with its loop, no stop is taken before the last byte,
and the controller is not recovered by force. -/
structure ThreadTimely (omap : OmapI2cDev) : Prop where
  noStart : starts (isrThreadWork unpatched omap).2.heard = starts omap.heard
  start : starts (isrThread unpatched omap).2.heard ≤
    starts (isrThreadWork unpatched omap).2.heard + allowed (isrThreadWork unpatched omap).2
  whole : stopsWhole isrLimit (atLoop omap) = true
  notForced : forced unpatched omap = false

/-- A start finds the driver listening and its thread out of the loop, and a stop finds the FIFO
empty. -/
def Timely (w : World) : Event → Prop
  | .bus event => starts [event] ≤ allowed w.omap
  | .isr incoming =>
      starts (isr (w.entry incoming)).2.heard ≤ starts w.omap.heard + allowed w.omap
  | .thread incoming => w.woken = true → ThreadTimely unpatched (w.entry incoming)
  | .read _ _ => True

/-- The frames that the queue has taken are transactions, each of them another one. -/
def Framed (p : Params) (w : World) : Prop :=
  (enqueued p w.omap.log).Sublist (transactions w.omap.heard).closed

/-! ## The handlers -/

section Handlers

variable {p : Params} {n : Nat} {omap : OmapI2cDev}

/-- What the driver has of the transactions when at most `n` of them begin. -/
def Phase (p : Params) (n : Nat) (omap : OmapI2cDev) : Prop :=
  (∃ closed, Listening p closed omap ∧ n ≤ starts omap.heard + 1) ∨
    ∃ aas, (∃ before, Amid p n before aas false false 0 omap) ∧ (aas = true ∨ omap.aas = true)

theorem amid_of_start {closed : List (List U8)}
    (h : Serving p n closed true false false omap) : Amid p n closed true false false 0 omap :=
  ⟨Nat.zero_le _, false, false, id, id, (fun h => by cases h), h⟩

theorem stable_phase : Stable n (Phase p n) where
  event omap event h hkept := by
    rcases h with ⟨closed, hlistening, hlast⟩ | hamid
    · exact Or.inr ⟨true, ⟨closed, amid_of_start (hlistening.event hkept hlast)⟩, Or.inl rfl⟩
    · have hstable (aas : Bool) : Stable n fun omap =>
          (∃ before, Amid p n before aas false false 0 omap) ∧ (aas = true ∨ omap.aas = true) :=
        (Stable.exists fun _ => stable_amid).and (stable_of_same fun _ _ _ _ _ h => h)
      exact Or.inr ((Stable.exists hstable).event omap event hamid hkept)
  incoming omap incoming h := by
    rcases h with ⟨closed, hlistening, hlast⟩ | ⟨aas, ⟨before, hamid⟩, haas⟩
    · exact Or.inl ⟨closed, hlistening.moved _ _ _ _, hlast⟩
    · exact Or.inr ⟨aas, ⟨before, stable_amid.incoming omap incoming hamid⟩, haas⟩

theorem Phase.moved (h : Phase p n omap) (irqProgress : Bool) (irqStall : U8)
    (irqStallStat : U16) : Phase p n { omap with
      irqProgress := irqProgress
      irqStall := irqStall
      irqStallStat := irqStallStat } := by
  rcases h with ⟨closed, hlistening, hlast⟩ | ⟨aas, ⟨before, hamid⟩, haas⟩
  · exact Or.inl ⟨closed, hlistening.moved omap.incoming _ _ _, hlast⟩
  · exact Or.inr ⟨aas, ⟨before, hamid.moved _ _ _⟩, haas⟩

theorem Phase.enable (h : Phase p n omap) (more : U16) :
    Phase p n { omap with ie := omap.ie ||| more } := by
  rcases h with ⟨closed, hlistening, hlast⟩ | ⟨aas, ⟨before, hamid⟩, haas⟩
  · refine Or.inl ⟨closed, ?_, hlast⟩
    exact ⟨hlistening.toReady.enable more, hlistening.stat, hlistening.aas,
      hlistening.rxFifo, hlistening.bus, hlistening.nothing, hlistening.frames⟩
  · exact Or.inr ⟨aas, ⟨before, hamid.enable more⟩, haas⟩

theorem Phase.scheme (h : Phase p n omap) : omap.scheme ≠ 0 := by
  rcases h with ⟨closed, hlistening, -⟩ | ⟨aas, ⟨before, hamid⟩, -⟩
  · exact hlistening.scheme
  · exact hamid.scheme

/-- Only a listening driver leaves a start to come. -/
theorem Phase.at_allowed (h : Phase p n omap) :
    Phase p (starts omap.heard + allowed omap) omap := by
  rcases h with ⟨closed, hlistening, -⟩ | ⟨aas, ⟨before, hwaiting, hamid⟩, haas⟩
  · refine Or.inl ⟨closed, hlistening, ?_⟩
    unfold allowed
    split <;> omega
  · obtain ⟨rrdy, bf, hrrdy, hbf, hfilled, hserving⟩ := hamid
    have hnone : allowed omap = 0 := by
      refine if_neg ?_
      rintro ⟨hunaddressed, hclear⟩
      rcases haas with rfl | haddressed
      · rw [hserving.stat, (pending_and _ _ _).1] at hclear
        exact absurd hclear (by decide)
      · cases hunaddressed.symm.trans haddressed
    rw [hnone, Nat.add_zero, hserving.begun]
    exact Or.inr ⟨aas, ⟨before, hwaiting, rrdy, bf, hrrdy, hbf, hfilled, hserving⟩, haas⟩

theorem Phase.framed (h : Phase p n omap) :
    (enqueued p omap.log).Sublist (transactions omap.heard).closed := by
  rcases h with ⟨closed, hlistening, -⟩ | ⟨aas, ⟨before, -, rrdy, bf, -, -, -, hserving⟩, -⟩
  · rw [hlistening.bus]
    exact hlistening.frames
  · rw [hserving.bus]
    cases bf with
    | false => exact hserving.frames
    | true => exact hserving.frames.trans (List.sublist_append_left _ _)

theorem Phase.read (h : Phase p n omap) (size : Nat) (copyFails : Bool) :
    Phase p n { omap with log := omap.log ++ [.read size copyFails] } := by
  have hreceived : received (omap.log ++ [.read size copyFails]) = received omap.log := by
    rw [received_append]
    rfl
  have henqueued : enqueued p (omap.log ++ [.read size copyFails]) = enqueued p omap.log :=
    enqueued_other p omap.log rfl
  rcases h with ⟨closed, hlistening, hlast⟩ | ⟨aas, ⟨before, hwaiting, hamid⟩, haas⟩
  · refine Or.inl ⟨closed, ?_, hlast⟩
    exact ⟨hlistening.toReady.moved _ _ _ _ _ _ _ _ _ _, hlistening.stat, hlistening.aas,
      hlistening.rxFifo, hlistening.bus, hreceived.trans hlistening.nothing,
      henqueued.symm ▸ hlistening.frames⟩
  · obtain ⟨rrdy, bf, hrrdy, hbf, hfilled, hserving⟩ := hamid
    refine Or.inr ⟨aas, ⟨before, hwaiting, rrdy, bf, hrrdy, hbf, hfilled, ?_⟩, haas⟩
    have hbytes : bytes { omap with log := omap.log ++ [.read size copyFails] } = bytes omap :=
      congrArg (· ++ omap.rxFifo) hreceived
    constructor
    · exact hserving.toReady.moved _ _ _ _ _ _ _ _ _ _
    · exact hserving.stat
    · exact hserving.begun
    · rw [hbytes]
      exact hserving.bus
    · rw [hbytes]
      exact hserving.fits
    · exact fun hfirst => hreceived.trans (hserving.fresh hfirst)
    · exact henqueued.symm ▸ hserving.frames

/-- A start that is seen belongs to the transaction on the bus. -/
theorem Phase.seen (h : Phase p n omap) (hseen : omap.stat &&& omap.ie &&& statAas ≠ 0) :
    ∃ before, Amid p n before true false false 0 omap := by
  have hset : omap.stat &&& statAas ≠ 0 := by
    intro hclear
    rw [BitVec.and_assoc, BitVec.and_comm omap.ie, ← BitVec.and_assoc, hclear] at hseen
    exact hseen BitVec.zero_and
  rcases h with ⟨closed, hlistening, -⟩ | ⟨aas, ⟨before, hamid⟩, -⟩
  · rw [hlistening.stat] at hset
    exact absurd BitVec.zero_and hset
  · cases aas with
    | true => exact ⟨before, hamid⟩
    | false =>
        obtain ⟨-, rrdy, bf, -, -, -, hserving⟩ := hamid
        rw [hserving.stat, (pending_and _ _ _).1] at hset
        exact absurd rfl hset

/-- Without one, something pending means that the driver is addressed. -/
theorem Phase.addressed (h : Phase p n omap) (hunseen : omap.stat &&& omap.ie &&& statAas = 0)
    (hsome : omap.stat &&& omap.ie ≠ 0) : omap.aas = true := by
  rcases h with ⟨closed, hlistening, -⟩ | ⟨aas, ⟨before, -, rrdy, bf, -, -, -, hserving⟩, haas⟩
  · rw [hlistening.stat] at hsome
    exact absurd BitVec.zero_and hsome
  · refine haas.resolve_left ?_
    rintro rfl
    have hieAas : statAas &&& omap.ie = statAas := by
      refine Within.and_eq fun i hbit => hserving.ie i ?_
      rw [BitVec.getLsbD_or, hbit, Bool.true_or]
    rw [BitVec.and_assoc, BitVec.and_comm omap.ie, hieAas, hserving.stat,
      (pending_and _ _ _).1] at hunseen
    exact absurd hunseen (by decide)

/-- The hard handler marks the driver as addressed, and wakes the thread only then. -/
theorem isr_phase (addressed : Bool) : Runs n
    (fun omap => Phase p n omap ∧ (addressed = true → omap.aas = true)) isr
    fun wakes omap => Phase p n omap ∧ ((addressed || wakes) = true → omap.aas = true) := by
  have hstable : Stable n fun omap => Phase p n omap ∧ (addressed = true → omap.aas = true) :=
    stable_phase.and (stable_of_same fun _ _ _ _ _ h => h)
  have hie (mask : U16) : Stable n fun omap => omap.ie = mask :=
    stable_of_same fun _ _ _ _ _ h => h
  refine (masters n).bind hstable.readIe fun mask => (masters n).bind
    ((hstable.and (hie mask)).readStat.mono (fun _ h => ⟨h.1, h.2.symm⟩) fun _ _ h => h)
    fun shown => ?_
  dsimp only
  split
  · rename_i hseen
    have hamid : Stable n fun omap => ∃ before, Amid p n before true false false 0 omap :=
      Stable.exists fun _ => stable_amid
    have henable : Runs n (fun omap => ∃ before, Amid p n before true false false 0 omap)
        (enableIrqs statBf)
        fun _ omap => ∃ before, Amid p n before true false false 0 { omap with aas := true } := by
      refine hamid.enableIrqs ?_ statBf ?_
      · rintro omap ⟨before, hamid⟩
        exact hamid.scheme
      · rintro omap ⟨before, hamid⟩
        exact ⟨before, hamid.address⟩
    refine (masters n).bind (henable.mono (fun omap h => ?_) fun _ _ h => h) fun _ =>
      (masters n).bind (Meets.update (fun _ => extends_of_same rfl) fun omap h => ?_) fun _ =>
        (masters n).pure _ fun _ h => h
    · obtain ⟨⟨⟨hphase, -⟩, rfl⟩, rfl⟩ := h
      rw [shown_and_ie] at hseen
      exact hphase.seen hseen
    · exact ⟨Or.inr ⟨true, h, Or.inl rfl⟩, fun _ => rfl⟩
  · rename_i hunseen
    refine (masters n).pure _ fun omap h => ?_
    obtain ⟨⟨⟨hphase, haddressed⟩, rfl⟩, rfl⟩ := h
    rw [shown_and_ie] at hunseen ⊢
    refine ⟨hphase, fun hwakes => ?_⟩
    rcases Bool.or_eq_true_iff.mp hwakes with h | hsome
    · exact haddressed h
    · exact hphase.addressed (not_not.mp hunseen) (bne_iff_ne.mp hsome)

/-- The epilogue when nothing is recovered. -/
def sparedEpilogue (out : AtOut) : Irq Unit := do
  let exitPending ← pendingIrq
  countStall out.entryPending exitPending
  let _ ← pendingIrq
  setProgress false
  restoreSavedIrqs out.savedIe

theorem quiesceIrq_unforced :
    quiesceIrq unpatched false = (do let _ ← pendingIrq; return false) :=
  congrArg (pendingIrq >>= ·) (funext fun _ => if_pos (Bool.or_true _))

theorem isrThread_spared (hforced : forced unpatched omap = false) :
    isrThread unpatched omap =
      sparedEpilogue (isrThreadWork unpatched omap).1 (isrThreadWork unpatched omap).2 := by
  rw [forced, bind_apply] at hforced
  rw [isrThread, bind_apply]
  generalize isrThreadWork unpatched omap = work at hforced ⊢
  rw [bind_apply] at hforced
  rw [isrThreadEpilogue, bind_apply, bind_apply, hforced, bind_apply, quiesceIrq_unforced]
  rfl

theorem sparedEpilogue_phase (out : AtOut) :
    Runs n (Phase p n) (sparedEpilogue out) fun _ => Phase p n := by
  have hcount (exitPending : U16) :
      Runs n (Phase p n) (countStall out.entryPending exitPending) fun _ => Phase p n := by
    refine Meets.update (fun omap => extends_of_same ?_) fun omap h => ?_
    · split <;> rfl
    · split
      · exact h.moved _ _ _
      · exact h.moved _ _ _
  have hprogress : Runs n (Phase p n) (setProgress false) fun _ => Phase p n :=
    Meets.update (fun _ => extends_of_same rfl) fun omap h => h.moved _ _ _
  have hrestore : Runs n (Phase p n) (restoreSavedIrqs out.savedIe) fun _ => Phase p n := by
    have hreadBack : Runs n (Phase p n) (do let _ ← readIe) fun _ => Phase p n :=
      (masters n).bind (stable_phase.readIe.mono (fun _ h => h) fun _ _ h => h.1) fun _ =>
        (masters n).pure _ fun _ h => h
    refine (masters n).bind (stable_phase.readStat.mono (fun _ h => h) fun _ _ h => h.1)
      fun stat => ?_
    dsimp only
    split
    · exact (masters n).pure _ fun _ h => h
    · refine Meets.get fun read => ?_
      split
      · rename_i hfirst
        refine ⟨?_, fun omap h _ => absurd (h.2 ▸ hfirst) h.1.scheme⟩
        exact extends_frame.bind extends_frame.readIe fun _ =>
          extends_frame.bind (extends_frame.writeIe _) fun _ => hreadBack.later
      · refine (masters n).bind (Q := fun _ => Phase p n) ?_ fun _ => hreadBack
        exact (stable_phase.irqEnableSet _ fun omap h => h.enable _).mono (fun _ h => h.1)
          fun _ _ h => h
  exact (masters n).bind stable_phase.pendingIrq fun _ => (masters n).bind (hcount _) fun _ =>
    (masters n).bind stable_phase.pendingIrq fun _ => (masters n).bind hprogress fun _ => hrestore

theorem addressed_frame : Frame fun omap omap' => omap'.aas = omap.aas where
  refl _ := rfl
  trans _ _ _ h h' := h'.trans h
  tick omap := by
    obtain ⟨stat, rxFifo, incoming, heard, htick⟩ := tick_same omap
    rw [htick]
  moves _ _ _ _ _ _ := rfl

/-- The thread of an addressed driver comes to its loop. -/
theorem atLoop_atHead (h : AtHead p n omap) (hkept : Promised n (atLoop omap)) :
    AtHead p n (atLoop omap) := by
  have hprogress : Runs n (AtHead p n) (setProgress false) fun _ => AtHead p n := by
    refine Meets.update (fun _ => extends_of_same rfl) fun omap h => ⟨?_, h.2⟩
    obtain ⟨⟨aas, before, hamid⟩, -⟩ := h
    exact ⟨aas, before, hamid.moved _ _ _⟩
  have hentry : Runs n (AtHead p n) (do setProgress false; let _ ← readIe; pendingIrq)
      fun _ => AtHead p n :=
    (masters n).bind hprogress fun _ => (masters n).bind
      (stable_atHead.readIe.mono (fun _ h => h) fun _ _ h => h.1) fun _ => stable_atHead.pendingIrq
  exact hentry.holds omap h hkept

theorem isrThreadWork_loop (haddressed : (atLoop omap).aas = true) :
    (isrThreadWork unpatched omap).2 = (slaveEvent isrLimit (atLoop omap)).2 := by
  rw [atLoop] at haddressed
  rw [isrThreadWork, bind_apply, bind_apply, bind_apply, bind_apply, get_apply]
  dsimp only
  rw [if_pos haddressed]
  rfl

theorem Handling.phase (h : Handling p n omap) : Phase p n omap := by
  rcases h with ⟨hamid, haddressed⟩ | ⟨closed, hlistening, hbegun⟩
  · obtain ⟨aas, hamid⟩ := hamid
    exact Or.inr ⟨aas, hamid, Or.inr haddressed⟩
  · exact Or.inl ⟨closed, hlistening, hbegun ▸ Nat.le_succ _⟩

/-- The thread, if it is run in time. -/
theorem isrThread_phase (hphase : Phase p n omap) (haddressed : omap.aas = true)
    (htimely : ThreadTimely unpatched omap)
    (hwrites : MasterWrites (isrThread unpatched omap).2.heard) :
    ∃ m, Phase p m (isrThread unpatched omap).2 := by
  have hhead : AtHead p n omap := by
    rcases hphase with ⟨closed, hlistening, -⟩ | ⟨aas, hamid, -⟩
    · cases hlistening.aas.symm.trans haddressed
    · exact ⟨⟨aas, hamid⟩, haddressed⟩
  have hbegun : starts omap.heard = n := by
    obtain ⟨⟨aas, before, -, rrdy, bf, -, -, -, hserving⟩, -⟩ := hhead
    exact hserving.begun
  have hloopAas : (atLoop omap).aas = true := by
    have hsame := addressed_frame.bind (addressed_frame.setProgress false) fun _ =>
      addressed_frame.bind addressed_frame.readIe fun _ => addressed_frame.pendingIrq
    exact (hsame omap).trans haddressed
  have hrun := isrThread_spared unpatched htimely.notForced
  have hwork := isrThreadWork_loop unpatched hloopAas
  have hnoStart := htimely.noStart
  have hstart := htimely.start
  rw [hrun] at hwrites hstart ⊢
  have hepilogue := sparedEpilogue_phase (p := p)
    (n := starts (isrThreadWork unpatched omap).2.heard + allowed (isrThreadWork unpatched omap).2)
    (isrThreadWork unpatched omap).1
  have hkept := (Promised.mk hwrites hstart).earlier (hepilogue.later _)
  refine ⟨_, hepilogue.holds _ ?_ ⟨hwrites, hstart⟩⟩
  refine (Handling.phase ?_ : Phase p n _).at_allowed
  rw [hwork] at hkept hnoStart ⊢
  have hkept' : Promised n (slaveEvent isrLimit (atLoop omap)).2 :=
    ⟨hkept.writes, (hnoStart.trans hbegun).le⟩
  have hloop := hkept'.earlier (extends_frame.slaveEvent _ _)
  exact slaveEvent_handling isrLimit (Or.inl (atLoop_atHead hhead hloop)) htimely.whole hkept'

end Handlers

/-! ## Runs -/

structure Sound (p : Params) (w : World) : Prop where
  phase : ∃ n, Phase p n w.omap
  woken : w.woken = true → w.omap.aas = true

section Steps

variable {p : Params} {w : World}

theorem Sound.framed (h : Sound p w) : Framed p w :=
  h.phase.elim fun _ hphase => hphase.framed

theorem bus_sound (h : Sound p w) (event : BusEvent) (hlegal : Legal unpatched w (.bus event))
    (htimely : Timely unpatched w (.bus event)) : Sound p (w.step unpatched (.bus event)) := by
  obtain ⟨⟨n, hphase⟩, hwoken⟩ := h
  have hkept : Promised (starts w.omap.heard + allowed w.omap) (busEvent w.omap event) := by
    refine ⟨hlegal, ?_⟩
    rw [busEvent_heard, starts, List.count_append]
    exact Nat.add_le_add_left htimely _
  refine ⟨⟨_, stable_phase.event w.omap event hphase.at_allowed hkept⟩, fun hwakes => ?_⟩
  have haddressed := hwoken hwakes
  cases event with
  | start => exact haddressed
  | byte value => exact haddressed
  | stop => exact haddressed

theorem isr_sound (h : Sound p w) (incoming : List (List BusEvent))
    (hlegal : Legal unpatched w (.isr incoming)) (htimely : Timely unpatched w (.isr incoming)) :
    Sound p (w.step unpatched (.isr incoming)) := by
  obtain ⟨⟨n, hphase⟩, hwoken⟩ := h
  have hentry := stable_phase.incoming w.omap incoming hphase.at_allowed
  obtain ⟨hdone, haddressed⟩ := (isr_phase w.woken).holds (w.entry incoming) ⟨hentry, hwoken⟩
    ⟨hlegal, htimely⟩
  exact ⟨⟨_, stable_phase.incoming _ [] hdone⟩, haddressed⟩

theorem thread_sound (h : Sound p w) (incoming : List (List BusEvent))
    (hlegal : Legal unpatched w (.thread incoming))
    (htimely : Timely unpatched w (.thread incoming)) :
    Sound p (w.step unpatched (.thread incoming)) := by
  obtain ⟨⟨n, hphase⟩, hwoken⟩ := h
  rw [Legal] at hlegal
  rw [World.step] at hlegal ⊢
  split at hlegal
  · rename_i hwakes
    rw [if_pos hwakes]
    have hentry := stable_phase.incoming w.omap incoming hphase
    obtain ⟨m, hdone⟩ := isrThread_phase unpatched hentry (hwoken hwakes) (htimely hwakes) hlegal
    exact ⟨⟨m, stable_phase.incoming _ [] hdone⟩, fun h => by cases h⟩
  · rename_i hsleeps
    rw [if_neg hsleeps]
    exact ⟨⟨n, hphase⟩, hwoken⟩

theorem step_sound (h : Sound p w) (event : Event) (hlegal : Legal unpatched w event)
    (htimely : Timely unpatched w event) : Sound p (w.step unpatched event) := by
  cases event with
  | bus event => exact bus_sound unpatched h event hlegal htimely
  | isr incoming => exact isr_sound unpatched h incoming hlegal htimely
  | thread incoming => exact thread_sound unpatched h incoming hlegal htimely
  | read size copyFails =>
      exact ⟨h.phase.imp fun _ hphase => hphase.read size copyFails, h.woken⟩

theorem run_sound (h : Sound p w) (events : List Event)
    (hlegal : w.Each unpatched (Legal unpatched) events)
    (htimely : w.Each unpatched (Timely unpatched) events) :
    Sound p (w.run unpatched events) := by
  induction events generalizing w with
  | nil => exact h
  | cons event rest ih =>
      exact ih (step_sound unpatched h event hlegal.1 htimely.1) hlegal.2 htimely.2

end Steps

/-- A driver that was set up to listen, before the first transaction. -/
structure Fresh (w : World) : Prop extends Ready w.omap where
  stat : w.omap.stat = 0
  aas : w.omap.aas = false
  rxFifo : w.omap.rxFifo = []
  heard : w.omap.heard = []
  log : w.omap.log = []
  woken : w.woken = false

/-- The controller of the board before the first transaction. -/
def idleBus : World := ⟨listening, false⟩

theorem fresh_idleBus : Fresh idleBus where
  stuck := rfl
  scheme := by decide
  fifoSize := by decide
  slave := by decide
  iestate := within_of_and_eq (by decide)
  ie := within_of_and_eq (by decide)
  bfEnabled := fun h => by cases h
  stat := rfl
  aas := rfl
  rxFifo := rfl
  heard := rfl
  log := rfl
  woken := rfl

/-- Room for three frames of four bytes. -/
def small : Params := ⟨4, 3, by decide, by decide, by decide, by decide⟩

/-- Before the access with this number, these events. -/
def before (access : Nat) (events : List BusEvent) : List (List BusEvent) :=
  List.replicate access [] ++ [events]

/-- A byte comes while the first one is taken, and another one before the next pass; the next
transaction begins when the stop has been handled and the thread is about to return. -/
def handledInTime : List Event :=
  [.bus .start, .bus (.byte 1), .isr [], .thread (before 7 [.byte 2] ++ before 2 [.byte 3]),
    .bus .stop, .isr [], .thread (before 15 [.start]), .bus (.byte 4), .isr (before 1 [.stop]),
    .thread []]

/-- Two transactions of one byte each before the handlers run. -/
def backToBack : List Event :=
  [.bus .start, .bus (.byte 1), .bus .stop, .bus .start, .bus (.byte 2), .bus .stop, .isr [],
    .thread []]

/-- A start in the loop, after the driver has gone back to listening, is acked there.  The next one
finds the driver listening again, and their transactions come out as one frame. -/
example : enqueued small (idleBus.run byteWise
    [.bus .start, .bus (.byte 1), .isr [], .thread [], .bus .stop, .isr [],
      .thread (before 13 [.start]), .bus (.byte 2), .bus .stop, .bus .start, .bus (.byte 3),
      .bus .stop, .isr [], .thread []]).omap.log = [[1], [2, 3]] := by
  decide +kernel

/-- The last byte and the stop come between the read of the FIFO level and the ack of `RRDY`. -/
example : enqueued small (idleBus.run byteWise
    [.bus .start, .bus (.byte 1), .isr [], .thread (before 7 [.byte 2, .stop])]).omap.log =
      [[1]] := by
  decide +kernel

end RadsatLinux.I2c.Framing
