import RadsatLinux.I2c.Storm

/-!
# Listen mode after a slave transaction

`omap_i2c_listen_slave` leaves the bus-free source disabled.  The epilogue of
`omap_i2c_isr_thread` enables again what was enabled on entry and is clear in the status
register, and on entry the bus-free source was enabled, by `omap_i2c_isr` and for this
transaction only.  Under the first register scheme listen mode survives exactly when the restore
sees another stop.  Under the second one it never does: the status register does not show a
source that is disabled.
-/

namespace RadsatLinux.I2c.Listen

open RadsatLinux.Library.Bits RadsatLinux.Library.Stateful
open RadsatLinux.I2c.FrameQueue RadsatLinux.I2c.Omap RadsatLinux.I2c.Frames RadsatLinux.I2c.Quiet
  RadsatLinux.I2c.Storm

/-- What the controller waits for while it listens. -/
def listenSources : U16 := statAas ||| statRovr ||| statXudf

/-- The enable state of listen mode: the bus-free source is disabled, and `AAS`, `ROVR` and
`XUDF` are enabled. -/
structure ListensExactly (ie : U16) : Prop where
  bf : ie &&& statBf = 0
  aas : ie &&& statAas ≠ 0
  rovr : ie &&& statRovr ≠ 0
  xudf : ie &&& statXudf ≠ 0

instance (ie : U16) : Decidable (ListensExactly ie) :=
  decidable_of_iff (ie &&& statBf = 0 ∧ ie &&& statAas ≠ 0 ∧ ie &&& statRovr ≠ 0 ∧
      ie &&& statXudf ≠ 0)
    ⟨fun ⟨bf, aas, rovr, xudf⟩ => ⟨bf, aas, rovr, xudf⟩,
      fun h => ⟨h.bf, h.aas, h.rovr, h.xudf⟩⟩

variable (unpatched : Unpatched)

/-- What `omap_i2c_quiesce_irq` returns in the invocation that starts in this state. -/
def abandoned (omap : OmapI2cDev) : Bool :=
  ((do
    let out ← isrThreadWork unpatched
    quiesceIrq unpatched (← forceFlag out (← pendingIrq))) omap).1

/-- The status register as `omap_i2c_restore_saved_irqs` reads it, when no transfer was
abandoned. -/
def statAtRestore (omap : OmapI2cDev) : U16 :=
  ((do
    let out ← isrThreadWork unpatched
    let _ ← quiesceIrq unpatched (← forceFlag out (← pendingIrq))
    setProgress false
    readStat) omap).1

/-! ## Single bits -/

theorem and_twoPow_eq_zero {ie : U16} {i : Nat} (hlt : i < 16) :
    ie &&& BitVec.twoPow 16 i = 0 ↔ ie.getLsbD i = false := by
  rw [BitVec.and_twoPow]
  cases ie.getLsbD i with
  | false => exact ⟨fun _ => rfl, fun _ => rfl⟩
  | true =>
      refine ⟨fun h => ?_, fun h => by cases h⟩
      have hbit : (BitVec.twoPow 16 i).getLsbD i = true := by
        rw [BitVec.getLsbD_twoPow, decide_eq_true hlt, decide_eq_true rfl]
        rfl
      cases (ne_zero_of_bit hbit h)

theorem and_statBf_eq_zero {ie : U16} : ie &&& statBf = 0 ↔ ie.getLsbD 8 = false :=
  and_twoPow_eq_zero (i := 8) (by decide)

theorem listensExactly_of_within {ie : U16} (h : Within listenSources ie) :
    ListensExactly ie ↔ ie.getLsbD 8 = false := by
  have hset (i : Nat) (hlt : i < 16) (hbit : listenSources.getLsbD i = true) :
      ie &&& BitVec.twoPow 16 i ≠ 0 := by
    intro hzero
    cases (h i hbit).symm.trans ((and_twoPow_eq_zero hlt).mp hzero)
  constructor
  · intro hexact
    exact and_statBf_eq_zero.mp hexact.bf
  · intro hbf
    constructor
    · exact and_statBf_eq_zero.mpr hbf
    · exact hset 9 (by decide) (by decide)
    · exact hset 11 (by decide) (by decide)
    · exact hset 10 (by decide) (by decide)

/-! ## What does not touch the enable register -/

structure Same (omap omap' : OmapI2cDev) : Prop where
  ie : omap'.ie = omap.ie
  aas : omap'.aas = omap.aas
  slave : omap'.slave = omap.slave
  scheme : omap'.scheme = omap.scheme
  iestate : omap'.iestate = omap.iestate

section Access

variable {omap omap' omap'' : OmapI2cDev}

theorem Same.trans (h : Same omap omap') (h' : Same omap' omap'') : Same omap omap'' where
  ie := h'.ie.trans h.ie
  aas := h'.aas.trans h.aas
  slave := h'.slave.trans h.slave
  scheme := h'.scheme.trans h.scheme
  iestate := h'.iestate.trans h.iestate

theorem same_tick (omap : OmapI2cDev) : Same omap (tick omap).2 := by
  obtain ⟨stat, rxFifo, incoming, heard, htick⟩ := tick_same omap
  rw [htick]
  exact ⟨rfl, rfl, rfl, rfl, rfl⟩

theorem same_frame : AckFrame Same where
  refl _ := ⟨rfl, rfl, rfl, rfl, rfl⟩
  trans _ _ _ h h' := h.trans h'
  tick := same_tick
  moves _ _ _ _ _ _ := ⟨rfl, rfl, rfl, rfl, rfl⟩
  ack _ omap := (same_tick omap).trans ⟨rfl, rfl, rfl, rfl, rfl⟩

theorem writeOa_same (value : U16) : Keeps Same (writeOa value) :=
  fun omap => (same_tick omap).trans ⟨rfl, rfl, rfl, rfl, rfl⟩

theorem writeCon_same (value : U16) : Keeps Same (writeCon value) :=
  fun omap => (same_tick omap).trans ⟨rfl, rfl, rfl, rfl, rfl⟩

/-- Only the enable register is written. -/
structure Writes (ie : U16) (omap omap' : OmapI2cDev) : Prop where
  ie : omap'.ie = ie
  aas : omap'.aas = omap.aas
  slave : omap'.slave = omap.slave
  scheme : omap'.scheme = omap.scheme
  iestate : omap'.iestate = omap.iestate

theorem Writes.after {ie : U16} (hsame : Same omap omap') (h : Writes ie omap' omap'') :
    Writes ie omap omap'' :=
  ⟨h.ie, h.aas.trans hsame.aas, h.slave.trans hsame.slave, h.scheme.trans hsame.scheme,
    h.iestate.trans hsame.iestate⟩

theorem writeIe_writes (value : U16) (omap : OmapI2cDev) :
    Writes value omap (writeIe value omap).2 :=
  Writes.after (same_tick omap) ⟨rfl, rfl, rfl, rfl, rfl⟩

theorem irqEnableSet_writes (mask : U16) (omap : OmapI2cDev) :
    Writes (omap.ie ||| mask) omap (irqEnableSet mask omap).2 := by
  have hwrites : Writes ((tick omap).2.ie ||| mask) (tick omap).2 (irqEnableSet mask omap).2 :=
    ⟨rfl, rfl, rfl, rfl, rfl⟩
  rw [(same_tick omap).ie] at hwrites
  exact hwrites.after (same_tick omap)

theorem irqEnableClr_writes (mask : U16) (omap : OmapI2cDev) :
    Writes (omap.ie &&& ~~~ mask) omap (irqEnableClr mask omap).2 := by
  have hwrites : Writes ((tick omap).2.ie &&& ~~~ mask) (tick omap).2 (irqEnableClr mask omap).2 :=
    ⟨rfl, rfl, rfl, rfl, rfl⟩
  rw [(same_tick omap).ie] at hwrites
  exact hwrites.after (same_tick omap)

theorem readIe_returns (omap : OmapI2cDev) :
    (readIe omap).1 = omap.ie ∧ Same omap (readIe omap).2 :=
  ⟨(same_tick omap).ie, same_tick omap⟩

theorem disableIrqs_writes (mask : U16) (omap : OmapI2cDev) :
    Writes (omap.ie &&& ~~~ mask) omap (disableIrqs mask omap).2 := by
  obtain ⟨hie, hsame⟩ := readIe_returns omap
  rw [disableIrqs, bind_apply, get_apply]
  dsimp only
  split
  · rw [bind_apply, hie]
    exact Writes.after hsame (writeIe_writes _ _)
  · exact irqEnableClr_writes mask omap

/-- A controller of the old register scheme has just this mask enabled afterwards. -/
theorem enableIrqs_writes (mask : U16) (omap : OmapI2cDev) :
    Writes (if omap.scheme = 0 then mask else omap.ie ||| mask) omap (enableIrqs mask omap).2 := by
  rw [enableIrqs, bind_apply, get_apply]
  dsimp only
  split
  · exact writeIe_writes mask omap
  · exact irqEnableSet_writes mask omap

end Access

/-! ## Taking a stop -/

/-- The enable register after listen mode was entered. -/
structure Entered (iestate ie : U16) : Prop where
  bf : ie.getLsbD 8 = iestate.getLsbD 8
  sources : Within listenSources ie

/-- The enable register and the flags of the slave before and after a part of the slave loop:
as they were, or as a stop leaves them. -/
structure Listens (omap omap' : OmapI2cDev) : Prop where
  slave : omap'.slave = omap.slave
  scheme : omap'.scheme = omap.scheme
  iestate : omap'.iestate = omap.iestate
  enabled : omap'.aas = omap.aas ∧ omap'.ie = omap.ie ∨
    omap'.aas = false ∧ (omap.slave = none → omap'.ie = omap.ie) ∧
      (omap.slave ≠ none → Entered omap.iestate omap'.ie)

section Stop

variable {omap omap' omap'' : OmapI2cDev}

theorem Same.listens (h : Same omap omap') : Listens omap omap' :=
  ⟨h.slave, h.scheme, h.iestate, Or.inl ⟨h.aas, h.ie⟩⟩

theorem Listens.trans (h : Listens omap omap') (h' : Listens omap' omap'') :
    Listens omap omap'' where
  slave := h'.slave.trans h.slave
  scheme := h'.scheme.trans h.scheme
  iestate := h'.iestate.trans h.iestate
  enabled := by
    have hlater := h'.enabled
    rw [h.slave, h.iestate] at hlater
    rcases hlater with ⟨haas', hie'⟩ | ⟨haas', hnone', hentered'⟩
    · rw [haas', hie']
      exact h.enabled
    · refine Or.inr ⟨haas', fun hnone => ?_, hentered'⟩
      rcases h.enabled with ⟨-, hie⟩ | ⟨-, hie, -⟩
      · exact (hnone' hnone).trans hie
      · exact (hnone' hnone).trans (hie hnone)

theorem entered_listen (ie iestate : U16) (fresh : Prop) [Decidable fresh] :
    Entered iestate (if fresh then iestate ||| statAas ||| statRovr ||| statXudf
      else ie &&& ~~~(statAas ||| statBf ||| statRovr ||| statXudf) |||
        (iestate ||| statAas ||| statRovr ||| statXudf)) := by
  have hsources : Within listenSources (iestate ||| statAas ||| statRovr ||| statXudf) := by
    intro i hbit
    simp only [listenSources, BitVec.getLsbD_or, Bool.or_eq_true] at hbit ⊢
    rcases hbit with (haas | hrovr) | hxudf
    · exact Or.inl (Or.inl (Or.inr haas))
    · exact Or.inl (Or.inr hrovr)
    · exact Or.inr hxudf
  have hbf : (iestate ||| statAas ||| statRovr ||| statXudf).getLsbD 8 = iestate.getLsbD 8 := by
    have haas : statAas.getLsbD 8 = false := by decide
    have hrovr : statRovr.getLsbD 8 = false := by decide
    have hxudf : statXudf.getLsbD 8 = false := by decide
    rw [BitVec.getLsbD_or, BitVec.getLsbD_or, BitVec.getLsbD_or, haas, hrovr, hxudf]
    simp only [Bool.or_false]
  split
  · exact ⟨hbf, hsources⟩
  constructor
  · have hcleared : (~~~(statAas ||| statBf ||| statRovr ||| statXudf)).getLsbD 8 = false := by
      decide
    rw [BitVec.getLsbD_or, BitVec.getLsbD_and, hcleared, Bool.and_false, Bool.false_or, hbf]
  · intro i hbit
    rw [BitVec.getLsbD_or, hsources i hbit, Bool.or_true]

/-- The register writes of `omap_i2c_listen_slave`. -/
theorem listen_enters (addr con : U16) (omap : OmapI2cDev) :
    wp (do
      disableIrqs (statAas ||| statBf ||| statRovr ||| statXudf)
      writeOa addr
      writeCon con
      clearSlaveState
      enableIrqs ((← get).iestate ||| statAas ||| statRovr ||| statXudf))
      (fun _ omap' => omap'.aas = omap.aas ∧ omap'.slave = omap.slave ∧
        omap'.scheme = omap.scheme ∧ omap'.iestate = omap.iestate ∧
        Entered omap.iestate omap'.ie) omap := by
  refine wp_seq (Q := fun _ => Writes _ omap) (disableIrqs_writes _ omap)
    fun _ disabled hdisabled => ?_
  refine wp_seq (Q := fun _ => Same disabled) (writeOa_same addr disabled)
    fun _ addressed haddressed => ?_
  refine wp_seq (Q := fun _ => Same disabled)
    (haddressed.trans (writeCon_same con addressed)) fun _ configured hconfigured => ?_
  refine wp_seq (Q := fun _ => Same disabled)
    (hconfigured.trans (same_frame.clearSlaveState configured)) fun _ cleared hcleared => ?_
  have henabled := enableIrqs_writes (cleared.iestate ||| statAas ||| statRovr ||| statXudf) cleared
  have hiestate := hcleared.iestate.trans hdisabled.iestate
  refine ⟨henabled.aas.trans (hcleared.aas.trans hdisabled.aas),
    henabled.slave.trans (hcleared.slave.trans hdisabled.slave),
    henabled.scheme.trans (hcleared.scheme.trans hdisabled.scheme),
    henabled.iestate.trans hiestate, ?_⟩
  rw [bind_apply, get_apply, henabled.ie, hcleared.ie, hdisabled.ie, hiestate]
  exact entered_listen omap.ie omap.iestate (cleared.scheme = 0)

/-- Without a slave there is nothing to listen for. -/
theorem listenSlave_enters (omap : OmapI2cDev) :
    wp listenSlave (fun _ omap' => omap'.slave = omap.slave ∧ omap'.scheme = omap.scheme ∧
      omap'.iestate = omap.iestate ∧
      (omap.slave = none → omap'.aas = omap.aas ∧ omap'.ie = omap.ie) ∧
      (omap.slave ≠ none → omap'.aas = false ∧ Entered omap.iestate omap'.ie)) omap := by
  rw [listenSlave, wp_bind, wp_get]
  cases hslave : omap.slave with
  | none => exact ⟨hslave, rfl, rfl, fun _ => ⟨rfl, rfl⟩, fun hsome => (hsome rfl).elim⟩
  | some client =>
      obtain ⟨haas, hsame, hscheme, hiestate, hentered⟩ :=
        listen_enters client.addr _ { omap with aas := false, idle := true }
      exact ⟨hsame.trans hslave, hscheme, hiestate, fun hnone => (by cases hnone),
        fun _ => ⟨haas, hentered⟩⟩

theorem slaveStop_listens : Keeps Listens slaveStop := by
  intro omap
  have hacked : Same { omap with aas := false } ((do
      slaveCallback .stop
      ackStat statBf : Irq Unit) { omap with aas := false }).2 :=
    same_frame.bind (same_frame.slaveCallback _) (fun _ => same_frame.ack _) _
  obtain ⟨hslave, hscheme, hiestate, hnone, hsome⟩ := listenSlave_enters ((do
    slaveCallback .stop
    ackStat statBf : Irq Unit) { omap with aas := false }).2
  rw [hacked.slave] at hslave hnone hsome
  rw [hacked.iestate] at hiestate hsome
  refine ⟨hslave, hscheme.trans hacked.scheme, hiestate, Or.inr ?_⟩
  cases hclient : omap.slave with
  | none =>
      obtain ⟨haas, hie⟩ := hnone hclient
      exact ⟨haas.trans hacked.aas, fun _ => hie.trans hacked.ie, fun h => (h rfl).elim⟩
  | some client =>
      obtain ⟨haas, hentered⟩ := hsome (by rw [hclient]; exact Option.some_ne_none client)
      exact ⟨haas, fun h => (by cases h), fun _ => hentered⟩

theorem listens_frame : StopFrame Listens where
  refl omap := (same_frame.refl omap).listens
  trans _ _ _ h h' := h.trans h'
  tick omap := (same_tick omap).listens
  moves omap rxFifo sent idle irqProgress log :=
    (same_frame.moves omap rxFifo sent idle irqProgress log).listens
  ack mask omap := (same_frame.ack mask omap).listens
  stop := slaveStop_listens

/-- An invocation in a slave transaction keeps the enable mask of its entry. -/
theorem isrThreadWork_listens (haas : omap.aas = true) :
    (isrThreadWork unpatched omap).1.savedIe = omap.ie ∧
      Listens omap (isrThreadWork unpatched omap).2 := by
  have hentered : Same omap (entered omap) := ⟨rfl, rfl, rfl, rfl, rfl⟩
  obtain ⟨hsaved, hread⟩ := readIe_returns (entered omap)
  have hpending := hread.trans (same_frame.pendingIrq _)
  have haddressed := hpending.aas.trans (hentered.aas.trans haas)
  have hrun : isrThreadWork unpatched omap =
      (⟨⟨(slaveEvent isrLimit (pendingIrq (readIe (entered omap)).2).2).1, false⟩,
        (readIe (entered omap)).1, (pendingIrq (readIe (entered omap)).2).1⟩,
        (slaveEvent isrLimit (pendingIrq (readIe (entered omap)).2).2).2) := by
    rw [isrThreadWork, bind_apply, setProgress_apply, bind_apply, bind_apply, bind_apply, get_apply]
    dsimp only
    rw [haddressed]
    rfl
  rw [hrun]
  refine ⟨hsaved, ?_⟩
  exact (hentered.trans hpending).listens.trans (listens_frame.slaveEvent isrLimit _)

end Stop

/-! ## The epilogue -/

section Epilogue

variable {omap : OmapI2cDev}

theorem countStall_keeps (entryPending exitPending : U16) :
    Keeps Same (countStall entryPending exitPending) := by
  intro omap
  rw [countStall_same]
  exact ⟨rfl, rfl, rfl, rfl, rfl⟩

theorem quiesceIrq_same (force : Bool) (omap : OmapI2cDev) :
    wp (quiesceIrq unpatched force) (fun abandoned omap' => abandoned = false → Same omap omap')
      omap := by
  refine wp_seq (Q := fun _ => Same omap) (same_frame.pendingIrq omap) fun pending seen hseen => ?_
  split
  · exact fun _ => hseen
  have hlast (recovered : OmapI2cDev) : wp (do
      let pending ← pendingIrq
      if pending ≠ 0 then
        maskIrqSources pending
        ackStat pending
      modify fun omap : OmapI2cDev =>
        { omap with irqStall := 0, irqStallStat := 0, irqProgress := false }
      return true) (fun abandoned omap' => abandoned = false → Same omap omap') recovered := by
    refine wp_next fun pending recovered => ?_
    dsimp only
    split
    · exact fun h => by cases h
    · exact fun h => by cases h
  refine wp_next fun _ omap => wp_next fun _ omap => wp_next fun _ omap => wp_next fun _ omap =>
    wp_next fun _ omap => ?_
  dsimp only
  split
  · exact wp_next fun _ omap => wp_next fun _ omap => hlast omap
  · exact hlast omap

/-- What was enabled on entry is enabled again, unless it shows in the status register. -/
theorem restoreSavedIrqs_writes (saved : U16) (omap : OmapI2cDev) :
    Writes (omap.ie ||| (saved &&& ~~~ (readStat omap).1 &&& statIrqMask)) omap
      (restoreSavedIrqs saved omap).2 := by
  have hread : Same omap (readStat omap).2 := same_frame.readStat omap
  rw [restoreSavedIrqs, bind_apply]
  generalize saved &&& ~~~ (readStat omap).1 &&& statIrqMask = want
  have hset {omap' : OmapI2cDev} (h : Writes (omap.ie ||| want) omap omap') :
      Writes (omap.ie ||| want) omap ((do let _ ← readIe : Irq Unit) omap').2 := by
    have hback := (readIe_returns omap').2
    exact ⟨hback.ie.trans h.ie, hback.aas.trans h.aas, hback.slave.trans h.slave,
      hback.scheme.trans h.scheme, hback.iestate.trans h.iestate⟩
  dsimp only
  split
  · rename_i hnone
    refine Writes.after hread ⟨?_, rfl, rfl, rfl, rfl⟩
    rw [hnone]
    exact hread.ie.trans BitVec.or_zero.symm
  rw [bind_apply, get_apply]
  dsimp only
  split
  · obtain ⟨hie, hsame⟩ := readIe_returns (readStat omap).2
    rw [bind_apply, hie, bind_apply, hread.ie]
    exact hset (Writes.after (hread.trans hsame) (writeIe_writes _ _))
  · have hwrites := irqEnableSet_writes want (readStat omap).2
    rw [hread.ie] at hwrites
    exact hset (Writes.after hread hwrites)

/-- How an invocation without a recovery ends: with the restore of what was enabled on entry. -/
theorem isrThread_restores (haas : omap.aas = true) (hnone : abandoned unpatched omap = false) :
    ∃ before, Listens omap before ∧ (readStat before).1 = statAtRestore unpatched omap ∧
      (isrThread unpatched omap).2 = (restoreSavedIrqs omap.ie before).2 := by
  obtain ⟨hsaved, hwork⟩ := isrThreadWork_listens unpatched haas
  have hforce (out : AtOut) (exitPending : U16) : Keeps Same (forceFlag out exitPending) :=
    same_frame.bind (countStall_keeps _ _) fun _ => same_frame.bind same_frame.get fun _ =>
      same_frame.pure _
  have hquiesce : Same (isrThreadWork unpatched omap).2 ((do
      quiesceIrq unpatched (← forceFlag (isrThreadWork unpatched omap).1 (← pendingIrq)))
        (isrThreadWork unpatched omap).2).2 := by
    have hpending := same_frame.pendingIrq (isrThreadWork unpatched omap).2
    have hflag := hforce (isrThreadWork unpatched omap).1
      (pendingIrq (isrThreadWork unpatched omap).2).1
      (pendingIrq (isrThreadWork unpatched omap).2).2
    exact (hpending.trans hflag).trans (quiesceIrq_same unpatched _ _ hnone)
  refine ⟨_, (hwork.trans (hquiesce.trans (same_frame.setProgress false _)).listens), rfl, ?_⟩
  have hrun : (isrThread unpatched omap).2 = (isrThreadFinish (isrThreadWork unpatched omap).1
      (abandoned unpatched omap) ((do
        quiesceIrq unpatched (← forceFlag (isrThreadWork unpatched omap).1 (← pendingIrq)))
          (isrThreadWork unpatched omap).2).2).2 := rfl
  rw [hrun, hnone, ← hsaved]
  rfl

end Epilogue

/-! ## One slave transaction -/

theorem getLsbD_restored (ie saved seen : U16) (hsaved : saved.getLsbD 8 = true) :
    (ie ||| (saved &&& ~~~ seen &&& statIrqMask)).getLsbD 8 =
      (ie.getLsbD 8 || !seen.getLsbD 8) := by
  have hmask : statIrqMask.getLsbD 8 = true := by decide
  rw [BitVec.getLsbD_or, BitVec.getLsbD_and, BitVec.getLsbD_and, BitVec.getLsbD_not, hsaved, hmask,
    Bool.and_true, Bool.true_and]
  rfl

/-- Under the second scheme the status register shows a source only if it is enabled. -/
theorem readStat_shows {omap : OmapI2cDev} (hscheme : omap.scheme ≠ 0) :
    Within (readStat omap).1 omap.ie := by
  have hsame := same_tick omap
  change Within (tick omap).2.shown omap.ie
  rw [OmapI2cDev.shown, if_neg (hsame.scheme.trans_ne hscheme), hsame.ie, BitVec.and_comm]
  exact Within.and_left _ _

/-- What a transaction leaves of listen mode: a slave is registered, and its bus-free source stays
disabled where `iestate` has none and the restore sees the status set. -/
theorem listensExactly_seen (omap : OmapI2cDev) (haas : omap.aas = true)
    (hbf : omap.ie &&& statBf ≠ 0) (hstopped : (isrThread unpatched omap).2.aas = false)
    (hnone : abandoned unpatched omap = false) :
    ListensExactly (isrThread unpatched omap).2.ie ↔
      omap.slave.isSome = true ∧ omap.iestate &&& statBf = 0 ∧
        statAtRestore unpatched omap &&& statBf ≠ 0 := by
  obtain ⟨before, hlistens, hseen, hrun⟩ := isrThread_restores unpatched haas hnone
  have hwrites := restoreSavedIrqs_writes omap.ie before
  rw [hseen, ← hrun] at hwrites
  have henabled : omap.ie.getLsbD 8 = true := by
    rw [← Bool.not_eq_false]
    exact fun h => hbf (and_statBf_eq_zero.mpr h)
  have hbefore : before.aas = false := hwrites.aas.symm.trans hstopped
  rw [hwrites.ie, Ne, and_statBf_eq_zero, and_statBf_eq_zero]
  rcases hlistens.enabled with ⟨hsame, -⟩ | ⟨-, hunregistered, hentered⟩
  · rw [hbefore, haas] at hsame
    cases hsame
  cases hslave : omap.slave with
  | none =>
      have hkept := hunregistered hslave
      constructor
      · intro hexact
        have hclear := and_statBf_eq_zero.mp hexact.bf
        rw [BitVec.getLsbD_or, hkept, henabled] at hclear
        cases hclear
      · intro h
        cases h.1
  | some client =>
      obtain ⟨hbit, hsources⟩ := hentered (by rw [hslave]; exact Option.some_ne_none client)
      have hwithin : Within listenSources
          (before.ie ||| (omap.ie &&& ~~~ statAtRestore unpatched omap &&& statIrqMask)) := by
        intro i hlisten
        rw [BitVec.getLsbD_or, hsources i hlisten, Bool.true_or]
      rw [listensExactly_of_within hwithin, getLsbD_restored _ _ _ henabled, hbit,
        Bool.or_eq_false_iff, Bool.not_eq_false', Bool.not_eq_false]
      exact ⟨fun h => ⟨rfl, h⟩, fun h => h.2⟩

/-- A transaction that was entered with the bus-free source enabled leaves listen mode as
`omap_i2c_listen_slave` left it exactly if the controller has the first register scheme, a slave
is registered, `iestate` has no bus-free source, and the restore sees the bus-free status set. -/
theorem listensExactly_iff (omap : OmapI2cDev) (haas : omap.aas = true)
    (hbf : omap.ie &&& statBf ≠ 0) (hstopped : (isrThread unpatched omap).2.aas = false)
    (hnone : abandoned unpatched omap = false) :
    ListensExactly (isrThread unpatched omap).2.ie ↔
      omap.scheme = 0 ∧ omap.slave.isSome = true ∧ omap.iestate &&& statBf = 0 ∧
        statAtRestore unpatched omap &&& statBf ≠ 0 := by
  have hlistens := listensExactly_seen unpatched omap haas hbf hstopped hnone
  refine ⟨fun hexact => ⟨?_, hlistens.mp hexact⟩, fun h => hlistens.mpr h.2⟩
  obtain ⟨-, -, hseen⟩ := hlistens.mp hexact
  obtain ⟨before, hentered, hread, hrun⟩ := isrThread_restores unpatched haas hnone
  have hwrites := restoreSavedIrqs_writes omap.ie before
  rw [hread, ← hrun] at hwrites
  have hclear := and_statBf_eq_zero.mp hexact.bf
  rw [hwrites.ie, BitVec.getLsbD_or, Bool.or_eq_false_iff] at hclear
  -- What listen mode has disabled the restore does not see.
  by_contra hscheme
  rw [Ne, and_statBf_eq_zero, Bool.not_eq_false, ← hread] at hseen
  have hshown := readStat_shows (hentered.scheme.trans_ne hscheme) 8 hseen
  cases hclear.1.symm.trans hshown

/-- A slave transaction whose stop is pending when the handler is entered.  After the stop
the bus does `later`. -/
def stopping (later : List (List BusEvent)) : OmapI2cDev :=
  { listening with
    stat := statBf
    ie := listening.ie ||| statBf
    aas := true
    idle := false
    incoming := later }

/-- On a controller of the first scheme the next transaction ends just before the restore looks at
the status register. -/
def stopAgain : OmapI2cDev :=
  { stopping (List.replicate 20 [] ++ [[.stop]]) with scheme := 0, rev := 0x3c }

theorem listensExactly_stopAgain : ListensExactly (isrThread byteWise stopAgain).2.ie := by
  rw [listensExactly_iff byteWise stopAgain rfl (by decide) (by decide +kernel) (by decide +kernel)]
  decide +kernel

/-- With nothing more on the bus the restore enables the bus-free source again. -/
theorem not_listensExactly : ¬ ∀ omap : OmapI2cDev, omap.aas = true → omap.ie &&& statBf ≠ 0 →
    (isrThread byteWise omap).2.aas = false → abandoned byteWise omap = false →
      ListensExactly (isrThread byteWise omap).2.ie := by
  intro hall
  have hexact := hall (stopping []) rfl (by decide) (by decide +kernel) (by decide +kernel)
  have hundone : ¬ ListensExactly (isrThread byteWise (stopping [])).2.ie := by decide +kernel
  exact hundone hexact

/-! ## A quiet bus -/

section Bus

variable {omap omap' omap'' : OmapI2cDev}

/-- When nothing arrives, a stop that was taken shows no more, unless it cannot be cleared. -/
structure Clears (omap omap' : OmapI2cDev) : Prop extends Acks omap omap' where
  taken : omap'.aas = omap.aas ∨
    omap'.aas = false ∧ (omap'.stat.getLsbD 8 = true → omap.stuck.getLsbD 8 = true)

theorem Clears.trans (h : Clears omap omap') (h' : Clears omap' omap'') : Clears omap omap'' where
  toAcks := h.toAcks.trans h'.toAcks
  taken := by
    rcases h'.taken with hsame' | ⟨haas', hbf'⟩
    · rcases h.taken with hsame | ⟨haas, hbf⟩
      · exact Or.inl (hsame'.trans hsame)
      · exact Or.inr ⟨hsame'.trans haas, fun hset => hbf (h'.lost 8 hset)⟩
    · exact Or.inr ⟨haas', fun hset => h.stuck ▸ hbf' hset⟩

theorem slaveStop_clears (hquiet : omap.incoming = []) : Clears omap (slaveStop omap).2 := by
  obtain ⟨hacks, haas⟩ := slaveStop_acks hquiet
  refine ⟨hacks, Or.inr ⟨haas, fun hset => ?_⟩⟩
  have hquiet' : (slaveCallback .stop { omap with aas := false }).2.incoming = [] := hquiet
  have hacked := acks_frame.ack statBf _ hquiet'
  have hlost := (acks_frame.listenSlave _ hacked.incoming).lost 8 hset
  exact ackStat_clears hquiet' (by decide) hlost

theorem clears_frame : StopFrame (Quietly Clears) where
  refl omap hquiet := ⟨acks_frame.refl omap hquiet, Or.inl rfl⟩
  trans _ _ _ h h' hquiet := (h hquiet).trans (h' (h hquiet).incoming)
  tick omap hquiet := ⟨acks_frame.tick omap hquiet, Or.inl (same_tick omap).aas⟩
  moves omap rxFifo sent idle irqProgress log hquiet :=
    ⟨acks_frame.moves omap rxFifo sent idle irqProgress log hquiet, Or.inl rfl⟩
  ack mask omap hquiet :=
    ⟨acks_frame.ack mask omap hquiet, Or.inl (same_frame.ack mask omap).aas⟩
  stop _ := slaveStop_clears

/-- What the epilogue sees when nothing is abandoned. -/
theorem spared_of_kept (hquiet : omap.incoming = []) (hnone : abandoned unpatched omap = false) :
    line (isrThreadWork unpatched omap).2 = 0 ∨
      forceAt (isrThreadWork unpatched omap).1 (isrThreadWork unpatched omap).2 = false := by
  have hacks := isrThreadWork_acks unpatched hquiet
  rw [abandoned, bind_apply] at hnone
  generalize isrThreadWork unpatched omap = work at hacks hnone ⊢
  have hflag : forceFlag work.1 (line work.2) work.2 =
    (forceAt work.1 work.2, counted work.1 work.2) := rfl
  rw [bind_apply, pendingIrq_quiet hacks.incoming, bind_apply, hflag] at hnone
  by_contra hneither
  obtain ⟨hline, hforce⟩ := not_or.mp hneither
  rw [Bool.not_eq_false] at hforce
  rw [hforce] at hnone
  have hrecovered := quiesceIrq_forced unpatched (counted_quiet hacks.incoming work.1)
    (by rwa [line_counted])
  cases hnone.symm.trans hrecovered.abandoned

theorem statAtRestore_quiet (hquiet : omap.incoming = [])
    (hnone : abandoned unpatched omap = false) :
    statAtRestore unpatched omap = (isrThreadWork unpatched omap).2.shown := by
  have hacks := isrThreadWork_acks unpatched hquiet
  have hspared := spared_of_kept unpatched hquiet hnone
  rw [statAtRestore, bind_apply]
  generalize isrThreadWork unpatched omap = work at hacks hspared ⊢
  have hcounted := counted_quiet hacks.incoming work.1
  have hflag : forceFlag work.1 (line work.2) work.2 =
    (forceAt work.1 work.2, counted work.1 work.2) := rfl
  rw [bind_apply, pendingIrq_quiet hacks.incoming, bind_apply, hflag, bind_apply,
    quiesceIrq_spared unpatched hcounted (by rwa [line_counted]), bind_apply,
    readStat_quiet (by exact hcounted)]
  change (counted work.1 work.2).shown = work.2.shown
  rw [counted, countStall_same]
  rfl

/-- With nothing else on the bus, and a bus-free status that can be cleared, no transaction
leaves listen mode as `omap_i2c_listen_slave` left it. -/
theorem not_listensExactly_quiet (omap : OmapI2cDev) (hquiet : omap.incoming = [])
    (hclearable : omap.stuck &&& statBf = 0) (haas : omap.aas = true)
    (hbf : omap.ie &&& statBf ≠ 0) (hstopped : (isrThread unpatched omap).2.aas = false)
    (hnone : abandoned unpatched omap = false) :
    ¬ ListensExactly (isrThread unpatched omap).2.ie := by
  have hacks := isrThreadWork_acks unpatched hquiet
  have hwork : Clears omap (isrThreadWork unpatched omap).2 := by
    have hentered : Clears omap (entered omap) :=
      clears_frame.moves omap omap.rxFifo omap.sent omap.idle false omap.log hquiet
    rw [isrThreadWork_quiet unpatched hquiet, if_pos haas]
    exact hentered.trans (clears_frame.slaveEvent isrLimit _ hentered.incoming)
  have hleft : (isrThreadWork unpatched omap).2.aas = false := by
    rw [isrThread, bind_apply, isrThreadEpilogue_spared unpatched hacks.incoming _
      (spared_of_kept unpatched hquiet hnone)] at hstopped
    exact hstopped
  have hcleared : statAtRestore unpatched omap &&& statBf = 0 := by
    rw [statAtRestore_quiet unpatched hquiet hnone, and_statBf_eq_zero, ← Bool.not_eq_true]
    intro hset
    rcases hwork.taken with hsame | ⟨-, hstuck⟩
    · rw [hleft, haas] at hsame
      cases hsame
    · cases (hstuck (shown_within _ 8 hset)).symm.trans (and_statBf_eq_zero.mp hclearable)
  rw [listensExactly_seen unpatched omap haas hbf hstopped hnone]
  exact fun h => h.2.2 hcleared

end Bus

end RadsatLinux.I2c.Listen
