import RadsatLinux.I2c.Frames
import RadsatLinux.Library.Bits

/-!
# The driver while the bus is quiet

What the loops of `omap_i2c_isr_thread` do to the status and the enable register when
nothing new arrives on the bus.  `Acks`, `Settles` and `Serves` are three strengths of one
frame: both loops ack; the master loop never enables a source; a pass of the slave loop
that takes no stop leaves the enable register alone.
-/

namespace RadsatLinux.I2c.Quiet

open RadsatLinux.Library.Bits RadsatLinux.Library.Stateful
open RadsatLinux.I2c.FrameQueue RadsatLinux.I2c.Omap RadsatLinux.I2c.Frames

/-- Status bits go, but for stuck ones; the flags of the driver only lose `aas`. -/
structure Acks (omap omap' : OmapI2cDev) : Prop where
  incoming : omap'.incoming = []
  scheme : omap'.scheme = omap.scheme
  stuck : omap'.stuck = omap.stuck
  irqStall : omap'.irqStall = omap.irqStall
  aas : omap'.aas = true → omap.aas = true
  lost : Within omap'.stat omap.stat
  keptStuck : Within (omap.stat &&& omap.stuck) omap'.stat

/-- Besides, no source is enabled, and `aas` is as it was. -/
structure Settles (omap omap' : OmapI2cDev) : Prop extends Acks omap omap' where
  ie : Within omap'.ie omap.ie
  aasSame : omap'.aas = omap.aas

/-- Besides, only bits of `acked` go, and the enable register is as it was. -/
structure Serves (acked : U16) (omap omap' : OmapI2cDev) : Prop extends Settles omap omap' where
  ieSame : omap'.ie = omap.ie
  kept : Within (omap.stat &&& ~~~ acked) omap'.stat

/-- `r` holds of two states if nothing arrives in between. -/
def Quietly (r : OmapI2cDev → OmapI2cDev → Prop) (omap omap' : OmapI2cDev) : Prop :=
  omap.incoming = [] → r omap omap'

section Order

variable {omap omap₁ omap₂ : OmapI2cDev} {acked : U16}

theorem Acks.trans (h : Acks omap omap₁) (h' : Acks omap₁ omap₂) : Acks omap omap₂ where
  incoming := h'.incoming
  scheme := h'.scheme.trans h.scheme
  stuck := h'.stuck.trans h.stuck
  irqStall := h'.irqStall.trans h.irqStall
  aas := h.aas ∘ h'.aas
  lost := h'.lost.trans h.lost
  keptStuck := by
    intro i hbit
    refine h'.keptStuck i ?_
    have hkept := h.keptStuck i hbit
    rw [BitVec.getLsbD_and, Bool.and_eq_true] at hbit ⊢
    exact ⟨hkept, h.stuck ▸ hbit.2⟩

theorem Settles.trans (h : Settles omap omap₁) (h' : Settles omap₁ omap₂) : Settles omap omap₂ where
  toAcks := h.toAcks.trans h'.toAcks
  ie := h'.ie.trans h.ie
  aasSame := h'.aasSame.trans h.aasSame

theorem Serves.trans (h : Serves acked omap omap₁) (h' : Serves acked omap₁ omap₂) :
    Serves acked omap omap₂ where
  toSettles := h.toSettles.trans h'.toSettles
  ieSame := h'.ieSame.trans h.ieSame
  kept := by
    intro i hbit
    refine h'.kept i ?_
    have hkept := h.kept i hbit
    rw [BitVec.getLsbD_and, Bool.and_eq_true] at hbit ⊢
    exact ⟨hkept, hbit.2⟩

theorem Serves.mono {acked' : U16} (h : Serves acked omap omap₁) (hsub : Within acked acked') :
    Serves acked' omap omap₁ where
  toSettles := h.toSettles
  ieSame := h.ieSame
  kept := by
    intro i hbit
    refine h.kept i ?_
    rw [BitVec.getLsbD_and, BitVec.getLsbD_not, Bool.and_eq_true, Bool.and_eq_true] at hbit ⊢
    refine ⟨hbit.1, hbit.2.1, ?_⟩
    rcases hnew : acked.getLsbD i with _ | _
    · rfl
    · rw [hsub i hnew] at hbit
      cases hbit.2.2

end Order

/-! ## Accesses -/

section Accesses

variable {omap : OmapI2cDev} {acked : U16}

/-- The status register shows what is enabled under either scheme. -/
theorem shown_and_ie (omap : OmapI2cDev) : omap.shown &&& omap.ie = omap.stat &&& omap.ie := by
  unfold OmapI2cDev.shown
  split
  · rfl
  · rw [BitVec.and_assoc, BitVec.and_self]

theorem shown_within (omap : OmapI2cDev) : Within omap.shown omap.stat := by
  unfold OmapI2cDev.shown
  split
  · exact Within.refl _
  · exact Within.and_left _ _

theorem readStat_quiet (hquiet : omap.incoming = []) : readStat omap = (omap.shown, omap) := by
  change ((tick omap).2.shown, (tick omap).2) = _
  rw [tick_nil hquiet]

theorem readIe_quiet (hquiet : omap.incoming = []) : readIe omap = (omap.ie, omap) := by
  change ((tick omap).2.ie, (tick omap).2) = _
  rw [tick_nil hquiet]

theorem writeIe_quiet (hquiet : omap.incoming = []) (value : U16) :
    writeIe value omap = ((), { omap with ie := value }) := by
  rw [writeIe, bind_apply, tick_nil hquiet]
  rfl

theorem irqEnableSet_quiet (hquiet : omap.incoming = []) (mask : U16) :
    irqEnableSet mask omap = ((), { omap with ie := omap.ie ||| mask }) := by
  rw [irqEnableSet, bind_apply, tick_nil hquiet]
  rfl

theorem irqEnableClr_quiet (hquiet : omap.incoming = []) (mask : U16) :
    irqEnableClr mask omap = ((), { omap with ie := omap.ie &&& ~~~ mask }) := by
  rw [irqEnableClr, bind_apply, tick_nil hquiet]
  rfl

theorem ackStat_quiet (hquiet : omap.incoming = []) (mask : U16) :
    (ackStat mask omap).2 =
      { omap with stat := omap.stat &&& ~~~ (mask &&& ~~~ omap.stuck) } := by
  change (fun omap : OmapI2cDev =>
    { omap with stat := omap.stat &&& ~~~ (mask &&& ~~~ omap.stuck) })
    (tick omap).2 = _
  rw [tick_nil hquiet]

theorem writeCon_quiet (hquiet : omap.incoming = []) (value : U16) :
    writeCon value omap = ((), { omap with con := value }) := by
  rw [writeCon, bind_apply, tick_nil hquiet]
  rfl

theorem writeOa_quiet (hquiet : omap.incoming = []) (value : U16) :
    writeOa value omap = ((), { omap with oa := value }) := by
  rw [writeOa, bind_apply, tick_nil hquiet]
  rfl

theorem clearFifos_quiet (hquiet : omap.incoming = []) :
    clearFifos omap = ((), { omap with rxFifo := [], sent := [] }) := by
  rw [clearFifos, bind_apply, tick_nil hquiet]
  rfl

theorem disableIrqs_quiet (hquiet : omap.incoming = []) (hscheme : omap.scheme ≠ 0) (mask : U16) :
    disableIrqs mask omap = ((), { omap with ie := omap.ie &&& ~~~ mask }) := by
  rw [disableIrqs, bind_apply, get_apply]
  dsimp only
  rw [if_neg hscheme, irqEnableClr_quiet hquiet]

theorem enableIrqs_quiet (hquiet : omap.incoming = []) (hscheme : omap.scheme ≠ 0) (mask : U16) :
    enableIrqs mask omap = ((), { omap with ie := omap.ie ||| mask }) := by
  rw [enableIrqs, bind_apply, get_apply]
  dsimp only
  rw [if_neg hscheme, irqEnableSet_quiet hquiet]

end Accesses

/-! ## Passes of the slave loop -/

section Served

variable {α : Type} {acked : U16}

theorem serves_of_same {omap omap' : OmapI2cDev} (hquiet : omap.incoming = [])
    (hincoming : omap'.incoming = omap.incoming) (hscheme : omap'.scheme = omap.scheme)
    (hstuck : omap'.stuck = omap.stuck)
    (hstall : omap'.irqStall = omap.irqStall) (haas : omap'.aas = omap.aas)
    (hstat : omap'.stat = omap.stat) (hie : omap'.ie = omap.ie) : Serves acked omap omap' where
  incoming := hincoming.trans hquiet
  scheme := hscheme
  stuck := hstuck
  irqStall := hstall
  aas h := haas ▸ h
  lost := hstat ▸ Within.refl _
  keptStuck := hstat ▸ Within.and_left _ _
  ie := hie ▸ Within.refl _
  aasSame := haas
  ieSame := hie
  kept := hstat ▸ Within.and_left _ _

theorem serves_frame (acked : U16) : Frame (Quietly (Serves acked)) where
  refl _ hquiet := serves_of_same hquiet rfl rfl rfl rfl rfl rfl rfl
  trans _ _ _ h h' hquiet := (h hquiet).trans (h' (h hquiet).incoming)
  tick omap hquiet := by
    rw [tick_nil hquiet]
    exact serves_of_same hquiet rfl rfl rfl rfl rfl rfl rfl
  moves _ _ _ _ _ _ hquiet := serves_of_same hquiet rfl rfl rfl rfl rfl rfl rfl

/-- Whatever `m` returns, it only acks bits of `acked`. -/
abbrev Served (acked : U16) (m : Irq α) : Prop := Keeps (Quietly (Serves acked)) m

theorem Served.mono {acked' : U16} {m : Irq α} (h : Served acked m) (hsub : Within acked acked') :
    Served acked' m :=
  fun omap hquiet => (h omap hquiet).mono hsub

theorem served_ackStat (mask : U16) : Served mask (ackStat mask) := by
  intro omap hquiet
  rw [ackStat_quiet hquiet]
  constructor
  · constructor
    · constructor
      · exact hquiet
      · rfl
      · rfl
      · rfl
      · exact id
      · exact Within.and_left _ _
      · intro i hbit
        simp only [BitVec.getLsbD_and, BitVec.getLsbD_not, Bool.and_eq_true] at hbit ⊢
        have hlt := BitVec.lt_of_getLsbD hbit.1
        simp [hbit.1, hbit.2, hlt]
    · exact Within.refl _
    · rfl
  · rfl
  · intro i hbit
    simp only [BitVec.getLsbD_and, BitVec.getLsbD_not, Bool.and_eq_true, decide_eq_true_eq,
      Bool.not_eq_true'] at hbit ⊢
    obtain ⟨hstat, hlt, hmask⟩ := hbit
    rw [hmask]
    exact ⟨hstat, hlt, Bool.false_and _⟩

/-- What is acked is gone, or stuck. -/
theorem ackStat_clears {omap : OmapI2cDev} (hquiet : omap.incoming = []) {mask : U16} {i : Nat}
    (hmask : mask.getLsbD i = true) (hstat : (ackStat mask omap).2.stat.getLsbD i = true) :
    omap.stuck.getLsbD i = true := by
  rw [ackStat_quiet hquiet] at hstat
  simp only [BitVec.getLsbD_and, BitVec.getLsbD_not, Bool.and_eq_true, hmask,
    Bool.true_and] at hstat
  have hlt := BitVec.lt_of_getLsbD hstat.1
  simpa [hlt] using hstat.2

end Served

/-- The sources that the slave loop takes before a stop. -/
def dataGroups : List U16 := [statRdr, statRrdy, statXdr ||| statXrdy]

/-- What a pass without a stop may ack. -/
def notBf : U16 := ~~~ statBf

theorem within_notBf {mask : U16} (h : mask &&& statBf = 0) : Within mask notBf :=
  within_not_of_and_eq_zero h

theorem served_slaveFlags (stat : U16) : Served notBf (slaveFlags stat) := by
  have frame := serves_frame notBf
  have hardy : Served notBf (if stat &&& (statArdy ||| statNack) ≠ 0 then
      ackStat (statArdy ||| statNack) else pure ()) := by
    split
    · exact (served_ackStat _).mono (within_notBf (by decide))
    · exact frame.pure _
  have haas : Served notBf (ackStat statAas) := (served_ackStat _).mono (within_notBf (by decide))
  dsimp only [slaveFlags]
  split
  · exact frame.bind (frame.setIdle _) fun _ => frame.bind haas fun _ => hardy
  · exact hardy

/-- A data group goes before the stop, so that a pass with one leaves `BF` alone. -/
theorem served_slaveServe {stat : U16}
    (h : (∃ group ∈ dataGroups, stat &&& group ≠ 0) ∨ stat &&& statBf = 0) :
    Served notBf (slaveServe stat) := by
  have frame := serves_frame notBf
  have hreceive (mask : U16) (hmask : mask &&& statBf = 0) : Served notBf (do
      slaveWriteReceived (← slaveNumBytes)
      ackStat mask) :=
    frame.bind frame.slaveNumBytes fun _ => frame.bind (frame.slaveWriteReceived _) fun _ =>
      (served_ackStat _).mono (within_notBf hmask)
  unfold slaveServe
  split
  · exact hreceive _ (by decide)
  split
  · exact hreceive _ (by decide)
  split
  · exact frame.bind frame.slaveReadProcessed fun _ =>
      (served_ackStat _).mono (within_notBf (by decide))
  split
  · rcases h with ⟨group, hgroup, hdata⟩ | hbf
    · simp only [dataGroups, List.mem_cons, List.not_mem_nil, or_false] at hgroup
      rcases hgroup with rfl | rfl | rfl <;> contradiction
    · contradiction
  split
  · exact frame.bind frame.readData fun _ => (served_ackStat _).mono (within_notBf (by decide))
  split
  · exact frame.bind (frame.writeData _) fun _ =>
      (served_ackStat _).mono (within_notBf (by decide))
  · refine (served_ackStat _).mono (within_notBf ?_)
    rename_i hbf _ _
    rw [BitVec.and_assoc, BitVec.and_comm statIrqMask, ← BitVec.and_assoc, not_not.mp hbf]
    rfl

/-- Without one, the stop is what the pass takes. -/
theorem slaveServe_stop {stat : U16}
    (h : ¬((∃ group ∈ dataGroups, stat &&& group ≠ 0) ∨ stat &&& statBf = 0)) :
    slaveServe stat = slaveStop := by
  obtain ⟨hdata, hbf⟩ := not_or.mp h
  have hnone (group : U16) (hgroup : group ∈ dataGroups) : ¬(stat &&& group ≠ 0) :=
    fun hset => hdata ⟨group, hgroup, hset⟩
  rw [slaveServe, if_neg (hnone statRdr (by decide)), if_neg (hnone statRrdy (by decide)),
    if_neg (hnone (statXdr ||| statXrdy) (by decide)), if_pos hbf]

theorem served_slavePass {stat : U16}
    (h : (∃ group ∈ dataGroups, stat &&& group ≠ 0) ∨ stat &&& statBf = 0) :
    Served notBf (slavePass stat) :=
  (serves_frame notBf).bind (served_slaveFlags stat) fun _ => served_slaveServe h

/-! ## The slave loop -/

theorem acks_of_same {omap omap' : OmapI2cDev} (hquiet : omap.incoming = [])
    (hincoming : omap'.incoming = omap.incoming) (hscheme : omap'.scheme = omap.scheme)
    (hstuck : omap'.stuck = omap.stuck)
    (hstall : omap'.irqStall = omap.irqStall) (haas : omap'.aas = true → omap.aas = true)
    (hstat : omap'.stat = omap.stat) : Acks omap omap' where
  incoming := hincoming.trans hquiet
  scheme := hscheme
  stuck := hstuck
  irqStall := hstall
  aas := haas
  lost := hstat ▸ Within.refl _
  keptStuck := hstat ▸ Within.and_left _ _

theorem acks_frame : ListenFrame (Quietly Acks) where
  refl _ hquiet := acks_of_same hquiet rfl rfl rfl rfl id rfl
  trans _ _ _ h h' hquiet := (h hquiet).trans (h' (h hquiet).incoming)
  tick omap hquiet := ((serves_frame 0).tick omap hquiet).toAcks
  moves _ _ _ _ _ _ hquiet := acks_of_same hquiet rfl rfl rfl rfl id rfl
  ack mask omap hquiet := (served_ackStat mask omap hquiet).toAcks
  registers _ _ _ _ hquiet := acks_of_same hquiet rfl rfl rfl rfl id rfl
  unaddressed _ hquiet := acks_of_same hquiet rfl rfl rfl rfl (fun h => by cases h) rfl

section SlaveLoop

variable {omap : OmapI2cDev}

/-- After a stop the driver no longer counts as addressed. -/
theorem slaveStop_acks (hquiet : omap.incoming = []) :
    Acks omap (slaveStop omap).2 ∧ (slaveStop omap).2.aas = false := by
  have hrest : Keeps (Quietly Acks) (do
      slaveCallback .stop
      ackStat statBf
      listenSlave) :=
    acks_frame.bind (acks_frame.slaveCallback _) fun _ =>
      acks_frame.bind (acks_frame.ack _) fun _ => acks_frame.listenSlave
  have hafter := hrest { omap with aas := false } hquiet
  constructor
  · exact acks_frame.stopFrame.stop omap hquiet
  · exact Bool.eq_false_iff.mpr fun h => by cases hafter.aas h

theorem slaveEvent_zero (hquiet : omap.incoming = []) : (slaveEvent 0 omap).2 = omap := by
  rw [slaveEvent, bind_apply, readIe_quiet hquiet, bind_apply, readStat_quiet hquiet]
  dsimp only
  split <;> rfl

theorem slaveEvent_succ (hquiet : omap.incoming = []) (left : Nat) :
    slaveEvent (left + 1) omap = if omap.stat &&& omap.ie = 0 then (false, omap)
      else slaveEvent left (slavePass (omap.stat &&& omap.ie) omap).2 := by
  rw [slaveEvent, bind_apply, readIe_quiet hquiet, bind_apply, readStat_quiet hquiet]
  dsimp only
  rw [shown_and_ie]
  split <;> rfl

/-- A data source that cannot be cleared is enabled, so that the loop never comes to the stop;
or there is no stop to come to. -/
def Blocked (omap : OmapI2cDev) : Prop :=
  (∃ group ∈ dataGroups, omap.stat &&& omap.ie &&& omap.stuck &&& group ≠ 0) ∨
    omap.stat &&& omap.ie &&& statBf = 0

theorem Blocked.serves {omap' : OmapI2cDev} (h : Blocked omap) (hserves : Serves notBf omap omap') :
    Blocked omap' := by
  rcases h with ⟨group, hgroup, hdata⟩ | hbf
  · left
    obtain ⟨i, hbit⟩ := exists_bit_of_ne_zero hdata
    simp only [BitVec.getLsbD_and, Bool.and_eq_true] at hbit
    obtain ⟨⟨⟨hstat, hie⟩, hstuck⟩, hin⟩ := hbit
    have hkept := hserves.keptStuck i (by rw [BitVec.getLsbD_and, hstat, hstuck]; rfl)
    refine ⟨group, hgroup, ne_zero_of_bit (i := i) ?_⟩
    simp only [BitVec.getLsbD_and, hserves.ieSame, hserves.stuck, hkept, hie, hstuck, hin]
    rfl
  · right
    exact ((hserves.lost.and_mono hserves.ie).and_mono (Within.refl _)).eq_zero hbf

/-- Only a stop, or another data source that cannot be cleared, could block the loop anew. -/
theorem Blocked.of_serves {omap' : OmapI2cDev} (h : Blocked omap')
    (hserves : Serves notBf omap omap') : Blocked omap := by
  have hstuck : Within omap'.stuck omap.stuck := hserves.stuck ▸ Within.refl _
  rcases h with ⟨group, hgroup, hdata⟩ | hbf
  · left
    refine ⟨group, hgroup, fun hnone => hdata ?_⟩
    exact (((hserves.lost.and_mono hserves.ie).and_mono hstuck).and_mono
      (Within.refl _)).eq_zero hnone
  · right
    by_contra hset
    obtain ⟨i, hbit⟩ := exists_bit_of_ne_zero hset
    simp only [BitVec.getLsbD_and, Bool.and_eq_true] at hbit
    obtain ⟨⟨hstat, hie⟩, hin⟩ := hbit
    have hkept := hserves.kept i (by
      rw [BitVec.getLsbD_and, hstat, notBf, BitVec.not_not, hin]
      rfl)
    refine ne_zero_of_bit (i := i) ?_ hbf
    simp only [BitVec.getLsbD_and, hserves.ieSame, hkept, hie, hin]
    rfl

theorem slaveEvent_blocked (left : Nat) (omap : OmapI2cDev) (hquiet : omap.incoming = [])
    (hblocked : Blocked omap) : Serves notBf omap (slaveEvent left omap).2 := by
  induction left generalizing omap with
  | zero =>
      rw [slaveEvent_zero hquiet]
      exact serves_of_same hquiet rfl rfl rfl rfl rfl rfl rfl
  | succ left ih =>
      rw [slaveEvent_succ hquiet]
      split
      · exact serves_of_same hquiet rfl rfl rfl rfl rfl rfl rfl
      · have hdata : (∃ group ∈ dataGroups, omap.stat &&& omap.ie &&& group ≠ 0) ∨
            omap.stat &&& omap.ie &&& statBf = 0 := by
          rcases hblocked with ⟨group, hgroup, hdata⟩ | hbf
          · refine Or.inl ⟨group, hgroup, fun hnone => hdata ?_⟩
            exact ((Within.and_left _ _).and_mono (Within.refl _)).eq_zero hnone
          · exact Or.inr hbf
        have hpass := served_slavePass hdata omap hquiet
        exact hpass.trans (ih _ hpass.incoming (hblocked.serves hpass))

/-! ### A stop that is not blocked is taken -/

/-- A pass clears the group that it serves, but for what is stuck. -/
theorem slaveServe_clears {stat : U16} (hdata : ∃ group ∈ dataGroups, stat &&& group ≠ 0) :
    ∃ group ∈ dataGroups, stat &&& group ≠ 0 ∧ ∀ omap : OmapI2cDev, omap.incoming = [] →
      ∀ i, group.getLsbD i = true → (slaveServe stat omap).2.stat.getLsbD i = true →
        omap.stuck.getLsbD i = true := by
  have hlast (m : Irq Unit) (hm : Served 0 m) (group : U16) (omap : OmapI2cDev)
      (hquiet : omap.incoming = []) (i : Nat) (hin : group.getLsbD i = true)
      (hstat : ((do m; ackStat group : Irq Unit) omap).2.stat.getLsbD i = true) :
      omap.stuck.getLsbD i = true := by
    have hdone := hm omap hquiet
    exact hdone.stuck ▸ ackStat_clears hdone.incoming hin hstat
  have frame := serves_frame 0
  have hreceive : Served 0 (do slaveWriteReceived (← slaveNumBytes)) :=
    frame.bind frame.slaveNumBytes fun _ => frame.slaveWriteReceived _
  obtain ⟨group, hgroup, hset⟩ := hdata
  by_cases hrdr : stat &&& statRdr ≠ 0
  · refine ⟨statRdr, by decide, hrdr, ?_⟩
    rw [slaveServe, if_pos hrdr]
    exact hlast _ hreceive _
  by_cases hrrdy : stat &&& statRrdy ≠ 0
  · refine ⟨statRrdy, by decide, hrrdy, ?_⟩
    rw [slaveServe, if_neg hrdr, if_pos hrrdy]
    exact hlast _ hreceive _
  · simp only [dataGroups, List.mem_cons, List.not_mem_nil, or_false] at hgroup
    rcases hgroup with rfl | rfl | rfl
    · contradiction
    · contradiction
    · refine ⟨statXdr ||| statXrdy, by decide, hset, ?_⟩
      rw [slaveServe, if_neg hrdr, if_neg hrrdy, if_pos hset]
      exact hlast _ frame.slaveReadProcessed _

theorem slaveEvent_takesStop (left : Nat) (omap : OmapI2cDev) (hquiet : omap.incoming = [])
    (hfree : ¬Blocked omap) (hleft : hits dataGroups (omap.stat &&& omap.ie) < left) :
    (slaveEvent left omap).2.aas = false := by
  induction left generalizing omap with
  | zero => cases hleft
  | succ left ih =>
      obtain ⟨hstuck, hbf⟩ := not_or.mp hfree
      have hset : ¬(omap.stat &&& omap.ie = 0) := by
        intro hzero
        rw [hzero] at hbf
        exact hbf BitVec.zero_and
      rw [slaveEvent_succ hquiet, if_neg hset]
      by_cases hdata : ∃ group ∈ dataGroups, omap.stat &&& omap.ie &&& group ≠ 0
      · -- A group is served, and one fewer is left before the stop.
        have hpass := served_slavePass (Or.inl hdata) omap hquiet
        refine ih _ hpass.incoming (fun hblocked => hfree (hblocked.of_serves hpass)) ?_
        refine Nat.lt_of_lt_of_le ?_ (Nat.le_of_lt_succ hleft)
        obtain ⟨group, hgroup, hhit, hcleared⟩ := slaveServe_clears hdata
        have hflags := served_slaveFlags (omap.stat &&& omap.ie) omap hquiet
        refine hits_lt (hpass.lost.and_mono hpass.ie) hgroup hhit ?_
        by_contra hleftover
        obtain ⟨i, hbit⟩ := exists_bit_of_ne_zero hleftover
        simp only [BitVec.getLsbD_and, Bool.and_eq_true] at hbit
        obtain ⟨⟨hstat, hie⟩, hin⟩ := hbit
        have hstuckBit := hcleared _ hflags.incoming i hin hstat
        refine hstuck ⟨group, hgroup, ne_zero_of_bit (i := i) ?_⟩
        rw [hflags.stuck] at hstuckBit
        rw [hpass.ieSame] at hie
        simp only [BitVec.getLsbD_and, hpass.lost i hstat, hie, hstuckBit, hin]
        rfl
      · have hflags := served_slaveFlags (omap.stat &&& omap.ie) omap hquiet
        have hstop : (slavePass (omap.stat &&& omap.ie) omap).2 =
            (slaveStop (slaveFlags (omap.stat &&& omap.ie) omap).2).2 := by
          rw [slavePass, slaveServe_stop (not_or.mpr ⟨hdata, hbf⟩)]
          rfl
        obtain ⟨hacks, haas⟩ := slaveStop_acks hflags.incoming
        rw [hstop]
        have hrest := acks_frame.slaveEvent left _ hacks.incoming
        exact Bool.eq_false_iff.mpr fun h => by cases haas.symm.trans (hrest.aas h)

end SlaveLoop

/-! ## The master loop -/

/-- Under either register scheme. -/
theorem maskIrqSources_quiet {omap : OmapI2cDev} (hquiet : omap.incoming = []) (mask : U16) :
    (maskIrqSources mask omap).2 = { omap with ie := omap.ie &&& ~~~ mask } := by
  have hreadBack (omap' : OmapI2cDev) (h : omap'.incoming = []) :
      ((do let _ ← readStat : Irq Unit) omap').2 = omap' := by
    rw [bind_apply, readStat_quiet h]
    rfl
  rw [maskIrqSources]
  dsimp only
  split
  · rename_i hzero
    rw [hzero]
    change omap = { omap with ie := omap.ie &&& ~~~ 0#16 }
    rw [BitVec.not_zero, BitVec.and_allOnes]
  rw [bind_apply, get_apply]
  dsimp only
  split
  · rw [bind_apply, readIe_quiet hquiet, bind_apply, writeIe_quiet hquiet]
    exact hreadBack _ hquiet
  · rw [bind_apply, irqEnableClr_quiet hquiet]
    exact hreadBack _ hquiet

theorem settles_of_dataAccess {omap omap' : OmapI2cDev} (h : DataAccess omap omap')
    (hquiet : omap.incoming = []) : Settles omap omap' := by
  obtain ⟨stat, rxFifo, sent, incoming, heard, cmdErr, rfl⟩ := h.same
  obtain ⟨hincoming, acked, hstat⟩ := h.quiet hquiet
  have hack := (served_ackStat acked omap hquiet).toAcks
  rw [ackStat_quiet hquiet] at hack
  change stat = _ at hstat
  subst hstat
  constructor
  · exact ⟨hincoming, rfl, rfl, rfl, id, hack.lost, hack.keptStuck⟩
  · exact Within.refl _
  · rfl

theorem settles_ackFrame : AckFrame (Quietly Settles) where
  refl omap hquiet := ((serves_frame 0).refl omap hquiet).toSettles
  trans _ _ _ h h' hquiet := (h hquiet).trans (h' (h hquiet).incoming)
  tick omap hquiet := ((serves_frame 0).tick omap hquiet).toSettles
  moves omap rxFifo sent idle irqProgress log hquiet :=
    ((serves_frame 0).moves omap rxFifo sent idle irqProgress log hquiet).toSettles
  ack mask omap hquiet := (served_ackStat mask omap hquiet).toSettles

theorem maskIrqSources_settles (mask : U16) : Keeps (Quietly Settles) (maskIrqSources mask) := by
  intro omap hquiet
  rw [maskIrqSources_quiet hquiet]
  constructor
  · exact acks_of_same hquiet rfl rfl rfl rfl id rfl
  · exact Within.and_left _ _
  · rfl

theorem completeCmd_serves {omap : OmapI2cDev} (hquiet : omap.incoming = []) (err : U16) :
    Serves 0 omap (completeCmd err omap).2 :=
  serves_of_same hquiet rfl rfl rfl rfl rfl rfl rfl

theorem settles_frame : MasterFrame (Quietly Settles) where
  toAckFrame := settles_ackFrame
  drop := settles_ackFrame.dropIgnored maskIrqSources_settles
  complete err _ hquiet := (completeCmd_serves hquiet err).toSettles
  data _ _ h hquiet := settles_of_dataAccess h hquiet

/-! ## Sources that are disabled while they are pending -/

/-- Under the second register scheme only sources that cannot be cleared are. -/
structure Releases (omap omap' : OmapI2cDev) : Prop extends Acks omap omap' where
  released : omap.scheme ≠ 0 → ∀ i, omap.ie.getLsbD i = true → omap'.ie.getLsbD i = false →
    omap'.stat.getLsbD i = true → omap.stuck.getLsbD i = true

section Released

variable {omap omap' omap'' : OmapI2cDev}

theorem Acks.releases (h : Acks omap omap') (hie : Within omap.ie omap'.ie) :
    Releases omap omap' := by
  refine ⟨h, fun _ i hbefore hafter _ => ?_⟩
  cases hafter.symm.trans (hie i hbefore)

theorem Serves.releases {acked : U16} (h : Serves acked omap omap') : Releases omap omap' :=
  h.toAcks.releases (h.ieSame ▸ Within.refl _)

theorem Releases.trans (h : Releases omap omap') (h' : Releases omap' omap'') :
    Releases omap omap'' := by
  refine ⟨h.toAcks.trans h'.toAcks, fun hscheme i hbefore hafter hstat => ?_⟩
  cases hbetween : omap'.ie.getLsbD i with
  | true =>
      have hstuck := h'.released (h.scheme ▸ hscheme) i hbetween hafter hstat
      exact h.stuck ▸ hstuck
  | false => exact h.released hscheme i hbefore hbetween (h'.lost i hstat)

theorem releases_ackFrame : AckFrame (Quietly Releases) where
  refl omap hquiet := ((serves_frame 0).refl omap hquiet).releases
  trans _ _ _ h h' hquiet := (h hquiet).trans (h' (h hquiet).incoming)
  tick omap hquiet := ((serves_frame 0).tick omap hquiet).releases
  moves omap rxFifo sent idle irqProgress log hquiet :=
    ((serves_frame 0).moves omap rxFifo sent idle irqProgress log hquiet).releases
  ack mask omap hquiet := (served_ackStat mask omap hquiet).releases

/-- The ready bits of the other direction are masked when they have survived an ack. -/
theorem dropIgnored_releases (stat : U16) : Keeps (Quietly Releases) (dropIgnored stat) := by
  have frame := releases_ackFrame
  have hdrop (ignored : U16) : Keeps (Quietly Releases) (do
      if ignored = 0 then return stat
      ackStat ignored
      if (← readStat) &&& ignored ≠ 0 then
        maskIrqSources ignored
      return stat &&& ~~~ ignored) := by
    dsimp only
    split
    · exact frame.pure _
    intro omap hquiet
    have hacked := served_ackStat ignored omap hquiet
    rw [bind_apply, bind_apply, readStat_quiet hacked.incoming]
    dsimp only
    split
    · rw [bind_apply]
      change Releases omap (maskIrqSources ignored (ackStat ignored omap).2).2
      have hmasked := maskIrqSources_settles ignored _ hacked.incoming
      refine ⟨hacked.toAcks.trans hmasked.toAcks, fun _ i hbefore hafter hstat => ?_⟩
      rw [maskIrqSources_quiet hacked.incoming] at hafter hstat
      have hignored : ignored.getLsbD i = true := by
        by_contra hother
        rw [Bool.not_eq_true] at hother
        have hlt := BitVec.lt_of_getLsbD hbefore
        simp only [hacked.ieSame, BitVec.getLsbD_and, BitVec.getLsbD_not, hbefore, hother, hlt,
          decide_true, Bool.not_false, Bool.and_true] at hafter
        cases hafter
      exact ackStat_clears hquiet hignored hstat
    · exact hacked.releases
  exact frame.bind frame.get fun _ => hdrop _

/-- Besides, all of `acked` is gone, or stuck. -/
structure Wipes (acked : U16) (omap omap' : OmapI2cDev) : Prop extends Serves acked omap omap' where
  wiped : ∀ i, acked.getLsbD i = true → omap'.stat.getLsbD i = true → omap.stuck.getLsbD i = true

theorem ackStat_wipes (hquiet : omap.incoming = []) (mask : U16) :
    Wipes mask omap (ackStat mask omap).2 :=
  ⟨served_ackStat mask omap hquiet, fun _ => ackStat_clears hquiet⟩

theorem Wipes.after {acked : U16} (h : Wipes acked omap' omap'') (hserves : Serves 0 omap omap') :
    Wipes acked omap omap'' := by
  refine ⟨(hserves.mono fun i hbit => ?_).trans h.toServes, fun i hin hstat => ?_⟩
  · change (0#16).getLsbD i = true at hbit
    rw [BitVec.getLsbD_zero] at hbit
    cases hbit
  · exact hserves.stuck ▸ h.wiped i hin hstat

/-- What `omap_i2c_clear_slave_state` acks. -/
def slaveStateMask : U16 :=
  statXdr ||| statRdr ||| statRovr ||| statXudf ||| statAas ||| statBf ||| statXrdy ||| statRrdy |||
    statArdy ||| statNack ||| statAl

theorem clearSlaveState_wipes (hquiet : omap.incoming = []) :
    Wipes slaveStateMask omap (clearSlaveState omap).2 := by
  have frame := serves_frame 0
  have hstep {α : Type} {m : Irq α} {f : α → Irq Unit} {before : OmapI2cDev}
      (h : Serves 0 omap before) (hm : Served 0 m)
      (hf : ∀ a after, Serves 0 omap after → Wipes slaveStateMask omap (f a after).2) :
      Wipes slaveStateMask omap ((m >>= f) before).2 :=
    hf _ _ (h.trans (hm before h.incoming))
  have hclear {before : OmapI2cDev} (h : Serves 0 omap before) :
      Wipes slaveStateMask omap ((do clearFifos; ackStat slaveStateMask : Irq Unit) before).2 :=
    hstep h frame.clearFifos fun _ _ h => (ackStat_wipes h.incoming slaveStateMask).after h
  have hunderflow {before : OmapI2cDev} (h : Serves 0 omap before) (stat : U16) :
      Wipes slaveStateMask omap ((do
        if stat &&& statXudf ≠ 0 then
          writeData 0xff
        clearFifos
        ackStat slaveStateMask : Irq Unit) before).2 := by
    dsimp only
    split
    · exact hstep h (frame.writeData _) fun _ _ h => hclear h
    · exact hclear h
  refine hstep (frame.refl omap hquiet) frame.readStat fun stat _ h => ?_
  dsimp only
  split
  · exact hstep h frame.readData fun _ _ h => hunderflow h stat
  · exact hunderflow h stat

/-- The slave's sources, as far as they are not enabled again, are gone or stuck. -/
theorem enabledAgain_wiped (hquiet : omap.incoming = []) (hscheme : omap.scheme ≠ 0) (mask : U16)
    {i : Nat} (hafter : (enableIrqs mask (clearSlaveState omap).2).2.ie.getLsbD i = false) :
    omap.ie.getLsbD i = false ∧ (slaveStateMask.getLsbD i = true →
      (enableIrqs mask (clearSlaveState omap).2).2.stat.getLsbD i = true →
        omap.stuck.getLsbD i = true) := by
  have hwipes := clearSlaveState_wipes hquiet
  have hscheme' := hwipes.scheme.trans_ne hscheme
  rw [enableIrqs_quiet hwipes.incoming hscheme'] at hafter ⊢
  rw [BitVec.getLsbD_or, Bool.or_eq_false_iff, hwipes.ieSame] at hafter
  exact ⟨hafter.1, hwipes.wiped i⟩

/-- Listening again disables the sources of the slave, and acks them before it enables them. -/
theorem listenSlave_releases : Keeps (Quietly Releases) listenSlave := by
  intro omap hquiet
  refine ⟨acks_frame.listenSlave omap hquiet, fun hscheme i hbefore => ?_⟩
  rw [listenSlave, bind_apply, get_apply]
  dsimp only
  cases omap.slave with
  | none =>
      intro hafter
      cases hafter.symm.trans hbefore
  | some slave =>
      dsimp only
      rw [bind_apply, get_apply, bind_apply, modify_apply, bind_apply,
        disableIrqs_quiet (by exact hquiet) (by exact hscheme), bind_apply,
        writeOa_quiet (by exact hquiet), bind_apply, writeCon_quiet (by exact hquiet), bind_apply,
        bind_apply, get_apply]
      dsimp only
      intro hafter hstat
      obtain ⟨hdisabled, hwiped⟩ := enabledAgain_wiped (by exact hquiet) (by exact hscheme) _ hafter
      refine hwiped ?_ hstat
      have hwithin : Within (statAas ||| statBf ||| statRovr ||| statXudf) slaveStateMask :=
        within_of_and_eq (by decide)
      refine hwithin i ?_
      by_contra hother
      rw [Bool.not_eq_true] at hother
      have hlt := BitVec.lt_of_getLsbD hbefore
      simp only [BitVec.getLsbD_and, BitVec.getLsbD_not, hbefore, hother, hlt, decide_true,
        Bool.not_false, Bool.and_true] at hdisabled
      cases hdisabled

theorem releases_stopFrame : StopFrame (Quietly Releases) where
  toAckFrame := releases_ackFrame
  stop := by
    have frame := releases_ackFrame
    have haas : Keeps (Quietly Releases) (modify fun omap => { omap with aas := false }) :=
      fun omap hquiet => (acks_frame.unaddressed omap hquiet).releases (Within.refl _)
    exact frame.bind haas fun _ => frame.bind (frame.slaveCallback _) fun _ =>
      frame.bind (frame.ack _) fun _ => listenSlave_releases

theorem releases_masterFrame : MasterFrame (Quietly Releases) where
  toAckFrame := releases_ackFrame
  drop := dropIgnored_releases
  complete err _ hquiet := (completeCmd_serves hquiet err).releases
  data omap omap' h hquiet := by
    have hsettles := settles_of_dataAccess h hquiet
    obtain ⟨stat, rxFifo, sent, incoming, heard, cmdErr, rfl⟩ := h.same
    exact hsettles.toAcks.releases (Within.refl _)

end Released

end RadsatLinux.I2c.Quiet
