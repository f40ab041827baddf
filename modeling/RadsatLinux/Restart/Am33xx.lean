import Mathlib.Data.List.Basic
import Mathlib.Data.Set.Insert
import Mathlib.Logic.Function.Basic
import RadsatLinux.Library.Stateful

/-!
# The AM33xx restart handler

`arch/arm/mach-omap2/am33xx-restart.c` and the quiesce half of `i2c-omap.c` with patches
0006 and 0007 applied.  What a register read returns is an input: `values reg n` is the
result of the `n`th read of `reg`.  The constants that come from the kernel headers
(`AM33XX_IDLEST_MASK`, `AM33XX_MODULEMODE_MASK`, `SYSC_*`) have their documented values.
-/

namespace RadsatLinux.Restart.Am33xx

open RadsatLinux.Library.Stateful

abbrev U32 := BitVec 32

/-! ## Registers -/

inductive WdtReg where
  | wclr
  | wldr
  | wtgr
  | wwps
  | wspr
  deriving DecidableEq

inductive I2cReg where
  | ie
  | irqenableClr
  | con
  | oa
  | sysc
  deriving DecidableEq

/-- `AM33XX_CM_WKUP_WDT1_CLKCTRL`, `AM33XX_CM_PER_I2C1_CLKCTRL`,
`AM33XX_CM_PER_I2C2_CLKCTRL`, the watchdog and the registered I2C controllers. -/
inductive Reg where
  | wdt1Clkctrl
  | i2c1Clkctrl
  | i2c2Clkctrl
  | wdt (reg : WdtReg)
  | i2c (dev : Nat) (reg : I2cReg)
  deriving DecidableEq

def idlestMask : U32 := 0x30000
def modulemodeMask : U32 := 0x3

def wwpsWclr : U32 := 0x01
def wwpsWldr : U32 := 0x04
def wwpsWtgr : U32 := 0x08
def wwpsWspr : U32 := 0x10

def wdtLoad1s : U32 := 0xffffffff - 32768 + 1
def wdtPollSpins : Nat := 100000

inductive Access where
  | read (reg : Reg) (value : U32)
  | write (reg : Reg) (value : U32)
  deriving DecidableEq

def Access.reg : Access → Reg
  | read reg _ => reg
  | write reg _ => reg

/-- What the registers will return, how often each was read, what was done so far, and how
many accesses and `cpu_relax()` calls that were. -/
structure Machine where
  values : Reg → Nat → U32
  reads : Reg → Nat
  log : List Access
  steps : Nat

abbrev Cpu := StateM Machine

def readl (reg : Reg) : Cpu U32 := do
  let m ← get
  let value := m.values reg (m.reads reg)
  set { m with
    reads := Function.update m.reads reg (m.reads reg + 1)
    log := m.log ++ [Access.read reg value]
    steps := m.steps + 1 }
  return value

def writel (value : U32) (reg : Reg) : Cpu Unit :=
  modify fun m => { m with log := m.log ++ [Access.write reg value], steps := m.steps + 1 }

def cpuRelax : Cpu Unit :=
  modify fun m => { m with steps := m.steps + 1 }

/-! ## The source -/

/-- The loops of this file: read until `done`, at most `spins` times.  The last value read
is returned as well. -/
def poll (reg : Reg) (done : U32 → Bool) : Nat → U32 → Cpu (Bool × U32)
  | 0, val => return (false, val)
  | spins + 1, _ => do
      let val ← readl reg
      if done val then
        return (true, val)
      cpuRelax
      poll reg done spins val

def wdtWait (pend : U32) : Cpu Unit := do
  let _ ← poll (.wdt .wwps) (fun val => val &&& pend == 0) wdtPollSpins 0

def am33xxWdtClockOn : Cpu Bool := do
  let val ← readl .wdt1Clkctrl
  let val := val &&& ~~~ modulemodeMask ||| 0x2
  writel val .wdt1Clkctrl
  let (started, _) ← poll .wdt1Clkctrl (fun val => val &&& idlestMask == 0) wdtPollSpins val
  return started

/-- What `am33xx_arm_wdt` does once the clock runs: the sequence of `omap_wdt_start()`. -/
def omapWdtStart : Cpu Unit := do
  writel 0xaaaa (.wdt .wspr)
  wdtWait wwpsWspr
  writel 0x5555 (.wdt .wspr)
  wdtWait wwpsWspr
  wdtWait wwpsWclr
  writel (1 <<< 5 ||| 0 <<< 2) (.wdt .wclr)
  wdtWait wwpsWclr
  wdtWait wwpsWldr
  writel wdtLoad1s (.wdt .wldr)
  wdtWait wwpsWldr
  wdtWait wwpsWtgr
  writel (~~~ 0x1234) (.wdt .wtgr)
  wdtWait wwpsWtgr
  writel 0xbbbb (.wdt .wspr)
  wdtWait wwpsWspr
  writel 0x4444 (.wdt .wspr)
  wdtWait wwpsWspr

def am33xxArmWdt : Cpu Unit := do
  if !(← am33xxWdtClockOn) then
    return
  omapWdtStart

def idlest (val : U32) : U32 :=
  (val &&& idlestMask) >>> 16

def am33xxI2cIdleOne (clkctrl : Reg) : Cpu Bool := do
  let val ← readl clkctrl
  if 2 ≤ idlest val then
    return true
  let val := val &&& ~~~ modulemodeMask
  writel val clkctrl
  let (idle, val) ← poll clkctrl (fun val => 2 ≤ idlest val) 100000 val
  if idle then
    return true
  writel (val &&& ~~~ modulemodeMask ||| 0x2) clkctrl
  return false

def am33xxI2cIdle : Cpu Bool := do
  if !(← am33xxI2cIdleOne .i2c1Clkctrl) then
    return false
  if !(← am33xxI2cIdleOne .i2c2Clkctrl) then
    return false
  return true

/-- What the quiesce reads of `struct omap_i2c_dev`: whether `base` and `regs` are set, and
whether the controller is suspended. -/
structure RestartDev where
  mapped : Bool
  suspended : Bool
  scheme : Nat
  rev : Nat

/-- `OMAP_I2C_RESTART_MAX` -/
def omapI2cRestartMax : Nat := 4

/-- `omap_i2c_restart_devs` and `omap_i2c_restart_nr` -/
structure RestartDevs where
  devs : List RestartDev
  bound : devs.length ≤ omapI2cRestartMax

def RestartDevs.empty : RestartDevs where
  devs := []
  bound := Nat.zero_le _

def ipV2InterruptsMask : U32 := 0x6fff
def syscSidlemodeMask : U32 := 0x18
def syscEnawakeupMask : U32 := 0x4
def syscAutoidleMask : U32 := 0x1
def omapI2cOmap1Rev2 : Nat := 0x20

def omapI2cMaskInterrupts (index : Nat) (omap : RestartDev) : Cpu Unit :=
  if omap.scheme = 0 then
    writel 0 (.i2c index .ie)
  else
    writel ipV2InterruptsMask (.i2c index .irqenableClr)

def omapI2cForceIdle (index : Nat) : Cpu Unit := do
  writel 0 (.i2c index .oa)
  let sysc ← readl (.i2c index .sysc)
  let sysc := sysc &&& 0xffff
  let sysc := sysc &&& ~~~ (syscSidlemodeMask ||| syscEnawakeupMask) ||| syscAutoidleMask
  writel sysc (.i2c index .sysc)
  let _ ← readl (.i2c index .con)

def omapI2cQuiesceOne (index : Nat) (omap : RestartDev) : Cpu Unit := do
  if !omap.mapped then
    return
  if omap.suspended then
    return
  omapI2cMaskInterrupts index omap
  writel 0 (.i2c index .con)
  if omap.rev < omapI2cOmap1Rev2 then
    return
  omapI2cForceIdle index

def omapI2cQuiesceFrom : Nat → List RestartDev → Cpu Unit
  | _, [] => return
  | index, omap :: rest => do
      omapI2cQuiesceOne index omap
      omapI2cQuiesceFrom (index + 1) rest

/-- With no controller registered this is the empty weak version as well. -/
def omapI2cQuiesceForRestart (devs : RestartDevs) : Cpu Unit :=
  omapI2cQuiesceFrom 0 devs.devs

/-- Where `am33xx_restart` ends: in `omap_prm_reset_system()`, or in `while (1)`. -/
inductive Outcome where
  | prmReset
  | waits
  deriving DecidableEq

def am33xxRestart (devs : RestartDevs) : Cpu Outcome := do
  omapI2cQuiesceForRestart devs
  am33xxArmWdt
  if !(← am33xxI2cIdle) then
    return .waits
  return .prmReset

/-! ## What a piece of the source does to the registers -/

def writes (log : List Access) : List (Reg × U32) :=
  log.filterMap fun
    | .read _ _ => none
    | .write reg value => some (reg, value)

theorem writes_append (first second : List Access) :
    writes (first ++ second) = writes first ++ writes second :=
  List.filterMap_append

/-- From `m` to `m'` only registers in `regs` were touched, the writes were `ws`, and that
took at most `n` steps. -/
structure Runs (regs : Set Reg) (ws : List (Reg × U32)) (n : Nat) (m m' : Machine) : Prop where
  values : m'.values = m.values
  reads : ∀ reg, reg ∉ regs → m'.reads reg = m.reads reg
  log : ∃ added, m'.log = m.log ++ added ∧ writes added = ws ∧ ∀ a ∈ added, a.reg ∈ regs
  steps : m'.steps ≤ m.steps + n

variable {regs : Set Reg} {ws ws' : List (Reg × U32)} {n n' : Nat} {m m' m'' : Machine}

theorem Runs.refl : Runs regs [] 0 m m where
  values := rfl
  reads _ _ := rfl
  log := ⟨[], (List.append_nil _).symm, rfl, by simp⟩
  steps := Nat.le_refl _

theorem Runs.trans (first : Runs regs ws n m m') (second : Runs regs ws' n' m' m'') :
    Runs regs (ws ++ ws') (n + n') m m'' := by
  obtain ⟨added, hadded, hws, hregs⟩ := first.log
  obtain ⟨added', hadded', hws', hregs'⟩ := second.log
  refine ⟨second.values.trans first.values, ?_, ⟨added ++ added', ?_, ?_, ?_⟩, ?_⟩
  · intro reg hreg
    rw [second.reads reg hreg, first.reads reg hreg]
  · rw [hadded', hadded, List.append_assoc]
  · rw [writes_append, hws, hws']
  · intro a ha
    rcases List.mem_append.mp ha with ha | ha
    · exact hregs a ha
    · exact hregs' a ha
  · have hfirst := first.steps
    have hsecond := second.steps
    omega

theorem Runs.mono {regs' : Set Reg} (h : Runs regs ws n m m') (hregs : regs ⊆ regs')
    (hn : n ≤ n') : Runs regs' ws n' m m' := by
  obtain ⟨added, hadded, hws, hadded'⟩ := h.log
  refine ⟨h.values, ?_, ⟨added, hadded, hws, fun a ha => hregs (hadded' a ha)⟩, ?_⟩
  · intro reg hreg
    exact h.reads reg fun hmem => hreg (hregs hmem)
  · have hsteps := h.steps
    omega

theorem readl_runs {reg : Reg} (hreg : reg ∈ regs) (m : Machine) :
    Runs regs [] 1 m (readl reg m).2 where
  values := rfl
  reads other hother := by
    have hne : other ≠ reg := fun heq => hother (heq ▸ hreg)
    exact Function.update_of_ne hne _ _
  log := by
    refine ⟨[Access.read reg (m.values reg (m.reads reg))], rfl, rfl, ?_⟩
    intro a ha
    rw [List.mem_singleton.mp ha]
    exact hreg
  steps := Nat.le_refl _

theorem readl_reads (reg : Reg) (m : Machine) :
    (readl reg m).2.reads reg = m.reads reg + 1 := by
  change Function.update m.reads reg (m.reads reg + 1) reg = m.reads reg + 1
  rw [Function.update_self]

theorem writel_runs {reg : Reg} (hreg : reg ∈ regs) (value : U32) (m : Machine) :
    Runs regs [(reg, value)] 1 m (writel value reg m).2 where
  values := rfl
  reads _ _ := rfl
  log := by
    refine ⟨[Access.write reg value], rfl, rfl, ?_⟩
    intro a ha
    rw [List.mem_singleton.mp ha]
    exact hreg
  steps := Nat.le_refl _

theorem cpuRelax_runs (m : Machine) : Runs regs [] 1 m (cpuRelax m).2 where
  values := rfl
  reads _ _ := rfl
  log := ⟨[], (List.append_nil _).symm, rfl, by simp⟩
  steps := Nat.le_refl _

/-! ## The polls -/

theorem poll_succ (reg : Reg) (done : U32 → Bool) (spins : Nat) (val : U32) (m : Machine) :
    poll reg done (spins + 1) val m =
      if done (readl reg m).1 then ((true, (readl reg m).1), (readl reg m).2)
      else poll reg done spins (readl reg m).1 (cpuRelax (readl reg m).2).2 := by
  rw [poll, bind_apply]
  split <;> rfl

theorem poll_runs {reg : Reg} (hreg : reg ∈ regs) (done : U32 → Bool) (spins : Nat) (val : U32)
    (m : Machine) : Runs regs [] (2 * spins) m (poll reg done spins val m).2 := by
  induction spins generalizing val m with
  | zero => exact Runs.refl
  | succ spins ih =>
      have hread := readl_runs hreg m
      rw [poll_succ]
      split
      · exact hread.mono (Set.Subset.refl _) (by omega)
      · have hrelax := hread.trans (cpuRelax_runs (readl reg m).2)
        exact (hrelax.trans (ih _ _)).mono (Set.Subset.refl _) (by omega)

/-- A poll succeeds iff one of its reads does. -/
theorem poll_found (reg : Reg) (done : U32 → Bool) (spins : Nat) (val : U32) (m : Machine) :
    (poll reg done spins val m).1.1 = true ↔
      ∃ i < spins, done (m.values reg (m.reads reg + i)) = true := by
  induction spins generalizing val m with
  | zero =>
      constructor
      · intro h
        cases h
      · rintro ⟨i, hi, -⟩
        omega
  | succ spins ih =>
      have hvalue : (readl reg m).1 = m.values reg (m.reads reg + 0) := rfl
      have hreads : (cpuRelax (readl reg m).2).2.reads reg = m.reads reg + 1 :=
        readl_reads reg m
      rw [poll_succ]
      split
      · next hdone =>
          rw [hvalue] at hdone
          exact iff_of_true rfl ⟨0, Nat.succ_pos _, hdone⟩
      · next hdone =>
          rw [ih, hreads]
          constructor
          · rintro ⟨i, hi, hdone'⟩
            refine ⟨i + 1, by omega, ?_⟩
            rwa [← Nat.add_assoc, Nat.add_right_comm]
          · rintro ⟨i, hi, hdone'⟩
            cases i with
            | zero =>
                rw [hvalue] at hdone
                exact absurd hdone' hdone
            | succ i =>
                refine ⟨i, by omega, ?_⟩
                have hindex : m.reads reg + 1 + i = m.reads reg + (i + 1) := by omega
                rw [hindex]
                exact hdone'

/-- The read that ended a successful poll is in the log. -/
theorem poll_read {reg : Reg} {done : U32 → Bool} {spins : Nat} {val : U32} {m : Machine}
    (h : (poll reg done spins val m).1.1 = true) :
    ∃ added value, (poll reg done spins val m).2.log = m.log ++ added ∧
      Access.read reg value ∈ added ∧ done value = true := by
  induction spins generalizing val m with
  | zero => cases h
  | succ spins ih =>
      rw [poll_succ] at h ⊢
      split at h
      · next hdone =>
          rw [if_pos hdone]
          exact ⟨[Access.read reg (readl reg m).1], _, rfl, List.mem_singleton_self _, hdone⟩
      · next hdone =>
          rw [if_neg hdone]
          obtain ⟨added, value, hlog, hmem, hvalue⟩ := ih h
          refine ⟨Access.read reg (readl reg m).1 :: added, value, ?_,
            List.mem_cons_of_mem _ hmem, hvalue⟩
          rw [hlog]
          exact List.append_assoc _ _ _

/-! ## Composing runs -/

variable {α β : Type}

def Does (regs : Set Reg) (ws : List (Reg × U32)) (n : Nat) (c : Cpu α) : Prop :=
  ∀ m, Runs regs ws n m (c m).2

/-- The same where the writes depend on what is read. -/
def Within (regs : Set Reg) (n : Nat) (c : Cpu α) : Prop :=
  ∀ m, ∃ ws, Runs regs ws n m (c m).2

theorem Does.bind {c : Cpu α} {f : α → Cpu β} (hc : Does regs ws n c)
    (hf : ∀ a, Does regs ws' n' (f a)) : Does regs (ws ++ ws') (n + n') (c >>= f) :=
  fun m => (hc m).trans (hf _ _)

theorem Does.pure (a : α) : Does regs [] 0 (Pure.pure a : Cpu α) :=
  fun _ => Runs.refl

theorem Does.within {c : Cpu α} (h : Does regs ws n c) : Within regs n c :=
  fun m => ⟨ws, h m⟩

theorem Within.pure (a : α) : Within regs n (Pure.pure a : Cpu α) :=
  fun _ => ⟨[], Runs.refl.mono (Set.Subset.refl _) (Nat.zero_le _)⟩

theorem Within.bind {c : Cpu α} {f : α → Cpu β} (hc : Within regs n c)
    (hf : ∀ a, Within regs n' (f a)) : Within regs (n + n') (c >>= f) := by
  intro m
  obtain ⟨ws, hws⟩ := hc m
  obtain ⟨ws', hws'⟩ := hf (c m).1 (c m).2
  exact ⟨ws ++ ws', hws.trans hws'⟩

theorem Within.ite {p : Prop} [Decidable p] {c c' : Cpu α} (hc : Within regs n c)
    (hc' : Within regs n c') : Within regs n (if p then c else c') := by
  split
  · exact hc
  · exact hc'

theorem Within.mono {regs' : Set Reg} {c : Cpu α} (h : Within regs n c) (hregs : regs ⊆ regs')
    (hn : n ≤ n') : Within regs' n' c := by
  intro m
  obtain ⟨ws, hws⟩ := h m
  exact ⟨ws, hws.mono hregs hn⟩

theorem readl_within {reg : Reg} (hreg : reg ∈ regs) : Within regs 1 (readl reg) :=
  fun m => ⟨[], readl_runs hreg m⟩

theorem writel_does {reg : Reg} (hreg : reg ∈ regs) (value : U32) :
    Does regs [(reg, value)] 1 (writel value reg) :=
  writel_runs hreg value

theorem poll_does {reg : Reg} (hreg : reg ∈ regs) (done : U32 → Bool) (spins : Nat)
    (val : U32) : Does regs [] (2 * spins) (poll reg done spins val) :=
  poll_runs hreg done spins val

/-! ## The watchdog -/

def wdtRegs : Set Reg :=
  Set.range Reg.wdt

theorem wdtWait_does (pend : U32) : Does wdtRegs [] (2 * wdtPollSpins) (wdtWait pend) :=
  (poll_does (Set.mem_range_self WdtReg.wwps) (fun val => val &&& pend == 0) wdtPollSpins
    0).bind fun _ => Does.pure ()

def wdtWrites (log : List Access) : List (Reg × U32) :=
  (writes log).filter fun
    | (.wdt _, _) => true
    | _ => false

theorem wdtWrites_append (first second : List Access) :
    wdtWrites (first ++ second) = wdtWrites first ++ wdtWrites second := by
  unfold wdtWrites
  rw [writes_append, List.filter_append]

theorem wdtWrites_eq_nil {log : List Access} (h : ∀ a ∈ log, a.reg ∉ wdtRegs) :
    wdtWrites log = [] := by
  induction log with
  | nil => rfl
  | cons a rest ih =>
      have hrest := ih fun b hb => h b (List.mem_cons_of_mem _ hb)
      have ha := h a List.mem_cons_self
      rw [← List.singleton_append, wdtWrites_append, hrest, List.append_nil]
      cases a with
      | read reg value => rfl
      | write reg value =>
          cases reg with
          | wdt reg => exact absurd (Set.mem_range_self reg) ha
          | _ => rfl

/-- The writes that stop a running watchdog. -/
def stopSequence : List (Reg × U32) :=
  [(.wdt .wspr, 0xaaaa), (.wdt .wspr, 0x5555), (.wdt .wclr, 0x20)]

/-- Load, trigger, and the two words that start it. -/
def startSequence : List (Reg × U32) :=
  [(.wdt .wldr, wdtLoad1s), (.wdt .wtgr, ~~~ 0x1234), (.wdt .wspr, 0xbbbb),
    (.wdt .wspr, 0x4444)]

theorem omapWdtStart_does :
    Does wdtRegs (stopSequence ++ startSequence) (7 + 10 * (2 * wdtPollSpins))
      omapWdtStart := by
  have hmem (reg : WdtReg) : Reg.wdt reg ∈ wdtRegs := Set.mem_range_self reg
  have hsequence :=
    (writel_does (hmem .wspr) 0xaaaa).bind fun _ =>
    (wdtWait_does wwpsWspr).bind fun _ =>
    (writel_does (hmem .wspr) 0x5555).bind fun _ =>
    (wdtWait_does wwpsWspr).bind fun _ =>
    (wdtWait_does wwpsWclr).bind fun _ =>
    (writel_does (hmem .wclr) (1 <<< 5 ||| 0 <<< 2)).bind fun _ =>
    (wdtWait_does wwpsWclr).bind fun _ =>
    (wdtWait_does wwpsWldr).bind fun _ =>
    (writel_does (hmem .wldr) wdtLoad1s).bind fun _ =>
    (wdtWait_does wwpsWldr).bind fun _ =>
    (wdtWait_does wwpsWtgr).bind fun _ =>
    (writel_does (hmem .wtgr) (~~~ 0x1234)).bind fun _ =>
    (wdtWait_does wwpsWtgr).bind fun _ =>
    (writel_does (hmem .wspr) 0xbbbb).bind fun _ =>
    (wdtWait_does wwpsWspr).bind fun _ =>
    (writel_does (hmem .wspr) 0x4444).bind fun _ =>
    wdtWait_does wwpsWspr
  exact hsequence

/-- `MODULEMODE` was set to enabled and `IDLEST` was read as functional after that. -/
def ClockOn (log : List Access) : Prop :=
  ∃ before enable during functional,
    log = before ++ Access.write .wdt1Clkctrl enable :: during ∧
    enable &&& modulemodeMask = 2 ∧
    (∀ value, Access.write .wdt1Clkctrl value ∉ during) ∧
    Access.read .wdt1Clkctrl functional ∈ during ∧ functional &&& idlestMask = 0

/-- The start sequence was the last thing written to the watchdog, with its clock on. -/
def Armed (log : List Access) : Prop :=
  ∃ before after, log = before ++ after ∧ ClockOn before ∧
    (∀ value, Access.write .wdt1Clkctrl value ∉ after) ∧ startSequence <:+ wdtWrites after

theorem am33xxWdtClockOn_eq (m : Machine) :
    am33xxWdtClockOn m =
      let val := (readl .wdt1Clkctrl m).1 &&& ~~~ modulemodeMask ||| 0x2
      let polled := poll .wdt1Clkctrl (fun val => val &&& idlestMask == 0) wdtPollSpins val
        (writel val .wdt1Clkctrl (readl .wdt1Clkctrl m).2).2
      (polled.1.1, polled.2) :=
  rfl

theorem am33xxWdtClockOn_within :
    Within {Reg.wdt1Clkctrl} (2 + 2 * wdtPollSpins) am33xxWdtClockOn := by
  have hmem := Set.mem_singleton Reg.wdt1Clkctrl
  have hsequence := (readl_within hmem).bind fun val =>
    (writel_does hmem (val &&& ~~~ modulemodeMask ||| 0x2)).within.bind fun _ =>
    (poll_does hmem (fun val => val &&& idlestMask == 0) wdtPollSpins
      (val &&& ~~~ modulemodeMask ||| 0x2)).within.bind fun polled =>
    (Within.pure polled.1 : Within _ 0 _)
  exact hsequence.mono (Set.Subset.refl _) (by omega)

theorem am33xxWdtClockOn_iff (m : Machine) :
    (am33xxWdtClockOn m).1 = true ↔
      ∃ i < wdtPollSpins,
        m.values .wdt1Clkctrl (m.reads .wdt1Clkctrl + 1 + i) &&& idlestMask = 0 := by
  have hreads := readl_reads .wdt1Clkctrl m
  rw [am33xxWdtClockOn_eq]
  refine (poll_found _ _ _ _ _).trans ?_
  simp only [beq_iff_eq]
  rw [← hreads]
  exact Iff.rfl

theorem enabled_modulemode (val : U32) :
    (val &&& ~~~ modulemodeMask ||| 0x2) &&& modulemodeMask = 2 := by
  have hzero : val &&& ~~~ modulemodeMask &&& modulemodeMask = 0 := by
    rw [BitVec.and_assoc, BitVec.and_comm (~~~ modulemodeMask)]
    simp
  rw [BitVec.and_comm, BitVec.and_or_distrib_left, BitVec.and_comm modulemodeMask, hzero]
  rfl

/-- When the clock came up, the log shows it. -/
theorem am33xxWdtClockOn_clockOn {m : Machine} (h : (am33xxWdtClockOn m).1 = true) :
    ClockOn (am33xxWdtClockOn m).2.log := by
  rw [am33xxWdtClockOn_eq] at h ⊢
  obtain ⟨during, functional, hlog, hmem, hdone⟩ := poll_read h
  have hruns := poll_runs (Set.mem_singleton Reg.wdt1Clkctrl)
    (fun val => val &&& idlestMask == 0) wdtPollSpins
    ((readl .wdt1Clkctrl m).1 &&& ~~~ modulemodeMask ||| 0x2)
    (writel ((readl .wdt1Clkctrl m).1 &&& ~~~ modulemodeMask ||| 0x2) .wdt1Clkctrl
      (readl .wdt1Clkctrl m).2).2
  obtain ⟨added, hadded, hwrites, -⟩ := hruns.log
  have hsame : during = added := List.append_cancel_left (hlog.symm.trans hadded)
  refine ⟨(readl .wdt1Clkctrl m).2.log, _, during, functional, ?_,
    enabled_modulemode (readl .wdt1Clkctrl m).1, ?_, hmem, by simpa using hdone⟩
  · rw [hlog]
    exact List.append_assoc _ _ _
  · intro value hvalue
    have hwrite : (Reg.wdt1Clkctrl, value) ∈ writes during :=
      List.mem_filterMap.mpr ⟨_, hvalue, rfl⟩
    rw [hsame, hwrites] at hwrite
    cases hwrite

theorem am33xxArmWdt_eq (m : Machine) :
    (am33xxArmWdt m).2 =
      if (am33xxWdtClockOn m).1 then (omapWdtStart (am33xxWdtClockOn m).2).2
      else (am33xxWdtClockOn m).2 := by
  rw [am33xxArmWdt, bind_apply]
  generalize am33xxWdtClockOn m = clock
  obtain ⟨started, m'⟩ := clock
  cases started with
  | true => simp only [Bool.not_true, Bool.false_eq_true, if_false, if_true]
  | false =>
      simp only [Bool.not_false, Bool.false_eq_true, if_false, if_true]
      rfl

/-! ## The I2C controllers -/

theorem am33xxI2cIdleOne_within (clkctrl : Reg) :
    Within {clkctrl} (3 + 2 * 100000) (am33xxI2cIdleOne clkctrl) := by
  have hmem := Set.mem_singleton clkctrl
  have henable (val : U32) := (writel_does hmem (val &&& ~~~ modulemodeMask ||| 0x2)).within.bind
    fun _ => (Within.pure false : Within _ 0 _)
  have hsequence : Within {clkctrl} (1 + (1 + (2 * 100000 + (1 + 0))))
      (am33xxI2cIdleOne clkctrl) :=
    (readl_within hmem).bind fun val => Within.ite (Within.pure true) <|
      (writel_does hmem (val &&& ~~~ modulemodeMask)).within.bind fun _ =>
      (poll_does hmem (fun val => 2 ≤ idlest val) 100000
        (val &&& ~~~ modulemodeMask)).within.bind fun polled =>
      Within.ite (Within.pure true) (henable polled.2)
  exact hsequence.mono (Set.Subset.refl _) (by omega)

theorem am33xxI2cIdleOne_eq (clkctrl : Reg) (m : Machine) :
    (am33xxI2cIdleOne clkctrl m).1 =
      if 2 ≤ idlest (readl clkctrl m).1 then true
      else (poll clkctrl (fun val => 2 ≤ idlest val) 100000
        ((readl clkctrl m).1 &&& ~~~ modulemodeMask)
        (writel ((readl clkctrl m).1 &&& ~~~ modulemodeMask) clkctrl
          (readl clkctrl m).2).2).1.1 := by
  rw [am33xxI2cIdleOne, bind_apply]
  split
  · rfl
  · rw [bind_apply, bind_apply]
    generalize poll clkctrl (fun val => 2 ≤ idlest val) 100000
      ((readl clkctrl m).1 &&& ~~~ modulemodeMask)
      (writel ((readl clkctrl m).1 &&& ~~~ modulemodeMask) clkctrl (readl clkctrl m).2).2 = polled
    obtain ⟨⟨idle, val⟩, m'⟩ := polled
    cases idle <;> rfl

/-- One of its first read and its polls shows the module idle or disabled. -/
theorem am33xxI2cIdleOne_iff (clkctrl : Reg) (m : Machine) :
    (am33xxI2cIdleOne clkctrl m).1 = true ↔
      ∃ i ≤ 100000, 2 ≤ idlest (m.values clkctrl (m.reads clkctrl + i)) := by
  have hfirst : (readl clkctrl m).1 = m.values clkctrl (m.reads clkctrl + 0) := rfl
  have hreads := readl_reads clkctrl m
  rw [am33xxI2cIdleOne_eq]
  split
  · next hidle => exact iff_of_true rfl ⟨0, Nat.zero_le _, hfirst ▸ hidle⟩
  · next hidle =>
      refine (poll_found _ _ _ _ _).trans ?_
      simp only [decide_eq_true_eq]
      constructor
      · rintro ⟨i, hi, hidle'⟩
        refine ⟨i + 1, hi, ?_⟩
        rw [Nat.add_comm i, ← Nat.add_assoc, ← hreads]
        exact hidle'
      · rintro ⟨i, hi, hidle'⟩
        cases i with
        | zero => exact absurd (hfirst ▸ hidle') hidle
        | succ i =>
            refine ⟨i, hi, ?_⟩
            rw [Nat.add_comm i, ← Nat.add_assoc, ← hreads] at hidle'
            exact hidle'

def clkctrlRegs : Set Reg :=
  {.i2c1Clkctrl, .i2c2Clkctrl}

theorem am33xxI2cIdle_within : Within clkctrlRegs (2 * (3 + 2 * 100000)) am33xxI2cIdle := by
  have hone : Within clkctrlRegs (3 + 2 * 100000) (am33xxI2cIdleOne .i2c1Clkctrl) :=
    (am33xxI2cIdleOne_within .i2c1Clkctrl).mono (by simp [clkctrlRegs]) (Nat.le_refl _)
  have htwo : Within clkctrlRegs (3 + 2 * 100000) (am33xxI2cIdleOne .i2c2Clkctrl) :=
    (am33xxI2cIdleOne_within .i2c2Clkctrl).mono (by simp [clkctrlRegs]) (Nat.le_refl _)
  have hsequence : Within clkctrlRegs (3 + 2 * 100000 + (3 + 2 * 100000 + 0)) am33xxI2cIdle :=
    hone.bind fun _ => Within.ite (Within.pure false) <| htwo.bind fun _ =>
      Within.ite (Within.pure false) (Within.pure true)
  exact hsequence.mono (Set.Subset.refl _) (by omega)

theorem am33xxI2cIdle_iff (m : Machine) :
    (am33xxI2cIdle m).1 = true ↔
      (∃ i ≤ 100000, 2 ≤ idlest (m.values .i2c1Clkctrl (m.reads .i2c1Clkctrl + i))) ∧
      ∃ i ≤ 100000, 2 ≤ idlest (m.values .i2c2Clkctrl (m.reads .i2c2Clkctrl + i)) := by
  obtain ⟨ws, hruns⟩ := am33xxI2cIdleOne_within .i2c1Clkctrl m
  have hreads := hruns.reads .i2c2Clkctrl (by simp)
  have hfirst := am33xxI2cIdleOne_iff .i2c1Clkctrl m
  have hsecond := am33xxI2cIdleOne_iff .i2c2Clkctrl (am33xxI2cIdleOne .i2c1Clkctrl m).2
  rw [hruns.values, hreads] at hsecond
  rw [← hfirst, ← hsecond, am33xxI2cIdle, bind_apply]
  cases h1 : (am33xxI2cIdleOne .i2c1Clkctrl m).1 with
  | false =>
      constructor
      · intro h
        cases h
      · rintro ⟨h, -⟩
        cases h
  | true =>
      rw [if_neg (by simp), bind_apply]
      cases h2 : (am33xxI2cIdleOne .i2c2Clkctrl (am33xxI2cIdleOne .i2c1Clkctrl m).2).1 with
      | false =>
          constructor
          · intro h
            cases h
          · rintro ⟨-, h⟩
            cases h
      | true => exact iff_of_true rfl ⟨rfl, rfl⟩

/-! ## The quiesce -/

def quiesceRegs : Set Reg :=
  {reg | ∃ dev i2c, reg = .i2c dev i2c}

theorem i2c_mem_quiesceRegs (index : Nat) (reg : I2cReg) : Reg.i2c index reg ∈ quiesceRegs :=
  ⟨index, reg, rfl⟩

theorem omapI2cMaskInterrupts_within (index : Nat) (omap : RestartDev) :
    Within quiesceRegs 1 (omapI2cMaskInterrupts index omap) :=
  Within.ite (writel_does (i2c_mem_quiesceRegs index _) _).within
    (writel_does (i2c_mem_quiesceRegs index _) _).within

theorem omapI2cForceIdle_within (index : Nat) :
    Within quiesceRegs 4 (omapI2cForceIdle index) := by
  have hmem := i2c_mem_quiesceRegs index
  have hsequence := (writel_does (hmem .oa) 0).within.bind fun _ =>
    (readl_within (hmem .sysc)).bind fun sysc =>
    (writel_does (hmem .sysc) (sysc &&& 0xffff &&& ~~~ (syscSidlemodeMask ||| syscEnawakeupMask)
      ||| syscAutoidleMask)).within.bind fun _ =>
    (readl_within (hmem .con)).bind fun _ => (Within.pure () : Within _ 0 _)
  exact hsequence

theorem omapI2cQuiesceOne_within (index : Nat) (omap : RestartDev) :
    Within quiesceRegs 6 (omapI2cQuiesceOne index omap) := by
  have hcon := (writel_does (i2c_mem_quiesceRegs index .con) 0).within
  have hsequence : Within quiesceRegs (1 + (1 + 4)) (omapI2cQuiesceOne index omap) :=
    Within.ite (Within.pure ()) <| Within.ite (Within.pure ()) <|
      (omapI2cMaskInterrupts_within index omap).bind fun _ => hcon.bind fun _ =>
      Within.ite (Within.pure ()) (omapI2cForceIdle_within index)
  exact hsequence

theorem omapI2cQuiesceFrom_within (index : Nat) (devs : List RestartDev) :
    Within quiesceRegs (6 * devs.length) (omapI2cQuiesceFrom index devs) := by
  induction devs generalizing index with
  | nil => exact Within.pure ()
  | cons omap rest ih =>
      refine ((omapI2cQuiesceOne_within index omap).bind fun _ => ih (index + 1)).mono
        (Set.Subset.refl _) ?_
      rw [List.length_cons]
      omega

theorem omapI2cQuiesceForRestart_within (devs : RestartDevs) :
    Within quiesceRegs (6 * omapI2cRestartMax) (omapI2cQuiesceForRestart devs) :=
  (omapI2cQuiesceFrom_within 0 devs.devs).mono (Set.Subset.refl _)
    (Nat.mul_le_mul_left 6 devs.bound)

/-! ## The restart -/

def start (values : Reg → Nat → U32) : Machine where
  values := values
  reads _ := 0
  log := []
  steps := 0

section Restart

variable (values : Reg → Nat → U32) (devs : RestartDevs)

/-- The machine when the watchdog is to be armed, once that was tried, and at the end. -/
def quiesced : Machine :=
  (omapI2cQuiesceForRestart devs (start values)).2

def armed : Machine :=
  (am33xxArmWdt (quiesced values devs)).2

def final : Machine :=
  (am33xxRestart devs (start values)).2

def outcome : Outcome :=
  (am33xxRestart devs (start values)).1

/-- After the read that precedes the enable, one of the polls of the WDT1 clock control
shows the module functional. -/
def WdtStarts : Prop :=
  ∃ i < wdtPollSpins, values .wdt1Clkctrl (1 + i) &&& idlestMask = 0

def I2cIdles (clkctrl : Reg) : Prop :=
  ∃ i ≤ 100000, 2 ≤ idlest (values clkctrl i)

def restartSteps : Nat :=
  6 * omapI2cRestartMax + (2 + 2 * wdtPollSpins + (7 + 10 * (2 * wdtPollSpins))) +
    2 * (3 + 2 * 100000)

variable {values devs}

theorem quiesced_runs :
    ∃ ws, Runs quiesceRegs ws (6 * omapI2cRestartMax) (start values) (quiesced values devs) :=
  omapI2cQuiesceForRestart_within devs (start values)

theorem wdtClockOn_iff :
    (am33xxWdtClockOn (quiesced values devs)).1 = true ↔ WdtStarts values := by
  obtain ⟨ws, hruns⟩ := @quiesced_runs values devs
  have hreads := hruns.reads .wdt1Clkctrl (by simp [quiesceRegs])
  have hzero : (start values).reads .wdt1Clkctrl = 0 := rfl
  have hvalues : (start values).values = values := rfl
  have hiff := am33xxWdtClockOn_iff (quiesced values devs)
  simp only [hruns.values, hreads, hzero, hvalues, Nat.zero_add] at hiff
  exact hiff

theorem armed_of_clock (h : (am33xxWdtClockOn (quiesced values devs)).1 = true) :
    armed values devs = (omapWdtStart (am33xxWdtClockOn (quiesced values devs)).2).2 := by
  unfold armed
  rw [am33xxArmWdt_eq, if_pos h]

theorem armed_of_no_clock (h : (am33xxWdtClockOn (quiesced values devs)).1 = false) :
    armed values devs = (am33xxWdtClockOn (quiesced values devs)).2 := by
  unfold armed
  rw [am33xxArmWdt_eq, h, if_neg Bool.false_ne_true]

/-- The registers that are touched until the watchdog is armed, and the time it takes. -/
theorem armed_runs :
    ∃ ws, Runs ({.wdt1Clkctrl} ∪ wdtRegs)
      ws (2 + 2 * wdtPollSpins + (7 + 10 * (2 * wdtPollSpins)))
      (quiesced values devs) (armed values devs) := by
  obtain ⟨ws, hclock⟩ := am33xxWdtClockOn_within (quiesced values devs)
  cases h : (am33xxWdtClockOn (quiesced values devs)).1 with
  | true =>
      rw [armed_of_clock h]
      have hfirst := hclock.mono (Set.subset_union_left (t := wdtRegs)) (Nat.le_refl _)
      have hstart := (omapWdtStart_does (am33xxWdtClockOn (quiesced values devs)).2).mono
        (Set.subset_union_right (s := {Reg.wdt1Clkctrl})) (Nat.le_refl _)
      exact ⟨_, hfirst.trans hstart⟩
  | false =>
      rw [armed_of_no_clock h]
      exact ⟨ws, hclock.mono Set.subset_union_left (Nat.le_add_right _ _)⟩

theorem final_eq : final values devs = (am33xxI2cIdle (armed values devs)).2 := by
  have hbind : am33xxRestart devs (start values) =
      (if !(am33xxI2cIdle (armed values devs)).1 then (return .waits) else (return .prmReset) :
        Cpu Outcome) (am33xxI2cIdle (armed values devs)).2 := rfl
  unfold final
  rw [hbind]
  split <;> rfl

theorem outcome_eq :
    outcome values devs = if (am33xxI2cIdle (armed values devs)).1 then .prmReset else .waits := by
  have hbind : am33xxRestart devs (start values) =
      (if !(am33xxI2cIdle (armed values devs)).1 then (return .waits) else (return .prmReset) :
        Cpu Outcome) (am33xxI2cIdle (armed values devs)).2 := rfl
  unfold outcome
  rw [hbind]
  cases (am33xxI2cIdle (armed values devs)).1 <;> rfl

/-- Whatever the registers return, `am33xx_restart` comes to its end. -/
theorem final_steps_le : (final values devs).steps ≤ restartSteps := by
  obtain ⟨ws, hquiesced⟩ := @quiesced_runs values devs
  obtain ⟨ws', harmed⟩ := @armed_runs values devs
  obtain ⟨ws'', hidle⟩ := am33xxI2cIdle_within (armed values devs)
  rw [← final_eq] at hidle
  calc (final values devs).steps
      ≤ (armed values devs).steps + 2 * (3 + 2 * 100000) := hidle.steps
    _ ≤ (quiesced values devs).steps +
          (2 + 2 * wdtPollSpins + (7 + 10 * (2 * wdtPollSpins))) + 2 * (3 + 2 * 100000) :=
        Nat.add_le_add_right harmed.steps _
    _ ≤ 0 + 6 * omapI2cRestartMax + (2 + 2 * wdtPollSpins + (7 + 10 * (2 * wdtPollSpins))) +
          2 * (3 + 2 * 100000) :=
        Nat.add_le_add_right (Nat.add_le_add_right hquiesced.steps _) _
    _ = restartSteps := by
        unfold restartSteps
        rw [Nat.zero_add]

/-- It requests the warm reset exactly when both controllers go idle. -/
theorem outcome_eq_prmReset_iff :
    outcome values devs = .prmReset ↔
      I2cIdles values .i2c1Clkctrl ∧ I2cIdles values .i2c2Clkctrl := by
  obtain ⟨ws, hquiesced⟩ := @quiesced_runs values devs
  obtain ⟨ws', harmed⟩ := @armed_runs values devs
  have hvalues : (armed values devs).values = values := harmed.values.trans hquiesced.values
  have hreads (clkctrl : Reg) (hclkctrl : clkctrl ∈ clkctrlRegs) :
      (armed values devs).reads clkctrl = 0 := by
    rcases hclkctrl with rfl | rfl
    all_goals
      rw [harmed.reads _ (by simp [wdtRegs]), hquiesced.reads _ (by simp [quiesceRegs])]
      rfl
  have hiff := am33xxI2cIdle_iff (armed values devs)
  rw [hvalues, hreads .i2c1Clkctrl (by simp [clkctrlRegs]),
    hreads .i2c2Clkctrl (by simp [clkctrlRegs])] at hiff
  simp only [Nat.zero_add] at hiff
  rw [outcome_eq]
  refine Iff.trans ?_ hiff
  cases (am33xxI2cIdle (armed values devs)).1 <;> simp

/-- With its clock up, the watchdog is armed and stays armed. -/
theorem armed_of_wdtStarts (h : WdtStarts values) : Armed (final values devs).log := by
  have hclock := (@wdtClockOn_iff values devs).mpr h
  have hstart := omapWdtStart_does (am33xxWdtClockOn (quiesced values devs)).2
  rw [← armed_of_clock hclock] at hstart
  obtain ⟨ws, hidle⟩ := am33xxI2cIdle_within (armed values devs)
  rw [← final_eq] at hidle
  obtain ⟨sequence, hsequence, hwrites, hregs⟩ := hstart.log
  obtain ⟨rest, hrest, -, hrestRegs⟩ := hidle.log
  refine ⟨(am33xxWdtClockOn (quiesced values devs)).2.log, sequence ++ rest, ?_,
    am33xxWdtClockOn_clockOn hclock, ?_, ?_⟩
  · rw [hrest, hsequence, List.append_assoc]
  · intro value hmem
    rcases List.mem_append.mp hmem with hmem | hmem
    · have hreg := hregs _ hmem
      simp [Access.reg, wdtRegs] at hreg
    · have hreg := hrestRegs _ hmem
      simp [Access.reg, clkctrlRegs] at hreg
  · have hnone : wdtWrites rest = [] := by
      refine wdtWrites_eq_nil fun a ha hreg => ?_
      obtain ⟨reg, hreg⟩ := hreg
      have hclkctrl := hrestRegs a ha
      rw [← hreg] at hclkctrl
      simp [clkctrlRegs] at hclkctrl
    rw [wdtWrites_append, hnone, List.append_nil]
    unfold wdtWrites
    rw [hwrites]
    exact ⟨stopSequence, rfl⟩

/-- Without it, nothing is written to the watchdog at all. -/
theorem wdtWrites_eq_nil_of_not_wdtStarts (h : ¬ WdtStarts values) :
    wdtWrites (final values devs).log = [] := by
  have hclock : (am33xxWdtClockOn (quiesced values devs)).1 = false := by
    rw [← Bool.not_eq_true]
    exact fun hon => h (wdtClockOn_iff.mp hon)
  obtain ⟨ws, hquiesced⟩ := @quiesced_runs values devs
  obtain ⟨ws', hclockOn⟩ := am33xxWdtClockOn_within (quiesced values devs)
  rw [← armed_of_no_clock hclock] at hclockOn
  obtain ⟨ws'', hidle⟩ := am33xxI2cIdle_within (armed values devs)
  rw [← final_eq] at hidle
  obtain ⟨first, hfirst, -, hfirstRegs⟩ := hquiesced.log
  obtain ⟨second, hsecond, -, hsecondRegs⟩ := hclockOn.log
  obtain ⟨third, hthird, -, hthirdRegs⟩ := hidle.log
  rw [hthird, hsecond, hfirst]
  refine wdtWrites_eq_nil fun a ha hreg => ?_
  obtain ⟨reg, hreg⟩ := hreg
  rcases List.mem_append.mp ha with ha | ha
  · rcases List.mem_append.mp ha with ha | ha
    · rcases List.mem_append.mp ha with ha | ha
      · cases ha
      · obtain ⟨dev, i2c, hi2c⟩ := hfirstRegs a ha
        rw [← hreg] at hi2c
        cases hi2c
    · have hmem := hsecondRegs a ha
      rw [← hreg] at hmem
      cases hmem
  · have hmem := hthirdRegs a ha
    rw [← hreg] at hmem
    simp [clkctrlRegs] at hmem

theorem armed_iff_wdtStarts : Armed (final values devs).log ↔ WdtStarts values := by
  constructor
  · rintro ⟨before, after, hlog, -, -, hsequence⟩
    by_contra h
    have hnil := @wdtWrites_eq_nil_of_not_wdtStarts values devs h
    rw [hlog, wdtWrites_append] at hnil
    rw [(List.append_eq_nil_iff.mp hnil).2] at hsequence
    have hempty := List.suffix_nil.mp hsequence
    cases hempty
  · exact armed_of_wdtStarts

variable (values devs)

/-- What a restart may rely on: it ends, in the reset or in a wait on an armed watchdog. -/
structure SafeRestart : Prop where
  bounded : (final values devs).steps ≤ restartSteps
  reset_or_armed : outcome values devs = .prmReset ∨
    outcome values devs = .waits ∧ Armed (final values devs).log
  clock_on : outcome values devs = .waits →
    (am33xxWdtClockOn (quiesced values devs)).1 = true

/-- `am33xx_restart` waits on an unarmed watchdog when the clock of WDT1 does not start and
one of the controllers does not go idle, and only then. -/
theorem safeRestart_iff :
    SafeRestart values devs ↔
      WdtStarts values ∨ I2cIdles values .i2c1Clkctrl ∧ I2cIdles values .i2c2Clkctrl := by
  rw [← @outcome_eq_prmReset_iff values devs]
  constructor
  · rintro ⟨-, hreset | ⟨-, harmed⟩, -⟩
    · exact Or.inr hreset
    · exact Or.inl (armed_iff_wdtStarts.mp harmed)
  · intro h
    refine ⟨final_steps_le, ?_, ?_⟩
    · cases houtcome : outcome values devs with
      | prmReset => exact Or.inl rfl
      | waits =>
          rcases h with hstarts | hreset
          · exact Or.inr ⟨rfl, armed_of_wdtStarts hstarts⟩
          · exact absurd (houtcome.symm.trans hreset) (by decide)
    · intro houtcome
      rcases h with hstarts | hreset
      · exact wdtClockOn_iff.mpr hstarts
      · exact absurd (houtcome.symm.trans hreset) (by decide)

end Restart

/-- Every register reads zero but WDT1's clock control, which stays in transition: the clock
does not start, I2C1 stays functional, and the restart waits forever with nothing armed. -/
theorem not_safeRestart :
    ¬ SafeRestart (fun reg _ => if reg = .wdt1Clkctrl then 0x10000 else 0) RestartDevs.empty := by
  rintro ⟨-, hreset | ⟨-, harmed⟩, -⟩
  · obtain ⟨⟨i, -, h⟩, -⟩ := outcome_eq_prmReset_iff.mp hreset
    exact absurd h (show ¬ 2 ≤ idlest 0 by decide)
  · obtain ⟨i, -, h⟩ := armed_iff_wdtStarts.mp harmed
    exact absurd h (show ¬ (0x10000 &&& idlestMask : U32) = 0 by decide)

end RadsatLinux.Restart.Am33xx
