import RadsatLinux.Library.Schedule
import RadsatLinux.Restart.Am33xx

/-!
# From `reboot` to the reset

`/sbin/reboot` runs `flush-filesystems` and forces the system call.  A command may sit in state D
forever, where no signal ends it, so the watchdog is armed before any of them.  Times are in
seconds.
-/

namespace RadsatLinux.Restart.Reboot

open RadsatLinux.Library.Schedule RadsatLinux.Restart.Am33xx

/-! ## Commands -/

/-- How long a command runs if it ends by itself, and whether SIGKILL ends it. -/
structure Fate where
  takes : Option Nat
  killable : Bool

inductive Command where
  | mkdirRun
  | touchShuttingDown
  | killallMonit
  | armWatchdog
  | sync
  | umount (dir : String)
  | rcK
  | killall5 (signal : Nat)
  | swapoff
  | umountAll
  deriving DecidableEq

inductive Step where
  | plain (command : Command)
  | bounded (secs : Nat) (command : Command)
  | sleep (secs : Nat)
  deriving DecidableEq

/-- When the shell goes on.  `timeout -s KILL` waits for what it has killed. -/
def Step.returns : Step → Fate → Option Nat
  | .plain _, fate => fate.takes
  | .sleep secs, _ => some secs
  | .bounded secs _, fate =>
      match fate.takes with
      | some t => if t ≤ secs ∨ fate.killable = false then some t else some secs
      | none => if fate.killable then some secs else none

/-! ## The scripts -/

structure Watchdog where
  name : String
  present : Bool
  driver : Option String

/-- What the scripts find: the words of each line of /proc/self/status, programs, files, the
entries of /sys/class/watchdog in order, and which device files open. -/
structure Userland where
  status : List (List String)
  executable : String → Bool
  isFile : String → Bool
  watchdogs : List Watchdog
  opens : String → Bool

namespace Userland

variable (u : Userland)

/-- `euid` -/
def euid : String :=
  match u.status.find? fun line => line.head? == some "Uid:" with
  | some line => line.getD 2 ""
  | none => ""

/-- `best` -/
def best : Option String :=
  (u.watchdogs.find? fun w => w.present && w.driver == some "omap_wdt").map fun w =>
    "/dev/" ++ w.name

/-- Opened and closed without the magic character, the watchdog runs. -/
def arms : Bool := u.best.any u.opens

/-- `[ -n "$TIMEOUT" ]` -/
def hasTimeout : Bool := u.executable "/usr/bin/timeout" || u.executable "/bin/timeout"

def runBounded (secs : Nat) (program : String) (command : Command) : List Step :=
  if !u.executable program && !u.isFile program then []
  else if u.hasTimeout then [.bounded secs command]
  else [.plain command]

/-- `KILLALL5` -/
def killall5 : Option String :=
  ["/usr/sbin/killall5", "/sbin/killall5", "/usr/bin/killall5", "/bin/killall5"].find? u.executable

/-- `flush-filesystems` up to `arm_watchdog` -/
def arming : List Step :=
  [.plain .mkdirRun, .plain .touchShuttingDown, .plain .killallMonit, .plain .armWatchdog]

/-- The signals to all processes. -/
def killing : List Step :=
  match u.killall5 with
  | some program =>
      u.runBounded 5 program (.killall5 15) ++ .sleep 1 :: u.runBounded 3 program (.killall5 9)
  | none => []

/-- The rest of `flush-filesystems` -/
def flushing : List Step :=
  .plain .sync ::
    ((["/home/microsd", "/upgrade", "/envar", "/home"].flatMap fun m =>
        u.runBounded 5 "/bin/umount" (.umount m)) ++
      u.runBounded 10 "/etc/init.d/rcK" .rcK ++ u.killing ++ .plain .sync ::
      (u.runBounded 5 "/sbin/swapoff" .swapoff ++ u.runBounded 8 "/bin/umount" .umountAll ++
        [.plain .sync]))

/-- `reboot` up to the system call, for root -/
def reboot : List Step :=
  (if u.executable "/sbin/flush-filesystems" then arming ++ u.flushing else [.plain .sync]) ++
    [.plain .sync]

end Userland

/-! ## The board -/

/-- `enters` is the time from the system call to `am33xx_restart`, if `device_shutdown` comes to an
end; `values` is what register reads return there, and `warmReset` whether the warm reset that is
asked for takes place. -/
structure Kernel where
  enters : Option Nat
  values : Reg → Nat → U32
  devs : RestartDevs
  warmReset : Bool

structure Board where
  user : Userland
  fates : Nat → Fate
  kernel : Kernel

/-- The default of omap_wdt. -/
def margin : Nat := 60

inductive SystemState where
  | running
  | halt
  | powerOff
  | restart
  deriving DecidableEq

/-- `omap_wdt_users`, and whether the timer runs, with its clock on. -/
structure OmapWdt where
  users : Bool
  runs : Bool

/-- `device_shutdown` calls it. -/
def omapWdtShutdown (systemState : SystemState) (wdev : OmapWdt) : OmapWdt :=
  if systemState = .restart then wdev
  else if wdev.users then { wdev with runs := false }
  else wdev

namespace Board

variable (b : Board)

def isRoot : Bool := b.user.euid == "0"

def armedAt : Option Nat :=
  if b.isRoot ∧ b.user.executable "/sbin/flush-filesystems" ∧ b.user.arms then
    finish Step.returns Userland.arming b.fates 0
  else none

def syscallAt : Option Nat :=
  if b.isRoot ∧ b.user.executable "/bin/busybox" then
    finish Step.returns b.user.reboot b.fates 0
  else none

/-- The watchdog once the devices are shut down. -/
def shutDown : OmapWdt := omapWdtShutdown .restart ⟨b.armedAt.isSome, b.armedAt.isSome⟩

/-- When `am33xx_restart` is entered. -/
def restartAt : Option Nat := b.syscallAt.bind fun t => b.kernel.enters.map fun d => t + d

/-- The warm reset is asked for, and takes place. -/
def WarmResets : Prop :=
  outcome b.kernel.values b.kernel.devs = .prmReset ∧ b.kernel.warmReset = true

/-- How the chip is reset: by the watchdog that `flush-filesystems` left running, unless it is
stopped; by the warm reset; or one second after `am33xx_restart` has armed WDT1. -/
inductive ResetsAt : Nat → Prop where
  | watchdog (armed : Nat) (h : b.armedAt = some armed)
      (hruns : b.syscallAt.isSome = true → b.shutDown.runs = true)
      (hlate : ∀ e, b.restartAt = some e → armed + margin ≤ e) : ResetsAt (armed + margin)
  | warm (e : Nat) (h : b.restartAt = some e)
      (hearly : ∀ armed, b.armedAt = some armed → e < armed + margin) (hwarm : b.WarmResets) :
      ResetsAt e
  | wdt1 (e : Nat) (h : b.restartAt = some e)
      (hearly : ∀ armed, b.armedAt = some armed → e < armed + margin)
      (harmed : Armed (final b.kernel.values b.kernel.devs).log) (hwarm : ¬ b.WarmResets) :
      ResetsAt (e + 1)

/-! ## When the board is reset -/

/-- The watchdog is left running: what comes before that ends. -/
structure Arms : Prop where
  root : b.isRoot = true
  flush : b.user.executable "/sbin/flush-filesystems" = true
  opens : b.user.arms = true
  ends : ∀ i < 4, (b.fates i).takes.isSome = true

/-- Every command returns, and the kernel shuts the devices down. -/
structure Restarts : Prop where
  root : b.isRoot = true
  busybox : b.user.executable "/bin/busybox" = true
  returns : ∀ i step, b.user.reboot[i]? = some step →
    (Step.returns step (b.fates i)).isSome = true
  enters : b.kernel.enters.isSome = true

variable {b : Board}

theorem arming_returns {step : Step} (h : step ∈ Userland.arming) (fate : Fate) :
    step.returns fate = fate.takes := by
  simp only [Userland.arming, List.mem_cons, List.not_mem_nil, or_false] at h
  rcases h with rfl | rfl | rfl | rfl <;> rfl

theorem arming_isSome_iff :
    (finish Step.returns Userland.arming b.fates 0).isSome = true ↔
      ∀ i < 4, (b.fates i).takes.isSome = true := by
  rw [finish_isSome_iff]
  constructor
  · intro h i hi
    have hi' : i < Userland.arming.length := hi
    rw [← arming_returns (List.getElem_mem hi')]
    exact h i _ (List.getElem?_eq_getElem hi')
  · intro h i step hstep
    obtain ⟨hi, -⟩ := List.getElem?_eq_some_iff.mp hstep
    rw [arming_returns (List.mem_of_getElem? hstep)]
    exact h i hi

theorem armedAt_isSome_iff : b.armedAt.isSome = true ↔ b.Arms := by
  rw [armedAt]
  constructor
  · intro h
    split at h
    · next harm => exact ⟨harm.1, harm.2.1, harm.2.2, arming_isSome_iff.mp h⟩
    · cases h
  · rintro ⟨hroot, hflush, hopens, hends⟩
    rw [if_pos ⟨hroot, hflush, hopens⟩]
    exact arming_isSome_iff.mpr hends

theorem restartAt_isSome_iff : b.restartAt.isSome = true ↔ b.Restarts := by
  rw [restartAt, syscallAt]
  constructor
  · intro h
    split at h
    · next hcall =>
        obtain ⟨e, he⟩ := Option.isSome_iff_exists.mp h
        obtain ⟨t, hfinish, hrestart⟩ := Option.bind_eq_some_iff.mp he
        obtain ⟨d, henters, -⟩ := Option.map_eq_some_iff.mp hrestart
        exact ⟨hcall.1, hcall.2, (finish_isSome_iff _ _ 0).mp (Option.isSome_of_eq_some hfinish),
          Option.isSome_of_eq_some henters⟩
    · cases h
  · rintro ⟨hroot, hbusybox, hreturns, henters⟩
    obtain ⟨t, hfinish⟩ := Option.isSome_iff_exists.mp ((finish_isSome_iff _ _ 0).mpr hreturns)
    obtain ⟨d, henters⟩ := Option.isSome_iff_exists.mp henters
    rw [if_pos ⟨hroot, hbusybox⟩, hfinish, henters]
    rfl

theorem shutDown_runs : b.shutDown.runs = b.armedAt.isSome := rfl

/-- Once `am33xx_restart` is entered in time, a reset follows if one is possible. -/
theorem resets_of_early {e : Nat} (h : b.restartAt = some e)
    (hearly : ∀ armed, b.armedAt = some armed → e < armed + margin)
    (hreset : WdtStarts b.kernel.values ∨ b.WarmResets) : ∃ t, b.ResetsAt t := by
  by_cases hwarm : b.WarmResets
  · exact ⟨e, .warm e h hearly hwarm⟩
  · have hstarts := hreset.resolve_right hwarm
    exact ⟨e + 1, .wdt1 e h hearly (armed_of_wdtStarts hstarts) hwarm⟩

theorem resets_late {armed : Nat} (h : b.armedAt = some armed)
    (hlate : ∀ e, b.restartAt = some e → armed + margin ≤ e) : ∃ t, b.ResetsAt t := by
  have hruns : b.shutDown.runs = true := shutDown_runs.trans (Option.isSome_of_eq_some h)
  exact ⟨armed + margin, .watchdog armed h (fun _ => hruns) hlate⟩

theorem resets_of_armed {armed : Nat} (h : b.armedAt = some armed)
    (hstarts : WdtStarts b.kernel.values) : ∃ t, b.ResetsAt t := by
  by_cases hlate : ∀ e, b.restartAt = some e → armed + margin ≤ e
  · exact resets_late h hlate
  · push Not at hlate
    obtain ⟨e, he, hlt⟩ := hlate
    refine resets_of_early he (fun armed' h' => ?_) (Or.inl hstarts)
    cases h.symm.trans h'
    exact hlt

theorem resets_of_restart {e : Nat} (h : b.restartAt = some e)
    (hreset : WdtStarts b.kernel.values ∨ b.WarmResets) : ∃ t, b.ResetsAt t := by
  by_cases hearly : ∀ armed, b.armedAt = some armed → e < armed + margin
  · exact resets_of_early h hearly hreset
  · push Not at hearly
    obtain ⟨armed, harmed, hle⟩ := hearly
    refine resets_late harmed fun e' h' => ?_
    cases h.symm.trans h'
    exact hle

theorem ResetsAt.le_deadline {t armed : Nat} (h : b.ResetsAt t) (harmed : b.armedAt = some armed) :
    t ≤ armed + margin := by
  cases h with
  | watchdog armed' h' => exact Nat.le_of_eq (by cases harmed.symm.trans h'; rfl)
  | warm e _ hearly => exact Nat.le_of_lt (hearly armed harmed)
  | wdt1 e _ hearly => exact hearly armed harmed

/-- Exactly when `reboot` ends in a reset: a watchdog that runs is enough, whatever hangs, and it
bounds the time.  Its clock is on while it runs. -/
theorem reboot_resets (hclock : b.shutDown.runs = true → WdtStarts b.kernel.values) :
    ((∃ t, b.ResetsAt t) ↔ b.Arms ∨ b.Restarts ∧ (WdtStarts b.kernel.values ∨
        (I2cIdles b.kernel.values .i2c1Clkctrl ∧ I2cIdles b.kernel.values .i2c2Clkctrl) ∧
          b.kernel.warmReset = true)) ∧
      ∀ armed t, b.armedAt = some armed → b.ResetsAt t → t ≤ armed + margin := by
  refine ⟨?_, fun armed t harmed hreset => hreset.le_deadline harmed⟩
  rw [← @outcome_eq_prmReset_iff b.kernel.values b.kernel.devs, ← armedAt_isSome_iff,
    ← restartAt_isSome_iff]
  constructor
  · rintro ⟨t, hreset⟩
    cases hreset with
    | watchdog armed h => exact Or.inl (Option.isSome_of_eq_some h)
    | warm e h _ hwarm => exact Or.inr ⟨Option.isSome_of_eq_some h, Or.inr hwarm⟩
    | wdt1 e h _ harmed =>
        exact Or.inr ⟨Option.isSome_of_eq_some h, Or.inl (armed_iff_wdtStarts.mp harmed)⟩
  · rintro (harmed | ⟨hrestart, hreset⟩)
    · obtain ⟨armed, h⟩ := Option.isSome_iff_exists.mp harmed
      exact resets_of_armed h (hclock harmed)
    · obtain ⟨e, h⟩ := Option.isSome_iff_exists.mp hrestart
      exact resets_of_restart h hreset

end Board

/-! ## Time to flush -/

/-- The time without a bound. -/
def Step.waits : Step → Fate → Nat
  | .plain _, fate => fate.takes.getD 0
  | .bounded _ _, _ => 0
  | .sleep _, _ => 0

def Step.limit : Step → Nat
  | .plain _ => 0
  | .bounded secs _ => secs
  | .sleep secs => secs

theorem Step.returns_le {step : Step} {fate : Fate} (hkill : fate.killable = true)
    (hends : ∀ command, step = .plain command → fate.takes.isSome = true) :
    ∃ t, step.returns fate = some t ∧ t ≤ step.limit + step.waits fate := by
  cases step with
  | plain command =>
      obtain ⟨t, htakes⟩ := Option.isSome_iff_exists.mp (hends command rfl)
      refine ⟨t, htakes, ?_⟩
      rw [Step.waits, htakes, Option.getD_some]
      exact Nat.le_add_left _ _
  | sleep secs => exact ⟨secs, rfl, Nat.le_refl _⟩
  | bounded secs command =>
      rw [Step.returns, hkill]
      cases fate.takes with
      | none => exact ⟨secs, rfl, Nat.le_refl _⟩
      | some t =>
          by_cases hle : t ≤ secs
          · exact ⟨t, if_pos (Or.inl hle), hle⟩
          · refine ⟨secs, if_neg ?_, Nat.le_refl _⟩
            rintro (h | h)
            · exact hle h
            · cases h

namespace Userland

variable (u : Userland)

def limits (steps : List Step) : Nat := (steps.map Step.limit).sum

theorem limits_append (steps more : List Step) :
    limits (steps ++ more) = limits steps + limits more := by
  rw [limits, List.map_append, List.sum_append]
  rfl

theorem limits_runBounded_le (secs : Nat) (program : String) (command : Command) :
    limits (u.runBounded secs program command) ≤ secs := by
  rw [runBounded]
  split
  · exact Nat.zero_le _
  · split
    · exact Nat.le_refl _
    · exact Nat.zero_le _

theorem limits_killing_le : limits u.killing ≤ 9 := by
  rw [killing]
  split
  · next program _ =>
      have hterm := u.limits_runBounded_le 5 program (.killall5 15)
      have hkill := u.limits_runBounded_le 3 program (.killall5 9)
      have hsleep (rest : List Step) : limits (.sleep 1 :: rest) = 1 + limits rest := List.sum_cons
      rw [limits_append, hsleep]
      omega
  · exact Nat.zero_le _

theorem limits_umounts_le (dirs : List String) :
    limits (dirs.flatMap fun m => u.runBounded 5 "/bin/umount" (.umount m)) ≤ 5 * dirs.length := by
  induction dirs with
  | nil => exact Nat.le_refl _
  | cons m dirs ih =>
      have hfirst := u.limits_runBounded_le 5 "/bin/umount" (.umount m)
      rw [List.flatMap_cons, limits_append, List.length_cons]
      omega

/-- What the bounds of `flush-filesystems` allow. -/
theorem limits_flushing_le : limits (u.flushing ++ [.plain .sync]) ≤ 52 := by
  have hsync (rest : List Step) : limits (.plain .sync :: rest) = limits rest :=
    List.sum_cons.trans (Nat.zero_add _)
  have humounts := u.limits_umounts_le ["/home/microsd", "/upgrade", "/envar", "/home"]
  have hrcK := u.limits_runBounded_le 10 "/etc/init.d/rcK" .rcK
  have hkilling := u.limits_killing_le
  have hswapoff := u.limits_runBounded_le 5 "/sbin/swapoff" .swapoff
  have humountAll := u.limits_runBounded_le 8 "/bin/umount" .umountAll
  have hnil : limits [] = 0 := rfl
  simp only [flushing, limits_append, hsync, hnil]
  simp only [List.length_cons, List.length_nil] at humounts
  omega

end Userland

namespace Board

variable {b : Board}

/-- With nothing in state D, eight seconds for what has no bound are left: then all is flushed, and
the system call made, before the watchdog resets the chip. -/
theorem flush_inTime {armed : Nat} (h : b.armedAt = some armed)
    (hbusybox : b.user.executable "/bin/busybox" = true)
    (hkill : ∀ i, (b.fates i).killable = true)
    (hends : ∀ i command, b.user.reboot[i]? = some (.plain command) →
      (b.fates i).takes.isSome = true)
    (hshort : total Step.waits (b.user.flushing ++ [.plain .sync]) (fun i => b.fates (i + 4)) < 8) :
    ∃ e, b.syscallAt = some e ∧ e < armed + margin := by
  rw [armedAt] at h
  split at h
  · next harm =>
      obtain ⟨hroot, hflush, -⟩ := harm
      have hreboot : b.user.reboot = Userland.arming ++ (b.user.flushing ++ [.plain .sync]) := by
        rw [Userland.reboot, if_pos hflush, List.append_assoc]
      have hin (i : Nat) (step : Step)
          (hstep : (b.user.flushing ++ [.plain .sync])[i]? = some step) :
          ∃ t, step.returns (b.fates (i + 4)) = some t ∧
            t ≤ step.limit + step.waits (b.fates (i + 4)) := by
        refine Step.returns_le (hkill _) fun command hplain => hends (i + 4) command ?_
        have hafter : Userland.arming.length ≤ i + 4 := Nat.le_add_left 4 i
        rw [hreboot, List.getElem?_append_right hafter, ← hplain]
        exact hstep
      obtain ⟨e, hfinish, hle⟩ :=
        finish_le (fun (step : Step) fate => step.limit + step.waits fate) hin armed
      refine ⟨e, ?_, ?_⟩
      · rw [syscallAt, if_pos ⟨hroot, hbusybox⟩, hreboot, finish_append, h]
        exact hfinish
      · rw [total_add, total_const] at hle
        have hlimits := b.user.limits_flushing_le
        unfold Userland.limits at hlimits
        unfold margin
        omega
  · cases h

/-! ## Root on the board -/

/-- Every program is there, and the watchdog is the second of two. -/
def rootUser : Userland where
  status := [["Name:", "reboot"], ["Uid:", "0", "0", "0", "0"]]
  executable _ := true
  isFile _ := true
  watchdogs := [⟨"watchdog0", true, some "softdog"⟩, ⟨"watchdog1", true, some "omap_wdt"⟩]
  opens _ := true

def functional : Kernel where
  enters := some 1
  values _ _ := 0
  devs := RestartDevs.empty
  warmReset := false

/-- The first `sync` sits in state D. -/
def stuckSync : Board where
  user := rootUser
  fates i := if i = 4 then ⟨none, false⟩ else ⟨some 0, true⟩
  kernel := functional

theorem reboot_resets_stuckSync :
    ((∃ t, stuckSync.ResetsAt t) ↔
      stuckSync.Arms ∨ stuckSync.Restarts ∧ (WdtStarts stuckSync.kernel.values ∨
        (I2cIdles stuckSync.kernel.values .i2c1Clkctrl ∧
          I2cIdles stuckSync.kernel.values .i2c2Clkctrl) ∧
            stuckSync.kernel.warmReset = true)) ∧
      ∀ armed t, stuckSync.armedAt = some armed → stuckSync.ResetsAt t → t ≤ armed + margin :=
  reboot_resets fun _ => ⟨0, by decide, rfl⟩

/-- No command ends by itself in ten seconds, but each can be killed, and `sync` takes one. -/
def slowCommands : Board where
  user := rootUser
  fates i := ⟨some (if i ∈ [4, 13, 16, 17] then 1 else if i < 4 then 0 else 11), true⟩
  kernel := functional

theorem flush_inTime_slowCommands :
    ∃ e, slowCommands.syscallAt = some e ∧ e < 0 + margin :=
  flush_inTime (by decide) rfl (fun _ => rfl) (fun _ _ _ => rfl) (by decide)

end Board

end RadsatLinux.Restart.Reboot
