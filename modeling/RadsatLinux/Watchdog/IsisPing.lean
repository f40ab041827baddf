import RadsatLinux.Library.TickCounter
import RadsatLinux.Watchdog.At91Isis

/-!
# Kicking the supervisor of the ISIS OBC

`at91_isis_ping` runs from a timer and kicks the supervisor for as long as user space keeps its
promise, or has made none.  Time is counted in ticks from the probe; the driver sees it as
`jiffies`, 32 bits that wrap around.  What user space does comes through the watchdog core, which
calls the operations of the driver and holds the flag of the active device.
-/

namespace RadsatLinux.Watchdog.IsisPing

open RadsatLinux.Library.TickCounter
open RadsatLinux.Watchdog.At91Isis

/-! ## The driver -/

/-- `boot` is what `jiffies` was at the probe. -/
structure Board where
  hz : Nat
  boot : U32
  heartbeat : U32

/-- `timer` is when the timer expires, if it is pending.  Beside the fields of the source:
`kicks` has the times of the kicks so far, latest first, `since` the time of the last
`at91_isis_wdt_start`, or of the probe, and `gaveUp` the time at which the ping gave up, with
the deadline that user space had missed. -/
structure Driver where
  now : Nat
  nextHeartbeat : U32
  timer : Option U32
  active : Bool
  timeout : U32
  kicks : List Nat
  since : Nat
  gaveUp : Option (Nat × Nat)

section Operations

variable (b : Board)

def Driver.jiffies (d : Driver) : U32 := reading b.boot d.now

/-- When user space has to have reported again. -/
def Driver.deadline (d : Driver) : Nat := d.since + d.timeout.toNat * b.hz

def at91IsisWdtStart (d : Driver) : Driver :=
  { d with
    nextHeartbeat := d.jiffies b + d.timeout * BitVec.ofNat 32 b.hz
    since := d.now }

/-- The hardware cannot be stopped. -/
def at91IsisWdtStop (d : Driver) : Driver := d

def at91IsisWdtSetTimeout (newTimeout : U32) (d : Driver) : Driver :=
  at91IsisWdtStart b { d with timeout := newTimeout }

def at91IsisWdtReset (d : Driver) : Driver := { d with kicks := d.now :: d.kicks }

/-- The timer is not pending any more when its function runs. -/
def at91IsisPing (d : Driver) : Driver :=
  if before (d.jiffies b) d.nextHeartbeat || !d.active then
    { at91IsisWdtReset d with timer := some (d.jiffies b + b.heartbeat) }
  else { d with timer := none, gaveUp := some (d.now, d.deadline b) }

/-- The end of `at91_isis_wdt_init`: the timer is pending and the device is not active. -/
def at91IsisWdtInitEnd (firstPing timeout : U32) : Driver where
  now := 0
  nextHeartbeat := reading b.boot 0 + timeout * BitVec.ofNat 32 b.hz
  timer := some (reading b.boot 0 + firstPing)
  active := false
  timeout := timeout
  kicks := []
  since := 0
  gaveUp := none

/-! ## The watchdog core and the timer -/

def wddMinTimeout : U32 := 1
def wddMaxTimeout : U32 := 0xFFFF

/-- `start`, `stop` and `setTimeout` are calls of the operations; `active` is the core setting or
clearing the flag that `watchdog_active` reads. -/
inductive Event where
  | tick
  | timer
  | start
  | stop
  | setTimeout (timeout : U32)
  | active (flag : Bool)

/-- A timer runs when its time has come. -/
def Driver.expired (d : Driver) (expires : U32) : Bool := !before (d.jiffies b) expires

def Driver.event (d : Driver) : Event → Driver
  | .tick => { d with now := d.now + 1 }
  | .timer =>
      match d.timer with
      | some expires => if d.expired b expires then at91IsisPing b d else d
      | none => d
  | .start => at91IsisWdtStart b d
  | .stop => at91IsisWdtStop d
  | .setTimeout timeout => at91IsisWdtSetTimeout b timeout d
  | .active flag => { d with active := flag }

def Driver.run (d : Driver) (events : List Event) : Driver := events.foldl (Driver.event b) d

/-- What is expected of the kernel around the driver: before the next tick comes, a timer that is
`late` ticks overdue runs; the core sets no timeout outside the bounds that the driver gave it,
and makes the device active only after a start that is not a timeout ago. -/
def Driver.expects (late : Nat) (d : Driver) : Event → Bool
  | .tick =>
      match d.timer with
      | some expires => !d.expired b expires || decide ((d.jiffies b - expires).toNat < late)
      | none => true
  | .setTimeout timeout => decide (wddMinTimeout ≤ timeout) && decide (timeout ≤ wddMaxTimeout)
  | .active true => decide (d.now < d.deadline b)
  | _ => true

/-- Every event of a course is one that is expected. -/
def Driver.orderly (late : Nat) (d : Driver) : List Event → Bool
  | [] => true
  | event :: rest => d.expects b late event && (d.event b event).orderly late rest

end Operations

/-! ## What holds in every state -/

/-- Kicks come at most `gap` ticks after one another, and the first one after the probe. -/
def Spaced (gap : Nat) : List Nat → Prop
  | [] => True
  | kick :: earlier => kick ≤ earlier.headD 0 + gap ∧ Spaced gap earlier

/-- The timer is pending and will run at `due`. -/
structure Pending (b : Board) (late : Nat) (d : Driver) (expires : U32) (due : Nat) : Prop where
  expires_eq : expires = reading b.boot due
  due_le : due ≤ d.kicks.headD 0 + b.heartbeat.toNat
  soon : due ≤ d.now + b.heartbeat.toNat
  prompt : d.now ≤ due + late
  promised : d.active = true → due ≤ d.deadline b + b.heartbeat.toNat

/-- The ping gave up at `time`, for a deadline that had passed. -/
structure GaveUp (b : Board) (late : Nat) (d : Driver) (time deadline : Nat) : Prop where
  stopped : d.timer = none
  missed : deadline ≤ time
  noticed : time ≤ deadline + b.heartbeat.toNat + late
  before : ∀ kick ∈ d.kicks, kick < deadline

structure Good (b : Board) (late : Nat) (d : Driver) : Prop where
  timeout_pos : 1 ≤ d.timeout.toNat
  timeout_le : d.timeout.toNat ≤ 0xFFFF
  since_le : d.since ≤ d.now
  next : d.nextHeartbeat = reading b.boot (d.deadline b)
  past : ∀ kick ∈ d.kicks, kick ≤ d.now
  spaced : Spaced (b.heartbeat.toNat + late) d.kicks
  inTime : d.active = true → d.gaveUp = none → ∀ kick ∈ d.kicks, kick < d.deadline b
  pending : ∀ expires, d.timer = some expires → ∃ due, Pending b late d expires due
  armed : d.gaveUp = none → d.timer ≠ none
  spent : ∀ time deadline, d.gaveUp = some (time, deadline) → GaveUp b late d time deadline

/-- A tick rate that a kernel may have, and a period as `at91_isis_wdt_init` chooses it. -/
structure Board.Ok (b : Board) (late : Nat) : Prop where
  hz_pos : 0 < b.hz
  hz_le : b.hz ≤ 1000
  heartbeat_le : b.heartbeat.toNat ≤ 0xfff
  late_lt : late < 2 ^ 30

section Steps

variable {b : Board} {late : Nat} {d : Driver}

/-- The span of a timeout, in ticks and as the driver computes it. -/
theorem span_eq (b : Board) (timeout : U32) :
    timeout * BitVec.ofNat 32 b.hz = BitVec.ofNat 32 (timeout.toNat * b.hz) := by
  apply BitVec.eq_of_toNat_eq
  simp [BitVec.toNat_mul, Nat.mul_mod]

theorem span_le (hb : b.Ok late) {timeout : U32} (hle : timeout.toNat ≤ 0xFFFF) :
    timeout.toNat * b.hz ≤ 0xFFFF * 1000 :=
  Nat.mul_le_mul hle hb.hz_le

theorem span_pos (hb : b.Ok late) {timeout : U32} (hpos : 1 ≤ timeout.toNat) :
    0 < timeout.toNat * b.hz :=
  Nat.mul_pos hpos hb.hz_pos

/-- The timer has expired exactly when its time is not ahead. -/
theorem Pending.expired_iff {expires : U32} {due : Nat} (hb : b.Ok late)
    (h : Pending b late d expires due) : d.expired b expires = true ↔ due ≤ d.now := by
  have hlate := hb.late_lt
  have hheartbeat := hb.heartbeat_le
  have hsoon := h.soon
  have hprompt := h.prompt
  rw [Driver.expired, Driver.jiffies, h.expires_eq, before_reading b.boot (by omega) (by omega)]
  simp

/-- While the device is active, the comparison with the next heartbeat is that of the times. -/
theorem Good.before_next (hb : b.Ok late) (h : Good b late d) {expires : U32} {due : Nat}
    (hpending : Pending b late d expires due) (hactive : d.active = true) :
    before (d.jiffies b) d.nextHeartbeat = decide (d.now < d.deadline b) := by
  have hlate := hb.late_lt
  have hheartbeat := hb.heartbeat_le
  have hspan := span_le hb h.timeout_le
  have hsince := h.since_le
  have hprompt := hpending.prompt
  have hpromised := hpending.promised hactive
  have hdeadline : d.deadline b = d.since + d.timeout.toNat * b.hz := rfl
  rw [Driver.jiffies, h.next]
  exact before_reading b.boot (by omega) (by omega)

theorem Good.tick (hb : b.Ok late) (h : Good b late d)
    (hexpects : d.expects b late .tick = true) :
    Good b late { d with now := d.now + 1 } := by
  refine ⟨h.timeout_pos, h.timeout_le, Nat.le_succ_of_le h.since_le, h.next,
    fun kick hmem => Nat.le_succ_of_le (h.past kick hmem), h.spaced, h.inTime, ?_, h.armed,
    fun time deadline hspent => ?_⟩
  · intro expires htimer
    obtain ⟨due, hpending⟩ := h.pending expires htimer
    refine ⟨due, hpending.expires_eq, hpending.due_le, ?_, ?_, hpending.promised⟩
    · exact Nat.le_trans hpending.soon (Nat.add_le_add_right (Nat.le_succ d.now) _)
    · change d.now + 1 ≤ due + late
      by_cases hdue : due ≤ d.now
      · have hlate := hb.late_lt
        have hprompt := hpending.prompt
        have htimer' : d.timer = some expires := htimer
        have hexpired := (hpending.expired_iff hb).mpr hdue
        have hoverdue : (d.jiffies b - expires).toNat < late := by
          simpa only [Driver.expects, htimer', hexpired, Bool.not_true, Bool.false_or,
            decide_eq_true_eq] using hexpects
        rw [hpending.expires_eq, Driver.jiffies,
          toNat_reading_sub b.boot hdue (by omega)] at hoverdue
        omega
      · omega
  · obtain ⟨hstopped, hmissed, hnoticed, hbefore⟩ := h.spent time deadline hspent
    exact ⟨hstopped, hmissed, hnoticed, hbefore⟩

/-- Whenever the driver hears from user space, the deadline moves ahead of all kicks. -/
theorem Good.setTimeout (hb : b.Ok late) (h : Good b late d) (timeout : U32)
    (hpos : 1 ≤ timeout.toNat) (hle : timeout.toNat ≤ 0xFFFF) :
    Good b late (at91IsisWdtSetTimeout b timeout d) := by
  have hspan := span_pos hb hpos
  have hdeadline : (at91IsisWdtSetTimeout b timeout d).deadline b
      = d.now + timeout.toNat * b.hz := rfl
  refine ⟨hpos, hle, Nat.le_refl _, ?_, h.past, h.spaced, fun _ _ kick hmem => ?_,
    fun expires htimer => ?_, h.armed, fun time deadline hspent => ?_⟩
  · rw [hdeadline, ← reading_add, ← span_eq]
    rfl
  · have hkick := h.past kick hmem
    omega
  · obtain ⟨due, hpending⟩ := h.pending expires htimer
    refine ⟨due, hpending.expires_eq, hpending.due_le, hpending.soon, hpending.prompt, fun _ => ?_⟩
    have hsoon := hpending.soon
    rw [hdeadline]
    omega
  · obtain ⟨hstopped, hmissed, hnoticed, hbefore⟩ := h.spent time deadline hspent
    exact ⟨hstopped, hmissed, hnoticed, hbefore⟩

/-- The ping kicks and sets the timer again, or gives up for good. -/
theorem Good.at91IsisPing (hb : b.Ok late) (h : Good b late d) {expires : U32}
    (htimer : d.timer = some expires) (hexpired : d.expired b expires = true) :
    Good b late (at91IsisPing b d) := by
  obtain ⟨due, hpending⟩ := h.pending expires htimer
  have hdue := (hpending.expired_iff hb).mp hexpired
  have hprompt := hpending.prompt
  have hnotOver : d.gaveUp = none := by
    cases hspent : d.gaveUp with
    | none => rfl
    | some record =>
        have hstopped := (h.spent record.1 record.2 hspent).stopped
        rw [htimer] at hstopped
        cases hstopped
  have hnext := fun hactive => h.before_next hb hpending hactive
  rw [IsisPing.at91IsisPing]
  split
  · next hkick =>
      have hinTime : d.active = true → d.now < d.deadline b := fun hactive => by
        rw [hactive, hnext hactive] at hkick
        simpa using hkick
      have hdue_le := hpending.due_le
      refine ⟨h.timeout_pos, h.timeout_le, h.since_le, h.next, fun kick hmem => ?_,
        ⟨by omega, h.spaced⟩, fun hactive _ kick hmem => ?_, fun expires' hexpires' => ?_,
        nofun, fun time deadline hspent => ?_⟩
      · rcases List.mem_cons.mp hmem with rfl | hold
        · exact Nat.le_refl _
        · exact h.past kick hold
      · rcases List.mem_cons.mp hmem with rfl | hold
        · exact hinTime hactive
        · exact h.inTime hactive hnotOver kick hold
      · cases hexpires'
        refine ⟨d.now + b.heartbeat.toNat, ?_, Nat.le_refl _, Nat.le_refl _, ?_, fun hactive => ?_⟩
        · rw [← reading_add, BitVec.ofNat_toNat, BitVec.setWidth_eq]
          rfl
        · change d.now ≤ d.now + b.heartbeat.toNat + late
          omega
        · have hlt := hinTime hactive
          change d.now + b.heartbeat.toNat ≤ d.deadline b + b.heartbeat.toNat
          omega
      · have hspent' : d.gaveUp = some (time, deadline) := hspent
        rw [hnotOver] at hspent'
        cases hspent'
  · next hquiet =>
      rw [Bool.or_eq_true, not_or] at hquiet
      have hactive : d.active = true := by simpa using hquiet.2
      have hmissed : d.deadline b ≤ d.now := by
        have hnotBefore := hquiet.1
        rw [hnext hactive] at hnotBefore
        simpa using hnotBefore
      have hpromised := hpending.promised hactive
      refine ⟨h.timeout_pos, h.timeout_le, h.since_le, h.next, h.past, h.spaced, nofun, nofun,
        nofun, fun time deadline hspent => ?_⟩
      cases hspent
      exact ⟨rfl, hmissed, by omega, h.inTime hactive hnotOver⟩

/-- A device becomes active while its deadline is ahead, and stops being active at any time. -/
theorem Good.active (h : Good b late d) (flag : Bool)
    (hahead : flag = true → d.now < d.deadline b) : Good b late { d with active := flag } := by
  refine ⟨h.timeout_pos, h.timeout_le, h.since_le, h.next, h.past, h.spaced,
    fun hflag _ kick hmem => Nat.lt_of_le_of_lt (h.past kick hmem) (hahead hflag),
    fun expires htimer => ?_, h.armed, fun time deadline hspent => ?_⟩
  · obtain ⟨due, hpending⟩ := h.pending expires htimer
    refine ⟨due, hpending.expires_eq, hpending.due_le, hpending.soon, hpending.prompt,
      fun hflag => ?_⟩
    have hnow : d.now < d.deadline b := hahead hflag
    have hsoon := hpending.soon
    change due ≤ d.deadline b + b.heartbeat.toNat
    omega
  · obtain ⟨hstopped, hmissed, hnoticed, hbefore⟩ := h.spent time deadline hspent
    exact ⟨hstopped, hmissed, hnoticed, hbefore⟩

theorem Good.event (hb : b.Ok late) (h : Good b late d) {event : Event}
    (hexpects : d.expects b late event = true) : Good b late (d.event b event) := by
  cases event with
  | tick => exact h.tick hb hexpects
  | timer =>
      simp only [Driver.event]
      split
      · next expires htimer =>
          split
          · next hexpired => exact h.at91IsisPing hb htimer hexpired
          · exact h
      · exact h
  | start => exact h.setTimeout hb d.timeout h.timeout_pos h.timeout_le
  | stop => exact h
  | setTimeout timeout =>
      have hrange := (Bool.and_eq_true _ _).mp hexpects
      have hlow : wddMinTimeout ≤ timeout := of_decide_eq_true hrange.1
      have hhigh : timeout ≤ wddMaxTimeout := of_decide_eq_true hrange.2
      rw [wddMinTimeout] at hlow
      rw [wddMaxTimeout] at hhigh
      exact h.setTimeout hb timeout (by bv_omega) (by bv_omega)
  | active flag =>
      refine h.active flag fun hflag => ?_
      rw [hflag] at hexpects
      exact of_decide_eq_true hexpects

theorem good_run (hb : b.Ok late) (h : Good b late d) {events : List Event}
    (horderly : d.orderly b late events = true) : Good b late (d.run b events) := by
  induction events generalizing d with
  | nil => exact h
  | cons event rest ih =>
      obtain ⟨hexpects, hrest⟩ := (Bool.and_eq_true _ _).mp horderly
      exact ih (h.event hb hexpects) hrest

/-! ## Giving up -/

/-- Only the timer of an active device makes the driver give up. -/
theorem event_gaveUp {event : Event} (hnot : d.gaveUp = none)
    (hgaveUp : (d.event b event).gaveUp ≠ none) :
    d.active = true ∧ before (d.jiffies b) d.nextHeartbeat = false ∧ d.timer ≠ none := by
  cases event with
  | timer =>
      simp only [Driver.event] at hgaveUp
      split at hgaveUp
      · next expires htimer =>
          split at hgaveUp
          · rw [at91IsisPing] at hgaveUp
            split at hgaveUp
            · exact absurd hnot hgaveUp
            · next hquiet =>
                rw [Bool.or_eq_true, not_or] at hquiet
                refine ⟨by simpa using hquiet.2, by simpa using hquiet.1, ?_⟩
                rw [htimer]
                exact Option.some_ne_none expires
          · exact absurd hnot hgaveUp
      · exact absurd hnot hgaveUp
  | tick => exact absurd hnot hgaveUp
  | start => exact absurd hnot hgaveUp
  | stop => exact absurd hnot hgaveUp
  | setTimeout timeout => exact absurd hnot hgaveUp
  | active flag => exact absurd hnot hgaveUp

theorem Good.event_gaveUp (hb : b.Ok late) (h : Good b late d) {event : Event}
    (hnot : d.gaveUp = none) (hgaveUp : (d.event b event).gaveUp ≠ none) :
    d.active = true ∧ d.deadline b ≤ d.now := by
  obtain ⟨hactive, hquiet, harmed⟩ := IsisPing.event_gaveUp hnot hgaveUp
  obtain ⟨expires, htimer⟩ := Option.ne_none_iff_exists'.mp harmed
  obtain ⟨due, hpending⟩ := h.pending expires htimer
  rw [h.before_next hb hpending hactive] at hquiet
  exact ⟨hactive, by simpa using hquiet⟩

/-- Nobody opens the device. -/
theorem event_idle (hidle : d.active = false) {event : Event} (hevent : event ≠ .active true) :
    (d.event b event).active = false := by
  cases event with
  | timer =>
      simp only [Driver.event, at91IsisPing]
      split
      · split
        · split <;> exact hidle
        · exact hidle
      · exact hidle
  | active flag =>
      cases flag with
      | true => exact absurd rfl hevent
      | false => rfl
  | tick => exact hidle
  | start => exact hidle
  | stop => exact hidle
  | setTimeout timeout => exact hidle

theorem run_idle (hidle : d.active = false) (hnot : d.gaveUp = none) {events : List Event}
    (hclosed : ∀ event ∈ events, event ≠ .active true) : (d.run b events).gaveUp = none := by
  induction events generalizing d with
  | nil => exact hnot
  | cons event rest ih =>
      have hevent := hclosed event List.mem_cons_self
      refine ih (event_idle hidle hevent) ?_ fun later hlater =>
        hclosed later (List.mem_cons_of_mem event hlater)
      by_contra hgaveUp
      have hactive := (event_gaveUp hnot hgaveUp).1
      rw [hidle] at hactive
      cases hactive

/-- Nothing sets the timer again. -/
theorem event_stopped (hstopped : d.timer = none) (event : Event) :
    (d.event b event).timer = none ∧ (d.event b event).kicks = d.kicks := by
  cases event with
  | timer =>
      simp only [Driver.event, hstopped]
      exact ⟨trivial, trivial⟩
  | tick => exact ⟨hstopped, rfl⟩
  | start => exact ⟨hstopped, rfl⟩
  | stop => exact ⟨hstopped, rfl⟩
  | setTimeout timeout => exact ⟨hstopped, rfl⟩
  | active flag => exact ⟨hstopped, rfl⟩

theorem run_stopped (hstopped : d.timer = none) (events : List Event) :
    (d.run b events).kicks = d.kicks := by
  induction events generalizing d with
  | nil => rfl
  | cons event rest ih =>
      obtain ⟨htimer, hkicks⟩ := event_stopped (b := b) hstopped event
      exact (ih htimer).trans hkicks

/-- What the supervisor and user space can rely on: kicks come at the period of the timer, and
go on until the driver gives up; while the device is active none comes after its deadline; no
event makes the driver give up but with the device active and its deadline over, and none at all
until somebody opens the device; it gives up soon after the deadline that user space has missed,
with the last kick before that; a promise that is not kept makes it give up; and nothing makes it
kick again. -/
structure Guards (b : Board) (late : Nat) (d : Driver) : Prop where
  spaced : Spaced (b.heartbeat.toNat + late) d.kicks
  kicking : d.gaveUp = none → d.now ≤ d.kicks.headD 0 + b.heartbeat.toNat + late
  inTime : d.active = true → d.gaveUp = none → ∀ kick ∈ d.kicks, kick < d.deadline b
  deserved : d.gaveUp = none → ∀ event, (d.event b event).gaveUp ≠ none →
    d.active = true ∧ d.deadline b ≤ d.now
  unopened : d.active = false → d.gaveUp = none → ∀ events,
    (∀ event ∈ events, event ≠ .active true) → (d.run b events).gaveUp = none
  missed : ∀ time deadline, d.gaveUp = some (time, deadline) → deadline ≤ time ∧
    time ≤ deadline + b.heartbeat.toNat + late ∧ ∀ kick ∈ d.kicks, kick < deadline
  caught : d.active = true → d.deadline b + b.heartbeat.toNat + late < d.now → d.gaveUp ≠ none
  forever : d.gaveUp ≠ none → ∀ events, (d.run b events).kicks = d.kicks

theorem Good.guards (hb : b.Ok late) (h : Good b late d) : Guards b late d := by
  have harmed : d.gaveUp = none → ∃ expires due, Pending b late d expires due := fun hnone => by
    cases htimer : d.timer with
    | none => exact absurd htimer (h.armed hnone)
    | some expires =>
        obtain ⟨due, hpending⟩ := h.pending expires htimer
        exact ⟨expires, due, hpending⟩
  refine ⟨h.spaced, fun hnone => ?_, h.inTime,
    fun hnone event hgaveUp => h.event_gaveUp hb hnone hgaveUp,
    fun hidle hnone events hclosed => run_idle hidle hnone hclosed,
    fun time deadline hspent => ?_, fun hactive hlate hnone => ?_, fun hsome events => ?_⟩
  · obtain ⟨expires, due, hpending⟩ := harmed hnone
    have hdue := hpending.due_le
    have hprompt := hpending.prompt
    omega
  · obtain ⟨-, hmissed, hnoticed, hbefore⟩ := h.spent time deadline hspent
    exact ⟨hmissed, hnoticed, hbefore⟩
  · obtain ⟨expires, due, hpending⟩ := harmed hnone
    have hpromised := hpending.promised hactive
    have hprompt := hpending.prompt
    omega
  · obtain ⟨record, hspent⟩ := Option.ne_none_iff_exists'.mp hsome
    exact run_stopped (h.spent record.1 record.2 hspent).stopped events

end Steps

/-! ## From the probe on -/

section Probe

variable {mr : U32} {timer : PingTimer}

theorem at91IsisWdtInit_bounds (hinit : at91IsisWdtInit mr = .ok timer) :
    timer.firstPing.toNat ≤ timer.heartbeat.toNat ∧ timer.heartbeat.toNat ≤ 0xfff := by
  obtain ⟨-, hlow, hhigh⟩ := at91IsisWdtInit_between hinit
  have hfields : timer.firstPing = timer.minHeartbeat ∧
      timer.maxHeartbeat = mr &&& at91WdtWdv := by
    unfold at91IsisWdtInit at hinit
    dsimp only at hinit
    split at hinit
    · cases hinit
    · cases hinit
      exact ⟨rfl, rfl⟩
  have hmask : (mr &&& at91WdtWdv).toNat ≤ 0xfff := by
    rw [BitVec.toNat_and]
    exact Nat.and_le_right
  rw [hfields.1]
  rw [hfields.2] at hhigh
  exact ⟨hlow, Nat.le_trans hhigh hmask⟩

variable {hz late : Nat} {timeout : U32}

theorem good_init (hinit : at91IsisWdtInit mr = .ok timer) (hpos : 1 ≤ timeout.toNat)
    (hle : timeout.toNat ≤ 0xFFFF) (boot : U32) :
    Good ⟨hz, boot, timer.heartbeat⟩ late
      (at91IsisWdtInitEnd ⟨hz, boot, timer.heartbeat⟩ timer.firstPing timeout) := by
  obtain ⟨hfirst, -⟩ := at91IsisWdtInit_bounds hinit
  refine ⟨hpos, hle, Nat.le_refl _, ?_, nofun, trivial, nofun, fun expires htimer => ?_, nofun,
    nofun⟩
  · have hspan := span_eq ⟨hz, boot, timer.heartbeat⟩ timeout
    simp only [at91IsisWdtInitEnd, Driver.deadline, hspan, reading_add]
  · cases htimer
    refine ⟨timer.firstPing.toNat, ?_, ?_, ?_, Nat.zero_le _, nofun⟩
    · rw [← Nat.zero_add timer.firstPing.toNat, ← reading_add, BitVec.ofNat_toNat,
        BitVec.setWidth_eq]
    · exact Nat.le_trans hfirst (Nat.le_add_left _ _)
    · exact Nat.le_trans hfirst (Nat.le_add_left _ _)

/-- Whatever user space does, and wherever `jiffies` wraps around. -/
theorem run_guards (hinit : at91IsisWdtInit mr = .ok timer) (hhz : 0 < hz ∧ hz ≤ 1000)
    (htimeout : 1 ≤ timeout.toNat ∧ timeout.toNat ≤ 0xFFFF) (hlate : late < 2 ^ 30) (boot : U32)
    {events : List Event}
    (horderly : (at91IsisWdtInitEnd ⟨hz, boot, timer.heartbeat⟩ timer.firstPing timeout).orderly
      ⟨hz, boot, timer.heartbeat⟩ late events = true) :
    Guards ⟨hz, boot, timer.heartbeat⟩ late
      ((at91IsisWdtInitEnd ⟨hz, boot, timer.heartbeat⟩ timer.firstPing timeout).run
        ⟨hz, boot, timer.heartbeat⟩ events) :=
  have hb : Board.Ok ⟨hz, boot, timer.heartbeat⟩ late :=
    ⟨hhz.1, hhz.2, (at91IsisWdtInit_bounds hinit).2, hlate⟩
  (good_run hb (good_init hinit htimeout.1 htimeout.2 boot) horderly).guards hb

/-- `jiffies` wraps around at the first tick after the probe. -/
def fastBoard : Board := ⟨3, 0xffffffff, 1⟩

/-- User space opens the device and is not heard of until it is too late. -/
def openThenSilence : List Event :=
  [.start, .active true, .tick, .timer, .tick, .timer, .tick, .timer, .start, .tick, .timer]

theorem run_guards_openThenSilence :
    Guards fastBoard 0 ((at91IsisWdtInitEnd fastBoard 1 1).run fastBoard openThenSilence) ∧
    ((at91IsisWdtInitEnd fastBoard 1 1).run fastBoard openThenSilence).gaveUp = some (3, 3) ∧
    ((at91IsisWdtInitEnd fastBoard 1 1).run fastBoard openThenSilence).kicks = [2, 1] :=
  ⟨run_guards (show at91IsisWdtInit 0x00040005 = .ok ⟨1, 5, 1, 1, none⟩ from rfl) (by decide)
    (by decide) (by decide) 0xffffffff (by decide), by decide, by decide⟩

end Probe

end RadsatLinux.Watchdog.IsisPing
