import RadsatLinux.Library.WaitQueue
import RadsatLinux.I2c.FrameReaders

/-!
# Sleeping on the frame queue

`frameq_read` on an empty queue and `frameq_poll` sleep on `read_wq`, and the slave callback
wakes it after it has queued a frame and let go of the lock.  The wait is taken apart into its
steps here, with callbacks, signals and other threads in between.
-/

namespace RadsatLinux.I2c.Blocking

open RadsatLinux.Library.WaitQueue
open RadsatLinux.I2c.FrameQueue RadsatLinux.I2c.FrameReaders

/-! ## The device and its threads -/

/-- What a thread does with the open file. -/
inductive Doing where
  | idle
  | reading (args : ReadArgs) (call : Call)
  | polling
  | polled (leave : Leave)

/-- `wakeDue` from the moment a callback has queued a frame until it has woken `read_wq`. -/
structure Device (τ : Type) where
  fq : FrameqData
  wakeDue : Bool
  tasks : τ → Task
  doing : τ → Doing

inductive Move (τ : Type) where
  | callback (event : I2cSlaveEvent)
  | wake
  | signal (t : τ)
  | read (t : τ) (args : ReadArgs)
  | poll (t : τ)
  | proceed (t : τ) (copyFails : Bool)

/-- `fq->count > 0` -/
def hasFrames (fq : FrameqData) : Bool := decide (0 < fq.count)

/-- `wake_reader` -/
def wakeReader (p : Params) (fq : FrameqData) : I2cSlaveEvent → Bool
  | .stop => (frameqFinishWrite p fq).2
  | _ => false

/-- The thread is back in user space. -/
def Doing.done : Doing → Bool
  | .idle | .polled _ | .reading _ (.returned _) => true
  | _ => false

/-- A call that finds the queue empty goes on to `wait_event_interruptible`. -/
def taskAfter : Call → Task → Task
  | .waiting, task => task.arrive
  | _, task => task

/-- Where a wait takes the call. -/
def callAfter : Option Leave → Call
  | none => .waiting
  | some .ready => .looping
  | some .interrupted => .returned .interrupted

def pollAfter : Option Leave → Doing
  | none => .polling
  | some leave => .polled leave

variable {τ : Type} [DecidableEq τ]

/-- A thread that is back in user space has its signals handled there. -/
def leaving (doing : Doing) (task : Task) : Task := if doing.done then task.handled else task

def Device.set (d : Device τ) (t : τ) (task : Task) (doing : Doing) : Device τ :=
  { d with
    tasks := Function.update d.tasks t (leaving doing task)
    doing := Function.update d.doing t doing }

/-- A thread that is in the driver goes on. -/
def Device.proceed (p : Params) (d : Device τ) (t : τ) (copyFails : Bool) : Device τ :=
  match d.doing t with
  | .reading args .waiting =>
      let (task, leave) := (d.tasks t).step (hasFrames d.fq)
      d.set t task (.reading args (callAfter leave))
  | .reading args call =>
      let (fq, call') := callStep p args false copyFails d.fq call
      { d with fq := fq }.set t (taskAfter call' (d.tasks t)) (.reading args call')
  | .polling =>
      let (task, leave) := (d.tasks t).step (hasFrames d.fq)
      d.set t task (pollAfter leave)
  | .idle | .polled _ => d

/-- The interrupt thread runs one callback after the other.  `frameq_poll` puts the thread on
the queue before it looks at the count. -/
def Device.move (p : Params) (d : Device τ) : Move τ → Device τ
  | .callback event =>
      if d.wakeDue then d
      else { d with fq := (frameqSlaveCb p d.fq event).1, wakeDue := wakeReader p d.fq event }
  | .wake =>
      if d.wakeDue then { d with wakeDue := false, tasks := fun t => (d.tasks t).wakeUp } else d
  | .signal t => d.set t (d.tasks t).signal (d.doing t)
  | .read t args =>
      if (d.doing t).done then d.set t (d.tasks t) (.reading args .looping) else d
  | .poll t =>
      if (d.doing t).done then d.set t (d.tasks t).prepare .polling else d
  | .proceed t copyFails => d.proceed p t copyFails

def Device.run (p : Params) (d : Device τ) (moves : List (Move τ)) : Device τ :=
  moves.foldl (Device.move p) d

/-- After the probe, with no thread in the driver. -/
def Device.probed (fq : FrameqData) : Device τ := ⟨fq, false, fun _ => Task.idle, fun _ => .idle⟩

/-! ## What holds in every state -/

/-- The thread waits for a frame. -/
def Doing.waits : Doing → Bool
  | .reading _ .waiting | .polling => true
  | _ => false

structure Sound (p : Params) (d : Device τ) : Prop where
  refines : ∃ s, Refines p d.fq s
  attentive : ∀ t, (d.tasks t).Attentive (hasFrames d.fq) d.wakeDue
  waits : ∀ t, (d.tasks t).place = .outside ↔ (d.doing t).waits = false

theorem waits_of_done {doing : Doing} (hdone : doing.done = true) : doing.waits = false := by
  cases doing with
  | reading args call => cases call <;> first | rfl | cases hdone
  | polling => cases hdone
  | _ => rfl

theorem leaving_place (doing : Doing) (task : Task) :
    (leaving doing task).place = task.place := by
  unfold leaving
  split <;> rfl

theorem attentive_leaving {task : Task} {condition due : Bool} (doing : Doing)
    (h : task.Attentive condition due) : (leaving doing task).Attentive condition due := by
  unfold leaving
  split
  · exact h.handled
  · exact h

theorem leaving_of_waits {doing : Doing} (task : Task) (hwaits : doing.waits = true) :
    leaving doing task = task := by
  refine if_neg fun hdone => ?_
  cases (waits_of_done hdone).symm.trans hwaits

section Queue

variable {p : Params} {fq : FrameqData}

/-- A callback adds to the queue only what it is going to announce. -/
theorem hasFrames_callback (event : I2cSlaveEvent) (hquiet : wakeReader p fq event = false) :
    hasFrames (frameqSlaveCb p fq event).1 = hasFrames fq := by
  cases event with
  | stop =>
      simp only [wakeReader, frameqFinishWrite] at hquiet
      simp only [frameqSlaveCb, frameqFinishWrite, hasFrames]
      split
      · rfl
      · rename_i hnonempty
        rw [if_neg hnonempty] at hquiet
        split
        · rfl
        · rename_i hfits
          rw [if_neg hfits] at hquiet
          split
          · rfl
          · rename_i hroom
            rw [if_neg hroom] at hquiet
            cases hquiet
  | writeReceived val =>
      simp only [frameqSlaveCb, hasFrames]
      split <;> rfl
  | _ => rfl

/-- A call only takes frames out. -/
theorem hasFrames_callStep {args : ReadArgs} {signalled copyFails : Bool} {call : Call}
    (hafter : hasFrames (callStep p args signalled copyFails fq call).1 = true) :
    hasFrames fq = true := by
  cases call with
  | looping =>
      by_cases hempty : fq.count = 0
      · have htake : frameqTake p args.size fq = (fq, .empty) := if_pos hempty
        simp only [callStep, htake] at hafter
        exact hafter
      · exact decide_eq_true (Nat.pos_of_ne_zero hempty)
  | _ => exact hafter

/-- A call keeps the queue well formed. -/
theorem callStep_refines {s : Fifo} (h : Refines p fq s) (args : ReadArgs)
    (signalled copyFails : Bool) (call : Call) :
    ∃ s', Refines p (callStep p args signalled copyFails fq call).1 s' := by
  rcases callStep_cases Unit h (rfl : callStep p args signalled copyFails fq call = _) with
    ⟨hsame, -⟩ | ⟨frame, s', -, -, hrefines, -⟩ | ⟨len, taken, -, hcopy⟩
  · rw [hsame]
    exact ⟨s, h⟩
  · exact ⟨s', hrefines⟩
  · rw [hcopy]
    exact ⟨s, h⟩

/-- A call that is not waiting leaves its task alone, or starts to wait. -/
theorem taskAfter_place {task : Task} (hplace : task.place = .outside) (args : ReadArgs)
    (call : Call) :
    ¬ (taskAfter call task).Unwoken ∧
      ((taskAfter call task).place = .outside ↔ (Doing.reading args call).waits = false) := by
  cases call with
  | waiting => exact ⟨Task.not_unwoken_arrive, iff_of_false nofun nofun⟩
  | _ => exact ⟨Task.not_unwoken_outside hplace, iff_of_true hplace rfl⟩

end Queue

variable {p : Params} {d : Device τ}

omit [DecidableEq τ] in
theorem sound_probed {fq : FrameqData} (hprobed : Probed fq) :
    Sound p (Device.probed fq : Device τ) where
  refines := ⟨_, refines_probed hprobed⟩
  attentive _ := Task.attentive_idle
  waits _ := iff_of_true rfl rfl

/-- One thread changes its task and what it does; for the others nothing gets worse. -/
theorem Sound.set {fq : FrameqData} {t : τ} {task : Task} {doing : Doing} (h : Sound p d)
    (hrefines : ∃ s, Refines p fq s) (hlower : hasFrames fq = true → hasFrames d.fq = true)
    (hattentive : task.Attentive (hasFrames fq) d.wakeDue)
    (hwaits : task.place = .outside ↔ doing.waits = false) :
    Sound p ({ d with fq := fq }.set t task doing) := by
  refine ⟨hrefines, fun t' => ?_, fun t' => ?_⟩
  · by_cases heq : t' = t
    · subst heq
      simp only [Device.set, Function.update_self]
      exact attentive_leaving doing hattentive
    · simp only [Device.set, Function.update_of_ne heq]
      exact (h.attentive t').lower hlower
  · by_cases heq : t' = t
    · subst heq
      simp only [Device.set, Function.update_self, leaving_place]
      exact hwaits
    · simp only [Device.set, Function.update_of_ne heq]
      exact h.waits t'

/-- A step of a wait, and what the thread makes of its end. -/
theorem Sound.waitStep {t : τ} (h : Sound p d) (after : Option Leave → Doing)
    (hplace : (d.tasks t).place ≠ .outside)
    (hafter : ∀ leave, (after leave).waits = false ↔ leave ≠ none) :
    Sound p (d.set t ((d.tasks t).step (hasFrames d.fq)).1
      (after ((d.tasks t).step (hasFrames d.fq)).2)) := by
  refine Sound.set h h.refines id (h.attentive t).step ?_
  rw [hafter]
  cases hstep : (d.tasks t).step (hasFrames d.fq) with
  | mk task leave =>
      cases leave with
      | none => exact iff_of_false (Task.step_stays hplace hstep) (fun hne => hne rfl)
      | some leave => exact iff_of_true (Task.step_leave hstep).1 nofun

theorem Sound.proceed (h : Sound p d) (t : τ) (copyFails : Bool) :
    Sound p (d.proceed p t copyFails) := by
  have hwaits := h.waits t
  unfold Device.proceed
  cases hdoing : d.doing t with
  | idle => exact h
  | polled leave => exact h
  | polling =>
      rw [hdoing] at hwaits
      refine h.waitStep pollAfter (fun hout => absurd (hwaits.mp hout) nofun) fun leave => ?_
      cases leave with
      | none => exact iff_of_false nofun fun hne => hne rfl
      | some leave => exact iff_of_true rfl nofun
  | reading args call =>
      rw [hdoing] at hwaits
      obtain ⟨s, hrefines⟩ := h.refines
      by_cases hcall : call = .waiting
      · subst hcall
        refine h.waitStep (fun leave => .reading args (callAfter leave))
          (fun hout => absurd (hwaits.mp hout) nofun) fun leave => ?_
        cases leave with
        | none => exact iff_of_false nofun fun hne => hne rfl
        | some leave => cases leave <;> exact iff_of_true rfl nofun
      · have hplace : (d.tasks t).place = .outside := by
          refine hwaits.mpr ?_
          cases call with
          | waiting => exact absurd rfl hcall
          | _ => rfl
        obtain ⟨hawake, hafter⟩ := taskAfter_place hplace args
          (callStep p args false copyFails d.fq call).2
        have hset := Sound.set (t := t) h (callStep_refines hrefines args false copyFails call)
          hasFrames_callStep (Task.attentive_of_not_unwoken hawake) hafter
        cases call with
        | waiting => exact absurd rfl hcall
        | _ => exact hset

theorem Sound.move (h : Sound p d) (m : Move τ) : Sound p (d.move p m) := by
  cases m with
  | callback event =>
      simp only [Device.move]
      split
      · exact h
      · obtain ⟨s, hrefines⟩ := h.refines
        refine ⟨⟨_, callback_refines hrefines event⟩, fun t => ?_, h.waits⟩
        have hattentive := h.attentive t
        rw [Bool.not_eq_true] at *
        cases hquiet : wakeReader p d.fq event with
        | true => exact Task.attentive_due
        | false =>
            dsimp only
            rw [hasFrames_callback event hquiet, ← ‹d.wakeDue = false›]
            exact hattentive
  | wake =>
      simp only [Device.move]
      split
      · exact ⟨h.refines, fun t => Task.attentive_wakeUp, h.waits⟩
      · exact h
  | signal t => exact Sound.set h h.refines id Task.attentive_signal (h.waits t)
  | read t args =>
      simp only [Device.move]
      split
      · next hdone =>
          refine Sound.set h h.refines id (h.attentive t) (iff_of_true ?_ rfl)
          exact (h.waits t).mpr (waits_of_done hdone)
      · exact h
  | poll t =>
      simp only [Device.move]
      split
      · next hdone =>
          exact Sound.set h h.refines id (Task.attentive_of_not_unwoken Task.not_unwoken_prepare)
            (iff_of_false nofun nofun)
      · exact h
  | proceed t copyFails => exact h.proceed t copyFails

theorem sound_run (h : Sound p d) (moves : List (Move τ)) : Sound p (d.run p moves) := by
  induction moves generalizing d with
  | nil => exact h
  | cons m rest ih => exact ih (h.move m)

/-! ## A thread by itself -/

/-- The thread goes on `n` times with nothing in between. -/
def alone (t : τ) (n : Nat) : List (Move τ) := List.replicate n (.proceed t false)

theorem set_set (d : Device τ) (t : τ) (task task' : Task) (doing doing' : Doing) :
    (d.set t task doing).set t task' doing' = d.set t task' doing' := by
  simp only [Device.set, Function.update_idem]

/-- A wait by itself: the thread leaves it as its task does. -/
theorem run_alone_wait {t : τ} (after : Option Leave → Doing)
    (hproceed : ∀ d : Device τ, d.doing t = after none → d.proceed p t false =
      d.set t ((d.tasks t).step (hasFrames d.fq)).1
        (after ((d.tasks t).step (hasFrames d.fq)).2))
    (n : Nat) {task : Task} {leave : Leave} (hwaits : (after none).waits = true)
    (hdoing : d.doing t = after none)
    (hsteps : (d.tasks t).steps (hasFrames d.fq) n = (task, some leave)) :
    ∃ m ≤ n, d.run p (alone t m) = d.set t task (after (some leave)) := by
  induction n generalizing d with
  | zero => cases hsteps
  | succ n ih =>
      have hmove := hproceed d hdoing
      rw [Task.steps] at hsteps
      cases hstep : (d.tasks t).step (hasFrames d.fq) with
      | mk task' leave' =>
          rw [hstep] at hsteps hmove
          cases leave' with
          | some leave' =>
              cases hsteps
              exact ⟨1, Nat.succ_le_succ (Nat.zero_le n), hmove⟩
          | none =>
              have htask : (d.set t task' (after none)).tasks t = task' :=
                (Function.update_self _ _ _).trans (leaving_of_waits task' hwaits)
              obtain ⟨m, hle, hrun⟩ := ih (d := d.set t task' (after none))
                (Function.update_self _ _ _) (by rw [htask]; exact hsteps)
              refine ⟨m + 1, Nat.succ_le_succ hle, ?_⟩
              change (d.proceed p t false).run p (alone t m) = _
              rw [hmove, hrun, set_set]

/-- A waiting thread gets out of the wait with the frame still there. -/
theorem run_alone_ready {t : τ} (after : Option Leave → Doing) (h : Sound p d)
    (hproceed : ∀ d : Device τ, d.doing t = after none → d.proceed p t false =
      d.set t ((d.tasks t).step (hasFrames d.fq)).1
        (after ((d.tasks t).step (hasFrames d.fq)).2))
    (hdoing : d.doing t = after none) (hwaits : (after none).waits = true)
    (hdue : d.wakeDue = false) (hframes : hasFrames d.fq = true) :
    ∃ n ≤ 3, ∃ task, d.run p (alone t n) = d.set t task (after (some .ready)) := by
  have hattentive := h.attentive t
  rw [hframes, hdue] at hattentive
  have hplace : (d.tasks t).place ≠ .outside := fun hout => by
    have hnot := (h.waits t).mp hout
    rw [hdoing, hwaits] at hnot
    cases hnot
  obtain ⟨task, hsteps, -⟩ := Task.steps_ready hattentive hplace
  rw [← hframes] at hsteps
  obtain ⟨n, hle, hrun⟩ := run_alone_wait after hproceed 3 hwaits hdoing hsteps
  exact ⟨n, hle, task, hrun⟩

/-- What a call returns that finds `frame` at the head of the queue. -/
def outcomeOf (args : ReadArgs) (frame : List U8) : Outcome :=
  if args.size < frame.length then .msgSize else .frame frame

/-- What it leaves in the queue. -/
def leftBy (args : ReadArgs) (frame : List U8) (rest : List (List U8)) : List (List U8) :=
  if args.size < frame.length then frame :: rest else rest

/-- A call at the top of its loop that finds a frame returns. -/
theorem run_alone_looping {t : τ} {args : ReadArgs} {frame : List U8} {rest : List (List U8)}
    (h : Sound p d) (hdoing : d.doing t = .reading args .looping)
    (hframes : frames p d.fq = frame :: rest) :
    ∃ n ≤ 2, (d.run p (alone t n)).doing t = .reading args (.returned (outcomeOf args frame)) ∧
      frames p (d.run p (alone t n)).fq = leftBy args frame rest := by
  obtain ⟨s, hrefines⟩ := h.refines
  have hqueue : s.queue = frame :: rest := hrefines.queue.symm.trans hframes
  rcases take_cases hrefines args.size with ⟨hnil, -⟩ | ⟨frame', rest', hhead, hsmall, htake⟩ |
    ⟨frame', rest', fq', s', hhead, hfits, htake, hrefines', hrest, hbytes, -⟩
  · cases hnil.symm.trans hqueue
  · cases hhead.symm.trans hqueue
    have hmove : d.proceed p t false =
        d.set t (d.tasks t) (.reading args (.returned .msgSize)) := by
      simp only [Device.proceed, hdoing, callStep, htake, taskAfter]
    refine ⟨1, by omega, ?_⟩
    change (d.proceed p t false).doing t = _ ∧ frames p (d.proceed p t false).fq = _
    rw [hmove, outcomeOf, leftBy, if_pos hsmall, if_pos hsmall]
    exact ⟨Function.update_self _ _ _, hframes⟩
  · cases hhead.symm.trans hqueue
    have hlong : ¬ args.size < frame.length := Nat.not_lt.mpr hfits
    refine ⟨2, Nat.le_refl 2, ?_⟩
    change ((d.proceed p t false).proceed p t false).doing t = _ ∧
      frames p ((d.proceed p t false).proceed p t false).fq = _
    have hmove : d.proceed p t false = { d with fq := fq' }.set t (d.tasks t)
        (.reading args (.copying frame.length (d.fq.slots d.fq.tail).frame)) := by
      simp only [Device.proceed, hdoing, callStep, htake, taskAfter]
    have hdoing' : (d.proceed p t false).doing t =
        .reading args (.copying frame.length (d.fq.slots d.fq.tail).frame) := by
      rw [hmove]
      exact Function.update_self _ _ _
    have hmove' : (d.proceed p t false).proceed p t false =
        (d.proceed p t false).set t ((d.proceed p t false).tasks t)
          (.reading args (.returned (.frame (bytes (d.proceed p t false).fq.readBuf
            frame.length)))) := by
      rw [Device.proceed, hdoing']
      rfl
    have hfq : (d.proceed p t false).fq = fq' := by rw [hmove]; rfl
    rw [hmove', outcomeOf, leftBy, if_neg hlong, if_neg hlong]
    refine ⟨?_, ?_⟩
    · simp only [Device.set, Function.update_self, hfq, hbytes]
    · change frames p (d.proceed p t false).fq = rest
      rw [hfq, hrefines'.queue, hrest]

theorem run_append (moves moves' : List (Move τ)) :
    d.run p (moves ++ moves') = (d.run p moves).run p moves' :=
  List.foldl_append

omit [DecidableEq τ] in
theorem hasFrames_of_frames (h : Sound p d) {frame : List U8} {rest : List (List U8)}
    (hframes : frames p d.fq = frame :: rest) : hasFrames d.fq = true := by
  obtain ⟨s, hrefines⟩ := h.refines
  have hcount := hrefines.count_eq
  rw [hrefines.queue.symm.trans hframes, List.length_cons] at hcount
  exact decide_eq_true (by omega)

/-- Once the last callback is done, a thread that sleeps has nothing to wait for, and one that
finds a frame gets on: a call of `frameq_read` has returned after five steps of its own at
most, and a poll after three. -/
structure NeverStuck (p : Params) (d : Device τ) : Prop where
  asleep : ∀ t, ((d.move p .wake).tasks t).Unwoken → frames p d.fq = []
  reads : ∀ t args call frame rest, d.doing t = .reading args call →
    call = .looping ∨ call = .waiting → frames p d.fq = frame :: rest →
    ∃ n ≤ 5,
      (d.run p (.wake :: alone t n)).doing t = .reading args (.returned (outcomeOf args frame)) ∧
      frames p (d.run p (.wake :: alone t n)).fq = leftBy args frame rest
  polls : ∀ t, d.doing t = .polling → frames p d.fq ≠ [] →
    ∃ n ≤ 3, (d.run p (.wake :: alone t n)).doing t = .polled .ready

/-- The pending wake-up, if there is one. -/
theorem Sound.awake (h : Sound p d) :
    Sound p (d.move p .wake) ∧ (d.move p .wake).wakeDue = false ∧
      (d.move p .wake).fq = d.fq ∧ (d.move p .wake).doing = d.doing := by
  refine ⟨h.move .wake, ?_⟩
  simp only [Device.move]
  split
  · exact ⟨rfl, rfl, rfl⟩
  · next hdue => exact ⟨Bool.eq_false_iff.mpr hdue, rfl, rfl⟩

theorem neverStuck_of_sound (h : Sound p d) : NeverStuck p d := by
  obtain ⟨hsound, hdue, hfq, hdoing⟩ := h.awake
  have hrun : ∀ moves, d.run p (.wake :: moves) = (d.move p .wake).run p moves := fun _ => rfl
  constructor
  · intro t hunwoken
    by_contra hne
    obtain ⟨frame, rest, hframes⟩ := List.exists_cons_of_ne_nil hne
    rw [← hfq] at hframes
    have hdue' := hsound.attentive t hunwoken (hasFrames_of_frames hsound hframes)
    rw [hdue] at hdue'
    cases hdue'
  · intro t args call frame rest hcall hplace hframes
    rw [← hdoing] at hcall
    rw [← hfq] at hframes
    rcases hplace with rfl | rfl
    · obtain ⟨n, hle, hreturned⟩ := run_alone_looping hsound hcall hframes
      exact ⟨n, by omega, hreturned⟩
    · obtain ⟨m, hm, task, hwait⟩ := run_alone_ready
        (fun leave => .reading args (callAfter leave)) hsound
        (fun d hd => by simp only [Device.proceed, hd, callAfter]) hcall rfl hdue
        (hasFrames_of_frames hsound hframes)
      have hsound' := sound_run hsound (alone t m)
      rw [hwait] at hsound'
      obtain ⟨n, hn, hreturned⟩ := run_alone_looping hsound' (Function.update_self _ _ _) hframes
      refine ⟨m + n, by omega, ?_⟩
      have hsplit : alone t (m + n) = alone t m ++ alone t n := List.replicate_add ..
      rw [hrun, hsplit, run_append, hwait]
      exact hreturned
  · intro t hpolling hne
    obtain ⟨frame, rest, hframes⟩ := List.exists_cons_of_ne_nil hne
    rw [← hdoing] at hpolling
    rw [← hfq] at hframes
    obtain ⟨n, hn, task, hwait⟩ := run_alone_ready pollAfter hsound
      (fun d hd => by simp only [Device.proceed, hd, pollAfter]) hpolling rfl hdue
      (hasFrames_of_frames hsound hframes)
    refine ⟨n, hn, ?_⟩
    rw [hrun, hwait]
    exact Function.update_self _ _ _

/-- No wake-up is lost, whatever comes in between whom. -/
theorem run_neverStuck {fq : FrameqData} (hprobed : Probed fq) (moves : List (Move τ)) :
    NeverStuck p ((Device.probed fq).run p moves) :=
  neverStuck_of_sound (sound_run (sound_probed hprobed) moves)

/-- The reader has tested the count for the last time when the frame is queued. -/
def justMissed : List (Move Unit) :=
  [.read () ⟨2, false⟩, .proceed () false, .proceed () false, .proceed () false,
    .proceed () false, .callback (.writeReceived 7), .callback .stop, .proceed () false]

/-- It sleeps, with the wake-up still to come. -/
theorem run_neverStuck_justMissed :
    NeverStuck tiny ((Device.probed zeroed).run tiny justMissed) ∧
      (((Device.probed zeroed).run tiny justMissed).tasks ()).place = .asleep ∧
      ((Device.probed zeroed).run tiny justMissed).wakeDue = true :=
  ⟨run_neverStuck ⟨rfl, rfl, rfl, rfl, rfl, rfl, rfl, rfl, rfl⟩ justMissed, by decide, by decide⟩

/-! ## The wait as one step -/

/-- What the thread shows to somebody who does not look into the waits. -/
def Doing.Covers : Doing → Option (ReadArgs × FrameReaders.Call) → Prop
  | .reading args call, thread => thread = some (args, call)
  | _, thread => thread = none ∨ ∃ args outcome, thread = some (args, .returned outcome)

/-- The same device without the wait queue. -/
structure Covers (d : Device τ) (r : Readers τ) : Prop where
  fq : r.fq = d.fq
  files : r.files = 1
  threads : ∀ t, (d.doing t).Covers (r.threads t)

omit [DecidableEq τ] in
theorem covers_probed (fq : FrameqData) :
    Covers (Device.probed fq : Device τ) (frameqOpen (Readers.idle fq)).1 :=
  ⟨rfl, rfl, fun _ => Or.inl rfl⟩

theorem Covers.set {r : Readers τ} (fq : FrameqData) {fq' : FrameqData} {t : τ} {task : Task}
    {doing : Doing} {thread : Option (ReadArgs × Call)} (h : Covers d r) (hfq : fq' = fq)
    (hthread : doing.Covers thread) :
    Covers ({ d with fq := fq }.set t task doing)
      { r with fq := fq', threads := Function.update r.threads t thread } := by
  refine ⟨hfq, h.files, fun t' => ?_⟩
  by_cases heq : t' = t
  · subst heq
    simp only [Device.set, Function.update_self]
    exact hthread
  · simp only [Device.set, Function.update_of_ne heq]
    exact h.threads t'

/-- A thread changes its task only. -/
theorem Covers.setTask {r : Readers τ} {t : τ} {task : Task} {doing : Doing} (h : Covers d r)
    (hthread : doing.Covers (r.threads t)) : Covers (d.set t task doing) r := by
  refine ⟨h.fq, h.files, fun t' => ?_⟩
  by_cases heq : t' = t
  · subst heq
    simp only [Device.set, Function.update_self]
    exact hthread
  · simp only [Device.set, Function.update_of_ne heq]
    exact h.threads t'

/-- A step of a call is a step of the call in the device without the queue. -/
theorem Covers.callStep {r : Readers τ} {t : τ} {args : ReadArgs} {call : Call} (task : Task)
    (signalled copyFails : Bool) (h : Covers d r) (hdoing : d.doing t = .reading args call) :
    Covers ({ d with fq := (callStep p args signalled copyFails d.fq call).1 }.set t task
        (.reading args (callStep p args signalled copyFails d.fq call).2))
      (r.move p (.proceed t signalled copyFails)).1 := by
  have hthread := h.threads t
  rw [hdoing] at hthread
  rw [proceed_eq hthread, h.fq]
  exact h.set _ rfl rfl

omit [DecidableEq τ] in
theorem covers_pollAfter {thread : Option (ReadArgs × Call)}
    (hthread : Doing.polling.Covers thread) (leave : Option Leave) :
    (pollAfter leave).Covers thread := by
  cases leave <;> exact hthread

theorem Covers.proceed {r : Readers τ} (h : Covers d r) (t : τ) (copyFails : Bool) :
    ∃ moves, Covers (d.proceed p t copyFails) (r.run p moves).1 := by
  have hthread := h.threads t
  unfold Device.proceed
  cases hdoing : d.doing t with
  | idle => exact ⟨[], h⟩
  | polled leave => exact ⟨[], h⟩
  | polling =>
      rw [hdoing] at hthread
      exact ⟨[], h.setTask (covers_pollAfter hthread _)⟩
  | reading args call =>
      by_cases hcall : call = .waiting
      · subst hcall
        dsimp only
        cases hstep : (d.tasks t).step (hasFrames d.fq) with
        | mk task leave =>
            cases leave with
            | none =>
                rw [hdoing] at hthread
                exact ⟨[], h.setTask hthread⟩
            | some leave =>
                obtain ⟨-, hleave⟩ := Task.step_leave hstep
                have hcovers := fun signalled =>
                  h.callStep (p := p) task signalled copyFails hdoing
                by_cases hsome : 0 < d.fq.count
                · rw [hasFrames, if_pos (decide_eq_true hsome)] at hleave
                  subst hleave
                  have hready := hcovers false
                  simp only [FrameReaders.callStep, if_pos hsome] at hready
                  exact ⟨[.proceed t false copyFails], hready⟩
                · rw [hasFrames, decide_eq_false hsome, if_neg Bool.false_ne_true] at hleave
                  subst hleave
                  have hsignal := hcovers true
                  simp only [FrameReaders.callStep, if_neg hsome, if_true] at hsignal
                  exact ⟨[.proceed t true copyFails], hsignal⟩
      · have hcovers := h.callStep (p := p)
          (taskAfter (FrameReaders.callStep p args false copyFails d.fq call).2 (d.tasks t)) false
          copyFails hdoing
        refine ⟨[.proceed t false copyFails], ?_⟩
        cases call with
        | waiting => exact absurd rfl hcall
        | _ => exact hcovers

theorem Covers.enter {r : Readers τ} (h : Covers d r) (t : τ) (args : ReadArgs)
    (hdone : (d.doing t).done = true) :
    Covers (d.set t (d.tasks t) (.reading args .looping)) (enterRead t args r) := by
  have hthread := h.threads t
  have henter : enterRead t args r =
      { r with threads := Function.update r.threads t (some (args, .looping)) } := by
    rw [enterRead, if_neg (by rw [h.files]; exact Nat.one_ne_zero)]
    cases hdoing : d.doing t with
    | polling =>
        rw [hdoing] at hdone
        cases hdone
    | reading args' call =>
        rw [hdoing] at hdone hthread
        cases call with
        | returned outcome =>
            have hreturned : r.threads t = some (args', .returned outcome) := hthread
            rw [hreturned]
        | _ => cases hdone
    | _ =>
        rw [hdoing] at hthread
        rcases hthread with hnone | ⟨args', outcome, hreturned⟩
        · rw [hnone]
        · rw [hreturned]
  rw [henter]
  exact h.set d.fq h.fq rfl

theorem Covers.move {r : Readers τ} (h : Covers d r) (m : Move τ) :
    ∃ moves, Covers (d.move p m) (r.run p moves).1 := by
  cases m with
  | callback event =>
      simp only [Device.move]
      split
      · exact ⟨[], h⟩
      · refine ⟨[.callback event], ?_, h.files, h.threads⟩
        simp only [Readers.run, Readers.move, h.fq]
  | wake =>
      simp only [Device.move]
      split
      · exact ⟨[], h.fq, h.files, h.threads⟩
      · exact ⟨[], h⟩
  | signal t => exact ⟨[], h.setTask (h.threads t)⟩
  | read t args =>
      simp only [Device.move]
      split
      · next hdone => exact ⟨[.enter t args], h.enter t args hdone⟩
      · exact ⟨[], h⟩
  | poll t =>
      simp only [Device.move]
      split
      · next hdone =>
          refine ⟨[], h.setTask ?_⟩
          have hthread := h.threads t
          cases hdoing : d.doing t with
          | polling =>
              rw [hdoing] at hdone
              cases hdone
          | reading args call =>
              rw [hdoing] at hdone hthread
              cases call with
              | returned outcome => exact Or.inr ⟨args, outcome, hthread⟩
              | _ => cases hdone
          | _ =>
              rw [hdoing] at hthread
              exact hthread
      · exact ⟨[], h⟩
  | proceed t copyFails => exact h.proceed t copyFails

theorem readers_run_append (r : Readers τ) (first later : List (FrameReaders.Move τ)) :
    (r.run p (first ++ later)).1 = ((r.run p first).1.run p later).1 := by
  induction first generalizing r with
  | nil => rfl
  | cons move rest ih => exact ih _

/-- Taking the wait apart adds nothing to what the readers can see: every run is one of the
device whose waits are a single step. -/
theorem run_covers {fq : FrameqData} (moves : List (Move τ)) :
    ∃ moves', Covers ((Device.probed fq).run p moves)
      ((frameqOpen (Readers.idle fq)).1.run p moves').1 := by
  have hrun : ∀ (d : Device τ) (r : Readers τ), Covers d r →
      ∃ moves', Covers (d.run p moves) (r.run p moves').1 := by
    induction moves with
    | nil => exact fun d r h => ⟨[], h⟩
    | cons m rest ih =>
        intro d r h
        obtain ⟨first, hfirst⟩ := h.move (p := p) m
        obtain ⟨later, hlater⟩ := ih _ _ hfirst
        refine ⟨first ++ later, ?_⟩
        rw [readers_run_append]
        exact hlater
  exact hrun _ _ (covers_probed fq)

end RadsatLinux.I2c.Blocking
