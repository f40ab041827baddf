import Mathlib.Init

/-!
# Wait queues

A task that waits for a condition goes through `wait_event_interruptible`: it tests the
condition, puts itself on the queue, marks itself as sleeping, tests once more and only then
gives up the processor.  `wakeUp` marks every task on the queue as runnable.  No wake-up is
lost when whoever makes the condition true wakes the queue afterwards: `Attentive` is what one
task contributes to that, and every step keeps it.
-/

namespace RadsatLinux.Library.WaitQueue

/-- Where a task is: not waiting, before the first test, about to go on the queue, before the
last test with a signal pending, on the queue with the test to come, after that test has
failed, and off the processor. -/
inductive Place where
  | outside
  | arriving
  | preparing
  | interrupting
  | queued
  | tested
  | asleep
  deriving DecidableEq

/-- A task on the queue is runnable again when it has been woken since it went there. -/
structure Task where
  place : Place
  runnable : Bool
  signalled : Bool
  deriving DecidableEq

/-- How a wait ends: the condition holds, or a signal came first. -/
inductive Leave where
  | ready
  | interrupted
  deriving DecidableEq

namespace Task

/-- A task that is not waiting. -/
def idle : Task := ⟨.outside, true, false⟩

/-- The task starts to wait. -/
def arrive (t : Task) : Task := { t with place := .arriving }

/-- The task goes on the queue without a first test. -/
def prepare (t : Task) : Task := { t with place := .preparing }

/-- The task goes on, with the condition as it is now. -/
def step (condition : Bool) (t : Task) : Task × Option Leave :=
  match t.place with
  | .outside => (t, none)
  | .arriving =>
      if condition then ({ t with place := .outside }, some .ready)
      else ({ t with place := .preparing }, none)
  | .preparing =>
      if t.signalled then ({ t with place := .interrupting }, none)
      else ({ t with place := .queued, runnable := false }, none)
  | .interrupting =>
      ({ t with place := .outside }, some (if condition then .ready else .interrupted))
  | .queued =>
      if condition then ({ t with place := .outside, runnable := true }, some .ready)
      else ({ t with place := .tested }, none)
  | .tested =>
      if t.runnable || t.signalled then ({ t with place := .preparing, runnable := true }, none)
      else ({ t with place := .asleep }, none)
  | .asleep => if t.runnable then ({ t with place := .preparing }, none) else (t, none)

/-- A task that is not on the queue is runnable already. -/
def wakeUp (t : Task) : Task := { t with runnable := true }

def signal (t : Task) : Task := { t with signalled := true, runnable := true }

/-- On the way back to user space the pending signals are handled. -/
def handled (t : Task) : Task := { t with signalled := false }

/-- The task has done its last test and has not been woken since. -/
def Unwoken (t : Task) : Prop :=
  (t.place = .tested ∨ t.place = .asleep) ∧ t.runnable = false

instance (t : Task) : Decidable t.Unwoken := inferInstanceAs (Decidable (_ ∧ _))

/-- If the task may sleep although the condition holds, a wake-up is due. -/
def Attentive (condition due : Bool) (t : Task) : Prop :=
  t.Unwoken → condition = true → due = true

variable {condition due : Bool} {t : Task}

theorem not_unwoken_outside (h : t.place = .outside) : ¬ t.Unwoken := by
  rintro ⟨hplace | hplace, -⟩
  · cases h.symm.trans hplace
  · cases h.symm.trans hplace

theorem not_unwoken_arrive : ¬ t.arrive.Unwoken := by
  rintro ⟨hplace | hplace, -⟩
  · cases hplace
  · cases hplace

theorem not_unwoken_prepare : ¬ t.prepare.Unwoken := by
  rintro ⟨hplace | hplace, -⟩
  · cases hplace
  · cases hplace

theorem attentive_of_not_unwoken (h : ¬ t.Unwoken) : Attentive condition due t :=
  fun hunwoken => absurd hunwoken h

theorem attentive_idle : Attentive condition due idle :=
  attentive_of_not_unwoken (by decide)

/-- Whoever raises the condition owes the queue a wake-up. -/
theorem attentive_due : Attentive condition true t := fun _ _ => rfl

theorem attentive_wakeUp : Attentive condition due t.wakeUp := by
  refine attentive_of_not_unwoken fun ⟨_, hrunnable⟩ => ?_
  cases hrunnable

theorem attentive_signal : Attentive condition due t.signal := by
  refine attentive_of_not_unwoken fun ⟨_, hrunnable⟩ => ?_
  cases hrunnable

theorem Attentive.handled (h : Attentive condition due t) : Attentive condition due t.handled := h

/-- A change that does not raise the condition. -/
theorem Attentive.lower {condition' : Bool} (h : Attentive condition due t)
    (hlower : condition' = true → condition = true) : Attentive condition' due t :=
  fun hunwoken hcondition => h hunwoken (hlower hcondition)

/-- The last test comes after the task has gone on the queue, so what it has missed is still
to be announced. -/
theorem Attentive.step (h : Attentive condition due t) :
    Attentive condition due (t.step condition).1 := by
  obtain ⟨place, runnable, signalled⟩ := t
  intro hunwoken hcondition
  subst hcondition
  obtain ⟨hplace, hrunnable⟩ := hunwoken
  cases place with
  | tested =>
      cases runnable with
      | true =>
          simp only [Task.step, Bool.true_or, if_true] at hrunnable
          cases hrunnable
      | false =>
          cases signalled with
          | true =>
              simp only [Task.step, Bool.or_true, if_true] at hrunnable
              cases hrunnable
          | false => exact h ⟨Or.inl rfl, rfl⟩ rfl
  | asleep =>
      cases runnable with
      | true =>
          simp only [Task.step, if_true] at hrunnable
          cases hrunnable
      | false => exact h ⟨Or.inr rfl, rfl⟩ rfl
  | preparing => cases signalled <;> simp [Task.step] at hplace
  | _ => simp [Task.step] at hplace

/-- The task goes on by itself while the condition stays as it is. -/
def steps (condition : Bool) : Nat → Task → Task × Option Leave
  | 0, t => (t, none)
  | n + 1, t =>
      match t.step condition with
      | (t', some leave) => (t', some leave)
      | (t', none) => t'.steps condition n

/-- A waiting task leaves with the condition as soon as it is given three steps, unless it
sleeps through a wake-up that is still due. -/
theorem steps_ready (h : Attentive true false t) (hwaits : t.place ≠ .outside) :
    ∃ t', t.steps true 3 = (t', some .ready) ∧ t'.place = .outside := by
  obtain ⟨place, runnable, signalled⟩ := t
  cases place with
  | outside => exact absurd rfl hwaits
  | tested =>
      cases runnable with
      | true => cases signalled <;> exact ⟨_, rfl, rfl⟩
      | false => exact absurd (h ⟨Or.inl rfl, rfl⟩ rfl) Bool.false_ne_true
  | asleep =>
      cases runnable with
      | true => cases signalled <;> exact ⟨_, rfl, rfl⟩
      | false => exact absurd (h ⟨Or.inr rfl, rfl⟩ rfl) Bool.false_ne_true
  | _ => cases signalled <;> exact ⟨_, rfl, rfl⟩

/-- A wait ends for the condition, or for a signal while the condition does not hold. -/
theorem step_leave {t' : Task} {leave : Leave} (hstep : t.step condition = (t', some leave)) :
    t'.place = .outside ∧ leave = if condition then .ready else .interrupted := by
  obtain ⟨place, runnable, signalled⟩ := t
  cases place with
  | outside => cases hstep
  | arriving =>
      cases condition <;> cases hstep
      exact ⟨rfl, rfl⟩
  | preparing => cases signalled <;> cases hstep
  | interrupting =>
      cases hstep
      exact ⟨rfl, rfl⟩
  | queued =>
      cases condition <;> cases hstep
      exact ⟨rfl, rfl⟩
  | tested => cases runnable <;> cases signalled <;> cases hstep
  | asleep => cases runnable <;> cases hstep

/-- A task that has not left is still waiting. -/
theorem step_stays {t' : Task} (hwaits : t.place ≠ .outside)
    (hstep : t.step condition = (t', none)) : t'.place ≠ .outside := by
  obtain ⟨place, runnable, signalled⟩ := t
  cases place with
  | outside => exact absurd rfl hwaits
  | arriving =>
      cases condition <;> cases hstep
      exact nofun
  | preparing => cases signalled <;> cases hstep <;> exact nofun
  | interrupting => cases hstep
  | queued =>
      cases condition <;> cases hstep
      exact nofun
  | tested => cases runnable <;> cases signalled <;> cases hstep <;> exact nofun
  | asleep => cases runnable <;> cases hstep <;> exact nofun

end Task

end RadsatLinux.Library.WaitQueue
