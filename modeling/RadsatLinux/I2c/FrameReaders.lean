import RadsatLinux.I2c.FrameQueue

/-!
# Readers of the frame queue

`frameq_read` step by step, with callbacks and other readers in between: what it does under
the lock, the wait on an empty queue, and the copy to user space, which comes after the frame
has left the queue and goes by way of the one `read_buf` of the device.
-/

namespace RadsatLinux.I2c.FrameReaders

open RadsatLinux.Library.RingBuffer
open RadsatLinux.I2c.FrameQueue

/-! ## The steps of a call -/

/-- What a call finds under the lock. -/
inductive Locked where
  | empty
  | tooSmall
  | taken (len : Nat)

/-- The part of `frameq_read` under the lock, with a buffer of `size` bytes. -/
def frameqTake (p : Params) (size : Nat) (fq : FrameqData) : FrameqData × Locked :=
  if fq.count = 0 then (fq, .empty)
  else
    let len := (fq.slots fq.tail).len
    if size < len then (fq, .tooSmall)
    else
      ({ fq with
          readBuf := memcpy fq.readBuf (fq.slots fq.tail).data len
          tail := uint (fq.tail + 1) % p.queueDepth
          count := uint (fq.count + (2 ^ 32 - 1)) }, .taken len)

/-- With nothing in between, the steps are one pass of `frameq_read`. -/
theorem frameqRead_eq (p : Params) (size : Nat) (copyFails : Bool) (fq : FrameqData) :
    frameqRead p size copyFails fq =
      match frameqTake p size fq with
      | (fq', .empty) => (fq', .again)
      | (fq', .tooSmall) => (fq', .msgSize)
      | (fq', .taken len) =>
          (fq', if copyFails then .fault else .frame (bytes fq'.readBuf len)) := by
  unfold frameqRead frameqTake
  split
  · rfl
  · dsimp only
    split
    · rfl
    · rfl

/-- How a call returns: with the bytes it copied, or with a negative error. -/
inductive Outcome where
  | frame (data : List U8)
  | msgSize
  | again
  | interrupted
  | fault
  deriving DecidableEq

/-- Where a call is: at the top of the loop, in the wait, between the unlock and the copy of
the frame that it took out, or back in user space. -/
inductive Call where
  | looping
  | waiting
  | copying (len : Nat) (taken : List U8)
  | returned (outcome : Outcome)

structure ReadArgs where
  size : Nat
  nonblock : Bool

/-- A call goes on: `signalled` when a signal is pending, `copyFails` when `copy_to_user` does
not copy everything. -/
def callStep (p : Params) (args : ReadArgs) (signalled copyFails : Bool) (fq : FrameqData) :
    Call → FrameqData × Call
  | .looping =>
      match frameqTake p args.size fq with
      | (fq', .empty) => (fq', if args.nonblock then .returned .again else .waiting)
      | (fq', .tooSmall) => (fq', .returned .msgSize)
      | (fq', .taken len) => (fq', .copying len (fq.slots fq.tail).frame)
  | .waiting =>
      -- `wait_event_interruptible` looks at its condition before it looks for signals.
      (fq, if 0 < fq.count then .looping
        else if signalled then .returned .interrupted else .waiting)
  | .copying len _ =>
      (fq, .returned (if copyFails then .fault else .frame (bytes fq.readBuf len)))
  | .returned outcome => (fq, .returned outcome)

/-- The frames that a callback puts into the queue. -/
def queuedBy (p : Params) (fq : FrameqData) : I2cSlaveEvent → List (List U8)
  | .stop => if (frameqFinishWrite p fq).2 then [bytes fq.active fq.activeLen] else []
  | _ => []

section Steps

variable {p : Params} {fq : FrameqData} {s : Fifo}

/-- Under the lock a call finds the queue empty, or a frame that is too long for its buffer,
or takes the oldest frame into `read_buf`. -/
theorem take_cases (h : Refines p fq s) (size : Nat) :
    (s.queue = [] ∧ frameqTake p size fq = (fq, .empty)) ∨
    (∃ frame rest, s.queue = frame :: rest ∧ size < frame.length ∧
      frameqTake p size fq = (fq, .tooSmall)) ∨
    ∃ frame rest fq' s', s.queue = frame :: rest ∧ frame.length ≤ size ∧
      frameqTake p size fq = (fq', .taken frame.length) ∧ Refines p fq' s' ∧ s'.queue = rest ∧
      bytes fq'.readBuf frame.length = frame ∧ (fq.slots fq.tail).frame = frame := by
  have hcount := h.count_eq
  cases hqueue : s.queue with
  | nil =>
      rw [hqueue, List.length_nil] at hcount
      exact Or.inl ⟨rfl, if_pos hcount⟩
  | cons frame rest =>
      right
      have holdest := h.oldest hqueue
      have hlen : (fq.slots fq.tail).len = frame.length := by
        rw [← holdest, FrameqSlot.frame, bytes, List.length_map, List.length_range]
      rw [hqueue, List.length_cons] at hcount
      have hnonempty : fq.count ≠ 0 := by omega
      by_cases hsmall : size < frame.length
      · refine Or.inl ⟨frame, rest, rfl, hsmall, ?_⟩
        rw [frameqTake, if_neg hnonempty, hlen, if_pos hsmall]
      · right
        have hread := read_refines h size false
        rw [frameqRead_eq] at hread
        have htake : frameqTake p size fq = ({ fq with
            readBuf := memcpy fq.readBuf (fq.slots fq.tail).data frame.length
            tail := uint (fq.tail + 1) % p.queueDepth
            count := uint (fq.count + (2 ^ 32 - 1)) }, .taken frame.length) := by
          rw [frameqTake, if_neg hnonempty, hlen, if_neg hsmall]
        rw [htake] at hread
        refine ⟨frame, rest, _, (s.read size false).1, rfl, Nat.le_of_not_lt hsmall, htake,
          hread.1, ?_, ?_, holdest⟩
        · simp only [Fifo.read, hqueue, if_neg hsmall]
        · dsimp only
          rw [bytes_memcpy, ← hlen]
          exact holdest

/-- A stop queues the frame in progress when there is one, it is not too long, and there is
room for it. -/
theorem frameqFinishWrite_queued (p : Params) (fq : FrameqData) :
    (frameqFinishWrite p fq).2 = true ↔
      fq.activeLen ≠ 0 ∧ fq.activeOverflow = false ∧ fq.count < p.queueDepth := by
  unfold frameqFinishWrite
  split
  · next hempty => simp [hempty]
  · next hempty =>
      split
      · next hlong => simp [hlong]
      · next hlong =>
          split
          · next hfull => simp [Nat.not_lt.mpr hfull]
          · next hfull => simp [hempty, hlong, Nat.lt_of_not_le hfull]

theorem accepts_iff (h : Refines p fq s) :
    Fifo.Accepts p s.received s.queue.length ↔ (frameqFinishWrite p fq).2 = true := by
  have hmax := p.maxFrameBytes_pos
  have hlen := h.active.len
  have hnil : s.received = [] ↔ s.received.length = 0 := List.length_eq_zero_iff.symm
  rw [frameqFinishWrite_queued, h.active.overflow, h.count_eq, decide_eq_false_iff_not,
    Fifo.Accepts, Ne, hnil, hlen]
  omega

/-- A callback keeps the frames in the queue, and adds what it queues at the end. -/
theorem callback_queue (h : Refines p fq s) (event : I2cSlaveEvent) :
    (s.callback p event).queue = s.queue ++ queuedBy p fq event := by
  cases event with
  | stop =>
      simp only [Fifo.callback, queuedBy]
      by_cases haccept : Fifo.Accepts p s.received s.queue.length
      · have hfits : s.received.length ≤ p.maxFrameBytes := haccept.2.1
        have hbytes : bytes fq.active fq.activeLen = s.received := by
          rw [h.active.data, List.take_of_length_le hfits]
        rw [if_pos haccept, if_pos ((accepts_iff h).mp haccept), hbytes]
      · rw [if_neg haccept, if_neg fun hqueued => haccept ((accepts_iff h).mpr hqueued),
          List.append_nil]
  | _ => exact (List.append_nil _).symm

theorem queuedBy_ne_nil {event : I2cSlaveEvent} {frame : List U8}
    (hmem : frame ∈ queuedBy p fq event) : frame ≠ [] := by
  cases event with
  | stop =>
      rw [queuedBy] at hmem
      split at hmem
      · next hqueued =>
          have hlen := ((frameqFinishWrite_queued p fq).mp hqueued).1
          cases List.mem_singleton.mp hmem
          intro hnil
          have hlength := congrArg List.length hnil
          rw [bytes, List.length_map, List.length_range] at hlength
          exact hlen hlength
      · cases hmem
  | _ => cases hmem

theorem readBuf_callback (p : Params) (fq : FrameqData) (event : I2cSlaveEvent) :
    (frameqSlaveCb p fq event).1.readBuf = fq.readBuf := by
  cases event with
  | stop =>
      simp only [frameqSlaveCb, frameqFinishWrite]
      split
      · rfl
      · split
        · rfl
        · split <;> rfl
  | writeReceived val =>
      simp only [frameqSlaveCb]
      split <;> rfl
  | _ => rfl

end Steps

/-! ## One call -/

/-- A callback, or a step of the call. -/
inductive Turn where
  | callback (event : I2cSlaveEvent)
  | proceed (signalled : Bool)

/-- A call under way, and the frames that were queued since it began. -/
structure Reading where
  fq : FrameqData
  call : Call
  arrived : List (List U8)

def Reading.turn (p : Params) (args : ReadArgs) (copyFails : Bool) (r : Reading) : Turn → Reading
  | .callback event => ⟨(frameqSlaveCb p r.fq event).1, r.call, r.arrived ++ queuedBy p r.fq event⟩
  | .proceed signalled =>
      let (fq, call) := callStep p args signalled copyFails r.fq r.call
      ⟨fq, call, r.arrived⟩

/-- A call of `frameq_read` after some turns. -/
def readCall (p : Params) (args : ReadArgs) (copyFails : Bool) (fq : FrameqData)
    (turns : List Turn) : Reading :=
  turns.foldl (Reading.turn p args copyFails) ⟨fq, .looping, []⟩

/-- The queue holds what it held before, with what has arrived since, and a read into a buffer
that is large enough and can be written returns the frame at the head. -/
structure LosesNothing (p : Params) (fq : FrameqData) (r : Reading) : Prop where
  queue : frames p r.fq = frames p fq ++ r.arrived
  retry : ∀ frame rest size, frames p fq ++ r.arrived = frame :: rest → frame.length ≤ size →
    (frameqRead p size false r.fq).2 = .frame frame

/-- A call that returns an error loses nothing, whatever comes in between. -/
def FailureLosesNothing (p : Params) (args : ReadArgs) (copyFails : Bool) (fq : FrameqData) :
    Prop :=
  ∀ turns outcome, (readCall p args copyFails fq turns).call = .returned outcome →
    (∀ data, outcome ≠ .frame data) → LosesNothing p fq (readCall p args copyFails fq turns)

/-- A buffer of `size` bytes may be handed a frame: the one at the head fits, or, when there is
none, one that has yet to arrive. -/
def Fits (size : Nat) : List (List U8) → Prop
  | [] => 0 < size
  | frame :: _ => frame.length ≤ size

/-- Where the frames are that were in the queue before, or have arrived since, as a call goes
on. -/
def Accounts (args : ReadArgs) (copyFails : Bool) (before : List (List U8)) (r : Reading)
    (queue : List (List U8)) : Prop :=
  match r.call with
  | .copying _ taken =>
      before ++ r.arrived = taken :: queue ∧ taken.length ≤ args.size
  | .returned .fault => copyFails = true ∧
      ∃ taken, before ++ r.arrived = taken :: queue ∧ taken.length ≤ args.size
  | .returned (.frame _) => True
  | _ => queue = before ++ r.arrived

section OneCall

variable {p : Params} {args : ReadArgs} {copyFails : Bool} {fq : FrameqData} {s : Fifo}
  {before : List (List U8)} {r : Reading}

theorem Accounts.callback {event : I2cSlaveEvent} (h : Refines p r.fq s)
    (haccounts : Accounts args copyFails before r s.queue) :
    Accounts args copyFails before (r.turn p args copyFails (.callback event))
      (s.callback p event).queue := by
  rw [callback_queue h]
  unfold Accounts at haccounts ⊢
  simp only [Reading.turn]
  cases hcall : r.call with
  | copying len taken =>
      rw [hcall] at haccounts
      refine ⟨?_, haccounts.2⟩
      rw [← List.append_assoc, haccounts.1, List.cons_append]
  | returned outcome =>
      rw [hcall] at haccounts
      cases outcome with
      | frame data => trivial
      | fault =>
          obtain ⟨hfails, taken, hqueue, hfits⟩ := haccounts
          refine ⟨hfails, taken, ?_, hfits⟩
          rw [← List.append_assoc, hqueue, List.cons_append]
      | _ =>
          dsimp only at haccounts ⊢
          rw [haccounts, List.append_assoc]
  | _ =>
      rw [hcall] at haccounts
      dsimp only at haccounts ⊢
      rw [haccounts, List.append_assoc]

/-- One step of the call. -/
theorem Accounts.proceed (signalled : Bool) (h : Refines p r.fq s)
    (haccounts : Accounts args copyFails before r s.queue) :
    ∃ s', Refines p (r.turn p args copyFails (.proceed signalled)).fq s' ∧
      Accounts args copyFails before (r.turn p args copyFails (.proceed signalled)) s'.queue := by
  unfold Accounts at haccounts ⊢
  simp only [Reading.turn]
  cases hcall : r.call with
  | looping =>
      rw [hcall] at haccounts
      dsimp only at haccounts
      rcases take_cases h args.size with ⟨-, htake⟩ | ⟨frame, rest, -, -, htake⟩ |
        ⟨frame, rest, fq', s', hqueue, hfits, htake, hrefines, hrest, -, htaken⟩
      · refine ⟨s, ?_, ?_⟩
        · simp only [callStep, htake]
          exact h
        · simp only [callStep, htake]
          cases args.nonblock <;> exact haccounts
      · refine ⟨s, ?_, ?_⟩
        · simp only [callStep, htake]
          exact h
        · simp only [callStep, htake]
          exact haccounts
      · refine ⟨s', ?_, ?_⟩
        · simp only [callStep, htake]
          exact hrefines
        · simp only [callStep, htake]
          rw [htaken, ← haccounts, hqueue, hrest]
          exact ⟨rfl, hfits⟩
  | waiting =>
      rw [hcall] at haccounts
      refine ⟨s, h, ?_⟩
      by_cases hsome : 0 < r.fq.count
      · simp only [callStep, if_pos hsome]
        exact haccounts
      · simp only [callStep, if_neg hsome]
        cases signalled <;> exact haccounts
  | copying len taken =>
      rw [hcall] at haccounts
      refine ⟨s, h, ?_⟩
      simp only [callStep]
      cases copyFails with
      | true => exact ⟨rfl, taken, haccounts⟩
      | false => trivial
  | returned outcome =>
      rw [hcall] at haccounts
      exact ⟨s, h, haccounts⟩

theorem accounts_readCall (h : Refines p r.fq s)
    (haccounts : Accounts args copyFails before r s.queue) (turns : List Turn) :
    ∃ s', Refines p (turns.foldl (Reading.turn p args copyFails) r).fq s' ∧
      Accounts args copyFails before (turns.foldl (Reading.turn p args copyFails) r) s'.queue := by
  induction turns generalizing r s with
  | nil => exact ⟨s, h, haccounts⟩
  | cons turn rest ih =>
      cases turn with
      | callback event => exact ih (callback_refines h event) (haccounts.callback h)
      | proceed signalled =>
          obtain ⟨s', h', haccounts'⟩ := haccounts.proceed signalled h
          exact ih h' haccounts'

theorem arrived_ne_nil (hr : ∀ frame ∈ r.arrived, frame ≠ []) (turns : List Turn) :
    ∀ frame ∈ (turns.foldl (Reading.turn p args copyFails) r).arrived, frame ≠ [] := by
  induction turns generalizing r with
  | nil => exact hr
  | cons turn rest ih =>
      cases turn with
      | proceed signalled => exact ih hr
      | callback event =>
          refine ih fun frame hmem => ?_
          rcases List.mem_append.mp hmem with hold | hnew
          · exact hr frame hold
          · exact queuedBy_ne_nil hnew

/-- A call at the top of its loop that finds a frame that fits takes it, and loses it when the
copy fails. -/
theorem lost_of_fits {frame : List U8} {rest : List (List U8)} (h : Refines p r.fq s)
    (hcall : r.call = .looping) (hqueue : s.queue = frame :: rest)
    (hfits : frame.length ≤ args.size) :
    ∃ fq', [Turn.proceed false, .proceed false].foldl (Reading.turn p args true) r =
      ⟨fq', .returned .fault, r.arrived⟩ ∧ frames p fq' = rest := by
  rcases take_cases h args.size with ⟨hnil, -⟩ | ⟨frame', rest', hqueue', hsmall, -⟩ |
    ⟨frame', rest', fq', s', hqueue', -, htake, hrefines, hrest, -, -⟩
  · rw [hqueue] at hnil
    cases hnil
  · rw [hqueue] at hqueue'
    cases hqueue'
    omega
  · rw [hqueue] at hqueue'
    cases hqueue'
    refine ⟨fq', ?_, hrefines.queue.trans hrest⟩
    simp only [List.foldl_cons, List.foldl_nil, Reading.turn, hcall, callStep, htake, if_true]

/-- On an empty queue a frame of one byte may arrive. -/
def oneByte : List Turn :=
  [.callback .writeRequested, .callback (.writeReceived 0), .callback .stop]

theorem oneByte_arrives (h : Refines p fq s) (hqueue : s.queue = []) :
    ∃ s', Refines p (readCall p args copyFails fq oneByte).fq s' ∧ s'.queue = [[0]] ∧
      (readCall p args copyFails fq oneByte).call = .looping ∧
      (readCall p args copyFails fq oneByte).arrived = [[0]] := by
  have hpos := p.maxFrameBytes_pos
  have hdepth := p.queueDepth_pos
  have h₁ := callback_refines h .writeRequested
  have h₂ := callback_refines h₁ (.writeReceived 0)
  have h₃ := callback_refines h₂ .stop
  have haccept : Fifo.Accepts p [0] 0 := ⟨nofun, hpos, hdepth⟩
  have hqueued : (((s.callback p .writeRequested).callback p (.writeReceived 0)).callback p
      .stop).queue = [[0]] := by
    simp only [Fifo.callback, hqueue, List.nil_append, List.length_nil, if_pos haccept]
  refine ⟨_, h₃, hqueued, rfl, ?_⟩
  rw [callback_queue h₂ .stop] at hqueued
  simp only [Fifo.callback, hqueue, List.nil_append] at hqueued
  exact hqueued

/-- A frame that can be handed to a buffer that cannot be written is lost. -/
theorem not_failureLosesNothing_of_fits (h : Refines p fq s)
    (hfits : Fits args.size (frames p fq)) : ¬ FailureLosesNothing p args true fq := by
  intro hloses
  rw [h.queue] at hfits
  cases hqueue : s.queue with
  | cons frame rest =>
      rw [hqueue] at hfits
      obtain ⟨fq', hrun, hrest⟩ :=
        @lost_of_fits p args s ⟨fq, .looping, []⟩ frame rest h rfl hqueue hfits
      have hlost := hloses [.proceed false, .proceed false] .fault
      rw [readCall, hrun] at hlost
      have hkept := (hlost rfl nofun).queue
      rw [hrest, h.queue, hqueue, List.append_nil] at hkept
      exact absurd (congrArg List.length hkept) (by simp)
  | nil =>
      -- The frame may arrive during the call.
      rw [hqueue] at hfits
      obtain ⟨s', h', hqueue', hcall, harrived⟩ := @oneByte_arrives p args true fq s h hqueue
      obtain ⟨fq', hrun, hrest⟩ := lost_of_fits h' hcall hqueue' hfits
      have hlost := hloses (oneByte ++ [.proceed false, .proceed false]) .fault
      have hwhole : readCall p args true fq (oneByte ++ [.proceed false, .proceed false]) =
          ⟨fq', .returned .fault, [[0]]⟩ := by
        rw [← harrived, ← hrun, readCall, List.foldl_append]
        rfl
      rw [hwhole] at hlost
      have hkept := (hlost rfl nofun).queue
      rw [hrest, h.queue, hqueue] at hkept
      cases hkept

/-- With every frame still in the queue a retry is given the head. -/
theorem losesNothing_of_queue (h : Refines p r.fq s)
    (hqueue : s.queue = frames p fq ++ r.arrived) : LosesNothing p fq r := by
  refine ⟨h.queue.trans hqueue, fun frame rest size hframes hlong => ?_⟩
  rw [hframes] at hqueue
  rw [(read_refines h size false).2]
  simp only [Fifo.read, hqueue, if_neg (Nat.not_lt.mpr hlong), Bool.false_eq_true, if_false]

/-- A call that comes back with an error has kept every frame, unless it was handed one that
it could not copy. -/
theorem losesNothing_of_accounts {outcome : Outcome} (h : Refines p r.fq s)
    (haccounts : Accounts args copyFails (frames p fq) r s.queue)
    (harrived : ∀ frame ∈ r.arrived, frame ≠ [])
    (hcondition : copyFails = false ∨ ¬ Fits args.size (frames p fq))
    (hreturned : r.call = .returned outcome) (herror : ∀ data, outcome ≠ .frame data) :
    LosesNothing p fq r := by
  unfold Accounts at haccounts
  rw [hreturned] at haccounts
  cases outcome with
  | frame data => exact absurd rfl (herror data)
  | fault =>
      obtain ⟨hfails, taken, hqueue, hlong⟩ := haccounts
      rcases hcondition with hwritable | hnone
      · rw [hwritable] at hfails
        cases hfails
      · refine absurd ?_ hnone
        cases hframes : frames p fq with
        | cons frame rest =>
            rw [hframes, List.cons_append] at hqueue
            rw [(List.cons.inj hqueue).1]
            exact hlong
        | nil =>
            rw [hframes, List.nil_append] at hqueue
            have hne := harrived taken (by rw [hqueue]; exact List.mem_cons_self)
            exact Nat.lt_of_lt_of_le (List.length_pos_of_ne_nil hne) hlong
  | _ => exact losesNothing_of_queue h haccounts

/-- A failed `frameq_read` loses nothing exactly when the buffer can be written, or no frame
can be handed to it. -/
theorem failureLosesNothing_iff (h : Refines p fq s) :
    FailureLosesNothing p args copyFails fq ↔
      copyFails = false ∨ ¬ Fits args.size (frames p fq) := by
  constructor
  · intro hloses
    cases copyFails with
    | false => exact Or.inl rfl
    | true => exact Or.inr fun hfits => not_failureLosesNothing_of_fits h hfits hloses
  · intro hcondition turns outcome hreturned herror
    have hstart : Accounts args copyFails (frames p fq) ⟨fq, .looping, []⟩ s.queue := by
      change s.queue = frames p fq ++ []
      rw [h.queue, List.append_nil]
    obtain ⟨s', h', haccounts⟩ := accounts_readCall (r := ⟨fq, .looping, []⟩) h hstart turns
    have harrived : ∀ frame ∈ (turns.foldl (Reading.turn p args copyFails)
        ⟨fq, .looping, []⟩).arrived, frame ≠ [] :=
      arrived_ne_nil (fun _ hmem => by cases hmem) turns
    exact losesNothing_of_accounts h' haccounts harrived hcondition hreturned herror

end OneCall

/-- One frame is in the queue. -/
def oneFrame : FrameqData := (run tiny zeroed tinyInputs).1

theorem oneFrame_refines : Refines tiny oneFrame (Fifo.empty.run tiny tinyInputs).1 :=
  (run_refines (refines_probed ⟨rfl, rfl, rfl, rfl, rfl, rfl, rfl, rfl, rfl⟩) tinyInputs).1

/-- It is too long for a buffer of one byte, and stays. -/
theorem failureLosesNothing_tooSmall : FailureLosesNothing tiny ⟨1, true⟩ true oneFrame := by
  have hframes : frames tiny oneFrame = [[1, 2]] := by decide
  refine (failureLosesNothing_iff oneFrame_refines).mpr (Or.inr ?_)
  rw [hframes]
  exact Nat.not_succ_le_self 1

/-- It fits into a buffer of two bytes that cannot be written, and is gone. -/
theorem not_failureLosesNothing : ¬ FailureLosesNothing tiny ⟨2, true⟩ true oneFrame := by
  intro hloses
  have hkept := (hloses [.proceed false, .proceed false] .fault rfl nofun).queue
  exact absurd hkept (by decide)

/-! ## Many readers -/

/-- The device with the threads that read through its open file: `none` is a thread that has
not called yet, and a call that has returned may be followed by another. -/
structure Readers (τ : Type) where
  fq : FrameqData
  readerOpen : Bool
  files : Nat
  threads : τ → Option (ReadArgs × Call)

/-- What can be seen of a step: a frame that is queued; one that a thread takes out; what that
thread is given for the frame it took, or that the copy failed. -/
inductive Note (τ : Type) where
  | queued (frame : List U8)
  | took (t : τ) (frame : List U8)
  | gave (t : τ) (taken data : List U8)
  | lost (t : τ) (taken : List U8)
  deriving DecidableEq

inductive Move (τ : Type) where
  | callback (event : I2cSlaveEvent)
  | opens
  | release
  | enter (t : τ) (args : ReadArgs)
  | proceed (t : τ) (signalled copyFails : Bool)

section Moves

variable {τ : Type}

/-- What shows of a step from one place in a call to another. -/
def notesOf (t : τ) : Call → Call → List (Note τ)
  | .looping, .copying _ taken => [.took t taken]
  | .copying _ taken, .returned (.frame data) => [.gave t taken data]
  | .copying _ taken, .returned _ => [.lost t taken]
  | _, _ => []

/-- The frame that a thread has taken and has yet to copy. -/
def pendingIn : Option (ReadArgs × Call) → List (List U8)
  | some (_, .copying _ taken) => [taken]
  | _ => []

/-- The call takes the oldest frame into `read_buf`. -/
def Takes (p : Params) (args : ReadArgs) (fq : FrameqData) (a : Fifo) (call : Call)
    (r : FrameqData × Call) : Prop :=
  ∃ frame a', call = .looping ∧ r.2 = .copying frame.length frame ∧ Refines p r.1 a' ∧
    a.queue = frame :: a'.queue ∧ bytes r.1.readBuf frame.length = frame ∧
    0 < fq.count ∧ (fq.slots fq.tail).len ≤ args.size

/-- What one step of a call does: nothing that shows, or it takes a frame, or it copies the one
it took. -/
theorem callStep_cases (τ : Type) {p : Params} {a : Fifo} {fq : FrameqData} {args : ReadArgs}
    {signalled copyFails : Bool} {call : Call} {r : FrameqData × Call} (h : Refines p fq a)
    (hstep : callStep p args signalled copyFails fq call = r) :
    (r.1 = fq ∧ pendingIn (some (args, call)) = [] ∧ pendingIn (some (args, r.2)) = [] ∧
      ∀ t : τ, notesOf t call r.2 = []) ∨
    Takes p args fq a call r ∨
    ∃ len taken, call = .copying len taken ∧
      r = (fq, .returned (if copyFails then .fault else .frame (bytes fq.readBuf len))) := by
  subst hstep
  cases call with
  | looping =>
      rcases take_cases h args.size with ⟨-, htake⟩ | ⟨frame, rest, -, -, htake⟩ |
        ⟨frame, rest, fq', a', hqueue, hfits, htake, hrefines, hrest, hbytes, htaken⟩
      · refine Or.inl ?_
        simp only [callStep, htake]
        cases args.nonblock <;> exact ⟨trivial, rfl, rfl, fun _ => rfl⟩
      · refine Or.inl ?_
        simp only [callStep, htake]
        exact ⟨trivial, rfl, rfl, fun _ => rfl⟩
      · refine Or.inr (Or.inl ⟨frame, a', rfl, ?_⟩)
        have hcount := h.count_eq
        have hlen : (fq.slots fq.tail).len = frame.length := by
          rw [← htaken, FrameqSlot.frame, bytes, List.length_map, List.length_range]
        rw [hqueue, List.length_cons] at hcount
        simp only [callStep, htake]
        refine ⟨by rw [htaken], hrefines, by rw [hqueue, hrest], hbytes, by omega, by omega⟩
  | waiting =>
      refine Or.inl ?_
      simp only [callStep]
      split
      · exact ⟨trivial, rfl, rfl, fun _ => rfl⟩
      · split <;> exact ⟨trivial, rfl, rfl, fun _ => rfl⟩
  | copying len taken => exact Or.inr (Or.inr ⟨len, taken, rfl, rfl⟩)
  | returned outcome => exact Or.inl ⟨rfl, rfl, rfl, fun _ => rfl⟩

/-- The move takes a frame out of the queue while another thread has yet to copy its own. -/
def Overlaps (s : Readers τ) : Move τ → Prop
  | .proceed t _ _ =>
      (∃ args, s.threads t = some (args, .looping) ∧ 0 < s.fq.count ∧
        (s.fq.slots s.fq.tail).len ≤ args.size) ∧
        ∃ t', pendingIn (s.threads t') ≠ []
  | _ => False

theorem not_overlaps_of_done {s : Readers τ} (hdone : ∀ t, pendingIn (s.threads t) = [])
    {m : Move τ} : ¬ Overlaps s m := by
  cases m with
  | proceed t signalled copyFails =>
      rintro ⟨-, t', hpending⟩
      exact hpending (hdone t')
  | _ => exact id

theorem not_overlaps_of_copying {s : Readers τ} {t : τ} {args : ReadArgs} {len : Nat}
    {taken : List U8} {signalled copyFails : Bool}
    (ht : s.threads t = some (args, .copying len taken)) :
    ¬ Overlaps s (.proceed t signalled copyFails) := by
  rintro ⟨⟨args', hlooping, -⟩, -⟩
  rw [ht] at hlooping
  cases hlooping

variable [DecidableEq τ]

/-- `true` for `-EBUSY`. -/
def frameqOpen (s : Readers τ) : Readers τ × Bool :=
  if s.readerOpen then (s, true)
  else ({ s with readerOpen := true, files := s.files + 1 }, false)

/-- Called once for each file that was opened. -/
def frameqRelease (s : Readers τ) : Readers τ :=
  if s.files = 0 then s else { s with readerOpen := false, files := s.files - 1 }

/-- A thread that is in user space calls `frameq_read`. -/
def enterRead (t : τ) (args : ReadArgs) (s : Readers τ) : Readers τ :=
  if s.files = 0 then s
  else
    match s.threads t with
    | none | some (_, .returned _) =>
        { s with threads := Function.update s.threads t (some (args, .looping)) }
    | some _ => s

def Readers.move (p : Params) (s : Readers τ) : Move τ → Readers τ × List (Note τ)
  | .callback event =>
      ({ s with fq := (frameqSlaveCb p s.fq event).1 }, (queuedBy p s.fq event).map .queued)
  | .opens => ((frameqOpen s).1, [])
  | .release => (frameqRelease s, [])
  | .enter t args => (enterRead t args s, [])
  | .proceed t signalled copyFails =>
      match s.threads t with
      | none => (s, [])
      | some (args, call) =>
          let (fq, call') := callStep p args signalled copyFails s.fq call
          ({ s with fq := fq, threads := Function.update s.threads t (some (args, call')) },
            notesOf t call call')

def Readers.run (p : Params) (s : Readers τ) : List (Move τ) → Readers τ × List (Note τ)
  | [] => (s, [])
  | move :: rest =>
      let (s, notes) := s.move p move
      let (s, later) := s.run p rest
      (s, notes ++ later)

/-- A device that has been probed, with no file open. -/
def Readers.idle (fq : FrameqData) : Readers τ := ⟨fq, false, 0, fun _ => none⟩

/-! ## What the readers get -/

def queuedFrames (notes : List (Note τ)) : List (List U8) :=
  notes.filterMap fun
    | .queued frame => some frame
    | _ => none

def takenFrames (notes : List (Note τ)) : List (List U8) :=
  notes.filterMap fun
    | .took _ frame => some frame
    | _ => none

/-- The frames that thread `t` has taken. -/
def takenBy (t : τ) (notes : List (Note τ)) : List (List U8) :=
  notes.filterMap fun
    | .took t' frame => if t' = t then some frame else none
    | _ => none

/-- The frames that thread `t` has taken and is done with. -/
def finishedBy (t : τ) (notes : List (Note τ)) : List (List U8) :=
  notes.filterMap fun
    | .gave t' taken _ | .lost t' taken => if t' = t then some taken else none
    | _ => none

/-- After some moves from a probe on: every queued frame is still in the queue or was taken by
one thread, in the order of the queue; each thread copies what it takes once; what it is given
then is the frame that it took; and at most one file is open. -/
structure DeliversWhole (p : Params) (s : Readers τ) (notes : List (Note τ)) : Prop where
  order : queuedFrames notes = takenFrames notes ++ frames p s.fq
  once : ∀ t, takenBy t notes = finishedBy t notes ++ pendingIn (s.threads t)
  whole : ∀ t taken data, Note.gave t taken data ∈ notes → data = taken
  oneFile : s.files ≤ 1

/-- No move of the run overlaps. -/
def Exclusive (p : Params) (s : Readers τ) : List (Move τ) → Prop
  | [] => True
  | move :: rest => ¬ Overlaps s move ∧ Exclusive p (s.move p move).1 rest

/-! ## One move -/

section OneMove

variable {p : Params} {s : Readers τ} {a : Fifo}

theorem proceed_eq {t : τ} {args : ReadArgs} {call : Call} {signalled copyFails : Bool}
    (ht : s.threads t = some (args, call)) :
    s.move p (.proceed t signalled copyFails) =
      ({ s with
          fq := (callStep p args signalled copyFails s.fq call).1
          threads := Function.update s.threads t
            (some (args, (callStep p args signalled copyFails s.fq call).2)) },
        notesOf t call (callStep p args signalled copyFails s.fq call).2) := by
  simp only [Readers.move, ht]

theorem proceed_none {t : τ} {signalled copyFails : Bool} (ht : s.threads t = none) :
    s.move p (.proceed t signalled copyFails) = (s, []) := by
  simp only [Readers.move, ht]

theorem enterRead_fq (t : τ) (args : ReadArgs) : (enterRead t args s).fq = s.fq := by
  unfold enterRead
  split
  · rfl
  · split <;> rfl

theorem enterRead_files (t : τ) (args : ReadArgs) : (enterRead t args s).files = s.files ∧
    (enterRead t args s).readerOpen = s.readerOpen := by
  unfold enterRead
  split
  · exact ⟨rfl, rfl⟩
  · split <;> exact ⟨rfl, rfl⟩

theorem pendingIn_enterRead (t t' : τ) (args : ReadArgs) :
    pendingIn ((enterRead t args s).threads t') = pendingIn (s.threads t') := by
  unfold enterRead
  split
  · rfl
  · by_cases heq : t' = t
    · subst heq
      split
      · next hnone =>
          dsimp only
          rw [Function.update_self, hnone]
          rfl
      · next hreturned =>
          dsimp only
          rw [Function.update_self, hreturned]
          rfl
      · rfl
    · split
      · exact congrArg pendingIn (Function.update_of_ne heq _ _)
      · exact congrArg pendingIn (Function.update_of_ne heq _ _)
      · rfl

/-- The order of the queue is kept. -/
theorem move_order (h : Refines p s.fq a) (m : Move τ) :
    ∃ a', Refines p (s.move p m).1.fq a' ∧
      a.queue ++ queuedFrames (s.move p m).2 = takenFrames (s.move p m).2 ++ a'.queue := by
  have hnone : a.queue ++ [] = [] ++ a.queue := by rw [List.append_nil, List.nil_append]
  cases m with
  | callback event =>
      refine ⟨_, callback_refines h event, ?_⟩
      have hqueued : queuedFrames ((queuedBy p s.fq event).map (Note.queued : List U8 → Note τ)) =
          queuedBy p s.fq event := by
        simp [queuedFrames]
      have htaken :
          takenFrames ((queuedBy p s.fq event).map (Note.queued : List U8 → Note τ)) = [] := by
        simp [takenFrames]
      simp only [Readers.move]
      rw [hqueued, htaken, callback_queue h, List.nil_append]
  | opens =>
      refine ⟨a, ?_, hnone⟩
      simp only [Readers.move, frameqOpen]
      split <;> exact h
  | release =>
      refine ⟨a, ?_, hnone⟩
      simp only [Readers.move, frameqRelease]
      split <;> exact h
  | enter t args =>
      refine ⟨a, ?_, hnone⟩
      simp only [Readers.move, enterRead_fq]
      exact h
  | proceed t signalled copyFails =>
      cases ht : s.threads t with
      | none =>
          rw [proceed_none ht]
          exact ⟨a, h, hnone⟩
      | some thread =>
          obtain ⟨args, call⟩ := thread
          rw [proceed_eq ht]
          rcases callStep_cases τ h rfl with ⟨hfq, -, -, hnotes⟩ |
            ⟨frame, a', hcall, hnext, hrefines, hqueue, -⟩ | ⟨len, taken, hcall, hnext⟩
          · refine ⟨a, by rw [hfq]; exact h, ?_⟩
            rw [hnotes t]
            exact hnone
          · refine ⟨a', hrefines, ?_⟩
            rw [hcall] at hnext ⊢
            rw [hnext, hqueue]
            exact List.append_nil _
          · refine ⟨a, by rw [hnext]; exact h, ?_⟩
            rw [hnext, hcall]
            cases copyFails <;> exact hnone

/-- A thread is done with what it took when it has copied it. -/
theorem move_once (h : Refines p s.fq a) (m : Move τ) (t : τ) :
    pendingIn (s.threads t) ++ takenBy t (s.move p m).2 =
      finishedBy t (s.move p m).2 ++ pendingIn ((s.move p m).1.threads t) := by
  have hnone (pending : List (List U8)) : pending ++ [] = [] ++ pending := by
    rw [List.append_nil, List.nil_append]
  cases m with
  | callback event =>
      have htaken :
          takenBy t ((queuedBy p s.fq event).map (Note.queued : List U8 → Note τ)) = [] := by
        simp [takenBy]
      have hfinished :
          finishedBy t ((queuedBy p s.fq event).map (Note.queued : List U8 → Note τ)) = [] := by
        simp [finishedBy]
      simp only [Readers.move]
      rw [htaken, hfinished]
      exact hnone _
  | opens =>
      simp only [Readers.move, frameqOpen]
      split <;> exact hnone _
  | release =>
      simp only [Readers.move, frameqRelease]
      split <;> exact hnone _
  | enter t' args =>
      simp only [Readers.move, pendingIn_enterRead]
      exact hnone _
  | proceed t' signalled copyFails =>
      cases ht : s.threads t' with
      | none =>
          rw [proceed_none ht]
          exact hnone _
      | some thread =>
          obtain ⟨args, call⟩ := thread
          rw [proceed_eq ht]
          dsimp only
          by_cases heq : t = t'
          · subst heq
            rw [Function.update_self, ht]
            rcases callStep_cases τ h rfl with ⟨-, hbefore, hafter, hnotes⟩ |
              ⟨frame, a', hcall, hnext, -⟩ | ⟨len, taken, hcall, hnext⟩
            · rw [hbefore, hafter, hnotes t]
              rfl
            · rw [hcall] at hnext ⊢
              rw [hnext]
              simp [notesOf, takenBy, finishedBy, pendingIn]
            · rw [hnext, hcall]
              cases copyFails <;> simp [notesOf, takenBy, finishedBy, pendingIn]
          · rw [Function.update_of_ne heq]
            have hother : ∀ call', takenBy t (notesOf t' call call') = [] ∧
                finishedBy t (notesOf t' call call') = [] := by
              intro call'
              have hne : ¬ t' = t := fun h => heq h.symm
              unfold notesOf
              split <;> simp [takenBy, finishedBy, hne]
            rw [(hother _).1, (hother _).2]
            exact hnone _

/-- `read_buf` holds what each thread has yet to copy. -/
def Held (s : Readers τ) : Prop :=
  ∀ t args len taken, s.threads t = some (args, .copying len taken) →
    bytes s.fq.readBuf len = taken

theorem Held.enterRead (hheld : Held s) (t : τ) (args : ReadArgs) : Held (enterRead t args s) := by
  intro t' args' len taken hcopying
  rw [enterRead_fq]
  refine hheld t' args' len taken ?_
  unfold FrameReaders.enterRead at hcopying
  split at hcopying
  · exact hcopying
  · split at hcopying
    · rw [← hcopying]
      refine (Function.update_of_ne (fun heq => ?_) _ _).symm
      subst heq
      simp at hcopying
    · rw [← hcopying]
      refine (Function.update_of_ne (fun heq => ?_) _ _).symm
      subst heq
      simp at hcopying
    · exact hcopying

/-- A step of thread `t` that leaves `read_buf` good for the others, and for `t` if it is to
copy. -/
theorem held_update {t : τ} {fq' : FrameqData} {thread : Option (ReadArgs × Call)}
    (hothers : ∀ t' args len taken, t' ≠ t → s.threads t' = some (args, .copying len taken) →
      bytes fq'.readBuf len = taken)
    (hself : ∀ args len taken, thread = some (args, .copying len taken) →
      bytes fq'.readBuf len = taken) :
    Held { s with fq := fq', threads := Function.update s.threads t thread } := by
  intro t' args len taken hcopying
  by_cases heq : t' = t
  · subst heq
    dsimp only at hcopying
    rw [Function.update_self] at hcopying
    exact hself args len taken hcopying
  · dsimp only at hcopying
    rw [Function.update_of_ne heq] at hcopying
    exact hothers t' args len taken heq hcopying

/-- A move that does not take a frame while another is to be copied keeps what is to be copied,
and gives a thread what it took. -/
theorem move_held (h : Refines p s.fq a) (hheld : Held s) {m : Move τ} (halone : ¬ Overlaps s m) :
    Held (s.move p m).1 ∧
      ∀ t taken data, Note.gave t taken data ∈ (s.move p m).2 → data = taken := by
  cases m with
  | callback event =>
      refine ⟨fun t args len taken hcopying => ?_, fun t taken data hmem => ?_⟩
      · simp only [Readers.move, readBuf_callback]
        exact hheld t args len taken hcopying
      · simp only [Readers.move, List.mem_map] at hmem
        obtain ⟨frame, -, hframe⟩ := hmem
        cases hframe
  | opens =>
      simp only [Readers.move, frameqOpen]
      split <;> exact ⟨hheld, nofun⟩
  | release =>
      simp only [Readers.move, frameqRelease]
      split <;> exact ⟨hheld, nofun⟩
  | enter t args => exact ⟨hheld.enterRead t args, nofun⟩
  | proceed t signalled copyFails =>
      cases ht : s.threads t with
      | none =>
          rw [proceed_none ht]
          exact ⟨hheld, nofun⟩
      | some thread =>
          obtain ⟨args, call⟩ := thread
          rw [proceed_eq ht]
          rcases callStep_cases τ h rfl with ⟨hfq, -, hafter, hnotes⟩ |
            ⟨frame, a', hcall, hnext, -, -, hbytes, hsome, hfits⟩ | ⟨len, taken, hcall, hnext⟩
          · rw [hfq, hnotes t]
            refine ⟨held_update (fun t' args' len taken _ => hheld t' args' len taken) ?_, nofun⟩
            intro args' len taken hcopying
            rw [hcopying] at hafter
            cases hafter
          · rw [hcall] at hnext ht hbytes ⊢
            rw [hnext]
            refine ⟨held_update (fun t' args' len taken _ hcopying => ?_) ?_, by simp [notesOf]⟩
            · refine absurd ⟨⟨args, ht, hsome, hfits⟩, t', ?_⟩ halone
              rw [hcopying]
              exact List.cons_ne_nil _ _
            · intro args' len taken hcopying
              cases hcopying
              exact hbytes
          · rw [hnext, hcall]
            rw [hcall] at ht
            refine ⟨held_update (fun t' args' len taken _ => hheld t' args' len taken) nofun,
              fun t' taken' data hmem => ?_⟩
            have hbytes := hheld t args len taken ht
            cases copyFails with
            | true => simp [notesOf] at hmem
            | false =>
                simp only [notesOf, Bool.false_eq_true, if_false, List.mem_singleton] at hmem
                cases hmem
                exact hbytes

/-- `reader_open` is set exactly while the one file is open. -/
def OneFile (s : Readers τ) : Prop :=
  s.readerOpen = true ∧ s.files = 1 ∨ s.readerOpen = false ∧ s.files = 0

theorem move_oneFile (hfile : OneFile s) (m : Move τ) : OneFile (s.move p m).1 := by
  cases m with
  | callback event => exact hfile
  | opens =>
      rcases hfile with ⟨hopen, hfiles⟩ | ⟨hopen, hfiles⟩
      · simp only [Readers.move, frameqOpen, hopen, if_true]
        exact Or.inl ⟨hopen, hfiles⟩
      · simp only [Readers.move, frameqOpen, hopen, Bool.false_eq_true, if_false]
        exact Or.inl ⟨rfl, by rw [hfiles]⟩
  | release =>
      rcases hfile with ⟨hopen, hfiles⟩ | ⟨hopen, hfiles⟩
      · simp only [Readers.move, frameqRelease, hfiles]
        exact Or.inr ⟨rfl, rfl⟩
      · simp only [Readers.move, frameqRelease, hfiles, if_true]
        exact Or.inr ⟨hopen, hfiles⟩
  | enter t args =>
      obtain ⟨hfiles, hopen⟩ := enterRead_files (s := s) t args
      simp only [Readers.move, OneFile, hfiles, hopen]
      exact hfile
  | proceed t signalled copyFails =>
      cases ht : s.threads t with
      | none =>
          rw [proceed_none ht]
          exact hfile
      | some thread =>
          obtain ⟨args, call⟩ := thread
          rw [proceed_eq ht]
          exact hfile

end OneMove

/-! ## Whole runs -/

section Runs

variable {p : Params} {s : Readers τ} {a : Fifo}

theorem run_order (h : Refines p s.fq a) (moves : List (Move τ)) :
    a.queue ++ queuedFrames (s.run p moves).2 =
      takenFrames (s.run p moves).2 ++ frames p (s.run p moves).1.fq := by
  induction moves generalizing s a with
  | nil =>
      change a.queue ++ [] = [] ++ frames p s.fq
      rw [List.append_nil, List.nil_append, h.queue]
  | cons m rest ih =>
      obtain ⟨a', h', hmove⟩ := move_order h m
      have hrest := ih h'
      change a.queue ++ queuedFrames ((s.move p m).2 ++ ((s.move p m).1.run p rest).2) =
        takenFrames ((s.move p m).2 ++ ((s.move p m).1.run p rest).2) ++ _
      rw [queuedFrames, takenFrames, List.filterMap_append, List.filterMap_append, ← queuedFrames,
        ← takenFrames, ← queuedFrames, ← takenFrames, ← List.append_assoc, hmove,
        List.append_assoc, hrest, List.append_assoc]
      rfl

theorem run_once (h : Refines p s.fq a) (moves : List (Move τ)) (t : τ) :
    pendingIn (s.threads t) ++ takenBy t (s.run p moves).2 =
      finishedBy t (s.run p moves).2 ++ pendingIn ((s.run p moves).1.threads t) := by
  induction moves generalizing s a with
  | nil =>
      change pendingIn (s.threads t) ++ [] = [] ++ pendingIn (s.threads t)
      rw [List.append_nil, List.nil_append]
  | cons m rest ih =>
      obtain ⟨a', h', -⟩ := move_order h m
      have hmove := move_once h m t
      have hrest := ih h'
      change pendingIn (s.threads t) ++
          takenBy t ((s.move p m).2 ++ ((s.move p m).1.run p rest).2) =
        finishedBy t ((s.move p m).2 ++ ((s.move p m).1.run p rest).2) ++ _
      rw [takenBy, finishedBy, List.filterMap_append, List.filterMap_append, ← takenBy,
        ← finishedBy, ← takenBy, ← finishedBy, ← List.append_assoc, hmove, List.append_assoc, hrest,
        List.append_assoc]
      rfl

theorem run_whole (h : Refines p s.fq a) (hheld : Held s) {moves : List (Move τ)}
    (hexclusive : Exclusive p s moves) :
    ∀ t taken data, Note.gave t taken data ∈ (s.run p moves).2 → data = taken := by
  induction moves generalizing s a with
  | nil => exact nofun
  | cons m rest ih =>
      obtain ⟨halone, hrest⟩ := hexclusive
      obtain ⟨a', h', -⟩ := move_order h m
      obtain ⟨hheld', hgave⟩ := move_held h hheld halone
      intro t taken data hmem
      rcases List.mem_append.mp hmem with hfirst | hlater
      · exact hgave t taken data hfirst
      · exact ih h' hheld' hrest t taken data hlater

theorem run_oneFile (hfile : OneFile s) (moves : List (Move τ)) : OneFile (s.run p moves).1 := by
  induction moves generalizing s with
  | nil => exact hfile
  | cons m rest ih => exact ih (move_oneFile hfile m)

/-- From a probe on, whatever the threads and the order of their steps: as long as no thread
takes a frame before another has copied its own, every frame is given whole to the one thread
that took it. -/
theorem deliversWhole_of_exclusive {fq : FrameqData} (hprobed : Probed fq)
    (moves : List (Move τ)) (hexclusive : Exclusive p (Readers.idle fq) moves) :
    DeliversWhole p ((Readers.idle fq).run p moves).1 ((Readers.idle fq).run p moves).2 := by
  have h : Refines p (Readers.idle fq : Readers τ).fq Fifo.empty := refines_probed hprobed
  refine ⟨run_order h moves, run_once h moves, run_whole h nofun hexclusive, ?_⟩
  have hidle : OneFile (Readers.idle fq : Readers τ) := Or.inr ⟨rfl, rfl⟩
  rcases run_oneFile (p := p) hidle moves with ⟨-, hfiles⟩ | ⟨-, hfiles⟩
  · exact Nat.le_of_eq hfiles
  · rw [hfiles]
    exact Nat.zero_le 1

end Runs

/-- Frames of one byte, and room for two. -/
def pair : Params :=
  ⟨1, 2, tiny.queueDepth_pos, tiny.maxFrameBytes_pos, tiny.queueDepth_lt, tiny.maxFrameBytes_lt⟩

/-- The device is opened, and two frames of one byte arrive. -/
def twoFrames : List (Move Bool) :=
  [.opens, .callback .writeRequested, .callback (.writeReceived 1), .callback .stop,
    .callback .writeRequested, .callback (.writeReceived 2), .callback .stop]

/-- Each of two threads reads a frame, one call after the other. -/
def inTurn : List (Move Bool) :=
  [.enter false ⟨1, false⟩, .proceed false false false, .proceed false false false,
    .enter true ⟨1, false⟩, .proceed true false false, .proceed true false false]

theorem deliversWhole_inTurn :
    DeliversWhole pair ((Readers.idle zeroed).run pair (twoFrames ++ inTurn)).1
      ((Readers.idle zeroed).run pair (twoFrames ++ inTurn)).2 := by
  refine deliversWhole_of_exclusive ⟨rfl, rfl, rfl, rfl, rfl, rfl, rfl, rfl, rfl⟩ _ ?_
  exact ⟨id, id, id, id, id, id, id, id, not_overlaps_of_done (by decide),
    not_overlaps_of_copying rfl, id, not_overlaps_of_done (by decide),
    not_overlaps_of_copying rfl, trivial⟩

/-- Each takes a frame before either copies it. -/
def atOnce : List (Move Bool) :=
  [.enter false ⟨1, false⟩, .enter true ⟨1, false⟩, .proceed false false false,
    .proceed true false false, .proceed false false false, .proceed true false false]

/-- The thread that took the first frame is given the second, which is so given twice. -/
theorem not_deliversWhole_atOnce :
    ((Readers.idle zeroed).run pair (twoFrames ++ atOnce)).2 =
        [.queued [1], .queued [2], .took false [1], .took true [2], .gave false [1] [2],
          .gave true [2] [2]] ∧
      ¬ DeliversWhole pair ((Readers.idle zeroed).run pair (twoFrames ++ atOnce)).1
        ((Readers.idle zeroed).run pair (twoFrames ++ atOnce)).2 := by
  have hnotes : ((Readers.idle zeroed).run pair (twoFrames ++ atOnce)).2 =
      [.queued [1], .queued [2], .took false [1], .took true [2], .gave false [1] [2],
        .gave true [2] [2]] := by
    decide
  refine ⟨hnotes, fun hdelivers => ?_⟩
  have hwhole := hdelivers.whole false [1] [2]
  rw [hnotes] at hwhole
  exact absurd (hwhole (by decide)) (by decide)

end Moves

end RadsatLinux.I2c.FrameReaders
