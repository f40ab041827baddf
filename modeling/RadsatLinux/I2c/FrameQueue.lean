import Mathlib
import RadsatLinux.Library.RingBuffer

/-!
# The slave frame queue

`drivers/i2c/i2c-slave-frameq.c`: the slave callback collects the bytes of one master-write
transaction, a stop puts them into a circular buffer as one frame, and `frameq_read` hands
the oldest frame to user space.  `Fifo` says what the queue is for, with the whole history
of what came in and what went out.
-/

namespace RadsatLinux.I2c.FrameQueue

open RadsatLinux.Library.RingBuffer

abbrev U8 := BitVec 8
abbrev U64 := BitVec 64

/-- Arithmetic in an `unsigned int`, and in a `size_t` of this machine. -/
def uint (n : Nat) : Nat := n % 2 ^ 32

/-- The module parameters that `frameq_probe` lets through. -/
structure Params where
  maxFrameBytes : Nat
  queueDepth : Nat
  maxFrameBytes_pos : 0 < maxFrameBytes
  queueDepth_pos : 0 < queueDepth
  maxFrameBytes_lt : maxFrameBytes < 2 ^ 32
  queueDepth_lt : queueDepth < 2 ^ 32

/-! ## The driver -/

structure FrameqSlot where
  len : Nat
  data : Nat → U8

structure FrameqData extends Circular FrameqSlot where
  active : Nat → U8
  activeLen : Nat
  activeOverflow : Bool
  readBuf : Nat → U8
  rxFrames : U64
  rxBytes : U64
  rxOverflowDrops : U64
  queueFullDrops : U64
  emptyStopDrops : U64
  unexpectedReads : U64

def memcpy (dst src : Nat → U8) (len : Nat) : Nat → U8 :=
  fun i => if i < len then src i else dst i

/-- The first `len` bytes of a buffer. -/
def bytes (buf : Nat → U8) (len : Nat) : List U8 := (List.range len).map buf

/-- The label `reset` of `frameq_finish_write`. -/
def FrameqData.resetActive (fq : FrameqData) : FrameqData :=
  { fq with activeLen := 0, activeOverflow := false }

/-- `true` when a frame was queued. -/
def frameqFinishWrite (p : Params) (fq : FrameqData) : FrameqData × Bool :=
  if fq.activeLen = 0 then
    (FrameqData.resetActive { fq with emptyStopDrops := fq.emptyStopDrops + 1 }, false)
  else if fq.activeOverflow then
    (FrameqData.resetActive { fq with rxOverflowDrops := fq.rxOverflowDrops + 1 }, false)
  else if p.queueDepth ≤ fq.count then
    (FrameqData.resetActive { fq with queueFullDrops := fq.queueFullDrops + 1 }, false)
  else
    let data := memcpy (fq.slots fq.head).data fq.active fq.activeLen
    (FrameqData.resetActive
      { fq with
        slots := Function.update fq.slots fq.head ⟨fq.activeLen, data⟩
        head := uint (fq.head + 1) % p.queueDepth
        count := uint (fq.count + 1)
        rxFrames := fq.rxFrames + 1 }, true)

/-- `enum i2c_slave_event` -/
inductive I2cSlaveEvent where
  | readRequested
  | writeRequested
  | readProcessed
  | writeReceived (val : U8)
  | stop
  deriving DecidableEq

/-- `FRAMEQ_READ_FILL_BYTE` -/
def frameqReadFillByte : U8 := 0xff

/-- The byte is what is stored in `*val` for the master to read. -/
def frameqSlaveCb (p : Params) (fq : FrameqData) : I2cSlaveEvent → FrameqData × Option U8
  | .writeRequested => (fq.resetActive, none)
  | .writeReceived val =>
      let fq := { fq with rxBytes := fq.rxBytes + 1 }
      if fq.activeLen < p.maxFrameBytes then
        ({ fq with
            active := Function.update fq.active fq.activeLen val
            activeLen := uint (fq.activeLen + 1) }, none)
      else ({ fq with activeOverflow := true }, none)
  | .stop => ((frameqFinishWrite p fq).1, none)
  | .readRequested | .readProcessed =>
      ({ fq with unexpectedReads := fq.unexpectedReads + 1 }, some frameqReadFillByte)

/-- How `frameq_read` ends: with the bytes in user space, with `-EMSGSIZE` or `-EFAULT`, or,
on an empty queue, with `-EAGAIN` or a wait. -/
inductive ReadResult where
  | frame (data : List U8)
  | msgSize
  | fault
  | again
  deriving DecidableEq

/-- One pass through the loop of `frameq_read` with a buffer of `size` bytes. -/
def frameqRead (p : Params) (size : Nat) (copyFails : Bool) (fq : FrameqData) :
    FrameqData × ReadResult :=
  if fq.count = 0 then (fq, .again)
  else
    let len := (fq.slots fq.tail).len
    if size < len then (fq, .msgSize)
    else
      let fq := { fq with
        readBuf := memcpy fq.readBuf (fq.slots fq.tail).data len
        tail := uint (fq.tail + 1) % p.queueDepth
        count := uint (fq.count + (2 ^ 32 - 1)) }
      (fq, if copyFails then .fault else .frame (bytes fq.readBuf len))

/-- What `frameq_probe` leaves: everything zero but the contents of the buffers. -/
structure Probed (fq : FrameqData) : Prop where
  head : fq.head = 0
  tail : fq.tail = 0
  count : fq.count = 0
  activeLen : fq.activeLen = 0
  activeOverflow : fq.activeOverflow = false
  rxFrames : fq.rxFrames = 0
  rxOverflowDrops : fq.rxOverflowDrops = 0
  queueFullDrops : fq.queueFullDrops = 0
  emptyStopDrops : fq.emptyStopDrops = 0

/-- A callback, or a `frameq_read` with a buffer of some size. -/
inductive Input where
  | callback (event : I2cSlaveEvent)
  | read (size : Nat) (copyFails : Bool)

def step (p : Params) (fq : FrameqData) : Input → FrameqData × List ReadResult
  | .callback event => ((frameqSlaveCb p fq event).1, [])
  | .read size copyFails =>
      let (fq, result) := frameqRead p size copyFails fq
      (fq, [result])

/-- The state after the inputs, and the results of the reads among them. -/
def run (p : Params) (fq : FrameqData) : List Input → FrameqData × List ReadResult
  | [] => (fq, [])
  | input :: rest =>
      let (fq, results) := step p fq input
      let (fq, later) := run p fq rest
      (fq, results ++ later)

/-! ## What the queue is for -/

/-- The bytes since the last write request or stop, the frames in the queue, every frame
that was ever queued, every frame a read has removed and whether it reached the user, and
the number of stops. -/
structure Fifo where
  received : List U8
  queue : List (List U8)
  enqueued : List (List U8)
  removed : List (List U8 × Bool)
  stops : Nat

namespace Fifo

def empty : Fifo := ⟨[], [], [], [], 0⟩

/-- What a stop takes into a queue of `count` frames. -/
def Accepts (p : Params) (received : List U8) (count : Nat) : Prop :=
  received ≠ [] ∧ received.length ≤ p.maxFrameBytes ∧ count < p.queueDepth

instance (p : Params) (received : List U8) (count : Nat) : Decidable (Accepts p received count) :=
  inferInstanceAs (Decidable (_ ∧ _))

def callback (p : Params) (s : Fifo) : I2cSlaveEvent → Fifo
  | .writeRequested => { s with received := [] }
  | .writeReceived val => { s with received := s.received ++ [val] }
  | .stop =>
      let s' := { s with received := [], stops := s.stops + 1 }
      if Accepts p s.received s.queue.length then
        { s' with queue := s.queue ++ [s.received], enqueued := s.enqueued ++ [s.received] }
      else s'
  | .readRequested | .readProcessed => s

def read (size : Nat) (copyFails : Bool) (s : Fifo) : Fifo × ReadResult :=
  match s.queue with
  | [] => (s, .again)
  | frame :: rest =>
      if size < frame.length then (s, .msgSize)
      else
        ({ s with queue := rest, removed := s.removed ++ [(frame, !copyFails)] },
          if copyFails then .fault else .frame frame)

def step (p : Params) (s : Fifo) : Input → Fifo × List ReadResult
  | .callback event => (s.callback p event, [])
  | .read size copyFails =>
      let (s, result) := s.read size copyFails
      (s, [result])

def run (p : Params) (s : Fifo) : List Input → Fifo × List ReadResult
  | [] => (s, [])
  | input :: rest =>
      let (s, results) := s.step p input
      let (s, later) := run p s rest
      (s, results ++ later)

end Fifo

/-! ## Buffers -/

theorem bytes_memcpy (dst src : Nat → U8) (len : Nat) :
    bytes (memcpy dst src len) len = bytes src len :=
  List.map_congr_left fun _ hi => if_pos (List.mem_range.mp hi)

/-- A byte stored past the end of what was there is one more byte. -/
theorem bytes_update (buf : Nat → U8) (len : Nat) (val : U8) :
    bytes (Function.update buf len val) (len + 1) = bytes buf len ++ [val] := by
  have hkept : ∀ i ∈ List.range len, Function.update buf len val i = buf i := fun i hi =>
    Function.update_of_ne (Nat.ne_of_lt (List.mem_range.mp hi)) _ _
  rw [bytes, List.range_succ, List.map_append, List.map_singleton, Function.update_self,
    List.map_congr_left hkept, bytes]

theorem uint_eq {n : Nat} (hn : n < 2 ^ 32) : uint n = n := Nat.mod_eq_of_lt hn

theorem counter_succ (n : Nat) : BitVec.ofNat 64 n + 1 = BitVec.ofNat 64 (n + 1) :=
  (BitVec.ofNat_add n 1).symm

def FrameqSlot.frame (slot : FrameqSlot) : List U8 := bytes slot.data slot.len

/-- The frames in the queue, oldest first. -/
def frames (p : Params) (fq : FrameqData) : List (List U8) :=
  (fq.toCircular.contents p.queueDepth).map FrameqSlot.frame

/-- Every stop is counted once. -/
def FrameqData.stopCount (fq : FrameqData) : U64 :=
  fq.rxFrames + fq.rxOverflowDrops + fq.queueFullDrops + fq.emptyStopDrops

/-! ## The simulation -/

/-- The bytes of the frame in progress, as far as they fit. -/
structure ActiveHolds (p : Params) (fq : FrameqData) (received : List U8) : Prop where
  len : fq.activeLen = min received.length p.maxFrameBytes
  data : bytes fq.active fq.activeLen = received.take p.maxFrameBytes
  overflow : fq.activeOverflow = decide (p.maxFrameBytes < received.length)

structure Refines (p : Params) (fq : FrameqData) (s : Fifo) : Prop where
  ok : fq.toCircular.Ok p.queueDepth
  queue : frames p fq = s.queue
  active : ActiveHolds p fq s.received
  rxFrames : fq.rxFrames = BitVec.ofNat 64 s.enqueued.length
  stops : fq.stopCount = BitVec.ofNat 64 s.stops
  history : s.enqueued = s.removed.map Prod.fst ++ s.queue

theorem activeHolds_nil (p : Params) (fq : FrameqData) : ActiveHolds p fq.resetActive [] := by
  constructor
  · exact (Nat.zero_min _).symm
  · exact List.take_nil.symm
  · rfl

theorem refines_probed {p : Params} {fq : FrameqData} (h : Probed fq) :
    Refines p fq Fifo.empty := by
  have hactive : fq = fq.resetActive := by
    rw [FrameqData.resetActive, ← h.activeLen, ← h.activeOverflow]
  constructor
  · exact Circular.ok_empty p.queueDepth_pos h.head h.tail h.count
  · rw [frames, Circular.contents_nil h.count]
    rfl
  · rw [hactive]
    exact activeHolds_nil p fq
  · exact h.rxFrames
  · rw [FrameqData.stopCount, h.rxFrames, h.rxOverflowDrops, h.queueFullDrops, h.emptyStopDrops]
    rfl
  · rfl

section Step

variable {p : Params} {fq : FrameqData} {s : Fifo}

theorem Refines.count_eq (h : Refines p fq s) : fq.count = s.queue.length := by
  rw [← h.queue, frames, List.length_map, Circular.contents_length]

theorem Refines.count_lt (h : Refines p fq s) : fq.count < 2 ^ 32 :=
  Nat.lt_of_le_of_lt h.ok.count_le p.queueDepth_lt

/-- One more byte of the frame in progress. -/
theorem ActiveHolds.receive {received : List U8} (h : ActiveHolds p fq received) (val : U8) :
    ActiveHolds p (frameqSlaveCb p fq (.writeReceived val)).1 (received ++ [val]) := by
  have hmax := p.maxFrameBytes_lt
  have hlen := h.len
  simp only [frameqSlaveCb]
  by_cases hroom : fq.activeLen < p.maxFrameBytes
  · have hall : received.length = fq.activeLen := by omega
    have htake : received.take p.maxFrameBytes = received := List.take_of_length_le (by omega)
    have huint : uint (fq.activeLen + 1) = fq.activeLen + 1 := uint_eq (by omega)
    rw [if_pos hroom]
    constructor
    · change uint (fq.activeLen + 1) = _
      rw [huint, List.length_append, List.length_singleton]
      omega
    · change bytes (Function.update fq.active fq.activeLen val) (uint (fq.activeLen + 1)) = _
      rw [huint, bytes_update, h.data, htake, List.take_of_length_le]
      rw [List.length_append, List.length_singleton]
      omega
    · change fq.activeOverflow = _
      rw [h.overflow, List.length_append, List.length_singleton]
      exact decide_eq_decide.mpr (by omega)
  · have hfull : p.maxFrameBytes ≤ received.length := by omega
    rw [if_neg hroom]
    constructor
    · change fq.activeLen = _
      rw [hlen, List.length_append, List.length_singleton]
      omega
    · change bytes fq.active fq.activeLen = _
      rw [h.data, List.take_append_of_le_length hfull]
    · rw [List.length_append, List.length_singleton]
      exact (decide_eq_true (by omega)).symm

/-- An event that touches neither the queue nor its counters. -/
theorem Refines.keep {fq' : FrameqData} {received : List U8} (h : Refines p fq s)
    (hring : fq'.toCircular = fq.toCircular) (hframes : fq'.rxFrames = fq.rxFrames)
    (hstops : fq'.stopCount = fq.stopCount) (hactive : ActiveHolds p fq' received) :
    Refines p fq' { s with received := received } where
  ok := by
    rw [hring]
    exact h.ok
  queue := by
    rw [frames, hring]
    exact h.queue
  active := hactive
  rxFrames := hframes.trans h.rxFrames
  stops := hstops.trans h.stops
  history := h.history

/-- A stop that drops the frame in progress, and counts it in one of the drop counters. -/
theorem Refines.drop {fq' : FrameqData} (h : Refines p fq s)
    (hring : fq'.toCircular = fq.toCircular) (hframes : fq'.rxFrames = fq.rxFrames)
    (hstops : fq'.stopCount = fq.stopCount + 1) :
    Refines p fq'.resetActive { s with received := [], stops := s.stops + 1 } where
  ok := by
    change fq'.toCircular.Ok p.queueDepth
    rw [hring]
    exact h.ok
  queue := by
    change frames p fq' = _
    rw [frames, hring]
    exact h.queue
  active := activeHolds_nil p fq'
  rxFrames := hframes.trans h.rxFrames
  stops := by
    change fq'.stopCount = _
    rw [hstops, h.stops, counter_succ]
  history := h.history

/-- A stop that queues the frame in progress. -/
theorem Refines.enqueue {fq' : FrameqData} (h : Refines p fq s) (hroom : fq.count < p.queueDepth)
    (hring : fq'.toCircular = fq.toCircular.push p.queueDepth
      ⟨fq.activeLen, memcpy (fq.slots fq.head).data fq.active fq.activeLen⟩)
    (hframes : fq'.rxFrames = fq.rxFrames + 1) (hstops : fq'.stopCount = fq.stopCount + 1)
    (hfits : s.received.length ≤ p.maxFrameBytes) :
    Refines p fq'.resetActive
      { s with
        received := []
        stops := s.stops + 1
        queue := s.queue ++ [s.received]
        enqueued := s.enqueued ++ [s.received] } where
  ok := by
    change fq'.toCircular.Ok p.queueDepth
    rw [hring]
    exact h.ok.push hroom _
  queue := by
    change frames p fq' = _
    have hframe : bytes (memcpy (fq.slots fq.head).data fq.active fq.activeLen) fq.activeLen =
        s.received := by
      rw [bytes_memcpy, h.active.data, List.take_of_length_le hfits]
    rw [frames, hring, Circular.contents_push h.ok hroom, List.map_append, List.map_singleton,
      FrameqSlot.frame, hframe]
    exact congrArg (· ++ [s.received]) h.queue
  active := activeHolds_nil p fq'
  rxFrames := by
    change fq'.rxFrames = _
    rw [hframes, h.rxFrames, List.length_append, List.length_singleton, counter_succ]
  stops := by
    change fq'.stopCount = _
    rw [hstops, h.stops, counter_succ]
  history := by
    change s.enqueued ++ [s.received] = s.removed.map Prod.fst ++ (s.queue ++ [s.received])
    rw [h.history, List.append_assoc]

theorem finishWrite_refines (h : Refines p fq s) :
    Refines p (frameqFinishWrite p fq).1 (s.callback p .stop) := by
  have hmax := p.maxFrameBytes_pos
  have hlen := h.active.len
  have hoverflow := h.active.overflow
  have hcount := h.count_eq
  have hlength : s.received = [] ↔ s.received.length = 0 := List.length_eq_zero_iff.symm
  unfold frameqFinishWrite Fifo.callback
  by_cases hempty : fq.activeLen = 0
  · have hno : ¬ Fifo.Accepts p s.received s.queue.length := fun haccept =>
      haccept.1 (hlength.mpr (by omega))
    rw [if_pos hempty]
    dsimp only
    rw [if_neg hno]
    refine h.drop rfl rfl ?_
    simp only [FrameqData.stopCount, BitVec.add_assoc]
  · rw [if_neg hempty]
    by_cases hlong : p.maxFrameBytes < s.received.length
    · have hno : ¬ Fifo.Accepts p s.received s.queue.length := fun haccept =>
        Nat.not_le_of_lt hlong haccept.2.1
      rw [if_pos (hoverflow.trans (decide_eq_true hlong))]
      dsimp only
      rw [if_neg hno]
      refine h.drop rfl rfl ?_
      simp only [FrameqData.stopCount]
      ac_rfl
    · rw [if_neg (by simp [hoverflow, hlong])]
      by_cases hfull : p.queueDepth ≤ fq.count
      · have hno : ¬ Fifo.Accepts p s.received s.queue.length := fun haccept =>
          Nat.not_le_of_lt haccept.2.2 (hcount ▸ hfull)
        rw [if_pos hfull]
        dsimp only
        rw [if_neg hno]
        refine h.drop rfl rfl ?_
        simp only [FrameqData.stopCount]
        ac_rfl
      · have hroom : fq.count < p.queueDepth := by omega
        have haccept : Fifo.Accepts p s.received s.queue.length :=
          ⟨fun hnil => hempty (by rw [hlen, hnil]; simp), by omega, by omega⟩
        rw [if_neg hfull]
        dsimp only
        rw [if_pos haccept]
        have hhead := h.ok.head_lt
        have hdepth := p.queueDepth_lt
        refine h.enqueue hroom ?_ rfl ?_ (by omega)
        · have hhead' : uint (fq.head + 1) = fq.head + 1 := uint_eq (by omega)
          have hcount' : uint (fq.count + 1) = fq.count + 1 := uint_eq (by omega)
          simp only [hhead', hcount', Circular.push]
        · simp only [FrameqData.stopCount]
          ac_rfl

theorem callback_refines (h : Refines p fq s) (event : I2cSlaveEvent) :
    Refines p (frameqSlaveCb p fq event).1 (s.callback p event) := by
  cases event with
  | readRequested => exact h.keep rfl rfl rfl ⟨h.active.len, h.active.data, h.active.overflow⟩
  | readProcessed => exact h.keep rfl rfl rfl ⟨h.active.len, h.active.data, h.active.overflow⟩
  | writeRequested => exact h.keep rfl rfl rfl (activeHolds_nil p fq)
  | writeReceived val =>
      have hactive := h.active.receive val
      simp only [frameqSlaveCb] at hactive ⊢
      split at hactive <;> rename_i hroom
      · rw [if_pos hroom]
        exact h.keep rfl rfl rfl hactive
      · rw [if_neg hroom]
        exact h.keep rfl rfl rfl hactive
  | stop => exact finishWrite_refines h

/-- A read that takes the oldest frame out of the queue. -/
theorem Refines.dequeue {fq' : FrameqData} {frame : List U8} {rest : List (List U8)}
    (h : Refines p fq s) (hqueue : s.queue = frame :: rest) (delivered : Bool)
    (hring : fq'.toCircular = fq.toCircular.pop p.queueDepth)
    (hframes : fq'.rxFrames = fq.rxFrames) (hstops : fq'.stopCount = fq.stopCount)
    (hactive : ActiveHolds p fq' s.received) :
    Refines p fq' { s with queue := rest, removed := s.removed ++ [(frame, delivered)] } := by
  have hsome : 0 < fq.count := by
    rw [h.count_eq, hqueue]
    exact Nat.succ_pos _
  constructor
  · rw [hring]
    exact h.ok.pop hsome
  · have hpop := h.queue
    rw [frames, Circular.contents_pop h.ok hsome, List.map_cons, hqueue] at hpop
    rw [frames, hring]
    exact (List.cons.inj hpop).2
  · exact hactive
  · exact hframes.trans h.rxFrames
  · exact hstops.trans h.stops
  · change s.enqueued = (s.removed ++ [(frame, delivered)]).map Prod.fst ++ rest
    rw [h.history, hqueue, List.map_append, List.append_assoc]
    rfl

/-- The oldest frame lies in the cell at the tail. -/
theorem Refines.oldest {frame : List U8} {rest : List (List U8)} (h : Refines p fq s)
    (hqueue : s.queue = frame :: rest) : (fq.slots fq.tail).frame = frame := by
  have hsome : 0 < fq.count := by
    rw [h.count_eq, hqueue]
    exact Nat.succ_pos _
  have hpop := h.queue
  rw [frames, Circular.contents_pop h.ok hsome, List.map_cons, hqueue] at hpop
  exact (List.cons.inj hpop).1

theorem read_refines (h : Refines p fq s) (size : Nat) (copyFails : Bool) :
    Refines p (frameqRead p size copyFails fq).1 (s.read size copyFails).1 ∧
      (frameqRead p size copyFails fq).2 = (s.read size copyFails).2 := by
  have hcount := h.count_eq
  unfold frameqRead Fifo.read
  cases hqueue : s.queue with
  | nil =>
      rw [hqueue, List.length_nil] at hcount
      rw [if_pos hcount]
      exact ⟨h, rfl⟩
  | cons frame rest =>
      have hframe := h.oldest hqueue
      have hlen : (fq.slots fq.tail).len = frame.length := by
        rw [← hframe, FrameqSlot.frame, bytes, List.length_map, List.length_range]
      rw [hqueue, List.length_cons] at hcount
      rw [if_neg (by omega), hlen]
      dsimp only
      by_cases hsmall : size < frame.length
      · rw [if_pos hsmall, if_pos hsmall]
        exact ⟨h, rfl⟩
      · rw [if_neg hsmall, if_neg hsmall]
        have htail := h.ok.tail_lt
        have hdepth := p.queueDepth_lt
        have hcount' := h.count_lt
        have hbytes : bytes (memcpy fq.readBuf (fq.slots fq.tail).data frame.length) frame.length =
            frame := by
          rw [bytes_memcpy, ← hlen]
          exact hframe
        constructor
        · refine h.dequeue hqueue (!copyFails) ?_ rfl rfl
            ⟨h.active.len, h.active.data, h.active.overflow⟩
          have htail' : uint (fq.tail + 1) = fq.tail + 1 := uint_eq (by omega)
          have hless : uint (fq.count + (2 ^ 32 - 1)) = fq.count - 1 := by
            unfold uint
            omega
          simp only [htail', hless, Circular.pop]
        · dsimp only
          rw [hbytes]

theorem step_refines (h : Refines p fq s) (input : Input) :
    Refines p (step p fq input).1 (s.step p input).1 ∧
      (step p fq input).2 = (s.step p input).2 := by
  cases input with
  | callback event => exact ⟨callback_refines h event, rfl⟩
  | read size copyFails =>
      obtain ⟨hstate, hresult⟩ := read_refines h size copyFails
      exact ⟨hstate, congrArg (fun r => [r]) hresult⟩

theorem run_refines (h : Refines p fq s) (inputs : List Input) :
    Refines p (run p fq inputs).1 (s.run p inputs).1 ∧
      (run p fq inputs).2 = (s.run p inputs).2 := by
  induction inputs generalizing fq s with
  | nil => exact ⟨h, rfl⟩
  | cons input rest ih =>
      obtain ⟨hstep, hresults⟩ := step_refines h input
      obtain ⟨hrest, hlater⟩ := ih hstep
      exact ⟨hrest, congrArg₂ (· ++ ·) hresults hlater⟩

end Step

/-! ## Histories -/

/-- The bytes received after an input, given those before. -/
def receive (received : List U8) : Input → List U8
  | .callback .writeRequested | .callback .stop => []
  | .callback (.writeReceived val) => received ++ [val]
  | _ => received

/-- The bytes since the last write request or stop. -/
def received (inputs : List Input) : List U8 := inputs.foldl receive []

def isStop : Input → Bool
  | .callback .stop => true
  | _ => false

/-- The frames that successful reads returned. -/
def delivered (results : List ReadResult) : List (List U8) :=
  results.filterMap fun
    | .frame data => some data
    | _ => none

/-- Of the removed frames, those that reached the user. -/
def reached (removed : List (List U8 × Bool)) : List (List U8) :=
  (removed.filter Prod.snd).map Prod.fst

namespace Fifo

variable {p : Params}

theorem step_received (s : Fifo) (input : Input) :
    (s.step p input).1.received = receive s.received input := by
  cases input with
  | read size copyFails =>
      change (s.read size copyFails).1.received = s.received
      unfold Fifo.read
      split
      · rfl
      · split <;> rfl
  | callback event =>
      cases event with
      | stop =>
          change (s.callback p .stop).received = []
          simp only [callback]
          split <;> rfl
      | _ => rfl

theorem run_received (s : Fifo) (inputs : List Input) :
    (s.run p inputs).1.received = inputs.foldl receive s.received := by
  induction inputs generalizing s with
  | nil => rfl
  | cons input rest ih =>
      change ((s.step p input).1.run p rest).1.received = _
      rw [ih, step_received, List.foldl_cons]

theorem step_stops (s : Fifo) (input : Input) :
    (s.step p input).1.stops = s.stops + if isStop input then 1 else 0 := by
  cases input with
  | read size copyFails =>
      change (s.read size copyFails).1.stops = s.stops
      unfold Fifo.read
      split
      · rfl
      · split <;> rfl
  | callback event =>
      cases event with
      | stop =>
          change (s.callback p .stop).stops = s.stops + 1
          simp only [callback]
          split <;> rfl
      | _ => rfl

theorem run_stops (s : Fifo) (inputs : List Input) :
    (s.run p inputs).1.stops = s.stops + inputs.countP isStop := by
  induction inputs generalizing s with
  | nil => rfl
  | cons input rest ih =>
      change ((s.step p input).1.run p rest).1.stops = _
      rw [ih, step_stops, List.countP_cons, Nat.add_assoc, Nat.add_comm (List.countP _ _)]

/-- What a read adds to the removed frames reaches the user exactly when it succeeds. -/
theorem step_reached (s : Fifo) (input : Input) :
    reached (s.step p input).1.removed = reached s.removed ++ delivered (s.step p input).2 := by
  cases input with
  | callback event =>
      have hkept : (s.callback p event).removed = s.removed := by
        cases event with
        | stop =>
            simp only [callback]
            split <;> rfl
        | _ => rfl
      change reached (s.callback p event).removed = reached s.removed ++ []
      rw [hkept, List.append_nil]
  | read size copyFails =>
      change reached (s.read size copyFails).1.removed =
        reached s.removed ++ delivered [(s.read size copyFails).2]
      unfold Fifo.read
      split
      · exact (List.append_nil _).symm
      · split
        · exact (List.append_nil _).symm
        · cases copyFails <;> simp [reached, delivered]

theorem run_reached (s : Fifo) (inputs : List Input) :
    reached (s.run p inputs).1.removed = reached s.removed ++ delivered (s.run p inputs).2 := by
  induction inputs generalizing s with
  | nil => exact (List.append_nil _).symm
  | cons input rest ih =>
      change reached ((s.step p input).1.run p rest).1.removed =
        reached s.removed ++ delivered ((s.step p input).2 ++ ((s.step p input).1.run p rest).2)
      rw [ih, step_reached, delivered, delivered, delivered, List.filterMap_append,
        List.append_assoc]

end Fifo

/-- The frames that stops have queued. -/
def enqueued (p : Params) (inputs : List Input) : List (List U8) :=
  (Fifo.empty.run p inputs).1.enqueued

theorem received_append (inputs more : List Input) :
    received (inputs ++ more) = more.foldl receive (received inputs) :=
  List.foldl_append

theorem Fifo.run_append {p : Params} (s : Fifo) (inputs more : List Input) :
    (s.run p (inputs ++ more)).1 = ((s.run p inputs).1.run p more).1 := by
  induction inputs generalizing s with
  | nil => rfl
  | cons input rest ih => exact ih (s.step p input).1

/-- Only a stop queues a frame. -/
theorem enqueued_other (p : Params) (inputs : List Input) {input : Input}
    (h : isStop input = false) : enqueued p (inputs ++ [input]) = enqueued p inputs := by
  rw [enqueued, Fifo.run_append, enqueued]
  generalize (Fifo.empty.run p inputs).1 = s
  change (s.step p input).1.enqueued = s.enqueued
  cases input with
  | callback event =>
      cases event with
      | stop => cases h
      | _ => rfl
  | read size copyFails =>
      change (s.read size copyFails).1.enqueued = s.enqueued
      unfold Fifo.read
      split
      · rfl
      · split <;> rfl

/-- A stop queues what was received since the last one, or nothing. -/
theorem enqueued_stop (p : Params) (inputs : List Input) :
    (enqueued p (inputs ++ [.callback .stop])).Sublist
      (enqueued p inputs ++ [received inputs]) := by
  have hreceived : (Fifo.empty.run p inputs).1.received = received inputs :=
    Fifo.run_received Fifo.empty inputs
  rw [enqueued, Fifo.run_append, enqueued, ← hreceived]
  generalize (Fifo.empty.run p inputs).1 = s
  change (s.callback p .stop).enqueued.Sublist _
  unfold Fifo.callback
  dsimp only
  split
  · exact List.Sublist.refl _
  · exact List.sublist_append_left _ _

/-- The queue after `inputs`, with the results of the reads among them: what its indices
are, what a stop and a read do next, and how its frames and counters account for all that
went in and out. -/
structure WorksAsFifo (p : Params) (inputs : List Input) (fq : FrameqData)
    (results : List ReadResult) : Prop where
  indices : fq.head < p.queueDepth ∧ fq.tail < p.queueDepth ∧ fq.count ≤ p.queueDepth ∧
    fq.head = (fq.tail + fq.count) % p.queueDepth
  stop : frames p (frameqSlaveCb p fq .stop).1 =
    if Fifo.Accepts p (received inputs) fq.count then frames p fq ++ [received inputs]
    else frames p fq
  otherEvents : ∀ event, event ≠ .stop → frames p (frameqSlaveCb p fq event).1 = frames p fq
  readFits : ∀ size frame rest, frames p fq = frame :: rest → frame.length ≤ size →
    (frameqRead p size false fq).2 = .frame frame ∧
      frames p (frameqRead p size false fq).1 = rest
  readTooSmall : ∀ size copyFails frame rest, frames p fq = frame :: rest →
    size < frame.length → frameqRead p size copyFails fq = (fq, .msgSize)
  history : ∃ removed, enqueued p inputs = removed.map Prod.fst ++ frames p fq ∧
    delivered results = reached removed ∧
    fq.rxFrames = BitVec.ofNat 64 (removed.length + fq.count)
  stops : fq.rxFrames + fq.rxOverflowDrops + fq.queueFullDrops + fq.emptyStopDrops =
    BitVec.ofNat 64 (inputs.countP isStop)

/-- From a probe on, whatever the callbacks and reads and their order. -/
theorem frameq_worksAsFifo (p : Params) {fq₀ : FrameqData} (hprobed : Probed fq₀)
    (inputs : List Input) :
    WorksAsFifo p inputs (run p fq₀ inputs).1 (run p fq₀ inputs).2 := by
  obtain ⟨hrefines, hresults⟩ := run_refines (refines_probed hprobed) inputs
  have hreceived : (Fifo.empty.run p inputs).1.received = received inputs :=
    Fifo.run_received Fifo.empty inputs
  have hstops := Fifo.run_stops (p := p) Fifo.empty inputs
  have hreached := Fifo.run_reached (p := p) Fifo.empty inputs
  rw [← hresults] at hreached
  have hcount := hrefines.count_eq
  generalize (run p fq₀ inputs).1 = fq at *
  generalize hs : (Fifo.empty.run p inputs).1 = s at *
  constructor
  · exact ⟨hrefines.ok.head_lt, hrefines.ok.tail_lt, hrefines.ok.count_le, hrefines.ok.head_eq⟩
  · rw [(callback_refines hrefines .stop).queue, hrefines.queue, hcount, ← hreceived]
    simp only [Fifo.callback]
    split <;> rfl
  · intro event hevent
    rw [(callback_refines hrefines event).queue, hrefines.queue]
    cases event with
    | stop => exact absurd rfl hevent
    | _ => rfl
  · intro size frame rest hframes hfits
    obtain ⟨hread, hresult⟩ := read_refines hrefines size false
    rw [hrefines.queue] at hframes
    rw [hresult, hread.queue]
    simp only [Fifo.read, hframes, if_neg (Nat.not_lt.mpr hfits), Bool.false_eq_true, if_false,
      and_self]
  · intro size copyFails frame rest hframes hsmall
    rw [hrefines.queue] at hframes
    have holdest := hrefines.oldest hframes
    have hlen : (fq.slots fq.tail).len = frame.length := by
      rw [← holdest, FrameqSlot.frame, bytes, List.length_map, List.length_range]
    rw [hframes, List.length_cons] at hcount
    unfold frameqRead
    rw [if_neg (by omega), hlen, if_pos hsmall]
  · refine ⟨s.removed, ?_, hreached.symm, ?_⟩
    · rw [enqueued, hs, hrefines.queue]
      exact hrefines.history
    · rw [hrefines.rxFrames, hrefines.history, List.length_append, List.length_map, hcount]
  · rw [← FrameqData.stopCount, hrefines.stops, hstops]
    exact congrArg _ (Nat.zero_add _)

/-- Every buffer is zero. -/
def zeroed : FrameqData where
  slots _ := ⟨0, fun _ => 0⟩
  head := 0
  tail := 0
  count := 0
  active _ := 0
  activeLen := 0
  activeOverflow := false
  readBuf _ := 0
  rxFrames := 0
  rxBytes := 0
  rxOverflowDrops := 0
  queueFullDrops := 0
  emptyStopDrops := 0
  unexpectedReads := 0

/-- Frames of up to two bytes, and room for one. -/
def tiny : Params := ⟨2, 1, by decide, by decide, by decide, by decide⟩

/-- A frame of two bytes, a stop with no byte, and a second frame that finds the queue
full. -/
def tinyInputs : List Input :=
  [.callback .writeRequested, .callback (.writeReceived 1), .callback (.writeReceived 2),
    .callback .stop, .callback .stop, .callback (.writeReceived 3), .callback .stop]

theorem frameq_worksAsFifo_tiny :
    WorksAsFifo tiny tinyInputs (run tiny zeroed tinyInputs).1 (run tiny zeroed tinyInputs).2 ∧
      frames tiny (run tiny zeroed tinyInputs).1 = [[1, 2]] :=
  ⟨frameq_worksAsFifo tiny ⟨rfl, rfl, rfl, rfl, rfl, rfl, rfl, rfl, rfl⟩ tinyInputs,
    by decide⟩

end RadsatLinux.I2c.FrameQueue
