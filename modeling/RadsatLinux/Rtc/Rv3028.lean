import Mathlib
import RadsatLinux.Library.Calendar

/-!
# The RV-3028 clock

The clock chip and the driver that reads and sets it one register at a time, while it runs.
What the bus does is an input: each transfer comes some seconds after the one before it, and
succeeds or fails.  Years count from 2000, and every fourth one is a leap year.
-/

namespace RadsatLinux.Rtc.Rv3028

open RadsatLinux.Library.Calendar

abbrev U8 := BitVec 8

/-! ## The chip -/

inductive Reg where
  | sec
  | min
  | hour
  | wday
  | day
  | month
  | year
  deriving DecidableEq

def daysIn (year month : Nat) : Nat :=
  if month = 2 then (if year % 4 = 0 then 29 else 28)
  else if month = 4 ∨ month = 6 ∨ month = 9 ∨ month = 11 then 30
  else 31

theorem daysIn_le (year month : Nat) : daysIn year month ≤ 31 := by
  unfold daysIn
  split <;> split <;> omega

def bcd2bin (val : U8) : Nat :=
  (val &&& 0x0f).toNat + (val >>> 4).toNat * 10

def bin2bcd (val : Nat) : U8 :=
  BitVec.ofNat 8 ((val / 10) <<< 4 + val % 10)

/-- What a register shows. -/
def regByte (c : Clock) : Reg → U8
  | .sec => bin2bcd c.second
  | .min => bin2bcd c.minute
  | .hour => bin2bcd c.hour
  | .wday => bin2bcd c.wday
  | .day => bin2bcd c.day
  | .month => bin2bcd c.month
  | .year => bin2bcd (c.year % 100)

/-- The clock `n` seconds later. -/
def run (n : Nat) (c : Clock) : Clock := (Clock.tick daysIn)^[n] c

/-- A transfer on the bus: how long after the one before it, and the error it returns if it
fails. -/
structure Transfer where
  ticks : Nat
  fault : Option Nat

/-- Linux errors are negative. -/
def errorCode (fault : Nat) : Int := -((fault + 1 : Nat) : Int)

/-- The chip, and how many transfers there were. -/
structure Bus where
  clock : Clock
  transfers : Nat

variable (events : Nat → Transfer)

/-! ## Reading -/

def rv3028ReadReg (reg : Reg) : StateM Bus Int := do
  let s ← get
  let event := events s.transfers
  let clock := run event.ticks s.clock
  set (⟨clock, s.transfers + 1⟩ : Bus)
  match event.fault with
  | some fault => return errorCode fault
  | none => return (regByte clock reg).toNat

structure RtcTime where
  tmSec : Int
  tmMin : Int
  tmHour : Int
  tmWday : Int
  tmMday : Int
  tmMon : Int
  tmYear : Int

/-- `bcd2bin(ret & mask)` -/
def field (mask : U8) (ret : Int) : Int :=
  bcd2bin (BitVec.ofInt 8 ret &&& mask)

/-- The status and what is then in `tm`. -/
def rv3028GetTime (tm : RtcTime) : StateM Bus (Int × RtcTime) := do
  let ret ← rv3028ReadReg events .sec
  if ret < 0 then return (ret, tm)
  let tm := { tm with tmSec := field 0x7F ret }
  let ret ← rv3028ReadReg events .min
  if ret < 0 then return (ret, tm)
  let tm := { tm with tmMin := field 0x7F ret }
  let ret ← rv3028ReadReg events .hour
  if ret < 0 then return (ret, tm)
  let tm := { tm with tmHour := field 0x3F ret }
  let ret ← rv3028ReadReg events .wday
  if ret < 0 then return (ret, tm)
  let tm := { tm with tmWday := field 0x07 ret }
  let ret ← rv3028ReadReg events .day
  if ret < 0 then return (ret, tm)
  let tm := { tm with tmMday := field 0x3F ret }
  let ret ← rv3028ReadReg events .month
  if ret < 0 then return (ret, tm)
  let tm := { tm with tmMon := field 0x1F ret - 1 }
  let ret ← rv3028ReadReg events .year
  if ret < 0 then return (ret, tm)
  let tm := { tm with tmYear := field 0xFF ret + 100 }
  return (0, tm)

/-- The clock at each transfer, from a clock that shows `c` when the call begins. -/
def clockAt (c : Clock) : Nat → Clock
  | 0 => run (events 0).ticks c
  | i + 1 => run (events (i + 1)).ticks (clockAt c i)

/-- The seven registers as they were when each was read. -/
def fetched (at_ : Nat → Clock) : RtcTime where
  tmSec := (at_ 0).second
  tmMin := (at_ 1).minute
  tmHour := (at_ 2).hour
  tmWday := (at_ 3).wday
  tmMday := (at_ 4).day
  tmMon := (at_ 5).month - 1
  tmYear := (at_ 6).year + 100

theorem field_bin2bcd :
    (∀ v < 60, field 0x7F (bin2bcd v).toNat = v) ∧ (∀ v < 24, field 0x3F (bin2bcd v).toNat = v) ∧
    (∀ v < 7, field 0x07 (bin2bcd v).toNat = v) ∧ (∀ v < 32, field 0x3F (bin2bcd v).toNat = v) ∧
    (∀ v < 13, field 0x1F (bin2bcd v).toNat = v) ∧
    ∀ v < 100, field 0xFF (bin2bcd v).toNat = v := by
  decide

/-- A read that is checked: the function goes on only when the read was good. -/
theorem read_good_iff {reg : Reg} {tm out : RtcTime} {k : Int → StateM Bus (Int × RtcTime)}
    {c : Clock} {n : Nat} :
    ((do
      let ret ← rv3028ReadReg events reg
      if ret < 0 then return (ret, tm)
      k ret) ⟨c, n⟩).1 = (0, out) ↔
    (events n).fault = none ∧
      (k (regByte (run (events n).ticks c) reg).toNat ⟨run (events n).ticks c, n + 1⟩).1 =
        (0, out) := by
  have hrun : rv3028ReadReg events reg ⟨c, n⟩ =
      (match (events n).fault with
        | some fault => errorCode fault
        | none => (regByte (run (events n).ticks c) reg).toNat,
        ⟨run (events n).ticks c, n + 1⟩) := by
    dsimp only [rv3028ReadReg, bind, StateT.bind, get, getThe, MonadStateOf.get, StateT.get, set,
      StateT.set, pure]
    cases (events n).fault <;> rfl
  simp only [bind, StateT.bind, hrun]
  cases hfault : (events n).fault with
  | none =>
      have hpos : ¬ ((regByte (run (events n).ticks c) reg).toNat : Int) < 0 := by omega
      dsimp only
      rw [if_neg hpos]
      exact ⟨fun h => ⟨rfl, h⟩, fun h => h.2⟩
  | some fault =>
      have hneg : errorCode fault < 0 := by
        unfold errorCode
        omega
      dsimp only
      rw [if_pos hneg]
      constructor
      · intro h
        have hcode : errorCode fault = 0 := congrArg Prod.fst h
        omega
      · rintro ⟨hnone, -⟩
        cases hnone

/-- The first transfers succeed. -/
def Succeeds (n : Nat) : Prop := ∀ i < n, (events i).fault = none

/-- `rv3028_get_time` returns 0 when every read was good, and what it has put together then. -/
theorem getTime_iff {tm out : RtcTime} {c : Clock} :
    (rv3028GetTime events tm ⟨c, 0⟩).1 = (0, out) ↔ Succeeds events 7 ∧
      out =
        { tmSec := field 0x7F (regByte (clockAt events c 0) .sec).toNat
          tmMin := field 0x7F (regByte (clockAt events c 1) .min).toNat
          tmHour := field 0x3F (regByte (clockAt events c 2) .hour).toNat
          tmWday := field 0x07 (regByte (clockAt events c 3) .wday).toNat
          tmMday := field 0x3F (regByte (clockAt events c 4) .day).toNat
          tmMon := field 0x1F (regByte (clockAt events c 5) .month).toNat - 1
          tmYear := field 0xFF (regByte (clockAt events c 6) .year).toNat + 100 } := by
  unfold rv3028GetTime
  rw [read_good_iff, read_good_iff, read_good_iff, read_good_iff, read_good_iff, read_good_iff,
    read_good_iff]
  constructor
  · rintro ⟨h0, h1, h2, h3, h4, h5, h6, hout⟩
    refine ⟨fun i hi => ?_, (congrArg Prod.snd hout).symm⟩
    interval_cases i <;> assumption
  · rintro ⟨hgood, hout⟩
    exact ⟨hgood 0 (by decide), hgood 1 (by decide), hgood 2 (by decide), hgood 3 (by decide),
      hgood 4 (by decide), hgood 5 (by decide), hgood 6 (by decide),
      congrArg (Prod.mk 0) hout.symm⟩

variable {events} {c : Clock}

theorem inRange_run (h : c.InRange) (n : Nat) : (run n c).InRange := h.iterate daysIn_le n

theorem inRange_clockAt (h : c.InRange) (i : Nat) : (clockAt events c i).InRange := by
  induction i with
  | zero => exact inRange_run h _
  | succ i ih => exact inRange_run ih _

theorem rank_clockAt_le (h : c.InRange) {i j : Nat} (hij : i ≤ j) :
    (clockAt events c i).rank ≤ (clockAt events c j).rank := by
  induction hij with
  | refl => exact Nat.le_refl _
  | step _ ih =>
      exact Nat.le_trans ih ((inRange_clockAt h _).rank_le_iterate daysIn_le _)

theorem getTime_iff_fetched {tm out : RtcTime} (h : c.InRange)
    (hyear : (clockAt events c 6).year < 100) :
    (rv3028GetTime events tm ⟨c, 0⟩).1 = (0, out) ↔
      Succeeds events 7 ∧ out = fetched (clockAt events c) := by
  obtain ⟨hsixty, htwentyFour, hseven, hthirtyTwo, hthirteen, hhundred⟩ := field_bin2bcd
  have hrange (i : Nat) : (clockAt events c i).InRange := inRange_clockAt h i
  have hday := (hrange 4).date.day
  have hmonth := (hrange 5).date.month
  rw [getTime_iff, fetched]
  simp only [regByte, hsixty _ (hrange 0).second, hsixty _ (hrange 1).minute,
    htwentyFour _ (hrange 2).hour, hseven _ (hrange 3).wday,
    hthirtyTwo _ (Nat.lt_succ_of_le hday.2), hthirteen _ (Nat.lt_succ_of_le hmonth.2),
    Nat.mod_eq_of_lt hyear, hhundred _ hyear]

/-! ## Torn reads -/

/-- The clock that a `struct rtc_time` stands for. -/
def RtcTime.toClock (tm : RtcTime) : Clock where
  year := (tm.tmYear - 100).toNat
  month := (tm.tmMon + 1).toNat
  day := tm.tmMday.toNat
  wday := tm.tmWday.toNat
  hour := tm.tmHour.toNat
  minute := tm.tmMin.toNat
  second := tm.tmSec.toNat

/-- In the order of years, months, days, hours, minutes and seconds. -/
def Between (first last : Clock) (tm : RtcTime) : Prop :=
  first.rank ≤ tm.toClock.rank ∧ tm.toClock.rank ≤ last.rank

/-- The registers below the year. -/
inductive Field where
  | month
  | day
  | hour
  | minute
  | second

def Field.value : Field → Clock → Nat
  | .month, c => c.month
  | .day, c => c.day
  | .hour, c => c.hour
  | .minute, c => c.minute
  | .second, c => c.second

/-- Which of the reads fetches the register: the more significant it is, the later. -/
def Field.readAt : Field → Nat
  | .month => 5
  | .day => 4
  | .hour => 2
  | .minute => 1
  | .second => 0

/-- For a register that has rolled over since it was read, a more significant one has gone up
since its own read. -/
def RolloversCovered (at_ : Nat → Clock) : Prop :=
  ∀ low : Field, low.value (at_ 6) < low.value (at_ low.readAt) →
    ∃ high : Field, low.readAt < high.readAt ∧
      high.value (at_ high.readAt) < high.value (at_ 6)

theorem toClock_fetched (at_ : Nat → Clock) :
    (fetched at_).toClock = ⟨⟨(at_ 6).year, (at_ 5).month, (at_ 4).day⟩, (at_ 3).wday,
      (at_ 2).hour, (at_ 1).minute, (at_ 0).second⟩ := by
  simp [RtcTime.toClock, fetched]

/-- `RolloversCovered`, register by register. -/
theorem rolloversCovered_iff (at_ : Nat → Clock) :
    RolloversCovered at_ ↔
      ¬ (at_ 6).month < (at_ 5).month ∧
      ((at_ 6).day < (at_ 4).day → (at_ 5).month < (at_ 6).month) ∧
      ((at_ 6).hour < (at_ 2).hour →
        (at_ 5).month < (at_ 6).month ∨ (at_ 4).day < (at_ 6).day) ∧
      ((at_ 6).minute < (at_ 1).minute → (at_ 5).month < (at_ 6).month ∨
        (at_ 4).day < (at_ 6).day ∨ (at_ 2).hour < (at_ 6).hour) ∧
      ((at_ 6).second < (at_ 0).second → (at_ 5).month < (at_ 6).month ∨
        (at_ 4).day < (at_ 6).day ∨ (at_ 2).hour < (at_ 6).hour ∨
        (at_ 1).minute < (at_ 6).minute) := by
  constructor
  · intro h
    refine ⟨fun hroll => ?_, fun hroll => ?_, fun hroll => ?_, fun hroll => ?_, fun hroll => ?_⟩
    · obtain ⟨high, habove, hup⟩ := h .month hroll
      cases high <;> simp [Field.readAt] at habove
    · obtain ⟨high, habove, hup⟩ := h .day hroll
      cases high <;> simp [Field.readAt, Field.value] at habove hup
      exact hup
    · obtain ⟨high, habove, hup⟩ := h .hour hroll
      cases high <;> simp [Field.readAt, Field.value] at habove hup <;> omega
    · obtain ⟨high, habove, hup⟩ := h .minute hroll
      cases high <;> simp [Field.readAt, Field.value] at habove hup <;> omega
    · obtain ⟨high, habove, hup⟩ := h .second hroll
      cases high <;> simp [Field.readAt, Field.value] at habove hup <;> omega
  · rintro ⟨hmonth, hday, hhour, hminute, hsecond⟩ low hroll
    cases low with
    | month => exact absurd hroll hmonth
    | day => exact ⟨.month, by decide, hday hroll⟩
    | hour =>
        rcases hhour hroll with h | h
        · exact ⟨.month, by decide, h⟩
        · exact ⟨.day, by decide, h⟩
    | minute =>
        rcases hminute hroll with h | h | h
        · exact ⟨.month, by decide, h⟩
        · exact ⟨.day, by decide, h⟩
        · exact ⟨.hour, by decide, h⟩
    | second =>
        rcases hsecond hroll with h | h | h | h
        · exact ⟨.month, by decide, h⟩
        · exact ⟨.day, by decide, h⟩
        · exact ⟨.hour, by decide, h⟩
        · exact ⟨.minute, by decide, h⟩

/-- What is read is not later than the last read exactly when no rollover shows. -/
theorem fetched_le_last_iff {at_ : Nat → Clock} (hrange : ∀ i, (at_ i).InRange) :
    (fetched at_).toClock.rank ≤ (at_ 6).rank ↔ RolloversCovered at_ := by
  have hmonth := (hrange 5).date.month
  have hday := (hrange 4).date.day
  have hhour := (hrange 2).hour
  have hminute := (hrange 1).minute
  have hsecond := (hrange 0).second
  have hmonth' := (hrange 6).date.month
  have hday' := (hrange 6).date.day
  have hhour' := (hrange 6).hour
  have hminute' := (hrange 6).minute
  have hsecond' := (hrange 6).second
  rw [rolloversCovered_iff, toClock_fetched]
  unfold Clock.rank Clock.sod Date.rank
  dsimp only
  omega

theorem rank_prefixes {a b : Clock} (ha : a.InRange) (hb : b.InRange) (hle : a.rank ≤ b.rank) :
    a.year ≤ b.year ∧ a.year * 13 + a.month ≤ b.year * 13 + b.month ∧
      a.toDate.rank ≤ b.toDate.rank ∧
      a.toDate.rank * 24 + a.hour ≤ b.toDate.rank * 24 + b.hour ∧
      (a.toDate.rank * 24 + a.hour) * 60 + a.minute ≤
        (b.toDate.rank * 24 + b.hour) * 60 + b.minute := by
  have hmonth := ha.date.month
  have hday := ha.date.day
  have hhour := ha.hour
  have hminute := ha.minute
  have hsecond := ha.second
  have hmonth' := hb.date.month
  have hday' := hb.date.day
  have hhour' := hb.hour
  have hminute' := hb.minute
  have hsecond' := hb.second
  unfold Clock.rank Clock.sod Date.rank at hle
  unfold Date.rank
  omega

/-- What is read is never earlier than the first read: each register is as it was later than
the less significant ones. -/
theorem first_le_fetched {at_ : Nat → Clock} (hrange : ∀ i, (at_ i).InRange)
    (hmono : ∀ i j, i ≤ j → (at_ i).rank ≤ (at_ j).rank) :
    (at_ 0).rank ≤ (fetched at_).toClock.rank := by
  obtain ⟨hyear, -⟩ := rank_prefixes (hrange 5) (hrange 6) (hmono 5 6 (by decide))
  obtain ⟨-, hmonth, -⟩ := rank_prefixes (hrange 4) (hrange 5) (hmono 4 5 (by decide))
  obtain ⟨-, -, hday, -⟩ := rank_prefixes (hrange 2) (hrange 4) (hmono 2 4 (by decide))
  obtain ⟨-, -, -, hhour, -⟩ := rank_prefixes (hrange 1) (hrange 2) (hmono 1 2 (by decide))
  obtain ⟨-, -, -, -, hminute⟩ := rank_prefixes (hrange 0) (hrange 1) (hmono 0 1 (by decide))
  rw [toClock_fetched]
  unfold Date.rank at hday hhour hminute
  unfold Clock.rank Clock.sod Date.rank
  dsimp only
  omega

/-- No carry came into a register between the read of the one below and its own. -/
def CarryFree (at_ : Nat → Clock) : Prop :=
  (at_ 1).minute = (at_ 0).minute ∧ (at_ 2).hour = (at_ 1).hour ∧ (at_ 4).day = (at_ 2).day ∧
    (at_ 5).month = (at_ 4).month ∧ (at_ 6).year = (at_ 5).year

/-- From the first transfer to a later one. -/
def elapsed (events : Nat → Transfer) : Nat → Nat
  | 0 => 0
  | i + 1 => (events (i + 1)).ticks + elapsed events i

theorem clockAt_eq_run (i : Nat) :
    clockAt events c i = run (elapsed events i) (clockAt events c 0) := by
  induction i with
  | zero => rfl
  | succ i ih =>
      change run (events (i + 1)).ticks (clockAt events c i) = _
      rw [ih, elapsed, run, run, run, Function.iterate_add_apply]

theorem elapsed_le {i j : Nat} (hij : i ≤ j) : elapsed events i ≤ elapsed events j := by
  induction hij with
  | refl => exact Nat.le_refl _
  | step _ ih => exact Nat.le_trans ih (Nat.le_add_left _ _)

/-- In less than a minute, `c` with later seconds or the minute after it. -/
theorem run_within_minute (h : c.InRange) {n : Nat} (hn : n < 60) :
    run n c = if c.second + n < 60 then { c with second := c.second + n }
      else { c.nextMinute daysIn with second := c.second + n - 60 } := by
  split
  · exact Clock.iterate_of_second_lt (by assumption)
  · exact h.iterate_of_carry hn (by omega)

/-- The date moves on by a day, a month or a year. -/
theorem next_cases {d : Date} (h : d.InRange) :
    (d.next daysIn).year = d.year ∧ (d.next daysIn).month = d.month ∧
        (d.next daysIn).day = d.day + 1 ∨
      (d.next daysIn).year = d.year ∧ (d.next daysIn).month = d.month + 1 ∧
        (d.next daysIn).day = 1 ∧ 28 ≤ d.day ∨
      (d.next daysIn).year = d.year + 1 ∧ (d.next daysIn).month = 1 ∧
        (d.next daysIn).day = 1 ∧ 28 ≤ d.day ∧ d.month = 12 := by
  have hmonth := h.month.2
  have hlong : 28 ≤ daysIn d.year d.month := by
    unfold daysIn
    split <;> split <;> omega
  unfold Date.next
  split
  · exact .inl ⟨rfl, rfl, rfl⟩
  · split
    · exact .inr (.inl ⟨rfl, rfl, rfl, by omega⟩)
    · exact .inr (.inr ⟨rfl, rfl, rfl, by omega, by omega⟩)

theorem nextMinute_cases (h : c.InRange) :
    (c.nextMinute daysIn).toDate = c.toDate ∧ (c.nextMinute daysIn).hour = c.hour ∧
        (c.nextMinute daysIn).minute = c.minute + 1 ∨
      (c.nextMinute daysIn).toDate = c.toDate ∧ (c.nextMinute daysIn).hour = c.hour + 1 ∧
        (c.nextMinute daysIn).minute = 0 ∧ c.minute = 59 ∨
      (c.nextMinute daysIn).toDate = c.toDate.next daysIn ∧ (c.nextMinute daysIn).hour = 0 ∧
        (c.nextMinute daysIn).minute = 0 ∧ c.minute = 59 ∧ c.hour = 23 := by
  have hminute := h.minute
  have hhour := h.hour
  unfold Clock.nextMinute Clock.tick
  rw [if_neg (Nat.lt_irrefl 59)]
  split
  · exact .inl ⟨rfl, rfl, rfl⟩
  · dsimp only at *
    split
    · exact .inr (.inl ⟨rfl, rfl, rfl, by omega⟩)
    · exact .inr (.inr ⟨rfl, rfl, rfl, by omega, by omega⟩)

theorem fetched_le_last_iff_carryFree (h : c.InRange) (hshort : elapsed events 6 < 60) :
    (fetched (clockAt events c)).toClock.rank ≤ (clockAt events c 6).rank ↔
      CarryFree (clockAt events c) := by
  have hfirst : (clockAt events c 0).InRange := inRange_clockAt h 0
  have hrun (i : Nat) (hi : i ≤ 6) :
      clockAt events c i =
        if (clockAt events c 0).second + elapsed events i < 60 then
          { clockAt events c 0 with second := (clockAt events c 0).second + elapsed events i }
        else { (clockAt events c 0).nextMinute daysIn with
          second := (clockAt events c 0).second + elapsed events i - 60 } := by
    rw [clockAt_eq_run i]
    exact run_within_minute hfirst (Nat.lt_of_le_of_lt (elapsed_le hi) hshort)
  have h01 : elapsed events 0 ≤ elapsed events 1 := elapsed_le (by decide)
  have h12 : elapsed events 1 ≤ elapsed events 2 := elapsed_le (by decide)
  have h24 : elapsed events 2 ≤ elapsed events 4 := elapsed_le (by decide)
  have h45 : elapsed events 4 ≤ elapsed events 5 := elapsed_le (by decide)
  have h56 : elapsed events 5 ≤ elapsed events 6 := elapsed_le (by decide)
  have hnext := nextMinute_cases hfirst
  have hdate := next_cases hfirst.date
  rw [toClock_fetched]
  unfold CarryFree Clock.rank Clock.sod Date.rank
  rw [hrun 1 (by decide), hrun 2 (by decide), hrun 4 (by decide), hrun 5 (by decide),
    hrun 6 (by decide)]
  clear hrun
  generalize clockAt events c 0 = first at *
  generalize first.nextMinute daysIn = after at *
  obtain ⟨hmonth, hday⟩ := hfirst.date
  have hhour := hfirst.hour
  have hminute := hfirst.minute
  have hsecond := hfirst.second
  rcases hnext with ⟨hover, hhour', hminute'⟩ | ⟨hover, hhour', hminute', hlast⟩ |
    ⟨hover, hhour', hminute', hlast⟩
  all_goals
    have hyear' := congrArg Date.year hover
    have hmonth' := congrArg Date.month hover
    have hday' := congrArg Date.day hover
    split_ifs <;> dsimp only <;> omega

/-- When the function returns 0, what it read is between the clock at the first read and the
clock at the last. -/
def ReadKept (events : Nat → Transfer) (c : Clock) (tm : RtcTime) : Prop :=
  ∀ out, (rv3028GetTime events tm ⟨c, 0⟩).1 = (0, out) →
    Between (clockAt events c 0) (clockAt events c 6) out

/-- A read is torn exactly when every transfer is good and a rollover shows; in a call
shorter than a minute, when a carry came into a register just before it was read. -/
theorem readKept_iff (tm : RtcTime) (h : c.InRange) (hyear : (clockAt events c 6).year < 100) :
    (ReadKept events c tm ↔
      (Succeeds events 7 → RolloversCovered (clockAt events c))) ∧
    (elapsed events 6 < 60 →
      (ReadKept events c tm ↔ (Succeeds events 7 → CarryFree (clockAt events c)))) := by
  have hkept : ReadKept events c tm ↔ (Succeeds events 7 →
      (fetched (clockAt events c)).toClock.rank ≤ (clockAt events c 6).rank) := by
    constructor
    · intro hread hgood
      exact (hread _ ((getTime_iff_fetched h hyear).mpr ⟨hgood, rfl⟩)).2
    · intro hle out hret
      obtain ⟨hgood, rfl⟩ := (getTime_iff_fetched h hyear).mp hret
      exact ⟨first_le_fetched (inRange_clockAt h) (fun i j hij => rank_clockAt_le h hij),
        hle hgood⟩
  constructor
  · rw [hkept, fetched_le_last_iff (inRange_clockAt h)]
  · intro hshort
    rw [hkept, fetched_le_last_iff_carryFree h hshort]

/-- A clock at the last second of 2026 that is read in one go. -/
theorem readKept_iff_newYear :
    let events : Nat → Transfer := fun i => ⟨if i = 0 then 1 else 0, none⟩
    let c : Clock := ⟨⟨26, 12, 31⟩, 4, 23, 59, 58⟩
    let tm : RtcTime := ⟨0, 0, 0, 0, 0, 0, 0⟩
    (ReadKept events c tm ↔
      (Succeeds events 7 → RolloversCovered (clockAt events c))) ∧
    (elapsed events 6 < 60 →
      (ReadKept events c tm ↔ (Succeeds events 7 → CarryFree (clockAt events c)))) :=
  readKept_iff _ ⟨⟨by decide, by decide⟩, by decide, by decide, by decide, by decide⟩ (by decide)

/-- The minute begins between the read of the seconds and the read of the minutes: 00:01:59
while the clock goes from 00:00:59 to 00:01:00. -/
theorem not_readKept_minuteCarry :
    ¬ ReadKept (fun i => ⟨if i = 1 then 1 else 0, none⟩) ⟨⟨26, 1, 1⟩, 4, 0, 0, 59⟩
      ⟨0, 0, 0, 0, 0, 0, 0⟩ := by
  intro hread
  have hlast := (hread ⟨59, 1, 0, 4, 1, 0, 126⟩ rfl).2
  revert hlast
  decide

end RadsatLinux.Rtc.Rv3028
