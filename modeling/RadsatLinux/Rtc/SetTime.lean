import Mathlib
import RadsatLinux.Rtc.Rv3028

/-!
# Setting the clock

`rv3028_set_time` writes the seven registers one after another and looks at none of the
results, while the clock runs on.  What it leaves behind is compared with what was asked for.
-/

namespace RadsatLinux.Rtc.SetTime

open RadsatLinux.Library.Calendar
open RadsatLinux.Rtc.Rv3028

/-! ## Writing -/

/-- The clock once a register has been given a value. -/
def setReg (reg : Reg) (val : U8) (c : Clock) : Clock :=
  match reg with
  | .sec => { c with second := bcd2bin val }
  | .min => { c with minute := bcd2bin val }
  | .hour => { c with hour := bcd2bin val }
  | .wday => { c with wday := bcd2bin val }
  | .day => { c with day := bcd2bin val }
  | .month => { c with month := bcd2bin val }
  | .year => { c with year := bcd2bin val }

variable (events : Nat → Transfer)

def rv3028WriteReg (reg : Reg) (val : U8) : StateM Bus Int := do
  let s ← get
  let event := events s.transfers
  let clock := run event.ticks s.clock
  match event.fault with
  | some fault =>
    set (⟨clock, s.transfers + 1⟩ : Bus)
    return errorCode fault
  | none =>
    set (⟨setReg reg val clock, s.transfers + 1⟩ : Bus)
    return 0

/-- An `int` given to a function of an `unsigned`. -/
def unsigned (val : Int) : Nat := (val % 2 ^ 32).toNat

def rv3028SetTime (tm : RtcTime) : StateM Bus Int := do
  let _ ← rv3028WriteReg events .sec (bin2bcd (unsigned tm.tmSec))
  let _ ← rv3028WriteReg events .min (bin2bcd (unsigned tm.tmMin))
  let _ ← rv3028WriteReg events .hour (bin2bcd (unsigned tm.tmHour))
  let _ ← rv3028WriteReg events .wday (bin2bcd (unsigned tm.tmWday))
  let _ ← rv3028WriteReg events .day (bin2bcd (unsigned tm.tmMday))
  let _ ← rv3028WriteReg events .month (bin2bcd (unsigned (tm.tmMon + 1)))
  let _ ← rv3028WriteReg events .year (bin2bcd (unsigned (tm.tmYear - 100)))
  return 0

/-- A valid `struct rtc_time` of the years 2000 to 2099. -/
structure Valid (tm : RtcTime) : Prop where
  sec : 0 ≤ tm.tmSec ∧ tm.tmSec < 60
  min : 0 ≤ tm.tmMin ∧ tm.tmMin < 60
  hour : 0 ≤ tm.tmHour ∧ tm.tmHour < 24
  wday : 0 ≤ tm.tmWday ∧ tm.tmWday < 7
  mon : 0 ≤ tm.tmMon ∧ tm.tmMon < 12
  year : 100 ≤ tm.tmYear ∧ tm.tmYear < 200
  mday : 1 ≤ tm.tmMday ∧ tm.toClock.day ≤ daysIn tm.toClock.year tm.toClock.month

/-- The clock after a write of the register. -/
def afterWrite (event : Transfer) (reg : Reg) (val : U8) (c : Clock) : Clock :=
  match event.fault with
  | some _ => run event.ticks c
  | none => setReg reg val (run event.ticks c)

/-- The function goes on whatever the write returned. -/
theorem write_then (reg : Reg) (val : U8) (rest : StateM Bus Int) (c : Clock) (n : Nat) :
    (do
      let _ ← rv3028WriteReg events reg val
      rest) ⟨c, n⟩ = rest ⟨afterWrite (events n) reg val c, n + 1⟩ := by
  dsimp only [rv3028WriteReg, afterWrite, bind, StateT.bind, get, getThe, MonadStateOf.get,
    StateT.get, pure]
  cases (events n).fault <;> rfl

theorem setTime_eq (tm : RtcTime) (c : Clock) :
    rv3028SetTime events tm ⟨c, 0⟩ =
      (0, ⟨afterWrite (events 6) .year (bin2bcd (unsigned (tm.tmYear - 100)))
        (afterWrite (events 5) .month (bin2bcd (unsigned (tm.tmMon + 1)))
        (afterWrite (events 4) .day (bin2bcd (unsigned tm.tmMday))
        (afterWrite (events 3) .wday (bin2bcd (unsigned tm.tmWday))
        (afterWrite (events 2) .hour (bin2bcd (unsigned tm.tmHour))
        (afterWrite (events 1) .min (bin2bcd (unsigned tm.tmMin))
        (afterWrite (events 0) .sec (bin2bcd (unsigned tm.tmSec)) c)))))), 7⟩) := by
  rw [rv3028SetTime, write_then, write_then, write_then, write_then, write_then, write_then,
    write_then]
  rfl

theorem bcd2bin_bin2bcd : ∀ v < 100, bcd2bin (bin2bcd v) = v := by
  decide

theorem unsigned_eq {val : Int} (h : 0 ≤ val ∧ val < 200) : unsigned val = val.toNat := by
  have hmod : val % 2 ^ 32 = val := by omega
  rw [unsigned, hmod]

variable {events} {tm : RtcTime} {c asked : Clock}

theorem setReg_regByte (h : asked.InRange) (hyear : asked.year < 100) (reg : Reg) :
    setReg reg (regByte asked reg) c =
      match reg with
      | .sec => { c with second := asked.second }
      | .min => { c with minute := asked.minute }
      | .hour => { c with hour := asked.hour }
      | .wday => { c with wday := asked.wday }
      | .day => { c with day := asked.day }
      | .month => { c with month := asked.month }
      | .year => { c with year := asked.year } := by
  have hmonth := h.date.month
  have hday := h.date.day
  have hwday := h.wday
  have hhour := h.hour
  have hminute := h.minute
  have hsecond := h.second
  cases reg with
  | sec => rw [setReg, regByte, bcd2bin_bin2bcd _ (by omega)]
  | min => rw [setReg, regByte, bcd2bin_bin2bcd _ (by omega)]
  | hour => rw [setReg, regByte, bcd2bin_bin2bcd _ (by omega)]
  | wday => rw [setReg, regByte, bcd2bin_bin2bcd _ (by omega)]
  | day => rw [setReg, regByte, bcd2bin_bin2bcd _ (by omega)]
  | month => rw [setReg, regByte, bcd2bin_bin2bcd _ (by omega)]
  | year => rw [setReg, regByte, Nat.mod_eq_of_lt hyear, bcd2bin_bin2bcd _ hyear]

theorem Valid.inRange (h : Valid tm) : tm.toClock.InRange ∧ tm.toClock.year < 100 := by
  have hmon := h.mon
  have hmday := h.mday
  have hlong := daysIn_le tm.toClock.year tm.toClock.month
  have hwday := h.wday
  have hhour := h.hour
  have hmin := h.min
  have hsec := h.sec
  have hyear := h.year
  unfold RtcTime.toClock at *
  dsimp only at *
  refine ⟨⟨⟨?_, ?_⟩, ?_, ?_, ?_, ?_⟩, by omega⟩ <;> dsimp only <;> omega

/-- The clock when every write succeeds. -/
def overwritten (events : Nat → Transfer) (asked c : Clock) : Clock :=
  let c := { run (events 0).ticks c with second := asked.second }
  let c := { run (events 1).ticks c with minute := asked.minute }
  let c := { run (events 2).ticks c with hour := asked.hour }
  let c := { run (events 3).ticks c with wday := asked.wday }
  let c := { run (events 4).ticks c with day := asked.day }
  let c := { run (events 5).ticks c with month := asked.month }
  { run (events 6).ticks c with year := asked.year }

theorem afterWrite_good (hgood : Succeeds events 7) {i : Nat} (hi : i < 7) (reg : Reg)
    (val : U8) (c : Clock) :
    afterWrite (events i) reg val c = setReg reg val (run (events i).ticks c) := by
  rw [afterWrite, hgood i hi]

theorem setTime_good (hvalid : Valid tm) (hgood : Succeeds events 7) :
    (rv3028SetTime events tm ⟨c, 0⟩).2.clock = overwritten events tm.toClock c := by
  obtain ⟨hrange, hyear⟩ := hvalid.inRange
  have hsec := hvalid.sec
  have hmin := hvalid.min
  have hhour := hvalid.hour
  have hwday := hvalid.wday
  have hmday := hvalid.mday
  have hday := hrange.date.day
  have hmon := hvalid.mon
  have hyear' := hvalid.year
  have hmday' : tm.tmMday < 200 := by
    have hnat : tm.toClock.day = tm.tmMday.toNat := rfl
    omega
  have hyearByte : regByte tm.toClock .year = bin2bcd (tm.tmYear - 100).toNat := by
    rw [regByte, Nat.mod_eq_of_lt hyear]
    rfl
  obtain ⟨hs, hm, hh, hw, hd, hmo, hy⟩ :
      bin2bcd (unsigned tm.tmSec) = regByte tm.toClock .sec ∧
      bin2bcd (unsigned tm.tmMin) = regByte tm.toClock .min ∧
      bin2bcd (unsigned tm.tmHour) = regByte tm.toClock .hour ∧
      bin2bcd (unsigned tm.tmWday) = regByte tm.toClock .wday ∧
      bin2bcd (unsigned tm.tmMday) = regByte tm.toClock .day ∧
      bin2bcd (unsigned (tm.tmMon + 1)) = regByte tm.toClock .month ∧
      bin2bcd (unsigned (tm.tmYear - 100)) = regByte tm.toClock .year := by
    rw [unsigned_eq (by omega), unsigned_eq (by omega), unsigned_eq (by omega),
      unsigned_eq (by omega), unsigned_eq (by omega), unsigned_eq (by omega),
      unsigned_eq (by omega), hyearByte]
    exact ⟨rfl, rfl, rfl, rfl, rfl, rfl, rfl⟩
  rw [setTime_eq, hs, hm, hh, hw, hd, hmo, hy]
  simp only [afterWrite_good hgood (by decide : 0 < 7), afterWrite_good hgood (by decide : 1 < 7),
    afterWrite_good hgood (by decide : 2 < 7), afterWrite_good hgood (by decide : 3 < 7),
    afterWrite_good hgood (by decide : 4 < 7), afterWrite_good hgood (by decide : 5 < 7),
    afterWrite_good hgood (by decide : 6 < 7), setReg_regByte hrange hyear]
  rfl

/-! ## What the clock shows afterwards -/

/-- The second of the day once the hour has been written: a carry out of the seconds before
the minutes are written is lost, and so is one out of the minutes before the hour is. -/
def sodAtHour (events : Nat → Transfer) (asked : Clock) : Nat :=
  asked.hour * 3600 +
    (asked.minute * 60 + (asked.second + elapsed events 1) % 60 + (events 2).ticks) % 3600

/-- From the write of the hour to the `n`th write after it. -/
def sinceHour (events : Nat → Transfer) : Nat → Nat
  | 0 => 0
  | n + 1 => sinceHour events n + (events (n + 3)).ticks

def midnights (events : Nat → Transfer) (asked : Clock) (n : Nat) : Nat :=
  (sodAtHour events asked + sinceHour events n) / 86400

theorem elapsed_eq (n : Nat) : elapsed events (n + 2) = elapsed events 2 + sinceHour events n := by
  induction n with
  | zero => rfl
  | succ n ih =>
      change (events (n + 3)).ticks + elapsed events (n + 2) = _
      rw [ih, sinceHour]
      omega

theorem midnights_le (asked : Clock) {m n : Nat} (hmn : m ≤ n) :
    midnights events asked m ≤ midnights events asked n := by
  have hsince : sinceHour events m ≤ sinceHour events n := by
    induction hmn with
    | refl => exact Nat.le_refl _
    | step _ ih => exact Nat.le_trans ih (Nat.le_add_right _ _)
  exact Nat.div_le_div_right (Nat.add_le_add_left hsince _)

theorem at_hour (events : Nat → Transfer) (h : c.InRange) (hasked : asked.InRange) :
    ∃ date wday,
      Clock.At date wday (sodAtHour events asked)
        { run (events 2).ticks
          { run (events 1).ticks { clockAt events c 0 with second := asked.second } with
            minute := asked.minute } with
          hour := asked.hour } ∧
      (asked.second + elapsed events 1 < 60 →
        asked.minute * 60 + asked.second + elapsed events 2 < 3600 →
        date = (clockAt events c 0).toDate) := by
  have hold : (clockAt events c 0).InRange := inRange_clockAt h 0
  have hsod := hold.sod_lt
  have hsecond := hasked.second
  have helapsed : elapsed events 1 = (events 1).ticks := rfl
  have helapsed' : elapsed events 2 = (events 2).ticks + elapsed events 1 := rfl
  -- the minutes are written
  obtain ⟨date₁, wday₁, sod₁, hmin, hsod₁, hdate₁⟩ : ∃ date wday sod,
      Clock.At date wday sod
        { run (events 1).ticks { clockAt events c 0 with second := asked.second } with
          minute := asked.minute } ∧
      sod % 3600 = asked.minute * 60 + (asked.second + elapsed events 1) % 60 ∧
      (asked.second + elapsed events 1 < 60 → date = (clockAt events c 0).toDate) := by
    have hrun := ((Clock.At.refl hold).setSecond hsecond).iterate daysIn_le (events 1).ticks
    have hminute := hasked.minute
    refine ⟨_, _, _, hrun.setMinute hminute, by omega, fun hlt => ?_⟩
    have hdiv : ((clockAt events c 0).sod / 60 * 60 + asked.second + (events 1).ticks) / 86400 =
        0 := by omega
    rw [hdiv]
    rfl
  -- the hour is written
  have hrun := hmin.iterate daysIn_le (events 2).ticks
  have hday := hmin.inRange.sod_lt
  rw [hmin.sod] at hday
  have hsod₂ : asked.hour * 3600 + (sod₁ + (events 2).ticks) % 86400 % 3600 =
      sodAtHour events asked := by
    unfold sodAtHour
    omega
  refine ⟨_, _, hsod₂ ▸ hrun.setHour hasked.hour, fun hlt hlt' => ?_⟩
  have hdiv : (sod₁ + (events 2).ticks) / 86400 = 0 := by omega
  rw [hdiv]
  exact hdate₁ hlt

/-- The date once the day, the month and the year have been written, and the midnights
between have passed. -/
def dateAfter (events : Nat → Transfer) (asked : Clock) (date : Date) : Date :=
  let n := midnights events asked
  let atMonth := (Date.next daysIn)^[n 3 - n 2] { date with day := asked.day }
  let atYear := (Date.next daysIn)^[n 4 - n 3] { atMonth with month := asked.month }
  { atYear with year := asked.year }

theorem overwritten_at (events : Nat → Transfer) (h : c.InRange) (hasked : asked.InRange) :
    ∃ date,
      Clock.At (dateAfter events asked date)
        ((asked.wday + (midnights events asked 4 - midnights events asked 1)) % 7)
        ((sodAtHour events asked + sinceHour events 4) % 86400) (overwritten events asked c) ∧
      (asked.second + elapsed events 1 < 60 →
        asked.minute * 60 + asked.second + elapsed events 2 < 3600 →
        midnights events asked 2 = 0 → date = (clockAt events c 0).toDate) := by
  obtain ⟨date, wday, hhour, hold⟩ := at_hour events h hasked
  have hle₁ : midnights events asked 1 ≤ midnights events asked 2 := midnights_le asked (by decide)
  have hle₂ : midnights events asked 2 ≤ midnights events asked 3 := midnights_le asked (by decide)
  have hle₃ : midnights events asked 3 ≤ midnights events asked 4 := midnights_le asked (by decide)
  have hsod := hhour.inRange.sod_lt
  rw [hhour.sod] at hsod
  have hstart : (sodAtHour events asked + sinceHour events 0) % 86400 =
      sodAtHour events asked := by
    have hzero : sinceHour events 0 = 0 := rfl
    omega
  rw [← hstart] at hhour
  have hwday := (hhour.iterate_since daysIn_le (events 3).ticks).setWday hasked.wday
  have hday := (hwday.iterate_since daysIn_le (events 4).ticks).setDay hasked.date.day
  have hmonth := (hday.iterate_since daysIn_le (events 5).ticks).setMonth hasked.date.month
  have hyear := (hmonth.iterate_since daysIn_le (events 6).ticks).setYear asked.year
  have hdays : (((asked.wday + (midnights events asked 2 - midnights events asked 1)) % 7 +
      (midnights events asked 3 - midnights events asked 2)) % 7 +
      (midnights events asked 4 - midnights events asked 3)) % 7 =
      (asked.wday + (midnights events asked 4 - midnights events asked 1)) % 7 := by omega
  refine ⟨(Date.next daysIn)^[midnights events asked 2 - midnights events asked 1]
    ((Date.next daysIn)^[midnights events asked 1 - midnights events asked 0] date), ?_, ?_⟩
  · rw [← hdays]
    exact hyear
  · intro hlt hlt' hsame
    have hnone : midnights events asked 2 - midnights events asked 1 = 0 := by omega
    have hnone' : midnights events asked 1 - midnights events asked 0 = 0 := by omega
    rw [hnone, hnone']
    exact hold hlt hlt'

/-! ## Carries -/

/-- The midnights until a write, on a clock set when the seconds were written. -/
def midnightsAsked (events : Nat → Transfer) (asked : Clock) (i : Nat) : Nat :=
  (asked.sod + elapsed events i) / 86400

/-- No carry goes into the minutes, the hour or the date before they are written.  Midnights
before the month is written end the month neither in the calendar of the old clock nor in the
one asked for.  Those before the year is written change the day and the month in the old year
as in the one asked for, which they do not end. -/
structure CarriesKept (events : Nat → Transfer) (old asked : Clock) : Prop where
  minute : asked.second + elapsed events 1 < 60
  hour : asked.minute * 60 + asked.second + elapsed events 2 < 3600
  date : asked.sod + elapsed events 4 < 86400
  month : 0 < midnightsAsked events asked 5 →
    asked.day + midnightsAsked events asked 5 ≤ daysIn old.year old.month ∧
    asked.day + midnightsAsked events asked 5 ≤ daysIn asked.year asked.month
  year :
    let day := asked.day + midnightsAsked events asked 5
    let n := midnightsAsked events asked 6 - midnightsAsked events asked 5
    { (Date.next daysIn)^[n] ⟨old.year, asked.month, day⟩ with year := asked.year } =
      (Date.next daysIn)^[n] ⟨asked.year, asked.month, day⟩

theorem sodAtHour_eq (hminute : asked.second + elapsed events 1 < 60)
    (hhour : asked.minute * 60 + asked.second + elapsed events 2 < 3600) :
    sodAtHour events asked = asked.sod + elapsed events 2 := by
  have helapsed : elapsed events 2 = (events 2).ticks + elapsed events 1 := rfl
  unfold sodAtHour Clock.sod
  omega

theorem midnights_eq (hminute : asked.second + elapsed events 1 < 60)
    (hhour : asked.minute * 60 + asked.second + elapsed events 2 < 3600) (n : Nat) :
    midnights events asked n = midnightsAsked events asked (n + 2) := by
  have hsum : asked.sod + elapsed events 2 + sinceHour events n =
      asked.sod + elapsed events (n + 2) := by
    rw [elapsed_eq n]
    omega
  rw [midnights, midnightsAsked, sodAtHour_eq hminute hhour, hsum]

theorem dateAfter_asked (hminute : asked.second + elapsed events 1 < 60)
    (hhour : asked.minute * 60 + asked.second + elapsed events 2 < 3600) (date : Date) :
    dateAfter events asked date =
      { (Date.next daysIn)^[midnightsAsked events asked 6 - midnightsAsked events asked 5]
          { (Date.next daysIn)^[midnightsAsked events asked 5 - midnightsAsked events asked 4]
              { date with day := asked.day } with
            month := asked.month } with
        year := asked.year } := by
  have hday : midnights events asked 2 = midnightsAsked events asked 4 :=
    midnights_eq hminute hhour 2
  have hmonth : midnights events asked 3 = midnightsAsked events asked 5 :=
    midnights_eq hminute hhour 3
  have hyear : midnights events asked 4 = midnightsAsked events asked 6 :=
    midnights_eq hminute hhour 4
  unfold dateAfter
  dsimp only
  rw [hday, hmonth, hyear]

theorem midnightsAsked_le (asked : Clock) {i j : Nat} (hij : i ≤ j) :
    midnightsAsked events asked i ≤ midnightsAsked events asked j :=
  Nat.div_le_div_right (Nat.add_le_add_left (elapsed_le hij) _)

theorem dateAfter_eq (hkept : CarriesKept events c asked) :
    dateAfter events asked c.toDate =
      (Date.next daysIn)^[midnightsAsked events asked 6] asked.toDate := by
  have hnone : midnightsAsked events asked 4 = 0 := Nat.div_eq_of_lt hkept.date
  have hmono : midnightsAsked events asked 5 ≤ midnightsAsked events asked 6 :=
    midnightsAsked_le asked (by decide)
  have hold : (Date.next daysIn)^[midnightsAsked events asked 5]
      { c.toDate with day := asked.day } =
      ⟨c.year, c.month, asked.day + midnightsAsked events asked 5⟩ :=
    Date.iterate_of_le (fun hpos => (hkept.month hpos).1)
  have hnew : (Date.next daysIn)^[midnightsAsked events asked 5] asked.toDate =
      ⟨asked.year, asked.month, asked.day + midnightsAsked events asked 5⟩ :=
    Date.iterate_of_le (fun hpos => (hkept.month hpos).2)
  rw [dateAfter_asked hkept.minute hkept.hour, hnone, Nat.sub_zero, hold]
  refine hkept.year.trans ?_
  rw [← hnew, ← Function.iterate_add_apply, Nat.sub_add_cancel hmono]

/-- When no carry is lost, the clock shows the requested time as if it had been set at one
blow with the seconds. -/
theorem overwritten_eq_run (h : c.InRange) (hasked : asked.InRange)
    (hkept : CarriesKept events (clockAt events c 0) asked) :
    overwritten events asked c = run (elapsed events 6) asked := by
  obtain ⟨date, hafter, hold⟩ := overwritten_at events h hasked
  have hnone : midnights events asked 2 = 0 :=
    (midnights_eq hkept.minute hkept.hour 2).trans (Nat.div_eq_of_lt hkept.date)
  have hnone' : midnights events asked 1 = 0 := by
    have hle : midnights events asked 1 ≤ midnights events asked 2 := midnights_le asked (by decide)
    omega
  have hlast : midnights events asked 4 = midnightsAsked events asked 6 :=
    midnights_eq hkept.minute hkept.hour 4
  have hsum : sodAtHour events asked + sinceHour events 4 = asked.sod + elapsed events 6 := by
    have hsod := sodAtHour_eq hkept.minute hkept.hour
    have helapsed : elapsed events 6 = elapsed events 2 + sinceHour events 4 := elapsed_eq 4
    omega
  have hrun := (Clock.At.refl hasked).iterate daysIn_le (elapsed events 6)
  rw [hold hkept.minute hkept.hour hnone, dateAfter_eq hkept, hnone', hlast, Nat.sub_zero,
    hsum] at hafter
  exact hafter.unique hrun

theorem next_ne {d : Date} (h : d.InRange) : d.next daysIn ≠ d := by
  intro hsame
  have hlt : d.rank < (d.next daysIn).rank := h.rank_lt_next
  rw [hsame] at hlt
  exact Nat.lt_irrefl _ hlt

theorem day_lt_of_next {d : Date} (hday : 1 ≤ d.day) (hnext : (d.next daysIn).day = d.day + 1) :
    d.day < daysIn d.year d.month := by
  unfold Date.next at hnext
  split at hnext
  · assumption
  · split at hnext
    · dsimp only at hnext
      omega
    · dsimp only at hnext
      omega

/-- A midnight that passes between the writes of the day and of the month ends the month in
neither calendar if the date that was asked for moves on by it. -/
theorem day_lt_of_next_eq {d : Date} (h : d.InRange) {year month : Nat}
    (hnext : ⟨d.year, d.month, ((⟨year, month, d.day⟩ : Date).next daysIn).day⟩ =
      d.next daysIn) :
    d.day + 1 ≤ daysIn year month ∧ d.day + 1 ≤ daysIn d.year d.month := by
  have hyear := congrArg Date.year hnext
  have hmonth := congrArg Date.month hnext
  have hsame := congrArg Date.day hnext
  dsimp only at hyear hmonth hsame
  rcases next_cases h with ⟨-, -, hday⟩ | ⟨-, hup, -⟩ | ⟨hup, -⟩
  · exact ⟨day_lt_of_next (d := ⟨year, month, d.day⟩) h.day.1 (hsame.trans hday),
      day_lt_of_next h.day.1 hday⟩
  · omega
  · omega

/-- In less than a minute the clock shows the right time of day only when neither a minute nor
an hour is lost, and then it is as late as the call is long. -/
theorem carries_of_sod (hasked : asked.InRange) (hshort : elapsed events 6 < 60) {k : Nat}
    (hk : k < 60)
    (hsod : (sodAtHour events asked + sinceHour events 4) % 86400 = (asked.sod + k) % 86400) :
    asked.second + elapsed events 1 < 60 ∧
      asked.minute * 60 + asked.second + elapsed events 2 < 3600 ∧ k = elapsed events 6 := by
  have h12 : elapsed events 2 = (events 2).ticks + elapsed events 1 := rfl
  have h26 : elapsed events 6 = elapsed events 2 + sinceHour events 4 := elapsed_eq 4
  have hminute := hasked.minute
  have hsecond := hasked.second
  have hkeptMinute : asked.second + elapsed events 1 < 60 := by
    refine Nat.lt_of_not_le fun hlost => ?_
    have hslow : sodAtHour events asked + 60 = asked.sod + elapsed events 2 := by
      unfold sodAtHour Clock.sod
      omega
    omega
  have hkeptHour : asked.minute * 60 + asked.second + elapsed events 2 < 3600 := by
    refine Nat.lt_of_not_le fun hlost => ?_
    have hslow : sodAtHour events asked + 3600 = asked.sod + elapsed events 2 := by
      unfold sodAtHour Clock.sod
      omega
    omega
  refine ⟨hkeptMinute, hkeptHour, ?_⟩
  rw [sodAtHour_eq hkeptMinute hkeptHour] at hsod
  omega

theorem midnightsAsked_le_one (hasked : asked.InRange) (hshort : elapsed events 6 < 60) :
    midnightsAsked events asked 6 ≤ 1 := by
  have hsod := hasked.sod_lt
  unfold midnightsAsked
  omega

/-- In less than a minute the clock shows the requested time only when no carry is lost. -/
theorem carriesKept_of_eq_run (h : c.InRange) (hasked : asked.InRange)
    (hshort : elapsed events 6 < 60) {k : Nat} (hk : k < 60)
    (hrun : overwritten events asked c = run k asked) :
    CarriesKept events (clockAt events c 0) asked := by
  obtain ⟨date, hafter, hold⟩ := overwritten_at events h hasked
  have hlater := (Clock.At.refl hasked).iterate daysIn_le k
  obtain ⟨hminute, hhour, rfl⟩ := carries_of_sod hasked hshort hk
    (hafter.sod.symm.trans ((congrArg Clock.sod hrun).trans hlater.sod))
  have hdate : dateAfter events asked date =
      (Date.next daysIn)^[midnightsAsked events asked 6] asked.toDate :=
    hafter.date.symm.trans ((congrArg Clock.toDate hrun).trans hlater.date)
  rw [dateAfter_asked hminute hhour] at hdate
  have hone := midnightsAsked_le_one hasked hshort
  have h45 : midnightsAsked events asked 4 ≤ midnightsAsked events asked 5 :=
    midnightsAsked_le asked (by decide)
  have h56 : midnightsAsked events asked 5 ≤ midnightsAsked events asked 6 :=
    midnightsAsked_le asked (by decide)
  have hnone : midnightsAsked events asked 4 = 0 := by
    by_contra hlost
    have hfour : midnightsAsked events asked 4 = 1 := by omega
    have hfive : midnightsAsked events asked 5 = 1 := by omega
    have hsix : midnightsAsked events asked 6 = 1 := by omega
    rw [hfour, hfive, hsix] at hdate
    exact next_ne hasked.date hdate.symm
  have hold' : date = (clockAt events c 0).toDate :=
    hold hminute hhour ((midnights_eq hminute hhour 2).trans hnone)
  rw [hold', hnone, Nat.sub_zero] at hdate
  refine ⟨hminute, hhour, ?_, fun hpos => ?_, ?_⟩
  · unfold midnightsAsked at hnone
    omega
  · have hfive : midnightsAsked events asked 5 = 1 := by omega
    have hsix : midnightsAsked events asked 6 = 1 := by omega
    rw [hfive, hsix] at hdate
    rw [hfive]
    exact day_lt_of_next_eq hasked.date hdate
  · dsimp only
    by_cases hlast : midnightsAsked events asked 6 = midnightsAsked events asked 5
    · rw [hlast, Nat.sub_self]
      rfl
    · have hfive : midnightsAsked events asked 5 = 0 := by omega
      have hsix : midnightsAsked events asked 6 = 1 := by omega
      rw [hfive, hsix] at hdate
      rw [hfive, hsix]
      exact hdate

/-! ## All or error -/

/-- From the beginning of the call to the last write. -/
def callTicks (events : Nat → Transfer) : Nat := (events 0).ticks + elapsed events 6

/-- A call that returns 0 wrote every register, and the clock shows the requested time or one
that is later by no more than the call took; any other call returns the error of a write. -/
def SetKept (events : Nat → Transfer) (c : Clock) (tm : RtcTime) : Prop :=
  ((rv3028SetTime events tm ⟨c, 0⟩).1 = 0 → Succeeds events 7 ∧
    ∃ k ≤ callTicks events, (rv3028SetTime events tm ⟨c, 0⟩).2.clock = run k tm.toClock) ∧
  ((rv3028SetTime events tm ⟨c, 0⟩).1 ≠ 0 → ∃ i < 7,
    (events i).fault.map errorCode = some (rv3028SetTime events tm ⟨c, 0⟩).1)

theorem setKept_iff_succeeds (hvalid : Valid tm) :
    SetKept events c tm ↔ Succeeds events 7 ∧
      ∃ k ≤ callTicks events, overwritten events tm.toClock c = run k tm.toClock := by
  have hret : (rv3028SetTime events tm ⟨c, 0⟩).1 = 0 := congrArg Prod.fst (setTime_eq events tm c)
  constructor
  · intro hkept
    obtain ⟨hgood, k, hk, hshown⟩ := hkept.1 hret
    exact ⟨hgood, k, hk, (setTime_good hvalid hgood).symm.trans hshown⟩
  · rintro ⟨hgood, k, hk, hshown⟩
    exact ⟨fun _ => ⟨hgood, k, hk, (setTime_good hvalid hgood).trans hshown⟩,
      fun hne => absurd hret hne⟩

/-- Setting the clock is all or error only if every write succeeds, and then whenever no carry
is lost; in a call shorter than a minute, only then. -/
theorem setKept_iff (hvalid : Valid tm) (h : c.InRange) :
    (SetKept events c tm → Succeeds events 7) ∧
    (Succeeds events 7 ∧ CarriesKept events (clockAt events c 0) tm.toClock →
      SetKept events c tm) ∧
    (callTicks events < 60 →
      (SetKept events c tm ↔
        Succeeds events 7 ∧ CarriesKept events (clockAt events c 0) tm.toClock)) := by
  have hasked := hvalid.inRange.1
  have hgoes : Succeeds events 7 ∧ CarriesKept events (clockAt events c 0) tm.toClock →
      SetKept events c tm := by
    rintro ⟨hgood, hcarries⟩
    exact (setKept_iff_succeeds hvalid).mpr ⟨hgood, elapsed events 6, Nat.le_add_left _ _,
      overwritten_eq_run h hasked hcarries⟩
  refine ⟨fun hkept => ((setKept_iff_succeeds hvalid).mp hkept).1, hgoes, fun hshort => ?_⟩
  refine ⟨fun hkept => ?_, hgoes⟩
  obtain ⟨hgood, k, hk, hshown⟩ := (setKept_iff_succeeds hvalid).mp hkept
  exact ⟨hgood, carriesKept_of_eq_run h hasked
    (Nat.lt_of_le_of_lt (Nat.le_add_left _ _) hshort) (Nat.lt_of_le_of_lt hk hshort) hshown⟩

/-- Noon of the first day of 2026, on a clock that has been off. -/
theorem setKept_iff_noon :
    let events : Nat → Transfer := fun _ => ⟨1, none⟩
    let c : Clock := ⟨⟨0, 1, 1⟩, 0, 0, 0, 0⟩
    let tm : RtcTime := ⟨0, 0, 12, 4, 1, 0, 126⟩
    (SetKept events c tm → Succeeds events 7) ∧
    (Succeeds events 7 ∧ CarriesKept events (clockAt events c 0) tm.toClock →
      SetKept events c tm) ∧
    (callTicks events < 60 →
      (SetKept events c tm ↔
        Succeeds events 7 ∧ CarriesKept events (clockAt events c 0) tm.toClock)) :=
  setKept_iff
    ⟨by decide, by decide, by decide, by decide, by decide, by decide, by decide⟩
    ⟨⟨by decide, by decide⟩, by decide, by decide, by decide, by decide⟩

/-- The write of the hour fails, and the function returns 0.  The minute begins between the
writes of the seconds and of the minutes, and the clock is a minute slow. -/
theorem not_setKept_failedWrite_lostCarry :
    ¬ SetKept (fun i => ⟨0, if i = 2 then some 4 else none⟩) ⟨⟨0, 1, 1⟩, 0, 0, 0, 0⟩
      ⟨0, 0, 12, 4, 1, 0, 126⟩ ∧
    ¬ SetKept (fun i => ⟨if i = 1 then 1 else 0, none⟩) ⟨⟨0, 1, 1⟩, 0, 0, 0, 0⟩
      ⟨59, 0, 12, 4, 1, 0, 126⟩ := by
  constructor
  · intro hkept
    have hgood := (hkept.1 rfl).1 2 (by decide)
    cases hgood
  · intro hkept
    obtain ⟨-, k, hk, hshown⟩ := hkept.1 rfl
    have hle : k ≤ 1 := hk
    interval_cases k
    · exact absurd hshown (by decide)
    · exact absurd hshown (by decide)

end RadsatLinux.Rtc.SetTime
