import Mathlib.Logic.Function.Iterate
import Mathlib.Order.Monotone.Basic

/-!
# Clocks with carries

A date, a day of the week and a time of day that advance together, second by second.  How
long the months are is a parameter.  `rank` puts clocks in order, year first, and `sod` and
`Date.next` say where a clock is after any number of seconds.
-/

namespace RadsatLinux.Library.Calendar

structure Date where
  year : Nat
  month : Nat
  day : Nat
  deriving DecidableEq

structure Clock extends Date where
  wday : Nat
  hour : Nat
  minute : Nat
  second : Nat
  deriving DecidableEq

variable (daysIn : Nat → Nat → Nat)

def Date.next (d : Date) : Date :=
  if d.day < daysIn d.year d.month then { d with day := d.day + 1 }
  else if d.month < 12 then ⟨d.year, d.month + 1, 1⟩
  else ⟨d.year + 1, 1, 1⟩

/-- One second later. -/
def Clock.tick (c : Clock) : Clock :=
  if c.second < 59 then { c with second := c.second + 1 }
  else if c.minute < 59 then { c with minute := c.minute + 1, second := 0 }
  else if c.hour < 23 then { c with hour := c.hour + 1, minute := 0, second := 0 }
  else ⟨c.toDate.next daysIn, (c.wday + 1) % 7, 0, 0, 0⟩

/-! ## Ranges -/

/-- A month of the year, and a day of some month. -/
structure Date.InRange (d : Date) : Prop where
  month : 1 ≤ d.month ∧ d.month ≤ 12
  day : 1 ≤ d.day ∧ d.day ≤ 31

structure Clock.InRange (c : Clock) : Prop where
  date : c.toDate.InRange
  wday : c.wday < 7
  hour : c.hour < 24
  minute : c.minute < 60
  second : c.second < 60

variable {daysIn}

theorem Date.InRange.next {d : Date} (h : d.InRange) (hdays : ∀ y m, daysIn y m ≤ 31) :
    (d.next daysIn).InRange := by
  have hmonth := h.month
  have hday := h.day
  have hle := hdays d.year d.month
  unfold Date.next
  split
  · exact ⟨hmonth, by dsimp only; omega⟩
  · split
    · exact ⟨by dsimp only; omega, by dsimp only; omega⟩
    · exact ⟨by dsimp only; omega, by dsimp only; omega⟩

theorem Clock.InRange.tick {c : Clock} (h : c.InRange) (hdays : ∀ y m, daysIn y m ≤ 31) :
    (c.tick daysIn).InRange := by
  have hwday := h.wday
  have hhour := h.hour
  have hminute := h.minute
  unfold Clock.tick
  split
  · exact ⟨h.date, hwday, hhour, hminute, by dsimp only; omega⟩
  · split
    · exact ⟨h.date, hwday, hhour, by dsimp only; omega, Nat.zero_lt_succ 59⟩
    · split
      · exact ⟨h.date, hwday, by dsimp only; omega, Nat.zero_lt_succ 59, Nat.zero_lt_succ 59⟩
      · exact ⟨h.date.next hdays, Nat.mod_lt _ (Nat.zero_lt_succ 6), Nat.zero_lt_succ 23,
          Nat.zero_lt_succ 59, Nat.zero_lt_succ 59⟩

theorem Clock.InRange.iterate {c : Clock} (h : c.InRange) (hdays : ∀ y m, daysIn y m ≤ 31)
    (n : Nat) : ((Clock.tick daysIn)^[n] c).InRange := by
  induction n with
  | zero => exact h
  | succ n ih =>
      rw [Function.iterate_succ_apply']
      exact ih.tick hdays

/-! ## Order -/

def Date.rank (d : Date) : Nat := (d.year * 13 + d.month) * 32 + d.day

/-- The second of the day. -/
def Clock.sod (c : Clock) : Nat := (c.hour * 60 + c.minute) * 60 + c.second

def Clock.rank (c : Clock) : Nat := c.toDate.rank * 86400 + c.sod

theorem Clock.InRange.sod_lt {c : Clock} (h : c.InRange) : c.sod < 86400 := by
  have hhour := h.hour
  have hminute := h.minute
  have hsecond := h.second
  unfold Clock.sod
  omega

theorem Date.InRange.rank_lt_next {d : Date} (h : d.InRange) :
    d.rank < (d.next daysIn).rank := by
  have hmonth := h.month
  have hday := h.day
  unfold Date.next Date.rank
  split
  · dsimp only
    omega
  · split
    · dsimp only
      omega
    · dsimp only
      omega

/-- Within a day only the time of day changes. -/
theorem Clock.InRange.tick_within {c : Clock} (h : c.InRange) (hlt : c.sod + 1 < 86400) :
    (c.tick daysIn).toDate = c.toDate ∧ (c.tick daysIn).wday = c.wday ∧
      (c.tick daysIn).sod = c.sod + 1 := by
  have hhour := h.hour
  have hminute := h.minute
  have hsecond := h.second
  unfold Clock.sod at hlt
  unfold Clock.tick
  split
  · exact ⟨rfl, rfl, rfl⟩
  · split
    · refine ⟨rfl, rfl, ?_⟩
      dsimp only [Clock.sod]
      omega
    · split
      · refine ⟨rfl, rfl, ?_⟩
        dsimp only [Clock.sod]
        omega
      · omega

theorem Clock.InRange.tick_midnight {c : Clock} (h : c.InRange) (hlast : c.sod + 1 = 86400) :
    c.tick daysIn = ⟨c.toDate.next daysIn, (c.wday + 1) % 7, 0, 0, 0⟩ := by
  have hhour := h.hour
  have hminute := h.minute
  have hsecond := h.second
  unfold Clock.sod at hlast
  unfold Clock.tick
  rw [if_neg (by omega), if_neg (by omega), if_neg (by omega)]

theorem Clock.InRange.rank_lt_tick {c : Clock} (h : c.InRange) :
    c.rank < (c.tick daysIn).rank := by
  have hsod := h.sod_lt
  by_cases hlt : c.sod + 1 < 86400
  · obtain ⟨hdate, -, hnext⟩ : (c.tick daysIn).toDate = c.toDate ∧
        (c.tick daysIn).wday = c.wday ∧ (c.tick daysIn).sod = c.sod + 1 := h.tick_within hlt
    rw [Clock.rank, Clock.rank, hdate, hnext]
    omega
  · have hdate : c.toDate.rank < (c.toDate.next daysIn).rank := h.date.rank_lt_next
    rw [h.tick_midnight (by omega)]
    unfold Clock.rank
    dsimp only [Clock.sod] at hsod ⊢
    omega

theorem Clock.InRange.rank_le_iterate {c : Clock} (h : c.InRange)
    (hdays : ∀ y m, daysIn y m ≤ 31) (n : Nat) : c.rank ≤ ((Clock.tick daysIn)^[n] c).rank := by
  induction n with
  | zero => exact Nat.le_refl _
  | succ n ih =>
      rw [Function.iterate_succ_apply']
      exact Nat.le_trans ih (Nat.le_of_lt (h.iterate hdays n).rank_lt_tick)

/-! ## Within a minute -/

theorem Clock.iterate_of_second_lt {c : Clock} {n : Nat} (hlt : c.second + n < 60) :
    (Clock.tick daysIn)^[n] c = { c with second := c.second + n } := by
  induction n with
  | zero => rfl
  | succ n ih =>
      have hstep : c.second + n < 59 := by omega
      rw [Function.iterate_succ_apply', ih (by omega)]
      exact if_pos hstep

/-- The first second of the next minute. -/
def Clock.nextMinute (daysIn : Nat → Nat → Nat) (c : Clock) : Clock :=
  Clock.tick daysIn { c with second := 59 }

/-- In less than a minute there is at most one carry out of the seconds. -/
theorem Clock.InRange.iterate_of_carry {c : Clock} (h : c.InRange) {n : Nat} (hn : n < 60)
    (hcarry : 60 ≤ c.second + n) :
    (Clock.tick daysIn)^[n] c = { c.nextMinute daysIn with second := c.second + n - 60 } := by
  have hsecond := h.second
  obtain ⟨after, rfl⟩ : ∃ after, n = (after + 1) + (59 - c.second) :=
    ⟨c.second + n - 60, by omega⟩
  have hfirst : (c.nextMinute daysIn).second = 0 := by
    unfold Clock.nextMinute Clock.tick
    dsimp only
    split
    · omega
    · split
      · rfl
      · split <;> rfl
  have hlast : (Clock.tick daysIn)^[59 - c.second] c = { c with second := 59 } := by
    have hfill : c.second + (59 - c.second) = 59 := by omega
    rw [Clock.iterate_of_second_lt (by omega), hfill]
  have hleft : c.second + (after + 1 + (59 - c.second)) - 60 = after := by omega
  rw [Function.iterate_add_apply, hlast, Function.iterate_succ_apply, hleft]
  change (Clock.tick daysIn)^[after] (c.nextMinute daysIn) = _
  rw [Clock.iterate_of_second_lt (by omega), hfirst, Nat.zero_add]

/-! ## After any number of seconds -/

/-- Where a clock is after `n` seconds: the days that have begun, and the time of day. -/
theorem Clock.InRange.iterate_eq {c : Clock} (h : c.InRange) (hdays : ∀ y m, daysIn y m ≤ 31)
    (n : Nat) :
    ((Clock.tick daysIn)^[n] c).toDate = (Date.next daysIn)^[(c.sod + n) / 86400] c.toDate ∧
    ((Clock.tick daysIn)^[n] c).wday = (c.wday + (c.sod + n) / 86400) % 7 ∧
    ((Clock.tick daysIn)^[n] c).sod = (c.sod + n) % 86400 := by
  induction n with
  | zero =>
      have hsod := h.sod_lt
      have hdiv : (c.sod + 0) / 86400 = 0 := by omega
      rw [hdiv]
      exact ⟨rfl, (Nat.mod_eq_of_lt h.wday).symm, (Nat.mod_eq_of_lt hsod).symm⟩
  | succ n ih =>
      obtain ⟨hdate, hwday, hsod⟩ := ih
      have hrange := h.iterate hdays n
      rw [Function.iterate_succ_apply']
      generalize (Clock.tick daysIn)^[n] c = c' at hdate hwday hsod hrange ⊢
      by_cases hlt : c'.sod + 1 < 86400
      · obtain ⟨hdate', hwday', hsod'⟩ : (c'.tick daysIn).toDate = c'.toDate ∧
            (c'.tick daysIn).wday = c'.wday ∧ (c'.tick daysIn).sod = c'.sod + 1 :=
          hrange.tick_within hlt
        have hdiv : (c.sod + (n + 1)) / 86400 = (c.sod + n) / 86400 := by omega
        rw [hdate', hwday', hsod', hdiv]
        exact ⟨hdate, hwday, by omega⟩
      · have hlast : c'.sod + 1 = 86400 := by
          have hle := hrange.sod_lt
          omega
        have hdiv : (c.sod + (n + 1)) / 86400 = (c.sod + n) / 86400 + 1 := by omega
        rw [hrange.tick_midnight hlast, hdiv, Function.iterate_succ_apply', ← hdate]
        refine ⟨rfl, ?_, ?_⟩
        · dsimp only
          omega
        · have hzero : Clock.sod ⟨c'.toDate.next daysIn, (c'.wday + 1) % 7, 0, 0, 0⟩ = 0 := rfl
          rw [hzero]
          omega

/-! ## Setting a running clock -/

/-- A clock by its date, its day of the week and its second of the day. -/
structure Clock.At (date : Date) (wday sod : Nat) (c : Clock) : Prop where
  inRange : c.InRange
  date : c.toDate = date
  wday : c.wday = wday
  sod : c.sod = sod

namespace Clock.At

variable {date : Date} {wday sod : Nat} {c c' : Clock}

theorem refl (h : c.InRange) : Clock.At c.toDate c.wday c.sod c := ⟨h, rfl, rfl, rfl⟩

theorem unique (h : Clock.At date wday sod c) (h' : Clock.At date wday sod c') : c = c' := by
  have hdate := h.date.trans h'.date.symm
  have hwday := h.wday.trans h'.wday.symm
  have hsod := h.sod.trans h'.sod.symm
  have hminute := h.inRange.minute
  have hsecond := h.inRange.second
  have hminute' := h'.inRange.minute
  have hsecond' := h'.inRange.second
  obtain ⟨d, w, hour, minute, second⟩ := c
  obtain ⟨d', w', hour', minute', second'⟩ := c'
  unfold Clock.sod at hsod
  dsimp only at *
  obtain ⟨rfl, rfl, rfl⟩ : hour = hour' ∧ minute = minute' ∧ second = second' := by omega
  rw [hdate, hwday]

theorem iterate (h : Clock.At date wday sod c) (hdays : ∀ y m, daysIn y m ≤ 31) (n : Nat) :
    Clock.At ((Date.next daysIn)^[(sod + n) / 86400] date) ((wday + (sod + n) / 86400) % 7)
      ((sod + n) % 86400) ((Clock.tick daysIn)^[n] c) := by
  obtain ⟨hdate, hwday, hsod⟩ := h.inRange.iterate_eq hdays n
  rw [h.sod, h.date] at hdate
  rw [h.sod, h.wday] at hwday
  rw [h.sod] at hsod
  exact ⟨h.inRange.iterate hdays n, hdate, hwday, hsod⟩

/-- The same, counted from when the clock was set to `sod`. -/
theorem iterate_since {since : Nat} (h : Clock.At date wday ((sod + since) % 86400) c)
    (hdays : ∀ y m, daysIn y m ≤ 31) (n : Nat) :
    Clock.At ((Date.next daysIn)^[(sod + (since + n)) / 86400 - (sod + since) / 86400] date)
      ((wday + ((sod + (since + n)) / 86400 - (sod + since) / 86400)) % 7)
      ((sod + (since + n)) % 86400) ((Clock.tick daysIn)^[n] c) := by
  have hdiv : ((sod + since) % 86400 + n) / 86400 =
      (sod + (since + n)) / 86400 - (sod + since) / 86400 := by omega
  have hmod : ((sod + since) % 86400 + n) % 86400 = (sod + (since + n)) % 86400 := by omega
  have hlater := h.iterate hdays n
  rwa [hdiv, hmod] at hlater

theorem setSecond (h : Clock.At date wday sod c) {second : Nat} (hlt : second < 60) :
    Clock.At date wday (sod / 60 * 60 + second) { c with second := second } := by
  refine ⟨⟨h.inRange.date, h.inRange.wday, h.inRange.hour, h.inRange.minute, hlt⟩, h.date,
    h.wday, ?_⟩
  have hsecond := h.inRange.second
  rw [← h.sod]
  unfold Clock.sod
  dsimp only
  omega

theorem setMinute (h : Clock.At date wday sod c) {minute : Nat} (hlt : minute < 60) :
    Clock.At date wday (sod / 3600 * 3600 + (minute * 60 + sod % 60))
      { c with minute := minute } := by
  refine ⟨⟨h.inRange.date, h.inRange.wday, h.inRange.hour, hlt, h.inRange.second⟩, h.date,
    h.wday, ?_⟩
  have hminute := h.inRange.minute
  have hsecond := h.inRange.second
  rw [← h.sod]
  unfold Clock.sod
  dsimp only
  omega

theorem setHour (h : Clock.At date wday sod c) {hour : Nat} (hlt : hour < 24) :
    Clock.At date wday (hour * 3600 + sod % 3600) { c with hour := hour } := by
  refine ⟨⟨h.inRange.date, h.inRange.wday, hlt, h.inRange.minute, h.inRange.second⟩, h.date,
    h.wday, ?_⟩
  have hminute := h.inRange.minute
  have hsecond := h.inRange.second
  rw [← h.sod]
  unfold Clock.sod
  dsimp only
  omega

theorem setWday (h : Clock.At date wday sod c) {wday' : Nat} (hlt : wday' < 7) :
    Clock.At date wday' sod { c with wday := wday' } :=
  ⟨⟨h.inRange.date, hlt, h.inRange.hour, h.inRange.minute, h.inRange.second⟩, h.date, rfl, h.sod⟩

theorem setDay (h : Clock.At date wday sod c) {day : Nat} (hday : 1 ≤ day ∧ day ≤ 31) :
    Clock.At { date with day := day } wday sod { c with day := day } :=
  ⟨⟨⟨h.inRange.date.month, hday⟩, h.inRange.wday, h.inRange.hour, h.inRange.minute,
    h.inRange.second⟩, congrArg (fun d : Date => { d with day := day }) h.date, h.wday, h.sod⟩

theorem setMonth (h : Clock.At date wday sod c) {month : Nat} (hmonth : 1 ≤ month ∧ month ≤ 12) :
    Clock.At { date with month := month } wday sod { c with month := month } :=
  ⟨⟨⟨hmonth, h.inRange.date.day⟩, h.inRange.wday, h.inRange.hour, h.inRange.minute,
    h.inRange.second⟩, congrArg (fun d : Date => { d with month := month }) h.date, h.wday, h.sod⟩

theorem setYear (h : Clock.At date wday sod c) (year : Nat) :
    Clock.At { date with year := year } wday sod { c with year := year } :=
  ⟨⟨⟨h.inRange.date.month, h.inRange.date.day⟩, h.inRange.wday, h.inRange.hour,
    h.inRange.minute, h.inRange.second⟩, congrArg (fun d : Date => { d with year := year }) h.date,
    h.wday, h.sod⟩

end Clock.At

theorem Date.iterate_of_le {d : Date} {n : Nat} (hle : 0 < n → d.day + n ≤ daysIn d.year d.month) :
    (Date.next daysIn)^[n] d = { d with day := d.day + n } := by
  induction n with
  | zero => rfl
  | succ n ih =>
      have hlast := hle (Nat.zero_lt_succ n)
      have hstep : d.day + n < daysIn d.year d.month := by omega
      rw [Function.iterate_succ_apply', ih (fun _ => by omega)]
      exact if_pos hstep

end RadsatLinux.Library.Calendar
