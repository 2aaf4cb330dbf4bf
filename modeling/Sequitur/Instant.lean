/-
Points in time, as UTC calendar date and time of day down to the nanosecond.

Dates follow the Gregorian calendar extended to all years from -262143 to 262142. A minute may have a second numbered 60:
a leap second is kept as it was given, whatever the minute. `minus?` goes from a local time to UTC, and `ofUnix?` from
seconds since 1970.
-/
namespace Sequitur

/-- a year with a 29th of February -/
def isLeapYear (y : Int) : Bool := (y % 4 == 0 && y % 100 != 0) || y % 400 == 0

def daysInMonth (y : Int) (m : Nat) : Nat :=
  if m = 2 then (if isLeapYear y then 29 else 28)
  else if m = 4 ∨ m = 6 ∨ m = 9 ∨ m = 11 then 30
  else 31

structure Date where
  year : Int
  month : Nat
  day : Nat
  year_ge : -262143 ≤ year
  year_le : year ≤ 262142
  month_pos : 1 ≤ month
  month_le : month ≤ 12
  day_pos : 1 ≤ day
  day_le : day ≤ daysInMonth year month
  deriving DecidableEq

namespace Date

/-- the date with these numbers, if there is one -/
def of? (y : Int) (m d : Nat) : Option Date :=
  if h : -262143 ≤ y ∧ y ≤ 262142 ∧ 1 ≤ m ∧ m ≤ 12 ∧ 1 ≤ d ∧ d ≤ daysInMonth y m then
    some ⟨y, m, d, h.1, h.2.1, h.2.2.1, h.2.2.2.1, h.2.2.2.2.1, h.2.2.2.2.2⟩
  else none

def next? (t : Date) : Option Date :=
  if t.day < daysInMonth t.year t.month then of? t.year t.month (t.day + 1)
  else if t.month < 12 then of? t.year (t.month + 1) 1
  else of? (t.year + 1) 1 1

def prev? (t : Date) : Option Date :=
  if 1 < t.day then of? t.year t.month (t.day - 1)
  else if 1 < t.month then of? t.year (t.month - 1) (daysInMonth t.year (t.month - 1))
  else of? (t.year - 1) 12 31

/-- the date so many days after 1970-01-01; years are counted from March, in cycles of 400 -/
def ofDays? (days : Int) : Option Date :=
  let shifted := days + 719468
  let cycle := shifted / 146097
  let dayOfCycle := (shifted % 146097).toNat
  let yearOfCycle := (dayOfCycle - dayOfCycle / 1460 + dayOfCycle / 36524 - dayOfCycle / 146096) / 365
  let dayOfYear := dayOfCycle - (365 * yearOfCycle + yearOfCycle / 4 - yearOfCycle / 100)
  let monthFromMarch := (5 * dayOfYear + 2) / 153
  let day := dayOfYear - (153 * monthFromMarch + 2) / 5 + 1
  let year : Int := yearOfCycle + cycle * 400
  if monthFromMarch < 10 then of? year (monthFromMarch + 3) day else of? (year + 1) (monthFromMarch - 9) day

theorem of?_self (t : Date) : of? t.year t.month t.day = some t :=
  dif_pos ⟨t.year_ge, t.year_le, t.month_pos, t.month_le, t.day_pos, t.day_le⟩

end Date

structure Instant where
  date : Date
  hour : Nat
  minute : Nat
  /-- 60 is a leap second -/
  second : Nat
  nano : Nat
  hour_lt : hour < 24
  minute_lt : minute < 60
  second_le : second ≤ 60
  nano_lt : nano < 1000000000
  deriving DecidableEq

namespace Instant

/-- the instant with these numbers, if there is one -/
def of? (date : Date) (h m s n : Nat) : Option Instant :=
  if ok : h < 24 ∧ m < 60 ∧ s ≤ 60 ∧ n < 1000000000 then
    some ⟨date, h, m, s, n, ok.1, ok.2.1, ok.2.2.1, ok.2.2.2⟩
  else none

/-- 1970-01-01 00:00:00 -/
def epoch : Instant :=
  ⟨⟨1970, 1, 1, by decide, by decide, by decide, by decide, by decide, by decide⟩, 0, 0, 0, 0,
    by decide, by decide, by decide, by decide⟩

/-- the instant so many minutes earlier, for less than a day in either direction -/
def minus? (t : Instant) (minutes : Int) : Option Instant :=
  let localMinute : Int := t.hour * 60 + t.minute - minutes
  let at? (date : Date) (minuteOfDay : Nat) : Option Instant :=
    of? date (minuteOfDay / 60) (minuteOfDay % 60) t.second t.nano
  if localMinute < 0 then t.date.prev?.bind fun d => at? d (localMinute + 1440).toNat
  else if 1440 ≤ localMinute then t.date.next?.bind fun d => at? d (localMinute - 1440).toNat
  else at? t.date localMinute.toNat

/-- the instant so many seconds after the epoch; nanoseconds from a whole second on belong to a leap second, which only
the last second of a minute can have after it -/
def ofUnix? (seconds : Int) (nanos : Nat) : Option Instant :=
  let ofDay := (seconds % 86400).toNat
  (Date.ofDays? (seconds / 86400)).bind fun date =>
    if nanos < 1000000000 then of? date (ofDay / 3600) (ofDay / 60 % 60) (ofDay % 60) nanos
    else if ofDay % 60 = 59 then of? date (ofDay / 3600) (ofDay / 60 % 60) 60 (nanos - 1000000000)
    else none

theorem of?_self (t : Instant) : of? t.date t.hour t.minute t.second t.nano = some t :=
  dif_pos ⟨t.hour_lt, t.minute_lt, t.second_le, t.nano_lt⟩

end Instant

end Sequitur
