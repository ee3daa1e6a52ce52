import TableGateway.Number.Integer

/-!
# Dates and times

Days of the proleptic Gregorian calendar, times of day to the nanosecond with leap seconds, and
points in time that are a date with a time.
-/
namespace TableGateway.Calendar

/-- Every fourth year is a leap year, except for full centuries not divisible by 400. -/
def isLeapYear (year : Int) : Bool := year % 4 = 0 && (year % 100 ≠ 0 || year % 400 = 0)

def daysInMonth (year : Int) (month : Nat) : Nat :=
  if month = 2 then if isLeapYear year then 29 else 28
  else if month = 4 || month = 6 || month = 9 || month = 11 then 30
  else 31

def minYear : Int := -262143

def maxYear : Int := 262142

def isDate (year : Int) (month day : Nat) : Bool :=
  minYear ≤ year && year ≤ maxYear && 1 ≤ month && month ≤ 12 && 1 ≤ day &&
    day ≤ daysInMonth year month

structure Date where
  year : Int
  month : Nat
  day : Nat
  valid : isDate year month day = true := by decide
  deriving DecidableEq, Repr

def Date.of? (year : Int) (month day : Nat) : Option Date :=
  if h : isDate year month day = true then some ⟨year, month, day, h⟩ else none

def Date.next? (d : Date) : Option Date :=
  if d.day < daysInMonth d.year d.month then Date.of? d.year d.month (d.day + 1)
  else if d.month < 12 then Date.of? d.year (d.month + 1) 1
  else Date.of? (d.year + 1) 1 1

def Date.previous? (d : Date) : Option Date :=
  if 1 < d.day then Date.of? d.year d.month (d.day - 1)
  else if 1 < d.month then Date.of? d.year (d.month - 1) (daysInMonth d.year (d.month - 1))
  else Date.of? (d.year - 1) 12 31

def isClock (hour minute second nano : Nat) : Bool :=
  hour ≤ 23 && minute ≤ 59 && second ≤ 59 && nano < 2000000000

/-- A time of day. A leap second may come after any second, and counts as a second billion of its
nanoseconds. -/
structure Clock where
  hour : Nat
  minute : Nat
  second : Nat
  nano : Nat
  valid : isClock hour minute second nano = true := by decide
  deriving DecidableEq, Repr

/-- The time that the numbers of a text name, if there is one. A sixtieth second is the leap second at
the end of its minute. -/
def Clock.of? (hour minute second nano : Nat) : Option Clock :=
  let leap := if second = 60 then 1 else 0
  if h : nano < 1000000000 ∧
      isClock hour minute (second - leap) (nano + leap * 1000000000) = true then
    some ⟨hour, minute, second - leap, nano + leap * 1000000000, h.2⟩
  else none

def Clock.midnight : Clock := ⟨0, 0, 0, 0, rfl⟩

/-- The same second in the given minute of the day. -/
def Clock.inMinute (t : Clock) (minute : Fin 1440) : Clock where
  hour := minute / 60
  minute := minute % 60
  second := t.second
  nano := t.nano
  valid := by
    have valid := t.valid
    simp [isClock] at valid ⊢
    omega

/-- A date with a time. -/
structure Timestamp where
  date : Date
  time : Clock
  deriving DecidableEq, Repr

/-- The point in time `minutes` earlier, for less than a day; a second stays what it is. -/
def Timestamp.minusMinutes? (t : Timestamp) (minutes : Int) : Option Timestamp :=
  let total : Int := (t.time.hour * 60 + t.time.minute : Nat) - minutes
  let date? :=
    if total < 0 then t.date.previous?
    else if 1440 ≤ total then t.date.next?
    else some t.date
  date?.map fun date => ⟨date, t.time.inMinute ⟨(total % 1440).toNat, by omega⟩⟩

end TableGateway.Calendar
