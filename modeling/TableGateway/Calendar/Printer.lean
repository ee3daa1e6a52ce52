import TableGateway.Calendar.Date

/-!
# Writing dates and times

ISO 8601, with the fewest of 0, 3, 6 or 9 fraction digits that are exact. Years outside `0` to
`9999` carry a sign. Section 10.3 of the specification.
-/
namespace TableGateway.Calendar

open Number (natText padded)

/-- A year, in at least four digits. -/
def yearText (year : Int) : List Char :=
  if 0 ≤ year && year ≤ 9999 then padded 4 year.toNat
  else (if year < 0 then '-' else '+') :: padded 4 year.natAbs

/-- The digits after the point of a number of nanoseconds, with the point. -/
def fractionText (nano : Nat) : List Char :=
  if nano = 0 then []
  else if nano % 1000000 = 0 then '.' :: padded 3 (nano / 1000000)
  else if nano % 1000 = 0 then '.' :: padded 6 (nano / 1000)
  else '.' :: padded 9 nano

def Date.chars (d : Date) : List Char :=
  yearText d.year ++ '-' :: padded 2 d.month ++ '-' :: padded 2 d.day

/-- The second that is written. A leap second is written as the one after the second it belongs to. -/
def Clock.shownSecond (t : Clock) : Nat := t.second + t.nano / 1000000000

def Clock.shownNano (t : Clock) : Nat := t.nano % 1000000000

/-- `hour:minute:second` with the fraction. -/
def Clock.chars (t : Clock) : List Char :=
  padded 2 t.hour ++ ':' :: padded 2 t.minute ++ ':' :: padded 2 t.shownSecond ++
    fractionText t.shownNano

/-- The date and the time with a `T` between them. -/
def Timestamp.chars (t : Timestamp) : List Char := t.date.chars ++ 'T' :: t.time.chars

/-- A point in time of the prime meridian. -/
def Timestamp.zonedChars (t : Timestamp) : List Char := t.chars ++ "+00:00".toList

end TableGateway.Calendar
