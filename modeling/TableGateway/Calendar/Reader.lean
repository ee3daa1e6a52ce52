import TableGateway.Calendar.Date
import TableGateway.Text.Blank

/-!
# Reading dates and times

A lenient reading of dates and times, where every number may have white space before it and fewer
digits than usual, and the strict one of RFC 3339 for times with an offset.

A pattern is a list of `Piece`s; reading it collects the numbers into `Numbers`.
Section 4.5 of the specification.

In the service, a point in time is read leniently by `parse_naive_datetime`.
-/
namespace TableGateway.Calendar

open Number (isDigit ofDigits)
open Text (trimStart)

/-- A unit that a pattern reads. -/
inductive Piece where
  /-- A year: up to four digits, or any number of digits after a sign. -/
  | year
  /-- One or two digits, kept under the given place. -/
  | month | day | hour | minute | second
  /-- A point and the digits of a fraction of a second, or nothing. -/
  | fraction
  /-- Any white space, also none. -/
  | blank
  /-- The character itself. -/
  | literal (c : Char)
  deriving DecidableEq, Repr

structure Numbers where
  year : Int := 0
  month : Nat := 1
  day : Nat := 1
  hour : Nat := 0
  minute : Nat := 0
  second : Nat := 0
  nano : Nat := 0
  deriving DecidableEq, Repr

def digitsUpTo (most : Nat) (cs : List Char) : Option (Nat × List Char) :=
  let ds := (cs.take most).takeWhile isDigit
  if ds.isEmpty then none else some (ofDigits ds, cs.drop ds.length)

/-- A year with any number of digits after a sign, or up to four without. -/
def readYear (cs : List Char) : Option (Int × List Char) :=
  match cs with
  | '-' :: rest => (digitsUpTo rest.length rest).map fun (n, rest) => (-(n : Int), rest)
  | '+' :: rest => (digitsUpTo rest.length rest).map fun (n, rest) => ((n : Int), rest)
  | _ => (digitsUpTo 4 cs).map fun (n, rest) => ((n : Int), rest)

/-- The nanoseconds that the digits after a point write; those after the ninth are cut. -/
def readFraction (cs : List Char) : Option (Nat × List Char) :=
  (digitsUpTo 9 cs).map fun (n, rest) =>
    (n * Nat.pow 10 (9 - (cs.length - rest.length)), rest.dropWhile isDigit)

def Piece.read (numbers : Numbers) (cs : List Char) : Piece → Option (Numbers × List Char)
  | year => (readYear (trimStart cs)).map fun (n, rest) => ({ numbers with year := n }, rest)
  | month => (digitsUpTo 2 (trimStart cs)).map fun (n, rest) => ({ numbers with month := n }, rest)
  | day => (digitsUpTo 2 (trimStart cs)).map fun (n, rest) => ({ numbers with day := n }, rest)
  | hour => (digitsUpTo 2 (trimStart cs)).map fun (n, rest) => ({ numbers with hour := n }, rest)
  | minute => (digitsUpTo 2 (trimStart cs)).map fun (n, rest) => ({ numbers with minute := n }, rest)
  | second => (digitsUpTo 2 (trimStart cs)).map fun (n, rest) => ({ numbers with second := n }, rest)
  | fraction =>
    match cs with
    | '.' :: rest => (readFraction rest).map fun (n, rest) => ({ numbers with nano := n }, rest)
    | _ => some (numbers, cs)
  | blank => some (numbers, trimStart cs)
  | literal c =>
    match cs with
    | d :: rest => if d = c then some (numbers, rest) else none
    | [] => none

def readPieces : List Piece → Numbers → List Char → Option (Numbers × List Char)
  | [], numbers, cs => some (numbers, cs)
  | p :: ps, numbers, cs =>
    match p.read numbers cs with
    | some (numbers, rest) => readPieces ps numbers rest
    | none => none

/-- The numbers of a text that a pattern describes to its end. -/
def numbers? (pattern : List Piece) (cs : List Char) : Option Numbers :=
  match readPieces pattern {} cs with
  | some (numbers, []) => some numbers
  | _ => none

def Numbers.date? (n : Numbers) : Option Date := Date.of? n.year n.month n.day

def Numbers.clock? (n : Numbers) : Option Clock := Clock.of? n.hour n.minute n.second n.nano

def Numbers.timestamp? (n : Numbers) : Option Timestamp :=
  match n.date?, n.clock? with
  | some date, some time => some ⟨date, time⟩
  | _, _ => none

def datePattern : List Piece := [.year, .literal '-', .month, .literal '-', .day]

def minutePattern : List Piece := [.hour, .literal ':', .minute]

def secondPattern : List Piece := minutePattern ++ [.literal ':', .second, .fraction]

/-- The patterns of a date with a time, in the order in which they are tried. -/
def timestampPatterns : List (List Piece) :=
  [ datePattern ++ .literal 'T' :: secondPattern,
    datePattern ++ .blank :: secondPattern,
    datePattern ++ .literal 'T' :: minutePattern,
    datePattern ++ .blank :: minutePattern ]

/-- A date with a time, or a date alone, which is its midnight. A `Z` at the end is not looked at. -/
def Timestamp.read? (cs : List Char) : Option Timestamp :=
  let cs := if cs.getLast? = some 'Z' then cs.dropLast else cs
  let timed := timestampPatterns.findSome? fun p => (numbers? p cs).bind Numbers.timestamp?
  timed.or (((numbers? datePattern cs).bind Numbers.date?).map fun date => ⟨date, .midnight⟩)

def Clock.read? (cs : List Char) : Option Clock :=
  [secondPattern, minutePattern].findSome? fun p => (numbers? p cs).bind Numbers.clock?

/-! ## RFC 3339 -/

def digitsExactly (count : Nat) (cs : List Char) : Option (Nat × List Char) :=
  let ds := cs.take count
  if ds.length = count && ds.all isDigit then some (ofDigits ds, cs.drop count) else none

/-- Exactly two digits after the character `lead`. -/
def twoAfter (lead : Char) (cs : List Char) : Option (Nat × List Char) :=
  match cs with
  | c :: rest => if c = lead then digitsExactly 2 rest else none
  | [] => none

/-- The offset from the prime meridian in minutes: `Z`, or hours and minutes after a sign. -/
def readOffset (cs : List Char) : Option Int :=
  match cs with
  | ['Z'] | ['z'] => some 0
  | sign :: rest =>
    let factor : Option Int :=
      if sign = '+' then some 1 else if sign = '-' || sign = '\u2212' then some (-1) else none
    match factor, digitsExactly 2 rest with
    | some factor, some (hours, rest) =>
      match twoAfter ':' rest with
      | some (minutes, []) =>
        if hours ≤ 23 && minutes ≤ 59 then some (factor * (hours * 60 + minutes : Nat)) else none
      | _ => none
    | _, _ => none
  | [] => none

/-- The numbers of a date and a time in fixed widths, and the rest of the text. -/
def readFixed (cs : List Char) : Option (Numbers × List Char) := do
  let (year, cs) ← digitsExactly 4 cs
  let (month, cs) ← twoAfter '-' cs
  let (day, cs) ← twoAfter '-' cs
  let (hour, cs) ← match cs with
    | c :: rest => if c = 'T' || c = 't' || c = ' ' then digitsExactly 2 rest else none
    | [] => none
  let (minute, cs) ← twoAfter ':' cs
  let (second, cs) ← twoAfter ':' cs
  let (nano, cs) ← match cs with
    | '.' :: rest => readFraction rest
    | _ => some (0, cs)
  some (⟨year, month, day, hour, minute, second, nano⟩, cs)

/-- A time with an offset, as a time of the prime meridian. -/
def Timestamp.readZoned? (cs : List Char) : Option Timestamp := do
  let (numbers, rest) ← readFixed cs
  let minutes ← readOffset rest
  let t ← numbers.timestamp?
  t.minusMinutes? minutes

end TableGateway.Calendar
