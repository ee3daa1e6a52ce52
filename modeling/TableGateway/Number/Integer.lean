/-!
# Integers as text

Decimal integers with an optional sign, read within bounds, and written in the shortest form.
-/
namespace TableGateway.Number

/-- An ASCII decimal digit. -/
def isDigit (c : Char) : Bool := '0' ≤ c && c ≤ '9'

def ofDigits (cs : List Char) : Nat := Nat.ofDigitChars 10 cs 0

/-- The number written by one or more digits and nothing else. -/
def digits? (cs : List Char) : Option Nat :=
  if cs.isEmpty || !cs.all isDigit then none else some (ofDigits cs)

/-- A number up to `most`, with an optional `+`. -/
def readNat? (most : Nat) (cs : List Char) : Option Nat :=
  let body := match cs with
    | '+' :: rest => rest
    | _ => cs
  (digits? body).bind fun n => if n ≤ most then some n else none

def maxSize : Nat := 18446744073709551615

def maxWord : Nat := 4294967295

def minInt : Int := -9223372036854775808

def maxInt : Int := 9223372036854775807

/-- An integer as a signed number of 64 bits, if it is one. -/
def int64? (n : Int) : Option Int64 :=
  if minInt ≤ n ∧ n ≤ maxInt then some (Int64.ofInt n) else none

/-- A signed number of 64 bits, with an optional sign. -/
def readInt? (cs : List Char) : Option Int64 :=
  match cs with
  | '-' :: rest => (digits? rest).bind fun n => int64? (-(n : Int))
  | '+' :: rest => (digits? rest).bind fun n => int64? n
  | _ => (digits? cs).bind fun n => int64? n

def natText (n : Nat) : List Char := Nat.toDigits 10 n

/-- The decimal digits of a number, after a `-` if it is negative. -/
def intText : Int → List Char
  | .ofNat n => natText n
  | .negSucc n => '-' :: natText (n + 1)

/-- Decimal digits, at least `width` of them. -/
def padded (width n : Nat) : List Char :=
  let ds := natText n
  List.replicate (width - ds.length) '0' ++ ds

end TableGateway.Number
