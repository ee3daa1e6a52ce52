import TableGateway.Number.Double
import TableGateway.Text.Cut

/-!
# Decimal text

Reading a double from decimal text, and the shortest decimal that reads back as a given double,
in two layouts: `json` (always with a point or an exponent) and `plain` (never an exponent).
-/
namespace TableGateway.Number

/-- The leading digits of a text and the rest. -/
def spanDigits (cs : List Char) : List Char × List Char := (cs.takeWhile isDigit, cs.dropWhile isDigit)

/-- The exponent part: `e` or `E`, an optional sign and digits; or nothing. -/
def exponent? : List Char → Option Int
  | [] => some 0
  | c :: cs =>
    if c = 'e' || c = 'E' then
      match cs with
      | '-' :: ds => (digits? ds).map fun n => -(n : Int)
      | '+' :: ds => (digits? ds).map fun n => (n : Int)
      | ds => (digits? ds).map fun n => (n : Int)
    else none

/-- A number without sign: digits with an optional point, on at least one side of it, and an
optional exponent. -/
def unsigned? (negative : Bool) (cs : List Char) : Option Double :=
  let (whole, rest) := spanDigits cs
  let (fraction, rest) := match rest with
    | '.' :: more => spanDigits more
    | _ => ([], rest)
  if whole.isEmpty && fraction.isEmpty then none
  else (exponent? rest).map fun e =>
    Double.ofDecimal negative (ofDigits (whole ++ fraction)) (e - fraction.length)

/-- A number without sign, or the name of infinity or of no number. -/
def magnitude? (negative : Bool) (cs : List Char) : Option Double :=
  let name := Text.lower cs
  if name = "inf".toList || name = "infinity".toList then some (.infinity negative)
  else if name = "nan".toList then some .nan
  else unsigned? negative cs

def Double.read? : List Char → Option Double
  | '-' :: cs => magnitude? true cs
  | '+' :: cs => magnitude? false cs
  | cs => magnitude? false cs

/-! ## The shortest decimal -/

/-- The order of magnitude `k` of a positive fraction: `10 ^ (k - 1) ≤ num / den < 10 ^ k`. -/
def magnitude (num den : Nat) : Int :=
  let guess : Int := ((natText num).length : Int) - (natText den).length
  let (n, d) := scale 10 num den (-guess)
  if d ≤ n then guess + 1 else guess

/-- The numbers that round to one double: those between two fractions over one denominator, with
the ends if `closed`. The double itself is `value / den`. -/
structure Interval where
  low : Nat
  value : Nat
  high : Nat
  den : Nat
  closed : Bool

/-- The numbers that round to `significand · 2 ^ exponent`, with everything taken four times to
make room for the gap below a power of two, which is half as wide. -/
def Interval.of (significand : Nat) (exponent : Int) : Interval :=
  let below := if significand = Double.full && Double.minExponent < exponent then 1 else 2
  let (unit, den) := scale 2 1 1 (exponent - 2)
  { low := (4 * significand - below) * unit
    value := 4 * significand * unit
    high := (4 * significand + 2) * unit
    den := den
    closed := significand % 2 = 0 }

def Interval.has (i : Interval) (num den : Nat) : Bool :=
  let lo := compare (i.low * den) (num * i.den)
  let hi := compare (num * i.den) (i.high * den)
  (lo == .lt || (i.closed && lo == .eq)) && (hi == .lt || (i.closed && hi == .eq))

/-- Which of two equally close decimals is taken. -/
inductive Tie where
  | even
  | up
  deriving DecidableEq, Repr

/-- The multiple of `10 ^ power` in the interval nearest to its value, if there is one. -/
def Interval.nearest? (i : Interval) (tie : Tie) (power : Int) : Option Nat :=
  -- `10 ^ power` as a fraction
  let (p, q) := scale 10 1 1 power
  let floor := i.value * q / (i.den * p)
  let twice := 2 * (i.value * q)
  let middle := (2 * floor + 1) * (i.den * p)
  match i.has (floor * p) q, i.has ((floor + 1) * p) q with
  | false, false => none
  | true, false => some floor
  | false, true => some (floor + 1)
  | true, true =>
    if twice < middle then some floor
    else if middle < twice then some (floor + 1)
    else some (match tie with
      | .even => floor + floor % 2
      | .up => floor + 1)

/-- Try the decimals of `count`, `count + 1`, … digits, the leading one at `10 ^ (top - 1)`. -/
def Interval.search (i : Interval) (tie : Tie) (top : Int) : Nat → Nat → Nat × Int
  | 0, count => (i.value / i.den, count)
  | steps + 1, count =>
    match i.nearest? tie (top - count) with
    | some digits => (digits, top - count)
    | none => i.search tie top steps (count + 1)

/-- The digits without trailing zeros, and the power of ten of the last of them. -/
def stripZeros (ds : List Char) (power : Int) : List Char × Int :=
  let kept := (ds.reverse.dropWhile (· == '0')).reverse
  (kept, power + (ds.length - kept.length : Nat))

/-- The fewest decimal digits that read back as `significand · 2 ^ exponent`, the closest of those,
and the power of ten of the last digit. -/
def shortest (tie : Tie) (significand : Nat) (exponent : Int) : List Char × Int :=
  let i := Interval.of significand exponent
  let (digits, power) := i.search tie (magnitude i.value i.den) 17 1
  stripZeros (natText digits) power

/-- Digits with a point after the first `whole` of them, filled with zeros as needed. -/
def positional (ds : List Char) (whole : Int) : List Char × List Char :=
  match whole with
  | .ofNat n => (if n = 0 then ['0'] else ds.take n ++ List.replicate (n - ds.length) '0', ds.drop n)
  | .negSucc n => (['0'], List.replicate (n + 1) '0' ++ ds)

/-- How a finite number is written. -/
structure Layout where
  /-- Which of two equally close decimals is taken. -/
  tie : Tie
  /-- Whole numbers keep a `.0`. -/
  keepPoint : Bool
  /-- The places of the point, counted from the first digit, for which no exponent is written. -/
  noExponent : Int → Bool

/-- The text of a nonzero number from its digits. -/
def Layout.write (layout : Layout) (ds : List Char) (power : Int) : List Char :=
  let whole := ds.length + power
  if layout.noExponent whole then
    let (front, back) := positional ds whole
    if back.isEmpty then if layout.keepPoint then front ++ ['.', '0'] else front
    else front ++ '.' :: back
  else
    let e := whole - 1
    let mantissa := match ds with
      | [] => []
      | [d] => [d]
      | d :: rest => d :: '.' :: rest
    mantissa ++ 'e' :: (if 0 ≤ e then '+' :: intText e else intText e)

def Layout.text (layout : Layout) (negative : Bool) (significand : Nat) (exponent : Int) :
    List Char :=
  let body :=
    if significand = 0 then if layout.keepPoint then "0.0".toList else ['0']
    else
      let (ds, power) := shortest layout.tie significand exponent
      layout.write ds power
  if negative then '-' :: body else body

/-- Numbers in JSON show that they are no integers; from `1e16` on and below `1e-5` they have an
exponent. -/
def Layout.json : Layout := ⟨.even, true, fun whole => -5 < whole && whole ≤ 16⟩

/-- Numbers in plain text never have an exponent. -/
def Layout.plain : Layout := ⟨.up, false, fun _ => true⟩

/-- The text of a number outside JSON. -/
def Double.plainText : Double → List Char
  | nan => "NaN".toList
  | infinity false => "inf".toList
  | infinity true => "-inf".toList
  | finite s m e => Layout.plain.text s m e

/-- The text of a number in JSON; JSON has no other numbers than finite ones. -/
def Double.jsonText : Double → List Char
  | finite s m e => Layout.json.text s m e
  | _ => "null".toList

end TableGateway.Number
