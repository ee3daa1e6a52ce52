import TableGateway.Json.Basic
import TableGateway.Number.Decimal
import TableGateway.Text.Hex

/-!
# Reading JSON

The grammar of RFC 8259, read strictly. Arrays and objects may be nested `depth` deep; of two
members with one name the later counts; a number beyond the doubles is refused.

Each reader takes a text and returns what it read and the rest. The recursion is bounded by the
length of the text, since every step takes up a character.
-/
namespace TableGateway.Json

open Number (Double isDigit)

def isSpace (c : Char) : Bool := c == ' ' || c == '\t' || c == '\n' || c == '\r'

/-- The text after white space. -/
def skip (cs : List Char) : List Char := cs.dropWhile isSpace

/-! ## Strings -/

/-- The number of four hexadecimal digits. -/
def unit? : List Char → Option (Nat × List Char)
  | a :: b :: c :: d :: rest =>
    match Text.Hex.value? a, Text.Hex.value? b, Text.Hex.value? c, Text.Hex.value? d with
    | some w, some x, some y, some z => some (((w * 16 + x) * 16 + y) * 16 + z, rest)
    | _, _, _, _ => none
  | _ => none

/-- The character of an escape, after the backslash. A surrogate stands only in a pair. -/
def escape? : List Char → Option (Char × List Char)
  | '"' :: rest => some ('"', rest)
  | '\\' :: rest => some ('\\', rest)
  | '/' :: rest => some ('/', rest)
  | 'b' :: rest => some ('\x08', rest)
  | 'f' :: rest => some ('\x0c', rest)
  | 'n' :: rest => some ('\n', rest)
  | 'r' :: rest => some ('\r', rest)
  | 't' :: rest => some ('\t', rest)
  | 'u' :: rest =>
    (unit? rest).bind fun (high, rest) =>
      if 0xD800 ≤ high && high < 0xDC00 then
        match rest with
        | '\\' :: 'u' :: rest =>
          (unit? rest).bind fun (low, rest) =>
            if 0xDC00 ≤ low && low < 0xE000 then
              some (Char.ofNat (0x10000 + (high - 0xD800) * 0x400 + (low - 0xDC00)), rest)
            else none
        | _ => none
      else if 0xDC00 ≤ high && high < 0xE000 then none
      else some (Char.ofNat high, rest)
  | _ => none

/-- The characters of a string after its opening quote. -/
def stringBody : Nat → List Char → Option (List Char × List Char)
  | 0, _ => none
  | _ + 1, [] => none
  | fuel + 1, c :: cs =>
    if c = '"' then some ([], cs)
    else if c = '\\' then
      (escape? cs).bind fun (e, rest) =>
        (stringBody fuel rest).map fun (s, rest) => (e :: s, rest)
    else if c.toNat < 0x20 then none
    else (stringBody fuel cs).map fun (s, rest) => (c :: s, rest)

/-! ## Numbers -/

/-- Append digits to a significand as long as it fits 64 bits; the digits left over are counted. -/
def significand (start : Nat) : List Char → Nat × Nat
  | [] => (start, 0)
  | d :: ds =>
    let n := start * 10 + Number.ofDigits [d]
    if n ≤ Number.maxSize then significand n ds else (start, ds.length + 1)

/-- A power of ten, rounded. -/
def powerOfTen (n : Nat) : Double := Double.ofDecimal false 1 n

/-- A significand times a power of ten: the rounded significand is multiplied or divided by a
rounded power of ten. Powers below `1e-308` are taken in steps. -/
def scaled? : Nat → Double → Int → Option Double
  | 0, d, _ => some d
  | steps + 1, d, power =>
    if power.natAbs ≤ 308 then
      if 0 ≤ power then
        let product := d.mul (powerOfTen power.natAbs)
        if product.isFinite then some product else none
      else some (d.div (powerOfTen power.natAbs))
    else if d.same (Double.zero false) then some d
    else if 0 ≤ power then none
    else scaled? steps (d.div (powerOfTen 308)) (power + 308)

/-- The exponent part of a number, which may be absent. -/
def exponentPart? : List Char → Option (Int × List Char)
  | [] => some (0, [])
  | c :: cs =>
    if c = 'e' || c = 'E' then
      let (negative, body) := match cs with
        | '-' :: rest => (true, rest)
        | '+' :: rest => (false, rest)
        | rest => (false, rest)
      let (ds, rest) := Number.spanDigits body
      (Number.digits? ds).map fun n => (if negative then -(n : Int) else n, rest)
    else some (0, c :: cs)

/-- A number with a point or an exponent, or one that does not fit 64 bits. -/
def doubleOf? (negative : Bool) (start : Nat) (power : Int) : Option Json :=
  (scaled? 4 (Double.ofInt start) power).map fun d => double (if negative then d.neg else d)

/-- A number after its sign. -/
def unsignedNumber? (negative : Bool) (cs : List Char) : Option (Json × List Char) :=
  let (whole, rest) := Number.spanDigits cs
  if whole.isEmpty || (whole.head? == some '0' && whole.length ≠ 1) then none
  else
    let (start, dropped) := significand 0 whole
    match rest with
    | '.' :: more =>
      let (fraction, rest) := Number.spanDigits more
      if fraction.isEmpty then none
      else
        let (start, ignored) := significand start fraction
        (exponentPart? rest).bind fun (e, rest) =>
          (doubleOf? negative start (dropped - (fraction.length - ignored : Nat) + e)).map (·, rest)
    | _ =>
      if rest.head?.any fun c => c = 'e' || c = 'E' then
        (exponentPart? rest).bind fun (e, rest) =>
          (doubleOf? negative start (dropped + e)).map (·, rest)
      else if dropped ≠ 0 then (doubleOf? negative start dropped).map (·, rest)
      else if !negative then some (int start, rest)
      else if start = 0 || -(start : Int) < Number.minInt then
        (doubleOf? true start 0).map (·, rest)
      else some (int (-start), rest)

def number? : List Char → Option (Json × List Char)
  | '-' :: cs => unsignedNumber? true cs
  | cs => unsignedNumber? false cs

/-! ## Documents -/

mutual

/-- A document without white space before it. -/
def value? : Nat → Nat → List Char → Option (Json × List Char)
  | 0, _, _ => none
  | _ + 1, _, [] => none
  | fuel + 1, depth, c :: cs =>
    if c = '"' then (stringBody (cs.length + 1) cs).map fun (s, rest) => (str (String.ofList s), rest)
    else if c = '[' then
      match depth with
      | 0 => none
      | depth + 1 =>
        match skip cs with
        | ']' :: rest => some (arr [], rest)
        | body => (elements? fuel depth body).map fun (items, rest) => (arr items, rest)
    else if c = '\x7b' then
      match depth with
      | 0 => none
      | depth + 1 =>
        match skip cs with
        | '\x7d' :: rest => some (obj [], rest)
        | body => (members? fuel depth body).map fun (members, rest) => (object members, rest)
    else if c = 'n' then
      match cs with
      | 'u' :: 'l' :: 'l' :: rest => some (null, rest)
      | _ => none
    else if c = 't' then
      match cs with
      | 'r' :: 'u' :: 'e' :: rest => some (bool true, rest)
      | _ => none
    else if c = 'f' then
      match cs with
      | 'a' :: 'l' :: 's' :: 'e' :: rest => some (bool false, rest)
      | _ => none
    else number? (c :: cs)

/-- The items of an array up to its closing bracket; there is at least one. -/
def elements? : Nat → Nat → List Char → Option (List Json × List Char)
  | 0, _, _ => none
  | fuel + 1, depth, cs =>
    (value? fuel depth cs).bind fun (item, rest) =>
      match skip rest with
      | ',' :: rest => (elements? fuel depth (skip rest)).map fun (items, rest) => (item :: items, rest)
      | ']' :: rest => some ([item], rest)
      | _ => none

/-- The members of an object up to its closing brace; there is at least one. -/
def members? : Nat → Nat → List Char → Option (List (String × Json) × List Char)
  | 0, _, _ => none
  | fuel + 1, depth, cs =>
    match cs with
    | '"' :: body =>
      (stringBody (body.length + 1) body).bind fun (name, rest) =>
        match skip rest with
        | ':' :: rest =>
          (value? fuel depth (skip rest)).bind fun (v, rest) =>
            match skip rest with
            | ',' :: rest =>
              (members? fuel depth (skip rest)).map fun (more, rest) =>
                ((String.ofList name, v) :: more, rest)
            | '\x7d' :: rest => some ([(String.ofList name, v)], rest)
            | _ => none
        | _ => none
    | _ => none

end

/-- How deep the documents of clients may be nested. -/
def maxDepth : Nat := 127

/-- The document that a text writes, nested at most `depth` deep. -/
def readWithin? (depth : Nat) (s : String) : Option Json :=
  let cs := skip s.toList
  (value? (2 * cs.length + 1) depth cs).bind fun (v, rest) =>
    if (skip rest).isEmpty then some v else none

/-- The document that a text of a client writes. -/
def read? (s : String) : Option Json := readWithin? maxDepth s

end TableGateway.Json
