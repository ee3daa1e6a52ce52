import TableGateway.Calendar.Reader
import TableGateway.Json.Basic
import TableGateway.Number.Decimal
import TableGateway.Text.Hex

/-!
# TOML scalars

Strings, numbers, truth values and dates of TOML 1.0. Each string reader takes the text after the
opening quote and returns the rest after the closing one.
-/
namespace TableGateway.Toml

open Number (isDigit)

/-! ## Strings -/

/-- A character that may stand as itself: a tab, or no control character. -/
def isPlain (c : Char) : Bool := c == '\t' || (0x20 ≤ c.toNat && c.toNat ≠ 0x7F)

def scalarValue? (count : Nat) (cs : List Char) : Option (Char × List Char) :=
  let ds := cs.take count
  if ds.length ≠ count then none
  else (ds.mapM Text.Hex.value?).bind fun values =>
    let n := values.foldl (fun n v => n * 16 + v) 0
    if n.isValidChar then some (Char.ofNat n, cs.drop count) else none

/-- The character of an escape, after the backslash. -/
def escape? : List Char → Option (Char × List Char)
  | 'b' :: rest => some ('\x08', rest)
  | 't' :: rest => some ('\t', rest)
  | 'n' :: rest => some ('\n', rest)
  | 'f' :: rest => some ('\x0c', rest)
  | 'r' :: rest => some ('\r', rest)
  | '"' :: rest => some ('"', rest)
  | '\\' :: rest => some ('\\', rest)
  | 'u' :: rest => scalarValue? 4 rest
  | 'U' :: rest => scalarValue? 8 rest
  | _ => none

/-- A text up to its closing quote. Only double quotes know escapes. -/
def lineString? (quote : Char) : Nat → List Char → Option (List Char × List Char)
  | 0, _ | _, [] => none
  | fuel + 1, c :: cs =>
    if c = quote then some ([], cs)
    else if c = '\\' && quote = '"' then
      (escape? cs).bind fun (e, rest) =>
        (lineString? quote fuel rest).map fun (s, rest) => (e :: s, rest)
    else if isPlain c then (lineString? quote fuel cs).map fun (s, rest) => (c :: s, rest)
    else none

def skipLines : List Char → List Char
  | '\r' :: '\n' :: cs => skipLines cs
  | c :: cs => if c == ' ' || c == '\t' || c == '\n' then skipLines cs else c :: cs
  | [] => []

/-- A text of many lines up to its three closing quotes, of which up to two more may stand before. A
backslash at the end of a line takes the line end and the white space that follows away. -/
def longString? (quote : Char) : Nat → List Char → Option (List Char × List Char)
  | 0, _ | _, [] => none
  | fuel + 1, c :: cs =>
    if c = quote then
      let run := (c :: cs).takeWhile (· == quote)
      if run.length < 3 then
        (longString? quote fuel cs).map fun (s, rest) => (c :: s, rest)
      else if run.length ≤ 5 then
        some (List.replicate (run.length - 3) quote, (c :: cs).drop run.length)
      else none
    else if c = '\\' && quote = '"' then
      let blank := cs.dropWhile fun c => c == ' ' || c == '\t'
      match blank with
      | '\n' :: rest => longString? quote fuel (skipLines rest)
      | '\r' :: '\n' :: rest => longString? quote fuel (skipLines rest)
      | _ =>
        (escape? cs).bind fun (e, rest) =>
          (longString? quote fuel rest).map fun (s, rest) => (e :: s, rest)
    else if c = '\r' then
      match cs with
      | '\n' :: rest => (longString? quote fuel rest).map fun (s, rest) => ('\n' :: s, rest)
      | _ => none
    else if c = '\n' || isPlain c then
      (longString? quote fuel cs).map fun (s, rest) => (c :: s, rest)
    else none

/-- A text in either kind of quotes, of one line or of many. -/
def string? : List Char → Option (List Char × List Char)
  | a :: b :: c :: rest =>
    if a = '"' || a = '\'' then
      if b = a && c = a then
        let body := match rest with
          | '\n' :: body => body
          | '\r' :: '\n' :: body => body
          | body => body
        longString? a (body.length + 1) body
      else lineString? a (rest.length + 3) (b :: c :: rest)
    else none
  | a :: rest => if a = '"' || a = '\'' then lineString? a (rest.length + 1) rest else none
  | [] => none

/-! ## Numbers -/

/-- Digits with single underscores between them. -/
def grouped? (isDigit : Char → Bool) (cs : List Char) : Option (List Char) :=
  let parts := cs.splitOn '_'
  if parts.all fun p => !p.isEmpty && p.all isDigit then some parts.flatten else none

def based? (base : Nat) (cs : List Char) : Option Nat :=
  (grouped? (fun c => (Text.Hex.value? c).any (· < base)) cs).map fun ds =>
    ds.foldl (fun n c => n * base + (Text.Hex.value? c).getD 0) 0

/-- Grouped decimal digits that do not begin with a needless zero. -/
def decimalDigits? (cs : List Char) : Option (List Char) :=
  (grouped? isDigit cs).bind fun ds =>
    if ds.head? = some '0' && ds.length ≠ 1 then none else some ds

def ranged? (n : Int) : Option Json :=
  if Number.minInt ≤ n ∧ n ≤ Number.maxInt then some (.int n) else none

def integer? : List Char → Option Json
  | '0' :: 'x' :: cs => (based? 16 cs).bind fun n => ranged? n
  | '0' :: 'o' :: cs => (based? 8 cs).bind fun n => ranged? n
  | '0' :: 'b' :: cs => (based? 2 cs).bind fun n => ranged? n
  | '-' :: cs => (decimalDigits? cs).bind fun ds => ranged? (-(Number.ofDigits ds : Int))
  | '+' :: cs => (decimalDigits? cs).bind fun ds => ranged? (Number.ofDigits ds)
  | cs => (decimalDigits? cs).bind fun ds => ranged? (Number.ofDigits ds)

def signed (cs : List Char) : Bool × List Char :=
  match cs with
  | '-' :: rest => (true, rest)
  | '+' :: rest => (false, rest)
  | _ => (false, cs)

/-- A number with a point, an exponent or both, unless it is greater than all doubles; or one of the
names `inf` and `nan`. -/
def float? (cs : List Char) : Option Json :=
  let (negative, body) := signed cs
  if body = "inf".toList then some (.double (.infinity negative))
  else if body = "nan".toList then some (.double .nan)
  else
    let (mantissa, power) :=
      match Text.cut? 'e' (Text.lower body) with
      | some (mantissa, power) => (mantissa, some power)
      | none => (body, none)
    let (whole, fraction) :=
      match Text.cut? '.' mantissa with
      | some (whole, fraction) => (whole, some fraction)
      | none => (mantissa, none)
    if power.isNone && fraction.isNone then none
    else do
      let whole ← decimalDigits? whole
      let fraction ← match fraction with
        | some ds => grouped? isDigit ds
        | none => some []
      let power ← match power with
        | some power =>
          let (negative, ds) := signed power
          (grouped? isDigit ds).map fun ds =>
            if negative then -(Number.ofDigits ds : Int) else Number.ofDigits ds
        | none => some 0
      match Number.Double.ofDecimal negative (Number.ofDigits (whole ++ fraction))
          (power - fraction.length) with
      | .infinity false => none
      | d => some (.double d)

/-! ## Dates and times -/

open Calendar in
def isTime (cs : List Char) : Bool :=
  match digitsExactly 2 cs with
  | some (hour, cs) =>
    match twoAfter ':' cs with
    | some (minute, cs) =>
      match twoAfter ':' cs with
      | some (second, cs) =>
        let rest := match cs with
          | '.' :: ds => (readFraction ds).map (·.2)
          | _ => some cs
        (Clock.of? hour minute second 0).isSome && rest == some []
      | none => false
    | none => false
  | none => false

open Calendar in
def isDay (cs : List Char) : Bool :=
  match digitsExactly 4 cs with
  | some (year, cs) =>
    match twoAfter '-' cs with
    | some (month, cs) =>
      match twoAfter '-' cs with
      | some (day, []) => isDate year month day
      | _ => false
    | none => false
  | none => false

/-- The text before an offset from the prime meridian, or the whole text. -/
def dropOffset (cs : List Char) : List Char :=
  if (Calendar.readOffset (cs.drop (cs.length - 1))).isSome then cs.take (cs.length - 1)
  else if (Calendar.readOffset (cs.drop (cs.length - 6))).isSome then cs.take (cs.length - 6)
  else cs

/-- The text is a day, a time, or both with or without an offset. -/
def isDateTime (cs : List Char) : Bool :=
  isTime cs || isDay cs ||
    (isDay (cs.take 10) && (cs[10]?.any fun c => c == 'T' || c == 't' || c == ' ') &&
      isTime (dropOffset (cs.drop 11)))

/-- A date or a time: a table with one member, as no text and no number. -/
def dateTime? (cs : List Char) : Option Json :=
  if isDateTime cs then some (.obj [("datetime", .str (String.ofList cs))]) else none

/-- A scalar that is no string. -/
def scalar? (cs : List Char) : Option Json :=
  if cs = "true".toList then some (.bool true)
  else if cs = "false".toList then some (.bool false)
  else ((integer? cs).or (float? cs)).or (dateTime? cs)

end TableGateway.Toml
