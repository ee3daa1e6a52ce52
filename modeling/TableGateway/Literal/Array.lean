import TableGateway.Fault
import TableGateway.Text.Cut

/-!
# Array literals

The text form of arrays, such as `{a,"b c",{1,2},NULL}`: quoting of items, and reading into
`Element`s. Arrays are nested at most `maxDimensions` deep. Section 4.5 of the specification.

| here | in the service |
| --- | --- |
| `Literal.quoteItem` | `quote_array_element` |
| `Literal.body` | `parse_array_body`, `skip_whitespace` |
| `Literal.readArray` | `parse_array_literal` |
-/
namespace TableGateway.Literal

inductive Element where
  | null
  | item (text : String)
  | nested (items : List Element)
  deriving Repr, Inhabited

def maxDimensions : Nat := 6

/-! ## Writing -/

/-- Characters that an item can hold only in quotes. -/
def isSpecial (c : Char) : Bool :=
  c == ',' || c == '\x7b' || c == '\x7d' || c == '"' || c == '\\' || Text.isBlank c

/-- A backslash before each quote and each backslash. -/
def escape (cs : List Char) : List Char :=
  cs.flatMap fun c => if c = '"' || c = '\\' then ['\\', c] else [c]

/-- An item, in quotes if it could be read as something else without. -/
def quoteItem (cs : List Char) : List Char :=
  if cs.isEmpty || Text.sameCaseless cs "null".toList || cs.any isSpecial then
    '"' :: escape cs ++ ['"']
  else cs

/-- Item texts in braces with commas between them. -/
def braces (items : List (List Char)) : List Char :=
  '\x7b' :: [','].intercalate items ++ ['\x7d']

/-! ## Reading -/

/-- Why a text is no array literal. -/
inductive Malformed where
  /-- A brace or a quote is missing or too many. -/
  | text
  /-- Arrays are nested too deep. -/
  | dimensions
  deriving DecidableEq, Repr

def Malformed.fault (whole : String) : Malformed → Fault
  | text => .validation ("Invalid array literal: " ++ whole)
  | dimensions =>
    .validation ("array literal exceeds " ++ toString maxDimensions ++ " dimensions")

/-- The inside of a quoted item after its opening quote, and the text after the closing one. A
backslash takes the next character as it is. -/
def quotedBody : List Char → Option (List Char × List Char)
  | [] => none
  | '"' :: rest => some ([], rest)
  | ['\\'] => none
  | '\\' :: c :: rest => (quotedBody rest).map fun (s, rest) => (c :: s, rest)
  | c :: rest => (quotedBody rest).map fun (s, rest) => (c :: s, rest)

/-- A character that ends an item without quotes. -/
def endsItem (c : Char) : Bool := c == ',' || c == '\x7d'

/-- An item without quotes: `NULL` in any case, or its trimmed text. -/
def bare (cs : List Char) : Element :=
  let text := Text.trim cs
  if Text.sameCaseless text "null".toList then .null else .item (String.ofList text)

mutual

/-- The items of an array after its opening brace and the text after its closing one; `levels` more
levels may be opened, this one included. -/
def body : Nat → Nat → List Char → Except Malformed (List Element × List Char)
  | 0, _, _ => .error .text
  | _ + 1, 0, _ => .error .dimensions
  | fuel + 1, levels + 1, cs =>
    match Text.trimStart cs with
    | '\x7d' :: rest => .ok ([], rest)
    | rest => items fuel levels rest

/-- One or more items, up to the closing brace of their array. -/
def items : Nat → Nat → List Char → Except Malformed (List Element × List Char)
  | 0, _, _ => .error .text
  | fuel + 1, levels, cs =>
    match element fuel levels (Text.trimStart cs) with
    | .error e => .error e
    | .ok (first, rest) =>
      match Text.trimStart rest with
      | ',' :: rest => (items fuel levels rest).map fun (more, rest) => (first :: more, rest)
      | '\x7d' :: rest => .ok ([first], rest)
      | _ => .error .text

def element : Nat → Nat → List Char → Except Malformed (Element × List Char)
  | 0, _, _ => .error .text
  | _ + 1, _, [] => .error .text
  | fuel + 1, levels, c :: cs =>
    if c = '\x7b' then (body fuel levels cs).map fun (inner, rest) => (.nested inner, rest)
    else if c = '"' then
      match quotedBody cs with
      | some (s, rest) => .ok (.item (String.ofList s), rest)
      | none => .error .text
    else
      let text := (c :: cs).takeWhile (!endsItem ·)
      .ok (bare text, (c :: cs).drop text.length)

end

/-- The items of an array literal, which may have white space around it. -/
def readArray (s : String) : Except Fault (List Element) :=
  match Text.trim s.toList with
  | '\x7b' :: cs =>
    match body (3 * cs.length + 3) maxDimensions cs with
    | .ok (elements, []) => .ok elements
    | .ok _ => .error (Malformed.text.fault s)
    | .error e => .error (e.fault s)
  | _ => .error (Malformed.text.fault s)

end TableGateway.Literal
