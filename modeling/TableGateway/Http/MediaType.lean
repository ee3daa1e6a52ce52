import TableGateway.Text.Cut

/-!
# Media types

The `Content-Type` of a request: a type, a subtype and parameters. The body is a JSON document if
the subtype, or its suffix after a plus sign, is `json`.
-/
namespace TableGateway.Http.MediaType

/-- A character of a name in a media type. -/
def isToken (c : Char) : Bool := c.isAlphanum || "!#$%&'*+-.^_`|~".toList.contains c

/-- A character of a quoted value: a blank or a visible one of ASCII. -/
def isQuotable (c : Char) : Bool := ' ' ≤ c && c ≤ '~'

/-- What follows the value of a parameter and the semicolon after it, if the value is well formed:
a quoted one is not empty and may have blanks after it, and one without quotes is a name, which may
be empty at the end only. -/
def afterValue? : List Char → Option (List Char)
  | '"' :: c :: cs => do
    let (value, rest) ← Text.cut? '"' cs
    if !(c :: value).all isQuotable then none
    else
      match rest.dropWhile (· == ' ') with
      | [] => some []
      | ';' :: rest => some rest
      | _ => none
  | cs =>
    match Text.cut? ';' cs with
    | some (value, rest) => if !value.isEmpty && value.all isToken then some rest else none
    | none => if cs.all isToken then some [] else none

/-- The parameters after a semicolon are well formed; there are at most as many as `fuel` says. -/
def areParams : Nat → List Char → Bool
  | 0, _ => false
  | fuel + 1, cs =>
    match cs.dropWhile (· == ' ') with
    | [] => true
    | cs =>
      match Text.cut? '=' cs with
      | some (name, value) =>
        !name.isEmpty && name.all isToken && (afterValue? value).any (areParams fuel)
      | none => false

/-- The subtype and its suffix, of a well-formed media type. -/
def subtype? (cs : List Char) : Option (List Char × Option (List Char)) := do
  let (type, rest) ← Text.cut? '/' cs
  let (subtype, params) := (Text.cut? ';' rest).getD (rest, [])
  if type.isEmpty || !type.all isToken || !subtype.all isToken then none
  else if subtype.isEmpty && !rest.isEmpty then none
  else if !areParams (params.length + 1) params then none
  else
    match subtype.reverse.idxOf? '+' with
    | some n =>
      if n + 1 < subtype.length then
        some (subtype.take (subtype.length - n - 1), some (subtype.drop (subtype.length - n)))
      else some (subtype, none)
    | none => some (subtype, none)

def isJson (s : String) : Bool :=
  match subtype? (Text.lower s.toList) with
  | some (subtype, suffix) => subtype == "json".toList || suffix == some "json".toList
  | none => false

end TableGateway.Http.MediaType
