import TableGateway.Literal.Array

/-!
# Composite literals

The text form of composite values, such as `(a,"b c",)`. Section 4.5 of the specification.

In the service, a field is quoted by `quote_composite_field` and a text is split by `split_composite`.
-/
namespace TableGateway.Literal

/-- Characters that a field can hold only in quotes. -/
def isSpecialInField (c : Char) : Bool :=
  c == ',' || c == '(' || c == ')' || c == '"' || c == '\\' || Text.isBlank c

/-- A field, in quotes if it could be read as something else without. -/
def quoteField (cs : List Char) : List Char :=
  if cs.isEmpty || cs.any isSpecialInField then
    '"' :: escape cs ++ ['"']
  else cs

/-- A composite from the texts of its fields, where no text is null. -/
def writeComposite (fields : List (Option (List Char))) : List Char :=
  '(' :: [','].intercalate (fields.map fun f => f.elim [] quoteField) ++ [')']

def unquote (cs : List Char) : List Char := (Text.unwrap? '"' '"' cs).getD cs

/-- The texts of the fields of a composite. Every comma separates two fields. -/
def readComposite (s : String) : List String :=
  let inner := (Text.unwrap? '(' ')' (Text.trim s.toList)).getD s.toList
  if inner.isEmpty then []
  else (inner.splitOn ',').map fun f => String.ofList (unquote (Text.trim f))

end TableGateway.Literal
