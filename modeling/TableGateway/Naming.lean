import TableGateway.Schema.Table

/-!
# Names

The names of tables and columns in a request, resolved against a snapshot. Statements are built from
resolved names only. Section 2 (the validation layer) of the specification.

| here | in the service |
| --- | --- |
| `isName` | `IDENTIFIER` |
| `Snapshot.resolve` | `table_ident`, `validate_table` |
| `Table.resolve` | `column_ident`, `validate_column` |
-/
namespace TableGateway

def isNameStart (c : Char) : Bool := c.isAlpha || c == '_'

def isNameChar (c : Char) : Bool := c.isAlphanum || c == '_'

/-- A name: one to 63 ASCII letters, digits and underscores, and no digit first. -/
def isName (s : String) : Bool :=
  match s.toList with
  | [] => false
  | c :: cs => isNameStart c && cs.all isNameChar && cs.length ≤ 62

def Snapshot.resolve (s : Snapshot) (name : String) : Except Fault Table :=
  if !isName name then .error (.invalidTable name)
  else match s.table? name with
    | some table => .ok table
    | none => .error (.tableNotFound name)

/-- The column that a text names, with white space around it. -/
def Table.resolve (table : Table) (name : String) : Except Fault Column :=
  let name := Text.trimmed name
  if !isName name then .error (.invalidColumn name)
  else match table.column? name with
    | some column => .ok column
    | none => .error (.invalidColumn (name ++ " (table " ++ table.name ++ ")"))

def Table.resolveAll (table : Table) (names : List String) : Except Fault (List Column) :=
  names.mapM table.resolve

end TableGateway
