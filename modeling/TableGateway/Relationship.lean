import TableGateway.Json.Printer
import TableGateway.Query.Select
import TableGateway.Schema.Table

/-!
# Relationships

How a name in a select list connects a table to another one: by a foreign key of its own, or by one
of the other table. Rows belong together if the texts of the two columns agree.
Section 4.4 of the specification.

| here | in the service |
| --- | --- |
| `Relationship.resolve?` | `Relationship.resolve` |
| `Relationship.related` | `Relationship.related_table` |
| `Relationship.localColumn` | `Relationship.local_column` |
| `Relationship.remoteColumn` | `Relationship.remote_column` |
| `Relationship.isForward` | `Relationship.is_forward` |
| `Relationship.keyColumns` | `relationship_key_columns` |
| `Json.joinText?` | `json_key` |
-/
namespace TableGateway

/-- A connection of a table to a related one. -/
inductive Relationship where
  /-- The table refers to the target. -/
  | forward (key : ForeignKey) (target : Table)
  /-- The source refers to the table. -/
  | reverse (key : ForeignKey) (source : Table)
  deriving DecidableEq, Repr

namespace Relationship

/-- A foreign key goes by the name of the table it refers to, and by that of its column without an
`_id` at the end. -/
def isNamed (name : String) (key : ForeignKey) : Bool :=
  key.table == name || Text.dropTail? "_id".toList key.column.toList == some name.toList

/-- The connection by the first foreign key of the table that goes by the name. -/
def forward? (snapshot : Snapshot) (table : Table) (name : String) : Option Relationship := do
  let key ← table.foreignKeys.find? (isNamed name)
  let target ← snapshot.table? key.table
  return .forward key target

/-- The connection by the first foreign key of the named table that refers to the table. -/
def reverse? (snapshot : Snapshot) (table : Table) (name : String) : Option Relationship := do
  let (source, key) ← (snapshot.referencing table.name).find? fun (source, _) => source.name == name
  return .reverse key source

def resolve? (snapshot : Snapshot) (table : Table) (name : String) : Option Relationship :=
  (forward? snapshot table name).or (reverse? snapshot table name)

def related : Relationship → Table
  | forward _ target => target
  | reverse _ source => source

def localColumn : Relationship → String
  | forward key _ => key.column
  | reverse key _ => key.target

def remoteColumn : Relationship → String
  | forward key _ => key.target
  | reverse key _ => key.column

/-- A record has at most one related row. -/
def isForward : Relationship → Bool
  | forward .. => true
  | reverse .. => false

/-- The columns that the relations in a list connect a table by, each once. -/
def keyColumns (snapshot : Snapshot) (table : Table) (fields : List Field) : List String :=
  ((fields.filter Field.isRelation).filterMap fun f =>
    (resolve? snapshot table f.name).map localColumn).eraseDups

end Relationship

mutual

/-- The text by which a value of an answer is compared; an envelope has that of its `value`. -/
def Json.joinText? : Json → Option String
  | .str s => some s
  | .int n => some (Json.int n).text
  | .double d => some (Json.double d).text
  | .bool b => some (Json.bool b).text
  | .obj members => Json.valueText? members
  | .null | .arr _ => none

def Json.valueText? : List (String × Json) → Option String
  | [] => none
  | (name, v) :: rest => if name = "value" then v.joinText? else Json.valueText? rest

end

def Record.joinText? (record : Record) (column : String) : Option String :=
  (Entries.get? column record).bind Json.joinText?

end TableGateway
