import TableGateway.Cell
import TableGateway.Schema.Table
import TableGateway.Text.Utf8

/-!
# Keys and cursors

The texts that name a row: the values of its key columns with commas between them, and, for the
place of a row in an order, a cursor, which is the base64 of the value it is ordered by.
Section 4.3 of the specification.

| here | in the service |
| --- | --- |
| `Key.parse` | `parse_composite_key` |
| `Key.encode` | `encode_key` |
| `Key.ofRow?` | `row_key` |
| `Key.ofRecord?` | `record_key` |
| `Cursor.encode` | `encode_cursor` |
| `Cursor.decode` | `decode_cursor` |
-/
namespace TableGateway.Key

/-- The part of a key that is blank, by its place among the key columns. -/
def blank? : List (Column × String) → Nat → Option Fault
  | [], _ => none
  | (column, part) :: rest, n =>
    if Text.isBlankText part then
      some (.validation ("Invalid key: part " ++ toString (n + 1) ++ " (" ++ column.name ++
        ") is empty"))
    else blank? rest (n + 1)

/-- The columns of the primary key with their parts of a key. The key of a single column is not cut
at its commas. -/
def parse (table : Table) (key : String) : Except Fault (List (Column × String)) :=
  let columns := table.key
  if columns.isEmpty then .error (.validation ("Table " ++ table.name ++ " has no primary key"))
  else
    let parts :=
      if columns.length = 1 then [key] else (key.toList.splitOn ',').map String.ofList
    if parts.length ≠ columns.length then .error (.keyMismatch columns.length parts.length)
    else
      match blank? (columns.zip parts) 0 with
      | some fault => .error fault
      | none => .ok (columns.zip parts)

def encode (parts : List String) : String :=
  String.ofList ([','].intercalate (parts.map String.toList))

/-- The key of the parts of a table's key columns, if each has one and there are some. -/
def ofParts? (table : Table) (part? : Column → Option String) : Option String :=
  match table.key.mapM part? with
  | some [] => none
  | some parts => some (encode parts)
  | none => none

def ofRow? (table : Table) (row : Row) : Option String :=
  ofParts? table fun column => (Entries.get? column.name row).bind Cell.text?

/-- The text of a value that can be part of a key. -/
def partOf? : Json → Option String
  | .str s => some s
  | .int n => some (Json.int n).text
  | .double d => some (Json.double d).text
  | .bool b => some (Json.bool b).text
  | _ => none

def ofRecord? (table : Table) (record : Record) : Option String :=
  ofParts? table fun column => (Entries.get? column.name record).bind partOf?

end TableGateway.Key

namespace TableGateway.Cursor

def encode (raw : String) : String := String.ofList (Text.Base64.encode (Text.Utf8.bytes raw))

def decode (cursor : String) : Except Fault String :=
  match Text.Base64.decode (Text.Utf8.encode (Text.trim cursor.toList)) with
  | .error e => .error (.invalidCursor e.message)
  | .ok bytes =>
    match Text.Utf8.decode bytes with
    | .error e => .error (.invalidCursor e.message)
    | .ok cs => .ok (String.ofList cs)

end TableGateway.Cursor
