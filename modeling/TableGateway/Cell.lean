import TableGateway.Calendar.Printer
import TableGateway.Json.Printer
import TableGateway.Literal.Array
import TableGateway.Text.Base64
import TableGateway.Uuid

/-!
# Cells

The values of SQL, as parameters of statements and as cells of rows, with their texts.
Section 10.2 of the specification.

| here | in the service |
| --- | --- |
| `Cell.isNull` | `SqlValue.is_null` |
| `Cell.text?` | `SqlValue.as_text` |
| `Cell.literal` | `SqlValue.to_pg_literal` |
| `Cell.plainJson` | `SqlValue.to_plain_json` |
-/
namespace TableGateway

open Number (Double)
open Calendar (Date Clock Timestamp)

/-- A value of SQL. -/
inductive Cell where
  | null
  | bool (b : Bool)
  | int (n : Int64)
  | float (d : Double)
  | text (s : String)
  | bytes (bs : List UInt8)
  | json (v : Json)
  | uuid (u : Uuid)
  | date (d : Date)
  | time (t : Clock)
  | timestamp (t : Timestamp)
  /-- A point in time, at the prime meridian. -/
  | timestampTz (t : Timestamp)
  | array (items : List Cell)
  deriving Repr, Inhabited

/-- A row of a result: cells by the names of their columns. -/
abbrev Row := Entries Cell

namespace Cell

def isNull : Cell → Bool
  | null => true
  | _ => false

mutual

/-- The text of a cell as the database prints it; null has none. -/
def chars? : Cell → Option (List Char)
  | null => none
  | bool true => some "true".toList
  | bool false => some "false".toList
  | int n => some (Number.intText n.toInt)
  | float d => some d.plainText
  | text s => some s.toList
  | bytes bs => some ('\\' :: 'x' :: Text.Hex.encode bs)
  | json v => some v.chars
  | uuid u => some u.chars
  | date d => some d.chars
  | time t => some t.chars
  | timestamp t => some t.chars
  | timestampTz t => some t.zonedChars
  | array items => some (Literal.braces (itemTexts items))

/-- The texts of the items of an array literal. Arrays within it are not quoted. -/
def itemTexts : List Cell → List (List Char)
  | [] => []
  | item :: rest =>
    (match item with
      | null => "NULL".toList
      | array _ => (chars? item).getD []
      | _ => Literal.quoteItem ((chars? item).getD [])) :: itemTexts rest

end

def text? (c : Cell) : Option String := c.chars?.map String.ofList

/-- The literal of a cell, in which null is `NULL`. -/
def literal (c : Cell) : String := c.text?.getD "NULL"

mutual

/-- The document of a cell whose column type is not known. -/
def plainJson : Cell → Json
  | null => .null
  | bool b => .bool b
  | int n => .int n.toInt
  | float d => if d.isFinite then .double d else .null
  | json v => v
  | bytes bs => .str (String.ofList (Text.Base64.encode bs))
  | array items => .arr (plainItems items)
  | c => .ofText? c.text?

def plainItems : List Cell → List Json
  | [] => []
  | item :: rest => plainJson item :: plainItems rest

end

mutual

/-- Equality of cells, with doubles compared as numbers. -/
def same : Cell → Cell → Bool
  | null, null => true
  | bool a, bool b => a == b
  | int a, int b => a == b
  | float a, float b => a.same b
  | text a, text b => a == b
  | bytes a, bytes b => a == b
  | json a, json b => a.same b
  | uuid a, uuid b => a == b
  | date a, date b => a == b
  | time a, time b => a == b
  | timestamp a, timestamp b => a == b
  | timestampTz a, timestampTz b => a == b
  | array as, array bs => sameItems as bs
  | _, _ => false

def sameItems : List Cell → List Cell → Bool
  | [], [] => true
  | a :: as, b :: bs => same a b && sameItems as bs
  | _, _ => false

end

end Cell
end TableGateway
