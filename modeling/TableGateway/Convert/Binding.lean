import TableGateway.Calendar.Reader
import TableGateway.Cell
import TableGateway.Json.Reader
import TableGateway.Literal.Composite
import TableGateway.Schema.Source
import TableGateway.Text.Utf8

/-!
# Parameters from documents

How a value of a request becomes a parameter of a column's type. Values may come bare, or in the
envelopes in which cells are read; text of a URL is taken as a string. Enum labels and the fields of
composite types are looked up in the schema each time. Section 4.5, with 10.3 of the specification.

| here | in the service |
| --- | --- |
| `Convert.invalid` | `invalid` |
| `Convert.envelopeText?` | `envelope_text` |
| `Convert.integer` | `integer_param` |
| `Convert.boolean` | `boolean_param` |
| `Convert.hexBytes?` | `decode_hex_bytea` |
| `Convert.bytea` | `bytea_param` |
| `Convert.temporalCell` | `parse_temporal` |
| `Convert.scalar` | `scalar_param` |
| `Convert.address` | `network_param` |
| `Convert.compositeLiteral` | `composite_literal` |
| `Convert.label` | `TypeConverter.enum_param` |
| `Convert.composite` | `TypeConverter.composite_param` |
| `Convert.elements` | `TypeConverter.elements_to_param` |
| `Convert.parameter` | `TypeConverter.array_param`, `TypeConverter.to_sql_param` |
| `Convert.ofText` | `TypeConverter.convert_text` |
-/
namespace TableGateway

/-- The type of the items of an array; any other type is that of its own items, so that arrays may
have more dimensions than were declared. -/
def ColumnType.element : ColumnType → ColumnType
  | array t => t
  | t => t

namespace Convert

open Text (trim)

/-- The fault of a value that has no form of the kind named. -/
def invalid (kind : String) (v : Json) : Fault :=
  .validation ("Invalid " ++ kind ++ " value: " ++ v.text)

/-! ## Scalars -/

/-- A string as it is, and the text of any other document. -/
def textOf : Json → String
  | .str s => s
  | v => v.text

/-- The text in an envelope: a string, the `value` of an object, or a number. -/
def envelopeText? : Json → Option String
  | .str s => some s
  | .obj members => (Entries.get? "value" members).bind Json.str?
  | .int n => some (Json.int n).text
  | .double d => some (Json.double d).text
  | _ => none

def integer (v : Json) : Except Fault Cell :=
  let found := match v with
    | .str s => Number.readInt? (trim s.toList)
    | v => v.int64?
  match found with
  | some n => .ok (.int n)
  | none => .error (invalid "integer" v)

def double (v : Json) : Except Fault Cell :=
  let found := match v with
    | .str s => Number.Double.read? (trim s.toList)
    | v => v.double?
  match found with
  | some d => .ok (.float d)
  | none => .error (invalid "number" v)

/-- A decimal number, kept as text. -/
def numeric (v : Json) : Except Fault Cell :=
  match v with
  | .int _ | .double _ => .ok (.text v.text)
  | .str s =>
    if (Number.Double.read? (trim s.toList)).isSome then .ok (.text (Text.trimmed s))
    else .error (invalid "numeric" v)
  | _ => .error (invalid "numeric" v)

def trueWords : List String := ["true", "t", "yes", "y", "on", "1"]

def falseWords : List String := ["false", "f", "no", "n", "off", "0"]

/-- A truth value, from itself, a word in any case, or 0 and 1. -/
def boolean (v : Json) : Except Fault Cell :=
  match v with
  | .bool b => .ok (.bool b)
  | .str s =>
    let word := Text.lowered (Text.trimmed s)
    if trueWords.contains word then .ok (.bool true)
    else if falseWords.contains word then .ok (.bool false)
    else .error (invalid "boolean" v)
  | .int n =>
    if n = 0 then .ok (.bool false)
    else if n = 1 then .ok (.bool true)
    else .error (invalid "boolean" v)
  | _ => .error (invalid "boolean" v)

/-- The document in a string, if it is one, and else the text of the string; any other document is
itself. -/
def document : Json → Cell
  | .str s => match Json.read? s with
    | some v => .json v
    | none => .text s
  | v => .json v

/-- A UUID, or the text of an envelope that holds none. -/
def uuid (v : Json) : Except Fault Cell :=
  match envelopeText? v with
  | some s => match Uuid.read? (trim s.toList) with
    | some u => .ok (.uuid u)
    | none => .ok (.text s)
  | none => .error (invalid "uuid" v)

/-- The bytes of hexadecimal digits after `\x`. -/
def hexBytes? (s : String) : Option (List UInt8) :=
  (Text.dropLead? ['\\', 'x'] s.toList).bind Text.Hex.decode?

/-- Bytes: hexadecimal after `\x`, the UTF-8 of any other string, or the base64 of an envelope. -/
def bytea (v : Json) : Except Fault Cell :=
  match v with
  | .str s =>
    if (Text.dropLead? ['\\', 'x'] s.toList).isSome then
      match hexBytes? s with
      | some bs => .ok (.bytes bs)
      | none => .error (invalid "hex bytea" v)
    else .ok (.bytes (Text.Utf8.bytes s))
  | .obj members =>
    match (Entries.get? "data" members).bind Json.str? with
    | some s => match Text.Base64.decode (Text.Utf8.bytes s) with
      | .ok bs => .ok (.bytes bs)
      | .error _ => .error (invalid "bytea" v)
    | none => .error (invalid "bytea" v)
  | _ => .error (invalid "bytea" v)

/-- A date or a time of the type, or the trimmed text if it is none. -/
def temporalCell (type : ScalarType) (s : String) : Cell :=
  let cs := trim s.toList
  let found : Option Cell := match type with
    | .date => (Calendar.Timestamp.read? cs).map fun t => .date t.date
    | .time => (Calendar.Clock.read? cs).map .time
    | .timestamp => (Calendar.Timestamp.read? cs).map .timestamp
    | .timestampTz =>
      ((Calendar.Timestamp.readZoned? cs).or (Calendar.Timestamp.read? cs)).map .timestampTz
    | _ => none
  found.getD (.text (String.ofList cs))

def temporal (type : ScalarType) (v : Json) : Except Fault Cell :=
  match envelopeText? v with
  | some s => .ok (temporalCell type s)
  | none => .error (invalid "date/time" v)

/-- A value of a type that is not known, by its own form. -/
def untyped : Json → Cell
  | .str s => .text s
  | .bool b => .bool b
  | .int n => match (Json.int n).int64? with
    | some i => .int i
    | none => .float (.ofInt n)
  | .double d => .float d
  | v => .json v

def scalar (type : ScalarType) (v : Json) : Except Fault Cell :=
  match type with
  | .smallInt | .integer | .bigInt => integer v
  | .real | .double => double v
  | .numeric => numeric v
  | .boolean => boolean v
  | .json | .jsonb => .ok (document v)
  | .uuid => uuid v
  | .bit _ | .varBit _ | .xml | .text => .ok (.text (textOf v))
  | .bytea => bytea v
  | .timestamp | .timestampTz | .date | .time | .interval => temporal type v
  | .other _ => .ok (untyped v)

/-- An address of a network type, trimmed. -/
def address (kind : Network.Kind) (v : Json) : Except Fault Cell :=
  match v with
  | .str s =>
    let s := Text.trimmed s
    if Network.isValid kind s then .ok (.text s) else .error (invalid kind.name v)
  | v => .error (invalid kind.name v)

/-! ## Types of the user -/

/-- The literal of a composite of some documents; `null` is the absent field. -/
def compositeLiteral (fields : List Json) : String :=
  String.ofList (Literal.writeComposite (fields.map fun
    | .null => none
    | v => some (textOf v).toList))

variable {σ : Type} (source : SchemaSource σ)

/-- A label of an enum. If the labels cannot be learnt, every text is accepted. -/
def label (name : String) (v : Json) : Lookup σ Cell := do
  let text := textOf v
  match ← (source.labels? name).attempt with
  | .ok (some labels) =>
    if labels.contains text then return .text text else throw (.invalidEnumValue name text)
  | _ => return .text text

/-- A composite: the list of its fields, an envelope of them, or an object by the names of the
fields. Anything else is taken as the text of a composite. -/
def composite (name : String) (v : Json) : Lookup σ Cell := do
  match v with
  | .arr fields => return .text (compositeLiteral fields)
  | .obj members =>
    if (Entries.get? "type" members).bind Json.str? = some "composite" then
      return .text (compositeLiteral (((Entries.get? "fields" members).bind Json.items?).getD []))
    else
      match ← source.fields? name with
      | some fields =>
        return .text (compositeLiteral (fields.map fun (field, _) =>
          (Entries.get? field members).getD .null))
      | none => throw (.validation ("Unknown composite type: " ++ name))
  | v => return .text (textOf v)

/-- A value of a type that is no array, other than `null`. -/
def single (type : ColumnType) (v : Json) : Lookup σ Cell :=
  match type with
  | .scalar t => known (scalar t v)
  | .network kind => known (address kind v)
  | .enumeration name => label source name v
  | .composite name => composite source name v
  | .array _ => return document v

/-! ## Arrays -/

/-- The text of a string that begins an array literal, after white space. -/
def arrayText? : Json → Option String
  | .str s => if (Text.trimStart s.toList).head? = some '\x7b' then some s else none
  | _ => none

mutual

/-- The parameter of an item of an array literal. An array within it has the type of the items'
items. -/
def element (type : ColumnType) : Literal.Element → Lookup σ Cell
  | .null => return .null
  | .nested inner => return .array (← elements type.element inner)
  | .item s => single source type.baseElement (.str s)

def elements (type : ColumnType) : List Literal.Element → Lookup σ (List Cell)
  | [] => return []
  | item :: rest => do
    let cell ← element type item
    return cell :: (← elements type rest)

end

/-- A value that is neither `null` nor a list. For an array type it is an array literal, or the only
item of an array. -/
def alone : ColumnType → Json → Lookup σ Cell
  | .array inner, v =>
    match arrayText? v with
    | some s => do
      let items ← known (Literal.readArray s)
      return .array (← elements source inner items)
    | none => return .array [← alone inner v]
  | type, v => single source type v

mutual

/-- The parameter of a column type that a document stands for. -/
def parameter (type : ColumnType) : Json → Lookup σ Cell
  | .null => return .null
  | .arr items =>
    match type with
    | .array inner => return .array (← parameters inner items)
    | type => single source type (.arr items)
  | v => alone source type v

/-- The parameters of the items of a list. A list within it has the type of the items' items. -/
def parameters (type : ColumnType) : List Json → Lookup σ (List Cell)
  | [] => return []
  | .arr inner :: rest => do
    let cells ← parameters type.element inner
    return .array cells :: (← parameters type rest)
  | item :: rest => do
    let cell ← parameter type item
    return cell :: (← parameters type rest)

end

/-- The parameter of a column type that a text of a URL stands for. -/
def ofText (type : ColumnType) (s : String) : Lookup σ Cell := alone source type (.str s)

end Convert
end TableGateway
