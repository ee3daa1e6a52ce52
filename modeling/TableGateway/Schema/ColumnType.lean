import TableGateway.Network
import TableGateway.Text.Cut

/-!
# Column types

Types of columns, classified from the tags of the catalog, and their names in SQL.
Section 10.1 of the specification.

| here | in the service |
| --- | --- |
| `ScalarType.modifier?` | `modifier` |
| `ScalarType.ofTag` | `ScalarType.parse` |
| `ScalarType.sqlName` | `ScalarType.sql_name` |
| `ColumnType.ofTag` | `ColumnType.parse` |
| `ColumnType.sqlName` | `ColumnType.sql_name` |
| `ColumnType.baseElement` | `ColumnType.base_element` |
| `ColumnType.isArray` | `ColumnType.is_array` |
| `ColumnType.isTemporal` | `ColumnType.is_temporal` |
| `ColumnType.isJson` | `ColumnType.is_json` |
-/
namespace TableGateway

/-- A type that is neither an array nor defined by the user. -/
inductive ScalarType where
  | smallInt | integer | bigInt | numeric | real | double
  | boolean | text | json | jsonb | uuid
  | bit (length : Option Nat)
  | varBit (length : Option Nat)
  | bytea | xml
  | timestamp | timestampTz | date | time | interval
  | other (name : String)
  deriving DecidableEq, Repr

inductive ColumnType where
  | scalar (type : ScalarType)
  | array (element : ColumnType)
  | enumeration (name : String)
  | composite (name : String)
  | network (kind : Network.Kind)
  deriving DecidableEq, Repr

namespace ScalarType

/-- The length in `(n)`, if it is a number. A text that is no such suffix gives `none`. -/
def length? (cs : List Char) : Option (Option Nat) :=
  (Text.unwrap? '(' ')' (Text.trim cs)).map fun n => Number.readNat? Number.maxWord (Text.trim n)

/-- The length modifier of a tag that begins with the type name `name`. -/
def modifier? (name : String) (tag : List Char) : Option (Option Nat) :=
  if tag = name.toList then some none
  else (Text.dropLead? name.toList tag).bind length?

/-- The names of the types without a length, each with its spellings. -/
def spellings : List (ScalarType × List String) :=
  [ (smallInt, ["smallint", "int2", "smallserial"]),
    (integer, ["integer", "int", "int4", "serial"]),
    (bigInt, ["bigint", "int8", "bigserial"]),
    (numeric, ["numeric", "decimal"]),
    (real, ["real", "float4"]),
    (double, ["double precision", "float8", "float"]),
    (boolean, ["boolean", "bool"]),
    (text, ["text", "varchar", "character varying", "char", "character", "bpchar", "name",
      "citext"]),
    (json, ["json"]),
    (jsonb, ["jsonb"]),
    (uuid, ["uuid"]),
    (bytea, ["bytea"]),
    (xml, ["xml"]),
    (timestamp, ["timestamp", "timestamp without time zone"]),
    (timestampTz, ["timestamptz", "timestamp with time zone"]),
    (date, ["date"]),
    (time, ["time", "time without time zone", "timetz", "time with time zone"]),
    (interval, ["interval"]) ]

/-- The type that a name spells; a name not known stays as it is. -/
def named (name : String) : ScalarType :=
  match spellings.find? fun (_, names) => names.contains name with
  | some (type, _) => type
  | none => other name

/-- Classify a tag in small letters. A length is kept for bit strings and dropped otherwise. -/
def ofTag (tag : List Char) : ScalarType :=
  match (modifier? "bit varying" tag).or (modifier? "varbit" tag) with
  | some n => varBit n
  | none =>
    match modifier? "bit" tag with
    | some n => bit n
    | none => named (String.ofList (Text.trim (tag.takeWhile (· != '('))))

/-- A type name with its length, if it has one. -/
def sized (name : String) : Option Nat → String
  | some n => name ++ "(" ++ toString n ++ ")"
  | none => name

def sqlName : ScalarType → String
  | smallInt => "smallint"
  | integer => "integer"
  | bigInt => "bigint"
  | numeric => "numeric"
  | real => "real"
  | double => "double precision"
  | boolean => "boolean"
  | text => "text"
  | json => "json"
  | jsonb => "jsonb"
  | uuid => "uuid"
  | bit n => sized "bit" n
  | varBit n => sized "varbit" n
  | bytea => "bytea"
  | xml => "xml"
  | timestamp => "timestamp"
  | timestampTz => "timestamptz"
  | date => "date"
  | time => "time"
  | interval => "interval"
  | other name => name

def isTemporal : ScalarType → Bool
  | timestamp | timestampTz | date | time | interval => true
  | _ => false

end ScalarType

namespace ColumnType

/-- What marks an enum type in a tag. -/
def enumTag : String := "postgres_enum:"

/-- What marks a composite type in a tag. -/
def compositeTag : String := "postgres_composite:"

/-- Classify a tag whose array brackets are at most `fuel`. -/
def ofTagWithin : Nat → List Char → ColumnType
  | 0, tag => .scalar (.other (String.ofList tag))
  | fuel + 1, tag =>
    let tag := Text.trim tag
    match Text.dropLead? enumTag.toList tag with
    | some name => .enumeration (String.ofList name)
    | none =>
      match Text.dropLead? compositeTag.toList tag with
      | some name => .composite (String.ofList name)
      | none =>
        let tag := Text.lower tag
        match (Text.dropTail? "[]".toList tag).or (Text.dropLead? ['_'] tag) with
        | some element => .array (ofTagWithin fuel element)
        | none =>
          if tag = "array".toList then .array (.scalar .text)
          else if tag = "inet".toList then .network .inet
          else if tag = "cidr".toList then .network .cidr
          else if tag = "macaddr".toList then .network .macaddr
          else if tag = "macaddr8".toList then .network .macaddr8
          else .scalar (.ofTag tag)

/-- Classify a catalog tag. Arrays are marked by `[]` behind or `_` before the element's tag; a tag
that is not known is a scalar of its own. -/
def ofTag (tag : String) : ColumnType := ofTagWithin (tag.length + 1) tag.toList

def sqlName : ColumnType → String
  | scalar type => type.sqlName
  | array element => element.sqlName ++ "[]"
  | enumeration name | composite name => name
  | network kind => kind.name

/-- The innermost element type of an array; any other type is its own. -/
def baseElement : ColumnType → ColumnType
  | array element => element.baseElement
  | type => type

def isArray : ColumnType → Bool
  | array _ => true
  | _ => false

def isTemporal : ColumnType → Bool
  | scalar type => type.isTemporal
  | _ => false

def isJson : ColumnType → Bool
  | scalar .json | scalar .jsonb => true
  | _ => false

end ColumnType
end TableGateway
