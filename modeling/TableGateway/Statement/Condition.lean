import TableGateway.Cell
import TableGateway.Schema.ColumnType

/-!
# Conditions

The conditions of a statement as data, each with the values that it binds. `sql` writes a condition
with a `?` for each value; `params` lists the values in the order of these marks.
Section 4.1 of the specification.

| here | in the service |
| --- | --- |
| `ColumnType.mark` | `placeholder` |
| `arrayLiteral` | `quoted_array` |
| `Where.sql` | `WhereClause.is_empty`, `WhereClause.to_sql` |
-/
namespace TableGateway

def joined (separator : String) : List String → String
  | [] => ""
  | [s] => s
  | s :: t :: rest => s ++ separator ++ joined separator (t :: rest)

/-- The place of a parameter, which may be cast to a type. -/
structure Mark where
  cast : Option String := none
  deriving DecidableEq, Repr

def Mark.sql (m : Mark) : String :=
  match m.cast with
  | none => "?"
  | some type => "?::" ++ type

def ScalarType.isCast : ScalarType → Bool
  | json | jsonb | uuid | bit _ | varBit _ | xml | numeric | interval => true
  | _ => false

def ColumnType.mark (type : ColumnType) : Mark :=
  match type with
  | scalar t => if t.isCast then ⟨some t.sqlName⟩ else ⟨none⟩
  | type => ⟨some type.sqlName⟩

inductive Comparison where
  | eq | ne | gt | ge | lt | le
  deriving DecidableEq, Repr

def Comparison.symbol : Comparison → String
  | eq => "="
  | ne => "<>"
  | gt => ">"
  | ge => ">="
  | lt => "<"
  | le => "<="

/-- How the words of a text search are read. -/
inductive Search where
  | words | phrase | web
  deriving DecidableEq, Repr

def Search.function : Search → String
  | words => "plainto_tsquery"
  | phrase => "phraseto_tsquery"
  | web => "websearch_to_tsquery"

inductive Predicate where
  /-- The value compares to another one. -/
  | compare (comparison : Comparison) (mark : Mark) (value : Cell)
  /-- The text has the form of a pattern. -/
  | like (caseless : Bool) (pattern : String)
  /-- The value is one of a list, or none of it. -/
  | oneOf (excluded : Bool) (mark : Mark) (values : List Cell)
  | isNull
  | isNotNull
  /-- The document has a key. -/
  | hasKey (key : String)
  /-- The document has all of some keys, or any of them. -/
  | hasKeys (all : Bool) (keys : List String)
  /-- The document contains another one. -/
  | contains (document : Json)
  /-- Another document contains this one. -/
  | containedIn (document : Json)
  /-- The document has a key, asked for by the operator `?`. -/
  | keyExists (key : String)
  /-- The path leads somewhere in the document. -/
  | pathFound (path : String)
  /-- The predicate of the path holds of the document. -/
  | pathHolds (path : String)
  /-- The array has an item. -/
  | hasItem (element : String) (value : Cell)
  /-- The array has any of some items. -/
  | overlaps (element : String) (items : List String)
  /-- The array has all of some items. -/
  | hasItems (values : List Cell)
  /-- The array has so many items. -/
  | lengthIs (n : Int64)
  /-- The text has the words searched for. -/
  | found (search : Search) (words : String)
  deriving Repr

/-- A text as a literal, with its quotes doubled. -/
def quotedLiteral (s : String) : String :=
  "'" ++ String.ofList (s.toList.flatMap fun c => if c = '\'' then ['\'', '\''] else [c]) ++ "'"

def arrayLiteral (items : List String) : String :=
  "ARRAY[" ++ joined "," (items.map quotedLiteral) ++ "]"

namespace Predicate

def sql (column : String) : Predicate → String
  | compare comparison mark _ => column ++ " " ++ comparison.symbol ++ " " ++ mark.sql
  | like false _ => column ++ " LIKE ?"
  | like true _ => column ++ " ILIKE ?"
  | oneOf excluded mark values =>
    column ++ (if excluded then " NOT IN (" else " IN (") ++
      joined "," (values.map fun _ => mark.sql) ++ ")"
  | isNull => column ++ " IS NULL"
  | isNotNull => column ++ " IS NOT NULL"
  | hasKey _ => "jsonb_exists(" ++ column ++ ", ?)"
  | hasKeys all keys => column ++ (if all then " ?& " else " ?| ") ++ arrayLiteral keys
  | contains _ => column ++ " @> ?::jsonb"
  | containedIn _ => column ++ " <@ ?::jsonb"
  | keyExists _ => column ++ " ? ?"
  | pathFound _ => column ++ " @? ?::jsonpath"
  | pathHolds _ => column ++ " @@ ?::jsonpath"
  | hasItem element _ => column ++ " @> ARRAY[?]::" ++ element ++ "[]"
  | overlaps element items => column ++ " && " ++ arrayLiteral items ++ "::" ++ element ++ "[]"
  | hasItems _ => column ++ " @> ?"
  | lengthIs _ => "array_length(" ++ column ++ ",1) = ?"
  | found search _ =>
    "to_tsvector('english', " ++ column ++ ") @@ " ++ search.function ++ "('english', ?)"

def params : Predicate → List Cell
  | compare _ _ value => [value]
  | like _ pattern => [.text pattern]
  | oneOf _ _ values => values
  | isNull | isNotNull | hasKeys .. | overlaps .. => []
  | hasKey key | keyExists key => [.text key]
  | contains document | containedIn document => [.json document]
  | pathFound path | pathHolds path => [.text path]
  | hasItem _ value => [value]
  | hasItems values => [.array values]
  | lengthIs n => [.int n]
  | found _ words => [.text words]

end Predicate

/-- A predicate of a column, or its negation. -/
structure Condition where
  column : String
  negated : Bool := false
  predicate : Predicate
  deriving Repr

namespace Condition

def sql (c : Condition) : String :=
  let inner := c.predicate.sql c.column
  if c.negated then "NOT (" ++ inner ++ ")" else inner

def params (c : Condition) : List Cell := c.predicate.params

end Condition

/-- A part of a conjunction: a condition, or alternatives of which one must hold. -/
inductive Conjunct where
  | one (condition : Condition)
  | anyOf (conditions : List Condition)
  deriving Repr

namespace Conjunct

def sql : Conjunct → String
  | one c => c.sql
  | anyOf cs => "(" ++ joined " OR " (cs.map Condition.sql) ++ ")"

def params : Conjunct → List Cell
  | one c => c.params
  | anyOf cs => cs.flatMap Condition.params

end Conjunct

/-- The conjunction of conditions that chooses rows. -/
abbrev Where := List Conjunct

namespace Where

def fragments (w : Where) : List String := w.map Conjunct.sql

/-- The clause with a blank before it; no conditions need no clause. -/
def sql (w : Where) : String :=
  if w.isEmpty then "" else " WHERE " ++ joined " AND " (fragments w)

def params (w : Where) : List Cell := w.flatMap Conjunct.params

end Where
end TableGateway
