import TableGateway.Query.Page
import TableGateway.Statement.Condition
import TableGateway.Statement.Order

/-!
# Statements

The statements that the gateway hands to a database, as data. `Statement.sql` is the text with a `?`
for each parameter, and `Statement.params` the parameters in order.
Section 4.3 of the specification.

| here | in the service |
| --- | --- |
| `orderSql` | `order_by_sql` |
| `sizeCell` | `to_i64` |
| `Statement.sql` | `QueryBuilder.count`, `QueryBuilder.delete` |
| `describe` | `describe` |
-/
namespace TableGateway

/-- The columns that a statement reads. -/
inductive Projection where
  | all
  | columns (names : List String)
  deriving DecidableEq, Repr

def Projection.sql : Projection → String
  | all => "*"
  | columns names => joined ", " names

structure Selection where
  table : String
  projection : Projection := .all
  filter : Where := []
  order : List OrderTerm := []
  page : Option Page := none
  deriving Repr

/-- What an insert does about rows that are there already. -/
structure Conflict where
  /-- The columns by which rows are told apart. -/
  key : List String
  /-- The columns that take their new values; without any, the old row stays. -/
  updates : List String
  deriving DecidableEq, Repr

/-- A value to be written, and its place. -/
structure Bound where
  mark : Mark
  value : Cell
  deriving Repr

structure Insertion where
  table : String
  columns : List String
  /-- A value for each column of each row, or its default. -/
  rows : List (List (Option Bound))
  conflict : Option Conflict := none
  returning : Bool := false
  deriving Repr

/-- A column that takes a new value. -/
structure Assignment where
  column : String
  bound : Bound
  deriving Repr

inductive Statement where
  /-- Ask whether the role has a privilege on a table, named with its schema. -/
  | privilege (table privilege : String)
  | select (s : Selection)
  /-- Count the rows that a selection would read without its page. -/
  | count (table : String) (filter : Where)
  /-- Insert one row of defaults. -/
  | insertDefaults (table : String) (returning : Bool)
  | insert (i : Insertion)
  | update (table : String) (assignments : List Assignment) (filter : Where) (returning : Bool)
  | delete (table : String) (filter : Where)
  deriving Repr

/-- The text of an order, with a blank before it. -/
def orderSql (order : List OrderTerm) : String :=
  if order.isEmpty then "" else " ORDER BY " ++ joined ", " (order.map OrderTerm.sql)

/-- A number of rows as a parameter; numbers beyond the largest integer become that. -/
def sizeCell (n : Nat) : Cell := .int (Int64.ofInt (min (n : Int) Number.maxInt))

namespace Selection

def sql (s : Selection) : String :=
  "SELECT " ++ s.projection.sql ++ " FROM " ++ s.table ++ Where.sql s.filter ++ orderSql s.order ++
    (if s.page.isSome then " LIMIT ? OFFSET ?" else "")

def params (s : Selection) : List Cell :=
  Where.params s.filter ++
    match s.page with
    | some page => [sizeCell page.limit, sizeCell page.offset]
    | none => []

end Selection

def Conflict.sql (c : Conflict) : String :=
  " ON CONFLICT (" ++ joined ", " c.key ++ ")" ++
    if c.updates.isEmpty then " DO NOTHING"
    else " DO UPDATE SET " ++ joined ", " (c.updates.map fun name => name ++ " = EXCLUDED." ++ name)

namespace Insertion

def cellSql : Option Bound → String
  | some b => b.mark.sql
  | none => "DEFAULT"

def rowSql (row : List (Option Bound)) : String := "(" ++ joined ", " (row.map cellSql) ++ ")"

def rowParams (row : List (Option Bound)) : List Cell :=
  row.filterMap fun b => b.map Bound.value

def sql (i : Insertion) : String :=
  "INSERT INTO " ++ i.table ++ " (" ++ joined ", " i.columns ++ ") VALUES " ++
    joined ", " (i.rows.map rowSql) ++ (i.conflict.elim "" Conflict.sql) ++
    (if i.returning then " RETURNING *" else "")

def params (i : Insertion) : List Cell := i.rows.flatMap rowParams

end Insertion

def Assignment.sql (a : Assignment) : String := a.column ++ " = " ++ a.bound.mark.sql

namespace Statement

def sql : Statement → String
  | privilege .. => "SELECT has_table_privilege(?, ?) AS allowed"
  | select s => s.sql
  | count table filter => "SELECT COUNT(*) AS count FROM " ++ table ++ Where.sql filter
  | insertDefaults table returning =>
    "INSERT INTO " ++ table ++ " DEFAULT VALUES" ++ (if returning then " RETURNING *" else "")
  | insert i => i.sql
  | update table assignments filter returning =>
    "UPDATE " ++ table ++ " SET " ++ joined ", " (assignments.map Assignment.sql) ++
      Where.sql filter ++ (if returning then " RETURNING *" else "")
  | delete table filter => "DELETE FROM " ++ table ++ Where.sql filter

def params : Statement → List Cell
  | privilege table name => [.text table, .text name]
  | select s => s.params
  | count _ filter => Where.params filter
  | insertDefaults .. => []
  | insert i => i.params
  | update _ assignments filter _ => assignments.map (·.bound.value) ++ Where.params filter
  | delete _ filter => Where.params filter

end Statement

/-- A statement with its parameters as one line of text. -/
def describe (sql : String) (params : List Cell) : String :=
  if params.isEmpty then sql
  else sql ++ " -- params: [" ++ joined ", " (params.map Cell.literal) ++ "]"

end TableGateway
