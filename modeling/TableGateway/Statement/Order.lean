import TableGateway.Naming
import TableGateway.Query.Params

/-!
# Orders

The order of a result: columns with a direction and a place for nulls.
Section 4.3 of the specification.

| here | in the service |
| --- | --- |
| `OrderTerm.sql` | `OrderClause.to_sql` |
| `OrderTerm.reversed` | `OrderClause.reversed` |
| `OrderTerm.parseAll` | `parse_order` |
| `OrderTerm.ofParams` | `order_from_params` |
-/
namespace TableGateway

inductive Direction where
  | asc | desc
  deriving DecidableEq, Repr

inductive Nulls where
  | first | last
  deriving DecidableEq, Repr

/-- A column by which rows are ordered. -/
structure OrderTerm where
  column : String
  direction : Direction := .asc
  nulls : Option Nulls := none
  deriving DecidableEq, Repr

def Direction.reversed : Direction → Direction
  | asc => desc
  | desc => asc

def Direction.sql : Direction → String
  | asc => "ASC"
  | desc => "DESC"

def Nulls.reversed : Nulls → Nulls
  | first => last
  | last => first

def Nulls.sql : Nulls → String
  | first => "NULLS FIRST"
  | last => "NULLS LAST"

namespace OrderTerm

def sql (t : OrderTerm) : String :=
  let base := t.column ++ " " ++ t.direction.sql
  match t.nulls with
  | some nulls => base ++ " " ++ nulls.sql
  | none => base

/-- The same column walked the other way. -/
def reversed (t : OrderTerm) : OrderTerm :=
  { t with direction := t.direction.reversed, nulls := t.nulls.map Nulls.reversed }

/-- A term changed by a modifier in small letters. -/
def modify? (t : OrderTerm) (modifier : String) : Option OrderTerm :=
  if modifier = "asc" then some { t with direction := .asc }
  else if modifier = "desc" then some { t with direction := .desc }
  else if modifier = "nullsfirst" then some { t with nulls := some .first }
  else if modifier = "nullslast" then some { t with nulls := some .last }
  else none

/-- The term of a text: a column, and modifiers after points. -/
def parse (table : Table) (cs : List Char) : Except Fault OrderTerm := do
  let parts := cs.splitOn '.'
  let column ← table.resolve (String.ofList (parts.headD []))
  parts.tail.foldlM (fun (t : OrderTerm) modifier =>
    let word := String.ofList (Text.lower modifier)
    match t.modify? word with
    | some t => .ok t
    | none => .error (.invalidParam ("unknown order modifier '" ++ word ++ "' in '" ++
        String.ofList cs ++ "'"))) { column := column.name }

/-- The terms of a text, with commas between them. -/
def parseAll (table : Table) (s : String) : Except Fault (List OrderTerm) :=
  (Text.items ',' s.toList).mapM (parse table)

/-- The order of a request: `order`, or `orderBy` with an `orderDirection`. -/
def ofParams (table : Table) (params : Params) : Except Fault (List OrderTerm) :=
  match params.first? "order" with
  | some s => parseAll table s
  | none =>
    match params.first? "orderBy" with
    | none => .ok []
    | some name => do
      let word := Text.lowered ((params.first? "orderDirection").getD "asc")
      let direction ←
        if word = "asc" then pure Direction.asc
        else if word = "desc" then pure Direction.desc
        else throw (.invalidParam ("orderDirection must be asc or desc, got '" ++ word ++ "'"))
      let column ← table.resolve name
      return [{ column := column.name, direction }]

end OrderTerm
end TableGateway
