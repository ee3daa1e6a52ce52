import TableGateway.Filter.Conditions
import TableGateway.Statement.Basic
import TableGateway.Statement.Key

/-!
# Statements for requests

The statements of one table for the parts of a request: its columns, its key and its records. Every
name in them is resolved against the table, and every value is bound in the type of its column.
Section 4.3 of the specification.

| here | in the service |
| --- | --- |
| `Build.projection` | `QueryBuilder.select_clause` |
| `Build.keyFilter` | `QueryBuilder.key_filter` |
| `Build.columnsOf` | `QueryBuilder.record_columns` |
| `Build.row` | `QueryBuilder.insert_values` |
| `Build.insertAll` | `QueryBuilder.bulk_insert` |
| `Build.insert` | `QueryBuilder.insert` |
| `Build.upsertAll` | `QueryBuilder.bulk_upsert` |
| `Build.upsert` | `QueryBuilder.upsert` |
| `Build.update` | `QueryBuilder.update` |
-/
namespace TableGateway.Build

variable {σ : Type} (source : SchemaSource σ)

/-- The columns named, or all of them if none is. -/
def projection (table : Table) (names : Option (List String)) : Except Fault Projection :=
  match names with
  | none | some [] => .ok .all
  | some names => (table.resolveAll names).map fun columns => .columns (columns.map (·.name))

/-- The comparison of a key column with its part of a key. -/
def keyCondition (table : Table) (column : Column) (part : String) : Lookup σ Conjunct := do
  let resolved ← known (table.resolve column.name)
  let value ← Convert.ofText source column.type part
  return .one { column := resolved.name, predicate := .compare .eq column.type.mark value }

def keyFilter (table : Table) (key : String) : Lookup σ Where := do
  let parts ← known (Key.parse table key)
  parts.mapM fun (column, part) => keyCondition source table column part

/-! ## Writing -/

/-- The names in some records are columns of the table. -/
def checkNames (table : Table) (records : List Record) : Except Fault Unit :=
  records.forM fun record => (Entries.keys record).forM fun name => (table.resolve name).map fun _ => ()

/-- The columns that any of some records names, in declared order. -/
def columnsOf (table : Table) (records : List Record) : List Column :=
  table.columns.filter fun column => records.any fun record => Entries.has column.name record

/-- The value of a column in a record, if the record has one. -/
def bound? (record : Record) (column : Column) : Lookup σ (Option Bound) :=
  match Entries.get? column.name record with
  | some v => return some ⟨column.type.mark, ← Convert.parameter source column.type v⟩
  | none => return none

def row (columns : List Column) (record : Record) : Lookup σ (List (Option Bound)) :=
  columns.mapM (bound? source record)

/-- An insertion of some records. A column that a record does not name takes its default. -/
def insertion (table : Table) (records : List Record) : Lookup σ (List Column × Insertion) := do
  if records.isEmpty then throw (.validation "Empty insert payload")
  known (checkNames table records)
  let columns := columnsOf table records
  if columns.isEmpty then throw (.validation "Insert payload names no columns")
  let rows ← records.mapM (row source columns)
  return (columns, { table := table.name, columns := columns.map (·.name), rows })

def insertAll (table : Table) (records : List Record) (returning : Bool) :
    Lookup σ Statement := do
  let (_, i) ← insertion source table records
  return .insert { i with returning }

/-- The statement that inserts a record; an empty one is a row of defaults. -/
def insert (table : Table) (record : Record) (returning : Bool) : Lookup σ Statement :=
  if record.isEmpty then return .insertDefaults table.name returning
  else insertAll source table [record] returning

/-- The statement that inserts some records, or updates the rows that have their keys. -/
def upsertAll (table : Table) (records : List Record) : Lookup σ Statement := do
  let key := table.key
  if key.isEmpty then
    throw (.validation ("Upsert requires a primary key on " ++ table.name))
  let (columns, i) ← insertion source table records
  let updates := (columns.filter (!·.isKey)).map (·.name)
  return .insert { i with conflict := some ⟨key.map (·.name), updates⟩, returning := true }

def upsert (table : Table) (record : Record) : Lookup σ Statement := upsertAll source table [record]

/-- The new value of a column, which is null if the record has none. -/
def assignment (record : Record) (column : Column) : Lookup σ Assignment := do
  let v := (Entries.get? column.name record).getD .null
  return ⟨column.name, ⟨column.type.mark, ← Convert.parameter source column.type v⟩⟩

def update (table : Table) (record : Record) (filter : Where) (returning : Bool) :
    Lookup σ Statement := do
  if record.isEmpty then throw (.validation "Update requires at least one column")
  known (checkNames table [record])
  let assignments ← (columnsOf table [record]).mapM (assignment source record)
  return .update table.name assignments filter returning

end TableGateway.Build
