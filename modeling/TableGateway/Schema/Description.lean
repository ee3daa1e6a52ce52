import TableGateway.Config
import TableGateway.Schema.Table

/-!
# Schema descriptions

A schema as a client describes it: tables with their columns and foreign keys, enums and composite
types. A description becomes a `Snapshot` if every reference names a table and a column.

In the service, a description becomes a snapshot by `SchemaFile.into_snapshot`.
-/
namespace TableGateway

open Json (Surplus field required asText asBool asList)

structure ColumnDescription where
  name : String
  tag : String
  primaryKey : Bool := false
  notNull : Bool := false
  hasDefault : Bool := false
  deriving DecidableEq, Repr

/-- A described reference of a column to `table.column`. -/
structure ReferenceDescription where
  column : String
  target : String
  deriving DecidableEq, Repr

structure TableDescription where
  name : String
  schema : Option String := none
  view : Bool := false
  columns : List ColumnDescription
  foreignKeys : List ReferenceDescription := []
  deriving DecidableEq, Repr

/-- A described schema. -/
structure Description where
  tables : List TableDescription := []
  enums : Entries (List String) := []
  composites : Entries (List (String × String)) := []
  deriving DecidableEq, Repr

/-! ## Reading -/

section

variable (surplus : Surplus)

def ColumnDescription.ofJson? (v : Json) : Option ColumnDescription := do
  let members ← v.fields? surplus ["name", "type", "primary_key", "not_null", "has_default"]
  let name ← required members "name" asText
  let tag ← required members "type" asText
  let primaryKey ← field members "primary_key" asBool false
  let notNull ← field members "not_null" asBool false
  let hasDefault ← field members "has_default" asBool false
  return { name, tag, primaryKey, notNull, hasDefault }

def ReferenceDescription.ofJson? (v : Json) : Option ReferenceDescription := do
  let members ← v.fields? surplus ["column", "references"]
  let column ← required members "column" asText
  let target ← required members "references" asText
  return { column, target }

def Json.asOptionalText : Json → Option (Option String)
  | null => some none
  | str s => some (some s)
  | _ => none

def TableDescription.ofJson? (v : Json) : Option TableDescription := do
  let members ← v.fields? surplus ["name", "schema", "view", "columns", "foreign_keys"]
  let name ← required members "name" asText
  let schema ← field members "schema" Json.asOptionalText none
  let view ← field members "view" asBool false
  let columns ← required members "columns" (asList (ColumnDescription.ofJson? surplus))
  let foreignKeys ← field members "foreign_keys" (asList (ReferenceDescription.ofJson? surplus)) []
  return { name, schema, view, columns, foreignKeys }

/-- A field of a composite type, with the tag of its type, from a document. -/
def fieldOfJson? (v : Json) : Option (String × String) := do
  let members ← v.fields? surplus ["name", "type"]
  let name ← required members "name" asText
  let tag ← required members "type" asText
  return (name, tag)

/-- Values under names, all of one form, from a document. -/
def Json.asEntries {α : Type} (item : Json → Option α) : Json → Option (Entries α)
  | obj members => members.mapM fun (name, v) => (item v).map (name, ·)
  | _ => none

def Description.ofJson? (v : Json) : Option Description := do
  let members ← v.fields? surplus ["tables", "enums", "composites"]
  let tables ← field members "tables" (asList (TableDescription.ofJson? surplus)) []
  let enums ← field members "enums" (Json.asEntries (asList asText)) []
  let composites ← field members "composites" (Json.asEntries (asList (fieldOfJson? surplus))) []
  return { tables, enums, composites }

end

/-! ## Snapshots -/

/-- The column described. A key column cannot be null. -/
def ColumnDescription.column (d : ColumnDescription) : Column :=
  { Column.ofTag d.name d.tag with
    nullable := !(d.primaryKey || d.notNull)
    isKey := d.primaryKey
    hasDefault := d.hasDefault }

def ReferenceDescription.addTo (d : ReferenceDescription) (table : Table) : Except Fault Table :=
  match Text.cutString? '.' d.target with
  | some (target, column) => .ok (table.refer d.column target column)
  | none => .error (.config (table.name ++ "." ++ d.column ++ ": foreign key reference '" ++
      d.target ++ "' must be table.column"))

def TableDescription.table (d : TableDescription) : Except Fault Table :=
  let bare : Table :=
    { name := d.name, columns := d.columns.map ColumnDescription.column
      schema := d.schema.getD "public", isView := d.view }
  d.foreignKeys.foldlM (fun table reference => reference.addTo table) bare

/-- The snapshot described. Of two tables with one name the later counts. -/
def Description.snapshot (d : Description) : Except Fault Snapshot := do
  let tables ← d.tables.mapM TableDescription.table
  let bare : Snapshot := { enums := d.enums, composites := d.composites }
  return tables.foldl Snapshot.withTable bare

def Snapshot.ofJson (surplus : Surplus) (v : Json) : Except Fault Snapshot :=
  match Description.ofJson? surplus v with
  | some d => d.snapshot
  | none => .error .unfit

end TableGateway
