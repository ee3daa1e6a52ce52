import TableGateway.Entries
import TableGateway.Fault
import TableGateway.Schema.ColumnType

/-!
# Tables and snapshots

What is known of a database's tables, enums and composite types at one time. Main statement:
the tables that refer to a table are listed by name (`Snapshot.referencing`).
Section 3 of the specification.

| here | in the service |
| --- | --- |
| `Column.ofTag` | `ColumnInfo.new` |
| `Table.column?` | `TableInfo.column` |
| `Table.hasColumn` | `TableInfo.has_column` |
| `Table.key` | `TableInfo.primary_key_columns` |
| `Table.refer` | `TableInfo.with_foreign_key` |
| `Snapshot.withTable` | `SchemaSnapshot.with_table` |
| `Snapshot.table?` | `SchemaSnapshot.table` |
| `Snapshot.columns` | `SchemaSnapshot.columns` |
| `Snapshot.referencing` | `SchemaSnapshot.referencing_tables` |
-/
namespace TableGateway

structure Column where
  name : String
  /-- The tag under which the catalog knows the type. -/
  tag : String
  /-- The type that the tag stands for. -/
  type : ColumnType
  nullable : Bool := true
  isKey : Bool := false
  hasDefault : Bool := false
  deriving DecidableEq, Repr

/-- A column with the type of its tag, which may be null. -/
def Column.ofTag (name tag : String) : Column := { name, tag, type := .ofTag tag }

/-- A column that refers to a column of a table. -/
structure ForeignKey where
  name : String
  column : String
  table : String
  target : String
  deriving DecidableEq, Repr

/-- A table or a view. -/
structure Table where
  name : String
  columns : List Column
  schema : String := "public"
  foreignKeys : List ForeignKey := []
  isView : Bool := false
  deriving DecidableEq, Repr

namespace Table

def column? (table : Table) (name : String) : Option Column :=
  table.columns.find? (·.name = name)

def hasColumn (table : Table) (name : String) : Bool := (table.column? name).isSome

/-- The columns of the primary key, in declared order. -/
def key (table : Table) : List Column := table.columns.filter (·.isKey)

def refer (table : Table) (column target targetColumn : String) : Table :=
  { table with foreignKeys := table.foreignKeys ++
      [⟨table.name ++ "_" ++ column ++ "_fkey", column, target, targetColumn⟩] }

end Table

/-- The tables, enums and composite types of a database at one time. -/
structure Snapshot where
  tables : Entries Table := []
  /-- The labels of each enum. -/
  enums : Entries (List String) := []
  /-- The fields of each composite type with the tags of their types, in declared order. -/
  composites : Entries (List (String × String)) := []
  deriving DecidableEq, Repr, Inhabited

namespace Snapshot

/-- Add a table, in place of one with the same name. -/
def withTable (s : Snapshot) (table : Table) : Snapshot :=
  { s with tables := s.tables.insert table.name table }

def table? (s : Snapshot) (name : String) : Option Table := s.tables.get? name

def columns (s : Snapshot) (name : String) : Except Fault (List Column) :=
  match s.table? name with
  | some table => .ok table.columns
  | none => .error (.tableNotFound name)

/-- The foreign keys of some tables that refer to the table with the name, by the names of the
tables and in declared order within a table. The sort is stable, so the order of the tables in the
list does not matter. -/
def referencesAmong (tables : List Table) (name : String) : List (Table × ForeignKey) :=
  (tables.flatMap fun table =>
    (table.foreignKeys.filter (·.table = name)).map (table, ·)).mergeSort
      fun a b => a.1.name ≤ b.1.name

/-- The foreign keys of all tables that refer to the table with the name. -/
def referencing (s : Snapshot) (name : String) : List (Table × ForeignKey) :=
  referencesAmong (s.tables.map (·.2)) name

end Snapshot
end TableGateway
