import TableGateway.Schema.Table

/-!
# Sources of the schema

Where an operation learns about tables, enums and composite types. A source has a state, since a
cache fills as it is read; every lookup is a reading of the current snapshot.
Section 10.4 of the specification.

| here | in the service |
| --- | --- |
| `SchemaSource.fixed` | `SchemaCache.from_snapshot`, `SchemaSnapshot.load` |
| `SchemaSource.table?` | `SchemaProvider.table` |
| `SchemaSource.tables` | `SchemaProvider.table_schema` |
| `SchemaSource.labels?` | `SchemaProvider.enum_values` |
| `SchemaSource.fields?` | `SchemaProvider.composite_definition` |
| `SchemaSource.hasTable` | `SchemaCache.has_table` |
-/
namespace TableGateway

/-- A supply of snapshots with the state `σ`. -/
structure SchemaSource (σ : Type) where
  /-- The current snapshot. -/
  snapshot : σ → Except Fault Snapshot × σ
  /-- Forget what is kept, so that the next reading is fresh. -/
  invalidate : σ → σ

/-- A computation that reads from a source and may fail. -/
abbrev Lookup (σ α : Type) := ExceptT Fault (StateM σ) α

/-- The outcome of a computation, whether it failed or not. -/
def Lookup.attempt {σ α : Type} (x : Lookup σ α) : Lookup σ (Except Fault α) := ExceptT.lift x.run

namespace SchemaSource

variable {σ : Type} (source : SchemaSource σ)

/-- The source that always supplies one snapshot. -/
def fixed (s : Snapshot) : SchemaSource Unit := ⟨fun u => (.ok s, u), id⟩

def current : Lookup σ Snapshot := source.snapshot

def table? (name : String) : Lookup σ (Option Table) :=
  return (← source.current).table? name

def tables : Lookup σ (Entries Table) := return (← source.current).tables

def columns (name : String) : Lookup σ (List Column) := do
  known ((← source.current).columns name)

def labels? (name : String) : Lookup σ (Option (List String)) :=
  return (← source.current).enums.get? name

def fields? (name : String) : Lookup σ (Option (List (String × String))) :=
  return (← source.current).composites.get? name

/-- There is a table with the name, as far as the source knows. -/
def hasTable (name : String) : StateM σ Bool := do
  match ← source.current.run with
  | .ok s => return s.tables.has name
  | .error _ => return false

end SchemaSource
end TableGateway
