import TableGateway.Gateway.Basic
import TableGateway.Statement.Build

/-!
# Writing

Creating, changing and removing rows. Where the database cannot return the rows that a statement
wrote, they are read again by their keys. Section 10.6 of the specification.

| here | in the service |
| --- | --- |
| `Payload.ofBody` | `records_from_body` |
| `Payload.answer` | `shape` |
| `Gateway.writable` | `writable_table` |
| `Gateway.reread` | `RestService.reread` |
| `Gateway.create` | `RestService.create` |
| `Gateway.update` | `RestService.update` |
| `Gateway.delete` | `RestService.delete` |
| `Gateway.upsert` | `RestService.upsert` |
-/
namespace TableGateway

/-- What is to be written: one record, or a list of them. -/
inductive Payload where
  | single (record : Record)
  | many (records : List Record)
  deriving Repr

namespace Payload

def recordsOf (items : List Json) : Except Fault (List Record) :=
  items.mapM fun
    | .obj record => .ok record
    | _ => .error (.validation "Every array element must be a JSON object")

def ofBody : Json → Except Fault Payload
  | .obj record => .ok (.single record)
  | .arr [] => .error (.validation "Empty array body")
  | .arr items => (recordsOf items).map .many
  | _ => .error (.validation "Request body must be a JSON object or array")

def records : Payload → List Record
  | single record => [record]
  | many records => records

/-- The answer to the payload: the last of some records, or all of them. -/
def answer (payload : Payload) (written : List Record) : Json :=
  match payload with
  | single _ => (written.getLast?.map Json.obj).getD .null
  | many _ => .arr (written.map .obj)

end Payload

namespace Gateway

variable {σ δ : Type} (g : Gateway σ δ)

/-- The table of a request to write, which is no view, after its privileges have been asked for. -/
def writable (name : String) (privileges : List Privilege) : Action σ δ Table := do
  let snapshot ← g.snapshot
  let table ← known (snapshot.resolve name)
  if table.isView then throw (.validation (name ++ " is a view and cannot be modified"))
  for p in privileges do g.authorize table p
  return table

def first? (table : Table) (st : Statement) : Action σ δ (Option Record) := do
  let rows ← g.fetch st
  let records ← g.records table rows
  return records.head?

def find? (table : Table) (key : String) : Action σ δ (Option Record) := do
  let filter ← Session.look (Build.keyFilter g.source table key)
  g.first? table (.select { table := table.name, filter })

/-- The record of the row that was inserted for a record, or the record itself if it has no key or
the row is not found. -/
def reread (table : Table) (record : Record) : Action σ δ Record := do
  match Key.ofRecord? table record with
  | none => return record
  | some key => return (← g.find? table key).getD record

def insertion (table : Table) : Payload → Lookup σ Statement
  | .single record => Build.insert g.source table record g.config.database.supportsReturning
  | .many records => Build.insertAll g.source table records g.config.database.supportsReturning

def create (name : String) (body : Json) : Action σ δ Json := do
  let table ← g.writable name [.insert]
  let payload ← known (Payload.ofBody body)
  let st ← Session.look (g.insertion table payload)
  if g.config.database.supportsReturning then
    let rows ← g.fetch st
    return payload.answer (← g.records table rows)
  else
    let _ ← g.apply st
    return payload.answer (← payload.records.mapM (g.reread table))

/-- The record of a row after a statement has changed it, found by the key that it has then. -/
def changed? (table : Table) (key : String) (record : Record) (st : Statement) :
    Action σ δ (Option Record) := do
  let n ← g.apply st
  if n = 0 then return none
  g.find? table ((Key.ofRecord? table record).getD key)

def update (name key : String) (body : Json) : Action σ δ Record := do
  let table ← g.writable name [.update]
  match body with
  | .obj record =>
    let filter ← Session.look (Build.keyFilter g.source table key)
    let returning := g.config.database.supportsReturning
    let st ← Session.look (Build.update g.source table record filter returning)
    let found ← if returning then g.first? table st else g.changed? table key record st
    match found with
    | some record => return record
    | none => throw .notFound
  | _ => throw (.validation "Request body must be a JSON object")

/-- Remove the row with a key, and tell how many rows that were. -/
def delete (name key : String) : Action σ δ Nat := do
  let table ← g.writable name [.delete]
  let filter ← Session.look (Build.keyFilter g.source table key)
  let n ← g.apply (.delete table.name filter)
  if n = 0 then throw .notFound
  return n

/-- Insert the records of a body, or update the rows that have their keys. -/
def upsert (name : String) (body : Json) : Action σ δ Json := do
  let table ← g.writable name [.insert, .update]
  let payload ← known (Payload.ofBody body)
  let st ← Session.look (Build.upsertAll g.source table payload.records)
  let rows ← g.fetch st
  return payload.answer (← g.records table rows)

end Gateway
end TableGateway
