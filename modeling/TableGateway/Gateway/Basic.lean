import TableGateway.Config
import TableGateway.Convert.Reading
import TableGateway.Naming
import TableGateway.Session
import TableGateway.Violation

/-!
# The gateway

A gateway has settings, a source of the schema and a database. It sends statements for a request,
and asks for the privileges of its role first if the settings say so.
Section 10.6 of the specification.

| here | in the service |
| --- | --- |
| `Privilege.name` | `Privilege.as_str` |
| `Gateway.authorize` | `RestService.authorize`, `check_permission` |
| `Gateway.fetch` | `RestService.fetch` |
| `Gateway.apply` | `RestService.apply` |
| `Gateway.count` | `RestService.count` |
| `Gateway.invalidate` | `RestService.invalidate_schema` |
-/
namespace TableGateway

structure Gateway (σ δ : Type) where
  config : Config
  source : SchemaSource σ
  db : Database δ

inductive Privilege where
  | select | insert | update | delete
  deriving DecidableEq, Repr

def Privilege.name : Privilege → String
  | select => "SELECT"
  | insert => "INSERT"
  | update => "UPDATE"
  | delete => "DELETE"

def Privilege.question (p : Privilege) (table : Table) : Statement :=
  .privilege (table.schema ++ "." ++ table.name) p.name

namespace Gateway

variable {σ δ : Type} (g : Gateway σ δ)

/-- The answer denies the privilege. A question that fails or has no answer does not. -/
def isDenied : Except Fault (List Row) → Bool
  | .ok (row :: _) =>
    match Entries.get? "allowed" row with
    | some (.bool false) => true
    | _ => false
  | _ => false

/-- Ask for a privilege, if the settings say so, and stop if it is denied. -/
def authorize (table : Table) (p : Privilege) : Action σ δ Unit := do
  if g.config.database.checkPermissions then
    if isDenied (← (g.db.ask (p.question table)).attempt) then
      throw (.forbidden table.name p.name)

/-- A part with its failure told apart. -/
def classified {α : Type} (x : Action σ δ α) : Action σ δ α :=
  ExceptT.mk ((·.mapError Fault.classified) <$> x.run)

def fetch (st : Statement) : Action σ δ (List Row) := classified (g.db.ask st)

def apply (st : Statement) : Action σ δ Nat := classified (g.db.apply st)

/-- The number in the answer to a statement that counts; what is no number counts as 0. -/
def countIn (rows : List Row) : Nat :=
  match rows.head?.bind (Entries.get? "count") with
  | some (.int n) => n.toInt.toNat
  | some c => (c.chars?.bind (Number.readNat? Number.maxSize)).getD 0
  | none => 0

def count (table : Table) (filter : Where) : Action σ δ Nat :=
  return countIn (← g.fetch (.count table.name filter))

def records (table : Table) (rows : List Row) : Action σ δ (List Record) :=
  ExceptT.lift (Session.read (Convert.rowsJson g.source table rows))

def snapshot : Action σ δ Snapshot := Session.look g.source.current

def invalidate : StateM (Session σ δ) Unit :=
  modify fun s => { s with schema := g.source.invalidate s.schema }

end Gateway
end TableGateway
