import TableGateway.Cell
import TableGateway.Schema.Source
import TableGateway.Statement.Basic

/-!
# Sessions

A request runs in a session: it looks things up in a source of the schema and hands statements to a
database. Both have a state, and the session keeps every statement that was sent.
Section 6 of the specification.
-/
namespace TableGateway

/-- A database that answers statements, with a state of its own. -/
structure Database (δ : Type) where
  /-- The rows of a statement. -/
  query : Statement → δ → Except Fault (List Row) × δ
  /-- The number of rows that a statement has changed. -/
  execute : Statement → δ → Except Fault Nat × δ

/-- The states of a schema source and of a database, with the statements sent so far. -/
structure Session (σ δ : Type) where
  schema : σ
  database : δ
  sent : List Statement := []

/-- A part of a request, which may fail. -/
abbrev Action (σ δ α : Type) := ExceptT Fault (StateM (Session σ δ)) α

variable {σ δ α : Type}

/-- The outcome of a part, whether it failed or not. -/
def Action.attempt (x : Action σ δ α) : Action σ δ (Except Fault α) := ExceptT.lift x.run

namespace Session

def read (x : StateM σ α) : StateM (Session σ δ) α := fun s =>
  let (result, schema) := x s.schema
  (result, { s with schema })

def look (x : Lookup σ α) : Action σ δ α := ExceptT.mk (read x.run)

end Session

namespace Database

variable (db : Database δ)

def ask (st : Statement) : Action σ δ (List Row) := ExceptT.mk fun s =>
  let (answer, database) := db.query st s.database
  (answer, { s with database, sent := s.sent ++ [st] })

def apply (st : Statement) : Action σ δ Nat := ExceptT.mk fun s =>
  let (answer, database) := db.execute st s.database
  (answer, { s with database, sent := s.sent ++ [st] })

end Database
end TableGateway
