import TableGateway.Session
import TableGateway.Text.Cut

/-!
# Recorders

A database that answers by rote and keeps a log. Replies are prepared for the statements that hold
a text, and the first reply that fits is given; a statement that none fits has no rows and changes
none. Section 10.5 of the specification.

| here | in the service |
| --- | --- |
| `Recorder.query` | `RecordingExecutor.query`, `RecordingExecutor.record` |
| `Recorder.execute` | `RecordingExecutor.execute` |
| `Recorder.countMatching` | `RecordingExecutor.count_matching` |
| `Recorder.clear` | `RecordingExecutor.clear_log` |
-/
namespace TableGateway

/-- The answer prepared for the statements that hold a text. -/
structure Reply (α : Type) where
  pattern : String
  outcome : Except Fault α

def holdsPattern (pattern text : String) : Bool := Text.holds pattern.toList text.toList

/-- The outcome of the first reply that fits, or `otherwise`. -/
def Reply.choose {α : Type} (replies : List (Reply α)) (otherwise : α) (sql : String) :
    Except Fault α :=
  match replies.find? fun r => holdsPattern r.pattern sql with
  | some r => r.outcome
  | none => .ok otherwise

structure Entry where
  sql : String
  params : List Cell
  deriving Repr

/-- Prepared replies and a log of the statements so far. -/
structure Recorder where
  queries : List (Reply (List Row)) := []
  executes : List (Reply Nat) := []
  log : List Entry := []

namespace Recorder

def query (sql : String) (params : List Cell) (r : Recorder) : Except Fault (List Row) × Recorder :=
  (Reply.choose r.queries [] sql, { r with log := r.log ++ [⟨sql, params⟩] })

def execute (sql : String) (params : List Cell) (r : Recorder) : Except Fault Nat × Recorder :=
  (Reply.choose r.executes 0 sql, { r with log := r.log ++ [⟨sql, params⟩] })

/-- The number of logged statements that hold a text. -/
def countMatching (r : Recorder) (pattern : String) : Nat :=
  r.log.countP fun e => holdsPattern pattern e.sql

def clear (r : Recorder) : Recorder := { r with log := [] }

def database : Database Recorder where
  query st := query st.sql st.params
  execute st := execute st.sql st.params

end Recorder
end TableGateway
