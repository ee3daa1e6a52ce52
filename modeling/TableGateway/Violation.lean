import TableGateway.Fault
import TableGateway.Text.Cut

/-!
# Violations

A database reports a violated constraint as a failed statement. The SQLSTATE tells which kind it is,
and else the words of the message; what the message quotes becomes part of the fault.
Section 10.6 of the specification.

| here | in the service |
| --- | --- |
| `Violation.column?` | `NOT_NULL` |
| `Violation.unique?` | `UNIQUE` |
| `Violation.reference?` | `FOREIGN_KEY` |
| `Violation.check?` | `CHECK` |
| `Violation.label?` | `ENUM_VALUE` |
| `Violation.key?` | `KEY_DETAIL` |
| `Violation.detail` | `describe` |
| `Fault.classified` | `map_database_error` |
-/
namespace TableGateway

namespace Violation

/-- What is found at the first place of a text where anything is. -/
def search? {α : Type} (find? : List Char → Option α) : List Char → Option α
  | [] => find? []
  | c :: cs => (find? (c :: cs)).or (search? find? cs)

/-- The text in quotes after some words, which is not empty. -/
def quotedAt? (words cs : List Char) : Option String := do
  let rest ← Text.dropLead? (words ++ ['"']) cs
  let (name, _) ← Text.cut? '"' rest
  if name.isEmpty then none else some (String.ofList name)

def quoted? (words message : String) : Option String :=
  search? (quotedAt? words.toList) message.toList

/-- The column that was given no value. -/
def column? (message : String) : Option String := quoted? "null value in column " message

def unique? (message : String) : Option String :=
  quoted? "duplicate key value violates unique constraint " message

def reference? (message : String) : Option String :=
  quoted? "violates foreign key constraint " message

def check? (message : String) : Option String := quoted? "violates check constraint " message

/-- A character of the name of an enum, which may have a schema and quotes. -/
def isEnumChar (c : Char) : Bool := c.isAlphanum || c == '_' || c == '.' || c == '"'

def unquoted (cs : List Char) : List Char :=
  ((cs.dropWhile (· == '"')).reverse.dropWhile (· == '"')).reverse

/-- The enum and the text that is no label of it. -/
def labelAt? (cs : List Char) : Option (String × String) := do
  let rest ← Text.dropLead? "invalid input value for enum ".toList cs
  let name := rest.takeWhile isEnumChar
  let rest ← Text.dropLead? ": \"".toList (rest.dropWhile isEnumChar)
  let (label, _) ← Text.cut? '"' rest
  if name.isEmpty then none else some (String.ofList (unquoted name), String.ofList label)

/-- The first enum with a text that is no label of it. -/
def label? (message : String) : Option (String × String) := search? labelAt? message.toList

/-- The columns and the values of a key, as `columns=values`. -/
def keyAt? (cs : List Char) : Option String := do
  let rest ← Text.dropLead? "Key (".toList cs
  let (columns, rest) ← Text.cut? ')' rest
  let rest ← Text.dropLead? "=(".toList rest
  let (values, _) ← Text.cut? ')' rest
  if columns.isEmpty then none else some (String.ofList (columns ++ '=' :: values))

def key? (message : String) : Option String := search? keyAt? message.toList

/-- A constraint with the key that violates it, as far as they are known. -/
def detail (constraint : Option String) (message : String) : String :=
  match constraint, key? message with
  | some name, some key => name ++ " (" ++ key ++ ")"
  | some name, none => name
  | none, some key => key
  | none, none => message

def ofState? (state message : String) : Option Fault :=
  if state = "23502" then some (.notNullViolation ((column? message).getD "unknown"))
  else if state = "23505" then some (.duplicateKey (detail (unique? message) message))
  else if state = "23503" then some (.foreignKeyViolation (detail (reference? message) message))
  else if state = "23514" then some (.checkViolation ((check? message).getD message))
  else none

def ofMessage? (message : String) : Option Fault :=
  ((column? message).map .notNullViolation).or <|
  ((unique? message).map fun name => .duplicateKey (detail (some name) message)).or <|
  ((reference? message).map fun name => .foreignKeyViolation (detail (some name) message)).or <|
  ((check? message).map .checkViolation).or <|
  (label? message).map fun (name, label) => .invalidEnumValue name label

/-- The state is one of a violated constraint or of a text that is no value. -/
def isRefusal (state : String) : Bool :=
  (Text.dropLead? ['2', '3'] state.toList).isSome || state == "22P02"

/-- The violation that a state and a message stand for, if they stand for any. -/
def of? (state : Option String) (message : String) : Option Fault :=
  ((state.bind fun state => ofState? state message).or (ofMessage? message)).or
    (if state.any isRefusal then some (.validation message) else none)

end Violation

/-- A failure of the database as the violation that it reports; any other fault is itself. -/
def Fault.classified : Fault → Fault
  | .sql state message => (Violation.of? state message).getD (.sql state message)
  | .database message => (Violation.of? none message).getD (.database message)
  | f => f

end TableGateway
