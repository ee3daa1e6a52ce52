/-!
# Faults

The ways in which a request can fail, with the code, the message and the HTTP status of each.
Faults of the client's making form the *validation class*: `Fault.isValidation`.
Section 7 of the specification.

| here | in the service |
| --- | --- |
| `Fault.code` | `Error.error_code` |
| `Fault.status` | `Error.status_code` |
| `Fault.isValidation` | `Error.is_validation` |
-/
namespace TableGateway

/-- A reason why a request is refused or fails. -/
inductive Fault where
  /-- The text is no table name. -/
  | invalidTable (name : String)
  /-- The text names no column of the table. -/
  | invalidColumn (name : String)
  /-- A control parameter cannot be read. -/
  | invalidParam (reason : String)
  /-- A filter's operand does not fit its operator. -/
  | invalidFilter (reason : String)
  /-- An operand that should be a document is none. -/
  | malformedOperand (column operand : String)
  /-- A key has another number of parts than the primary key has columns. -/
  | keyMismatch (expected actual : Nat)
  /-- A cursor is no encoded text. -/
  | invalidCursor (reason : String)
  /-- A value carries a denied sequence or keyword. -/
  | unsafeValue (reason : String)
  /-- A request is estimated to cost more than allowed. -/
  | tooComplex (reason : String)
  /-- Any other mistake of the client. -/
  | validation (reason : String)
  /-- A column that must have a value was given none. -/
  | notNullViolation (column : String)
  /-- A row with this key is there already. -/
  | duplicateKey (detail : String)
  /-- A reference points at no row, or is still pointed at. -/
  | foreignKeyViolation (detail : String)
  /-- A check constraint refused a row. -/
  | checkViolation (constraint : String)
  /-- A label is not in its enum. -/
  | invalidEnumValue (typeName value : String)
  /-- The role lacks a privilege on a table. -/
  | forbidden (table privilege : String)
  /-- No table has this name. -/
  | tableNotFound (name : String)
  /-- No row has this key. -/
  | notFound
  /-- The database refused a statement, perhaps with an SQLSTATE. -/
  | sql (state : Option String) (message : String)
  /-- The database failed. -/
  | database (message : String)
  /-- The configuration or the schema description is unusable. -/
  | config (reason : String)
  /-- An internal failure. -/
  | internal (reason : String)
  /-- A file cannot be read. -/
  | io (reason : String)
  /-- A document is no JSON. -/
  | json (reason : String)
  deriving DecidableEq, Repr, Inhabited

namespace Fault

/-- The text shown to a client. What is wrong with an operand that is no document is told in the words
of its reader, if they are known. -/
def messageIn (words : Option (String → String)) : Fault → String
  | invalidTable name => "Invalid table: " ++ name
  | invalidColumn name => "Invalid column: " ++ name
  | invalidParam reason => "Invalid query parameter: " ++ reason
  | invalidFilter reason => "Invalid filter: " ++ reason
  | malformedOperand column operand =>
    "Invalid filter: " ++ column ++ ": expected a JSON document" ++
      (words.map fun tell => " (" ++ tell operand ++ ")").getD ""
  | keyMismatch expected actual =>
    "Invalid composite key: expected " ++ toString expected ++ " key parts, got " ++ toString actual
  | invalidCursor reason => "Invalid cursor: " ++ reason
  | unsafeValue reason => "Potentially unsafe value rejected: " ++ reason
  | tooComplex reason => "Query too complex: " ++ reason
  | validation reason => "Validation error: " ++ reason
  | notNullViolation column => "Column '" ++ column ++ "' cannot be null"
  | duplicateKey detail => "Duplicate key: " ++ detail
  | foreignKeyViolation detail => "Foreign key violation: " ++ detail
  | checkViolation constraint => "Check constraint violated: " ++ constraint
  | invalidEnumValue typeName value => "Invalid value '" ++ value ++ "' for enum " ++ typeName
  | forbidden table privilege =>
    "Forbidden: insufficient " ++ privilege ++ " privilege on " ++ table
  | tableNotFound name => "Table not found: " ++ name
  | notFound => "Resource not found"
  | sql none message => "SQL error: " ++ message
  | sql (some state) message => "SQL error [" ++ state ++ "]: " ++ message
  | database message => "Database error: " ++ message
  | config reason => "Configuration error: " ++ reason
  | internal reason => "Internal error: " ++ reason
  | io reason => "IO error: " ++ reason
  | json reason => "JSON error: " ++ reason

/-- The text without the words of another reader. -/
def message (f : Fault) : String := f.messageIn none

/-- The machine-readable name of the kind of fault. -/
def code : Fault → String
  | invalidTable _ => "invalid_table"
  | invalidColumn _ => "invalid_column"
  | invalidParam _ => "invalid_param"
  | invalidFilter _ | malformedOperand .. => "invalid_filter"
  | keyMismatch .. => "invalid_key"
  | invalidCursor _ => "invalid_cursor"
  | unsafeValue _ => "unsafe_value"
  | tooComplex _ => "query_too_complex"
  | validation _ => "validation_error"
  | notNullViolation _ => "not_null_violation"
  | duplicateKey _ => "duplicate_key"
  | foreignKeyViolation _ => "fk_violation"
  | checkViolation _ => "check_violation"
  | invalidEnumValue .. => "invalid_enum_value"
  | forbidden .. => "forbidden"
  | tableNotFound _ => "table_not_found"
  | notFound => "not_found"
  | sql .. => "sql_error"
  | database _ => "database_error"
  | config _ => "config_error"
  | internal _ => "internal_error"
  | io _ => "io_error"
  | json _ => "json_error"

def status : Fault → Nat
  | invalidTable _ | invalidColumn _ | invalidParam _ | invalidFilter _ | malformedOperand ..
  | keyMismatch .. | invalidCursor _ | unsafeValue _ | tooComplex _ | validation _ | notNullViolation _
  | checkViolation _ | invalidEnumValue .. => 400
  | forbidden .. => 403
  | tableNotFound _ | notFound => 404
  | duplicateKey _ => 409
  | foreignKeyViolation _ => 422
  | sql .. | database _ | config _ | internal _ | io _ | json _ => 500

/-- The client sent something that cannot be accepted. -/
def isValidation : Fault → Bool
  | invalidTable _ | invalidColumn _ | invalidParam _ | invalidFilter _ | malformedOperand ..
  | keyMismatch .. | invalidCursor _ | unsafeValue _ | tooComplex _ | validation _ | notNullViolation _
  | checkViolation _ | invalidEnumValue .. => true
  | _ => false

/-- The validation class is the faults answered with status 400. -/
theorem isValidation_iff_status (f : Fault) : f.isValidation = true ↔ f.status = 400 := by
  cases f <;> simp [isValidation, status]

end Fault

/-- An outcome as a step of a computation, without an effect. -/
def known {m : Type → Type} [Monad m] {α : Type} (x : Except Fault α) : ExceptT Fault m α :=
  ExceptT.mk (pure x)

end TableGateway
