import TableGateway.Fault
import TableGateway.Json.Basic

/-!
# Configuration

The settings of a gateway with their defaults, and the reading of partial settings from a document:
members not known are ignored, and absent ones keep their defaults. A structure may also be a list
of the values of its fields, and a format says what becomes of the items beyond them.
Section 10.8 of the specification.
-/
namespace TableGateway

/-- Where and for whom the gateway answers. -/
structure RestConfig where
  host : String := "0.0.0.0"
  port : Nat := 3000
  /-- What the paths of tables begin with. -/
  basePath : String := "/api"
  /-- The origins that may read answers; `*` stands for all. -/
  corsOrigins : List String := ["*"]
  workers : Nat := 4
  deriving DecidableEq, Repr

/-- Bounds of pages. -/
structure Limits where
  /-- The size of a page when a request names none. -/
  defaultLimit : Nat := 20
  maxLimit : Nat := 1000
  maxOffset : Nat := 100000
  deriving DecidableEq, Repr

/-- Bounds of the estimated cost of a request. -/
structure ComplexityLimits where
  enabled : Bool := true
  maxScore : Nat := 100
  maxDepth : Nat := 3
  maxBreadth : Nat := 50
  deriving DecidableEq, Repr

/-- What the database can do, and how long its schema is kept. -/
structure DatabaseConfig where
  schema : String := "public"
  /-- Writes can return the rows written. -/
  supportsReturning : Bool := true
  /-- The privileges of the role are asked for before each operation. -/
  checkPermissions : Bool := false
  schemaTtlSecs : Nat := 300
  deriving DecidableEq, Repr

structure Config where
  rest : RestConfig := {}
  limits : Limits := {}
  complexity : ComplexityLimits := {}
  database : DatabaseConfig := {}
  deriving DecidableEq, Repr

namespace Json

/-! ## Typed members -/

def asText : Json → Option String := str?

def asBool : Json → Option Bool
  | bool b => some b
  | _ => none

/-- An integer from 0 to `most`. -/
def asNat (most : Nat) : Json → Option Nat
  | int n => if 0 ≤ n ∧ n ≤ most then some n.toNat else none
  | _ => none

/-- A list whose items all have a form. -/
def asList {α : Type} (item : Json → Option α) : Json → Option (List α)
  | arr items => items.mapM item
  | _ => none

/-- What becomes of the items of a list beyond the fields of a structure. -/
inductive Surplus where
  | refused
  | ignored
  deriving DecidableEq, Repr

/-- The members of a structure with the given fields: an object, or a list of the values of the
first fields. -/
def fields? (surplus : Surplus) (names : List String) : Json → Option Record
  | obj members => some members
  | arr items =>
    if surplus = .ignored || items.length ≤ names.length then
      some (Entries.ofList (names.zip items))
    else none
  | _ => none

/-- A member of the form, or the default if it is absent. -/
def field {α : Type} (members : Record) (name : String) (read : Json → Option α) (default : α) :
    Option α :=
  match members.get? name with
  | some v => read v
  | none => some default

/-- A member of the form, which must be there. -/
def required {α : Type} (members : Record) (name : String) (read : Json → Option α) : Option α :=
  (members.get? name).bind read

end Json

open Json (Surplus field asText asBool asNat asList)

variable (surplus : Surplus)

def RestConfig.ofJson? (v : Json) : Option RestConfig := do
  let members ← v.fields? surplus ["host", "port", "base_path", "cors_origins", "workers"]
  let d : RestConfig := {}
  let host ← field members "host" asText d.host
  let port ← field members "port" (asNat 65535) d.port
  let basePath ← field members "base_path" asText d.basePath
  let corsOrigins ← field members "cors_origins" (asList asText) d.corsOrigins
  let workers ← field members "workers" (asNat Number.maxSize) d.workers
  return { host, port, basePath, corsOrigins, workers }

def Limits.ofJson? (v : Json) : Option Limits := do
  let members ← v.fields? surplus ["default_limit", "max_limit", "max_offset"]
  let d : Limits := {}
  let defaultLimit ← field members "default_limit" (asNat Number.maxSize) d.defaultLimit
  let maxLimit ← field members "max_limit" (asNat Number.maxSize) d.maxLimit
  let maxOffset ← field members "max_offset" (asNat Number.maxSize) d.maxOffset
  return { defaultLimit, maxLimit, maxOffset }

def ComplexityLimits.ofJson? (v : Json) : Option ComplexityLimits := do
  let members ← v.fields? surplus ["enabled", "max_score", "max_depth", "max_breadth"]
  let d : ComplexityLimits := {}
  let enabled ← field members "enabled" asBool d.enabled
  let maxScore ← field members "max_score" (asNat Number.maxWord) d.maxScore
  let maxDepth ← field members "max_depth" (asNat Number.maxWord) d.maxDepth
  let maxBreadth ← field members "max_breadth" (asNat Number.maxWord) d.maxBreadth
  return { enabled, maxScore, maxDepth, maxBreadth }

def DatabaseConfig.ofJson? (v : Json) : Option DatabaseConfig := do
  let members ← v.fields? surplus ["schema", "supports_returning", "check_permissions", "schema_ttl_secs"]
  let d : DatabaseConfig := {}
  let schema ← field members "schema" asText d.schema
  let supportsReturning ← field members "supports_returning" asBool d.supportsReturning
  let checkPermissions ← field members "check_permissions" asBool d.checkPermissions
  let schemaTtlSecs ← field members "schema_ttl_secs" (asNat Number.maxSize) d.schemaTtlSecs
  return { schema, supportsReturning, checkPermissions, schemaTtlSecs }

def Config.ofJson? (v : Json) : Option Config := do
  let members ← v.fields? surplus ["rest", "limits", "complexity", "database"]
  let rest ← field members "rest" (RestConfig.ofJson? surplus) {}
  let limits ← field members "limits" (Limits.ofJson? surplus) {}
  let complexity ← field members "complexity" (ComplexityLimits.ofJson? surplus) {}
  let database ← field members "database" (DatabaseConfig.ofJson? surplus) {}
  return { rest, limits, complexity, database }

/-- What is said of a document that is no description of settings or of a schema. -/
def Fault.unfit : Fault := .config "the document does not have the expected shape"

/-- All settings from a document, or the fault of one of another shape. -/
def Config.ofJson (v : Json) : Except Fault Config :=
  match Config.ofJson? surplus v with
  | some config => .ok config
  | none => .error .unfit

end TableGateway
