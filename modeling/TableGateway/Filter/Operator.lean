import TableGateway.Text.Cut

/-!
# Filter operators

The operators of filters with their keywords, and filter expressions: an operator and its operand,
perhaps negated. Section 4.1 of the specification.

In the service, keywords are read by `FilterOperator.from_keyword` and expressions by `FilterExpr.parse`.
-/
namespace TableGateway

/-- What a filter asks of a column. -/
inductive Operator where
  | eq | neq | gt | gte | lt | lte
  | like | ilike | startsWith | endsWith
  | isIn | notIn | is | isNotNull
  | hasKey | hasKeys | hasAnyKeys
  | jsonContains | jsonContained | jsonExists | jsonPath | jsonPathExists
  | arrayContains | arrayHasAny | arrayHasAll | arrayLength
  | fts | plfts | wfts
  deriving DecidableEq, Repr

namespace Operator

def table : List (Operator × List String) :=
  [ (eq, ["eq"]), (neq, ["neq"]), (gt, ["gt"]), (gte, ["gte"]), (lt, ["lt"]), (lte, ["lte"]),
    (like, ["like"]), (ilike, ["ilike"]), (startsWith, ["startswith"]), (endsWith, ["endswith"]),
    (isIn, ["in"]), (notIn, ["notin"]), (is, ["is"]), (isNotNull, ["isnotnull"]),
    (hasKey, ["haskey"]), (hasKeys, ["haskeys", "existsall"]),
    (hasAnyKeys, ["hasanykeys", "existsany"]),
    (jsonContains, ["jsoncontains", "contains"]), (jsonContained, ["jsoncontained", "containedin"]),
    (jsonExists, ["jsonexists", "exists"]), (jsonPath, ["jsonpath"]),
    (jsonPathExists, ["jsonpathexists"]),
    (arrayContains, ["arraycontains"]), (arrayHasAny, ["arrayhasany"]),
    (arrayHasAll, ["arrayhasall"]), (arrayLength, ["arraylength"]),
    (fts, ["fts"]), (plfts, ["plfts"]), (wfts, ["wfts"]) ]

/-- The operator of a keyword in any case. -/
def ofKeyword? (keyword : List Char) : Option Operator :=
  let word := String.ofList (Text.lower keyword)
  (table.find? fun (_, words) => words.contains word).map (·.1)

end Operator

structure FilterExpr where
  operator : Operator
  value : String
  negated : Bool
  deriving DecidableEq, Repr

namespace FilterExpr

/-- The rest of a text after `not.` in any case. -/
def dropNot? : List Char → Option (List Char)
  | n :: o :: t :: point :: rest =>
    if Text.sameCaseless [n, o, t, point] "not.".toList then some rest else none
  | _ => none

/-- An expression without negation: `operator.value`. A text that begins with no operator is a value
to be equal to, and `isnotnull` alone needs no value. -/
def bare (cs : List Char) : Operator × List Char :=
  match Text.cut? '.' cs with
  | some (keyword, value) =>
    match Operator.ofKeyword? keyword with
    | some operator => (operator, value)
    | none => (.eq, cs)
  | none => if Text.sameCaseless cs "isnotnull".toList then (.isNotNull, []) else (.eq, cs)

/-- The expression of a text, after an optional `not.`. -/
def parse (raw : String) : FilterExpr :=
  match dropNot? raw.toList with
  | some rest => ⟨(bare rest).1, String.ofList (bare rest).2, true⟩
  | none => ⟨(bare raw.toList).1, String.ofList (bare raw.toList).2, false⟩

end FilterExpr
end TableGateway
