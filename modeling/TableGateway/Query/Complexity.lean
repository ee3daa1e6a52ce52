import TableGateway.Config
import TableGateway.Query.Select

/-!
# The cost of a request

An estimate made before any statement runs: a point for each column, five for a wildcard, ten times
its level for a relation, two for each condition, and one for each hundred rows of a page. All counts
stop at the largest number of 32 bits. Section 2 (the analysis of complexity) of the specification.

| here | in the service |
| --- | --- |
| `Cost.clamp` | `to_u32` |
| `Cost.addFields` | `score_fields` |
| `Cost.analyze` | `QueryComplexityAnalyzer.analyze` |
| `Cost.check` | `QueryComplexityAnalyzer.check` |
-/
namespace TableGateway

structure Cost where
  score : Nat := 0
  /-- The deepest level of a relation. -/
  depth : Nat := 0
  /-- The number of fields at all levels. -/
  breadth : Nat := 0
  deriving DecidableEq, Repr

namespace Cost

/-- A number, or the largest one of 32 bits if it is beyond. -/
def clamp (n : Nat) : Nat := min n Number.maxWord

def charge (c : Cost) (points : Nat) : Cost := { c with score := clamp (c.score + points) }

def count (c : Cost) : Cost := { c with breadth := clamp (c.breadth + 1) }

mutual

def addFields (level : Nat) (c : Cost) : List Field → Cost
  | [] => c
  | f :: rest => addFields level (addField level c.count f) rest

/-- Add the cost of one field, which is counted already. -/
def addField (level : Nat) (c : Cost) : Field → Cost
  | .wildcard => c.charge 5
  | .column _ => c.charge 1
  | .relation _ _ children _ =>
    (addFields (level + 1) { c with depth := max c.depth level } children).charge
      (clamp (10 * level))

end

/-- The number of conditions in the value of a filter: the alternatives of an `or` group, and
otherwise one. -/
def conditions (name value : String) : Nat :=
  if name = "or" then
    let cs := Text.trim value.toList
    let cs := cs.dropWhile (· == '(')
    let cs := (cs.reverse.dropWhile (· == ')')).reverse
    (Select.splitTopLevel cs).length
  else 1

/-- Charge two points for each of `n` conditions. -/
def chargeConditions (c : Cost) (n : Nat) : Cost := c.charge (clamp (2 * clamp n))

def addFilters (params : Params) (c : Cost) : Cost :=
  params.filters.foldl
    (fun c (name, values) => values.foldl (fun c v => c.chargeConditions (conditions name v)) c) c

def addEmbedded (params : Params) (c : Cost) : Cost :=
  params.embedded.foldl (fun c (_, _, values) => c.chargeConditions values.length) c

/-- The largest of the sizes that a request names. -/
def pageSize (params : Params) : Except Fault Nat := do
  let sizes ← ["limit", "size", "first", "last"].mapM params.size?
  return (sizes.filterMap id).foldl max 0

def analyze (fields : List Field) (params : Params) : Except Fault Cost := do
  let rows ← pageSize params
  return (({} : Cost).addFields 1 fields |>.addFilters params |>.addEmbedded params).charge
    (clamp (rows / 100))

/-- The first bound that a cost exceeds. -/
def check (limits : ComplexityLimits) (c : Cost) : Except Fault Unit :=
  if limits.maxDepth < c.depth then
    .error (.tooComplex ("embedding depth " ++ toString c.depth ++ " exceeds limit " ++
      toString limits.maxDepth))
  else if limits.maxBreadth < c.breadth then
    .error (.tooComplex (toString c.breadth ++ " selected fields exceed limit " ++
      toString limits.maxBreadth))
  else if limits.maxScore < c.score then
    .error (.tooComplex ("complexity score " ++ toString c.score ++ " exceeds limit " ++
      toString limits.maxScore))
  else .ok ()

/-- Refuse a request that costs too much. One whose cost cannot be told is let through. -/
def checkRequest (limits : ComplexityLimits) (fields : List Field) (params : Params) :
    Except Fault Unit :=
  if !limits.enabled then .ok ()
  else match analyze fields params with
    | .ok c => c.check limits
    | .error _ => .ok ()

end Cost
end TableGateway
