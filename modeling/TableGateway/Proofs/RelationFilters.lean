import TableGateway.Proofs.Outcome
import TableGateway.Proofs.ParamOrder
import TableGateway.Proofs.RelationLookup

/-!
# Filters of relations

The filters of a relation are read apart from those of the table of a request. They know the comparisons and
`like`; every other operator stands for `eq` there. For the operators that both know, a filter has the same
condition in both places, or is refused there for the same reason. Main statement:
`Expansion.condition_shared`.
-/
namespace TableGateway

/-- The operators that filters of relations know. -/
def Operator.isShared : Operator → Bool
  | eq | neq | gt | gte | lt | lte | like => true
  | _ => false

/-- What an operator stands for in a filter of a relation. -/
def Operator.onRelation (operator : Operator) : Operator := if operator.isShared then operator else .eq

theorem Operator.onRelation_of_shared {operator : Operator} (shared : operator.isShared = true) :
    operator.onRelation = operator := by
  rw [onRelation, if_pos shared]

/-- What an expression stands for in a filter of a relation. -/
def FilterExpr.onRelation (expr : FilterExpr) : FilterExpr :=
  { expr with operator := expr.operator.onRelation }

theorem FilterExpr.onRelation_of_shared {expr : FilterExpr} (shared : expr.operator.isShared = true) :
    expr.onRelation = expr := by
  rw [onRelation, Operator.onRelation_of_shared shared]

variable {σ : Type} (source : SchemaSource σ) (table : Table)

/-- The condition of an expression on a column, for a filter of the table of a request. -/
def Filter.meaning (column : String) (expr : FilterExpr) : Lookup σ Condition := do
  let column ← known (table.resolve column)
  known (Denylist.checkValue expr.value)
  let predicate ← predicateOf source column expr.operator expr.value
  return { column := column.name, negated := expr.negated, predicate }

theorem Filter.condition_eq_meaning (column raw : String) :
    condition source table column raw = meaning source table column (.parse raw) :=
  rfl

namespace Expansion

/-- A filter of a relation asks what the operator it stands for asks of the table of a request. -/
theorem predicate_eq (column : Column) (operator : Operator) (value : String) :
    (if operator = .like then pure (.like false (Filter.likePattern value))
      else Filter.compareWith source column ((Filter.comparison? operator).getD .eq) value) =
      Filter.predicateOf source column operator.onRelation value := by
  cases operator <;> rfl

/-- Every filter of a relation has the condition of the expression that it stands for. The steps come in the
same order, so the first of them that fails is the same too. -/
theorem condition_eq_meaning (column raw : String) :
    condition source table column raw =
      Filter.meaning source table column (FilterExpr.parse raw).onRelation := by
  unfold condition Filter.meaning
  refine bind_congr fun column => bind_congr fun _ => ?_
  simp only [FilterExpr.onRelation, ← predicate_eq]
  by_cases pattern : (FilterExpr.parse raw).operator = .like
  · simp only [pattern, if_true]
  · simp only [pattern, if_false]

variable {source table}

/-- A filter with an operator that both kinds of filters know has one condition: it is the same computation
on a relation and on the table of a request, with the same SQL and the same values, or the same fault. -/
theorem condition_shared {column raw : String}
    (shared : (FilterExpr.parse raw).operator.isShared = true) :
    condition source table column raw = Filter.condition source table column raw := by
  rw [condition_eq_meaning, Filter.condition_eq_meaning, FilterExpr.onRelation_of_shared shared]

end Expansion

/-- The conditions of a filter with one value come before those of the filters behind it. -/
theorem Filter.conditions_cons {name : String} (plain : Params.isFilter name = true) (value : String)
    (params : Params) :
    conditions source table ((name, [value]) :: params) = do
      let first ← conjunct source table name value
      return first :: (← conditions source table params) := by
  have kept : Params.filters ((name, [value]) :: params) = (name, [value]) :: params.filters :=
    List.filter_cons_of_pos plain
  rw [conditions, kept, List.flatMap_cons]
  exact List.mapM_cons

namespace Expansion

variable {source table}

theorem conditions_cons (column raw : String) (rest : Entries String) :
    conditions source table ((column, raw) :: rest) = do
      let first ← condition source table column raw
      return first :: (← conditions source table rest) :=
  List.mapM_cons

/-- Where a relation is filtered with such operators, a request for the related table itself with the same
filters has the same conditions. -/
theorem conditions_shared : ∀ {filters : Entries String},
    (∀ filter ∈ filters, (FilterExpr.parse filter.2).operator.isShared = true) →
    (∀ filter ∈ filters, Params.isFilter filter.1 = true ∧ filter.1 ≠ "or") →
    Filter.conditions source table (filters.map fun (column, raw) => (column, [raw])) = do
      return (← conditions source table filters).map .one
  | [], _, _ => rfl
  | (column, raw) :: rest, shared, plain => by
    rw [List.forall_mem_cons] at shared plain
    have first : Filter.conjunct source table column raw = do
        return .one (← condition source table column raw) := by
      rw [Filter.conjunct, if_neg plain.1.2, condition_eq_meaning, Filter.condition_eq_meaning,
        FilterExpr.onRelation_of_shared shared.1]
    have behind := conditions_shared shared.2 plain.2
    rw [List.map_cons, Filter.conditions_cons source table plain.1.1, first, behind, conditions_cons]
    simp

def titledTable : Table where
  name := "posts"
  columns := [
    { name := "id", tag := "integer", type := .scalar .integer, isKey := true },
    { name := "title", tag := "text", type := .scalar .text }]

theorem condition_shared_drafts :
    (FilterExpr.parse "not.LIKE.Draft*").operator.isShared = true ∧
    condition (.fixed {}) titledTable " title " "not.LIKE.Draft*" =
      Filter.condition (.fixed {}) titledTable " title " "not.LIKE.Draft*" ∧
    ((condition (.fixed {}) titledTable " title " "not.LIKE.Draft*").run ()).1 =
      .ok { column := "title", negated := true, predicate := .like false "Draft%" } :=
  ⟨by decide, condition_shared (by decide), rfl⟩

end Expansion
end TableGateway
