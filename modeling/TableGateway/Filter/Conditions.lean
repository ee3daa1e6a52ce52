import TableGateway.Convert.Binding
import TableGateway.Denylist
import TableGateway.Filter.Operator
import TableGateway.Naming
import TableGateway.Query.Select
import TableGateway.Statement.Condition

/-!
# Conditions from filters

How the filters of a request become conditions of a statement. Columns are resolved against the
table; values pass the denylist and are bound in the type of their column.
Section 4.1 of the specification.

| here | in the service |
| --- | --- |
| `Filter.likePattern` | `like_pattern` |
| `Filter.listItems` | `list_items` |
| `Filter.comparison?` | `FilterOperator.comparison_symbol` |
| `Filter.predicateOf` | `FilterParser.build` |
| `Filter.condition` | `FilterParser.parse_condition` |
| `Filter.orGroup` | `FilterParser.parse_or_group` |
| `Filter.conditions` | `FilterParser.parse_filters` |
-/
namespace TableGateway.Filter

/-- The pattern of a value: a star stands for any text; a value without stars stands anywhere. -/
def likePattern (value : String) : String :=
  let cs := value.toList
  if cs.contains '*' then String.ofList (cs.map fun c => if c = '*' then '%' else c)
  else "%" ++ value ++ "%"

/-- The items of a list in parentheses, braces, brackets or bare, trimmed; empty ones are dropped. -/
def listItems (value : String) : List String :=
  let cs := Text.trim value.toList
  let inner :=
    ((Text.unwrap? '(' ')' cs).or ((Text.unwrap? '\x7b' '\x7d' cs).or (Text.unwrap? '[' ']' cs))).getD
      cs
  (Text.items ',' inner).map String.ofList

/-- The items of a list that is not empty, each checked against the denylist. -/
def checkedItems (value : String) : Except Fault (List String) :=
  let items := listItems value
  if items.isEmpty then .error (.invalidFilter "key list requires at least one value")
  else items.mapM fun item => (Denylist.checkItem item).map fun _ => item

def comparison? : Operator → Option Comparison
  | .eq => some .eq
  | .neq => some .ne
  | .gt => some .gt
  | .gte => some .ge
  | .lt => some .lt
  | .lte => some .le
  | _ => none

variable {σ : Type} (source : SchemaSource σ)

/-- The values of the items of a list, each checked against the denylist first. -/
def itemValues (type : ColumnType) (items : List String) : Lookup σ (List Cell) :=
  items.mapM fun item => do
    known (Denylist.checkItem item)
    Convert.ofText source type item

def compareWith (column : Column) (comparison : Comparison) (value : String) :
    Lookup σ Predicate := do
  return .compare comparison column.type.mark (← Convert.ofText source column.type value)

/-- The predicate of an operator and its operand, which has passed the denylist. -/
def predicateOf (column : Column) (operator : Operator) (value : String) : Lookup σ Predicate := do
  let type := column.type
  let element := type.baseElement
  match operator with
  | .eq => compareWith source column .eq value
  | .neq => compareWith source column .ne value
  | .gt => compareWith source column .gt value
  | .gte => compareWith source column .ge value
  | .lt => compareWith source column .lt value
  | .lte => compareWith source column .le value
  | .like => return .like false (likePattern value)
  | .ilike => return .like true (likePattern value)
  | .startsWith => return .like false (value ++ "%")
  | .endsWith => return .like false ("%" ++ value)
  | .isIn | .notIn =>
    let items := listItems value
    if items.isEmpty then
      throw (.invalidFilter (column.name ++ ": IN list requires at least one value"))
    return .oneOf (operator = .notIn) type.mark (← itemValues source type items)
  | .is =>
    let word := Text.lowered value
    if word = "null" then return .isNull
    else if word = "notnull" || word = "not_null" then return .isNotNull
    else if word = "true" then return .compare .eq {} (.bool true)
    else if word = "false" then return .compare .eq {} (.bool false)
    else compareWith source column .eq value
  | .isNotNull => return .isNotNull
  | .hasKey => return .hasKey value
  | .hasKeys => return .hasKeys true (← known (checkedItems value))
  | .hasAnyKeys => return .hasKeys false (← known (checkedItems value))
  | .jsonContains | .jsonContained =>
    match Json.read? value with
    | none => throw (.malformedOperand column.name value)
    | some document =>
      return if operator = .jsonContains then .contains document else .containedIn document
  | .jsonExists => return .keyExists value
  | .jsonPath => return .pathFound value
  | .jsonPathExists => return .pathHolds value
  | .arrayContains => return .hasItem element.sqlName (← Convert.ofText source element value)
  | .arrayHasAny => return .overlaps element.sqlName (← known (checkedItems value))
  | .arrayHasAll => return .hasItems (← itemValues source element (listItems value))
  | .arrayLength =>
    match Number.readInt? (Text.trim value.toList) with
    | some n => return .lengthIs n
    | none => throw (.invalidFilter (column.name ++ ": arraylength expects an integer"))
  | .fts => return .found .words value
  | .plfts => return .found .phrase value
  | .wfts => return .found .web value

def condition (table : Table) (column raw : String) : Lookup σ Condition := do
  let column ← known (table.resolve column)
  let expr := FilterExpr.parse raw
  known (Denylist.checkValue expr.value)
  let predicate ← predicateOf source column expr.operator expr.value
  return { column := column.name, negated := expr.negated, predicate }

/-- The conditions inside the parentheses of an `or` group, which may be missing. -/
def alternatives (group : String) : List (List Char) :=
  let cs := Text.trim group.toList
  Select.splitTopLevel ((Text.unwrap? '(' ')' cs).getD cs)

/-- One alternative of an `or` group: `column.expression`. -/
def alternative (table : Table) (cs : List Char) : Lookup σ Condition :=
  match Text.cut? '.' cs with
  | some (column, raw) => condition source table (String.ofList column) (String.ofList raw)
  | none =>
    throw (.invalidFilter ("malformed OR condition '" ++ String.ofList cs ++ "'"))

/-- The alternatives of an `or` group, of which there is at least one. -/
def orGroup (table : Table) (group : String) : Lookup σ Conjunct := do
  let conditions ← (alternatives group).mapM (alternative source table)
  if conditions.isEmpty then throw (.invalidFilter "empty OR group")
  return .anyOf conditions

/-- The part of a conjunction that one value of a filter stands for. -/
def conjunct (table : Table) (name value : String) : Lookup σ Conjunct :=
  if name = "or" then orGroup source table value
  else return .one (← condition source table name value)

/-- The conditions of all filters of a request: by the names of the filters, and the values of one
filter in order. -/
def conditions (table : Table) (params : Params) : Lookup σ Where :=
  (params.filters.flatMap fun (name, values) => values.map (name, ·)).mapM fun (name, value) =>
    conjunct source table name value

end TableGateway.Filter
