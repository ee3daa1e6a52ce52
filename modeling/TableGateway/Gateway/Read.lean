import TableGateway.Expansion
import TableGateway.Gateway.Answer
import TableGateway.Gateway.Basic
import TableGateway.Query.Complexity

/-!
# Reading

Pages and windows of a table's rows, and single rows by their keys. A request is checked as a whole
before the first statement about rows is sent. Section 10.6 of the specification.

| here | in the service |
| --- | --- |
| `Plan.ofParams` | `RestService.plan_read` |
| `cursorOrder` | `cursor_order` |
| `Gateway.materialize` | `RestService.materialize` |
| `Gateway.list` | `RestService.list` |
| `Gateway.window` | `RestService.list_cursor` |
| `Gateway.read` | `RestService.read` |
| `Gateway.get` | `RestService.get` |
-/
namespace TableGateway

/-- What a request reads of the rows of a table. -/
structure Plan where
  fields : List Field
  projection : Projection
  /-- Columns that are read but not shown. -/
  extra : List String
  deriving Repr

namespace Plan

/-- A list with a relation added, unless it has one that is shown under the same name. -/
def addRelation (fields : List Field) (f : Field) : List Field :=
  if fields.any fun g => g.isRelation && g.output == f.output then fields else fields ++ [f]

/-- The fields that a request asks for by `select` and `expand`, with the conditions on their
rows. -/
def fieldsOf (params : Params) : Except Fault (List Field) := do
  let selected ← Select.parse ((params.first? "select").getD "")
  let expanded ← match params.first? "expand" with
    | some s => Select.parseExpand s
    | none => pure []
  return Select.attachFilters (expanded.foldl addRelation selected) params

/-- The plan of a request, which also reads some required columns. -/
def ofParams (limits : ComplexityLimits) (snapshot : Snapshot) (table : Table) (params : Params)
    (required : List String) : Except Fault Plan := do
  let fields ← fieldsOf params
  Cost.checkRequest limits fields params
  let needed := Relationship.keyColumns snapshot table fields ++ required
  let extra := (Expansion.extraColumns fields needed).eraseDups
  let projection ← Expansion.projection table fields extra
  return { fields, projection, extra }

/-- A record without the columns that are not shown. -/
def shown (plan : Plan) (record : Record) : Record :=
  plan.extra.foldl (fun record name => Entries.erase name record) record

end Plan

/-- The place of a window's rows relative to a cursor: after it. -/
def Direction.after : Direction → Comparison
  | asc => .gt
  | desc => .lt

/-- The place of a window's rows relative to a cursor: before it. -/
def Direction.before (d : Direction) : Comparison := d.reversed.after

/-- The column by which the windows of a request are ordered: the first that it names, or the first
of the primary key. -/
def cursorOrder (table : Table) (params : Params) : Except Fault OrderTerm := do
  match (← OrderTerm.ofParams table params).head?, table.key.head? with
  | some term, _ => return term
  | none, some column => return { column := (← table.resolve column.name).name }
  | none, none =>
    throw (.validation ("Cursor pagination on " ++ table.name ++ " requires an order column"))

/-- The condition that a cursor puts on the rows of a window, if there is a cursor. -/
def cursorCondition {σ : Type} (source : SchemaSource σ) (column : Column)
    (comparison : Comparison) (cursor : Option String) : Lookup σ Where := do
  match cursor with
  | none => return []
  | some cursor =>
    let text ← known (Cursor.decode cursor)
    let predicate ← Filter.compareWith source column comparison text
    return [.one { column := column.name, predicate }]

namespace Gateway

variable {σ δ : Type} (g : Gateway σ δ)

/-- The records of some rows with their related records. -/
def materialize (snapshot : Snapshot) (table : Table) (plan : Plan) (rows : List Row) :
    Action σ δ (List Record) := do
  let records ← g.records table rows
  let records ← ExceptT.lift (Expansion.expand g.source g.db snapshot table records plan.fields)
  return records.map plan.shown

/-- The table of a request to read. -/
def readable (snapshot : Snapshot) (name : String) : Action σ δ Table := do
  let table ← known (snapshot.resolve name)
  g.authorize table .select
  return table

def list (name : String) (params : Params) : Action σ δ Listing := do
  let snapshot ← g.snapshot
  let table ← g.readable snapshot name
  let page ← known (Page.ofParams params g.config.limits)
  let plan ← known (Plan.ofParams g.config.complexity snapshot table params [])
  let filter ← Session.look (Filter.conditions g.source table params)
  let order ← known (OrderTerm.ofParams table params)
  let total ← g.count table filter
  let rows ← g.fetch (.select
    { table := table.name, projection := plan.projection, filter, order, page := some page })
  return { records := ← g.materialize snapshot table plan rows, page, total }

def cursorOf (order : OrderTerm) (row : Row) : String :=
  Cursor.encode (((Entries.get? order.column row).bind Cell.text?).getD "")

/-- The window that a request asks for. One row more than asked for tells whether there are more. -/
def window (name : String) (params : Params) : Action σ δ Connection := do
  let snapshot ← g.snapshot
  let table ← g.readable snapshot name
  let window ← known (CursorWindow.ofParams params g.config.limits)
  let order ← known (cursorOrder table params)
  let plan ← known (Plan.ofParams g.config.complexity snapshot table params [order.column])
  let filter ← Session.look (Filter.conditions g.source table params)
  let column ← known (table.resolve order.column)
  let after ← Session.look
    (cursorCondition g.source column order.direction.after window.after)
  let before ← Session.look
    (cursorCondition g.source column order.direction.before window.before)
  let size := window.size g.config.limits
  let total ← g.count table filter
  let rows ← g.fetch (.select
    { table := table.name, projection := plan.projection, filter := filter ++ after ++ before
      order := [if window.isBackward then order.reversed else order]
      page := some ⟨0, size + 1⟩ })
  let hasExtra := size < rows.length
  let rows := if window.isBackward then (rows.take size).reverse else rows.take size
  let records ← g.materialize snapshot table plan rows
  return {
    edges := (records.zip rows).map fun (node, row) => ⟨node, cursorOf order row⟩
    hasNextPage := if window.isBackward then window.before.isSome else hasExtra
    hasPreviousPage := if window.isBackward then hasExtra else window.after.isSome
    total }

def read (name : String) (params : Params) : Action σ δ Answer :=
  if params.hasCursor then return .connection (← g.window name params)
  else return .listing (← g.list name params)

def get (name key : String) (params : Params) : Action σ δ Record := do
  let snapshot ← g.snapshot
  let table ← g.readable snapshot name
  let plan ← known (Plan.ofParams g.config.complexity snapshot table params [])
  let filter ← Session.look (Build.keyFilter g.source table key)
  let rows ← g.fetch (.select { table := table.name, projection := plan.projection, filter })
  match (← g.materialize snapshot table plan (rows.take 1)).getLast? with
  | some record => return record
  | none => throw .notFound

end Gateway
end TableGateway
