import TableGateway.Convert.Reading
import TableGateway.Filter.Conditions
import TableGateway.Relationship
import TableGateway.Session
import TableGateway.Statement.Build

/-!
# Expansion

Related rows are fetched after the rows they belong to, with one statement for each relation however
many rows there are, and are attached to the records. Relations within relations are expanded first.
What fails at one relation leaves the records without it. Section 4.4 of the specification.

| here | in the service |
| --- | --- |
| `Expansion.condition` | `RelationshipExpander.embedded_condition` |
| `Expansion.attach` | `attach` |
| `Expansion.expand` | `RelationshipExpander.expand` |
| `Expansion.expandField` | `RelationshipExpander.expand_field` |
-/
namespace TableGateway.Expansion

/-! ## What to fetch -/

/-- The texts of a column in some records, each once, in the order in which they come. -/
def joinTexts (column : String) (records : List Record) : List String :=
  (records.filterMap fun record => Record.joinText? record column).eraseDups

/-- The columns that are needed beside those that a list names; a list of all columns needs no
more. -/
def extraColumns (fields : List Field) (needed : List String) : List String :=
  match Field.columns? fields with
  | some names => needed.filter fun name => !names.contains name
  | none => []

/-- The columns to be read for a list with some extra columns. -/
def projection (table : Table) (fields : List Field) (extra : List String) :
    Except Fault Projection :=
  Build.projection table ((Field.columns? fields).map (· ++ extra))

/-- A condition on the rows of a relation: `LIKE` or a comparison, which is `=` for every operator
that has no other. -/
def condition {σ : Type} (source : SchemaSource σ) (target : Table) (column raw : String) :
    Lookup σ Condition := do
  let column ← known (target.resolve column)
  let expr := FilterExpr.parse raw
  known (Denylist.checkValue expr.value)
  let predicate ←
    if expr.operator = .like then pure (.like false (Filter.likePattern expr.value))
    else Filter.compareWith source column ((Filter.comparison? expr.operator).getD .eq) expr.value
  return { column := column.name, negated := expr.negated, predicate }

/-- The rows of the related table whose join texts are among some, and that meet some conditions. -/
def selection {σ : Type} (source : SchemaSource σ) (r : Relationship) (texts : List String)
    (children : List Field) (filters : Entries String) (extra : List String) :
    Lookup σ Selection := do
  let target := r.related
  let projection ← known (projection target children extra)
  let remote ← known (target.resolve r.remoteColumn)
  let values ← texts.mapM (Convert.ofText source remote.type)
  let conditions ← filters.mapM fun (column, raw) => condition source target column raw
  let among : Condition :=
    { column := remote.name, predicate := .oneOf false remote.type.mark values }
  return { table := target.name, projection, filter := (among :: conditions).map .one }

/-! ## Attaching -/

/-- Related records, each with its join text. -/
abbrev Related := List (String × Record)

/-- Related records by their join texts, without the extra columns. One without a text belongs to
nothing. -/
def keyed (column : String) (extra : List String) (items : List Record) : Related :=
  items.filterMap fun item =>
    (Record.joinText? item column).map fun text =>
      (text, extra.foldl (fun item name => Entries.erase name item) item)

def Related.matching (related : Related) (text : Option String) : List Record :=
  match text with
  | some text => (related.filter fun (t, _) => t == text).map (·.2)
  | none => []

/-- What is shown of the related records: the first one or null if there can be one only, and else
all of them. -/
def shown (r : Relationship) (items : List Record) : Json :=
  if r.isForward then
    match items with
    | item :: _ => .obj item
    | [] => .null
  else .arr (items.map .obj)

def attach (r : Relationship) (output : String) (related : Related) (records : List Record) :
    List Record :=
  records.map fun record =>
    let items := Related.matching related (Record.joinText? record r.localColumn)
    Entries.insert output (shown r items) record

/-! ## Expanding -/

variable {σ δ : Type} (source : SchemaSource σ) (db : Database δ) (snapshot : Snapshot)

def fetch (r : Relationship) (texts : List String) (children : List Field)
    (filters : Entries String) (extra : List String) : Action σ δ (List Record) := do
  let s ← Session.look (selection source r texts children filters extra)
  let rows ← db.ask (.select s)
  ExceptT.lift (Session.read (Convert.rowsJson source r.related rows))

mutual

/-- Attach the rows of all relations in a list to some records of a table. -/
def expand (table : Table) (records : List Record) :
    List Field → StateM (Session σ δ) (List Record)
  | [] => return records
  | f :: rest => do expand table (← expandField table records f) rest

/-- Attach the rows of a field, if it is a relation and its rows can be fetched. -/
def expandField (table : Table) (records : List Record) :
    Field → StateM (Session σ δ) (List Record)
  | .relation name label children filters =>
    match Relationship.resolve? snapshot table name with
    | none => return records
    | some r => do
      let output := label.getD name
      let texts := joinTexts r.localColumn records
      if texts.isEmpty then return attach r output [] records
      let extra := extraColumns children
        (r.remoteColumn :: Relationship.keyColumns snapshot r.related children)
      match ← (fetch source db r texts children filters extra).run with
      | .error _ => return records
      | .ok items =>
        let items ← expand r.related items children
        return attach r output (keyed r.remoteColumn extra items) records
  | _ => return records

end
end TableGateway.Expansion
