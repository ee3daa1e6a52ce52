import Mathlib
import TableGateway.Gateway.Operation
import TableGateway.Proofs.Attachment
import TableGateway.Proofs.Meaning

/-!
# The columns of an answer

A database that answers a selection with rows of the selected columns. Of what it answers, a record
shows the columns that were asked for and the relations that were attached, except for the names that
are hidden at its level. Main statement: `Operation.Reads.shows`.
-/
namespace TableGateway

variable {σ δ : Type}

/-! ## Rows of the selected columns -/

/-- The row holds the selected columns and no other ones; `*` selects all columns of the table. -/
def Selection.Fills (s : Selection) (snapshot : Snapshot) (row : Row) : Prop :=
  match s.projection with
  | .columns names => ∀ name, Entries.has name row = true ↔ name ∈ names
  | .all => ∀ table ∈ snapshot.tables.map (·.2), table.name = s.table →
      ∀ name, Entries.has name row = true ↔ name ∈ table.columns.map (·.name)

/-- The database answers each selection with rows of the selected columns, if at all. -/
def Database.Selects (db : Database δ) (snapshot : Snapshot) : Prop :=
  ∀ s d rows, (db.query (.select s) d).1 = .ok rows → ∀ row ∈ rows, s.Fills snapshot row

/-- A database whose rows have the columns of their tables answers with the selected ones. -/
theorem Database.holding_selects {m : Semantics} (h : m.IsOrder) {content : String → List Row}
    {snapshot : Snapshot} (whole : ∀ table ∈ snapshot.tables.map (·.2), ∀ row ∈ content table.name,
      ∀ name, Entries.has name row = true ↔ name ∈ table.columns.map (·.name)) :
    (Database.holding m content).Selects snapshot := by
  intro s d rows answered row hrow
  cases answered
  obtain ⟨inside, hinside, -, rfl⟩ := (s.answer_answers h (content s.table)).mem hrow
  unfold Selection.Fills
  cases s.projection with
  | all =>
    intro table hmem same
    exact whole table hmem inside (by rw [same]; exact hinside)
  | columns names =>
    intro name
    simp only [Entries.has, Projection.get?_of]
    by_cases hname : name ∈ names <;> simp [hname]

/-- The columns that a list names are some. -/
theorem Field.columns?_ne_nil {fields : List Field} {names : List String}
    (h : Field.columns? fields = some names) : names ≠ [] := by
  unfold columns? at h
  split at h
  · cases h
  · simp only at h
    split at h
    · cases h
    · rename_i some
      cases h
      simpa only [List.isEmpty_iff] using some

theorem Table.resolveAll_names {table : Table} {names : List String} {columns : List Column}
    (h : table.resolveAll names = .ok columns) :
    columns.map (·.name) = names.map Text.trimmed := by
  have item : Outcome (List.Forall₂ (fun name (column : Column) => column.name = Text.trimmed name)
      names) (fun _ => True) (table.resolveAll names) :=
    .mapM fun name _ => (Outcome.self (table.resolve name)).mono
      (fun _ found => (Table.resolve_eq_ok found).2.1) fun _ => id
  rw [h] at item
  have same := item.of_ok
  clear h item
  induction same with
  | nil => rfl
  | cons h _ ih => simp [h, ih]

/-- All columns are read for a list that names none, and else those that are named or hidden. -/
theorem Level.projection_eq_ok {l : Level} {p : Projection}
    (h : Expansion.projection l.table l.fields l.hidden = .ok p) :
    Field.columns? l.fields = none ∧ p = .all ∨
      ∃ names, Field.columns? l.fields = some names ∧
        p = .columns ((names ++ l.hidden).map Text.trimmed) := by
  unfold Expansion.projection Build.projection at h
  cases named : Field.columns? l.fields with
  | none =>
    rw [named] at h
    cases h
    exact .inl ⟨rfl, rfl⟩
  | some names =>
    refine .inr ⟨names, rfl, ?_⟩
    obtain ⟨name, rest, rfl⟩ := List.exists_cons_of_ne_nil (Field.columns?_ne_nil named)
    rw [named] at h
    cases resolved : l.table.resolveAll (name :: rest ++ l.hidden) with
    | error e =>
      rw [Option.map_some, List.cons_append] at h
      rw [List.cons_append] at resolved
      simp [resolved, Except.map] at h
    | ok columns =>
      rw [← Table.resolveAll_names resolved]
      rw [Option.map_some, List.cons_append] at h
      rw [List.cons_append] at resolved
      simp only [resolved, Except.map, Except.ok.injEq] at h
      exact h.symm

/-- Rows that are read for a level hold its columns. -/
theorem Level.read_of_fills {l : Level} {s : Selection} {snapshot : Snapshot} {row : Row}
    (mem : l.table ∈ snapshot.tables.map (·.2)) (table : s.table = l.table.name)
    (projection : Expansion.projection l.table l.fields l.hidden = .ok s.projection)
    (fills : s.Fills snapshot row) (name : String) :
    Entries.has name row = true ↔ name ∈ l.read := by
  unfold Selection.Fills at fills
  unfold read
  rcases l.projection_eq_ok projection with ⟨named, all⟩ | ⟨names, named, columns⟩
  · rw [all] at fills
    rw [named]
    exact fills l.table mem table.symm name
  · rw [columns] at fills
    rw [named]
    exact fills name

/-! ## Records of the selected columns -/

/-- Records of rows of a level hold its columns. -/
theorem Level.read_of_rowsJson (source : SchemaSource σ) (t : σ) {l : Level} {rows : List Row}
    (h : ∀ row ∈ rows, ∀ name, Entries.has name row = true ↔ name ∈ l.read) :
    ∀ record ∈ (Convert.rowsJson source l.table rows t).1,
      ∀ name, Entries.has name record = true ↔ name ∈ l.read := by
  intro record hrecord name
  obtain ⟨row, hrow, u, rfl⟩ :=
    exists_of_forall₂ (Convert.rowsJson_forall₂ source l.table rows t) record hrecord
  rw [Entries.has_iff_mem_keys, Convert.rowJson_keys, ← Entries.has_iff_mem_keys, h row hrow name]

/-! ## Related records -/

namespace Expansion

variable {source : SchemaSource σ} {db : Database δ} {snapshot : Snapshot}

theorem selection_outcome (source : SchemaSource σ) (r : Relationship) (texts : List String) (children : List Field)
    (filters : Entries String) (extra : List String) :
    (selection source r texts children filters extra).Ends (fun s => s.table = r.related.name ∧
      projection r.related children extra = .ok s.projection) (fun _ => True) := by
  unfold selection
  refine .bind (.known (.self _)) fun p hp => ?_
  refine .bind (.any _) fun remote _ => .bind (.any _) fun values _ => .bind (.any _) fun _ _ => ?_
  exact .pure ⟨rfl, hp⟩

/-- Related records hold the columns of their level. -/
theorem fetch_read (selects : db.Selects snapshot) {r : Relationship} {children : List Field}
    (mem : r.related ∈ snapshot.tables.map (·.2)) {texts : List String} {filters : Entries String}
    {s t : Session σ δ} {items : List Record}
    (h : (fetch source db r texts children filters (hidden snapshot r children)).Gives s items t) :
    ∀ item ∈ items, ∀ name,
      Entries.has name item = true ↔ name ∈ (levelOf snapshot r children).read := by
  unfold fetch at h
  rw [Action.gives_bind] at h
  obtain ⟨selection, s₁, hselection, h⟩ := h
  rw [Action.gives_bind] at h
  obtain ⟨rows, s₂, hrows, h⟩ := h
  obtain ⟨answer, -⟩ := Action.gives_ask.mp hrows
  have shape := selection_outcome source r texts children filters
    (hidden snapshot r children) s.schema
  rw [(Action.gives_look.mp hselection).1] at shape
  obtain ⟨table, projection⟩ := shape.of_ok
  have read := Level.read_of_rowsJson source s₂.schema
    (l := levelOf snapshot r children) fun row hrow =>
      Level.read_of_fills mem table projection (selects _ _ _ answer row hrow)
  have result : (Convert.rowsJson source r.related rows s₂.schema).1 = items :=
    congrArg Prod.fst (Action.gives_lift.mp h)
  rwa [← result]

/-- All of some records have grown from the same columns by the same attachments. -/
def AllGrown (columns : List String) (attached : List Attachment) (records : List Record) : Prop :=
  ∀ record ∈ records, ∃ items, Grown columns attached record items

theorem keyed_shows {l : Level} {within : List Attachment} {items : List Record}
    (h : AllGrown l.read within items) (column : String) :
    ∀ p ∈ keyed column l.hidden items, Shows l within p.2 := by
  intro p hp
  obtain ⟨item, hitem, keyed⟩ := List.mem_filterMap.mp hp
  obtain ⟨text, -, rfl⟩ := Option.map_eq_some_iff.mp keyed
  obtain ⟨_, grown⟩ := h item hitem
  exact grown.shows

theorem attach_grown {columns : List String} {attached : List Attachment} {records : List Record}
    (h : AllGrown columns attached records) {output : String} {r : Relationship} {level : Level}
    {within : List Attachment} {related : Related} (hrelated : ∀ p ∈ related, Shows level within p.2) :
    AllGrown columns (attached ++ [.mk output r level within]) (attach r output related records) := by
  intro record hrecord
  obtain ⟨before, hbefore, rfl⟩ := List.mem_map.mp hrecord
  obtain ⟨items, grown⟩ := h before hbefore
  refine ⟨_, grown.attach (.mk output r level within) fun item hitem => ?_⟩
  unfold Related.matching at hitem
  split at hitem
  · obtain ⟨p, hp, rfl⟩ := List.mem_map.mp hitem
    exact hrelated p (List.mem_of_mem_filter hp)
  · cases hitem

mutual

/-- Records grow by what a field attaches. -/
theorem expandField_grown (selects : db.Selects snapshot) {columns : List String}
    {attached : List Attachment} (table : Table) {records : List Record}
    (h : AllGrown columns attached records) (s : Session σ δ) : ∀ f : Field,
    AllGrown columns (attached ++ attachmentsOf source db snapshot table records f s)
      (expandField source db snapshot table records f s).1
  | .wildcard => by
    rw [attachmentsOf, List.append_nil]
    · exact h
    · simp
  | .column _ => by
    rw [attachmentsOf, List.append_nil]
    · exact h
    · simp
  | .relation name label children filters => by
    rw [expandField_relation, attachmentsOf]
    cases found : Relationship.resolve? snapshot table name with
    | none =>
      rw [List.append_nil]
      exact h
    | some r =>
      simp only
      split
      · exact attach_grown h (by simp)
      · cases fetched : (fetch source db r (joinTexts r.localColumn records) children filters
            (hidden snapshot r children)).run s with
        | mk answer t =>
          cases answer with
          | error e =>
            rw [List.append_nil]
            exact h
          | ok items =>
            have start : AllGrown (levelOf snapshot r children).read [] items := fun item hitem =>
              ⟨_, .of_names (fetch_read selects (Relationship.related_mem found) fetched item hitem)⟩
            exact attach_grown h (keyed_shows (l := levelOf snapshot r children)
              (expand_grown selects r.related start t children) _)

/-- Records grow by what a list of fields attaches. -/
theorem expand_grown (selects : db.Selects snapshot) {columns : List String}
    {attached : List Attachment} (table : Table) {records : List Record}
    (h : AllGrown columns attached records) (s : Session σ δ) : ∀ fields : List Field,
    AllGrown columns (attached ++ attachments source db snapshot table records fields s)
      (expand source db snapshot table records fields s).1
  | [] => by
    rw [attachments, List.append_nil, expand]
    exact h
  | f :: rest => by
    rw [attachments, expand, ← List.append_assoc]
    exact expand_grown selects table (expandField_grown selects table h s f) _ rest

end

end Expansion

/-! ## Answers -/

namespace Operation

/-- The name of the table that the request is about. -/
def table : Operation → String
  | list table _ | window table _ | get table _ _ => table
  | create table _ | update table _ _ | upsert table _ | delete table _ => table

/-- The columns that a request reads beside those that it asks for: a window reads that by which it is
ordered. -/
def required (table : Table) : Operation → Except Fault (List String)
  | window _ params => (cursorOrder table params).map fun order => [order.column]
  | _ => .ok []

/-- From the one session, the request to read is answered with some records in the other session. -/
inductive Returns (g : Gateway σ δ) (s : Session σ δ) :
    Operation → List Record → Session σ δ → Prop where
  | list {name : String} {params : Params} {answer : Listing} {t : Session σ δ}
      (h : (g.list name params).Gives s answer t) : Returns g s (.list name params) answer.records t
  | window {name : String} {params : Params} {answer : Connection} {t : Session σ δ}
      (h : (g.window name params).Gives s answer t) :
      Returns g s (.window name params) (answer.edges.map Edge.node) t
  | get {name key : String} {params : Params} {answer : Record} {t : Session σ δ}
      (h : (g.get name key params).Gives s answer t) : Returns g s (.get name key params) [answer] t

end Operation

/-- The last part of a request to read, in which rows become records. -/
structure Reading (σ δ : Type) where
  table : Table
  plan : Plan
  selection : Selection
  rows : List Row
  /-- The session in which the rows were answered. -/
  answered : Session σ δ
  /-- The records of the rows. -/
  read : List Record
  /-- The session in which relations are looked up. -/
  looking : Session σ δ

namespace Reading

def level (r : Reading σ δ) : Level := ⟨r.table, r.plan.fields, r.plan.extra⟩

def attached (r : Reading σ δ) (g : Gateway σ δ) (snapshot : Snapshot) : List Attachment :=
  Expansion.attachments g.source g.db snapshot r.table r.read r.plan.fields r.looking

/-- The reading is that of a request which is answered with some records: its selection was sent last
before the session in which its rows were answered, and the records are made of these rows. -/
structure Of (r : Reading σ δ) (g : Gateway σ δ) (snapshot : Snapshot) (o : Operation)
    (records : List Record) (t : Session σ δ) : Prop where
  table : snapshot.resolve o.table = .ok r.table
  plan : ∃ required, o.required r.table = .ok required ∧
    Plan.ofParams g.config.complexity snapshot r.table o.params required = .ok r.plan
  selection : r.selection.table = r.table.name ∧ r.selection.projection = r.plan.projection
  sent : r.answered.sent.getLast? = some (.select r.selection)
  rows : ∃ d answer, (g.db.query (.select r.selection) d).1 = .ok answer ∧ r.rows ⊆ answer
  read : (g.records r.table r.rows).Gives r.answered r.read r.looking
  records : (g.materialize snapshot r.table r.plan r.rows).Gives r.answered records t

end Reading

/-- The columns of a plan are read by its projection. -/
theorem Plan.ofParams_projection (limits : ComplexityLimits) (snapshot : Snapshot) (table : Table)
    (params : Params) (required : List String) :
    Outcome (fun plan => Expansion.projection table plan.fields plan.extra = .ok plan.projection)
      (fun _ => True) (Plan.ofParams limits snapshot table params required) := by
  unfold ofParams
  refine .bind (.any _) fun fields _ => .bind (.any _) fun _ _ => ?_
  exact .bind (.self _) fun projection h => .ok h

theorem Plan.projection_eq_ok {limits : ComplexityLimits} {snapshot : Snapshot} {table : Table}
    {params : Params} {required : List String} {plan : Plan}
    (h : Plan.ofParams limits snapshot table params required = .ok plan) :
    Expansion.projection table plan.fields plan.extra = .ok plan.projection := by
  have shape := ofParams_projection limits snapshot table params required
  rw [h] at shape
  exact shape.of_ok

namespace Gateway

variable {g : Gateway σ δ} {snapshot : Snapshot} {s t : Session σ δ}

/-- Rows that are read for a plan and become records are a reading. -/
theorem materialize_reading {o : Operation} {table : Table} {required : List String} {plan : Plan}
    {selection : Selection} {answer rows : List Row} {records : List Record} {u : Session σ δ}
    (resolved : snapshot.resolve o.table = .ok table) (hrequired : o.required table = .ok required)
    (planned : Plan.ofParams g.config.complexity snapshot table o.params required = .ok plan)
    (shape : selection.table = table.name ∧ selection.projection = plan.projection)
    (fetched : (g.fetch (.select selection)).Gives s answer u) (subset : rows ⊆ answer)
    (h : (g.materialize snapshot table plan rows).Gives u records t) :
    ∃ r : Reading σ δ, r.Of g snapshot o records t := by
  obtain ⟨answered, sent⟩ := fetch_gives fetched
  obtain ⟨read, looking, hread, -⟩ := Action.gives_bind.mp h
  exact ⟨⟨table, plan, selection, rows, u, read, looking⟩, resolved, ⟨required, hrequired, planned⟩,
    shape, sent, ⟨_, answer, answered, subset⟩, hread, h⟩

theorem list_reading (supplied : g.source.Supplies (· = snapshot)) {name : String} {params : Params}
    {answer : Listing} (h : (g.list name params).Gives s answer t) :
    ∃ r : Reading σ δ, r.Of g snapshot (.list name params) answer.records t := by
  unfold list at h
  simp only [Action.gives_bind, Action.gives_known, Action.gives_pure] at h
  obtain ⟨found, s₁, hfound, table, s₂, htable, page, s₃, -, plan, s₄, hplan, filter, s₅, -, order, s₆, -,
    total, s₇, -, rows, s₈, hrows, records, s₉, hrecords, rfl, rfl⟩ := h
  obtain rfl := snapshot_gives supplied hfound
  exact materialize_reading (readable_gives htable) rfl hplan.1 ⟨rfl, rfl⟩ hrows (fun _ => id) hrecords

theorem window_reading (supplied : g.source.Supplies (· = snapshot)) {name : String}
    {params : Params} {answer : Connection} (h : (g.window name params).Gives s answer t) :
    ∃ r : Reading σ δ, r.Of g snapshot (.window name params) (answer.edges.map Edge.node) t := by
  unfold window at h
  simp only [Action.gives_bind, Action.gives_known, Action.gives_pure] at h
  obtain ⟨found, s₁, hfound, table, s₂, htable, window, s₃, -, order, s₄, horder, plan, s₅, hplan,
    filter, s₆, -, column, s₇, -, after, s₈, -, before, s₉, -, total, s₁₀, -, rows, s₁₁, hrows,
    records, s₁₂, hrecords, rfl, rfl⟩ := h
  obtain rfl := snapshot_gives supplied hfound
  have length := (materialize_rows hrecords).length_eq
  have nodes : (records.zip _).map Prod.fst = records := List.map_fst_zip (Nat.le_of_eq length.symm)
  simp only [List.map_map, Function.comp_def]
  rw [nodes]
  refine materialize_reading (readable_gives htable) (by rw [Operation.required, horder.1]; rfl)
    hplan.1 ⟨rfl, rfl⟩ hrows ?_ hrecords
  split
  · exact fun row hrow => List.mem_of_mem_take (List.mem_reverse.mp hrow)
  · exact List.take_subset _ _

theorem get_reading (supplied : g.source.Supplies (· = snapshot)) {name key : String}
    {params : Params} {answer : Record} (h : (g.get name key params).Gives s answer t) :
    ∃ r : Reading σ δ, r.Of g snapshot (.get name key params) [answer] t := by
  unfold get at h
  simp only [Action.gives_bind, Action.gives_known] at h
  obtain ⟨found, s₁, hfound, table, s₂, htable, plan, s₃, hplan, filter, s₄, -, rows, s₅, hrows,
    records, s₆, hrecords, h⟩ := h
  obtain rfl := snapshot_gives supplied hfound
  have few : records.length ≤ 1 := by
    rw [← (materialize_rows hrecords).length_eq]
    exact List.length_take_le 1 rows
  cases last : records.getLast? with
  | none =>
    rw [last] at h
    cases h
  | some record =>
    rw [last] at h
    obtain ⟨rfl, rfl⟩ := Action.gives_pure.mp h
    obtain rfl : records = [answer] := by
      match records, few, last with
      | [_], _, last => simpa using last
    exact materialize_reading (readable_gives htable) rfl hplan.1 ⟨rfl, rfl⟩ hrows
      (List.take_subset _ _) hrecords

end Gateway

/-- Every answer to a request to read comes of a reading. -/
theorem Operation.Returns.reading {g : Gateway σ δ} {snapshot : Snapshot}
    (supplied : g.source.Supplies (· = snapshot)) {o : Operation} {s t : Session σ δ}
    {records : List Record} (h : o.Returns g s records t) :
    ∃ r : Reading σ δ, r.Of g snapshot o records t := by
  cases h with
  | list h => exact Gateway.list_reading supplied h
  | window h => exact Gateway.window_reading supplied h
  | get h => exact Gateway.get_reading supplied h

/-- The records of a reading show the columns that its selection reads and the relations that are
attached, without what is hidden. -/
theorem Reading.Of.shows {g : Gateway σ δ} {snapshot : Snapshot} (selects : g.db.Selects snapshot)
    {r : Reading σ δ} {o : Operation} {t : Session σ δ} {records : List Record}
    (h : r.Of g snapshot o records t) :
    ∀ record ∈ records, Shows r.level (r.attached g snapshot) record := by
  obtain ⟨required, -, planned⟩ := h.plan
  obtain ⟨d, answer, answered, subset⟩ := h.rows
  have mem := Snapshot.mem_of_table? (Snapshot.resolve_eq_ok h.table)
  have read : ∀ record ∈ r.read, ∀ name, Entries.has name record = true ↔ name ∈ r.level.read := by
    have start := Level.read_of_rowsJson g.source r.answered.schema
      (l := r.level) fun row hrow => Level.read_of_fills mem h.selection.1
        (by rw [h.selection.2]; exact Plan.projection_eq_ok planned)
        (selects _ _ _ answered row (subset hrow))
    have result : (Convert.rowsJson g.source r.table r.rows r.answered.schema).1 = r.read :=
      congrArg Prod.fst (Action.gives_lift.mp h.read)
    rwa [← result]
  have start : Expansion.AllGrown r.level.read [] r.read := fun record hrecord =>
    ⟨_, .of_names (read record hrecord)⟩
  have grown : Expansion.AllGrown r.level.read (r.attached g snapshot)
      (Expansion.expand g.source g.db snapshot r.table r.read r.plan.fields r.looking).1 :=
    Expansion.expand_grown selects r.table start r.looking r.plan.fields
  have materialized := h.records
  unfold Gateway.materialize at materialized
  simp only [Action.gives_bind] at materialized
  obtain ⟨found, s₁, hfound, expanded, s₂, hexpanded, last⟩ := materialized
  obtain ⟨rfl, rfl⟩ := Action.gives_unique hfound h.read
  obtain ⟨rfl, rfl⟩ := Action.gives_pure.mp last
  rw [Action.gives_lift.mp hexpanded] at grown
  intro record hrecord
  obtain ⟨before, hbefore, rfl⟩ := List.mem_map.mp hrecord
  obtain ⟨items, whole⟩ := grown before hbefore
  exact whole.shows

/-- Every record that a request to read returns, and every related record within, has the columns that
are read and the relations that are attached at its level, without the hidden names; these are the names
that were asked for exactly if none of them is hidden. -/
theorem Operation.Returns.records_show {g : Gateway σ δ} {snapshot : Snapshot}
    (supplied : g.source.Supplies (· = snapshot)) (selects : g.db.Selects snapshot) {o : Operation}
    {s t : Session σ δ} {records : List Record} (h : o.Returns g s records t) :
    ∃ r : Reading σ δ, r.Of g snapshot o records t ∧
      ∀ record ∈ records, Shows r.level (r.attached g snapshot) record := by
  obtain ⟨r, hr⟩ := h.reading supplied
  exact ⟨r, hr, hr.shows selects⟩

/-! ## A relation under the name of a column -/

def postsTable : Table where
  name := "posts"
  columns := [
    { name := "id", tag := "integer", type := .scalar .integer, isKey := true },
    { name := "title", tag := "text", type := .scalar .text },
    { name := "author_id", tag := "integer", type := .scalar .integer }]
  foreignKeys := [⟨"posts_author_id_fkey", "author_id", "authors", "id"⟩]

def authorsTable : Table where
  name := "authors"
  columns := [
    { name := "id", tag := "integer", type := .scalar .integer, isKey := true },
    { name := "name", tag := "text", type := .scalar .text }]

def blogSnapshot : Snapshot where
  tables := [("authors", authorsTable), ("posts", postsTable)]

def blogRows (table : String) : List Row :=
  if table = "posts" then
    [[("author_id", .int 7), ("id", .int 1), ("title", .text "On names")]]
  else if table = "authors" then [[("id", .int 7), ("name", .text "Ann")]]
  else []

def blogGateway : Gateway Unit Unit where
  config := {}
  source := .fixed blogSnapshot
  db := .holding (.ofRank Cell.number) blogRows

/-- The titles of the posts, with the authors under the name of the column that refers to them. -/
def titlesWithAuthors : Params := [("select", ["title,author_id:authors(name)"])]

def titlesSelection : Selection where
  table := "posts"
  projection := .columns ["title", "author_id"]
  page := some ⟨0, 20⟩

/-- The session in which the titles were answered. -/
def titlesSession : Session Unit Unit where
  schema := ()
  database := ()
  sent := [.count "posts" [], .select titlesSelection]

def titlesReading : Reading Unit Unit where
  table := postsTable
  plan := {
    fields := [.column "title", .relation "authors" (some "author_id") [.column "name"] []]
    projection := .columns ["title", "author_id"]
    extra := ["author_id"] }
  selection := titlesSelection
  rows := [[("author_id", .int 7), ("title", .text "On names")]]
  answered := titlesSession
  read := [[("author_id", .int 7), ("title", .str "On names")]]
  looking := titlesSession

theorem blogGateway_supplies : blogGateway.source.Supplies (· = blogSnapshot) := by
  rintro t s h
  cases h
  rfl

theorem blogGateway_selects : blogGateway.db.Selects blogSnapshot := by
  refine Database.holding_selects (Semantics.ofRank_isOrder _) fun table hmem row hrow name => ?_
  rw [Entries.has_iff_mem_keys]
  simp only [blogSnapshot, List.map_cons, List.map_nil, List.mem_cons, List.not_mem_nil,
    or_false] at hmem
  rcases hmem with rfl | rfl
  · obtain rfl := List.mem_singleton.mp hrow
    exact Iff.rfl
  · obtain rfl := List.mem_singleton.mp hrow
    simp [Entries.keys, postsTable]
    tauto

theorem titlesWithAuthors_plan :
    Plan.ofParams {} blogSnapshot postsTable titlesWithAuthors [] = .ok titlesReading.plan := by
  have fields : Plan.fieldsOf titlesWithAuthors = .ok titlesReading.plan.fields := by cbv
  have cheap : Cost.checkRequest {} titlesReading.plan.fields titlesWithAuthors = .ok () := by
    decide +kernel
  have needed : Relationship.keyColumns blogSnapshot postsTable titlesReading.plan.fields =
      ["author_id"] := by
    decide +kernel
  have extra : (Expansion.extraColumns titlesReading.plan.fields ["author_id"]).eraseDups =
      ["author_id"] := by
    decide +kernel
  have projection : Expansion.projection postsTable titlesReading.plan.fields ["author_id"] =
      .ok (.columns ["title", "author_id"]) := by
    decide +kernel
  simp only [Plan.ofParams, fields, cheap, needed, extra, projection, List.append_nil, bind,
    Except.bind, pure, Except.pure]
  rfl

/-- The titles are answered, without the authors. -/
theorem titlesWithAuthors_gives : ∃ answer t,
    (blogGateway.list "posts" titlesWithAuthors).Gives { schema := (), database := () } answer t ∧
    (blogGateway.materialize blogSnapshot postsTable titlesReading.plan titlesReading.rows).Gives
      titlesSession answer.records t ∧
    answer.records.map Entries.keys = [["title"]] := by
  let made := (blogGateway.materialize blogSnapshot postsTable titlesReading.plan
    titlesReading.rows).run titlesSession
  have keys : made.1.toOption.map (·.map Entries.keys) = some [["title"]] := by decide +kernel
  obtain ⟨records, gives, keys⟩ := Action.gives_of_map keys
  refine ⟨⟨records, ⟨0, 20⟩, 1⟩, made.2, ?_, gives, keys⟩
  let s : Session Unit Unit := { schema := (), database := () }
  have rows : (blogGateway.db.query (.select titlesSelection) ()).1 = .ok titlesReading.rows := by cbv
  unfold Gateway.list Gateway.readable
  simp only [Action.gives_bind]
  refine ⟨blogSnapshot, s, Action.gives_look.mpr ⟨rfl, rfl⟩, postsTable, s, ?_, ⟨0, 20⟩, s,
    Action.gives_known.mpr ⟨by decide +kernel, rfl⟩, _, s,
    Action.gives_known.mpr ⟨titlesWithAuthors_plan, rfl⟩, [], s, Action.gives_look.mpr ⟨rfl, rfl⟩,
    [], s, Action.gives_known.mpr ⟨by decide +kernel, rfl⟩, 1,
    { s with sent := [.count "posts" []] }, rfl, titlesReading.rows, titlesSession, ?_, records, made.2,
    gives, Action.gives_pure.mpr ⟨rfl, rfl⟩⟩
  · exact ⟨postsTable, s, Action.gives_known.mpr ⟨by decide +kernel, rfl⟩, (), s, rfl, rfl⟩
  · exact Action.gives_classified.mpr (Action.gives_ask.mpr ⟨rows, rfl⟩)

theorem records_show_titlesWithAuthors :
    blogGateway.source.Supplies (· = blogSnapshot) ∧ blogGateway.db.Selects blogSnapshot ∧
      ∃ records t, (Operation.list "posts" titlesWithAuthors).Returns blogGateway
          { schema := (), database := () } records t ∧
        ∃ r : Reading Unit Unit, r.Of blogGateway blogSnapshot (.list "posts" titlesWithAuthors)
          records t ∧
          ∀ record ∈ records, Shows r.level (r.attached blogGateway blogSnapshot) record := by
  obtain ⟨answer, t, h, -⟩ := titlesWithAuthors_gives
  exact ⟨blogGateway_supplies, blogGateway_selects, answer.records, t, .list h,
    Operation.Returns.records_show blogGateway_supplies blogGateway_selects (.list h)⟩

/-- The authors are looked up and attached under the name of a column that is hidden, so that the records
show the titles only. -/
theorem titlesWithAuthors_lost : ∃ answer t,
    (blogGateway.list "posts" titlesWithAuthors).Gives { schema := (), database := () } answer t ∧
    titlesReading.Of blogGateway blogSnapshot (.list "posts" titlesWithAuthors) answer.records t ∧
    titlesReading.level.Asks (titlesReading.attached blogGateway blogSnapshot) "author_id" ∧
    answer.records.map Entries.keys = [["title"]] := by
  obtain ⟨answer, t, h, made, keys⟩ := titlesWithAuthors_gives
  have attached : (titlesReading.attached blogGateway blogSnapshot).map Attachment.output =
      ["author_id"] := by
    decide +kernel
  have rows : (blogGateway.db.query (.select titlesSelection) ()).1 = .ok titlesReading.rows := by cbv
  refine ⟨answer, t, h, ⟨by decide +kernel, ⟨[], rfl, titlesWithAuthors_plan⟩, ⟨rfl, rfl⟩, rfl,
    ⟨(), _, rows, fun _ => id⟩, rfl, made⟩, .inr ?_, keys⟩
  exact List.mem_map.mp (by rw [attached]; exact List.mem_singleton.mpr rfl)

end TableGateway
