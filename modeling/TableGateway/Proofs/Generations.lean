import TableGateway.Gateway.Operation
import TableGateway.Proofs.Agreement
import TableGateway.Proofs.Freshness
import TableGateway.Proofs.Injection

/-!
# Generations of the schema

A request works with the snapshot that it reads first, but looks up the labels of enums and the fields of
composite types once more wherever it needs them. So it sends the same statements and gives the same with all
sources that begin with one snapshot, as long as their later readings tell the same about the enums and the
composite types of that snapshot's columns; what else they tell does not matter. Main statement:
`Operation.one_generation`.
-/
namespace TableGateway

variable {σ τ δ α β : Type}

/-! ## Sessions that match -/

/-- The sources of two sessions are in related states, their databases in the same state, and the same was
sent. -/
structure Session.Match (R : σ → τ → Prop) (s : Session σ δ) (t : Session τ δ) : Prop where
  schema : R s.schema t.schema
  database : s.database = t.database
  sent : s.sent = t.sent

/-- Parts that do the same in sessions that match, and leave sessions that match. -/
abbrev Action.Alike (R : σ → τ → Prop) (x : Action σ δ α) (y : Action τ δ α) : Prop :=
  Lookup.Alike (Session.Match R) x y

variable {R : σ → τ → Prop}

theorem Session.read_alike {x : StateM σ α} {y : StateM τ α} (h : TableGateway.Alike R x y) :
    TableGateway.Alike (Match (δ := δ) R) (read x) (read y) := by
  intro s t same
  obtain ⟨outcome, related⟩ := h _ _ same.schema
  exact ⟨outcome, related, same.database, same.sent⟩

theorem Session.look_alike {x : Lookup σ α} {y : Lookup τ α} (h : Lookup.Alike R x y) :
    Action.Alike (δ := δ) R (look x) (look y) := read_alike h

namespace Database

variable (db : Database δ)

theorem ask_alike (st : Statement) :
    Action.Alike R (db.ask st : Action σ δ _) (db.ask st : Action τ δ _) := by
  intro s t same
  have answer : db.query st s.database = db.query st t.database := by rw [same.database]
  exact ⟨congrArg (·.1) answer, same.schema, congrArg (·.2) answer, congrArg (· ++ [st]) same.sent⟩

theorem apply_alike (st : Statement) :
    Action.Alike R (db.apply st : Action σ δ _) (db.apply st : Action τ δ _) := by
  intro s t same
  have answer : db.execute st s.database = db.execute st t.database := by rw [same.database]
  exact ⟨congrArg (·.1) answer, same.schema, congrArg (·.2) answer, congrArg (· ++ [st]) same.sent⟩

end Database

namespace Lookup.Alike

theorem lift {x : StateM σ α} {y : StateM τ α} (h : TableGateway.Alike R x y) :
    Lookup.Alike R (ExceptT.lift x) (ExceptT.lift y) := TableGateway.Alike.bind h fun _ => .pure _

theorem attempt {x : Action σ δ α} {y : Action τ δ α} (h : Action.Alike R x y) :
    Action.Alike R x.attempt y.attempt := lift h

theorem classified {x : Action σ δ α} {y : Action τ δ α} (h : Action.Alike R x y) :
    Action.Alike R (Gateway.classified x) (Gateway.classified y) :=
  TableGateway.Alike.bind h fun _ => .pure _

/-- A step for each item that gives nothing. -/
theorem forIn {f : α → Lookup σ Unit} {g : α → Lookup τ Unit} (h : ∀ a, Lookup.Alike R (f a) (g a)) :
    ∀ l : List α, Lookup.Alike R
      (ForIn.forIn l PUnit.unit fun a _ => do f a; Pure.pure (ForInStep.yield PUnit.unit))
      (ForIn.forIn l PUnit.unit fun a _ => do g a; Pure.pure (ForInStep.yield PUnit.unit))
  | [] => by
    rw [List.forIn_nil, List.forIn_nil]
    exact .pure _
  | a :: l => by
    rw [List.forIn_cons, List.forIn_cons, bind_assoc, bind_assoc]
    refine .bind (h a) fun _ => ?_
    rw [pure_bind, pure_bind]
    exact forIn h l

end Lookup.Alike

/-! ## Relations -/

namespace Expansion

variable {a : SchemaSource σ} {b : SchemaSource τ} {E F : String → Prop} {snapshot : Snapshot}

theorem condition_alike (agree : a.Agree b R E F) {target : Table} (enums : target.EnumsIn E)
    (column raw : String) :
    Lookup.Alike R (condition a target column raw) (condition b target column raw) := by
  refine .known_bind (target.resolve_outcome column) fun column hcolumn => .bind (.known _) fun _ => ?_
  have compared := Filter.compareWith_alike agree (enums column hcolumn)
  exact .ite (.bind (.pure _) fun _ => .pure _) (.bind (compared _ _) fun _ => .pure _)

theorem selection_alike (agree : a.Agree b R E F) {r : Relationship} (enums : r.related.EnumsIn E)
    (texts : List String) (children : List Field) (filters : Entries String) (extra : List String) :
    Lookup.Alike R (selection a r texts children filters extra)
      (selection b r texts children filters extra) := by
  refine .bind (.known _) fun projection => ?_
  refine .known_bind (r.related.resolve_outcome _) fun remote hremote => ?_
  refine .bind (.mapM fun text _ => Convert.ofText_alike agree (enums remote hremote) text) fun values => ?_
  exact .bind (.mapM fun (column, raw) _ => condition_alike agree enums column raw) fun _ => .pure _

variable (db : Database δ)

theorem fetch_alike (agree : a.Agree b R E F) {r : Relationship} (enums : r.related.EnumsIn E)
    (texts : List String) (children : List Field) (filters : Entries String) (extra : List String) :
    Action.Alike R (fetch a db r texts children filters extra)
      (fetch b db r texts children filters extra) := by
  refine .bind (Session.look_alike (selection_alike agree enums texts children filters extra)) fun s => ?_
  refine .bind (db.ask_alike _) fun rows => ?_
  exact .lift (Session.read_alike (Convert.rowsJson_alike agree enums rows))

mutual

/-- Relations are expanded alike, however deep they are nested. -/
theorem expand_alike (agree : a.Agree b R E F) (enums : ∀ t ∈ snapshot.tables.map (·.2), t.EnumsIn E)
    (table : Table) (records : List Record) : ∀ fields : List Field,
      Alike (Session.Match R) (expand a db snapshot table records fields)
        (expand b db snapshot table records fields)
  | [] => by
    rw [expand, expand]
    exact .pure _
  | f :: rest => by
    rw [expand, expand]
    exact .bind (expandField_alike agree enums table records f) fun records =>
      expand_alike agree enums table records rest

theorem expandField_alike (agree : a.Agree b R E F)
    (enums : ∀ t ∈ snapshot.tables.map (·.2), t.EnumsIn E) (table : Table) (records : List Record) :
    ∀ f : Field,
      Alike (Session.Match R) (expandField a db snapshot table records f)
        (expandField b db snapshot table records f)
  | .wildcard => by
    simp only [expandField]
    exact .pure _
  | .column name => by
    simp only [expandField]
    exact .pure _
  | .relation name label children filters => by
    rw [expandField, expandField]
    split
    · exact .pure _
    · rename_i r found
      have related := enums _ (Relationship.related_mem found)
      simp only
      split
      · exact .pure _
      · refine .bind (fetch_alike db agree related _ children filters _) fun answer => ?_
        split
        · exact .pure _
        · exact .bind (expand_alike agree enums r.related _ children) fun _ => .pure _

end
end Expansion

/-! ## The parts of a gateway -/

namespace Gateway

def withSource (g : Gateway σ δ) (b : SchemaSource τ) : Gateway τ δ := ⟨g.config, b, g.db⟩

variable {g : Gateway σ δ} {b : SchemaSource τ} {E F : String → Prop} {snapshot : Snapshot} {table : Table}

theorem authorize_alike (table : Table) (p : Privilege) :
    Action.Alike R (g.authorize table p) ((g.withSource b).authorize table p) :=
  .ite (.bind (.attempt (g.db.ask_alike _)) fun _ => .ite (.throw _) (.pure _)) (.pure _)

theorem fetch_alike (st : Statement) : Action.Alike R (g.fetch st) ((g.withSource b).fetch st) :=
  .classified (g.db.ask_alike st)

theorem apply_alike (st : Statement) : Action.Alike R (g.apply st) ((g.withSource b).apply st) :=
  .classified (g.db.apply_alike st)

theorem count_alike (table : Table) (filter : Where) :
    Action.Alike R (g.count table filter) ((g.withSource b).count table filter) :=
  .bind (fetch_alike _) fun _ => .pure _

theorem records_alike (agree : g.source.Agree b R E F) (enums : table.EnumsIn E) (rows : List Row) :
    Action.Alike R (g.records table rows) ((g.withSource b).records table rows) :=
  .lift (Session.read_alike (Convert.rowsJson_alike agree enums rows))

theorem materialize_alike (agree : g.source.Agree b R E F)
    (enums : ∀ t ∈ snapshot.tables.map (·.2), t.EnumsIn E) (known : table ∈ snapshot.tables.map (·.2))
    (plan : Plan) (rows : List Row) :
    Action.Alike R (g.materialize snapshot table plan rows)
      ((g.withSource b).materialize snapshot table plan rows) :=
  .bind (records_alike agree (enums table known) rows) fun records =>
    .bind (.lift (Expansion.expand_alike g.db agree enums table records plan.fields)) fun _ => .pure _

theorem first?_alike (agree : g.source.Agree b R E F) (enums : table.EnumsIn E) (st : Statement) :
    Action.Alike R (g.first? table st) ((g.withSource b).first? table st) :=
  .bind (fetch_alike st) fun rows => .bind (records_alike agree enums rows) fun _ => .pure _

theorem find?_alike (agree : g.source.Agree b R E F) (enums : table.EnumsIn E) (key : String) :
    Action.Alike R (g.find? table key) ((g.withSource b).find? table key) :=
  .bind (Session.look_alike (Build.keyFilter_alike agree enums key)) fun _ => first?_alike agree enums _

theorem reread_alike (agree : g.source.Agree b R E F) (enums : table.EnumsIn E) (record : Record) :
    Action.Alike R (g.reread table record) ((g.withSource b).reread table record) := by
  unfold reread
  split
  · exact .pure _
  · exact .bind (find?_alike agree enums _) fun _ => .pure _

theorem changed?_alike (agree : g.source.Agree b R E F) (enums : table.EnumsIn E) (key : String)
    (record : Record) (st : Statement) :
    Action.Alike R (g.changed? table key record st) ((g.withSource b).changed? table key record st) :=
  .bind (apply_alike st) fun _ => .ite (.pure _) (find?_alike agree enums _)

/-- A record that was looked for is found by both or by none. -/
theorem found_alike (found : Option Record) :
    Action.Alike R (match found with | some record => pure record | none => throw .notFound :
      Action σ δ Record)
      (match found with | some record => pure record | none => throw .notFound) := by
  cases found with
  | some record => exact .pure record
  | none => exact .throw _

theorem insertion_alike (agree : g.source.Agree b R E F) (enums : table.EnumsIn E)
    (fields : table.CompositesIn F) (payload : Payload) :
    Lookup.Alike R (g.insertion table payload) ((g.withSource b).insertion table payload) := by
  cases payload with
  | single record => exact Build.insert_alike agree enums fields record _
  | many records => exact Build.insertAll_alike agree enums fields records _

/-- A request to read goes on with a table of the snapshot. -/
theorem readable_bind {f : Table → Action σ δ α} {f' : Table → Action τ δ α} {name : String}
    (h : ∀ table ∈ snapshot.tables.map (·.2), Action.Alike R (f table) (f' table)) :
    Action.Alike R (g.readable snapshot name >>= f) ((g.withSource b).readable snapshot name >>= f') := by
  unfold readable
  rw [bind_assoc, bind_assoc]
  refine .known_bind (.self _) fun table resolved => ?_
  rw [bind_assoc, bind_assoc]
  refine .bind (authorize_alike table .select) fun _ => ?_
  rw [pure_bind, pure_bind]
  exact h table (Snapshot.mem_of_table? (Snapshot.resolve_eq_ok resolved))

end Gateway

/-! ## Generations -/

/-- Some column is of the enum, or of arrays of it. -/
def Snapshot.UsesEnum (s : Snapshot) (name : String) : Prop :=
  ∃ table ∈ s.tables.map (·.2), ∃ column ∈ table.columns, column.type.baseElement = .enumeration name

/-- Some column that can be written is of the composite type, or of arrays of it. -/
def Snapshot.UsesComposite (s : Snapshot) (name : String) : Prop :=
  ∃ table ∈ s.tables.map (·.2), table.isView = false ∧
    ∃ column ∈ table.columns, column.type.baseElement = .composite name

theorem Snapshot.enumsIn (s : Snapshot) : ∀ table ∈ s.tables.map (·.2), table.EnumsIn s.UsesEnum :=
  fun table known column declared _ used => ⟨table, known, column, declared, used⟩

theorem Snapshot.compositesIn {s : Snapshot} {table : Table} (known : table ∈ s.tables.map (·.2))
    (written : table.isView = false) : table.CompositesIn s.UsesComposite :=
  fun column declared _ used => ⟨table, known, written, column, declared, used⟩

namespace SchemaSource

/-- The outcome of a reading, counted from a state on. -/
def reading (source : SchemaSource σ) : Nat → σ → Except Fault Snapshot
  | 0, t => (source.snapshot t).1
  | k + 1, t => reading source k (source.snapshot t).2

/-- All readings from two states on tell the same about the types that a snapshot uses. -/
def SameReadings (a : SchemaSource σ) (b : SchemaSource τ) (s : Snapshot) (t : σ) (u : τ) : Prop :=
  ∀ k, SameTypes s.UsesEnum s.UsesComposite (a.reading k t) (b.reading k u)

theorem agree_sameReadings (a : SchemaSource σ) (b : SchemaSource τ) (s : Snapshot) :
    a.Agree b (a.SameReadings b s) s.UsesEnum s.UsesComposite :=
  fun _ _ same => ⟨same 0, fun k => same (k + 1)⟩

/-- Two sources begin with one snapshot, and what they tell later is the same about the types that it uses. -/
structure Begin (a : SchemaSource σ) (b : SchemaSource τ) (s : Snapshot) (t : σ) (u : τ) : Prop where
  first : a.reading 0 t = .ok s
  first' : b.reading 0 u = .ok s
  later : a.SameReadings b s (a.snapshot t).2 (b.snapshot u).2

end SchemaSource

/-- A request has the same outcome in both sessions, after the same statements to a database in the same
state. -/
structure Action.SameFrom (s : Session σ δ) (t : Session τ δ) (x : Action σ δ α) (y : Action τ δ α) :
    Prop where
  outcome : (x.run s).1 = (y.run t).1
  sent : (x.run s).2.sent = (y.run t).2.sent
  database : (x.run s).2.database = (y.run t).2.database

namespace Action.SameFrom

variable {s : Session σ δ} {t : Session τ δ} {x : Action σ δ α} {y : Action τ δ α}

theorem of_alike (h : Action.Alike R x y) (same : s.Match R t) : SameFrom s t x y :=
  have ⟨outcome, after⟩ := h s t same
  ⟨outcome, after.sent, after.database⟩

theorem map (h : SameFrom s t x y) (f : α → β) :
    SameFrom s t (do return f (← x)) (do return f (← y)) := by
  obtain ⟨outcome, sent, database⟩ := h
  have run {ρ : Type} (z : Action ρ δ α) (r : Session ρ δ) :
      (do return f (← z) : Action ρ δ β).run r = ((z.run r).1.map f, (z.run r).2) := by
    rw [Lookup.run_bind]
    cases (z.run r).1 <;> rfl
  constructor
  · rw [run, run, outcome]
  · rw [run, run]
    exact sent
  · rw [run, run]
    exact database

end Action.SameFrom

namespace Gateway

variable {g : Gateway σ δ} {b : SchemaSource τ} {s : Snapshot} {t : σ} {u : τ}
  (begins : g.source.Begin b s t u) (d : δ)
include begins

/-- After the first reading, all that matters is what is read later. -/
theorem snapshot_bind {f : Snapshot → Action σ δ α} {f' : Snapshot → Action τ δ α}
    (h : Action.Alike (g.source.SameReadings b s) (f s) (f' s)) :
    Action.SameFrom { schema := t, database := d } { schema := u, database := d }
      (g.snapshot >>= f) ((g.withSource b).snapshot >>= f') := by
  have run {ρ : Type} (g : Gateway ρ δ) {r : ρ} (first : g.source.reading 0 r = .ok s)
      (f : Snapshot → Action ρ δ α) :
      (g.snapshot >>= f).run { schema := r, database := d } =
        (f s).run { schema := (g.source.snapshot r).2, database := d } := by
    have opened : g.snapshot.run { schema := r, database := d } =
        (g.source.reading 0 r, { schema := (g.source.snapshot r).2, database := d }) := rfl
    rw [Lookup.run_bind, opened, first]
  have later : Action.SameFrom { schema := (g.source.snapshot t).2, database := d }
      { schema := (b.snapshot u).2, database := d } (f s) (f' s) :=
    .of_alike h ⟨begins.later, rfl, rfl⟩
  have runs := run g begins.first f
  have runs' := run (g.withSource b) begins.first' f'
  constructor
  · rw [runs, runs']
    exact later.outcome
  · rw [runs, runs']
    exact later.sent
  · rw [runs, runs']
    exact later.database

theorem list_same (name : String) (params : Params) :
    Action.SameFrom { schema := t, database := d } { schema := u, database := d }
      (g.list name params) ((g.withSource b).list name params) := by
  have agree := g.source.agree_sameReadings b s
  refine snapshot_bind begins d (readable_bind fun table known => ?_)
  refine .bind (.known _) fun page => .bind (.known _) fun plan => ?_
  refine .bind (Session.look_alike
    (Filter.conditions_alike agree (s.enumsIn table known) params)) fun filter => ?_
  refine .bind (.known _) fun order => .bind (count_alike table filter) fun total => ?_
  refine .bind (fetch_alike _) fun rows => ?_
  exact .bind (materialize_alike agree s.enumsIn known plan rows) fun _ => .pure _

theorem window_same (name : String) (params : Params) :
    Action.SameFrom { schema := t, database := d } { schema := u, database := d }
      (g.window name params) ((g.withSource b).window name params) := by
  have agree := g.source.agree_sameReadings b s
  refine snapshot_bind begins d (readable_bind fun table known => ?_)
  refine .bind (.known _) fun window => .bind (.known _) fun order => .bind (.known _) fun plan => ?_
  refine .bind (Session.look_alike
    (Filter.conditions_alike agree (s.enumsIn table known) params)) fun filter => ?_
  refine .known_bind (table.resolve_outcome _) fun column declared => ?_
  have cursors := cursorCondition_alike agree (s.enumsIn table known column declared)
  refine .bind (Session.look_alike (cursors _ _)) fun after => ?_
  refine .bind (Session.look_alike (cursors _ _)) fun before => ?_
  refine .bind (count_alike table filter) fun total => .bind (fetch_alike _) fun rows => ?_
  exact .bind (materialize_alike agree s.enumsIn known plan _) fun _ => .pure _

theorem get_same (name key : String) (params : Params) :
    Action.SameFrom { schema := t, database := d } { schema := u, database := d }
      (g.get name key params) ((g.withSource b).get name key params) := by
  have agree := g.source.agree_sameReadings b s
  refine snapshot_bind begins d (readable_bind fun table known => ?_)
  refine .bind (.known _) fun plan => ?_
  refine .bind (Session.look_alike
    (Build.keyFilter_alike agree (s.enumsIn table known) key)) fun filter => ?_
  refine .bind (fetch_alike _) fun rows => ?_
  exact .bind (materialize_alike agree s.enumsIn known plan _) fun _ => found_alike _

/-- A request to write goes on with a table of the snapshot that is no view. -/
theorem writable_bind {f : Table → Action σ δ α} {f' : Table → Action τ δ α} {name : String}
    {privileges : List Privilege}
    (h : ∀ table ∈ s.tables.map (·.2), table.isView = false →
      Action.Alike (g.source.SameReadings b s) (f table) (f' table)) :
    Action.SameFrom { schema := t, database := d } { schema := u, database := d }
      (g.writable name privileges >>= f) ((g.withSource b).writable name privileges >>= f') := by
  unfold writable
  rw [bind_assoc, bind_assoc]
  refine snapshot_bind begins d ?_
  rw [bind_assoc, bind_assoc]
  refine .known_bind (.self _) fun table resolved => ?_
  have known := Snapshot.mem_of_table? (Snapshot.resolve_eq_ok resolved)
  simp only
  split
  · exact fun _ _ same => ⟨rfl, same⟩
  · rename_i written
    rw [bind_assoc, bind_assoc]
    refine .bind (.forIn (authorize_alike table) privileges) fun _ => ?_
    rw [pure_bind, pure_bind]
    exact h table known (by simpa using written)

theorem create_same (name : String) (body : Json) :
    Action.SameFrom { schema := t, database := d } { schema := u, database := d }
      (g.create name body) ((g.withSource b).create name body) := by
  have agree := g.source.agree_sameReadings b s
  refine writable_bind begins d fun table known written => ?_
  have enums := s.enumsIn table known
  refine .bind (.known _) fun payload => ?_
  refine .bind (Session.look_alike
    (insertion_alike agree enums (Snapshot.compositesIn known written) payload)) fun st => ?_
  refine .ite ?_ ?_
  · exact .bind (fetch_alike st) fun rows => .bind (records_alike agree enums rows) fun _ => .pure _
  · refine .bind (apply_alike st) fun _ => ?_
    exact .bind (.mapM fun record _ => reread_alike agree enums record) fun _ => .pure _

theorem update_same (name key : String) (body : Json) :
    Action.SameFrom { schema := t, database := d } { schema := u, database := d }
      (g.update name key body) ((g.withSource b).update name key body) := by
  have agree := g.source.agree_sameReadings b s
  refine writable_bind begins d fun table known written => ?_
  have enums := s.enumsIn table known
  split
  · rename_i record
    refine .bind (Session.look_alike (Build.keyFilter_alike agree enums key)) fun filter => ?_
    refine .bind (Session.look_alike (Build.update_alike agree enums
      (Snapshot.compositesIn known written) record filter _)) fun st => ?_
    exact .ite (.bind (first?_alike agree enums st) found_alike)
      (.bind (changed?_alike agree enums key record st) found_alike)
  · exact .throw _

theorem upsert_same (name : String) (body : Json) :
    Action.SameFrom { schema := t, database := d } { schema := u, database := d }
      (g.upsert name body) ((g.withSource b).upsert name body) := by
  have agree := g.source.agree_sameReadings b s
  refine writable_bind begins d fun table known written => ?_
  have enums := s.enumsIn table known
  refine .bind (.known _) fun payload => ?_
  refine .bind (Session.look_alike (Build.upsertAll_alike agree enums
    (Snapshot.compositesIn known written) payload.records)) fun st => ?_
  exact .bind (fetch_alike st) fun rows => .bind (records_alike agree enums rows) fun _ => .pure _

theorem delete_same (name key : String) :
    Action.SameFrom { schema := t, database := d } { schema := u, database := d }
      (g.delete name key) ((g.withSource b).delete name key) := by
  have agree := g.source.agree_sameReadings b s
  refine writable_bind begins d fun table known _ => ?_
  refine .bind (Session.look_alike
    (Build.keyFilter_alike agree (s.enumsIn table known) key)) fun filter => ?_
  exact .bind (apply_alike _) fun n => .ite (.throw_bind _) (.pure _)

theorem read_same (name : String) (params : Params) :
    Action.SameFrom { schema := t, database := d } { schema := u, database := d }
      (g.read name params) ((g.withSource b).read name params) := by
  unfold read
  split
  · exact (window_same begins d name params).map _
  · exact (list_same begins d name params).map _

end Gateway

namespace Operation

/-- Every operation is the same for sources that begin alike. -/
theorem perform_same {g : Gateway σ δ} {b : SchemaSource τ} {s : Snapshot} {t : σ} {u : τ}
    (begins : g.source.Begin b s t u) (d : δ) (op : Operation) :
    Action.SameFrom { schema := t, database := d } { schema := u, database := d }
      (op.perform g) (op.perform (g.withSource b)) := by
  cases op with
  | list name params => exact (Gateway.list_same begins d name params).map _
  | window name params => exact (Gateway.window_same begins d name params).map _
  | get name key params => exact (Gateway.get_same begins d name key params).map _
  | create name body => exact Gateway.create_same begins d name body
  | update name key body => exact (Gateway.update_same begins d name key body).map _
  | upsert name body => exact Gateway.upsert_same begins d name body
  | delete name key => exact (Gateway.delete_same begins d name key).map _

/-- If no column is of an enum or of a composite type, a request sees one generation of the schema only. -/
theorem perform_same_of_plain {g : Gateway σ δ} {b : SchemaSource τ} {s : Snapshot} {t : σ} {u : τ}
    (first : g.source.reading 0 t = .ok s) (first' : b.reading 0 u = .ok s)
    (enums : ∀ name, ¬ s.UsesEnum name) (composites : ∀ name, ¬ s.UsesComposite name) (d : δ)
    (op : Operation) :
    Action.SameFrom { schema := t, database := d } { schema := u, database := d }
      (op.perform g) (op.perform (g.withSource b)) :=
  perform_same ⟨first, first', fun _ =>
    ⟨fun name used => absurd used (enums name), fun name used => absurd used (composites name)⟩⟩ d op

end Operation

namespace Cache

variable {loader : Loader} {s : Snapshot}

theorem load_outcome (c : Cache) : (c.load loader).1 = loader c.loads := by
  unfold load
  cases loader c.loads <;> rfl

theorem load_loads (c : Cache) : (c.load loader).2.loads = c.loads + 1 := by
  unfold load
  cases loader c.loads <;> rfl

/-- A cache whose snapshots have no lifetime loads for each reading. -/
theorem reading_zero (loader : Loader) : ∀ (k : Nat) (c : Cache),
    (source loader .zero).reading k c = loader (c.loads + k)
  | 0, c => load_outcome c
  | k + 1, c => by
    show (source loader .zero).reading k (c.load loader).2 = loader (c.loads + (k + 1))
    rw [reading_zero, load_loads, Nat.add_assoc, Nat.add_comm 1]

/-- What was read is kept. -/
theorem kept_of_read {lifetime : Lifetime} {c : Cache} (first : (c.read loader lifetime).1 = .ok s) :
    (c.read loader lifetime).2.kept = some s := by
  rcases read_cases loader lifetime c with ⟨-, s', kept, served⟩ | ⟨-, loaded⟩
  · rw [served] at first ⊢
    cases first
    exact kept
  · rw [loaded] at first ⊢
    rw [load_outcome] at first
    unfold load
    rw [first]

/-- A cache whose snapshots have an endless lifetime goes on to tell what it told once. -/
theorem reading_endless : ∀ {k : Nat} {c : Cache},
    (source loader .endless).reading 0 c = .ok s → (source loader .endless).reading k c = .ok s
  | 0, _, first => first
  | k + 1, c, first => by
    have kept : (c.read loader .endless).2.kept = some s := kept_of_read first
    refine reading_endless (k := k) ?_
    show (read loader .endless (c.read loader .endless).2).1 = .ok s
    generalize (c.read loader .endless).2 = c' at kept ⊢
    unfold read fresh?
    rw [kept]

end Cache

namespace Operation

/-- While snapshots outlast it, a request sees one generation of the schema only. -/
theorem perform_same_of_endless {config : Config} {db : Database δ} {loader loader' : Loader}
    {s : Snapshot} {c c' : Cache} (first : (Cache.source loader .endless).reading 0 c = .ok s)
    (first' : (Cache.source loader' .endless).reading 0 c' = .ok s) (d : δ) (op : Operation) :
    Action.SameFrom { schema := c, database := d } { schema := c', database := d }
      (op.perform ⟨config, Cache.source loader .endless, db⟩)
      (op.perform ⟨config, Cache.source loader' .endless, db⟩) := by
  refine perform_same (g := ⟨config, Cache.source loader .endless, db⟩) ⟨first, first', fun k => ?_⟩ d op
  have told := Cache.reading_endless (k := k + 1) first
  have told' := Cache.reading_endless (k := k + 1) first'
  rw [SchemaSource.reading] at told told'
  show SameTypes _ _ ((Cache.source loader .endless).reading k _) _
  rw [told, told']
  exact .refl _

/-- Whatever a client asks for, what is sent and what is answered depends on the first snapshot, and of later
ones only on the labels of the enums and the fields of the composite types that its columns have. -/
theorem one_generation {g : Gateway σ δ} {b : SchemaSource τ} {s : Snapshot} {t : σ} {u : τ}
    (begins : g.source.Begin b s t u) (d : δ) :
    (∀ op : Operation, Action.SameFrom { schema := t, database := d } { schema := u, database := d }
      (op.perform g) (op.perform (g.withSource b))) ∧
    ∀ name params, Action.SameFrom { schema := t, database := d } { schema := u, database := d }
      (g.read name params) ((g.withSource b).read name params) :=
  ⟨perform_same begins d, Gateway.read_same begins d⟩

end Operation

def moodyPosts : Snapshot :=
  { tables := [("posts", { name := "posts", columns := [
      { name := "id", tag := "integer", type := .scalar .integer, isKey := true },
      { name := "mood", tag := "postgres_enum:mood", type := .enumeration "mood" }] })]
    enums := [("mood", ["sad", "happy"])] }

/-- A gateway to posts with a mood, whose schema is loaded for each reading. -/
def moodyGateway : Gateway Cache Unit :=
  { config := {}, source := Cache.source (.ofList [.ok moodyPosts]) .zero, db := .empty }

/-- The source in which there are only moods after the first reading. -/
def moodsOnly : SchemaSource Cache :=
  Cache.source (.ofList [.ok moodyPosts, .ok { enums := moodyPosts.enums }]) .zero

/-- The source in which there is nothing after the first reading. -/
def moodsForgotten : SchemaSource Cache := Cache.source (.ofList [.ok moodyPosts, .ok {}]) .zero

def gladPosts : Operation := .list "posts" [("mood", ["eq.glad"])]

theorem one_generation_gladPosts : moodyGateway.source.Begin moodsOnly moodyPosts {} {} ∧
    Action.SameFrom { schema := {}, database := () } { schema := {}, database := () }
      (gladPosts.perform moodyGateway) (gladPosts.perform (moodyGateway.withSource moodsOnly)) := by
  have begins : moodyGateway.source.Begin moodsOnly moodyPosts {} {} := by
    refine ⟨rfl, rfl, fun k => ?_⟩
    have told : moodyGateway.source.reading k (moodyGateway.source.snapshot {}).2 = .ok moodyPosts := by
      show (Cache.source _ .zero).reading k _ = _
      rw [Cache.reading_zero]
      simp [Loader.ofList]
    have told' : moodsOnly.reading k (moodsOnly.snapshot {}).2 = .ok { enums := moodyPosts.enums } := by
      show (Cache.source _ .zero).reading k _ = _
      have loads : (moodsOnly.snapshot {}).2.loads = 1 := rfl
      rw [Cache.reading_zero, loads]
      simp [Loader.ofList]
    rw [told, told']
    exact ⟨fun _ _ => rfl, fun _ _ => rfl⟩
  exact ⟨begins, (Operation.one_generation begins ()).1 gladPosts⟩

/-- No post can be glad, but where the moods are forgotten the glad posts are asked for. -/
theorem gladPosts_asked :
    moodyGateway.source.reading 0 {} = .ok moodyPosts ∧ moodsForgotten.reading 0 {} = .ok moodyPosts ∧
    ((gladPosts.perform moodyGateway).run { schema := {}, database := () }).1 =
      .error (.invalidEnumValue "mood" "glad") ∧
    ((gladPosts.perform moodyGateway).run { schema := {}, database := () }).2.sent = [] ∧
    ((gladPosts.perform (moodyGateway.withSource moodsForgotten)).run
      { schema := {}, database := () }).2.sent.map Statement.sql =
      ["SELECT COUNT(*) AS count FROM posts WHERE mood = ?::mood",
        "SELECT * FROM posts WHERE mood = ?::mood LIMIT ? OFFSET ?"] ∧
    ¬ Action.SameFrom { schema := {}, database := () } { schema := {}, database := () }
      (gladPosts.perform moodyGateway) (gladPosts.perform (moodyGateway.withSource moodsForgotten)) := by
  refine ⟨rfl, rfl, rfl, rfl, by decide +kernel, fun same => ?_⟩
  have count := congrArg List.length same.sent
  revert count
  decide +kernel

end TableGateway
