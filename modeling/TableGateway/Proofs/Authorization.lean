import TableGateway.Proofs.ComplexityBound
import TableGateway.Proofs.Projection
import TableGateway.Proofs.Rejection
import TableGateway.Proofs.RelationLookup

/-!
# Authorization

When privileges are asked for, a request to read asks once, about the table that it names. If that is denied,
nothing is read. Otherwise it may read that table and the tables that its relations lead to, and for these no
privilege is asked for. Main statements: `Operation.perform_denied`, `Operation.reads_permitted`.
-/
namespace TableGateway

variable {σ δ : Type}

/-- The table that the statement reads, if it reads one. -/
def Statement.source? : Statement → Option String
  | select s => some s.table
  | count table _ => some table
  | _ => none

/-- The database denies a privilege on a table, in all of its states. -/
def Database.Denies (db : Database δ) (p : Privilege) (table : Table) : Prop :=
  ∀ d, Gateway.isDenied (db.query (p.question table) d).1 = true

/-! ## Relations -/

/-- The relation is one of those in a list of fields of a table, at whatever level. -/
inductive Relationship.Reached (snapshot : Snapshot) : Table → List Field → Relationship → Prop
  | here {table : Table} {fields : List Field} {name : String} {label : Option String}
      {children : List Field} {filters : Entries String} {r : Relationship}
      (field : .relation name label children filters ∈ fields)
      (found : resolve? snapshot table name = some r) : Reached snapshot table fields r
  | within {table : Table} {fields : List Field} {name : String} {label : Option String}
      {children : List Field} {filters : Entries String} {r inner : Relationship}
      (field : .relation name label children filters ∈ fields)
      (found : resolve? snapshot table name = some r)
      (h : Reached snapshot r.related children inner) : Reached snapshot table fields inner

theorem Relationship.Reached.mono {snapshot : Snapshot} {table : Table} {fields more : List Field}
    {r : Relationship} (h : Reached snapshot table fields r) (sub : fields ⊆ more) :
    Reached snapshot table more r := by
  cases h with
  | here field found => exact .here (sub field) found
  | within field found h => exact .within (sub field) found h

/-- The statement looks up the rows of the related table that belong to some values. -/
def Statement.LooksUp (r : Relationship) (st : Statement) : Prop :=
  ∃ projection column values conditions, r.related.resolve r.remoteColumn = .ok column ∧
    st = .select {
      table := r.related.name
      projection
      filter := (Expansion.among column values :: conditions).map .one }

namespace Expansion

variable {source : SchemaSource σ} {db : Database δ} {snapshot : Snapshot} {P : Statement → Prop}

theorem fetch_looks {r : Relationship} (h : ∀ st, st.LooksUp r → P st) (texts : List String)
    (children : List Field) (filters : Entries String) (extra : List String) :
    (fetch source db r texts children filters extra).Sends P (fun _ => True) (fun _ => True) := by
  unfold fetch
  refine .bind (.look (.gives _)) fun chosen ⟨t, u, gives⟩ => ?_
  have looks : (Statement.select chosen).LooksUp r := by
    obtain ⟨projection, column, values, _, conditions, -, hcolumn, -, -, rfl⟩ := selection_gives.mp gives
    exact ⟨projection, column, values, conditions, hcolumn, rfl⟩
  refine .bind (.ask (h _ looks) fun _ => .any _) fun rows _ => ?_
  exact .lift (.read fun _ => trivial)

mutual

/-- Whatever is sent for a list of fields looks up one of the relations in it. -/
theorem expand_looks (table : Table) (records : List Record) : ∀ fields : List Field,
    (∀ r st, Relationship.Reached snapshot table fields r → st.LooksUp r → P st) →
    Session.Sends (expand source db snapshot table records fields) P (fun _ => True)
  | [], _ => by
    rw [expand]
    exact .pure trivial
  | f :: rest, h => by
    rw [expand]
    refine .bind (expandField_looks table records f fun r st reached => h r st (reached.mono ?_))
      fun records _ => expand_looks table records rest fun r st reached => h r st (reached.mono ?_)
    · simp
    · simp

theorem expandField_looks (table : Table) (records : List Record) : ∀ f : Field,
    (∀ r st, Relationship.Reached snapshot table [f] r → st.LooksUp r → P st) →
    Session.Sends (expandField source db snapshot table records f) P (fun _ => True)
  | .wildcard, _ => by
    simp only [expandField]
    exact .pure trivial
  | .column name, _ => by
    simp only [expandField]
    exact .pure trivial
  | .relation name label children filters, h => by
    rw [expandField]
    split
    · exact .pure trivial
    · rename_i r found
      simp only
      split
      · exact .pure trivial
      · refine .bind (fetch_looks (h r · (.here (List.mem_singleton_self _) found)) _ _ _ _) fun answer _ => ?_
        split
        · exact .pure trivial
        · exact .bind (expand_looks _ _ children fun inner st reached =>
            h inner st (.within (List.mem_singleton_self _) found reached)) fun items _ => .pure trivial

end
end Expansion

/-! ## The privilege -/

/-- A plan is made for the fields that a request asks for. -/
theorem Plan.ofParams_fields (limits : ComplexityLimits) (snapshot : Snapshot) (table : Table)
    (params : Params) (required : List String) :
    Outcome (fun plan => Plan.fieldsOf params = .ok plan.fields) (fun _ => True)
      (Plan.ofParams limits snapshot table params required) := by
  unfold ofParams
  refine .bind (.self _) fun fields hfields => .bind (.any _) fun _ _ => ?_
  exact .bind (.any _) fun projection _ => .ok hfields

/-- The answer to a statement is one that the database gives in some state. -/
theorem Action.ask_answer {db : Database δ} {st : Statement} {P : Statement → Prop} {E : Fault → Prop}
    (h : P st) : (db.ask st : Action σ δ _).attempt.Sends P
      (fun answer => ∃ d, (db.query st d).1 = answer) E :=
  fun s => ⟨[st], rfl, by simpa using h, .ok ⟨s.database, rfl⟩⟩

namespace Gateway

variable {g : Gateway σ δ} (checked : g.config.database.checkPermissions = true)
  {snapshot : Snapshot} {P : Statement → Prop}
include checked

/-- After the question about a privilege, the database does not deny it in all of its states. -/
theorem authorize_permits {table : Table} {p : Privilege} (h : P (p.question table)) :
    (g.authorize table p).Sends P (fun _ => ¬ g.db.Denies p table) (fun _ => True) := by
  unfold authorize
  rw [if_pos checked]
  refine .bind (Action.ask_answer h) fun answer ⟨d, asked⟩ => ?_
  split
  · exact .throw trivial
  · rename_i permitted
    refine .pure fun denies => permitted ?_
    rw [← asked]
    exact denies d

/-- A privilege that is denied is asked for, and nothing else is done. -/
theorem authorize_denied {table : Table} {p : Privilege} (denied : g.db.Denies p table) :
    (g.authorize table p).Sends (· = p.question table) (fun _ => False)
      (· = .forbidden table.name p.name) := by
  unfold authorize
  rw [if_pos checked]
  refine .bind (Action.ask_answer rfl) fun answer ⟨d, asked⟩ => ?_
  rw [← asked, if_pos (denied d)]
  exact .throw rfl

theorem readable_permits {name : String}
    (h : ∀ table, snapshot.resolve name = .ok table → P (Privilege.select.question table)) :
    (g.readable snapshot name).Sends P
      (fun table => snapshot.resolve name = .ok table ∧ ¬ g.db.Denies .select table)
      (fun _ => True) := by
  unfold readable
  refine .bind (.known (.self _)) fun table resolved => ?_
  exact .bind (authorize_permits checked (h table resolved)) fun _ permitted =>
    .pure ⟨resolved, permitted⟩

theorem readable_denied {name : String} {table : Table} (resolved : snapshot.resolve name = .ok table)
    (denied : g.db.Denies .select table) :
    (g.readable snapshot name).Sends (· = Privilege.select.question table) (fun _ => False)
      (· = .forbidden table.name "SELECT") := by
  unfold readable
  rw [resolved]
  refine .bind (.known (.ok (Q := (· = table)) rfl)) fun found same => ?_
  rw [same]
  exact .bind (authorize_denied checked denied) fun _ h => h.elim

end Gateway

/-! ## Requests to read -/

namespace Operation

variable {g : Gateway σ δ} {schema : σ}

/-- The statement may be sent for a request to read. -/
structure Permits (op : Operation) (g : Gateway σ δ) (schema : σ) (st : Statement) : Prop where
  /-- A question about a privilege is about reading the table of the request. -/
  asks : ∀ table privilege, st = .privilege table privilege →
    ∃ table, op.IsAbout g.source schema table ∧ st = Privilege.select.question table
  /-- A table that is read is that of the request, which is not denied, or the related table of a relation
  in the request. -/
  reads : ∀ name, st.source? = some name → ∃ snapshot table,
    (g.source.snapshot schema).1 = .ok snapshot ∧ snapshot.resolve op.target = .ok table ∧
    ¬ g.db.Denies .select table ∧
    (name = table.name ∨ ∃ fields r, Plan.fieldsOf op.params = .ok fields ∧
      Relationship.Reached snapshot table fields r ∧ st.LooksUp r)

/-- The table of the request is known, and not denied. -/
structure Opens (op : Operation) (g : Gateway σ δ) (schema : σ) (snapshot : Snapshot) (table : Table) :
    Prop where
  supplied : (g.source.snapshot schema).1 = .ok snapshot
  resolved : snapshot.resolve op.target = .ok table
  permitted : ¬ g.db.Denies .select table

variable {op : Operation} {snapshot : Snapshot} {table : Table}

theorem permits_question (about : op.IsAbout g.source schema table) :
    op.Permits g schema (Privilege.select.question table) where
  asks _ _ _ := ⟨table, about, rfl⟩
  reads := nofun

theorem Opens.permits (h : op.Opens g schema snapshot table) {st : Statement}
    (own : st.source? = some table.name) : op.Permits g schema st where
  asks := by
    rintro _ _ rfl
    cases own
  reads := by
    intro name read
    rw [own] at read
    cases read
    exact ⟨snapshot, table, h.supplied, h.resolved, h.permitted, .inl rfl⟩

theorem Opens.permits_lookup (h : op.Opens g schema snapshot table) {fields : List Field}
    {r : Relationship} {st : Statement} (asked : Plan.fieldsOf op.params = .ok fields)
    (reached : Relationship.Reached snapshot table fields r) (looks : st.LooksUp r) :
    op.Permits g schema st where
  asks := by
    rintro _ _ rfl
    obtain ⟨_, _, _, _, -, select⟩ := looks
    cases select
  reads _ _ := ⟨snapshot, table, h.supplied, h.resolved, h.permitted,
    .inr ⟨fields, r, asked, reached, looks⟩⟩

theorem Opens.materialize (h : op.Opens g schema snapshot table) {plan : Plan}
    (asked : Plan.fieldsOf op.params = .ok plan.fields) (rows : List Row) :
    (g.materialize snapshot table plan rows).Sends (op.Permits g schema) (fun _ => True)
      (fun _ => True) := by
  unfold Gateway.materialize
  refine .bind (Gateway.records_sends table rows) fun records _ => ?_
  exact .bind (.lift (Expansion.expand_looks table records plan.fields fun r st reached looks =>
    h.permits_lookup asked reached looks)) fun _ _ => .pure trivial

variable (checked : g.config.database.checkPermissions = true)
include checked

/-- What is done once the table is known and not denied is what the request may do. -/
theorem opening_permits (op : Operation) {β : Type} {s : Session σ δ}
    {rest : Snapshot → Table → Action σ δ β}
    (h : ∀ snapshot table, op.Opens g s.schema snapshot table →
      (rest snapshot table).Sends (op.Permits g s.schema) (fun _ => True) (fun _ => True)) :
    (do let snapshot ← g.snapshot
        let table ← g.readable snapshot op.target
        rest snapshot table : Action σ δ β).SendsFrom s (op.Permits g s.schema) (fun _ => True)
      (fun _ => True) := by
  refine .bind (Gateway.snapshot_sends_from s) fun snapshot supplied => ?_
  refine .bind (Gateway.readable_permits checked fun table resolved =>
    permits_question ⟨snapshot, supplied, resolved⟩) fun table ⟨resolved, permitted⟩ => ?_
  exact h snapshot table ⟨supplied, resolved, permitted⟩

theorem list_permits (name : String) (params : Params) (s : Session σ δ) :
    (g.list name params).SendsFrom s ((list name params).Permits g s.schema) (fun _ => True)
      (fun _ => True) := by
  unfold Gateway.list
  refine opening_permits checked (list name params) fun snapshot table opens => ?_
  refine .bind (.known (.any _)) fun page _ => ?_
  refine .bind (.known (Plan.ofParams_fields _ _ _ _ _)) fun plan fields => ?_
  refine .bind (.look (.any _)) fun filter _ => ?_
  refine .bind (.known (.any _)) fun order _ => ?_
  refine .bind (Gateway.count_sends (opens.permits rfl)) fun total _ => ?_
  refine .bind (Gateway.fetch_sends (opens.permits rfl)) fun rows _ => ?_
  exact .bind (opens.materialize fields rows) fun _ _ => .pure trivial

theorem window_permits (name : String) (params : Params) (s : Session σ δ) :
    (g.window name params).SendsFrom s ((window name params).Permits g s.schema) (fun _ => True)
      (fun _ => True) := by
  unfold Gateway.window
  refine opening_permits checked (window name params) fun snapshot table opens => ?_
  refine .bind (.known (.any _)) fun window _ => ?_
  refine .bind (.known (.any _)) fun order _ => ?_
  refine .bind (.known (Plan.ofParams_fields _ _ _ _ _)) fun plan fields => ?_
  refine .bind (.look (.any _)) fun filter _ => ?_
  refine .bind (.known (.any _)) fun column _ => ?_
  refine .bind (.look (.any _)) fun after _ => ?_
  refine .bind (.look (.any _)) fun before _ => ?_
  refine .bind (Gateway.count_sends (opens.permits rfl)) fun total _ => ?_
  refine .bind (Gateway.fetch_sends (opens.permits rfl)) fun rows _ => ?_
  exact .bind (opens.materialize fields _) fun _ _ => .pure trivial

theorem get_permits (name key : String) (params : Params) (s : Session σ δ) :
    (g.get name key params).SendsFrom s ((get name key params).Permits g s.schema) (fun _ => True)
      (fun _ => True) := by
  unfold Gateway.get
  refine opening_permits checked (get name key params) fun snapshot table opens => ?_
  refine .bind (.known (Plan.ofParams_fields _ _ _ _ _)) fun plan fields => ?_
  refine .bind (.look (.any _)) fun filter _ => ?_
  refine .bind (Gateway.fetch_sends (opens.permits rfl)) fun rows _ => ?_
  refine .bind (opens.materialize fields _) fun records _ => ?_
  exact Gateway.found_sends _ (fun _ => trivial) trivial

/-- A request about a table that is denied asks for the privilege, and is refused. -/
theorem perform_denied (reads : op.isRead = true) (s : Session σ δ)
    (about : op.IsAbout g.source s.schema table) (denied : g.db.Denies .select table) :
    (op.perform g).SendsFrom s (· = Privilege.select.question table) (fun _ => False)
      (· = .forbidden table.name "SELECT") := by
  have refused : ∀ {β : Type} {rest : Snapshot → Table → Action σ δ β}, (do
      let snapshot ← g.snapshot
      let table ← g.readable snapshot op.target
      rest snapshot table : Action σ δ β).SendsFrom s (· = Privilege.select.question table)
        (fun _ => False) (· = .forbidden table.name "SELECT") := by
    intro β rest
    obtain ⟨snapshot, supplied, resolved⟩ := about
    have known : g.snapshot.SendsFrom s (· = Privilege.select.question table) (· = snapshot)
        (· = .forbidden table.name "SELECT") := by
      refine ⟨[], (List.append_nil _).symm, by simp, ?_⟩
      show Outcome _ _ (g.source.snapshot s.schema).1
      rw [supplied]
      exact .ok rfl
    refine .bind known fun found same => ?_
    rw [same]
    exact .bind (Gateway.readable_denied checked resolved denied) fun _ h => h.elim
  cases op with
  | list name params => exact .bind refused fun _ h => h.elim
  | window name params => exact .bind refused fun _ h => h.elim
  | get name key params => exact .bind refused fun _ h => h.elim
  | create => cases reads
  | update => cases reads
  | upsert => cases reads
  | delete => cases reads

/-- If privileges are asked for, a request to read is refused where the database denies it its table, and
asks for nothing else then. Otherwise it reads this table, and any other only as the related table of one of
its relations. -/
theorem reads_permitted (reads : op.isRead = true) (database : δ) :
    (∀ table, op.IsAbout g.source schema table → g.db.Denies .select table →
      ((op.perform g).run { schema, database }).1 = .error (.forbidden table.name "SELECT") ∧
      ∀ st ∈ ((op.perform g).run { schema, database }).2.sent, st = Privilege.select.question table) ∧
    ∀ st ∈ ((op.perform g).run { schema, database }).2.sent, op.Permits g schema st := by
  constructor
  · intro table about denied
    obtain ⟨sent, outcome⟩ := (perform_denied checked reads { schema, database } about denied).fresh
    obtain ⟨e, run, rfl⟩ := outcome.exists_error
    exact ⟨run, sent⟩
  · have permits : (op.perform g).SendsFrom { schema, database } (op.Permits g schema) (fun _ => True)
        (fun _ => True) := by
      cases op with
      | list name params => exact .bind (list_permits checked name params _) fun _ _ => .pure trivial
      | window name params => exact .bind (window_permits checked name params _) fun _ _ => .pure trivial
      | get name key params => exact .bind (get_permits checked name key params _) fun _ _ => .pure trivial
      | create => cases reads
      | update => cases reads
      | upsert => cases reads
      | delete => cases reads
    exact permits.fresh.1

end Operation

/-- The database with a privilege on reading a table denied. -/
def Database.denying (db : Database δ) (denied : String) : Database δ where
  query st d :=
    match st with
    | .privilege table _ => (.ok [[("allowed", .bool (table ≠ denied))]], d)
    | st => db.query st d
  execute := db.execute

/-- The blog, when privileges are asked for and the authors must not be read. -/
def guardedBlog : Gateway Unit Unit where
  config := { database := { checkPermissions := true } }
  source := .fixed blogSnapshot
  db := .denying blogGateway.db "public.authors"

/-- The titles of the posts with the names of their authors. -/
def titlesAndNames : Operation := .list "posts" [("select", ["title,authors(name)"])]

theorem reads_permitted_titlesAndNames :
    guardedBlog.config.database.checkPermissions = true ∧ titlesAndNames.isRead = true ∧
    (∃ st ∈ ((titlesAndNames.perform guardedBlog).run { schema := (), database := () }).2.sent,
      st.source? = some "authors" ∧ titlesAndNames.Permits guardedBlog () st) ∧
    (((Operation.list "authors" []).perform guardedBlog).run { schema := (), database := () }).1 =
      .error (.forbidden "authors" "SELECT") := by
  have denied : guardedBlog.db.Denies .select authorsTable := fun _ => rfl
  have read : ∃ st ∈ ((titlesAndNames.perform guardedBlog).run { schema := (), database := () }).2.sent,
      st.source? = some "authors" := by decide +kernel
  obtain ⟨st, hst, read⟩ := read
  have about : (Operation.list "authors" []).IsAbout guardedBlog.source () authorsTable :=
    ⟨blogSnapshot, rfl, by decide⟩
  exact ⟨rfl, rfl, ⟨st, hst, read, (Operation.reads_permitted rfl rfl ()).2 st hst⟩,
    ((Operation.reads_permitted rfl rfl ()).1 authorsTable about denied).1⟩

/-- The names of the authors are read, although the database would deny it. -/
theorem authors_read_unasked :
    guardedBlog.config.database.checkPermissions = true ∧ titlesAndNames.isRead = true ∧
    guardedBlog.db.Denies .select authorsTable ∧
    ∃ st ∈ ((titlesAndNames.perform guardedBlog).run { schema := (), database := () }).2.sent,
      st.isSelection = true ∧ st.source? = some authorsTable.name := by
  have denied : guardedBlog.db.Denies .select authorsTable := fun _ => rfl
  exact ⟨rfl, rfl, denied, by decide +kernel⟩

end TableGateway
