import TableGateway.Proofs.Attachment

/-!
# The lookup of a relation

A relation is expanded by itself: its rows are looked up and attached, or the lookup fails and the
records stay as they are (`expandField_eq`). The lookup sends one statement at most, and what it gives
and where it can fail is told apart here, step by step. Main statements: `selection_gives`,
`fetch_gives`, `fetch_fails_iff`.
-/
namespace TableGateway

variable {σ δ : Type}

namespace Expansion

variable (source : SchemaSource σ) (db : Database δ) (snapshot : Snapshot)

/-! ## One field by itself -/

/-- Attach the rows of a field to some records, or fail. -/
def expandOrFail (table : Table) (records : List Record) : Field → Action σ δ (List Record)
  | .relation name label children filters =>
    match Relationship.resolve? snapshot table name with
    | none => return records
    | some r => do
      let texts := joinTexts r.localColumn records
      if texts.isEmpty then return attach r (label.getD name) [] records
      let items ← fetch source db r texts children filters (hidden snapshot r children)
      let items ← ExceptT.lift (expand source db snapshot r.related items children)
      return attach r (label.getD name)
        (keyed r.remoteColumn (hidden snapshot r children) items) records
  | _ => return records

variable {source db snapshot}

/-- The expansion of a field keeps the records where it fails. -/
theorem expandField_eq (table : Table) (records : List Record) (f : Field) (s : Session σ δ) :
    expandField source db snapshot table records f s =
      match (expandOrFail source db snapshot table records f).run s with
      | (.ok after, t) => (after, t)
      | (.error _, t) => (records, t) := by
  cases f with
  | wildcard => rfl
  | column name => rfl
  | relation name label children filters =>
    rw [expandField_relation, expandOrFail]
    cases Relationship.resolve? snapshot table name with
    | none => rfl
    | some r =>
      simp only
      split
      · rfl
      · rw [Action.run_bind]
        cases (fetch source db r (joinTexts r.localColumn records) children filters
            (hidden snapshot r children)).run s with
        | mk answer t => cases answer <;> rfl

/-- The fields of a list are expanded one after the other. -/
theorem expand_cons (table : Table) (records : List Record) (f : Field) (rest : List Field)
    (s : Session σ δ) :
    expand source db snapshot table records (f :: rest) s =
      expand source db snapshot table (expandField source db snapshot table records f s).1 rest
        (expandField source db snapshot table records f s).2 := by
  rw [expand]
  rfl

/-- A relation for which rows are looked up gives records if the lookup does. -/
theorem expandOrFail_gives {table : Table} {records after : List Record} {name : String}
    {label : Option String} {children : List Field} {filters : Entries String} {r : Relationship}
    (found : Relationship.resolve? snapshot table name = some r) {s t : Session σ δ} :
    (expandOrFail source db snapshot table records (.relation name label children filters)).Gives
        s after t ↔
      joinTexts r.localColumn records = [] ∧ t = s ∧ after = attach r (label.getD name) [] records ∨
      joinTexts r.localColumn records ≠ [] ∧ ∃ items u,
        (fetch source db r (joinTexts r.localColumn records) children filters
          (hidden snapshot r children)).Gives s items u ∧
        t = (expand source db snapshot r.related items children u).2 ∧
        after = attach r (label.getD name) (keyed r.remoteColumn (hidden snapshot r children)
          (expand source db snapshot r.related items children u).1) records := by
  rw [expandOrFail, found]
  simp only
  split
  · rename_i none
    rw [List.isEmpty_iff] at none
    simp only [none, Action.gives_pure, true_and, ne_eq, not_true_eq_false, false_and, or_false]
    exact and_comm
  · rename_i some
    rw [List.isEmpty_iff] at some
    simp only [some, false_and, ne_eq, not_false_eq_true, true_and, false_or, Action.gives_bind,
      Action.gives_pure, Action.gives_lift]
    constructor
    · rintro ⟨items, u, hitems, expanded, t, hexpanded, rfl, rfl⟩
      exact ⟨items, u, hitems, by rw [hexpanded], by rw [hexpanded]⟩
    · rintro ⟨items, u, hitems, rfl, rfl⟩
      exact ⟨items, u, hitems, _, _, rfl, rfl, rfl⟩

/-! ## The statement of a lookup -/

variable {r : Relationship} {texts : List String} {children : List Field} {filters : Entries String}
  {extra : List String}

/-- The condition that a column has one of some values. -/
def among (column : Column) (values : List Cell) : Condition where
  column := column.name
  predicate := .oneOf false column.type.mark values

/-- The conditions that the filters of a relation put on its rows. -/
def conditions (source : SchemaSource σ) (target : Table) (filters : Entries String) :
    Lookup σ (List Condition) :=
  filters.mapM fun (column, raw) => condition source target column raw

/-- The rows of a relation are selected if the columns are there, each text is converted to the type of
the column that connects, and each filter becomes a condition. -/
theorem selection_gives {t v : σ} {selection : Selection} :
    (Expansion.selection source r texts children filters extra).Gives t selection v ↔
      ∃ p column values u cs,
        projection r.related children extra = .ok p ∧
        r.related.resolve r.remoteColumn = .ok column ∧
        (texts.mapM (Convert.ofText source column.type)).Gives t values u ∧
        (conditions source r.related filters).Gives u cs v ∧
        selection =
          { table := r.related.name
            projection := p
            filter := (among column values :: cs).map .one } := by
  unfold Expansion.selection
  simp only [Lookup.gives_bind, Lookup.gives_known, Lookup.gives_pure]
  constructor
  · rintro ⟨p, _, ⟨hp, rfl⟩, column, _, ⟨hcolumn, rfl⟩, values, u, hvalues, cs, _, hconditions, rfl,
      rfl⟩
    exact ⟨p, column, values, u, cs, hp, hcolumn, hvalues, hconditions, rfl⟩
  · rintro ⟨p, column, values, u, cs, hp, hcolumn, hvalues, hconditions, rfl⟩
    exact ⟨p, _, ⟨hp, rfl⟩, column, _, ⟨hcolumn, rfl⟩, values, u, hvalues, cs, _, hconditions, rfl,
      rfl⟩

/-- The rows of a relation are fetched if they are selected and the database answers; the selection is
all that is sent. -/
theorem fetch_gives {s t : Session σ δ} {items : List Record} :
    (fetch source db r texts children filters extra).Gives s items t ↔
      ∃ selection u rows d,
        (Expansion.selection source r texts children filters extra).Gives s.schema selection u ∧
        db.query (.select selection) s.database = (.ok rows, d) ∧
        items = (Convert.rowsJson source r.related rows u).1 ∧
        t = ⟨(Convert.rowsJson source r.related rows u).2, d, s.sent ++ [.select selection]⟩ := by
  unfold fetch
  simp only [Action.gives_bind, Action.gives_look, Action.gives_ask, Action.gives_lift]
  constructor
  · rintro ⟨selection, _, ⟨hselection, rfl⟩, rows, _, ⟨hrows, rfl⟩, hitems⟩
    obtain ⟨rfl, rfl⟩ := Prod.mk.inj hitems
    exact ⟨selection, _, rows, _, Prod.ext hselection rfl, Prod.ext hrows rfl, rfl, rfl⟩
  · rintro ⟨selection, u, rows, d, hselection, hrows, rfl, rfl⟩
    refine ⟨selection, { s with schema := u }, ⟨?_, ?_⟩, rows, _, ⟨congrArg Prod.fst hrows, rfl⟩, ?_⟩
    · rw [hselection]
    · rw [hselection]
    · rw [hrows]
      rfl

/-! ## Failure -/

/-- The lookup of the rows of a relation cannot be made, or fails, from a session on. -/
inductive LookupFails (source : SchemaSource σ) (db : Database δ) (r : Relationship)
    (texts : List String) (children : List Field) (filters : Entries String) (extra : List String)
    (s : Session σ δ) : Prop where
  /-- A column that is to be read is no column of the related table. -/
  | projection {e : Fault} (h : projection r.related children extra = .error e)
  /-- The column that connects is no column of the related table. -/
  | remote {e : Fault} (h : r.related.resolve r.remoteColumn = .error e)
  /-- A text is no value of the column that connects. -/
  | text {column : Column} (hcolumn : r.related.resolve r.remoteColumn = .ok column)
      (h : (texts.mapM (Convert.ofText source column.type)).Fails s.schema)
  /-- A filter is no condition on the related table. -/
  | filter {column : Column} {values : List Cell} {u : σ}
      (hcolumn : r.related.resolve r.remoteColumn = .ok column)
      (hvalues : (texts.mapM (Convert.ofText source column.type)).Gives s.schema values u)
      (h : (conditions source r.related filters).Fails u)
  /-- The database fails. -/
  | database {selection : Selection} {u : σ} {e : Fault}
      (hselection : (Expansion.selection source r texts children filters extra).Gives s.schema
        selection u)
      (h : (db.query (.select selection) s.database).1 = .error e)

/-- A lookup whose steps do not fail selects rows. -/
theorem selection_gives_of_not_fails {s : Session σ δ}
    (h : ¬ LookupFails source db r texts children filters extra s) :
    ∃ selection u,
      (Expansion.selection source r texts children filters extra).Gives s.schema selection u := by
  cases hp : projection r.related children extra with
  | error e => exact absurd (.projection hp) h
  | ok p =>
    cases hcolumn : r.related.resolve r.remoteColumn with
    | error e => exact absurd (.remote hcolumn) h
    | ok column =>
      rcases Lookup.gives_or_fails (texts.mapM (Convert.ofText source column.type)) s.schema with
        ⟨values, u, hvalues⟩ | fails
      · rcases Lookup.gives_or_fails (conditions source r.related filters) u with
          ⟨cs, v, hconditions⟩ | fails
        · exact ⟨_, v, selection_gives.mpr
            ⟨p, column, values, u, cs, hp, hcolumn, hvalues, hconditions, rfl⟩⟩
        · exact absurd (.filter hcolumn hvalues fails) h
      · exact absurd (.text hcolumn fails) h

/-- The rows of a relation are not fetched exactly if one of the steps fails. -/
theorem fetch_fails_iff {s : Session σ δ} :
    (∃ e, ((fetch source db r texts children filters extra).run s).1 = .error e) ↔
      LookupFails source db r texts children filters extra s := by
  constructor
  · rintro ⟨e, he⟩
    by_contra h
    obtain ⟨selection, u, hselection⟩ := selection_gives_of_not_fails h
    cases hrows : (db.query (.select selection) s.database).1 with
    | error e => exact h (.database hselection hrows)
    | ok rows =>
      have gives : (fetch source db r texts children filters extra).Gives s _ _ :=
        fetch_gives.mpr ⟨selection, u, rows, _, hselection, Prod.ext hrows rfl, rfl, rfl⟩
      rw [gives] at he
      cases he
  · intro h
    cases hr : ((fetch source db r texts children filters extra).run s).1 with
    | error e => exact ⟨e, rfl⟩
    | ok items =>
      have gives : (fetch source db r texts children filters extra).Gives s items _ :=
        Prod.ext hr rfl
      obtain ⟨selection, v, rows, d, hselection, hrows, -, -⟩ := fetch_gives.mp gives
      obtain ⟨p, column, values, u, cs, hp, hcolumn, hvalues, hconditions, -⟩ :=
        selection_gives.mp hselection
      -- Each way to fail denies a step that the fetched rows have needed.
      cases h with
      | projection h =>
        rw [hp] at h
        cases h
      | remote h =>
        rw [hcolumn] at h
        cases h
      | text other h =>
        cases hcolumn.symm.trans other
        exact absurd hvalues h.not_gives
      | filter other othervalues h =>
        cases hcolumn.symm.trans other
        cases hvalues.symm.trans othervalues
        exact absurd hconditions h.not_gives
      | database other h =>
        cases hselection.symm.trans other
        rw [hrows] at h
        cases h

end Expansion
end TableGateway
