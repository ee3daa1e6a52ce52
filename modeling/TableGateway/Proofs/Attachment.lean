import TableGateway.Expansion
import TableGateway.Proofs.Evaluation
import TableGateway.Proofs.Injection

/-!
# Attached records

What a record shows after related records were attached to it and hidden columns were removed:
`Shows`. Hidden columns, columns that were asked for and the names of relations share one space of
names; `Level.Apart` says when they do not meet. Main statements: `Grown.attach`, `Grown.shows`,
`Expansion.expand_kept`.
-/
namespace TableGateway

/-! ## Entries -/

namespace Entries

variable {α : Type}

theorem has_insert {key key' : String} {value : α} {entries : Entries α} :
    has key' (insert key value entries) = true ↔ key' = key ∨ has key' entries = true := by
  unfold has
  rw [get?_insert]
  by_cases h : key = key'
  · simp [h]
  · simp [h, Ne.symm h]

/-- Without some names, the other ones keep their values. -/
theorem get?_foldl_erase (key : String) (names : List String) (entries : Entries α) :
    get? key (names.foldl (fun entries name => erase name entries) entries) =
      if key ∈ names then none else get? key entries := by
  induction names generalizing entries with
  | nil => simp
  | cons name names ih =>
    rw [List.foldl_cons, ih, get?_erase]
    by_cases h : name = key
    · simp [h]
    · simp [h, Ne.symm h]

theorem has_iff_mem_keys {key : String} {entries : Entries α} :
    has key entries = true ↔ key ∈ entries.keys := by
  unfold has keys
  induction entries with
  | nil => simp [get?]
  | cons e rest ih =>
    obtain ⟨k, v⟩ := e
    by_cases h : k = key
    · simp [get?, h]
    · simp [get?, h, Ne.symm h, ih]

end Entries

/-! ## Records of rows -/

/-- Items that belong to each other through the items of a list between them. -/
theorem forall₂_trans {α β γ : Type} {R : α → β → Prop} {S : β → γ → Prop} {T : α → γ → Prop}
    {as : List α} {bs : List β} {cs : List γ} (first : List.Forall₂ R as bs)
    (others : List.Forall₂ S bs cs) (h : ∀ a b c, R a b → S b c → T a c) : List.Forall₂ T as cs := by
  induction first generalizing cs with
  | nil =>
    cases others
    exact .nil
  | cons hR _ ih =>
    cases others with
    | cons hS others => exact .cons (h _ _ _ hR hS) (ih others)

namespace Convert

variable {σ : Type} (source : SchemaSource σ) (table : Table)

/-- A record has the names of its row. -/
theorem rowJson_keys : ∀ (row : Row) (t : σ),
    (rowJson source table row t).1.keys = Entries.keys row
  | [], _ => rfl
  | (name, c) :: rest, t => by
    rw [rowJson]
    cases table.column? name with
    | some column => exact congrArg (name :: ·) (rowJson_keys rest _)
    | none => exact congrArg (name :: ·) (rowJson_keys rest _)

/-- Each row becomes a record, in some state of the source. -/
theorem rowsJson_forall₂ : ∀ (rows : List Row) (t : σ),
    List.Forall₂ (fun row record => ∃ u, record = (rowJson source table row u).1) rows
      (rowsJson source table rows t).1
  | [], _ => by
    rw [rowsJson, List.mapM_nil]
    exact .nil
  | row :: rows, t => by
    rw [rowsJson, List.mapM_cons]
    exact .cons ⟨t, rfl⟩ (rowsJson_forall₂ rows _)

end Convert

/-! ## Levels -/

/-- A list of fields for the rows of a table, with the columns that are read but not shown. -/
structure Level where
  table : Table
  fields : List Field
  hidden : List String

namespace Level

/-- The columns that are asked for: those that are named, or all of them. -/
def requested (l : Level) : List String :=
  match Field.columns? l.fields with
  | some names => names.map Text.trimmed
  | none => l.table.columns.map (·.name)

def read (l : Level) : List String :=
  match Field.columns? l.fields with
  | some names => (names ++ l.hidden).map Text.trimmed
  | none => l.table.columns.map (·.name)

theorem requested_subset_read (l : Level) : l.requested ⊆ l.read := by
  unfold requested read
  split
  · rw [List.map_append]
    exact List.subset_append_left _ _
  · exact List.Subset.refl _

end Level

/-- A relation that was attached to records, with what was attached to the related records. -/
inductive Attachment where
  | mk (output : String) (relationship : Relationship) (level : Level) (within : List Attachment)

namespace Attachment

def output : Attachment → String
  | mk output .. => output

def relationship : Attachment → Relationship
  | mk _ relationship .. => relationship

def level : Attachment → Level
  | mk _ _ level _ => level

/-- What was attached to the related records. -/
def within : Attachment → List Attachment
  | mk _ _ _ within => within

/-- The last of some attachments that is shown under a name. -/
def last? (name : String) (attached : List Attachment) : Option Attachment :=
  (attached.filter (·.output = name)).getLast?

theorem last?_append {name : String} {attached : List Attachment} {a : Attachment} :
    last? name (attached ++ [a]) = if a.output = name then some a else last? name attached := by
  unfold last?
  by_cases h : a.output = name <;> simp [h]

end Attachment

namespace Level

/-- The name is asked for at a level: as a column, or as a relation that was attached. -/
def Asks (l : Level) (attached : List Attachment) (name : String) : Prop :=
  name ∈ l.requested ∨ ∃ a ∈ attached, a.output = name

/-- No name is hidden and asked for, and every column that is read is one or the other. -/
structure Apart (l : Level) (attached : List Attachment) : Prop where
  asked : ∀ name ∈ l.hidden, ¬ l.Asks attached name
  read : ∀ name ∈ l.read, name ∈ l.hidden ∨ l.Asks attached name

/-- The names that a record has: those of the columns that were read and of the relations that were
attached, without the hidden ones. -/
def Names (l : Level) (attached : List Attachment) (record : Record) : Prop :=
  ∀ name, Entries.has name record = true ↔
    name ∉ l.hidden ∧ (name ∈ l.read ∨ ∃ a ∈ attached, a.output = name)

/-- A record has the names that were asked for exactly if no name is hidden and asked for. -/
theorem Names.asked_iff {l : Level} {attached : List Attachment} {record : Record}
    (h : l.Names attached record) :
    (∀ name, Entries.has name record = true ↔ l.Asks attached name) ↔ l.Apart attached := by
  constructor
  · intro asked
    refine ⟨fun name hidden asks => ((h name).mp ((asked name).mpr asks)).1 hidden, fun name read => ?_⟩
    by_cases hidden : name ∈ l.hidden
    · exact .inl hidden
    · exact .inr ((asked name).mp ((h name).mpr ⟨hidden, .inl read⟩))
  · intro apart name
    rw [h name]
    constructor
    · rintro ⟨visible, read | attached⟩
      · exact (apart.read name read).resolve_left visible
      · exact .inr attached
    · intro asks
      exact ⟨fun hidden => apart.asked name hidden asks, asks.imp_left (l.requested_subset_read ·)⟩

end Level

/-- What a record shows: its names, among them those that were asked for exactly if they are apart from
the hidden ones, and under the name of a relation the related records, which show what was attached to
them in turn. -/
inductive Shows : Level → List Attachment → Record → Prop where
  | intro {l : Level} {attached : List Attachment} {record : Record} (items : String → List Record)
      (names : l.Names attached record)
      (asked : (∀ name, Entries.has name record = true ↔ l.Asks attached name) ↔ l.Apart attached)
      (related : ∀ name a, name ∉ l.hidden → Attachment.last? name attached = some a →
        Entries.get? name record = some (Expansion.shown a.relationship (items name)))
      (within : ∀ name a, name ∉ l.hidden → Attachment.last? name attached = some a →
        ∀ item ∈ items name, Shows a.level a.within item) :
      Shows l attached record

/-! ## Growing records -/

/-- A record of some columns to which relations were attached, before hidden columns are removed. -/
structure Grown (columns : List String) (attached : List Attachment) (record : Record)
    (items : String → List Record) : Prop where
  names : ∀ name, Entries.has name record = true ↔
    name ∈ columns ∨ ∃ a ∈ attached, a.output = name
  related : ∀ name a, Attachment.last? name attached = some a →
    Entries.get? name record = some (Expansion.shown a.relationship (items name))
  within : ∀ name a, Attachment.last? name attached = some a →
    ∀ item ∈ items name, Shows a.level a.within item

namespace Grown

variable {columns : List String} {attached : List Attachment} {record : Record}
  {items : String → List Record}

/-- A record to which nothing was attached has its columns. -/
theorem of_names (h : ∀ name, Entries.has name record = true ↔ name ∈ columns) :
    Grown columns [] record fun _ => [] :=
  ⟨fun name => by simp [h], fun _ _ h => by simp [Attachment.last?] at h,
    fun _ _ h => by simp [Attachment.last?] at h⟩

/-- Attaching one relation more, whose name may be there already. -/
theorem attach (h : Grown columns attached record items) (a : Attachment) {new : List Record}
    (hnew : ∀ item ∈ new, Shows a.level a.within item) :
    Grown columns (attached ++ [a])
      (Entries.insert a.output (Expansion.shown a.relationship new) record)
      fun name => if a.output = name then new else items name where
  names name := by
    rw [Entries.has_insert, h.names name]
    simp only [List.mem_append, List.mem_singleton, or_and_right, exists_or, exists_eq_left,
      eq_comm (a := name) (b := a.output)]
    rw [or_comm, or_assoc]
  related name b hb := by
    rw [Attachment.last?_append] at hb
    rw [Entries.get?_insert]
    by_cases same : a.output = name
    · rw [if_pos same] at hb
      cases hb
      simp [same]
    · rw [if_neg same] at hb
      simp [same, h.related name b hb]
  within name b hb := by
    rw [Attachment.last?_append] at hb
    by_cases same : a.output = name
    · rw [if_pos same] at hb
      cases hb
      simpa [same] using hnew
    · rw [if_neg same] at hb
      simpa [same] using h.within name b hb

/-- Without its hidden columns, a record shows what was attached. -/
theorem shows {l : Level} (h : Grown l.read attached record items) :
    Shows l attached (l.hidden.foldl (fun record name => Entries.erase name record) record) := by
  have names : l.Names attached
      (l.hidden.foldl (fun record name => Entries.erase name record) record) := by
    intro name
    rw [← h.names name, Entries.has, Entries.get?_foldl_erase]
    by_cases hidden : name ∈ l.hidden <;> simp [hidden, Entries.has]
  refine .intro items names names.asked_iff (fun name a visible ha => ?_) fun name a _ ha =>
    h.within name a ha
  rw [Entries.get?_foldl_erase, if_neg visible, h.related name a ha]

end Grown

/-! ## Expansion -/

namespace Expansion

variable {σ δ : Type} (source : SchemaSource σ) (db : Database δ) (snapshot : Snapshot)

/-- The columns that are read of related rows and not shown. -/
def hidden (r : Relationship) (children : List Field) : List String :=
  extraColumns children (r.remoteColumn :: Relationship.keyColumns snapshot r.related children)

def levelOf (r : Relationship) (children : List Field) : Level :=
  ⟨r.related, children, hidden snapshot r children⟩

mutual

/-- The relations that the expansion of a list attaches, from a session on. -/
def attachments (table : Table) (records : List Record) :
    List Field → Session σ δ → List Attachment
  | [], _ => []
  | f :: rest, s =>
    attachmentsOf table records f s ++
      attachments table (expandField source db snapshot table records f s).1 rest
        (expandField source db snapshot table records f s).2

/-- The relation that a field attaches: one that is found, and whose rows are if there are any to be
looked for. -/
def attachmentsOf (table : Table) (records : List Record) : Field → Session σ δ → List Attachment
  | .relation name label children filters, s =>
    match Relationship.resolve? snapshot table name with
    | none => []
    | some r =>
      if (joinTexts r.localColumn records).isEmpty then
        [.mk (label.getD name) r (levelOf snapshot r children) []]
      else
        match (fetch source db r (joinTexts r.localColumn records) children filters
            (hidden snapshot r children)).run s with
        | (.error _, _) => []
        | (.ok items, t) =>
          [.mk (label.getD name) r (levelOf snapshot r children)
            (attachments r.related items children t)]
  | _, _ => []

end

variable {source db snapshot}

/-- What the expansion of a relation comes to. -/
theorem expandField_relation (table : Table) (records : List Record) (name : String)
    (label : Option String) (children : List Field) (filters : Entries String) (s : Session σ δ) :
    expandField source db snapshot table records (.relation name label children filters) s =
      match Relationship.resolve? snapshot table name with
      | none => (records, s)
      | some r =>
        if (joinTexts r.localColumn records).isEmpty then
          (attach r (label.getD name) [] records, s)
        else
          match (fetch source db r (joinTexts r.localColumn records) children filters
              (hidden snapshot r children)).run s with
          | (.error _, t) => (records, t)
          | (.ok items, t) =>
            (attach r (label.getD name) (keyed r.remoteColumn (hidden snapshot r children)
              (expand source db snapshot r.related items children t).1) records,
              (expand source db snapshot r.related items children t).2) := by
  rw [expandField]
  cases Relationship.resolve? snapshot table name with
  | none => rfl
  | some r =>
    simp only
    split
    · rfl
    · simp only [bind, StateT.bind, hidden]
      cases (fetch source db r (joinTexts r.localColumn records) children filters _).run s with
      | mk answer t => cases answer <;> rfl

/-- How a record may be changed by the expansion of some fields: under the names of relations only. -/
def Kept (fields : List Field) (before after : Record) : Prop :=
  ∀ name, (∀ f ∈ fields, f.isRelation = true → f.output ≠ name) →
    Entries.get? name after = Entries.get? name before

theorem Kept.refl (fields : List Field) (record : Record) : Kept fields record record := fun _ _ => rfl

theorem attach_kept {f : Field} (hf : f.isRelation = true) (r : Relationship) (related : Related)
    (records : List Record) : List.Forall₂ (Kept [f]) records (attach r f.output related records) := by
  induction records with
  | nil => exact .nil
  | cons record records ih =>
    refine .cons (fun name other => ?_) ih
    rw [Entries.get?_insert, if_neg (other f (by simp) hf)]

/-- A field changes records under its own name only, and leaves none out. -/
theorem expandField_kept (table : Table) (records : List Record) (f : Field) (s : Session σ δ) :
    List.Forall₂ (Kept [f]) records (expandField source db snapshot table records f s).1 := by
  have same : List.Forall₂ (Kept [f]) records records := List.forall₂_same.mpr fun _ _ => .refl _ _
  cases f with
  | wildcard => exact same
  | column name => exact same
  | relation name label children filters =>
    rw [expandField_relation]
    split
    · exact same
    · split
      · exact attach_kept (f := .relation name label children filters) rfl _ [] records
      · split
        · exact same
        · exact attach_kept (f := .relation name label children filters) rfl _ _ records

theorem Kept.trans {f : Field} {rest : List Field} {a b c : Record} (first : Kept [f] a b)
    (others : Kept rest b c) : Kept (f :: rest) a c := by
  intro name other
  rw [others name fun g hg => other g (List.mem_cons_of_mem _ hg),
    first name fun g hg => other g (by simp_all)]

/-- Expansion changes records under the names of relations only, and leaves none out. -/
theorem expand_kept (table : Table) : ∀ (fields : List Field) (records : List Record)
    (s : Session σ δ),
    List.Forall₂ (Kept fields) records (expand source db snapshot table records fields s).1
  | [], records, s => by
    rw [expand]
    exact List.forall₂_same.mpr fun _ _ => .refl _ _
  | f :: rest, records, s => by
    rw [expand]
    exact forall₂_trans (expandField_kept table records f s) (expand_kept table rest _ _)
      fun _ _ _ => Kept.trans

end Expansion

/-- The names whose cells a plan shows unchanged: they are neither hidden nor names of relations. -/
def Plan.Leaves (plan : Plan) (name : String) : Prop :=
  name ∉ plan.extra ∧ ∀ f ∈ plan.fields, f.isRelation = true → f.output ≠ name

/-- The record of an answer shows the cells of the row, but for what is hidden or attached. -/
def Plan.ShowsRow {σ : Type} (plan : Plan) (source : SchemaSource σ) (table : Table) (row : Row)
    (record : Record) : Prop :=
  ∃ t, ∀ name, plan.Leaves name →
    Entries.get? name record = Entries.get? name (Convert.rowJson source table row t).1

/-- Each row of a table becomes a record of the answer. -/
theorem Gateway.materialize_rows {σ δ : Type} {g : Gateway σ δ} {snapshot : Snapshot} {table : Table}
    {plan : Plan} {rows : List Row} {s t : Session σ δ} {records : List Record}
    (h : (g.materialize snapshot table plan rows).Gives s records t) :
    List.Forall₂ (plan.ShowsRow g.source table) rows records := by
  unfold materialize at h
  rw [Action.gives_bind] at h
  obtain ⟨found, s₁, hfound, h⟩ := h
  rw [Action.gives_bind] at h
  obtain ⟨expanded, s₂, hexpanded, h⟩ := h
  obtain ⟨rfl, rfl⟩ := Action.gives_pure.mp h
  have first := Convert.rowsJson_forall₂ g.source table rows s.schema
  rw [show (Convert.rowsJson g.source table rows s.schema).1 = found from
    congrArg Prod.fst (Action.gives_lift.mp hfound)] at first
  have second : List.Forall₂ (Expansion.Kept plan.fields) found
      (Expansion.expand g.source g.db snapshot table found plan.fields s₁).1 :=
    Expansion.expand_kept table plan.fields found s₁
  rw [Action.gives_lift.mp hexpanded] at second
  rw [List.forall₂_map_right_iff]
  refine forall₂_trans first second fun row record expanded ⟨u, hu⟩ kept => ⟨u, fun name leaves => ?_⟩
  rw [Plan.shown, Entries.get?_foldl_erase, if_neg leaves.1, kept name leaves.2, hu]

end TableGateway
