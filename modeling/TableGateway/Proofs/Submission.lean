import Mathlib.Data.List.Nodup
import TableGateway.Proofs.Attachment
import TableGateway.Proofs.KeyScope
import TableGateway.Proofs.Upserts

/-!
# What becomes of the entries of a record

The names in a record are resolved with the white space around them cut off, but the columns that are written
are looked up in the record by their own names. So an entry is written if its name is spelled as the name of
its column, and any other one is accepted and forgotten: the statement leaves the column alone, and a change
of such entries only sets nothing. Main statement: `Build.writes_carries`.
-/
namespace TableGateway

variable {σ : Type}

/-- The values that the statement writes, for one row after the other. -/
def Statement.written : Statement → List (List Assignment)
  | insert i => i.rows.map (Insertion.given i.columns)
  | insertDefaults .. => [[]]
  | update _ assignments _ _ => [assignments]
  | _ => []

namespace Build

variable (source : SchemaSource σ) (table : Table)

/-- The statement writes some records to the table. -/
inductive Writes (t u : σ) : List Record → Statement → Prop where
  | insert {record : Record} {returning : Bool} {st : Statement}
      (h : (Build.insert source table record returning).Gives t st u) : Writes t u [record] st
  | insertAll {records : List Record} {returning : Bool} {st : Statement}
      (h : (Build.insertAll source table records returning).Gives t st u) : Writes t u records st
  | upsertAll {records : List Record} {st : Statement}
      (h : (Build.upsertAll source table records).Gives t st u) : Writes t u records st
  | update {record : Record} {filter : Where} {returning : Bool} {st : Statement}
      (h : (Build.update source table record filter returning).Gives t st u) : Writes t u [record] st

/-- The assignment gives the column what a document stands for in its type. -/
def Binds (column : Column) (v : Json) (a : Assignment) : Prop :=
  a.column = column.name ∧ a.bound.mark = column.type.mark ∧
    ∃ t u, (Convert.parameter source column.type v).Gives t a.bound.value u

/-- The row has one value for each entry of the record, bound to the column that its name resolves to. -/
structure Complete (record : Record) (row : List Assignment) : Prop where
  width : row.length = record.length
  bound : ∀ name v, (name, v) ∈ record →
    ∃ column, table.resolve name = .ok column ∧ ∃ a ∈ row, Binds source column v a

/-- The row has a value for each entry of the record with no white space around its name, and no other. -/
structure Carries (record : Record) (row : List Assignment) : Prop where
  known : ∀ name ∈ Entries.keys record, ∃ column, table.resolve name = .ok column
  bound : ∀ name v, (name, v) ∈ record → Text.trimmed name = name →
    ∃ column, table.resolve name = .ok column ∧ ∃ a ∈ row, Binds source column v a
  values : ∀ a ∈ row, ∃ column v, (column.name, v) ∈ record ∧ Binds source column v a
  columns : table.Regular → (row.map (·.column)).Perm
    ((Entries.keys record).filter fun name => Text.trimmed name = name)

variable {source table} {t u : σ} {record : Record} {row : List Assignment}

/-! ## One record -/

theorem checkNames_single :
    checkNames table [record] = .ok () ↔
      ∀ name ∈ Entries.keys record, ∃ column, table.resolve name = .ok column := by
  unfold checkNames
  simp only [forM_eq_ok, List.forall_mem_singleton]
  refine forall₂_congr fun name _ => ?_
  cases table.resolve name with
  | ok column => simp [Except.map]
  | error e => simp [Except.map]

/-- A column that the record names takes the value that the record has for it. -/
theorem assignment_binds {column : Column} (h : Entries.has column.name record = true) :
    (assignment source record column).Ends
      (fun a => ∃ v, Entries.get? column.name record = some v ∧ Binds source column v a)
      (fun _ => True) := by
  obtain ⟨v, value⟩ := Option.isSome_iff_exists.mp h
  unfold assignment
  rw [value]
  exact .bind (.gives _) fun c hc => .pure ⟨v, rfl, rfl, rfl, hc⟩

/-- The columns of a record take their values one by one. -/
theorem columnsOf_binds (h : ((columnsOf table [record]).mapM (assignment source record)).Gives t row u) :
    List.Forall₂ (fun column a =>
        ∃ v, Entries.get? column.name record = some v ∧ Binds source column v a)
      (columnsOf table [record]) row := by
  refine Lookup.Ends.of_gives (.mapM fun column hcolumn => assignment_binds ?_) h
  simpa using (List.mem_filter.mp hcolumn).2

/-- The columns of a record are the names in it that have no white space around them. -/
theorem columnsOf_perm (regular : table.Regular) (distinct : (Entries.keys record).Nodup)
    (known : ∀ name ∈ Entries.keys record, ∃ column, table.resolve name = .ok column) :
    ((columnsOf table [record]).map (·.name)).Perm
      ((Entries.keys record).filter fun name => Text.trimmed name = name) := by
  have columns : (columnsOf table [record]).map (·.name) =
      (table.columns.map (·.name)).filter (Entries.has · record) := by
    simp only [columnsOf, List.any_cons, List.any_nil, Bool.or_false, List.filter_map]
    rfl
  rw [columns]
  refine (List.perm_ext_iff_of_nodup (regular.distinct.filter _) (distinct.filter _)).mpr fun name => ?_
  simp only [List.mem_filter, Entries.has_iff_mem_keys, decide_eq_true_eq]
  constructor
  · rintro ⟨declared, named⟩
    obtain ⟨column, hcolumn, rfl⟩ := List.mem_map.mp declared
    exact ⟨named, trimmed_of_isName (regular.names column hcolumn)⟩
  · rintro ⟨named, spelled⟩
    obtain ⟨column, found⟩ := known name named
    obtain ⟨hcolumn, same, -⟩ := Table.resolve_eq_ok found
    exact ⟨List.mem_map.mpr ⟨column, hcolumn, by rw [same, spelled]⟩, named⟩

/-- Where the names of a record are columns and its columns take their values, these are carried. -/
theorem Carries.of_assignments (distinct : (Entries.keys record).Nodup)
    (checked : checkNames table [record] = .ok ())
    (h : ((columnsOf table [record]).mapM (assignment source record)).Gives t row u) :
    Carries source table record row := by
  have known := checkNames_single.mp checked
  have binds := columnsOf_binds h
  refine ⟨known, fun name v hentry spelled => ?_, fun a ha => ?_, fun regular => ?_⟩
  · obtain ⟨column, found⟩ := known name (List.mem_map_of_mem hentry)
    obtain ⟨hcolumn, same, -⟩ := Table.resolve_eq_ok found
    rw [spelled] at same
    have value : Entries.get? column.name record = some v := by
      rw [same]
      exact Entries.get?_of_mem distinct hentry
    have named : column ∈ columnsOf table [record] :=
      List.mem_filter.mpr ⟨hcolumn, by simp [Entries.has, value]⟩
    obtain ⟨a, ha, w, hw, hbinds⟩ := exists_of_forall₂ binds.flip column named
    rw [value] at hw
    cases hw
    exact ⟨column, found, a, ha, hbinds⟩
  · obtain ⟨column, -, v, value, hbinds⟩ := exists_of_forall₂ binds a ha
    exact ⟨column, v, Entries.mem_of_get? value, hbinds⟩
  · have columns : row.map (·.column) = (columnsOf table [record]).map (·.name) := by
      rw [← List.forall₂_eq_eq_eq, List.forall₂_map_left_iff, List.forall₂_map_right_iff]
      refine binds.flip.imp fun a column bound => ?_
      obtain ⟨v, value, hbinds⟩ := bound
      exact hbinds.1
    rw [columns]
    exact columnsOf_perm regular distinct known

/-- What is carried is the whole record if there is no white space around its names. -/
theorem Carries.complete_iff (h : Carries source table record row) (regular : table.Regular) :
    Complete source table record row ↔ ∀ name ∈ Entries.keys record, Text.trimmed name = name := by
  have width : row.length = ((Entries.keys record).filter fun name => Text.trimmed name = name).length := by
    rw [← (h.columns regular).length_eq, List.length_map]
  have size : (Entries.keys record).length = record.length := List.length_map _
  constructor
  · intro complete name hname
    rw [complete.width, ← size, eq_comm, List.length_filter_eq_length_iff] at width
    simpa using width name hname
  · intro spelled
    refine ⟨?_, fun name v hentry => h.bound name v hentry (spelled name (List.mem_map_of_mem hentry))⟩
    rw [width, List.length_filter_eq_length_iff.mpr (by simpa using spelled), size]

/-! ## Statements -/

/-- The rows of an insertion carry its records. -/
theorem insertion_carries {records : List Record} {columns : List Column} {i : Insertion}
    (distinct : ∀ record ∈ records, (Entries.keys record).Nodup)
    (h : (insertion source table records).Gives t (columns, i) u) :
    List.Forall₂ (Carries source table) records (i.rows.map (Insertion.given i.columns)) := by
  obtain ⟨-, checked, -, rfl, rows, hrows, rfl⟩ := insertion_gives.mp h
  rw [List.forall₂_map_right_iff]
  refine Lookup.Ends.of_gives (E := fun _ => True) (.mapM fun record hrecord => ?_) hrows
  refine (Lookup.Ends.gives _).mono (fun cells ⟨_, _, hrow⟩ => ?_) fun _ => id
  obtain ⟨-, given⟩ := row_gives hrow
  rw [filter_columnsOf hrecord] at given
  exact .of_assignments (distinct record hrecord) (checkNames_eq_ok.mp checked record hrecord) given

/-- A change gives the columns of its record their values. -/
theorem update_gives {filter : Where} {returning : Bool} {st : Statement}
    (h : (update source table record filter returning).Gives t st u) :
    checkNames table [record] = .ok () ∧
      ∃ row, ((columnsOf table [record]).mapM (assignment source record)).Gives t row u ∧
        st = .update table.name row filter returning := by
  unfold update at h
  split at h
  · simp [Lookup.gives_throw] at h
  · simp only [Lookup.gives_bind, Lookup.gives_known, Lookup.gives_pure] at h
    obtain ⟨_, _, ⟨checked, rfl⟩, row, _, hrow, rfl, rfl⟩ := h
    exact ⟨checked, row, hrow, rfl⟩

/-- Whatever statement writes some records, a row of it has a value for each entry of its record whose name
is spelled as its column's, and no other; so it is complete if all names of the record are. -/
theorem writes_carries {records : List Record} {st : Statement}
    (distinct : ∀ record ∈ records, (Entries.keys record).Nodup) (h : Writes source table t u records st) :
    List.Forall₂ (fun record row => Carries source table record row ∧
        (table.Regular → (Complete source table record row ↔
          ∀ name ∈ Entries.keys record, Text.trimmed name = name)))
      records st.written := by
  suffices carries : List.Forall₂ (Carries source table) records st.written from
    carries.imp fun _ _ carries => ⟨carries, carries.complete_iff⟩
  have inserted : ∀ {records : List Record} {returning : Bool} {st : Statement},
      (∀ record ∈ records, (Entries.keys record).Nodup) →
      (insertAll source table records returning).Gives t st u →
      List.Forall₂ (Carries source table) records st.written := by
    intro records returning st distinct h
    obtain ⟨⟨columns, i⟩, hi, rfl⟩ := insertAll_gives.mp h
    exact (insertion_carries distinct hi :)
  cases h with
  | @insert record returning _ h =>
    by_cases empty : record = []
    · subst empty
      obtain ⟨rfl, -⟩ := Lookup.gives_pure.mp h
      refine .cons ⟨?_, ?_, ?_, fun _ => ?_⟩ .nil
      · simp [Entries.keys]
      · simp
      · simp
      · simp [Entries.keys]
    · rw [insert_eq empty] at h
      exact inserted distinct h
  | insertAll h => exact inserted distinct h
  | upsertAll h =>
    obtain ⟨-, ⟨columns, i⟩, hi, rfl⟩ := upsertAll_gives.mp h
    exact (insertion_carries distinct hi :)
  | update h =>
    obtain ⟨checked, row, hrow, rfl⟩ := update_gives h
    exact .cons (.of_assignments (distinct _ (by simp)) checked hrow) .nil

end Build

/-- Two users, of whom the second has white space around the name of an entry. -/
def spacedUsers : List Record :=
  [[("id", .int 1), ("name", .str "Ann")], [(" name ", .str "Bob"), ("id", .int 2)]]

theorem writes_carries_spacedUsers : ∃ st,
    (∀ record ∈ spacedUsers, (Entries.keys record).Nodup) ∧
    Build.Writes (.fixed {}) usersTable () () spacedUsers st ∧
    st.sql = "INSERT INTO users (id, name) VALUES (?, ?), (?, DEFAULT)" ∧
    List.Forall₂ (fun record row => Build.Carries (.fixed {}) usersTable record row ∧
        (usersTable.Regular → (Build.Complete (.fixed {}) usersTable record row ↔
          ∀ name ∈ Entries.keys record, Text.trimmed name = name)))
      spacedUsers st.written := by
  have distinct : ∀ record ∈ spacedUsers, (Entries.keys record).Nodup := by decide
  have gives : (Build.insertAll (.fixed {}) usersTable spacedUsers false).Gives () (.insert
      { table := "users", columns := ["id", "name"]
        rows := [[some ⟨{}, .int 1⟩, some ⟨{}, .text "Ann"⟩], [some ⟨{}, .int 2⟩, none]] }) () := rfl
  have writes := Build.Writes.insertAll gives
  exact ⟨_, distinct, writes, by decide +kernel, Build.writes_carries distinct writes⟩

/-- An entry with white space around its name is accepted and forgotten: a change of it sets nothing, and an
insertion leaves its column out. -/
theorem spacedName_forgotten : ∃ changed inserted,
    usersTable.resolve " name " = .ok (.ofTag "name" "text") ∧
    (Build.update (.fixed {}) usersTable [(" name ", .str "Ann")]
      [.one { column := "id", predicate := .compare .eq {} (.int 7) }] false).Gives () changed () ∧
    changed.sql = "UPDATE users SET  WHERE id = ?" ∧ changed.written = [[]] ∧
    ¬ Build.Complete (.fixed {}) usersTable [(" name ", .str "Ann")] [] ∧
    (Build.insert (.fixed {}) usersTable [(" name ", .str "Ann"), ("id", .int 7)] false).Gives
      () inserted () ∧
    inserted.sql = "INSERT INTO users (id) VALUES (?)" := by
  refine ⟨_, _, by decide +kernel, rfl, by decide +kernel, rfl, fun complete => ?_, rfl, by decide +kernel⟩
  cases complete.width

end TableGateway
