import Mathlib.Data.List.Nodup
import TableGateway.Proofs.Conversion
import TableGateway.Proofs.Rejection

/-!
# The row with a key

A change or a removal is about the row with one key: its conditions compare each column of the primary key
with its part of the key, in the order of the columns, and none of the parts is null. A text that is no key
of the table is refused before anything is changed. Main statement: `Operation.changes_scoped`.
-/
namespace TableGateway

variable {σ δ : Type}

/-! ## Keys -/

namespace Key

variable {table : Table} {key : String}

/-- The parts of a key: the text itself if it is for one column, and else what is between its commas. -/
def parts (table : Table) (key : String) : List String :=
  if table.key.length = 1 then [key] else (key.toList.splitOn ',').map String.ofList

/-- The table has a primary key, and the text a part for each of its columns, none of them blank. -/
structure Fits (table : Table) (key : String) : Prop where
  keyed : table.key ≠ []
  width : (parts table key).length = table.key.length
  filled : ∀ part ∈ parts table key, Text.isBlankText part = false

theorem blank?_eq_none : ∀ {pairs : List (Column × String)} (n : Nat),
    blank? pairs n = none ↔ ∀ pair ∈ pairs, Text.isBlankText pair.2 = false
  | [], n => by simp [blank?]
  | (column, part) :: rest, n => by
    rw [blank?, List.forall_mem_cons, ← blank?_eq_none (n + 1)]
    by_cases blank : Text.isBlankText part = true
    · simp [blank]
    · simp [blank]

/-- A text is a key of the table if it fits. -/
theorem parse_eq_ok {pairs : List (Column × String)} :
    parse table key = .ok pairs ↔ Fits table key ∧ pairs = table.key.zip (parts table key) := by
  have cut : (if table.key.length = 1 then [key] else (key.toList.splitOn ',').map String.ofList) =
      parts table key := rfl
  simp only [parse, cut]
  by_cases keyed : table.key = []
  · simp only [keyed, List.isEmpty_nil, ↓reduceIte, reduceCtorEq, false_iff]
    rintro ⟨fits, -⟩
    exact fits.keyed keyed
  by_cases width : (parts table key).length = table.key.length
  · have filled : blank? (table.key.zip (parts table key)) 0 = none ↔
        ∀ part ∈ parts table key, Text.isBlankText part = false := by
      rw [blank?_eq_none, ← List.forall_mem_map (f := Prod.snd)
        (P := fun part => Text.isBlankText part = false), List.map_snd_zip (by omega)]
    simp only [List.isEmpty_iff, keyed, width, ne_eq, not_true_eq_false, ↓reduceIte]
    cases found : blank? (table.key.zip (parts table key)) 0 with
    | some fault =>
      simp only [reduceCtorEq, false_iff]
      rintro ⟨fits, -⟩
      rw [filled.mpr fits.filled] at found
      cases found
    | none =>
      constructor
      · intro h
        cases h
        exact ⟨⟨keyed, width, filled.mp found⟩, rfl⟩
      · rintro ⟨-, rfl⟩
        rfl
  · simp only [List.isEmpty_iff, keyed, width, ne_eq, not_false_eq_true, ↓reduceIte, reduceCtorEq,
      false_iff]
    rintro ⟨fits, -⟩
    exact width fits.width

end Key

/-! ## The conditions of a key -/

/-- The names of the columns are proper and differ from each other. -/
structure Table.Regular (table : Table) : Prop where
  names : ∀ column ∈ table.columns, isName column.name = true
  distinct : (table.columns.map (·.name)).Nodup

/-- The columns have some values. -/
def Where.equals (columns : List Column) (values : List Cell) : Where :=
  columns.zipWith (fun column value =>
    .one { column := column.name, predicate := .compare .eq column.type.mark value }) values

namespace Where

/-- The values that are bound to the conditions are the values, in their order. -/
theorem equals_params : ∀ {columns : List Column} {values : List Cell},
    values.length = columns.length → (equals columns values).params = values
  | [], [], _ => rfl
  | column :: columns, value :: values, h => by
    have rest : (equals columns values).params = values := equals_params (by simpa using h)
    show value :: (equals columns values).params = value :: values
    rw [rest]

theorem equals_fragments : ∀ {columns : List Column} {values : List Cell},
    values.length = columns.length → (equals columns values).fragments =
      columns.map fun column => column.name ++ " = " ++ column.type.mark.sql
  | [], [], _ => rfl
  | column :: columns, value :: values, h => by
    have rest : (equals columns values).fragments = _ := equals_fragments (by simpa using h)
    have first : column.name ++ " " ++ "=" ++ " " = column.name ++ " = " := by
      rw [String.append_assoc, String.append_assoc]
      rfl
    show (column.name ++ " " ++ "=" ++ " " ++ column.type.mark.sql) :: (equals columns values).fragments = _
    rw [rest, first]
    rfl

/-- The clause is the conjunction of one comparison for each column. -/
theorem equals_sql {columns : List Column} {values : List Cell} (some : columns ≠ [])
    (width : values.length = columns.length) :
    (equals columns values).sql =
      " WHERE " ++
        joined " AND " (columns.map fun column => column.name ++ " = " ++ column.type.mark.sql) := by
  have conjuncts : equals columns values ≠ [] := by
    intro none
    have length : (equals columns values).length = 0 := by rw [none]; rfl
    rw [equals, List.length_zipWith] at length
    have := List.length_pos_iff.mpr some
    omega
  rw [sql, if_neg (by simpa using conjuncts), equals_fragments width]

end Where

namespace Table.Regular

variable {table : Table}

/-- The name of a column names the column. -/
theorem resolve (h : table.Regular) {column : Column} (hcolumn : column ∈ table.columns) :
    table.resolve column.name = .ok column := by
  have first : table.column? column.name = some column := by
    cases found : table.column? column.name with
    | none =>
      have differs := List.find?_eq_none.mp found column hcolumn
      simp at differs
    | some other =>
      have same : other.name = column.name := by simpa using List.find?_some found
      rw [List.inj_on_of_nodup_map h.distinct (List.mem_of_find?_eq_some found) hcolumn same]
  unfold Table.resolve
  simp [trimmed_of_isName (h.names column hcolumn), h.names column hcolumn, first]

end Table.Regular

namespace Build

variable {source : SchemaSource σ} {table : Table} {key : String}

/-- The conditions of some columns and parts compare the columns with the values of the parts. -/
theorem keyConditions_gives : ∀ {pairs : List (Column × String)} {t u : σ} {w : Where},
    (∀ pair ∈ pairs, table.resolve pair.1.name = .ok pair.1) →
    (pairs.mapM fun (column, part) => keyCondition source table column part).Gives t w u →
    ∃ values, (pairs.mapM fun pair => Convert.ofText source pair.1.type pair.2).Gives t values u ∧
      values.length = pairs.length ∧ w = Where.equals (pairs.map (·.1)) values
  | [], t, u, w, _, h => by
    rw [List.mapM_nil, Lookup.gives_pure] at h
    obtain ⟨rfl, rfl⟩ := h
    exact ⟨[], by rw [List.mapM_nil, Lookup.gives_pure]; exact ⟨rfl, rfl⟩, rfl, rfl⟩
  | (column, part) :: rest, t, u, w, resolved, h => by
    simp only [List.mapM_cons, Lookup.gives_bind, Lookup.gives_pure, keyCondition, Lookup.gives_known,
      resolved (column, part) (by simp)] at h ⊢
    obtain ⟨_, v, ⟨_, _, ⟨found, rfl⟩, value, _, hvalue, rfl, rfl⟩, ws, _, hws, rfl, rfl⟩ := h
    cases found
    obtain ⟨values, hvalues, width, rfl⟩ :=
      keyConditions_gives (fun pair hpair => resolved pair (by simp [hpair])) hws
    exact ⟨value :: values, ⟨value, _, hvalue, values, _, hvalues, rfl, rfl⟩, by simp [width], rfl⟩

theorem keyFilter_fits {t u : σ} {w : Where} (h : (keyFilter source table key).Gives t w u) :
    Key.Fits table key := by
  unfold keyFilter at h
  simp only [Lookup.gives_bind, Lookup.gives_known, Key.parse_eq_ok] at h
  obtain ⟨_, _, ⟨⟨fits, -⟩, -⟩, -⟩ := h
  exact fits

/-- The row with a key is chosen by the values of its parts. -/
theorem keyFilter_gives (regular : table.Regular) {t u : σ} {w : Where}
    (h : (keyFilter source table key).Gives t w u) :
    ∃ values, ((table.key.zip (Key.parts table key)).mapM fun pair =>
        Convert.ofText source pair.1.type pair.2).Gives t values u ∧
      values.length = table.key.length ∧ w = Where.equals table.key values := by
  have fits := keyFilter_fits h
  unfold keyFilter at h
  simp only [Lookup.gives_bind, Lookup.gives_known, Key.parse_eq_ok] at h
  obtain ⟨_, _, ⟨⟨-, rfl⟩, rfl⟩, hw⟩ := h
  have columns : (table.key.zip (Key.parts table key)).map (·.1) = table.key :=
    List.map_fst_zip (Nat.le_of_eq fits.width.symm)
  have resolved : ∀ pair ∈ table.key.zip (Key.parts table key),
      table.resolve pair.1.name = .ok pair.1 := fun pair hpair =>
    regular.resolve (List.mem_of_mem_filter (List.of_mem_zip hpair).1)
  obtain ⟨values, hvalues, width, rfl⟩ := keyConditions_gives resolved hw
  rw [columns]
  rw [← List.length_map (f := Prod.fst), columns] at width
  exact ⟨values, hvalues, width, rfl⟩

end Build

/-! ## Statements -/

namespace Statement

/-- The statement changes or removes the rows of the table that a filter chooses. -/
def Changes (table : Table) (filter : Where) : Statement → Prop
  | update name _ w _ | delete name w => name = table.name ∧ w = filter
  | _ => False

def assigned : Statement → List Cell
  | update _ assignments _ _ => assignments.map (·.bound.value)
  | _ => []

/-- What is written is bound before what chooses the rows. -/
theorem Changes.params {table : Table} {filter : Where} {st : Statement} (h : st.Changes table filter) :
    st.params = st.assigned ++ filter.params := by
  cases st with
  | update name assignments w returning =>
    obtain ⟨-, rfl⟩ := h
    rfl
  | delete name w =>
    obtain ⟨-, rfl⟩ := h
    rfl
  | _ => exact h.elim

/-- The conditions stand behind what is done to the rows; at most the changed rows are asked for then. -/
theorem Changes.sql {table : Table} {filter : Where} {st : Statement} (h : st.Changes table filter) :
    ∃ lead, ∃ tail ∈ ["", " RETURNING *"], st.sql = lead ++ filter.sql ++ tail := by
  cases st with
  | update name assignments w returning =>
    obtain ⟨-, rfl⟩ := h
    refine ⟨_, if returning then " RETURNING *" else "", ?_, rfl⟩
    cases returning
    · simp
    · simp
  | delete name w =>
    obtain ⟨-, rfl⟩ := h
    exact ⟨"DELETE FROM " ++ name, "", by simp, by rw [String.append_empty]; rfl⟩
  | _ => exact h.elim

/-- The statement changes or removes the row of the table in whose primary key the values are, which are
those of the parts of the key. -/
structure Scoped (source : SchemaSource σ) (table : Table) (key : String) (values : List Cell)
    (st : Statement) : Prop where
  converted : ∃ t u, ((table.key.zip (Key.parts table key)).mapM fun pair =>
    Convert.ofText source pair.1.type pair.2).Gives t values u
  valued : ∀ value ∈ values, value.isNull = false
  changes : st.Changes table (Where.equals table.key values)
  text : ∃ lead, ∃ tail ∈ ["", " RETURNING *"], st.sql = lead ++ (" WHERE " ++
    joined " AND " (table.key.map fun column => column.name ++ " = " ++ column.type.mark.sql)) ++ tail
  params : st.params = st.assigned ++ values

/-- What changes the rows that a key chooses changes the row with the key. -/
theorem Changes.scoped {source : SchemaSource σ} {table : Table} {key : String} {filter : Where}
    {st : Statement} {t u : σ} (regular : table.Regular) (h : st.Changes table filter)
    (gives : (Build.keyFilter source table key).Gives t filter u) :
    ∃ values, st.Scoped source table key values := by
  have fits := Build.keyFilter_fits gives
  obtain ⟨values, hvalues, width, rfl⟩ := Build.keyFilter_gives regular gives
  have valued : ∀ value ∈ values, value.isNull = false :=
    Lookup.Ends.of_gives (.mapM_all fun pair _ => Convert.alone_valued source _ _) hvalues
  have text := h.sql
  have params := h.params
  rw [Where.equals_sql fits.keyed width] at text
  rw [Where.equals_params width] at params
  exact ⟨values, ⟨t, u, hvalues⟩, valued, h, text, params⟩

end Statement

theorem Build.update_changes {source : SchemaSource σ} (table : Table) (record : Record)
    (filter : Where) (returning : Bool) :
    (Build.update source table record filter returning).Ends (Statement.Changes table filter)
      (fun _ => True) := by
  have changed : ∀ assignments,
      (Statement.update table.name assignments filter returning).Changes table filter :=
    fun _ => ⟨rfl, rfl⟩
  unfold Build.update
  split
  · exact .bind (Q := fun _ => False) (.throw trivial) fun _ h => h.elim
  · refine .bind (.known (.any _)) fun _ _ => ?_
    exact .bind (.any _) fun assignments _ => .pure (changed assignments)

/-! ## Operations -/

/-- The key of the row that is to be changed or removed. -/
def Operation.changedKey? : Operation → Option String
  | update _ key _ | delete _ key => some key
  | list .. | window .. | get .. | create .. | upsert .. => none

namespace Operation

variable {g : Gateway σ δ} {s : Session σ δ}

/-- The request is about the table, and the conditions choose the row with the key. -/
def Chooses (op : Operation) (g : Gateway σ δ) (s : Session σ δ) (key : String) (table : Table)
    (filter : Where) : Prop :=
  op.IsAbout g.source s.schema table ∧ ∃ t u, (Build.keyFilter g.source table key).Gives t filter u

/-- If the statement writes, it changes the rows that a key chooses. -/
def Keeps (op : Operation) (g : Gateway σ δ) (s : Session σ δ) (key : String) (st : Statement) : Prop :=
  st.isWrite = true → ∃ table filter, op.Chooses g s key table filter ∧ st.Changes table filter

theorem update_chooses (name key : String) (body : Json) :
    (g.update name key body).SendsFrom s ((update name key body).Keeps g s key)
      (fun _ => ∃ table filter, (update name key body).Chooses g s key table filter)
      (fun _ => True) := by
  unfold Gateway.update
  refine .bind (Gateway.writable_sends_from s (fun _ _ => nofun) name _) fun table htable => ?_
  split
  · rename_i record
    refine .bind (.look (.gives _)) fun filter hfilter => ?_
    have chosen : ∃ table filter, (update name key (.obj record)).Chooses g s key table filter :=
      ⟨table, filter, htable, hfilter⟩
    refine .bind (.look (Build.update_changes table record filter _)) fun st hst => ?_
    have keeps : (update name key (.obj record)).Keeps g s key st :=
      fun _ => ⟨table, filter, ⟨htable, hfilter⟩, hst⟩
    have found := fun r => Gateway.found_sends (σ := σ) (δ := δ)
      (P := (update name key (.obj record)).Keeps g s key) (E := fun _ => True) r (fun _ => chosen) trivial
    simp only
    split
    · refine .bind (Q := fun _ => True) ?_ fun r _ => found r
      unfold Gateway.first?
      refine .bind (Gateway.fetch_sends keeps) fun rows _ => ?_
      exact .bind (Gateway.records_sends table rows) fun _ _ => .pure trivial
    · refine .bind (Q := fun _ => True) ?_ fun r _ => found r
      unfold Gateway.changed?
      refine .bind (Gateway.apply_sends keeps) fun n _ => ?_
      split
      · exact .pure trivial
      · unfold Gateway.find? Gateway.first?
        refine .bind (.look (.any _)) fun filter _ => ?_
        refine .bind (Gateway.fetch_sends nofun) fun rows _ => ?_
        exact .bind (Gateway.records_sends table rows) fun _ _ => .pure trivial
  · exact .throw trivial

theorem delete_chooses (name key : String) :
    (g.delete name key).SendsFrom s ((delete name key).Keeps g s key)
      (fun _ => ∃ table filter, (delete name key).Chooses g s key table filter) (fun _ => True) := by
  unfold Gateway.delete
  refine .bind (Gateway.writable_sends_from s (fun _ _ => nofun) name _) fun table htable => ?_
  refine .bind (.look (.gives _)) fun filter hfilter => ?_
  have chosen : ∃ table filter, (delete name key).Chooses g s key table filter :=
    ⟨table, filter, htable, hfilter⟩
  refine .bind (Gateway.apply_sends fun _ => ⟨table, filter, ⟨htable, hfilter⟩, rfl, rfl⟩) fun n _ => ?_
  simp only
  split
  · exact .bind (Q := fun _ => False) (.throw trivial) fun _ h => h.elim
  · exact .pure chosen

/-- A request to change or to remove a row writes to the rows that its key chooses, and answers only if
the key chooses some. -/
theorem perform_chooses {op : Operation} {key : String} (h : op.changedKey? = some key) :
    (op.perform g).SendsFrom s (op.Keeps g s key)
      (fun _ => ∃ table filter, op.Chooses g s key table filter) (fun _ => True) := by
  cases op with
  | update name key body =>
    cases h
    exact .bind (update_chooses name key body) fun _ chosen => .pure chosen
  | delete name key =>
    cases h
    exact .bind (delete_chooses name key) fun _ chosen => .pure chosen
  | list | window | get | create | upsert => cases h

/-- Whatever a request to change or to remove a row writes is about the one row with the key. Where the
text is no key of the table, the request fails and writes nothing. -/
theorem changes_scoped (op : Operation) {key : String} (h : op.changedKey? = some key) (schema : σ)
    (database : δ) :
    (∀ st ∈ ((op.perform g).run { schema, database }).2.sent, st.isWrite = true →
      ∃ table, op.IsAbout g.source schema table ∧ Key.Fits table key ∧
        (table.Regular → ∃ values, st.Scoped g.source table key values)) ∧
    ∀ table, op.IsAbout g.source schema table → ¬ Key.Fits table key →
      (∃ e, ((op.perform g).run { schema, database }).1 = .error e) ∧
      ∀ st ∈ ((op.perform g).run { schema, database }).2.sent, st.isWrite = false := by
  obtain ⟨keeps, outcome⟩ :=
    (perform_chooses h : (op.perform g).SendsFrom { schema, database } _ _ _).fresh
  constructor
  · intro st hst write
    obtain ⟨table, filter, ⟨about, t, u, gives⟩, changes⟩ := keeps st hst write
    exact ⟨table, about, Build.keyFilter_fits gives, fun regular => changes.scoped regular gives⟩
  · intro table about unfit
    have chooses : ∀ other filter, ¬ op.Chooses g { schema, database } key other filter := by
      rintro other filter ⟨about', t, u, gives⟩
      rw [about'.unique about] at gives
      exact unfit (Build.keyFilter_fits gives)
    constructor
    · obtain ⟨e, run, -⟩ := (outcome.mono (fun _ ⟨_, _, chosen⟩ => chooses _ _ chosen)
        fun _ => id).exists_error
      exact ⟨e, run⟩
    · intro st hst
      by_contra write
      obtain ⟨other, filter, chosen, -⟩ := keeps st hst (by simpa using write)
      exact chooses other filter chosen

end Operation

/-- The lines of orders, in which a row is known by two columns. -/
def linesTable : Table where
  name := "lines"
  columns :=
    [{ Column.ofTag "order_id" "integer" with isKey := true }, .ofTag "amount" "integer",
      { Column.ofTag "line" "uuid" with isKey := true }]

def linesGateway : Gateway Unit Unit :=
  { config := {}
    source := .fixed { tables := [("lines", linesTable)] }
    db := .empty }

def newAmount : Operation := .update "lines" "7, 6f" (.obj [("amount", .int 3)])

/-- The removal of a line that is not told apart from the others of its order. -/
def removeLine : Operation := .delete "lines" "7"

theorem changes_scoped_newAmount :
    newAmount.changedKey? = some "7, 6f" ∧ removeLine.changedKey? = some "7" ∧
    (∃ st ∈ ((newAmount.perform linesGateway).run { schema := (), database := () }).2.sent,
      st.sql = "UPDATE lines SET amount = ? WHERE order_id = ? AND line = ?::uuid RETURNING *" ∧
      ∃ values, st.Scoped linesGateway.source linesTable "7, 6f" values) ∧
    (∃ e, ((removeLine.perform linesGateway).run { schema := (), database := () }).1 = .error e) := by
  have about : ∀ op : Operation, op.target = "lines" → op.IsAbout linesGateway.source () linesTable := by
    intro op target
    exact ⟨_, rfl, by rw [target]; rfl⟩
  have regular : linesTable.Regular := ⟨by decide, by decide⟩
  have sent : ∃ st ∈ ((newAmount.perform linesGateway).run { schema := (), database := () }).2.sent,
      st.isWrite = true ∧
      st.sql = "UPDATE lines SET amount = ? WHERE order_id = ? AND line = ?::uuid RETURNING *" := by
    decide +kernel
  obtain ⟨st, hst, write, sql⟩ := sent
  obtain ⟨table, ⟨snapshot, supplied, resolved⟩, -, keyed⟩ :=
    (newAmount.changes_scoped rfl () ()).1 st hst write
  cases supplied
  cases (show _ = _ from resolved).symm.trans (show _ = Except.ok linesTable from rfl)
  have unfit : ¬ Key.Fits linesTable "7" := fun fits => absurd fits.width (by decide)
  exact ⟨rfl, rfl, ⟨st, hst, sql, keyed regular⟩,
    ((removeLine.changes_scoped rfl () ()).2 linesTable (about _ rfl) unfit).1⟩

end TableGateway
