import TableGateway.Proofs.Steadiness

/-!
# Insertions of many records

The records of one insertion share a list of columns, so a value has to stand below its own column and
the columns that a record does not name take their defaults. Row by row, such an insertion says what the
insertions of the single records say, and it can be made when they can. Main statement:
`Build.insertAll_inserts`.
-/
namespace TableGateway

variable {σ : Type}

/-! ## Rows with their columns -/

namespace Insertion

/-- The values of a row with the columns that they are for; the other columns take their defaults. -/
def given (columns : List String) (row : List (Option Bound)) : List Assignment :=
  (columns.zip row).filterMap fun (column, cell) => cell.map (⟨column, ·⟩)

@[simp]
theorem given_cons_none (column : String) (columns : List String) (row : List (Option Bound)) :
    given (column :: columns) (none :: row) = given columns row := rfl

@[simp]
theorem given_cons_some (column : String) (columns : List String) (b : Bound)
    (row : List (Option Bound)) :
    given (column :: columns) (some b :: row) = ⟨column, b⟩ :: given columns row := rfl

/-- The values that a row binds are those of its columns. -/
theorem rowParams_eq : ∀ {columns : List String} {row : List (Option Bound)},
    row.length = columns.length → rowParams row = (given columns row).map (·.bound.value)
  | [], [], _ => rfl
  | _ :: _, none :: _, h => by simpa [rowParams] using rowParams_eq (by simpa using h)
  | _ :: _, some _ :: _, h => by simpa [rowParams] using rowParams_eq (by simpa using h)

/-- A row without defaults gives each column its value. -/
theorem given_some : ∀ {columns : List String} {bounds : List Bound},
    given columns (bounds.map some) = columns.zipWith Assignment.mk bounds
  | [], _ => rfl
  | _ :: _, [] => rfl
  | _ :: _, _ :: _ => by simp [given_some]

/-- The row gives its columns what the only row of the other insertion gives its own, which are all that
that insertion has. -/
structure Restates (columns : List String) (row : List (Option Bound)) (single : Insertion) : Prop where
  width : row.length = columns.length
  only : ∃ bounds : List Bound, single.rows = [bounds.map some] ∧
    bounds.length = single.columns.length ∧
    given columns row = single.columns.zipWith Assignment.mk bounds

theorem Restates.params {columns : List String} {row : List (Option Bound)} {single : Insertion}
    (h : Restates columns row single) : rowParams row = single.params := by
  obtain ⟨bounds, rows, length, same⟩ := h.only
  have width : (bounds.map some).length = single.columns.length := by simpa using length
  rw [rowParams_eq h.width, same, ← given_some, ← rowParams_eq width, Insertion.params, rows]
  simp

/-- Rows that restate insertions bind what those bind, one after the other. -/
theorem Restates.flatMap_params {columns : List String} {rows : List (List (Option Bound))}
    {singles : List Insertion} (h : List.Forall₂ (Restates columns) rows singles) :
    rows.flatMap rowParams = singles.flatMap Insertion.params := by
  induction h with
  | nil => rfl
  | cons first _ ih => rw [List.flatMap_cons, List.flatMap_cons, first.params, ih]

/-- The insertion of some records says of each of them what its own insertion says. -/
structure Gathers (i : Insertion) (table : Table) (records : List Record)
    (singles : List Insertion) : Prop where
  target : i.table = table.name
  /-- Its columns are those that any of the records names, as they are declared. -/
  columns : i.columns = (table.columns.map (·.name)).filter fun name => records.any (Entries.has name)
  /-- A row gives its values to the columns of the single insertion, and all others are defaults. -/
  rows : List.Forall₂ (Restates i.columns) i.rows singles
  params : i.params = singles.flatMap Insertion.params

end Insertion

namespace Build

open Insertion (given Restates)

variable {source : SchemaSource σ} {table : Table} {t u : σ}

/-! ## One record -/

/-- The columns of one of some records are those of all of them that it names. -/
theorem filter_columnsOf {records : List Record} {record : Record} (h : record ∈ records) :
    (columnsOf table records).filter (fun column => Entries.has column.name record) =
      columnsOf table [record] := by
  unfold columnsOf
  rw [List.filter_filter]
  refine List.filter_congr fun column _ => ?_
  by_cases named : Entries.has column.name record = true
  · simp only [named, Bool.true_and, List.any_cons, List.any_nil, Bool.or_false]
    exact List.any_eq_true.mpr ⟨record, h, named⟩
  · simp [named]

/-- A record that names columns of the table has columns. -/
theorem columnsOf_ne_nil {record : Record} (full : record ≠ [])
    (known : ∀ name ∈ Entries.keys record, table.hasColumn name = true) :
    columnsOf table [record] ≠ [] := by
  obtain ⟨⟨name, v⟩, rest, rfl⟩ := List.exists_cons_of_ne_nil full
  have named : name ∈ Entries.keys ((name, v) :: rest) := by simp [Entries.keys]
  obtain ⟨column, found⟩ := Option.isSome_iff_exists.mp (known name named)
  have same : column.name = name := by simpa using List.find?_some found
  refine List.ne_nil_of_mem (a := column) ?_
  refine List.mem_filter.mpr ⟨List.mem_of_find?_eq_some found, ?_⟩
  simp [same, Entries.has, Entries.get?]

/-- A check of some items finds no fault if it finds none in each of them. -/
theorem forM_eq_ok {check : α → Except Fault Unit} : ∀ {l : List α},
    l.forM check = .ok () ↔ ∀ a ∈ l, check a = .ok ()
  | [] => by simp [pure, Except.pure]
  | a :: l => by
    rw [List.forall_mem_cons, ← forM_eq_ok, List.forM_eq_forM, List.forM_cons]
    cases check a with
    | ok _ => simp [bind, Except.bind]
    | error e => simp [bind, Except.bind]

/-- The names in some records are columns if those in each of them are. -/
theorem checkNames_eq_ok {records : List Record} :
    checkNames table records = .ok () ↔ ∀ record ∈ records, checkNames table [record] = .ok () := by
  unfold checkNames
  simp only [forM_eq_ok, List.forall_mem_singleton]

/-- A row of a record gives the columns that the record names the values that the record gives them. -/
theorem row_gives {record : Record} : ∀ {columns : List Column} {t u : σ} {cells : List (Option Bound)},
    (row source columns record).Gives t cells u →
      cells.length = columns.length ∧
      ((columns.filter fun column => Entries.has column.name record).mapM
        (assignment source record)).Gives t (given (columns.map (·.name)) cells) u
  | [], t, u, cells, h => by
    unfold row at h
    rw [List.mapM_nil, Lookup.gives_pure] at h
    obtain ⟨rfl, rfl⟩ := h
    refine ⟨rfl, ?_⟩
    rw [List.filter_nil, List.mapM_nil, Lookup.gives_pure]
    exact ⟨rfl, rfl⟩
  | column :: columns, t, u, cells, h => by
    unfold row at h
    simp only [List.mapM_cons, Lookup.gives_bind, Lookup.gives_pure] at h
    obtain ⟨cell, v, hcell, cells, w, hcells, rfl, rfl⟩ := h
    obtain ⟨width, rest⟩ := row_gives hcells
    refine ⟨by simp [width], ?_⟩
    unfold bound? at hcell
    cases value : Entries.get? column.name record with
    | none =>
      rw [value] at hcell
      simp only [Lookup.gives_pure] at hcell
      obtain ⟨rfl, rfl⟩ := hcell
      simpa [Entries.has, value] using rest
    | some json =>
      rw [value] at hcell
      simp only [Lookup.gives_bind, Lookup.gives_pure] at hcell
      obtain ⟨c, _, hc, rfl, rfl⟩ := hcell
      rw [List.filter_cons_of_pos (by simp [Entries.has, value])]
      simp only [List.mapM_cons, Lookup.gives_bind, Lookup.gives_pure, assignment, value]
      exact ⟨_, _, ⟨c, _, hc, rfl, rfl⟩, _, _, rest, rfl, rfl⟩

/-- A row of columns that the record names has no default. -/
theorem row_full {record : Record} : ∀ {columns : List Column} {t u : σ} {cells : List (Option Bound)},
    (∀ column ∈ columns, Entries.has column.name record = true) →
    (row source columns record).Gives t cells u → ∃ bounds : List Bound, cells = bounds.map some
  | [], t, u, cells, _, h => by
    unfold row at h
    rw [List.mapM_nil, Lookup.gives_pure] at h
    exact ⟨[], h.1⟩
  | column :: columns, t, u, cells, named, h => by
    unfold row at h
    simp only [List.mapM_cons, Lookup.gives_bind, Lookup.gives_pure, bound?] at h
    obtain ⟨cell, v, hcell, cells, w, hcells, rfl, rfl⟩ := h
    obtain ⟨json, value⟩ := Option.isSome_iff_exists.mp (named column (by simp))
    rw [value] at hcell
    simp only [Lookup.gives_bind, Lookup.gives_pure] at hcell
    obtain ⟨c, -, -, rfl, -⟩ := hcell
    obtain ⟨bounds, rfl⟩ := row_full (fun other hother => named other (by simp [hother])) hcells
    exact ⟨⟨column.type.mark, c⟩ :: bounds, rfl⟩

/-- Where each column that the record names takes its value, the record has a row. -/
theorem exists_row {record : Record} : ∀ {columns : List Column} {t u : σ}
    {assignments : List Assignment},
    ((columns.filter fun column => Entries.has column.name record).mapM
      (assignment source record)).Gives t assignments u →
    ∃ cells, (row source columns record).Gives t cells u
  | [], t, u, assignments, h => by
    rw [List.filter_nil, List.mapM_nil, Lookup.gives_pure] at h
    refine ⟨[], ?_⟩
    unfold row
    rw [List.mapM_nil, Lookup.gives_pure]
    exact ⟨rfl, h.2⟩
  | column :: columns, t, u, assignments, h => by
    unfold row
    simp only [List.mapM_cons, Lookup.gives_bind, Lookup.gives_pure, bound?]
    cases value : Entries.get? column.name record with
    | none =>
      rw [List.filter_cons_of_neg (by simp [Entries.has, value])] at h
      obtain ⟨cells, hcells⟩ := exists_row h
      refine ⟨none :: cells, none, t, ?_, cells, u, hcells, rfl, rfl⟩
      exact Lookup.gives_pure.mpr ⟨rfl, rfl⟩
    | some json =>
      rw [List.filter_cons_of_pos (by simp [Entries.has, value])] at h
      simp only [List.mapM_cons, Lookup.gives_bind, Lookup.gives_pure, assignment, value] at h
      obtain ⟨a, v, ⟨c, _, hc, rfl, rfl⟩, rest, w, hrest, rfl, rfl⟩ := h
      obtain ⟨cells, hcells⟩ := exists_row hrest
      refine ⟨some ⟨column.type.mark, c⟩ :: cells, _, _, ?_, cells, _, hcells, rfl, rfl⟩
      simp only [Lookup.gives_bind, Lookup.gives_pure]
      exact ⟨c, _, hc, rfl, rfl⟩

/-! ## One insertion against many -/

/-- An insertion is made of the rows of its records, below the columns that any of them names. -/
theorem insertion_gives {records : List Record} {columns : List Column} {i : Insertion} :
    (insertion source table records).Gives t (columns, i) u ↔
      records ≠ [] ∧ checkNames table records = .ok () ∧ columnsOf table records ≠ [] ∧
      columns = columnsOf table records ∧
      ∃ rows, (records.mapM (row source (columnsOf table records))).Gives t rows u ∧
        i = { table := table.name, columns := columns.map (·.name), rows } := by
  unfold insertion
  by_cases empty : records = []
  · simp [empty, Lookup.gives_throw]
  by_cases unnamed : columnsOf table records = []
  · simp [empty, unnamed, Lookup.gives_bind, Lookup.gives_known, Lookup.gives_throw]
  simp only [List.isEmpty_iff, empty, unnamed, ↓reduceIte, Lookup.gives_bind, Lookup.gives_known,
    Lookup.gives_pure]
  constructor
  · rintro ⟨_, _, ⟨checked, rfl⟩, rows, _, hrows, same, rfl⟩
    cases same
    exact ⟨empty, checked, unnamed, rfl, rows, hrows, rfl⟩
  · rintro ⟨-, checked, -, rfl, rows, hrows, rfl⟩
    exact ⟨(), t, ⟨checked, rfl⟩, rows, u, hrows, rfl, rfl⟩

/-- A record has a row below the columns of many records if it has one below its own, and the insertion of
the record says what the row says. -/
theorem insertion_of_row {records : List Record} {record : Record} {cells : List (Option Bound)}
    (h : record ∈ records) (checked : checkNames table [record] = .ok ())
    (named : columnsOf table [record] ≠ [])
    (hrow : (row source (columnsOf table records) record).Gives t cells u) :
    ∃ single, (insertion source table [record]).Gives t (columnsOf table [record], single) u ∧
      Restates ((columnsOf table records).map (·.name)) cells single := by
  obtain ⟨width, hgiven⟩ := row_gives hrow
  rw [filter_columnsOf h] at hgiven
  -- Below the columns of the record alone there is a row as well, and it gives them the same values.
  have whole : (columnsOf table [record]).filter (fun column => Entries.has column.name record) =
      columnsOf table [record] := filter_columnsOf (by simp)
  obtain ⟨own, hown⟩ : ∃ own, (row source (columnsOf table [record]) record).Gives t own u :=
    exists_row (by rwa [whole])
  obtain ⟨ownWidth, ownGiven⟩ := row_gives hown
  rw [whole] at ownGiven
  have same := (Lookup.gives_unique hgiven ownGiven).1
  obtain ⟨bounds, rfl⟩ := row_full (fun column hcolumn => by
    rw [← whole] at hcolumn
    exact (List.mem_filter.mp hcolumn).2) hown
  refine ⟨_, insertion_gives.mpr ⟨by simp, checked, named, rfl, [bounds.map some], ?_, rfl⟩, ?_⟩
  · simp only [List.mapM_cons, List.mapM_nil, Lookup.gives_bind, Lookup.gives_pure]
    exact ⟨_, _, hown, [], _, ⟨rfl, rfl⟩, rfl, rfl⟩
  · refine ⟨by simpa using width, bounds, rfl, by simpa using ownWidth, ?_⟩
    rw [same, Insertion.given_some]

theorem row_of_insertion {records : List Record} {record : Record}
    {single : List Column × Insertion} (h : record ∈ records)
    (hsingle : (insertion source table [record]).Gives t single u) :
    ∃ cells, (row source (columnsOf table records) record).Gives t cells u := by
  obtain ⟨-, -, -, -, rows, hrows, -⟩ := insertion_gives.mp hsingle
  simp only [List.mapM_cons, List.mapM_nil, Lookup.gives_bind, Lookup.gives_pure] at hrows
  obtain ⟨own, _, hown, _, _, ⟨rfl, rfl⟩, -, rfl⟩ := hrows
  obtain ⟨-, ownGiven⟩ := row_gives hown
  rw [filter_columnsOf (by simp), ← filter_columnsOf h] at ownGiven
  exact exists_row ownGiven

/-- An insertion of some records can be made if something can be made of them in turn for which each of them
needs an insertion of its own. -/
theorem exists_insertion {records : List Record} {α : Type} {f : Record → Lookup σ α} {results : List α}
    (some : records ≠ [])
    (single : ∀ record ∈ records, ∀ (t : σ) (a : α) (u : σ), (f record).Gives t a u →
      ∃ single : List Column × Insertion, (insertion source table [record]).Gives t single u)
    (h : (records.mapM f).Gives t results u) :
    ∃ i, (insertion source table records).Gives t (columnsOf table records, i) u := by
  have each : ∀ record ∈ records,
      checkNames table [record] = .ok () ∧ columnsOf table [record] ≠ [] := by
    intro record hrecord
    obtain ⟨_, _, _, made⟩ := Lookup.exists_gives_of_mapM h record hrecord
    obtain ⟨_, hsingle⟩ := single record hrecord _ _ _ made
    obtain ⟨-, checked, named, -⟩ := insertion_gives.mp hsingle
    exact ⟨checked, named⟩
  obtain ⟨rows, hrows, -⟩ := Lookup.gives_mapM (g := row source (columnsOf table records))
    (S := fun _ _ => True) (fun record hrecord t a u made => by
      obtain ⟨_, hsingle⟩ := single record hrecord t a u made
      obtain ⟨cells, hcells⟩ := row_of_insertion hrecord hsingle
      exact ⟨cells, hcells, trivial⟩) h
  obtain ⟨record, hrecord⟩ := List.exists_mem_of_ne_nil records some
  have named : columnsOf table records ≠ [] := by
    intro none
    have own : _ = columnsOf table [record] := filter_columnsOf hrecord
    rw [none, List.filter_nil] at own
    exact (each record hrecord).2 own.symm
  exact ⟨_, insertion_gives.mpr
    ⟨some, checkNames_eq_ok.mpr fun record hrecord => (each record hrecord).1, named, rfl, rows, hrows,
      rfl⟩⟩

/-- An insertion of some records that can be made says row by row what those of each of them say. -/
theorem insertion_restates {records : List Record} {columns : List Column} {i : Insertion}
    (named : ∀ record ∈ records, columnsOf table [record] ≠ [])
    (h : (insertion source table records).Gives t (columns, i) u) :
    ∃ singles, (records.mapM fun record => insertion source table [record]).Gives t singles u ∧
      List.Forall₂ (fun cells single => Restates i.columns cells single.2) i.rows singles := by
  obtain ⟨-, checked, -, rfl, rows, hrows, rfl⟩ := insertion_gives.mp h
  refine Lookup.gives_mapM (fun record hrecord t cells u hcells => ?_) hrows
  obtain ⟨single, hsingle, restates⟩ := insertion_of_row hrecord
    (checkNames_eq_ok.mp checked record hrecord) (named record hrecord) hcells
  exact ⟨_, hsingle, restates⟩

/-! ## Statements -/

theorem insertAll_gives {records : List Record} {returning : Bool} {st : Statement} :
    (insertAll source table records returning).Gives t st u ↔
      ∃ i : List Column × Insertion, (insertion source table records).Gives t i u ∧
        st = .insert { i.2 with returning } := by
  unfold insertAll
  simp only [Lookup.gives_bind, Lookup.gives_pure]
  constructor
  · rintro ⟨i, _, hi, rfl, rfl⟩
    exact ⟨i, hi, rfl⟩
  · rintro ⟨i, hi, rfl⟩
    exact ⟨i, u, hi, rfl, rfl⟩

/-- A record that has entries is inserted like a list of it alone. -/
theorem insert_eq {record : Record} (full : record ≠ []) (returning : Bool) :
    insert source table record returning = insertAll source table [record] returning := by
  simp [insert, full]

variable {records : List Record} {returning : Bool} {st : Statement} (some : records ≠ [])
  (full : ∀ record ∈ records, record ≠ [])
  (known : ∀ record ∈ records, ∀ name ∈ Entries.keys record, table.hasColumn name = true)

include some full in
/-- Records that can be inserted in turn can be inserted at once. -/
theorem exists_insertAll {sts : List Statement}
    (h : (records.mapM fun record => insert source table record returning).Gives t sts u) :
    ∃ st, (insertAll source table records returning).Gives t st u := by
  obtain ⟨i, hi⟩ := exists_insertion some (fun record hrecord t st u hst => by
    rw [insert_eq (full record hrecord), insertAll_gives] at hst
    obtain ⟨single, hsingle, -⟩ := hst
    exact ⟨single, hsingle⟩) h
  exact ⟨_, insertAll_gives.mpr ⟨_, hi, rfl⟩⟩

include full known in
/-- Records that are inserted at once can be inserted in turn, and the statement says of each what its own
says. -/
theorem insertAll_gathers (h : (insertAll source table records returning).Gives t st u) :
    ∃ i singles, st = .insert i ∧
      (records.mapM fun record => insert source table record returning).Gives t
        (singles.map .insert) u ∧
      i.Gathers table records singles := by
  obtain ⟨⟨columns, i⟩, hi, rfl⟩ := insertAll_gives.mp h
  obtain ⟨pairs, hpairs, rows⟩ := insertion_restates (fun record hrecord =>
    columnsOf_ne_nil (full record hrecord) (known record hrecord)) hi
  let own : List Column × Insertion → Insertion := fun pair => { pair.2 with returning }
  have sent : (records.mapM fun record => insert source table record returning).Gives t
      (pairs.map (Statement.insert ∘ own)) u := by
    refine Lookup.gives_mapM_map (fun record hrecord t pair u hpair => ?_) hpairs
    rw [insert_eq (full record hrecord), insertAll_gives]
    exact ⟨pair, hpair, rfl⟩
  rw [← List.map_map] at sent
  obtain ⟨-, -, -, rfl, _, -, rfl⟩ := insertion_gives.mp hi
  have restates : List.Forall₂ (Restates _) _ (pairs.map own) :=
    List.forall₂_map_right_iff.mpr (rows.imp fun _ _ h => ⟨h.width, h.only⟩)
  refine ⟨_, pairs.map own, rfl, sent, rfl, ?_, restates, Restates.flatMap_params restates⟩
  simp only [columnsOf, List.filter_map]
  rfl

include some full known in
/-- Some records are inserted at once if each of them can be inserted by itself, and the statement says of
each what its own says. -/
theorem insertAll_inserts :
    ((∃ st, (insertAll source table records returning).Gives t st u) ↔
      ∃ sts, (records.mapM fun record => insert source table record returning).Gives t sts u) ∧
    (source.current.Steady →
      ((∃ st u, (insertAll source table records returning).Gives t st u) ↔
        ∀ record ∈ records, ∃ st u, (insert source table record returning).Gives t st u)) ∧
    ∀ st, (insertAll source table records returning).Gives t st u →
      ∃ i singles, st = .insert i ∧
        (records.mapM fun record => insert source table record returning).Gives t
          (singles.map .insert) u ∧
        i.Gathers table records singles := by
  refine ⟨⟨?_, ?_⟩, fun steady => ⟨?_, ?_⟩, fun st => insertAll_gathers full known⟩
  · rintro ⟨st, h⟩
    obtain ⟨i, singles, -, hsingles, -⟩ := insertAll_gathers full known h
    exact ⟨_, hsingles⟩
  · rintro ⟨sts, h⟩
    exact exists_insertAll some full h
  · rintro ⟨st, v, h⟩ record hrecord
    obtain ⟨i, singles, -, hsingles, -⟩ := insertAll_gathers full known h
    obtain ⟨_, st, _, hst⟩ := Lookup.exists_gives_of_mapM hsingles record hrecord
    refine ⟨st, _, Prod.ext ?_ rfl⟩
    rw [insert_steady steady table record returning t _, hst]
  · intro each
    obtain ⟨sts, v, hsts⟩ := Lookup.Steady.gives_mapM (fun record =>
      insert_steady steady table record returning) each
    obtain ⟨st, hst⟩ := exists_insertAll some full hsts
    exact ⟨st, v, hst⟩

end Build

def draftsTable : Table where
  name := "drafts"
  columns :=
    [{ Column.ofTag "id" "integer" with isKey := true }, .ofTag "title" "text", .ofTag "score" "numeric"]

/-- Three drafts that name different columns. -/
def drafts : List Record :=
  [[("title", .str "On names")], [("id", .str "7"), ("score", .null)],
    [("score", .int 3), ("title", .null)]]

def draftsInsertion : Insertion where
  table := "drafts"
  columns := ["id", "title", "score"]
  rows :=
    [[none, some ⟨{}, .text "On names"⟩, none],
      [some ⟨{}, .int 7⟩, none, some ⟨⟨"numeric"⟩, .null⟩],
      [none, some ⟨{}, .null⟩, some ⟨⟨"numeric"⟩, .text "3"⟩]]

theorem insertAll_inserts_drafts :
    (Build.insertAll (.fixed {}) draftsTable drafts false).Gives () (.insert draftsInsertion) () ∧
    (∀ record ∈ drafts, ∃ st u, (Build.insert (.fixed {}) draftsTable record false).Gives () st u) ∧
    ∃ singles : List Insertion,
      (drafts.mapM fun record => Build.insert (.fixed {}) draftsTable record false).Gives ()
        (singles.map .insert) () ∧
      draftsInsertion.Gathers draftsTable drafts singles := by
  have inserted : (Build.insertAll (.fixed {}) draftsTable drafts false).Gives ()
      (.insert draftsInsertion) () := by
    unfold Lookup.Gives
    rfl
  have some : drafts ≠ [] := by decide
  have full : ∀ record ∈ drafts, record ≠ [] := by decide
  have known : ∀ record ∈ drafts, ∀ name ∈ Entries.keys record,
      draftsTable.hasColumn name = true := by decide
  obtain ⟨i, singles, same, hsingles, hi⟩ :=
    (Build.insertAll_inserts some full known).2.2 _ inserted
  cases same
  exact ⟨inserted,
    ((Build.insertAll_inserts (u := ()) some full known).2.1 fun _ _ => rfl).mp ⟨_, _, inserted⟩,
    singles, hsingles, hi⟩

end TableGateway
