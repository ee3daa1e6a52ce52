import TableGateway.Proofs.Conversion
import TableGateway.Proofs.Insertions
import TableGateway.Proofs.Settling

/-!
# Upserts of many records

The records of one upsert share the columns that it changes. A record that leaves out a column which another
one names proposes the default for it, and where its row is there already, the default takes the place of the
value that the row has; an upsert of the record alone would keep that value. There is no other difference.
Main statement: `Build.upsertAll_upserts`.
-/
namespace TableGateway

variable {σ : Type}

/-! ## The meaning of upserts -/

/-- What a database puts into the cells of a row that is proposed. -/
structure Filling where
  /-- The cell of a column for a parameter. -/
  stored : String → Bound → Cell
  /-- The default of a column for a row, by the number of rows that were proposed before. -/
  default : Nat → String → Cell
  stored_isNull : ∀ column b, (stored column b).isNull = b.value.isNull

namespace Filling

variable (f : Filling) (table : Table)

/-- The cell of a column: the value that is given for it, or else its default. -/
def cell (n : Nat) (given : List Assignment) (name : String) : Cell :=
  match given.find? (·.column = name) with
  | some a => f.stored name a.bound
  | none => f.default n name

def proposal (n : Nat) (given : List Assignment) : Row :=
  Row.fill (table.columns.map (·.name)) (f.cell n given) []

/-- The rows of an insertion with some columns, when so many were proposed before. -/
def proposals (columns : List String) : Nat → List (List (Option Bound)) → List Row
  | _, [] => []
  | n, row :: rows =>
    f.proposal table n (Insertion.given columns row) :: proposals columns (n + 1) rows

end Filling

/-- The content of a table, and the number of rows that were proposed to it. -/
structure Store where
  rows : List Row
  proposed : Nat := 0

/-- What an insertion leaves that settles conflicts. It fails if a proposed row has no key, or if two of them
would change the same row. -/
def Insertion.settled? (i : Insertion) (m : Semantics) (f : Filling) (table : Table) (store : Store) :
    Option Store :=
  i.conflict.bind fun c =>
    let proposals := f.proposals table i.columns store.proposed i.rows
    if (∀ p ∈ proposals, ∀ name ∈ c.key, (Row.cell p name).isNull = false) ∧
        (c.updates = [] ∨ proposals.Pairwise fun a b => m.sameKey c.key a b = false) then
      some {
        rows := m.settleAll c.key (proposals.map fun p => (c.updates, p)) store.rows
        proposed := store.proposed + i.rows.length }
    else none

/-- What a statement leaves of the content of the table, if it is an insertion that settles conflicts. -/
def Statement.settled? (m : Semantics) (f : Filling) (table : Table) (store : Store) :
    Statement → Option Store
  | insert i => i.settled? m f table store
  | _ => none

/-- What some statements leave, one after the other. -/
def settledInTurn? (m : Semantics) (f : Filling) (table : Table) (sts : List Statement) (store : Store) :
    Option Store :=
  sts.foldlM (fun store st => st.settled? m f table store) store

/-! ## One record -/

namespace Build

open Insertion (given Restates)

variable {source : SchemaSource σ} {table : Table} {t u : σ}

/-- The columns of some records that an upsert of them changes. -/
def updatesOf (table : Table) (records : List Record) : List String :=
  ((columnsOf table records).filter (!·.isKey)).map (·.name)

theorem upsertAll_gives {records : List Record} {st : Statement} :
    (upsertAll source table records).Gives t st u ↔
      table.key ≠ [] ∧ ∃ i : List Column × Insertion, (insertion source table records).Gives t i u ∧
        st = .insert { i.2 with
          conflict := some ⟨table.key.map (·.name), (i.1.filter (!·.isKey)).map (·.name)⟩
          returning := true } := by
  unfold upsertAll
  by_cases none : table.key = []
  · simp [none, Lookup.gives_throw]
  · simp only [List.isEmpty_iff, none, ↓reduceIte, Lookup.gives_bind, Lookup.gives_pure, ne_eq,
      not_false_eq_true, true_and]
    constructor
    · rintro ⟨i, _, hi, rfl, rfl⟩
      exact ⟨i, hi, rfl⟩
    · rintro ⟨i, hi, rfl⟩
      exact ⟨i, u, hi, rfl, rfl⟩

/-- The value of a column is not null where the record's is not. -/
theorem assignment_valued (record : Record) (column : Column) :
    (assignment source record column).Ends (fun a => a.column = column.name ∧
      ∀ v, Entries.get? column.name record = some v → v ≠ .null → a.bound.value.isNull = false)
      (fun _ => True) := by
  unfold assignment
  refine .bind (Q := fun c : Cell => ∀ v, Entries.get? column.name record = some v → v ≠ .null →
    c.isNull = false) ?_ fun c hc => .pure ⟨rfl, hc⟩
  by_cases null : (Entries.get? column.name record).getD .null = .null
  · refine (Lookup.Ends.any _).mono (fun c _ v value some => ?_) fun _ => id
    rw [value] at null
    exact absurd null some
  · exact (Convert.parameter_valued source _ null).mono (fun c hc _ _ _ => hc) fun _ => id

/-- A row gives values to columns that the record names, and none of them is null where the record's is
not. -/
theorem row_valued {record : Record} {columns : List Column} {cells : List (Option Bound)}
    (h : (row source columns record).Gives t cells u) :
    List.Forall₂ (fun column a => a.column = column.name ∧
        ∀ v, Entries.get? column.name record = some v → v ≠ .null → a.bound.value.isNull = false)
      (columns.filter fun column => Entries.has column.name record)
      (given (columns.map (·.name)) cells) :=
  Lookup.Ends.of_gives (.mapM fun column _ => assignment_valued record column) (row_gives h).2

/-- In a column that the record does not name, a row of it proposes the default. -/
theorem proposal_default {record : Record} {columns : List Column} {cells : List (Option Bound)}
    (h : (row source columns record).Gives t cells u) (f : Filling) (n : Nat) {column : Column}
    (hcolumn : column ∈ table.columns) (unnamed : Entries.has column.name record = false) :
    Row.cell (f.proposal table n (given (columns.map (·.name)) cells)) column.name =
      f.default n column.name := by
  have absent : (given (columns.map (·.name)) cells).find? (·.column = column.name) = none := by
    refine List.find?_eq_none.mpr fun a ha same => ?_
    obtain ⟨other, hother, named, -⟩ := exists_of_forall₂ (row_valued h) a ha
    have name : other.name = column.name := by rw [← named]; simpa using same
    have has := (List.mem_filter.mp hother).2
    rw [name, unnamed] at has
    cases has
  rw [Filling.proposal, Row.cell_fill, if_pos (List.mem_map_of_mem hcolumn), Filling.cell, absent]

/-- In a column for which the record has a value, a row of it proposes one. -/
theorem proposal_valued {record : Record} {columns : List Column} {cells : List (Option Bound)}
    (h : (row source columns record).Gives t cells u) (f : Filling) (n : Nat) {column : Column}
    (hcolumn : column ∈ table.columns) (read : column ∈ columns) {v : Json}
    (value : Entries.get? column.name record = some v) (some : v ≠ .null) :
    (Row.cell (f.proposal table n (given (columns.map (·.name)) cells)) column.name).isNull = false := by
  rw [Filling.proposal, Row.cell_fill, if_pos (List.mem_map_of_mem hcolumn), Filling.cell]
  cases found : (given (columns.map (·.name)) cells).find? (·.column = column.name) with
  | none =>
    have named : column ∈ columns.filter fun column => Entries.has column.name record :=
      List.mem_filter.mpr ⟨read, by simp [Entries.has, value]⟩
    obtain ⟨a, ha, name, -⟩ := exists_of_forall₂ (List.Forall₂.flip (row_valued h)) column named
    exact absurd (by simpa using name) (List.find?_eq_none.mp found a ha)
  | some a =>
    obtain ⟨other, -, named, valued⟩ :=
      exists_of_forall₂ (row_valued h) a (List.mem_of_find?_eq_some found)
    have name : other.name = column.name := by rw [← named]; simpa using List.find?_some found
    rw [f.stored_isNull]
    exact valued v (by rw [name, value]) some

/-! ## Upserts in turn -/

variable {all : List Record}

/-- The record has a value for each column of the primary key. -/
def HasKey (table : Table) (record : Record) : Prop :=
  ∀ column ∈ table.key, ∃ v, Entries.get? column.name record = some v ∧ v ≠ .null

theorem HasKey.columnsOf_ne_nil {record : Record} (h : HasKey table record) (keyed : table.key ≠ []) :
    columnsOf table [record] ≠ [] := by
  obtain ⟨column, hcolumn⟩ := List.exists_mem_of_ne_nil _ keyed
  obtain ⟨v, value, -⟩ := h column hcolumn
  refine List.ne_nil_of_mem (a := column) (List.mem_filter.mpr ⟨List.mem_of_mem_filter hcolumn, ?_⟩)
  simp [Entries.has, value]

/-- The row of a record proposes a value for each column of the primary key. -/
theorem HasKey.proposal {record : Record} {cells : List (Option Bound)} (h : HasKey table record)
    (hrecord : record ∈ all) (hrow : (row source (columnsOf table all) record).Gives t cells u)
    (f : Filling) (n : Nat) : ∀ name ∈ table.key.map (·.name),
      (Row.cell (f.proposal table n (given ((columnsOf table all).map (·.name)) cells)) name).isNull =
        false := by
  intro name hname
  obtain ⟨column, hcolumn, rfl⟩ := List.mem_map.mp hname
  obtain ⟨v, value, some⟩ := h column hcolumn
  have declared := List.mem_of_mem_filter hcolumn
  have read : column ∈ columnsOf table all := by
    refine List.mem_filter.mpr ⟨declared, List.any_eq_true.mpr ⟨record, hrecord, ?_⟩⟩
    simp [Entries.has, value]
  exact proposal_valued hrow f n declared read value some

/-- The upsert of a record settles the row that the record has among many. -/
theorem upsert_settled {record : Record} {cells : List (Option Bound)} (keyed : table.key ≠ [])
    (h : record ∈ all) (key : HasKey table record) (checked : checkNames table [record] = .ok ())
    (hrow : (row source (columnsOf table all) record).Gives t cells u) :
    ∃ st, (upsert source table record).Gives t st u ∧ ∀ (m : Semantics) (f : Filling) (store : Store),
      st.settled? m f table store = some {
        rows := m.settle (table.key.map (·.name)) (updatesOf table [record]) store.rows
          (f.proposal table store.proposed (given ((columnsOf table all).map (·.name)) cells))
        proposed := store.proposed + 1 } := by
  obtain ⟨single, hsingle, restates⟩ := insertion_of_row h checked (key.columnsOf_ne_nil keyed) hrow
  obtain ⟨bounds, rows, -, same⟩ := restates.only
  refine ⟨_, upsertAll_gives.mpr ⟨keyed, _, hsingle, rfl⟩, fun m f store => ?_⟩
  have proposals : f.proposals table single.columns store.proposed [bounds.map some] =
      [f.proposal table store.proposed (given ((columnsOf table all).map (·.name)) cells)] := by
    rw [same, ← Insertion.given_some]
    rfl
  have valued := key.proposal h hrow f store.proposed
  simp only [Statement.settled?, Insertion.settled?, Option.bind_some, rows, proposals]
  rw [if_pos ⟨by simpa using valued, .inr (List.pairwise_singleton _ _)⟩]
  rfl

/-- Upserts of some records, one after the other, settle the rows that the records have among many. -/
theorem upserts_settled (keyed : table.key ≠ []) : ∀ {records : List Record} {t u : σ}
    {rows : List (List (Option Bound))},
    (∀ record ∈ records, record ∈ all ∧ HasKey table record ∧ checkNames table [record] = .ok ()) →
    (records.mapM (row source (columnsOf table all))).Gives t rows u →
    ∃ sts, (records.mapM (upsert source table)).Gives t sts u ∧
      ∀ (m : Semantics) (f : Filling) (store : Store),
        settledInTurn? m f table sts store = some {
          rows := m.settleAll (table.key.map (·.name))
            (((records.zipIdx store.proposed).zip (f.proposals table
              ((columnsOf table all).map (·.name)) store.proposed rows)).map fun x =>
                (updatesOf table [x.1.1], x.2)) store.rows
          proposed := store.proposed + rows.length }
  | [], t, u, rows, _, h => by
    rw [List.mapM_nil, Lookup.gives_pure] at h
    obtain ⟨rfl, rfl⟩ := h
    refine ⟨[], ?_, fun m f store => rfl⟩
    rw [List.mapM_nil, Lookup.gives_pure]
    exact ⟨rfl, rfl⟩
  | record :: records, t, u, rows, each, h => by
    simp only [List.mapM_cons, Lookup.gives_bind, Lookup.gives_pure] at h
    obtain ⟨cells, v, hcells, rows, w, hrows, rfl, rfl⟩ := h
    obtain ⟨among, key, checked⟩ := each record (by simp)
    obtain ⟨st, hst, first⟩ := upsert_settled keyed among key checked hcells
    obtain ⟨sts, hsts, later⟩ :=
      upserts_settled keyed (fun other hother => each other (by simp [hother])) hrows
    refine ⟨st :: sts, ?_, fun m f store => ?_⟩
    · simp only [List.mapM_cons, Lookup.gives_bind, Lookup.gives_pure]
      exact ⟨st, v, hst, sts, _, hsts, rfl, rfl⟩
    · rw [settledInTurn?, List.foldlM_cons, first m f store]
      show settledInTurn? m f table sts _ = _
      rw [later]
      simp only [List.length_cons, Option.some.injEq, Store.mk.injEq]
      refine ⟨rfl, by omega⟩

/-! ## Upserts at once -/

/-- Each proposed row is one of its record. -/
theorem proposals_rows (f : Filling) (table : Table) {columns : List Column} :
    ∀ {records : List Record} {t u : σ} {rows : List (List (Option Bound))} (n : Nat),
    (records.mapM (row source columns)).Gives t rows u →
    List.Forall₂ (fun (x : Record × Nat) p => ∃ t cells u, (row source columns x.1).Gives t cells u ∧
        p = f.proposal table x.2 (given (columns.map (·.name)) cells))
      (records.zipIdx n) (f.proposals table (columns.map (·.name)) n rows)
  | [], t, u, rows, n, h => by
    rw [List.mapM_nil, Lookup.gives_pure] at h
    obtain ⟨rfl, -⟩ := h
    exact .nil
  | record :: records, t, u, rows, n, h => by
    simp only [List.mapM_cons, Lookup.gives_bind, Lookup.gives_pure] at h
    obtain ⟨cells, v, hcells, rows, w, hrows, rfl, -⟩ := h
    exact .cons ⟨t, cells, v, hcells, rfl⟩ (proposals_rows f table (n + 1) hrows)

/-- The upsert of some records settles their rows, all of them with the same columns. -/
theorem upsertAll_settled {records : List Record} {rows : List (List (Option Bound))}
    (key : ∀ record ∈ records, HasKey table record)
    (hrows : (records.mapM (row source (columnsOf table records))).Gives t rows u)
    (m : Semantics) (f : Filling) (store : Store) {i : Insertion} (hi : i.rows = rows)
    (hcolumns : i.columns = (columnsOf table records).map (·.name))
    (hconflict : i.conflict = some ⟨table.key.map (·.name), updatesOf table records⟩)
    (distinct : (f.proposals table i.columns store.proposed i.rows).Pairwise
      fun a b => m.sameKey (table.key.map (·.name)) a b = false) :
    (Statement.insert i).settled? m f table store = some {
      rows := m.settleAll (table.key.map (·.name))
        ((f.proposals table i.columns store.proposed i.rows).map fun p => (updatesOf table records, p))
        store.rows
      proposed := store.proposed + rows.length } := by
  have valued : ∀ p ∈ f.proposals table i.columns store.proposed i.rows,
      ∀ name ∈ table.key.map (·.name), (Row.cell p name).isNull = false := by
    intro p hp
    rw [hi, hcolumns] at hp
    obtain ⟨⟨record, n⟩, hrecord, _, _, _, hcells, rfl⟩ :=
      exists_of_forall₂ (proposals_rows f table store.proposed hrows) p hp
    have hrecord := List.fst_mem_of_mem_zipIdx hrecord
    exact (key record hrecord).proposal hrecord hcells f n
  simp only [Statement.settled?, Insertion.settled?, hconflict, Option.bind_some]
  rw [if_pos ⟨valued, .inr distinct⟩, hi]

/-- The columns that an upsert of some records changes: those outside of the key that any of them names. -/
theorem mem_updatesOf {records : List Record} {name : String} : name ∈ updatesOf table records ↔
    ∃ column ∈ table.columns, column.name = name ∧ column.isKey = false ∧
      ∃ record ∈ records, Entries.has name record = true := by
  simp only [updatesOf, columnsOf, List.mem_map, List.mem_filter, List.any_eq_true]
  constructor
  · rintro ⟨column, ⟨⟨hcolumn, record, hrecord, named⟩, plain⟩, rfl⟩
    exact ⟨column, hcolumn, rfl, by simpa using plain, record, hrecord, named⟩
  · rintro ⟨column, hcolumn, rfl, plain, record, hrecord, named⟩
    exact ⟨column, ⟨⟨hcolumn, record, hrecord, named⟩, by simpa using plain⟩, rfl⟩

/-- What an upsert of some records changes and one of a single record does not: the columns that only others
name. -/
theorem mem_updatesOf_apart {records : List Record} {record : Record} {name : String} :
    name ∈ updatesOf table records ∧ name ∉ updatesOf table [record] ↔
      ∃ column ∈ table.columns, column.name = name ∧ column.isKey = false ∧
        (∃ other ∈ records, Entries.has name other = true) ∧ Entries.has name record = false := by
  constructor
  · rintro ⟨wide, narrow⟩
    obtain ⟨column, hcolumn, rfl, plain, named⟩ := mem_updatesOf.mp wide
    refine ⟨column, hcolumn, rfl, plain, named, ?_⟩
    rw [← Bool.not_eq_true]
    exact fun has => narrow (mem_updatesOf.mpr ⟨column, hcolumn, rfl, plain, record, by simp, has⟩)
  · rintro ⟨column, hcolumn, rfl, plain, named, unnamed⟩
    refine ⟨mem_updatesOf.mpr ⟨column, hcolumn, rfl, plain, named⟩, fun narrow => ?_⟩
    obtain ⟨_, -, -, -, other, hother, has⟩ := mem_updatesOf.mp narrow
    rw [List.mem_singleton.mp hother, unnamed] at has
    cases has

theorem mem_updatesOf_of_mem {records : List Record} {record : Record} (h : record ∈ records)
    {name : String} (own : name ∈ updatesOf table [record]) : name ∈ updatesOf table records := by
  obtain ⟨column, hcolumn, same, plain, other, hother, has⟩ := mem_updatesOf.mp own
  rw [List.mem_singleton.mp hother] at has
  exact mem_updatesOf.mpr ⟨column, hcolumn, same, plain, record, h, has⟩

end Build

/-- Wherever a row of the store has the key of a record, it holds the defaults already in the columns that
others of the records name and this one does not. -/
def Store.HoldsDefaults (store : Store) (m : Semantics) (f : Filling) (table : Table)
    (records : List Record) (proposals : List Row) : Prop :=
  ∀ record n proposal, ((record, n), proposal) ∈ (records.zipIdx store.proposed).zip proposals →
    ∀ row ∈ store.rows, m.sameKey (table.key.map (·.name)) proposal row = true →
      ∀ column ∈ table.columns, column.isKey = false →
        (∃ other ∈ records, Entries.has column.name other = true) →
        Entries.has column.name record = false →
          Row.cell row column.name = f.default n column.name

namespace Build

variable {source : SchemaSource σ} {table : Table} {t u : σ}

/-- With all columns that any record names, the rows of the table become what they become with the columns
that each record names, exactly if they hold the defaults. -/
theorem settleAll_holds {records : List Record} {rows : List (List (Option Bound))} {m : Semantics}
    (hm : m.IsOrder) {f : Filling} {store : Store} {proposals : List Row}
    (hrows : (records.mapM (row source (columnsOf table records))).Gives t rows u)
    (hproposals : proposals =
      f.proposals table ((columnsOf table records).map (·.name)) store.proposed rows)
    (distinct : proposals.Pairwise fun a b => m.sameKey (table.key.map (·.name)) a b = false) :
    SameContent
        (m.settleAll (table.key.map (·.name)) (proposals.map fun p => (updatesOf table records, p))
          store.rows)
        (m.settleAll (table.key.map (·.name)) (((records.zipIdx store.proposed).zip proposals).map
          fun x => (updatesOf table [x.1.1], x.2)) store.rows) ↔
      store.HoldsDefaults m f table records proposals := by
  have own := proposals_rows f table store.proposed hrows
  rw [← hproposals] at own
  have second : ((records.zipIdx store.proposed).zip proposals).map (·.2) = proposals :=
    List.map_snd_zip (Nat.le_of_eq own.length_eq.symm)
  have wide : (proposals.map fun p => (updatesOf table records, p)) =
      ((records.zipIdx store.proposed).zip proposals).map fun x => (updatesOf table records, x.2) := by
    conv_lhs => rw [← second, List.map_map]
    rfl
  have apart : ((records.zipIdx store.proposed).zip proposals).Pairwise fun x y =>
      m.sameKey (table.key.map (·.name)) x.2 y.2 = false := by
    rw [← second] at distinct
    exact List.pairwise_map.mp distinct
  have within : ∀ x ∈ (records.zipIdx store.proposed).zip proposals,
      ∀ name ∈ updatesOf table [x.1.1], name ∈ updatesOf table records := fun x hx name =>
    mem_updatesOf_of_mem (List.fst_mem_of_mem_zipIdx (List.of_mem_zip hx).1)
  have default : ∀ x ∈ (records.zipIdx store.proposed).zip proposals, ∀ column ∈ table.columns,
      Entries.has column.name x.1.1 = false → Row.cell x.2 column.name = f.default x.1.2 column.name := by
    intro x hx column hcolumn unnamed
    obtain ⟨_, _, _, hcells, proposed⟩ := List.forall₂_zip own hx
    rw [proposed]
    exact proposal_default hcells f x.1.2 hcolumn unnamed
  rw [wide, hm.settleAll_same_iff apart within]
  constructor
  · intro agree record n p hx row hrow same column hcolumn plain named unnamed
    obtain ⟨changed, kept⟩ := mem_updatesOf_apart.mpr ⟨column, hcolumn, rfl, plain, named, unnamed⟩
    rw [← default _ hx column hcolumn unnamed]
    exact agree _ hx row hrow same column.name changed kept
  · intro holds x hx row hrow same name changed kept
    obtain ⟨column, hcolumn, rfl, plain, named, unnamed⟩ := mem_updatesOf_apart.mp ⟨changed, kept⟩
    rw [default x hx column hcolumn unnamed]
    exact holds x.1.1 x.1.2 x.2 hx row hrow same column hcolumn plain named unnamed

/-- Records that can be upserted in turn can be upserted at once. -/
theorem exists_upsertAll {records : List Record} {sts : List Statement} (keyed : table.key ≠ [])
    (some : records ≠ []) (h : (records.mapM (upsert source table)).Gives t sts u) :
    ∃ st, (upsertAll source table records).Gives t st u := by
  obtain ⟨i, hi⟩ := exists_insertion some (fun record _ t st u hst => by
    obtain ⟨-, single, hsingle, -⟩ := upsertAll_gives.mp hst
    exact ⟨single, hsingle⟩) h
  exact ⟨_, upsertAll_gives.mpr ⟨keyed, _, hi, rfl⟩⟩

/-- Some records are upserted at once if they can be upserted in turn. If their keys differ, then the table
is the same after both exactly if no row of it loses a value to a default. -/
theorem upsertAll_upserts {records : List Record} (keyed : table.key ≠ [])
    (key : ∀ record ∈ records, HasKey table record) :
    ((∃ st, (upsertAll source table records).Gives t st u) ↔
      records ≠ [] ∧ ∃ sts, (records.mapM (upsert source table)).Gives t sts u) ∧
    ∀ i : Insertion, (upsertAll source table records).Gives t (.insert i) u →
      ∃ sts, (records.mapM (upsert source table)).Gives t sts u ∧
        ∀ (m : Semantics) (f : Filling) (store : Store), m.IsOrder →
          ((f.proposals table i.columns store.proposed i.rows).Pairwise
            fun a b => m.sameKey (table.key.map (·.name)) a b = false) →
          ∃ atOnce inTurn, (Statement.insert i).settled? m f table store = some atOnce ∧
            settledInTurn? m f table sts store = some inTurn ∧
            (SameContent atOnce.rows inTurn.rows ↔ store.HoldsDefaults m f table records
              (f.proposals table i.columns store.proposed i.rows)) := by
  have inTurn : ∀ {rows}, checkNames table records = .ok () →
      (records.mapM (row source (columnsOf table records))).Gives t rows u → _ :=
    fun checked hrows => upserts_settled keyed (fun record hrecord =>
      ⟨hrecord, key record hrecord, checkNames_eq_ok.mp checked record hrecord⟩) hrows
  refine ⟨⟨?_, ?_⟩, ?_⟩
  · rintro ⟨st, h⟩
    obtain ⟨-, _, hi, -⟩ := upsertAll_gives.mp h
    obtain ⟨some, checked, -, -, rows, hrows, -⟩ := insertion_gives.mp hi
    obtain ⟨sts, hsts, -⟩ := inTurn checked hrows
    exact ⟨some, sts, hsts⟩
  · rintro ⟨some, sts, h⟩
    exact exists_upsertAll keyed some h
  · intro i h
    obtain ⟨-, ⟨columns, plain⟩, hplain, same⟩ := upsertAll_gives.mp h
    obtain ⟨some, checked, -, rfl, rows, hrows, rfl⟩ := insertion_gives.mp hplain
    cases same
    obtain ⟨sts, hsts, settled⟩ := inTurn checked hrows
    refine ⟨sts, hsts, fun m f store hm distinct => ?_⟩
    exact ⟨_, _, upsertAll_settled key hrows m f store rfl rfl rfl distinct, settled m f store,
      settleAll_holds hm hrows rfl distinct⟩

end Build

def usersTable : Table where
  name := "users"
  columns :=
    [{ Column.ofTag "id" "integer" with isKey := true }, .ofTag "name" "text", .ofTag "age" "integer"]

/-- A user with a name, and one of whom only the key is given. -/
def users : List Record := [[("id", .int 1), ("name", .str "Ann")], [("id", .int 2)]]

def usersUpsert : Insertion where
  table := "users"
  columns := ["id", "name"]
  rows := [[some ⟨{}, .int 1⟩, some ⟨{}, .text "Ann"⟩], [some ⟨{}, .int 2⟩, none]]
  conflict := some ⟨["id"], ["name"]⟩
  returning := true

/-- A database that stores the parameters and has no defaults. -/
def plainFilling : Filling where
  stored _ b := b.value
  default _ _ := .null
  stored_isNull _ _ := rfl

theorem users_hasKey : ∀ record ∈ users, Build.HasKey usersTable record := by
  intro record hrecord column hcolumn
  have key : usersTable.key = [{ Column.ofTag "id" "integer" with isKey := true }] := rfl
  rw [key, List.mem_singleton] at hcolumn
  subst hcolumn
  rcases List.mem_cons.mp hrecord with rfl | hrecord
  · exact ⟨.int 1, rfl, by simp⟩
  · rw [List.mem_singleton.mp hrecord]
    exact ⟨.int 2, rfl, by simp⟩

theorem usersUpsert_gives :
    (Build.upsertAll (.fixed {}) usersTable users).Gives () (.insert usersUpsert) () := by
  unfold Lookup.Gives
  rfl

theorem usersUpsert_distinct :
    (plainFilling.proposals usersTable usersUpsert.columns 0 usersUpsert.rows).Pairwise
      fun a b => (Semantics.ofRank Cell.number).sameKey ["id"] a b = false := by
  decide +kernel

/-- Users of whom one has no name yet. -/
def unnamedUsers : Store where
  rows := [[("id", .int 2), ("name", .null), ("age", .int 30)]]

theorem upsertAll_upserts_users : ∃ sts atOnce inTurn,
    (Build.upsertAll (.fixed {}) usersTable users).Gives () (.insert usersUpsert) () ∧
    (users.mapM (Build.upsert (.fixed {}) usersTable)).Gives () sts () ∧
    (Statement.insert usersUpsert).settled? (.ofRank Cell.number) plainFilling usersTable unnamedUsers =
      some atOnce ∧
    settledInTurn? (.ofRank Cell.number) plainFilling usersTable sts unnamedUsers = some inTurn ∧
    SameContent atOnce.rows inTurn.rows := by
  obtain ⟨sts, hsts, settled⟩ :=
    (Build.upsertAll_upserts (by decide) users_hasKey).2 usersUpsert usersUpsert_gives
  obtain ⟨atOnce, inTurn, hatOnce, hinTurn, same⟩ :=
    settled (.ofRank Cell.number) plainFilling unnamedUsers (Semantics.ofRank_isOrder _)
      usersUpsert_distinct
  refine ⟨sts, atOnce, inTurn, usersUpsert_gives, hsts, hatOnce, hinTurn, same.mpr ?_⟩
  intro record n proposal _ row hrow _ column hcolumn plain named _
  rw [List.mem_singleton.mp hrow]
  have columns : column.name = "id" ∧ column.isKey = true ∨ column.name = "name" ∨
      column.name = "age" := by
    simp only [usersTable, List.mem_cons, List.not_mem_nil, or_false] at hcolumn
    rcases hcolumn with rfl | rfl | rfl
    · exact .inl ⟨rfl, rfl⟩
    · exact .inr (.inl rfl)
    · exact .inr (.inr rfl)
  rcases columns with ⟨-, key⟩ | name | age
  · rw [plain] at key
    cases key
  · rw [name]
    rfl
  · rw [age] at named
    exact absurd named (by decide)

/-- A user who has a name already. -/
def namedUsers : Store where
  rows := [[("id", .int 2), ("name", .text "Bob"), ("age", .int 30)]]

def Store.names (store : Store) : List String :=
  store.rows.map fun row => (Row.cell row "name").literal

def usersUpserts : List Statement :=
  [.insert { usersUpsert with rows := [[some ⟨{}, .int 1⟩, some ⟨{}, .text "Ann"⟩]] },
    .insert { usersUpsert with
      columns := ["id"], rows := [[some ⟨{}, .int 2⟩]], conflict := some ⟨["id"], []⟩ }]

/-- A user of whom only the key is given loses the name when another one is named, and keeps it when upserted
alone. -/
theorem users_upserted_apart : ∃ atOnce inTurn,
    (∀ record ∈ users, ∀ name ∈ Entries.keys record, usersTable.hasColumn name = true) ∧
    (∀ record ∈ users, Build.HasKey usersTable record) ∧
    (Build.upsertAll (.fixed {}) usersTable users).Gives () (.insert usersUpsert) () ∧
    ((plainFilling.proposals usersTable usersUpsert.columns namedUsers.proposed usersUpsert.rows).Pairwise
      fun a b => (Semantics.ofRank Cell.number).sameKey ["id"] a b = false) ∧
    (users.mapM (Build.upsert (.fixed {}) usersTable)).Gives () usersUpserts () ∧
    (Statement.insert usersUpsert).settled? (.ofRank Cell.number) plainFilling usersTable namedUsers =
      some atOnce ∧
    settledInTurn? (.ofRank Cell.number) plainFilling usersTable usersUpserts namedUsers = some inTurn ∧
    atOnce.names = ["NULL", "Ann"] ∧ inTurn.names = ["Bob", "Ann"] ∧
    ¬ SameContent atOnce.rows inTurn.rows := by
  have once : ((Statement.insert usersUpsert).settled? (.ofRank Cell.number) plainFilling usersTable
      namedUsers).map Store.names = some ["NULL", "Ann"] := by decide +kernel
  have turn : (settledInTurn? (.ofRank Cell.number) plainFilling usersTable usersUpserts
      namedUsers).map Store.names = some ["Bob", "Ann"] := by decide +kernel
  obtain ⟨atOnce, hatOnce, onceNames⟩ := Option.map_eq_some_iff.mp once
  obtain ⟨inTurn, hinTurn, turnNames⟩ := Option.map_eq_some_iff.mp turn
  have gives : (users.mapM (Build.upsert (.fixed {}) usersTable)).Gives () usersUpserts () := by
    unfold Lookup.Gives
    rfl
  refine ⟨atOnce, inTurn, by decide, users_hasKey, usersUpsert_gives, usersUpsert_distinct, gives,
    hatOnce, hinTurn, onceNames, turnNames, fun content => ?_⟩
  have bob : "Bob" ∈ inTurn.names := by simp [turnNames]
  obtain ⟨row, hrow, name⟩ := List.mem_map.mp bob
  obtain ⟨other, hother, same⟩ := content.exists_same hrow
  have kept : "Bob" ∈ atOnce.names := List.mem_map.mpr ⟨other, hother, by rw [same, name]⟩
  simp [onceNames] at kept

end TableGateway
