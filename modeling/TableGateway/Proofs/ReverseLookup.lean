import Mathlib.Data.List.Count
import Mathlib.Data.Prod.Basic
import TableGateway.Proofs.ParamOrder
import TableGateway.Relationship
import TableGateway.Schema.Description

/-!
# Lookups in any order of the tables

The tables of a snapshot stand under their names, and may come in any order when all of them are looked
through. Still the foreign keys that refer to a table are listed in one order: by the names of their tables,
of which no two are the same, and within a table as they are declared, since the sort is stable. So the name
of a relation connects a table in the same way, in whatever order the tables come. Main statement:
`Snapshot.lookups_enumerated`.
-/
namespace TableGateway

open Entries (Rising)

/-- The foreign keys of the table that refer to the name, in declared order, each with the table. -/
def Table.references (table : Table) (name : String) : List (Table × ForeignKey) :=
  (table.foreignKeys.filter (·.table = name)).map (table, ·)

namespace Snapshot

/-- The tables have been added one after the other. -/
def Built (s : Snapshot) : Prop :=
  ∃ (added : List Table) (enums : Entries (List String)) (composites : Entries (List (String × String))),
    s = added.foldl withTable { enums, composites }

def enumerated (s : Snapshot) (order : Entries Table) : Snapshot := { s with tables := order }

/-- The list holds the foreign keys that refer to the name, each with the table of the snapshot that
declares it. -/
structure Lists (s : Snapshot) (name : String) (pairs : List (Table × ForeignKey)) : Prop where
  /-- They are sorted by the names of their tables. -/
  sorted : pairs.Pairwise fun a b => a.1.name ≤ b.1.name
  /-- A foreign key is listed as often as it is declared, and nothing else is listed. -/
  once : ∀ table key, pairs.count (table, key) =
    if s.table? table.name = some table ∧ key.table = name then table.foreignKeys.count key else 0
  /-- Those of one table are in declared order. -/
  declared : ∀ table, s.table? table.name = some table →
    (pairs.filter (·.1 = table)).map (·.2) = table.foreignKeys.filter (·.table = name)

/-! ## Tables under their names -/

/-- Each table stands under its name, and no two of them under the same one. -/
structure Keyed (s : Snapshot) : Prop where
  distinct : (Entries.keys s.tables).Nodup
  named : ∀ entry ∈ s.tables, entry.2.name = entry.1

theorem withTable_named {s : Snapshot} (h : ∀ entry ∈ s.tables, entry.2.name = entry.1) (table : Table) :
    ∀ entry ∈ (s.withTable table).tables, entry.2.name = entry.1 := by
  intro entry hentry
  rcases Entries.mem_insert hentry with rfl | hentry
  · rfl
  · exact h entry hentry

theorem foldl_withTable (added : List Table) {s : Snapshot} (rising : Rising s.tables)
    (named : ∀ entry ∈ s.tables, entry.2.name = entry.1) :
    Rising (added.foldl withTable s).tables ∧
      ∀ entry ∈ (added.foldl withTable s).tables, entry.2.name = entry.1 := by
  induction added generalizing s with
  | nil => exact ⟨rising, named⟩
  | cons table added ih => exact ih (rising.insert table.name table) (withTable_named named table)

theorem Built.keyed {s : Snapshot} (h : s.Built) : s.Keyed := by
  obtain ⟨added, enums, composites, rfl⟩ := h
  obtain ⟨rising, named⟩ := foldl_withTable added (s := { enums, composites }) .nil nofun
  exact ⟨List.pairwise_map.mpr (rising.imp String.ne_of_lt), named⟩

/-- A snapshot that is described has its tables added in the order of their descriptions. -/
theorem built_of_description {d : Description} {s : Snapshot} (h : d.snapshot = .ok s) : s.Built := by
  rw [Description.snapshot] at h
  cases described : d.tables.mapM TableDescription.table with
  | error e =>
    rw [described] at h
    cases h
  | ok tables =>
    rw [described] at h
    cases h
    exact ⟨tables, d.enums, d.composites, rfl⟩

variable {s : Snapshot} {order : Entries Table} {name : String}

theorem Keyed.enumerated (h : s.Keyed) (perm : order.Perm s.tables) : (s.enumerated order).Keyed where
  distinct := (perm.map _).nodup_iff.mpr h.distinct
  named entry hentry := h.named entry (perm.mem_iff.mp hentry)

theorem Keyed.table?_eq_some_iff (h : s.Keyed) {table : Table} :
    s.table? name = some table ↔ (name, table) ∈ s.tables :=
  ⟨Entries.mem_of_get?, Entries.get?_of_mem h.distinct⟩

/-- A table is found by its name in whatever order the tables come. -/
theorem Keyed.table?_enumerated (h : s.Keyed) (perm : order.Perm s.tables) (name : String) :
    (s.enumerated order).table? name = s.table? name := by
  refine Option.ext fun table => ?_
  rw [(h.enumerated perm).table?_eq_some_iff, h.table?_eq_some_iff]
  exact perm.mem_iff

/-! ## References -/

theorem table_of_references {table : Table} {pair : Table × ForeignKey}
    (h : pair ∈ table.references name) : pair.1 = table := by
  obtain ⟨_, -, rfl⟩ := List.mem_map.mp h
  rfl

theorem filter_references (table : Table) (name other : String) :
    (table.references name).filter (·.1.name = other) =
      if table.name = other then table.references name else [] := by
  split
  · rename_i same
    exact List.filter_eq_self.mpr fun pair h => by simpa [table_of_references h] using same
  · rename_i different
    exact List.filter_eq_nil_iff.mpr fun pair h => by simpa [table_of_references h] using different

theorem count_references (table : Table) (name : String) (key : ForeignKey) :
    (table.references name).count (table, key) =
      if key.table = name then table.foreignKeys.count key else 0 := by
  rw [Table.references, List.count_map_of_injective _ _ (Prod.mk_right_injective table)]
  split
  · rename_i same
    exact List.count_filter (by simpa using same)
  · rename_i different
    exact List.count_eq_zero.mpr fun h => different (by simpa using (List.mem_filter.mp h).2)

/-- Of the foreign keys of all tables, those under one name are those of the table that is found there. -/
theorem filter_flatMap_references (name other : String) : ∀ {entries : Entries Table},
    (Entries.keys entries).Nodup → (∀ entry ∈ entries, entry.2.name = entry.1) →
    ((entries.map (·.2)).flatMap (·.references name)).filter (·.1.name = other) =
      (entries.get? other).elim [] (·.references name)
  | [], _, _ => rfl
  | (key, table) :: rest, distinct, named => by
    obtain ⟨fresh, distinct⟩ := List.nodup_cons.mp distinct
    have own : table.name = key := named (key, table) List.mem_cons_self
    have later := filter_flatMap_references name other distinct fun entry hentry =>
      named entry (List.mem_cons_of_mem _ hentry)
    rw [List.map_cons, List.flatMap_cons, List.filter_append, later, filter_references, own, Entries.get?]
    by_cases same : key = other
    · -- No other table stands under the name.
      have none : Entries.get? other rest = none := by
        rw [Option.eq_none_iff_forall_ne_some]
        intro table found
        exact fresh (same ▸ List.mem_map.mpr ⟨_, Entries.mem_of_get? found, rfl⟩)
      rw [if_pos same, if_pos same, none]
      exact List.append_nil _
    · rw [if_neg same, if_neg same]
      rfl

theorem Keyed.filter_referencing (h : s.Keyed) (name other : String) :
    (s.referencing name).filter (·.1.name = other) = (s.table? other).elim [] (·.references name) :=
  (filter_mergeSort _ other).trans (filter_flatMap_references name other h.distinct h.named)

theorem referencing_sorted (s : Snapshot) (name : String) :
    (s.referencing name).Pairwise fun a b => a.1.name ≤ b.1.name := mergeSort_sorted _

/-- The foreign keys are listed in the same order, in whatever order the tables come. -/
theorem Keyed.referencing_enumerated (h : s.Keyed) (perm : order.Perm s.tables) (name : String) :
    (s.enumerated order).referencing name = s.referencing name := by
  refine eq_of_filter_eq (referencing_sorted _ name) (referencing_sorted s name) fun other => ?_
  rw [(h.enumerated perm).filter_referencing, h.filter_referencing, h.table?_enumerated perm]

theorem Keyed.lists_referencing (h : s.Keyed) (name : String) : s.Lists name (s.referencing name) where
  sorted := referencing_sorted s name
  once table key := by
    have named : ((s.referencing name).filter (·.1.name = table.name)).count (table, key) =
        (s.referencing name).count (table, key) := List.count_filter (by simp)
    rw [← named, h.filter_referencing]
    cases found : s.table? table.name with
    | none => simp
    | some other =>
      by_cases same : other = table
      · subst same
        simpa using count_references other name key
      · have absent : (table, key) ∉ other.references name := fun h => same (table_of_references h).symm
        simpa [same] using List.count_eq_zero.mpr absent
  declared table found := by
    have named : (s.referencing name).filter (·.1 = table) =
        ((s.referencing name).filter (·.1.name = table.name)).filter (·.1 = table) := by
      rw [List.filter_filter]
      refine List.filter_congr fun pair _ => ?_
      by_cases same : pair.1 = table <;> simp [same]
    have own : (table.references name).filter (·.1 = table) = table.references name :=
      List.filter_eq_self.mpr fun pair h => by simpa using table_of_references h
    rw [named, h.filter_referencing, found]
    show List.map _ ((table.references name).filter _) = _
    rw [own, Table.references, List.map_map]
    exact List.map_id' _

/-- A table is connected with another one that refers to it by the first such foreign key declared there. -/
theorem Keyed.reverse?_eq (h : s.Keyed) (table : Table) (name : String) :
    Relationship.reverse? s table name = (s.table? name).bind fun source =>
      (source.foreignKeys.find? (·.table = table.name)).map (.reverse · source) := by
  have found : (s.referencing table.name).find? (fun pair => pair.1.name == name) =
      ((s.table? name).elim [] (·.references table.name)).head? := by
    rw [← h.filter_referencing, List.head?_filter]
    rfl
  show ((s.referencing table.name).find? fun pair => pair.1.name == name).bind
    (fun pair => some (Relationship.reverse pair.2 pair.1)) = _
  rw [found]
  cases s.table? name with
  | none => rfl
  | some source =>
    show (source.references table.name).head?.bind _ = Option.map _ _
    rw [Table.references, List.head?_map, List.head?_filter]
    cases source.foreignKeys.find? (·.table = table.name) with
    | none => rfl
    | some key => rfl

/-- In whatever order the tables of a snapshot come, the foreign keys that refer to a table are listed once
each, by the names of their tables and in declared order, and the name of a relation connects a table in
the same way. -/
theorem lookups_enumerated (built : s.Built) (perm : order.Perm s.tables) :
    (∀ name, s.Lists name ((s.enumerated order).referencing name)) ∧
    (∀ name, (s.enumerated order).referencing name = s.referencing name) ∧
    ∀ table name, Relationship.resolve? (s.enumerated order) table name =
      Relationship.resolve? s table name := by
  have keyed := built.keyed
  have tables : ∀ name, (s.enumerated order).table? name = s.table? name := keyed.table?_enumerated perm
  have references := keyed.referencing_enumerated perm
  refine ⟨fun name => ?_, references, fun table name => ?_⟩
  · rw [references]
    exact keyed.lists_referencing name
  · have forward : Relationship.forward? (s.enumerated order) table name =
        Relationship.forward? s table name := by
      simp only [Relationship.forward?, tables]
    rw [Relationship.resolve?, forward, (keyed.enumerated perm).reverse?_eq, tables, ← keyed.reverse?_eq]
    rfl

end Snapshot

def accounts : Table := { name := "accounts", columns := [.ofTag "id" "integer"] }

/-- Transfers, each from one account to another. -/
def transfers : Table :=
  let bare : Table :=
    { name := "transfers", columns := [.ofTag "source_id" "integer", .ofTag "target_id" "integer"] }
  (bare.refer "source_id" "accounts" "id").refer "target_id" "accounts" "id"

def cards : Table :=
  let bare : Table := { name := "cards", columns := [.ofTag "account_id" "integer"] }
  bare.refer "account_id" "accounts" "id"

def bank : Snapshot := [transfers, accounts, cards].foldl Snapshot.withTable {}

/-- Of the two foreign keys of a transfer, the first one connects in the reverse order of the tables, too. -/
theorem lookups_enumerated_transfers :
    bank.Built ∧ bank.tables.reverse.Perm bank.tables ∧
    bank.Lists "accounts" ((bank.enumerated bank.tables.reverse).referencing "accounts") ∧
    Relationship.resolve? (bank.enumerated bank.tables.reverse) accounts "transfers" =
      some (.reverse ⟨"transfers_source_id_fkey", "source_id", "accounts", "id"⟩ transfers) := by
  have built : bank.Built := ⟨[transfers, accounts, cards], [], [], rfl⟩
  have perm : bank.tables.reverse.Perm bank.tables := List.reverse_perm _
  obtain ⟨lists, -, same⟩ := Snapshot.lookups_enumerated built perm
  refine ⟨built, perm, lists "accounts", ?_⟩
  rw [same, Relationship.resolve?, built.keyed.reverse?_eq]
  rfl

end TableGateway
