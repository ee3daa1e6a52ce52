import TableGateway.Proofs.Agreement
import TableGateway.Proofs.Leaf
import TableGateway.Proofs.Submission

/-!
# Labels and addresses that are written

A value comes to its column as a document, in lists within lists, as the only item of an array, as the literal
of an array or as a text of a URL. On each of these ways every text of an enum is looked up among the labels
and every text of a network type is checked to be an address. So where the labels are known, nothing else is
bound to a column of such items, however deep they lie in the value. Main statement: `Build.bound_admissible`.
-/
namespace TableGateway

variable {σ α β : Type}

/-- The cell has no texts but those with the property, at any depth, and otherwise null only. -/
inductive Cell.MadeOf (P : String → Prop) : Cell → Prop where
  | null : MadeOf P .null
  | text {s : String} (h : P s) : MadeOf P (.text s)
  | array {items : List Cell} (h : ∀ c ∈ items, MadeOf P c) : MadeOf P (.array items)

theorem ColumnType.isArray_baseElement : ∀ type : ColumnType, type.baseElement.isArray = false
  | .array inner => isArray_baseElement inner
  | .scalar _ | .enumeration _ | .composite _ | .network _ => rfl

namespace SchemaSource

/-! ## Readings between two states -/

section

variable (source : SchemaSource σ) (s e : σ)

/-- The source comes through the state when it is read from the one state to the other. -/
def Passes (t : σ) : Prop := source.Reaches s t ∧ source.Reaches t e

/-- Whatever the source comes through, it knows the labels of the enum. -/
def Knows (enum : String) : Prop := ∀ t, source.Passes s e t → (source.labelsAt t enum).isSome = true

/-- The label is declared in some state that the source comes through. -/
def Declares (enum label : String) : Prop :=
  ∃ t labels, source.Passes s e t ∧ source.labelsAt t enum = some labels ∧ label ∈ labels

/-- The cell may be bound to a column of the type: if its innermost items are of an enum that is known, it has
only labels, and if they are of a network type, only addresses. -/
structure Admissible (type : ColumnType) (c : Cell) : Prop where
  labels : ∀ enum, type.baseElement = .enumeration enum → source.Knows s e enum →
    c.MadeOf (source.Declares s e enum)
  addresses : ∀ kind, type.baseElement = .network kind →
    c.MadeOf fun address => Network.isValid kind address = true

/-- The lookup only reads, and what it gives between the two states has the property. -/
def Ensures (x : Lookup σ α) (Q : α → Prop) : Prop :=
  ∀ t a u, x.Gives t a u → source.Reaches t u ∧ (source.Reaches s t → source.Reaches u e → Q a)

end

variable {source : SchemaSource σ} {s e : σ} {Q : α → Prop} {R : β → Prop}

theorem Reaches.trans {t u v : σ} (first : source.Reaches t u) (later : source.Reaches u v) :
    source.Reaches t v := by
  induction later with
  | start => exact first
  | read _ ih => exact ih.read

theorem knows_fixed {snapshot : Snapshot} {enum : String} :
    (fixed snapshot).Knows () () enum ↔ (snapshot.enums.get? enum).isSome = true :=
  ⟨fun h => h () ⟨.start, .start⟩, fun h _ _ => h⟩

theorem declares_fixed {snapshot : Snapshot} {enum label : String} :
    (fixed snapshot).Declares () () enum label ↔
      ∃ labels, snapshot.enums.get? enum = some labels ∧ label ∈ labels :=
  ⟨fun ⟨_, labels, _, declared, h⟩ => ⟨labels, declared, h⟩,
    fun ⟨labels, declared, h⟩ => ⟨(), labels, ⟨.start, .start⟩, declared, h⟩⟩

theorem ensures_pure {a : α} (h : Q a) : source.Ensures s e (pure a) Q := by
  intro t a u given
  obtain ⟨rfl, rfl⟩ := Lookup.gives_pure.mp given
  exact ⟨.start, fun _ _ => h⟩

theorem ensures_known {r : Except Fault α} (h : ∀ a, r = .ok a → Q a) : source.Ensures s e (known r) Q := by
  intro t a u given
  obtain ⟨value, rfl⟩ := Lookup.gives_known.mp given
  exact ⟨.start, fun _ _ => h a value⟩

theorem ensures_throw {fault : Fault} : source.Ensures s e (throw fault) Q :=
  fun _ _ _ given => (Lookup.gives_throw.mp given).elim

/-- What is looked up in a snapshot is read. -/
theorem ensures_read (f : Snapshot → α) :
    source.Ensures s e (do return f (← source.current)) fun _ => True := by
  intro t a u given
  unfold Lookup.Gives at given
  rw [run_current_map] at given
  obtain ⟨-, rfl⟩ := Prod.mk.inj given
  exact ⟨.read .start, fun _ _ => trivial⟩

/-- The second step only reads, whatever the first gives; the property of what it gives may rest on that of the
first. -/
theorem Ensures.bind {x : Lookup σ α} {f : α → Lookup σ β} (hx : source.Ensures s e x Q)
    (hf : ∀ a, source.Ensures s e (f a) fun b => Q a → R b) : source.Ensures s e (x >>= f) R := by
  intro t b v given
  obtain ⟨a, u, first, later⟩ := Lookup.gives_bind.mp given
  obtain ⟨read, value⟩ := hx t a u first
  obtain ⟨read', value'⟩ := hf a u b v later
  exact ⟨read.trans read', fun before after =>
    value' (before.trans read) after (value before (read'.trans after))⟩

theorem Ensures.mono {Q' : α → Prop} {x : Lookup σ α} (h : source.Ensures s e x Q) (hQ : ∀ a, Q a → Q' a) :
    source.Ensures s e x Q' := fun t a u given =>
  ⟨(h t a u given).1, fun before after => hQ a ((h t a u given).2 before after)⟩

theorem Ensures.of_gives {x : Lookup σ α} {a : α} (h : source.Ensures s e x Q) (given : x.Gives s a e) : Q a :=
  (h s a e given).2 .start .start

theorem Ensures.ite {c : Prop} [Decidable c] {x y : Lookup σ α} (hx : source.Ensures s e x Q)
    (hy : source.Ensures s e y Q) : source.Ensures s e (if c then x else y) Q := by
  split
  · exact hx
  · exact hy

/-- Item by item, each value belongs to its item. -/
theorem Ensures.mapM {S : α → β → Prop} {f : α → Lookup σ β} : ∀ {l : List α},
    (∀ a ∈ l, source.Ensures s e (f a) (S a)) → source.Ensures s e (l.mapM f) (List.Forall₂ S l)
  | [], _ => by
    rw [List.mapM_nil]
    exact ensures_pure .nil
  | a :: l, h => by
    rw [List.mapM_cons]
    refine .bind (h a (by simp)) fun b => ?_
    refine .bind (Ensures.mapM fun a' ha' => h a' (by simp [ha'])) fun bs => ?_
    exact ensures_pure fun rest first => .cons first rest

/-! ## Admissible cells -/

variable {type : ColumnType} {items : List Cell}

theorem admissible_null : source.Admissible s e type .null := ⟨fun _ _ _ => .null, fun _ _ => .null⟩

/-- An array has the innermost items of its items. -/
theorem admissible_array (inner : ColumnType) (same : inner.baseElement = type.baseElement)
    (h : ∀ c ∈ items, source.Admissible s e inner c) : source.Admissible s e type (.array items) where
  labels := fun enum base known => .array fun c hc => (h c hc).labels enum (same.trans base) known
  addresses := fun kind base => .array fun c hc => (h c hc).addresses kind (same.trans base)

theorem Admissible.of_baseElement {c : Cell} (h : source.Admissible s e type.baseElement c) :
    source.Admissible s e type c where
  labels := fun enum base => h.labels enum (type.baseElement_baseElement.trans base)
  addresses := fun kind base => h.addresses kind (type.baseElement_baseElement.trans base)

end SchemaSource

namespace Convert

open SchemaSource

variable {source : SchemaSource σ} {s e : σ}

/-! ## Values -/

theorem label_ensures (enum : String) (v : Json) :
    source.Ensures s e (label source enum v) (source.Admissible s e (.enumeration enum)) := by
  intro t c u given
  unfold Lookup.Gives at given
  rw [label_run] at given
  obtain ⟨value, rfl⟩ := Prod.mk.inj given
  refine ⟨.read .start, fun before after => ⟨fun other same known => ?_, nofun⟩⟩
  cases same
  have passed : source.Passes s e t := ⟨before, (Reaches.read .start).trans after⟩
  obtain ⟨labels, declared⟩ := Option.isSome_iff_exists.mp (known t passed)
  rw [declared] at value
  by_cases member : textOf v ∈ labels
  · simp only [member, ↓reduceIte, Except.ok.injEq] at value
    subst value
    exact .text ⟨t, labels, passed, declared, member⟩
  · simp [member] at value

theorem address_ensures (kind : Network.Kind) (v : Json) :
    source.Ensures s e (known (address kind v)) (source.Admissible s e (.network kind)) := by
  refine ensures_known fun c value => ⟨nofun, fun other same => ?_⟩
  cases same
  cases v with
  | str text =>
    simp only [address] at value
    split at value
    · rename_i valid
      cases value
      exact .text valid
    · cases value
  | _ => cases value

theorem composite_ensures (name : String) (v : Json) :
    source.Ensures s e (composite source name v) fun _ => True := by
  unfold composite
  split
  · exact ensures_pure trivial
  · refine .ite (ensures_pure trivial) (.bind (ensures_read (·.composites.get? name)) fun fields => ?_)
    cases fields with
    | some fields => exact ensures_pure fun _ => trivial
    | none => exact ensures_throw
  · exact ensures_pure trivial

/-- A value of a type that is no array. -/
theorem single_ensures {type : ColumnType} (flat : type.isArray = false) (v : Json) :
    source.Ensures s e (single source type v) (source.Admissible s e type) := by
  cases type with
  | scalar t => exact ensures_known fun _ _ => ⟨nofun, nofun⟩
  | network kind => exact address_ensures kind v
  | enumeration name => exact label_ensures name v
  | composite name => exact (composite_ensures name v).mono fun _ _ => ⟨nofun, nofun⟩
  | array inner => cases flat

mutual

theorem element_ensures (type : ColumnType) : ∀ item : Literal.Element,
    source.Ensures s e (element source type item) (source.Admissible s e type)
  | .null => by
    rw [element]
    exact ensures_pure admissible_null
  | .nested inner => by
    rw [element]
    exact .bind (elements_ensures type.element inner) fun _ =>
      ensures_pure fun fit => admissible_array type.element type.baseElement_element fit
  | .item text => by
    rw [element]
    exact (single_ensures type.isArray_baseElement _).mono fun _ fit => fit.of_baseElement

theorem elements_ensures (type : ColumnType) : ∀ items : List Literal.Element,
    source.Ensures s e (elements source type items) fun cells => ∀ c ∈ cells, source.Admissible s e type c
  | [] => by
    rw [elements]
    exact ensures_pure (by simp)
  | item :: rest => by
    rw [elements]
    refine .bind (element_ensures type item) fun _ => .bind (elements_ensures type rest) fun _ => ?_
    exact ensures_pure fun later first => List.forall_mem_cons.mpr ⟨first, later⟩

end

theorem alone_ensures (v : Json) : ∀ type : ColumnType,
    source.Ensures s e (alone source type v) (source.Admissible s e type)
  | .array inner => by
    rw [alone]
    split
    · refine .bind (Q := fun _ => True) (ensures_known fun _ _ => trivial) fun items => ?_
      refine .bind (elements_ensures inner items) fun cells => ?_
      exact ensures_pure fun fit _ => admissible_array inner rfl fit
    · refine .bind (alone_ensures v inner) fun c => ?_
      exact ensures_pure fun fit => admissible_array inner rfl (List.forall_mem_singleton.mpr fit)
  | .scalar _ | .network _ | .enumeration _ | .composite _ => by
    rw [alone]
    · exact single_ensures rfl v
    all_goals simp

mutual

/-- Whatever a document stands for in a type may be bound to a column of the type. -/
theorem parameter_ensures (type : ColumnType) : ∀ v : Json,
    source.Ensures s e (parameter source type v) (source.Admissible s e type)
  | .null => by
    rw [parameter]
    exact ensures_pure admissible_null
  | .arr items => by
    cases type with
    | array inner =>
      rw [parameter]
      exact .bind (parameters_ensures inner items) fun _ =>
        ensures_pure fun fit => admissible_array inner rfl fit
    | scalar _ | network _ | enumeration _ | composite _ =>
      rw [parameter]
      · exact single_ensures rfl _
      all_goals simp
  | .bool _ | .int _ | .double _ | .str _ | .obj _ => by
    rw [parameter]
    · exact alone_ensures _ type
    all_goals simp

theorem parameters_ensures (type : ColumnType) : ∀ items : List Json,
    source.Ensures s e (parameters source type items) fun cells => ∀ c ∈ cells, source.Admissible s e type c
  | [] => by
    rw [parameters]
    exact ensures_pure (by simp)
  | .arr inner :: rest => by
    rw [parameters]
    refine .bind (parameters_ensures type.element inner) fun _ => .bind (parameters_ensures type rest) fun _ => ?_
    exact ensures_pure fun later first =>
      List.forall_mem_cons.mpr ⟨admissible_array type.element type.baseElement_element first, later⟩
  | .null :: rest | .bool _ :: rest | .int _ :: rest | .double _ :: rest | .str _ :: rest
  | .obj _ :: rest => by
    rw [parameters]
    · refine .bind (parameter_ensures type _) fun _ => .bind (parameters_ensures type rest) fun _ => ?_
      exact ensures_pure fun later first => List.forall_mem_cons.mpr ⟨first, later⟩
    all_goals simp

end

end Convert

def Statement.filter : Statement → Where
  | select s => s.filter
  | count _ w | update _ _ w _ | delete _ w => w
  | _ => []

namespace Build

open SchemaSource

/-! ## Statements -/

section

variable (source : SchemaSource σ) (table : Table) (s e : σ)

/-- The assignment is to the column, and its value may be bound to it. -/
def Suits (column : Column) (a : Assignment) : Prop :=
  a.column = column.name ∧ a.bound.mark = column.type.mark ∧
    source.Admissible s e column.type a.bound.value

/-- The condition compares the column with a value that may be bound to it. -/
def Compares (column : Column) (c : Conjunct) : Prop :=
  ∃ named value, table.resolve column.name = .ok named ∧ (table.Regular → named = column) ∧
    c = .one { column := named.name, predicate := .compare .eq column.type.mark value } ∧
    source.Admissible s e column.type value

end

variable {source : SchemaSource σ} {table : Table} {s e : σ} {record : Record}

theorem assignment_ensures (record : Record) (column : Column) :
    source.Ensures s e (assignment source record column) (Suits source s e column) := by
  unfold assignment
  exact .bind (Convert.parameter_ensures column.type _) fun _ => ensures_pure fun fit => ⟨rfl, rfl, fit⟩

theorem row_ensures (columns : List Column) (record : Record) :
    source.Ensures s e (row source columns record) fun cells => cells.length = columns.length ∧
      List.Forall₂ (Suits source s e) (columns.filter fun column => Entries.has column.name record)
        (Insertion.given (columns.map (·.name)) cells) := by
  intro t cells u given
  obtain ⟨width, given⟩ := row_gives given
  obtain ⟨read, suit⟩ := Ensures.mapM (fun column _ => assignment_ensures record column) t _ u given
  exact ⟨read, fun before after => ⟨width, suit before after⟩⟩

theorem keyCondition_ensures {column : Column} (h : column ∈ table.columns) (part : String) :
    source.Ensures s e (keyCondition source table column part) (Compares source table s e column) := by
  unfold keyCondition
  refine .bind (ensures_known fun _ => id) fun named => ?_
  refine .bind (Convert.alone_ensures _ column.type) fun value => ensures_pure fun fit found => ?_
  exact ⟨named, value, found, fun regular => Except.ok.inj (found.symm.trans (regular.resolve h)), rfl, fit⟩

variable {t u : σ}

theorem keyFilter_compares {key : String} {w : Where} (h : (keyFilter source table key).Gives t w u) :
    List.Forall₂ (Compares source table t u) table.key w := by
  have fits := keyFilter_fits h
  unfold keyFilter at h
  simp only [Lookup.gives_bind, Lookup.gives_known, Key.parse_eq_ok] at h
  obtain ⟨_, _, ⟨⟨-, rfl⟩, rfl⟩, hw⟩ := h
  have compared := (Ensures.mapM fun pair hpair => keyCondition_ensures
    (List.mem_of_mem_filter (List.of_mem_zip hpair).1) pair.2).of_gives hw
  rw [← List.map_fst_zip (Nat.le_of_eq fits.width.symm), List.forall₂_map_left_iff]
  exact compared

/-- The rows of an insertion suit its records, and it binds nothing else. -/
theorem insertion_suits {records : List Record} {columns : List Column} {i : Insertion}
    (h : (insertion source table records).Gives t (columns, i) u) :
    List.Forall₂ (fun record row => List.Forall₂ (Suits source t u) (columnsOf table [record]) row) records
      (i.rows.map (Insertion.given i.columns)) ∧
    i.params = (i.rows.map (Insertion.given i.columns)).flatten.map (·.bound.value) := by
  obtain ⟨-, -, -, rfl, rows, hrows, rfl⟩ := insertion_gives.mp h
  have suits : List.Forall₂ (fun record cells => cells.length = (columnsOf table records).length ∧
      List.Forall₂ (Suits source t u) (columnsOf table [record])
        (Insertion.given ((columnsOf table records).map (·.name)) cells)) records rows := by
    refine (Ensures.mapM fun record hrecord => (row_ensures _ record).mono fun cells fit => ?_).of_gives hrows
    rwa [filter_columnsOf hrecord] at fit
  refine ⟨List.forall₂_map_right_iff.mpr (suits.imp fun _ _ => And.right), ?_⟩
  rw [Insertion.params, List.map_flatten, List.map_map, ← List.flatMap_def]
  refine List.flatMap_congr fun cells hcells => ?_
  obtain ⟨record, -, width, -⟩ := exists_of_forall₂ suits cells hcells
  exact Insertion.rowParams_eq (by simpa using width)

/-- Whatever statement writes some records binds to the columns of each record what may be bound to them, and
besides only what its conditions bind; and the conditions of a key compare its columns with what may be bound
to them. -/
theorem bound_admissible :
    (∀ records st, Writes source table t u records st →
      List.Forall₂ (fun record row => List.Forall₂ (Suits source t u) (columnsOf table [record]) row)
        records st.written ∧
      st.params = st.written.flatten.map (·.bound.value) ++ Where.params st.filter) ∧
    ∀ key w, (keyFilter source table key).Gives t w u →
      List.Forall₂ (Compares source table t u) table.key w := by
  have inserted : ∀ {records : List Record} {columns : List Column} {i : Insertion},
      (insertion source table records).Gives t (columns, i) u → ∀ conflict returning,
      let st := Statement.insert { i with conflict, returning }
      List.Forall₂ (fun record row => List.Forall₂ (Suits source t u) (columnsOf table [record]) row)
        records st.written ∧
      st.params = st.written.flatten.map (·.bound.value) ++ Where.params st.filter := by
    intro records columns i h conflict returning st
    obtain ⟨suits, params⟩ := insertion_suits h
    exact ⟨suits, by rw [← List.append_nil st.params]; exact congrArg (· ++ []) params⟩
  refine ⟨fun records st writes => ?_, fun key w given => keyFilter_compares given⟩
  cases writes with
  | @insert record returning _ h =>
    by_cases empty : record = []
    · subst empty
      obtain ⟨rfl, -⟩ := Lookup.gives_pure.mp h
      exact ⟨.cons (by simp [columnsOf, Entries.has, Entries.get?]) .nil, rfl⟩
    · rw [insert_eq empty] at h
      obtain ⟨_, hi, rfl⟩ := insertAll_gives.mp h
      exact inserted hi _ _
  | insertAll h =>
    obtain ⟨_, hi, rfl⟩ := insertAll_gives.mp h
    exact inserted hi _ _
  | upsertAll h =>
    obtain ⟨-, _, hi, rfl⟩ := upsertAll_gives.mp h
    exact inserted hi _ _
  | @update record filter returning _ h =>
    obtain ⟨-, row, hrow, rfl⟩ := update_gives h
    have suits := (Ensures.mapM fun column _ => assignment_ensures record column).of_gives hrow
    exact ⟨.cons suits .nil, by simp [Statement.params, Statement.written, Statement.filter]⟩

end Build

def hostAddress : Column := { name := "address", tag := "inet", type := .network .inet, isKey := true }

/-- A table of hosts by their addresses, with their moods. -/
def hostsTable : Table where
  name := "hosts"
  columns :=
    [hostAddress, { name := "moods", tag := "_postgres_enum:mood", type := .array (.enumeration "mood") }]

/-- Two hosts without addresses, of which one has moods within its moods. -/
def hosts : List Record :=
  [[("address", .null), ("moods", .arr [.str "calm", .null, .arr [.str "null"]])], [("moods", .null)]]

theorem bound_admissible_hosts : ∃ st w,
    Build.Writes (.fixed Convert.moods) hostsTable () () hosts st ∧
    (Build.keyFilter (.fixed Convert.moods) hostsTable "10.0.0.1").Gives () w () ∧
    (SchemaSource.fixed Convert.moods).Knows () () "mood" ∧
    (∀ label, (SchemaSource.fixed Convert.moods).Declares () () "mood" label ↔
      label ∈ ["calm", "null", "\x7b\x7d"]) ∧
    List.Forall₂ (fun record row => List.Forall₂ (Build.Suits (.fixed Convert.moods) () ())
      (Build.columnsOf hostsTable [record]) row) hosts st.written ∧
    List.Forall₂ (Build.Compares (.fixed Convert.moods) hostsTable () ()) hostsTable.key w := by
  have writes : Build.Writes (.fixed Convert.moods) hostsTable () () hosts (.insert
      { table := "hosts", columns := ["address", "moods"]
        rows := [
          [some ⟨⟨"inet"⟩, .null⟩, some ⟨⟨"mood[]"⟩, .array [.text "calm", .null, .array [.text "null"]]⟩],
          [none, some ⟨⟨"mood[]"⟩, .null⟩]] }) :=
    .insertAll (show Lookup.Gives (Build.insertAll _ _ _ false) _ _ _ from rfl)
  have valid : Network.isValid .inet "10.0.0.1" = true := by cbv
  have converted : Convert.ofText (.fixed Convert.moods) (.network .inet) "10.0.0.1" =
      pure (.text "10.0.0.1") := by
    rw [Convert.ofText, Convert.alone, Convert.single, Convert.address_text valid]
    · rfl
    · simp
  have compared : Build.keyCondition (.fixed Convert.moods) hostsTable hostAddress "10.0.0.1" =
      pure (.one { column := "address", predicate := .compare .eq ⟨"inet"⟩ (.text "10.0.0.1") }) := by
    rw [Build.keyCondition, hostAddress, converted]
    rfl
  have keyed : (Build.keyFilter (.fixed Convert.moods) hostsTable "10.0.0.1").Gives ()
      [.one { column := "address", predicate := .compare .eq ⟨"inet"⟩ (.text "10.0.0.1") }] () := by
    unfold Build.keyFilter
    refine Lookup.gives_bind.mpr ⟨[(hostAddress, "10.0.0.1")], (), Lookup.gives_known.mpr ⟨rfl, rfl⟩, ?_⟩
    simp only [List.mapM_cons, List.mapM_nil, compared, Lookup.gives_bind, Lookup.gives_pure]
    exact ⟨_, (), ⟨rfl, trivial⟩, [], (), ⟨rfl, trivial⟩, rfl, trivial⟩
  have declared (label : String) : (SchemaSource.fixed Convert.moods).Declares () () "mood" label ↔
      label ∈ ["calm", "null", "\x7b\x7d"] := by
    rw [SchemaSource.declares_fixed]
    constructor
    · rintro ⟨labels, found, h⟩
      cases found
      exact h
    · exact fun h => ⟨_, rfl, h⟩
  exact ⟨_, _, writes, keyed, SchemaSource.knows_fixed.mpr rfl, declared,
    (Build.bound_admissible.1 _ _ writes).1, Build.bound_admissible.2 _ _ keyed⟩

end TableGateway
