import TableGateway.Gateway.Read
import TableGateway.Proofs.Filters

/-!
# Where the names in statements come from

All parts of a statement about the rows of a table are written with names of that table: columns are
resolved before they are written, and types are those of its columns. Only the conditions of filters
hold texts of the request. Main statements: one for each builder, such as `Build.insertion_ends`.
-/
namespace TableGateway

/-- The condition is written with names of the table, and the texts in it have a property. -/
structure Condition.IsOf (table : Table) (L : String → Prop) (c : Condition) : Prop where
  names : ∀ s ∈ c.names, s ∈ table.names
  literals : ∀ s ∈ c.literals, L s

/-- So are all conditions. -/
def Where.IsOf (table : Table) (L : String → Prop) (w : Where) : Prop :=
  ∀ c ∈ w.conditions, c.IsOf table L

/-- The statement is written with names of the table, and the texts in it have a property. -/
structure Statement.IsOf (table : Table) (L : String → Prop) (st : Statement) : Prop where
  names : ∀ s ∈ st.names, s ∈ table.names
  literals : ∀ s ∈ st.literals, L s

variable {σ : Type} {table : Table} {L : String → Prop}

theorem Where.IsOf.nil : Where.IsOf table L [] := by simp [IsOf, conditions]

theorem Where.IsOf.one {c : Condition} (h : c.IsOf table L) : Where.IsOf table L [.one c] := by
  intro d hd
  simp only [conditions, Conjunct.conditions, List.flatMap_cons, List.flatMap_nil, List.append_nil,
    List.mem_singleton] at hd
  rw [hd]
  exact h

/-- Conditions that are all written alone. -/
theorem Where.conditions_map_one (cs : List Condition) : Where.conditions (cs.map .one) = cs := by
  induction cs with
  | nil => rfl
  | cons c cs ih =>
    rw [conditions] at ih
    simp [conditions, Conjunct.conditions, ih]

theorem Where.conditions_append (v w : Where) :
    Where.conditions (v ++ w) = v.conditions ++ w.conditions := by
  simp [conditions]

theorem Where.IsOf.append {v w : Where} (hv : v.IsOf table L) (hw : w.IsOf table L) :
    Where.IsOf table L (v ++ w) := by
  intro c hc
  rw [Where.conditions_append] at hc
  rcases List.mem_append.mp hc with hc | hc
  · exact hv c hc
  · exact hw c hc

/-- The conditions that answer the expressions of a request hold what these write into them. -/
theorem Where.IsOf.of_answers {es : List FilterExpr} {w : Where}
    (h : List.Forall₂ (Filter.Answers table) es w.conditions)
    (hl : ∀ e ∈ es, ∀ s, e.Splices s → L s) : w.IsOf table L := by
  intro c hc
  obtain ⟨e, he, answers⟩ := exists_of_forall₂ h c hc
  exact ⟨answers.names, fun s hs => hl e he s (answers.literals s hs)⟩

/-- A comparison with a value of a column's type. -/
theorem Condition.IsOf.compare {name : String} {column : Column} (hn : name ∈ table.names)
    (h : column ∈ table.columns) (negated : Bool) (comparison : Comparison) (v : Cell) :
    Condition.IsOf table L ⟨name, negated, .compare comparison column.type.mark v⟩ := by
  refine ⟨fun s hs => ?_, by simp [Condition.literals, Predicate.literals]⟩
  rcases List.mem_cons.mp hs with rfl | hs
  · exact hn
  · refine Table.mem_names h (List.mem_cons_of_mem _ (ColumnType.mark_names ?_))
    simpa [Predicate.names, Mark.names] using hs

theorem Table.name_mem_names (h : column ∈ table.columns) : column.name ∈ table.names :=
  Table.mem_names h (by simp [Column.names])

/-- The names of resolved columns are names of the table. -/
theorem Table.resolve_name (name : String) :
    Outcome (fun column => column.name ∈ table.names) (fun _ => True) (table.resolve name) :=
  (table.resolve_outcome name).mono (fun _ h => name_mem_names h) fun _ _ => trivial

/-! ## Reading -/

theorem Build.projection_names (names : Option (List String)) :
    Outcome (fun p => ∀ s ∈ p.names, s ∈ table.names) (fun _ => True)
      (Build.projection table names) := by
  have all : ∀ names : List String,
      Outcome (fun p : Projection => ∀ s ∈ p.names, s ∈ table.names) (fun _ => True)
        ((table.resolveAll names).map fun columns => .columns (columns.map (·.name))) := by
    intro names
    refine Outcome.map (Outcome.mapM fun name _ => table.resolve_name name) fun columns hcolumns => ?_
    intro s hs
    obtain ⟨column, hcolumn, rfl⟩ := List.mem_map.mp hs
    obtain ⟨_, -, h⟩ := exists_of_forall₂ hcolumns column hcolumn
    exact h
  unfold Build.projection
  split
  · exact .ok (by simp [Projection.names])
  · exact .ok (by simp [Projection.names])
  · exact all _

variable (source : SchemaSource σ)

theorem Build.keyCondition_ends {column : Column} (h : column ∈ table.columns) (part : String) :
    (Build.keyCondition source table column part).Ends
      (fun c => ∀ d ∈ c.conditions, d.IsOf table L) (·.isValidation = true) := by
  unfold keyCondition
  refine .bind (.known (table.resolve_outcome column.name)) fun resolved hresolved => ?_
  refine .bind (Convert.ofText_ends source _ _) fun v _ => .pure ?_
  intro d hd
  rw [List.mem_singleton.mp hd]
  exact .compare (Table.name_mem_names hresolved) h _ _ _

theorem Key.blank?_valid {e : Fault} : ∀ {parts : List (Column × String)} {n : Nat},
    Key.blank? parts n = some e → e.isValidation = true
  | [], _, h => nomatch h
  | (column, part) :: rest, n, h => by
    rw [blank?] at h
    split at h
    · cases h
      rfl
    · exact blank?_valid h

/-- The parts of a key belong to columns of the table. A text that is no key is a fault of the
client. -/
theorem Key.parse_columns (key : String) :
    Outcome (fun parts => ∀ p ∈ parts, p.1 ∈ table.columns) (·.isValidation = true)
      (Key.parse table key) := by
  unfold Key.parse
  refine .ite (fun _ => .error rfl) fun _ => .ite (fun _ => .error rfl) fun _ => ?_
  split
  · rename_i e blank
    exact .error (blank?_valid blank)
  · refine .ok fun p hp => ?_
    exact (List.mem_filter.mp (List.of_mem_zip hp).1).1

theorem Build.keyFilter_ends (key : String) :
    (Build.keyFilter source table key).Ends (Where.IsOf table L) (·.isValidation = true) := by
  unfold keyFilter
  refine .bind (.known (Key.parse_columns key)) fun parts hparts => ?_
  refine (Lookup.Ends.mapM_all fun p hp => keyCondition_ends (L := L) source (hparts p hp) p.2).mono
    (fun w hw c hc => ?_) fun _ => id
  obtain ⟨d, hd, hc⟩ := List.mem_flatMap.mp hc
  exact hw d hd c hc

theorem OrderTerm.modify?_column {t u : OrderTerm} {modifier : String}
    (h : t.modify? modifier = some u) : u.column = t.column := by
  unfold modify? at h
  split at h
  · cases h
    rfl
  · split at h
    · cases h
      rfl
    · split at h
      · cases h
        rfl
      · split at h
        · cases h
          rfl
        · cases h

section

variable {P : String → Prop}
  (hP : ∀ name, Outcome (fun column : Column => P column.name) (fun _ => True) (table.resolve name))
include hP

theorem OrderTerm.parse_column (cs : List Char) :
    Outcome (fun t => P t.column) (fun _ => True) (OrderTerm.parse table cs) := by
  unfold parse
  refine .bind (hP _) fun column hcolumn => ?_
  -- Modifiers leave the column as it is.
  refine Outcome.foldlM (fun t modifier ht => ?_) _ _ hcolumn
  simp only
  split
  · rename_i found
    refine .ok ?_
    rwa [modify?_column found]
  · exact .error trivial

/-- What is known of every column that a text is resolved to is known of the columns of an order. -/
theorem OrderTerm.ofParams_columns (params : Params) :
    Outcome (fun order => ∀ t ∈ order, P t.column) (fun _ => True)
      (OrderTerm.ofParams table params) := by
  unfold ofParams
  split
  · refine (Outcome.mapM fun cs _ => parse_column hP cs).mono (fun order horder t ht => ?_)
      fun _ => id
    obtain ⟨_, -, h⟩ := exists_of_forall₂ horder t ht
    exact h
  · split
    · exact .ok (by simp)
    · rename_i name _
      have last : ∀ direction : Direction,
          Outcome (fun order : List OrderTerm => ∀ t ∈ order, P t.column) (fun _ => True)
            (do let column ← table.resolve name; return [{ column := column.name, direction }]) := by
        intro direction
        refine .bind (hP name) fun column hcolumn => .ok ?_
        simpa using hcolumn
      simp only
      generalize Text.lowered _ = word
      split
      · rw [pure_bind]
        exact last _
      · split
        · rw [pure_bind]
          exact last _
        · exact .error trivial

end

theorem OrderTerm.ofParams_names (params : Params) :
    Outcome (fun order => ∀ t ∈ order, t.column ∈ table.names) (fun _ => True)
      (OrderTerm.ofParams table params) := ofParams_columns table.resolve_name params

/-! ## Writing -/

/-- The columns that are named are columns of the table. -/
theorem Build.columnsOf_mem {records : List Record} {column : Column}
    (h : column ∈ Build.columnsOf table records) : column ∈ table.columns :=
  (List.mem_filter.mp h).1

theorem Build.row_ends {columns : List Column} (h : ∀ c ∈ columns, c ∈ table.columns)
    (record : Record) :
    (Build.row source columns record).Ends
      (fun row => ∀ b, some b ∈ row → ∀ s ∈ b.mark.names, s ∈ table.names) (fun _ => True) := by
  unfold row
  refine (Lookup.Ends.mapM_all (R := fun b => ∀ b', b = some b' → ∀ s ∈ b'.mark.names,
    s ∈ table.names) fun column hcolumn => ?_).mono
      (fun row hrow b hb => hrow (some b) hb b rfl) fun _ => id
  unfold bound?
  split
  · refine .bind (.any _) fun v _ => .pure ?_
    rintro _ ⟨⟩ s hs
    exact Table.mem_names (h column hcolumn)
      (List.mem_cons_of_mem _ (ColumnType.mark_names (by simpa [Mark.names] using hs)))
  · exact .pure (by simp)

/-- An insertion that is written with names of the table, and names columns of it. -/
theorem Build.insertion_ends (records : List Record) :
    (Build.insertion source table records).Ends
      (fun (columns, i) => (∀ c ∈ columns, c ∈ table.columns) ∧ i.conflict = none ∧
        ∀ s ∈ i.names, s ∈ table.names) (fun _ => True) := by
  unfold insertion
  split
  · exact .bind (.throw (Q := fun _ => False) trivial) fun _ h => h.elim
  · refine .bind (.any _) fun _ _ => ?_
    simp only
    split
    · exact .bind (.throw (Q := fun _ => False) trivial) fun _ h => h.elim
    · have columns : ∀ c ∈ columnsOf table records, c ∈ table.columns := fun c => columnsOf_mem
      refine .bind (.mapM_all fun record _ => row_ends source columns record) fun rows hrows =>
        .pure ⟨columns, rfl, fun s hs => ?_⟩
      simp only [Insertion.names, Option.toList_none, List.flatMap_nil, List.append_nil,
        List.cons_append, List.mem_cons, List.mem_append, List.mem_map, List.mem_flatMap] at hs
      rcases hs with rfl | ⟨column, hcolumn, rfl⟩ | ⟨row, hrow, b, hb, b', hb', hs⟩
      · simp [Table.names]
      · exact Table.name_mem_names (columns column hcolumn)
      · rw [Option.mem_toList] at hb'
        cases hb'
        exact hrows row hrow b' hb s hs

theorem Statement.IsOf.insert {i : Insertion} (h : ∀ s ∈ i.names, s ∈ table.names) :
    Statement.IsOf table L (.insert i) := by
  refine ⟨fun s hs => h s ?_, by simp [Statement.literals, Statement.conditions]⟩
  simpa [Statement.names, Statement.conditions, Statement.ownNames] using hs

/-- A statement whose own names and whose conditions are of the table. -/
theorem Statement.IsOf.of_conditions {st : Statement} (hn : ∀ s ∈ st.ownNames, s ∈ table.names)
    (hw : ∀ c ∈ st.conditions, c.IsOf table L) : Statement.IsOf table L st := by
  refine ⟨fun s hs => ?_, fun s hs => ?_⟩
  · rcases List.mem_append.mp hs with hs | hs
    · exact hn s hs
    · obtain ⟨c, hc, hs⟩ := List.mem_flatMap.mp hs
      exact (hw c hc).names s hs
  · obtain ⟨c, hc, hs⟩ := List.mem_flatMap.mp hs
    exact (hw c hc).literals s hs

theorem Statement.IsOf.count {w : Where} (hw : w.IsOf table L) :
    Statement.IsOf table L (.count table.name w) := by
  refine .of_conditions (fun s hs => ?_) hw
  rw [List.mem_singleton.mp hs]
  simp [Table.names]

theorem Statement.IsOf.select {w : Where} (hw : w.IsOf table L) {projection : Projection}
    (hp : ∀ s ∈ projection.names, s ∈ table.names) {order : List OrderTerm}
    (ho : ∀ t ∈ order, t.column ∈ table.names) (page : Option Page) :
    Statement.IsOf table L
      (.select { table := table.name, projection, filter := w, order, page }) := by
  refine .of_conditions (fun s hs => ?_) hw
  simp only [ownNames, List.cons_append, List.mem_cons, List.mem_append, List.mem_map] at hs
  rcases hs with rfl | hs | ⟨t, ht, rfl⟩
  · simp [Table.names]
  · exact hp s hs
  · exact ho t ht

theorem Build.insertAll_ends (records : List Record) (returning : Bool) :
    (Build.insertAll source table records returning).Ends (Statement.IsOf table L)
      (fun _ => True) := by
  unfold insertAll
  refine .bind (insertion_ends source records) fun (_, i) h => .pure (.insert ?_)
  exact h.2.2

theorem Build.insert_ends (record : Record) (returning : Bool) :
    (Build.insert source table record returning).Ends (Statement.IsOf table L) (fun _ => True) := by
  unfold insert
  split
  · refine .pure (.of_conditions ?_ (by simp [Statement.conditions]))
    simp [Statement.ownNames, Table.names]
  · exact insertAll_ends source _ _

theorem Build.upsertAll_ends (records : List Record) :
    (Build.upsertAll source table records).Ends (Statement.IsOf table L) (fun _ => True) := by
  unfold upsertAll
  simp only
  split
  · exact .bind (.throw (Q := fun _ => False) trivial) fun _ h => h.elim
  · refine .bind (insertion_ends source records) fun (columns, i) h => .pure (.insert ?_)
    obtain ⟨hcolumns, none, hi⟩ := h
    intro s hs
    simp only [Insertion.names, Conflict.names, Option.toList_some, List.flatMap_cons,
      List.flatMap_nil, List.append_nil, List.mem_append, List.mem_map, List.mem_filter] at hs
    rcases hs with hs | ⟨column, hcolumn, rfl⟩ | ⟨column, hcolumn, rfl⟩
    · refine hi s ?_
      simpa [Insertion.names, none, or_assoc] using hs
    · exact Table.name_mem_names (List.mem_filter.mp hcolumn).1
    · exact Table.name_mem_names (hcolumns column hcolumn.1)

theorem Build.update_ends (record : Record) {filter : Where} (hw : filter.IsOf table L)
    (returning : Bool) :
    (Build.update source table record filter returning).Ends (Statement.IsOf table L)
      (fun _ => True) := by
  unfold update
  split
  · exact .bind (.throw (Q := fun _ => False) trivial) fun _ h => h.elim
  · refine .bind (.any _) fun _ _ => ?_
    refine .bind (.mapM_all (R := fun a => ∀ s ∈ a.column :: a.bound.mark.names, s ∈ table.names)
      fun column hcolumn => ?_) fun assignments hassignments => .pure (.of_conditions ?_ hw)
    · have mem : column ∈ table.columns := columnsOf_mem hcolumn
      unfold assignment
      refine .bind (.any _) fun v _ => .pure fun s hs => ?_
      rcases List.mem_cons.mp hs with rfl | hs
      · exact Table.name_mem_names mem
      · exact Table.mem_names mem
          (List.mem_cons_of_mem _ (ColumnType.mark_names (by simpa [Mark.names] using hs)))
    · intro s hs
      rcases List.mem_cons.mp hs with rfl | hs
      · simp [Table.names]
      · obtain ⟨a, ha, hs⟩ := List.mem_flatMap.mp hs
        exact hassignments a ha s hs

/-! ## Windows and relations -/

theorem cursorCondition_ends {column : Column} (h : column ∈ table.columns)
    (comparison : Comparison) (cursor : Option String) :
    (cursorCondition source column comparison cursor).Ends (Where.IsOf table L) (fun _ => True) := by
  unfold cursorCondition
  split
  · exact .pure .nil
  · refine .bind (.any _) fun text _ => ?_
    refine .bind (Filter.compareWith_ends source column comparison text).values fun p hp => .pure (.one ?_)
    obtain ⟨v, rfl⟩ := hp
    exact .compare (Table.name_mem_names h) h _ _ _

/-- The conditions of a relation are comparisons on columns of its table, or patterns. -/
theorem Expansion.condition_ends (column raw : String) :
    (Expansion.condition source table column raw).Ends (Condition.IsOf table L) (fun _ => True) := by
  unfold condition
  refine .bind (.known ((table.resolve_outcome column).mono (fun _ => id) fun _ _ => trivial))
    fun column hcolumn => ?_
  refine .bind (.any _) fun _ _ => ?_
  have name := Table.name_mem_names hcolumn
  simp only
  split
  · rw [pure_bind]
    refine .pure ⟨fun s hs => ?_, by simp [Condition.literals, Predicate.literals]⟩
    rw [List.mem_singleton.mp hs]
    exact name
  · refine .bind (Filter.compareWith_ends source column _ _).values fun p hp => .pure ?_
    obtain ⟨v, rfl⟩ := hp
    exact .compare name hcolumn _ _ _

/-- What is read for a relation is written with names of the related table. -/
theorem Expansion.selection_ends (r : Relationship) (texts : List String) (children : List Field)
    (filters : Entries String) (extra : List String) :
    (Expansion.selection source r texts children filters extra).Ends
      (fun s => Statement.IsOf r.related L (.select s)) (fun _ => True) := by
  unfold selection
  refine .bind (.known (Build.projection_names _)) fun projection hprojection => ?_
  refine .bind (.known ((r.related.resolve_outcome _).mono (fun _ => id) fun _ _ => trivial))
    fun remote hremote => ?_
  refine .bind (.any _) fun values _ => ?_
  refine .bind (.mapM_all fun p _ => condition_ends (L := L) source p.1 p.2) fun conditions hconditions => ?_
  refine .pure (.select ?_ hprojection (by simp) none)
  · intro c hc
    simp only [Where.conditions_map_one, List.mem_cons] at hc
    rcases hc with rfl | hc
    · refine ⟨fun s hs => ?_, by simp [Condition.literals, Predicate.literals]⟩
      rcases List.mem_cons.mp hs with rfl | hs
      · exact Table.name_mem_names hremote
      · exact Table.mem_names hremote
          (List.mem_cons_of_mem _ (ColumnType.mark_names (by simpa [Predicate.names, Mark.names] using hs)))
    · exact hconditions c hc

end TableGateway
