import TableGateway.Proofs.Scan

/-!
# The spelling of statements

The names and the literals that a statement is written with, and the conditions that it puts on rows.
If the names are words of a manner and the literals are literals of it, then the text of the statement
keeps to the manner. It has a placeholder for each parameter, and one more for each condition whose
operator is itself written with a question mark. Main statement: `Statement.spells`.
-/
namespace TableGateway

/-! ## Names, literals and conditions -/

def Mark.names (mark : Mark) : List String := mark.cast.toList

namespace Predicate

/-- The types that the predicate is written with. -/
def names : Predicate → List String
  | compare _ mark _ | oneOf _ mark _ => mark.names
  | hasItem element _ | overlaps element _ => [element]
  | _ => []

/-- The texts that are written into the predicate. -/
def literals : Predicate → List String
  | hasKeys _ items | overlaps _ items => items
  | _ => []

/-- The operator is written with a question mark of its own. -/
def isMarked : Predicate → Bool
  | hasKeys .. | keyExists _ | pathFound _ => true
  | _ => false

end Predicate

namespace Condition

def names (c : Condition) : List String := c.column :: c.predicate.names

def literals (c : Condition) : List String := c.predicate.literals

/-- The question marks outside literals: one for each parameter, and that of the operator. -/
def marks (c : Condition) : Nat := c.params.length + c.predicate.isMarked.toNat

end Condition

def Conjunct.conditions : Conjunct → List Condition
  | one c => [c]
  | anyOf cs => cs

def Where.conditions (w : Where) : List Condition := w.flatMap Conjunct.conditions

def Projection.names : Projection → List String
  | all => []
  | columns names => names

def Conflict.names (c : Conflict) : List String := c.key ++ c.updates

def Insertion.names (i : Insertion) : List String :=
  i.table :: i.columns ++ i.rows.flatMap (·.flatMap fun b => b.toList.flatMap (·.mark.names)) ++
    i.conflict.toList.flatMap Conflict.names

namespace Statement

/-- The conditions on the rows that the statement is about. -/
def conditions : Statement → List Condition
  | select s => Where.conditions s.filter
  | count _ filter | update _ _ filter _ | delete _ filter => Where.conditions filter
  | privilege .. | insertDefaults .. | insert _ => []

/-- The names that the statement is written with, those of its conditions left aside. -/
def ownNames : Statement → List String
  | privilege .. => []
  | select s => s.table :: s.projection.names ++ s.order.map (·.column)
  | count table _ | insertDefaults table _ | delete table _ => [table]
  | insert i => i.names
  | update table assignments _ _ =>
    table :: assignments.flatMap fun a => a.column :: a.bound.mark.names

def names (st : Statement) : List String := st.ownNames ++ st.conditions.flatMap Condition.names

def literals (st : Statement) : List String := st.conditions.flatMap Condition.literals

end Statement

theorem Conjunct.params_eq (c : Conjunct) : c.params = c.conditions.flatMap Condition.params := by
  cases c <;> simp [params, conditions]

theorem Where.params_eq (w : Where) : w.params = w.conditions.flatMap Condition.params := by
  simp only [params, conditions, List.flatMap_assoc, ← Conjunct.params_eq]

/-- The question marks of some conditions. -/
theorem sum_marks : ∀ cs : List Condition,
    (cs.map Condition.marks).sum =
      (cs.flatMap Condition.params).length + cs.countP (·.predicate.isMarked)
  | [] => rfl
  | c :: cs => by
    simp only [List.map_cons, List.sum_cons, sum_marks cs, List.flatMap_cons, List.length_append,
      List.countP_cons, Condition.marks]
    cases c.predicate.isMarked <;> simp <;> omega

/-- The question marks of a conjunction are those of its parts. -/
theorem sum_conjuncts : ∀ w : Where,
    (w.map fun c => (c.conditions.map Condition.marks).sum).sum =
      (w.conditions.map Condition.marks).sum
  | [] => rfl
  | c :: w => by
    rw [List.map_cons, List.sum_cons, sum_conjuncts w]
    simp [Where.conditions]

/-! ## Spelling -/

section

variable {m : Manner}

theorem Mark.spells {mark : Mark} (h : ∀ s ∈ mark.names, m.Word s) : m.Spells 1 mark.sql := by
  obtain ⟨cast⟩ := mark
  cases cast with
  | none => exact .fixed 1 (by decide)
  | some type => exact .append (k := 1) (.fixed 1 (by decide)) (.word (h type (by simp [names])))

theorem Comparison.spells (c : Comparison) : m.Spells 0 c.symbol := by
  cases c <;> exact .fixed 0 (by decide)

theorem Search.spells (s : Search) : m.Spells 0 s.function := by
  cases s <;> exact .fixed 0 (by decide)

theorem spells_arrayLiteral {items : List String} (h : ∀ s ∈ items, m.literal s) :
    m.Spells 0 (arrayLiteral items) := by
  have list : m.Spells 0 (joined "," (items.map quotedLiteral)) := by
    refine .join_words (.fixed 0 (by decide)) fun s hs => ?_
    obtain ⟨item, hitem, rfl⟩ := List.mem_map.mp hs
    exact .quoted (h item hitem)
  exact (list.lead 0 (by decide)).append
    (.fixed 0 (by decide))

theorem sum_ones {α : Type} (l : List α) : (l.map fun _ => 1).sum = l.length := by
  rw [List.map_const', List.sum_replicate_nat, Nat.mul_one]

/-- A list of marks has one for each value. -/
theorem spells_marks {mark : Mark} (h : m.Spells 1 mark.sql) (values : List Cell) :
    m.Spells values.length (joined "," (values.map fun _ => mark.sql)) := by
  rw [← sum_ones values]
  exact .join (.fixed 0 (by decide)) fun _ _ => h

theorem Predicate.spells {column : String} (hc : m.Spells 0 column) (p : Predicate)
    (hn : ∀ s ∈ p.names, m.Word s) (hl : ∀ s ∈ p.literals, m.literal s) :
    m.Spells (p.params.length + p.isMarked.toNat) (p.sql column) := by
  cases p with
  | compare comparison mark value =>
    have mark := Mark.spells hn
    have head := ((hc.text (b := " ") 0 (by decide)).append comparison.spells).text (b := " ") 0
      (by decide)
    exact (head.append mark).cast rfl
  | like caseless pattern =>
    cases caseless
    · exact (hc.text 1 (by decide)).cast rfl
    · exact (hc.text 1 (by decide)).cast rfl
  | oneOf excluded mark values =>
    have list := spells_marks (Mark.spells hn) values
    have word : m.Spells 0 (if excluded then " NOT IN (" else " IN (") := by
      cases excluded <;> exact .fixed 0 (by decide)
    exact (((hc.append word).append list).text 0 (by decide)).cast (by
      simp [params, isMarked])
  | isNull => exact hc.text 0 (by decide)
  | isNotNull => exact hc.text 0 (by decide)
  | hasKey key =>
    exact ((hc.lead 0 (by decide)).text 1 (by decide)).cast rfl
  | hasKeys all keys =>
    have word : m.Spells 1 (if all then " ?& " else " ?| ") := by
      cases all <;> exact .fixed 1 (by decide)
    exact ((hc.append word).append (spells_arrayLiteral hl)).cast rfl
  | contains document => exact (hc.text 1 (by decide)).cast rfl
  | containedIn document => exact (hc.text 1 (by decide)).cast rfl
  | keyExists key => exact (hc.text 2 (by decide)).cast rfl
  | pathFound path => exact (hc.text 2 (by decide)).cast rfl
  | pathHolds path => exact (hc.text 1 (by decide)).cast rfl
  | hasItem element value =>
    have element : m.Spells 0 element := .word (hn _ (by simp [names]))
    have head := (hc.text (b := " @> ARRAY[?]::") 1 (by decide)).append element
    exact (head.text 0 (by decide)).cast rfl
  | overlaps element items =>
    have element : m.Spells 0 element := .word (hn _ (by simp [names]))
    have head := (hc.text (b := " && ") 0 (by decide)).append (spells_arrayLiteral hl)
    exact (((head.text 0 (by decide)).append element).text 0 (by decide)).cast rfl
  | hasItems values => exact (hc.text 1 (by decide)).cast rfl
  | lengthIs n =>
    exact ((hc.lead 0 (by decide)).text 1 (by decide)).cast rfl
  | found search words =>
    have head : m.Spells 0 ("to_tsvector('english', " ++ column) :=
      hc.lead 0 (by decide)
    have function := (head.text (b := ") @@ ") 0 (by decide)).append search.spells
    exact (function.text 1 (by decide)).cast rfl

theorem Condition.spells {c : Condition} (hn : ∀ s ∈ c.names, m.Word s)
    (hl : ∀ s ∈ c.literals, m.literal s) : m.Spells c.marks c.sql := by
  have inner := c.predicate.spells (.word (hn c.column (by simp [names])))
    (fun s hs => hn s (by simp [names, hs])) hl
  unfold sql
  cases c.negated
  · exact inner
  · exact ((inner.lead 0 (by decide)).text 0 (by decide)).cast (by simp [marks, params])

theorem Conjunct.spells {c : Conjunct} (h : ∀ d ∈ c.conditions, m.Spells d.marks d.sql) :
    m.Spells (c.conditions.map Condition.marks).sum c.sql := by
  cases c with
  | one d => exact (h d (by simp [conditions])).cast (by simp [conditions])
  | anyOf ds =>
    have list : m.Spells (ds.map Condition.marks).sum (joined " OR " (ds.map Condition.sql)) :=
      .join (.fixed 0 (by decide)) h
    exact ((list.lead 0 (by decide)).text 0 (by decide)).cast (by simp [conditions])

theorem Where.spells {w : Where} (h : ∀ d ∈ w.conditions, m.Spells d.marks d.sql) :
    m.Spells (w.conditions.map Condition.marks).sum w.sql := by
  have list : m.Spells (w.map fun c => (c.conditions.map Condition.marks).sum).sum
      (joined " AND " w.fragments) := by
    refine .join (.fixed 0 (by decide)) fun c hc => Conjunct.spells fun d hd => h d ?_
    exact List.mem_flatMap.mpr ⟨c, hc, hd⟩
  unfold sql
  split
  · rename_i empty
    rw [List.isEmpty_iff.mp empty]
    exact .fixed 0 (by decide)
  · exact (list.lead 0 (by decide)).cast (by rw [sum_conjuncts, Nat.zero_add])

theorem OrderTerm.spells {t : OrderTerm} (h : m.Word t.column) : m.Spells 0 t.sql := by
  obtain ⟨column, direction, nulls⟩ := t
  have base : m.Spells 0 (column ++ " " ++ direction.sql) := by
    cases direction <;> exact ((Manner.Spells.word h).text 0 (by decide)).text 0 (by decide)
  cases nulls with
  | none => exact base
  | some nulls => cases nulls <;> exact (base.text 0 (by decide)).text 0 (by decide)

theorem spells_orderSql {order : List OrderTerm} (h : ∀ t ∈ order, m.Word t.column) :
    m.Spells 0 (orderSql order) := by
  unfold orderSql
  split
  · exact .fixed 0 (by decide)
  · refine Manner.Spells.lead (.join_words (.fixed 0 (by decide)) ?_) 0 (by decide)
    intro s hs
    obtain ⟨t, ht, rfl⟩ := List.mem_map.mp hs
    exact OrderTerm.spells (h t ht)

theorem spells_names {names : List String} (h : ∀ s ∈ names, m.Word s) :
    m.Spells 0 (joined ", " names) :=
  .join_words (.fixed 0 (by decide)) fun s hs => .word (h s hs)

theorem Projection.spells {p : Projection} (h : ∀ s ∈ p.names, m.Word s) :
    m.Spells 0 p.sql := by
  cases p with
  | all => exact .fixed 0 (by decide)
  | columns names => exact spells_names h

theorem Conflict.spells {c : Conflict} (h : ∀ s ∈ c.names, m.Word s) : m.Spells 0 c.sql := by
  have key := spells_names fun s hs => h s (List.mem_append.mpr (.inl hs))
  have updates : m.Spells 0
      (joined ", " (c.updates.map fun name => name ++ " = EXCLUDED." ++ name)) := by
    refine .join_words (.fixed 0 (by decide)) fun s hs => ?_
    obtain ⟨name, hname, rfl⟩ := List.mem_map.mp hs
    have word := Manner.Spells.word (h name (List.mem_append.mpr (.inr hname)))
    exact (word.text 0 (by decide)).append word
  refine .append (k := 0) (n := 0) (((key.lead 0 (by decide)).text 0
    (by decide)).cast rfl) ?_
  split
  · exact .fixed 0 (by decide)
  · exact (updates.lead 0 (by decide)).cast rfl

/-- A row has a placeholder for each of its values. -/
theorem Insertion.spells_row {row : List (Option Bound)}
    (h : ∀ b, some b ∈ row → ∀ s ∈ b.mark.names, m.Word s) :
    m.Spells (rowParams row).length (rowSql row) := by
  have list : m.Spells (row.map fun b => b.isSome.toNat).sum (joined ", " (row.map cellSql)) := by
    refine .join (.fixed 0 (by decide)) fun b hb => ?_
    cases b with
    | none => exact .fixed 0 (by decide)
    | some b => exact Mark.spells (h b hb)
  have count : ∀ row : List (Option Bound),
      (row.map fun b => b.isSome.toNat).sum = (rowParams row).length := by
    intro row
    induction row with
    | nil => rfl
    | cons b row ih =>
      rw [List.map_cons, List.sum_cons, ih]
      cases b with
      | none => simp [rowParams]
      | some b =>
        have longer : rowParams (some b :: row) = b.value :: rowParams row := rfl
        rw [longer, List.length_cons, Option.isSome_some, Bool.toNat_true]
        omega
  exact ((list.lead 0 (by decide)).text 0 (by decide)).cast (by
    simp [count])

theorem Insertion.spells {i : Insertion} (h : ∀ s ∈ i.names, m.Word s) :
    m.Spells i.params.length i.sql := by
  have own : ∀ s ∈ i.table :: i.columns, m.Word s := fun s hs =>
    h s (List.mem_append.mpr (.inl (List.mem_append.mpr (.inl hs))))
  have rows : m.Spells (i.rows.map fun row => (rowParams row).length).sum
      (joined ", " (i.rows.map rowSql)) := by
    refine .join (.fixed 0 (by decide)) fun row hrow => spells_row fun b hb s hs => h s ?_
    refine List.mem_append.mpr (.inl (List.mem_append.mpr (.inr ?_)))
    exact List.mem_flatMap.mpr ⟨row, hrow, List.mem_flatMap.mpr ⟨some b, hb, by simpa using hs⟩⟩
  have conflict : m.Spells 0 (i.conflict.elim "" Conflict.sql) := by
    cases hc : i.conflict with
    | none => exact .fixed 0 (by decide)
    | some c => exact Conflict.spells fun s hs => h s (by simp [names, hc, hs])
  have returning : m.Spells 0 (if i.returning then " RETURNING *" else "") := by
    split <;> exact .fixed 0 (by decide)
  have columns : m.Spells 0 (joined ", " i.columns) :=
    spells_names fun s hs => own s (by simp [hs])
  have table := (Manner.Spells.word (own i.table (by simp))).lead (a := "INSERT INTO ") 0 (by decide)
  have head := (table.text (b := " (") 0 (by decide)).append columns
  exact ((((head.text 0 (by decide)).append rows).append conflict).append returning).cast (by
    simp [params, List.length_flatMap])

/-- The text of a statement keeps to the manner of its names and literals, and has a placeholder for
each parameter and one for each operator that is written with a question mark. -/
theorem Statement.spells (st : Statement) (hn : ∀ s ∈ st.names, m.Word s)
    (hl : ∀ s ∈ st.literals, m.literal s) :
    m.Spells (st.params.length + st.conditions.countP (·.predicate.isMarked)) st.sql := by
  have own : ∀ s ∈ st.ownNames, m.Word s := fun s hs => hn s (List.mem_append.mpr (.inl hs))
  have conditions : ∀ c ∈ st.conditions, m.Spells c.marks c.sql := fun c hc =>
    Condition.spells
      (fun s hs => hn s (List.mem_append.mpr (.inr (List.mem_flatMap.mpr ⟨c, hc, hs⟩))))
      (fun s hs => hl s (List.mem_flatMap.mpr ⟨c, hc, hs⟩))
  have returned : ∀ returning : Bool, m.Spells 0 (if returning then " RETURNING *" else "") := by
    intro returning
    cases returning <;> exact .fixed 0 (by decide)
  cases st with
  | privilege table privilege =>
    exact .fixed 2 (s := "SELECT has_table_privilege(?, ?) AS allowed") (by decide)
  | select s =>
    have projection : m.Spells 0 s.projection.sql :=
      Projection.spells fun t ht => own t (by simp [ownNames, ht])
    have head := ((projection.lead (a := "SELECT ") 0 (by decide)).text (b := " FROM ") 0
      (by decide)).append
      (.word (own s.table (by simp [ownNames])))
    have order := spells_orderSql fun t ht => own t.column
      (List.mem_append.mpr (.inr (List.mem_map.mpr ⟨t, ht, rfl⟩)))
    have page : m.Spells (if s.page.isSome then 2 else 0)
        (if s.page.isSome then " LIMIT ? OFFSET ?" else "") := by
      cases s.page.isSome
      · exact .fixed 0 (by decide)
      · exact .fixed 2 (by decide)
    refine ((((head.append (Where.spells conditions)).append order).append page).cast ?_)
    simp only [sum_marks, ← Where.params_eq, params, Selection.params, Statement.conditions,
      List.length_append]
    cases s.page with
    | none => simp
    | some page =>
      simp only [Nat.add_zero, Option.isSome_some, ↓reduceIte, List.length_cons, List.length_nil]
      omega
  | count table filter =>
    have table := (Manner.Spells.word (own table (by simp [ownNames]))).lead
      (a := "SELECT COUNT(*) AS count FROM ") 0 (by decide)
    refine (table.append (Where.spells conditions)).cast ?_
    simp [sum_marks, ← Where.params_eq, params, Statement.conditions]
  | insertDefaults table returning =>
    have table := (Manner.Spells.word (own table (by simp [ownNames]))).lead
      (a := "INSERT INTO ") 0 (by decide)
    exact (table.text 0 (by decide)).append (returned returning)
  | insert i => exact (Insertion.spells own).cast (by simp [params, Statement.conditions])
  | update table assignments filter returning =>
    have table := (Manner.Spells.word (own table (by simp [ownNames]))).lead
      (a := "UPDATE ") 0 (by decide)
    have list : m.Spells (assignments.map fun _ => 1).sum
        (joined ", " (assignments.map Assignment.sql)) := by
      refine .join (.fixed 0 (by decide)) fun a ha => ?_
      have inner : ∀ s ∈ a.column :: a.bound.mark.names, m.Word s := fun s hs =>
        own s (List.mem_cons_of_mem _ (List.mem_flatMap.mpr ⟨a, ha, hs⟩))
      have column := Manner.Spells.word (inner a.column (by simp))
      exact ((column.text 0 (by decide)).append
        (Mark.spells fun s hs => inner s (by simp [hs]))).cast (by omega)
    refine ((((table.text 0 (by decide)).append list).append (Where.spells conditions)).append
      (returned returning)).cast ?_
    simp only [sum_ones, sum_marks, ← Where.params_eq, params, Statement.conditions,
      List.length_append, List.length_map]
    omega
  | delete table filter =>
    have table := (Manner.Spells.word (own table (by simp [ownNames]))).lead
      (a := "DELETE FROM ") 0 (by decide)
    refine (table.append (Where.spells conditions)).cast ?_
    simp [sum_marks, ← Where.params_eq, params, Statement.conditions]

end
end TableGateway
