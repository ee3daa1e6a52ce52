import TableGateway.Proofs.CursorAcceptance

/-!
# Rows that a column ranks

Where the cells of the order column tell rows apart, the rows stand in one order only, and the cursor of a
row chooses the rows behind it. Main statements: `Column.Ranks.eq_of_perm`,
`Column.Ranks.chooses_behind`; different values of most types rank rows (`Column.ranks_of_values`).
-/
namespace TableGateway

variable {σ : Type}

/-- The cells of the column rank the rows of some content: none is null, the order tells any two of them
apart, and each is read back from its cursor as a value that compares alike. -/
structure Column.Ranks (column : Column) (m : Semantics) (source : SchemaSource σ)
    (content : List Row) : Prop where
  notNull : ∀ row ∈ content, (Row.cell row column.name).isNull = false
  asymm : ∀ a ∈ content, ∀ b ∈ content,
    m.lt (Row.cell a column.name) (Row.cell b column.name) = true →
      m.lt (Row.cell b column.name) (Row.cell a column.name) = false
  apart : content.Pairwise fun a b =>
    m.lt (Row.cell a column.name) (Row.cell b column.name) = true ∨
      m.lt (Row.cell b column.name) (Row.cell a column.name) = true
  readBack : ∀ row ∈ content, ∃ v : Cell,
    (Convert.ofText source column.type (Row.cell row column.name).cursorText).Has (.ok v) ∧
      v.isNull = false ∧ ∀ other ∈ content,
        m.lt v (Row.cell other column.name) =
          m.lt (Row.cell row column.name) (Row.cell other column.name) ∧
        m.lt (Row.cell other column.name) v =
          m.lt (Row.cell other column.name) (Row.cell row column.name)

/-- The one row comes before the other in the order of a term. -/
def Semantics.Precedes (m : Semantics) (t : OrderTerm) (a b : Row) : Prop :=
  m.cellBefore t (Row.cell a t.column) (Row.cell b t.column) = true

namespace Column.Ranks

variable {column : Column} {m : Semantics} {source : SchemaSource σ} {content : List Row}

theorem cellBefore_eq (h : column.Ranks m source content) {t : OrderTerm} {a b : Row}
    (ha : a ∈ content) (hb : b ∈ content) :
    m.cellBefore t (Row.cell a column.name) (Row.cell b column.name) =
      match t.direction with
      | .asc => m.lt (Row.cell a column.name) (Row.cell b column.name)
      | .desc => m.lt (Row.cell b column.name) (Row.cell a column.name) := by
  cases ht : t.direction <;> simp [Semantics.cellBefore, h.notNull a ha, h.notNull b hb, ht]

theorem precedes_asymm (h : column.Ranks m source content) {t : OrderTerm}
    (named : t.column = column.name) {a b : Row} (ha : a ∈ content) (hb : b ∈ content)
    (hab : m.Precedes t a b) : ¬ m.Precedes t b a := by
  unfold Semantics.Precedes at *
  rw [named, h.cellBefore_eq ha hb] at hab
  rw [named, h.cellBefore_eq hb ha]
  cases ht : t.direction <;> simp only [ht] at hab ⊢
  · rw [h.asymm a ha b hb hab]
    exact Bool.false_ne_true
  · rw [h.asymm b hb a ha hab]
    exact Bool.false_ne_true

/-- From the back, rows precede one another the other way round. -/
theorem precedes_reversed (h : column.Ranks m source content) {t : OrderTerm}
    (named : t.column = column.name) {a b : Row} (ha : a ∈ content) (hb : b ∈ content)
    (precedes : m.Precedes t a b) : m.Precedes t.reversed b a := by
  unfold Semantics.Precedes at *
  rw [named, h.cellBefore_eq ha hb] at precedes
  rw [show t.reversed.column = column.name from named, h.cellBefore_eq hb ha]
  cases ht : t.direction <;> rw [ht] at precedes <;>
    simpa [OrderTerm.reversed, Direction.reversed, ht] using precedes

/-- Sorted rows of the content stand in one order only, each before all later ones. -/
theorem precedes_of_sorted (h : column.Ranks m source content) {t : OrderTerm}
    (named : t.column = column.name) {rows : List Row} {p : Row → Bool}
    (chosen : rows.Perm (content.filter p)) (sorted : m.Sorted [t] rows) :
    rows.Pairwise (m.Precedes t) := by
  have told := (h.apart.filter p).perm chosen.symm Or.symm
  have inside : ∀ row ∈ rows, row ∈ content := fun _ hrow =>
    (List.mem_filter.mp (chosen.mem_iff.mp hrow)).1
  refine (told.and sorted).imp_of_mem fun {a b} ha hb ⟨apart, notAfter⟩ => ?_
  have after : m.cellBefore t (Row.cell b t.column) (Row.cell a t.column) = false := by
    simpa [Semantics.rowBefore] using notAfter
  unfold Semantics.Precedes
  rw [named] at after ⊢
  rw [h.cellBefore_eq (inside b hb) (inside a ha)] at after
  rw [h.cellBefore_eq (inside a ha) (inside b hb)]
  cases ht : t.direction <;> simp only [ht] at after ⊢
  · exact apart.resolve_right (by simp [after])
  · exact apart.resolve_left (by simp [after])

/-- Rows that stand in the order are determined by which they are. -/
theorem eq_of_perm (h : column.Ranks m source content) {t : OrderTerm}
    (named : t.column = column.name) {rows others : List Row} (subset : rows ⊆ content)
    (rowsOrdered : rows.Pairwise (m.Precedes t)) (othersOrdered : others.Pairwise (m.Precedes t))
    (perm : rows.Perm others) : rows = others :=
  perm.eq_of_pairwise (fun _ _ ha hb hab hba =>
    absurd hba (h.precedes_asymm named (subset ha) (subset (perm.mem_iff.mpr hb)) hab))
    rowsOrdered othersOrdered

/-- The condition of a cursor chooses the rows behind the row that it stands for. -/
theorem chooses_behind (h : column.Ranks m source content) {t : OrderTerm}
    (named : t.column = column.name) {row : Row} (hrow : row ∈ content) {v : Cell}
    (notNull : v.isNull = false) (alike : ∀ other ∈ content,
      m.lt v (Row.cell other column.name) =
        m.lt (Row.cell row column.name) (Row.cell other column.name) ∧
      m.lt (Row.cell other column.name) v =
        m.lt (Row.cell other column.name) (Row.cell row column.name))
    {other : Row} (hother : other ∈ content) :
    m.chooses [.one { column := column.name
                      predicate := .compare t.direction.after column.type.mark v }] other = true ↔
      m.Precedes t row other := by
  obtain ⟨less, more⟩ := alike other hother
  unfold Semantics.Precedes
  rw [named, h.cellBefore_eq hrow hother]
  simp only [Semantics.chooses, List.all_cons, List.all_nil, Bool.and_true, Semantics.conjunct,
    Semantics.condition, Semantics.predicate, Semantics.relates, h.notNull other hother, notNull]
  cases t.direction <;> simp [Direction.after, Semantics.compare, less, more]

/-- None of some rows that stand in the order is behind the last of them. -/
theorem not_behind_last (h : column.Ranks m source content) {t : OrderTerm}
    (named : t.column = column.name) {rows : List Row} (subset : rows ⊆ content)
    (ordered : rows.Pairwise (m.Precedes t)) {row : Row} (last : rows.getLast? = some row) :
    ∀ other ∈ rows, ¬ m.Precedes t row other := by
  obtain ⟨front, rfl⟩ := List.getLast?_eq_some_iff.mp last
  have inside : ∀ other ∈ front ++ [row], other ∈ content := fun _ hother => subset hother
  have hrow := inside row (List.mem_append_right _ (List.mem_singleton_self row))
  intro other hother
  have hcontent := inside other hother
  rcases List.mem_append.mp hother with earlier | same
  · exact h.precedes_asymm named hcontent hrow
      ((List.pairwise_append.mp ordered).2.2 other earlier row (List.mem_singleton_self row))
  · obtain rfl := List.mem_singleton.mp same
    exact fun self => h.precedes_asymm named hcontent hcontent self self

end Column.Ranks

/-- The order of the database tells any two values of the type apart, in one way. -/
structure Semantics.Orders (m : Semantics) (type : ScalarType) : Prop where
  asymm : ∀ a b : Cell, a.IsValue type → b.IsValue type → m.lt a b = true → m.lt b a = false
  total : ∀ a b : Cell, a.IsValue type → b.IsValue type → a ≠ b → m.lt a b = true ∨ m.lt b a = true

/-- Different values of a type that are read from their texts rank rows. -/
theorem Column.ranks_of_values {column : Column} {m : Semantics} {source : SchemaSource σ}
    {content : List Row} {type : ScalarType} (typed : column.type = .scalar type)
    (timeless : type.isTemporal = false) (order : m.Orders type)
    (values : ∀ row ∈ content, (Row.cell row column.name).IsValue type)
    (distinct : (content.map fun row => Row.cell row column.name).Nodup) :
    column.Ranks m source content where
  notNull row hrow := (values row hrow).isNull
  asymm a ha b hb := order.asymm _ _ (values a ha) (values b hb)
  apart := (List.pairwise_map.mp distinct).imp_of_mem fun ha hb different =>
    order.total _ _ (values _ ha) (values _ hb) different
  readBack row hrow := by
    obtain ⟨text, htext, read⟩ := Convert.scalar_text (values row hrow) timeless
    refine ⟨Row.cell row column.name, ?_, (values row hrow).isNull, fun _ _ => ⟨rfl, rfl⟩⟩
    rw [typed, Convert.ofText_scalar, Cell.cursorText, htext]
    exact fun _ => read

/-- Integers are told apart by their numbers. -/
theorem Semantics.ofRank_orders : (ofRank Cell.number).Orders .integer where
  asymm a b _ _ := (ofRank_isOrder Cell.number).asymm a b
  total a b ha hb different := by
    cases ha with
    | integer m =>
      cases hb with
      | integer n =>
        have numbers : m.toInt ≠ n.toInt := fun same => different (by rw [Int64.toInt_inj.mp same])
        exact (Int.lt_or_lt_of_ne numbers).imp decide_eq_true decide_eq_true

end TableGateway
