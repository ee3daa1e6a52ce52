import Mathlib.Data.List.Sort
import TableGateway.Gateway.Basic

/-!
# The meaning of selections

Which rows answer a selection by the rules of SQL: those that meet its conditions, in its order, cut
to its page. Values are compared by an order that the database has; a comparison with null is unknown.
Main statement: the database that holds some rows answers by this meaning (`Database.holding_serves`).
-/
namespace TableGateway

/-! ## Conditions -/

/-- How a database compares values, and what it makes of predicates that are no comparisons. -/
structure Semantics where
  /-- The first value comes before the second in the order of their type. -/
  lt : Cell → Cell → Bool
  /-- What any other predicate says of a value; it may be unknown. -/
  other : Predicate → Cell → Option Bool

def Row.cell (row : Row) (column : String) : Cell := (Entries.get? column row).getD .null

/-- Of some alternatives one is true, or none is and one is unknown, or all are false. -/
def anyTrue (alternatives : List (Option Bool)) : Option Bool :=
  if alternatives.contains (some true) then some true
  else if alternatives.contains none then none
  else some false

theorem anyTrue_eq_true_iff {alternatives : List (Option Bool)} :
    anyTrue alternatives = some true ↔ some true ∈ alternatives := by
  unfold anyTrue
  split <;> rename_i found
  · simpa using found
  · split <;> simpa using found

namespace Semantics

variable (m : Semantics)

/-- The comparison of two values, neither of them null. -/
def compare : Comparison → Cell → Cell → Bool
  | .eq, a, b => !m.lt a b && !m.lt b a
  | .ne, a, b => m.lt a b || m.lt b a
  | .gt, a, b => m.lt b a
  | .ge, a, b => !m.lt a b
  | .lt, a, b => m.lt a b
  | .le, a, b => !m.lt b a

def relates (comparison : Comparison) (a b : Cell) : Option Bool :=
  if a.isNull || b.isNull then none else some (m.compare comparison a b)

def predicate : Predicate → Cell → Option Bool
  | .compare comparison _ v, c => m.relates comparison c v
  | .oneOf false _ vs, c => anyTrue (vs.map (m.relates .eq c))
  | .oneOf true _ vs, c => (anyTrue (vs.map (m.relates .eq c))).map not
  | .isNull, c => some c.isNull
  | .isNotNull, c => some !c.isNull
  | p, c => m.other p c

def condition (row : Row) (c : Condition) : Option Bool :=
  let answer := m.predicate c.predicate (Row.cell row c.column)
  if c.negated then answer.map not else answer

/-- What a part of a conjunction says of a row. -/
def conjunct (row : Row) : Conjunct → Option Bool
  | .one c => m.condition row c
  | .anyOf cs => anyTrue (cs.map (m.condition row))

/-- The row is chosen: all parts of the conjunction are true of it. -/
def chooses (w : Where) (row : Row) : Bool := w.all fun c => m.conjunct row c == some true

theorem chooses_append (v w : Where) (row : Row) :
    m.chooses (v ++ w) row = (m.chooses v row && m.chooses w row) := List.all_append

/-! ## Order -/

/-- Nulls come first: as the term says, and if it does not, in a falling order. -/
def nullsFirst (t : OrderTerm) : Bool :=
  match t.nulls with
  | some nulls => nulls = .first
  | none => t.direction = .desc

/-- The one cell comes before the other in the order of a term. -/
def cellBefore (t : OrderTerm) (a b : Cell) : Bool :=
  match a.isNull, b.isNull with
  | true, true => false
  | true, false => nullsFirst t
  | false, true => !nullsFirst t
  | false, false =>
    match t.direction with
    | .asc => m.lt a b
    | .desc => m.lt b a

/-- The one row comes before the other in an order, in which the first term that tells them apart
decides. -/
def rowBefore : List OrderTerm → Row → Row → Bool
  | [], _, _ => false
  | t :: rest, a, b =>
    m.cellBefore t (Row.cell a t.column) (Row.cell b t.column) ||
      (!m.cellBefore t (Row.cell b t.column) (Row.cell a t.column) && rowBefore rest a b)

/-- No row comes before one that stands earlier. -/
def Sorted (order : List OrderTerm) (rows : List Row) : Prop :=
  rows.Pairwise fun a b => m.rowBefore order b a = false

end Semantics

/-! ## Answers -/

/-- The columns of a row that are read. -/
def Projection.of : Projection → Row → Row
  | all, row => row
  | columns names, row =>
    names.foldr (fun name part => Entries.insert name (Row.cell row name) part) []

theorem Projection.get?_of (names : List String) (row : Row) (name : String) :
    Entries.get? name ((columns names).of row) =
      if name ∈ names then some (Row.cell row name) else none := by
  unfold Projection.of
  induction names with
  | nil => rfl
  | cons first names ih =>
    simp only [List.foldr_cons]
    rw [Entries.get?_insert, ih]
    by_cases same : first = name
    · simp [same]
    · simp [same, Ne.symm same]

/-- A cell of what is read is the cell of the row, or null if its column is not read. -/
theorem Projection.cell_of (p : Projection) (row : Row) (name : String) :
    Row.cell (p.of row) name = Row.cell row name ∨ Row.cell (p.of row) name = .null := by
  cases p with
  | all => exact .inl rfl
  | columns names =>
    by_cases read : name ∈ names
    · exact .inl (by rw [Row.cell, get?_of, if_pos read, Option.getD_some])
    · exact .inr (by rw [Row.cell, get?_of, if_neg read, Option.getD_none])

/-- The number of rows that a parameter stands for. -/
def Cell.size : Cell → Nat
  | int n => n.toInt.toNat
  | _ => 0

def Page.cut (p : Page) (rows : List Row) : List Row :=
  (rows.drop (sizeCell p.offset).size).take (sizeCell p.limit).size

/-- A number of rows is read as itself up to the largest integer. -/
theorem sizeCell_size (n : Nat) : (sizeCell n).size = min n Number.maxInt.toNat := by
  have least : (-2 ^ 63 : Int) ≤ min (n : Int) Number.maxInt := by
    unfold Number.maxInt
    omega
  have most : min (n : Int) Number.maxInt < 2 ^ 63 := by
    unfold Number.maxInt
    omega
  rw [sizeCell, Cell.size, Int64.toInt_ofInt_of_le least most]
  omega

/-- From the front, a page of rows that can be counted has as many as its limit says. -/
theorem Page.cut_front {rows : List Row} (fits : (rows.length : Int) ≤ Number.maxInt) (n : Nat) :
    Page.cut ⟨0, n⟩ rows = rows.take n := by
  have none : (sizeCell 0).size = 0 := by simp [sizeCell_size]
  show (rows.drop (sizeCell 0).size).take (sizeCell n).size = rows.take n
  rw [none, List.drop_zero, sizeCell_size]
  by_cases few : n ≤ Number.maxInt.toNat
  · rw [Nat.min_eq_left few]
  · rw [List.take_of_length_le (by omega), List.take_of_length_le (by omega)]

namespace Selection

def cut (s : Selection) (rows : List Row) : List Row :=
  match s.page with
  | some page => page.cut rows
  | none => rows

/-- The rows answer the selection from a table with some content. Where the order does not tell rows
apart, their order is open. -/
def Answers (s : Selection) (m : Semantics) (content rows : List Row) : Prop :=
  ∃ sorted : List Row, sorted.Perm (content.filter (m.chooses s.filter)) ∧
    m.Sorted s.order sorted ∧ rows = (s.cut sorted).map s.projection.of

end Selection

theorem Page.mem_of_mem_cut {p : Page} {rows : List Row} {row : Row} (h : row ∈ p.cut rows) :
    row ∈ rows := List.mem_of_mem_drop (List.mem_of_mem_take h)

/-- Each row of an answer is a row of the content that was chosen. -/
theorem Selection.Answers.mem {s : Selection} {m : Semantics} {content rows : List Row}
    (h : s.Answers m content rows) {row : Row} (hrow : row ∈ rows) :
    ∃ whole ∈ content, m.chooses s.filter whole = true ∧ row = s.projection.of whole := by
  obtain ⟨sorted, perm, -, rfl⟩ := h
  obtain ⟨whole, hwhole, rfl⟩ := List.mem_map.mp hrow
  have : whole ∈ sorted := by
    unfold Selection.cut at hwhole
    split at hwhole
    · exact Page.mem_of_mem_cut hwhole
    · exact hwhole
  obtain ⟨inside, chosen⟩ := List.mem_filter.mp (perm.mem_iff.mp this)
  exact ⟨whole, inside, chosen, rfl⟩

/-- The database permits reading a table, can count its rows, and answers each page of it by the meaning
of SQL, in all of its states. A content has no more rows than can be counted. -/
structure Database.Serves {δ : Type} (db : Database δ) (m : Semantics) (table : Table)
    (content : List Row) : Prop where
  permits : ∀ d, Gateway.isDenied (db.query (Privilege.select.question table) d).1 = false
  counts : ∀ filter d, ∃ rows, (db.query (.count table.name filter) d).1 = .ok rows
  pages : ∀ s d, s.table = table.name → s.page.isSome = true →
    ∃ rows, (db.query (.select s) d).1 = .ok rows ∧ s.Answers m content rows
  fits : (content.length : Int) ≤ Number.maxInt

/-! ## A database of rows -/

/-- The order of the database tells values apart as their order does: it is strict, and of two values
that are told apart any third one can be told apart from the one or from the other. -/
structure Semantics.IsOrder (m : Semantics) : Prop where
  asymm : ∀ a b, m.lt a b = true → m.lt b a = false
  apart : ∀ a b c, m.lt a c = true → m.lt a b = true ∨ m.lt b c = true

namespace Semantics.IsOrder

variable {m : Semantics}

theorem cellBefore_asymm (h : m.IsOrder) (t : OrderTerm) {a b : Cell}
    (hab : m.cellBefore t a b = true) : m.cellBefore t b a = false := by
  unfold cellBefore at hab ⊢
  cases ha : a.isNull <;> cases hb : b.isNull <;> simp only [ha, hb] at hab ⊢
  · cases ht : t.direction <;> simp only [ht] at hab ⊢
    · exact h.asymm a b hab
    · exact h.asymm b a hab
  · simpa using hab
  · simpa using hab

theorem cellBefore_apart (h : m.IsOrder) (t : OrderTerm) {a c : Cell} (b : Cell)
    (hac : m.cellBefore t a c = true) : m.cellBefore t a b = true ∨ m.cellBefore t b c = true := by
  unfold cellBefore at hac ⊢
  cases ha : a.isNull <;> cases hb : b.isNull <;> cases hc : c.isNull <;>
    simp only [ha, hc] at hac ⊢
  · cases ht : t.direction <;> simp only [ht] at hac ⊢
    · exact h.apart a b c hac
    · exact (h.apart c b a hac).symm
  all_goals cases first : nullsFirst t <;> simp_all

theorem rowBefore_asymm (h : m.IsOrder) : ∀ (order : List OrderTerm) {a b : Row},
    m.rowBefore order a b = true → m.rowBefore order b a = false
  | [], _, _, hab => by cases hab
  | t :: rest, a, b, hab => by
    simp only [rowBefore, Bool.or_eq_true, Bool.and_eq_true, Bool.not_eq_true'] at hab
    rcases hab with first | ⟨same, later⟩
    · simp [rowBefore, h.cellBefore_asymm t first, first]
    · simp [rowBefore, same, rowBefore_asymm h rest later]

theorem rowBefore_apart (h : m.IsOrder) : ∀ (order : List OrderTerm) {a c : Row} (b : Row),
    m.rowBefore order a c = true → m.rowBefore order a b = true ∨ m.rowBefore order b c = true
  | [], _, _, _, hac => by cases hac
  | t :: rest, a, c, b, hac => by
    simp only [rowBefore, Bool.or_eq_true, Bool.and_eq_true, Bool.not_eq_true'] at hac ⊢
    have split := fun x y z => h.cellBefore_apart t (a := Row.cell x t.column)
      (c := Row.cell z t.column) (Row.cell y t.column)
    rcases hac with first | ⟨same, later⟩
    · exact (split a b c first).imp .inl .inl
    · -- The first term does not tell `a` from `c`; where it tells `b` from one, it does from the other.
      rcases rowBefore_apart h rest b later with later | later
      · cases hba : m.cellBefore t (Row.cell b t.column) (Row.cell a t.column) with
        | false => exact .inl (.inr ⟨rfl, later⟩)
        | true =>
          rcases split b c a hba with hbc | hca
          · exact .inr (.inl hbc)
          · exact absurd (same.symm.trans hca) (by decide)
      · cases hcb : m.cellBefore t (Row.cell c t.column) (Row.cell b t.column) with
        | false => exact .inr (.inr ⟨rfl, later⟩)
        | true =>
          rcases split c a b hcb with hca | hab
          · exact absurd (same.symm.trans hca) (by decide)
          · exact .inl (.inl hab)

/-- Rows can be sorted. -/
theorem sorted_insertionSort (h : m.IsOrder) (order : List OrderTerm) (rows : List Row) :
    m.Sorted order (rows.insertionSort fun a b => m.rowBefore order b a = false) := by
  have total : Std.Total fun a b : Row => m.rowBefore order b a = false := ⟨fun a b => by
    cases hba : m.rowBefore order b a with
    | false => exact .inl rfl
    | true => exact .inr (h.rowBefore_asymm order hba)⟩
  have trans : IsTrans Row fun a b => m.rowBefore order b a = false := ⟨fun a b c hab hbc => by
    cases hca : m.rowBefore order c a with
    | false => rfl
    | true =>
      rcases h.rowBefore_apart order b hca with hcb | hba
      · exact absurd (hbc.symm.trans hcb) (by decide)
      · exact absurd (hab.symm.trans hba) (by decide)⟩
  exact List.pairwise_insertionSort _ rows

end Semantics.IsOrder

/-- The rows that a selection reads of some content. -/
def Selection.answer (s : Selection) (m : Semantics) (content : List Row) : List Row :=
  (s.cut ((content.filter (m.chooses s.filter)).insertionSort
    fun a b => m.rowBefore s.order b a = false)).map s.projection.of

/-- A database whose tables hold some rows. It permits everything and changes nothing. -/
def Database.holding (m : Semantics) (content : String → List Row) : Database Unit where
  query st d :=
    match st with
    | .select s => (.ok (s.answer m (content s.table)), d)
    | .count table filter =>
      let number := ((content table).filter (m.chooses filter)).length
      (.ok [[("count", .int (Int64.ofNat number))]], d)
    | _ => (.ok [], d)
  execute _ d := (.ok 0, d)

theorem Selection.answer_answers {m : Semantics} (h : m.IsOrder) (s : Selection) (content : List Row) :
    s.Answers m content (s.answer m content) :=
  ⟨_, List.perm_insertionSort _ _, h.sorted_insertionSort _ _, rfl⟩

/-- The database that holds some rows answers by the meaning of SQL. -/
theorem Database.holding_serves {m : Semantics} (h : m.IsOrder) (content : String → List Row)
    {table : Table} (fits : ((content table.name).length : Int) ≤ Number.maxInt) :
    (Database.holding m content).Serves m table (content table.name) where
  permits _ := rfl
  counts _ _ := ⟨_, rfl⟩
  pages s _ same _ := ⟨_, rfl, by rw [← same]; exact s.answer_answers h _⟩
  fits := fits

/-- A meaning in which values are compared by a rank that they have; nothing else is known of them. -/
def Semantics.ofRank (rank : Cell → Int) : Semantics where
  lt a b := rank a < rank b
  other _ _ := none

theorem Semantics.ofRank_isOrder (rank : Cell → Int) : (ofRank rank).IsOrder where
  asymm a b h := by
    simp only [ofRank, decide_eq_true_eq, decide_eq_false_iff_not] at h ⊢
    omega
  apart a b c h := by
    simp only [ofRank, decide_eq_true_eq] at h ⊢
    omega

/-- The number of an integer; other cells count as 0. -/
def Cell.number : Cell → Int
  | int n => n.toInt
  | _ => 0

end TableGateway
