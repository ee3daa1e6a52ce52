import TableGateway.Proofs.Meaning

/-!
# Rows that are proposed

What the rules of SQL make of rows that an insertion proposes to a table with a key: where the table has
rows with the key of a proposed one, these take some of its cells, and else it is added. Proposed rows that
differ in their keys do not meet each other. Main statements: `Semantics.IsOrder.settleAll_eq`,
`Semantics.IsOrder.settleAll_same_iff`.
-/
namespace TableGateway

/-! ## Rows -/

namespace Row

/-- The row with new cells in some columns. -/
def fill (names : List String) (cell : String → Cell) (row : Row) : Row :=
  names.foldr (fun name row => Entries.insert name (cell name) row) row

theorem cell_fill (names : List String) (new : String → Cell) (row : Row) (name : String) :
    cell (fill names new row) name = if name ∈ names then new name else cell row name := by
  unfold fill
  induction names with
  | nil => simp
  | cons first names ih =>
    rw [List.foldr_cons, cell, Entries.get?_insert]
    by_cases same : first = name
    · simp [same]
    · rw [if_neg same, ← cell, ih]
      simp [Ne.symm same]

def Same (a b : Row) : Prop := ∀ name, cell a name = cell b name

end Row

/-- The rows are the same, in whatever order they stand. -/
def SameContent (as bs : List Row) : Prop := ∃ rows, as.Perm rows ∧ List.Forall₂ Row.Same rows bs

theorem SameContent.exists_same {as bs : List Row} (h : SameContent as bs) {b : Row} (hb : b ∈ bs) :
    ∃ a ∈ as, Row.Same a b := by
  obtain ⟨rows, perm, same⟩ := h
  obtain ⟨a, ha, hab⟩ : ∃ a ∈ rows, Row.Same a b := by
    clear perm
    induction same with
    | nil => simp at hb
    | cons first _ ih =>
      rcases List.mem_cons.mp hb with rfl | hb
      · exact ⟨_, by simp, first⟩
      · obtain ⟨a, ha, hab⟩ := ih hb
        exact ⟨a, by simp [ha], hab⟩
  exact ⟨a, perm.mem_iff.mpr ha, hab⟩

/-! ## Keys -/

namespace Semantics

variable (m : Semantics) (key : List String)

def sameKey (a b : Row) : Bool :=
  key.all fun name => m.relates .eq (Row.cell a name) (Row.cell b name) == some true

variable {m key}

theorem sameKey_iff {a b : Row} : m.sameKey key a b = true ↔
    ∀ name ∈ key, m.relates .eq (Row.cell a name) (Row.cell b name) = some true := by
  simp [sameKey]

/-- Two values are equal if none is null and none comes before the other. -/
theorem relates_eq_iff {a b : Cell} : m.relates .eq a b = some true ↔
    (a.isNull = false ∧ b.isNull = false) ∧ m.lt a b = false ∧ m.lt b a = false := by
  unfold relates compare
  cases a.isNull <;> cases b.isNull <;> simp

theorem relates_eq_symm {a b : Cell} (h : m.relates .eq a b = some true) :
    m.relates .eq b a = some true := by
  rw [relates_eq_iff] at h ⊢
  exact ⟨h.1.symm, h.2.symm⟩

theorem IsOrder.relates_eq_trans (hm : m.IsOrder) {a b c : Cell} (hab : m.relates .eq a b = some true)
    (hbc : m.relates .eq b c = some true) : m.relates .eq a c = some true := by
  rw [relates_eq_iff] at hab hbc ⊢
  refine ⟨⟨hab.1.1, hbc.1.2⟩, ?_, ?_⟩
  · by_contra before
    rcases hm.apart a b c (by simpa using before) with h | h
    · simp [hab.2.1] at h
    · simp [hbc.2.1] at h
  · by_contra before
    rcases hm.apart c b a (by simpa using before) with h | h
    · simp [hbc.2.2] at h
    · simp [hab.2.2] at h

theorem sameKey_comm (a b : Row) : m.sameKey key a b = m.sameKey key b a := by
  rw [Bool.eq_iff_iff, sameKey_iff, sameKey_iff]
  exact ⟨fun h name hname => relates_eq_symm (h name hname),
    fun h name hname => relates_eq_symm (h name hname)⟩

/-- Rows with the same key share it with the same rows. -/
theorem IsOrder.sameKey_congr (hm : m.IsOrder) {a b : Row} (hab : m.sameKey key a b = true) (c : Row) :
    m.sameKey key c a = m.sameKey key c b := by
  rw [Bool.eq_iff_iff, sameKey_iff, sameKey_iff]
  rw [sameKey_iff] at hab
  exact ⟨fun h name hname => hm.relates_eq_trans (h name hname) (hab name hname),
    fun h name hname => hm.relates_eq_trans (h name hname) (relates_eq_symm (hab name hname))⟩

theorem sameKey_same {a b : Row} (h : Row.Same a b) (c : Row) :
    m.sameKey key c a = m.sameKey key c b := by
  unfold sameKey
  simp only [h _]

/-- A row that takes cells from one with its key keeps its key. -/
theorem IsOrder.sameKey_fill (hm : m.IsOrder) {p row : Row} (h : m.sameKey key p row = true)
    (names : List String) (q : Row) :
    m.sameKey key q (Row.fill names (Row.cell p) row) = m.sameKey key q row := by
  refine hm.sameKey_congr (sameKey_iff.mpr fun name hname => ?_) q
  have own := sameKey_iff.mp h name hname
  rw [Row.cell_fill]
  split
  · exact own
  · exact hm.relates_eq_trans (relates_eq_symm own) own

/-! ## Settling -/

variable (m key)

/-- A row is proposed: the rows with its key take its cells in some columns, and if there are none, it is
added. -/
def settle (updates : List String) (rows : List Row) (proposal : Row) : List Row :=
  if rows.any (m.sameKey key proposal) then
    rows.map fun row =>
      if m.sameKey key proposal row then Row.fill updates (Row.cell proposal) row else row
  else rows ++ [proposal]

/-- Some rows are proposed one after the other, each with the columns that it may change. -/
def settleAll (changes : List (List String × Row)) (rows : List Row) : List Row :=
  changes.foldl (fun rows change => m.settle key change.1 rows change.2) rows

/-- What becomes of a row of the table: it takes cells from the first proposed one with its key. -/
def changed (changes : List (List String × Row)) (row : Row) : Row :=
  match changes.find? fun change => m.sameKey key change.2 row with
  | some change => Row.fill change.1 (Row.cell change.2) row
  | none => row

variable {m key}

theorem IsOrder.sameKey_changed (hm : m.IsOrder) (changes : List (List String × Row)) (row q : Row) :
    m.sameKey key q (m.changed key changes row) = m.sameKey key q row := by
  unfold changed
  split
  · rename_i change found
    exact hm.sameKey_fill (by simpa using List.find?_some found) _ q
  · rfl

/-- A row that shares its key with no proposed row stays as it is. -/
theorem changed_eq_self {changes : List (List String × Row)} {row : Row}
    (h : ∀ change ∈ changes, m.sameKey key change.2 row = false) : m.changed key changes row = row := by
  have none : (changes.find? fun change => m.sameKey key change.2 row) = none :=
    List.find?_eq_none.mpr fun change hchange => by simp [h change hchange]
  rw [changed, none]

/-- Of proposed rows with different keys, a row takes its cells from the one that has its own. -/
theorem IsOrder.changed_of_mem (hm : m.IsOrder) {row : Row} {change : List String × Row} :
    ∀ {changes : List (List String × Row)},
    (changes.Pairwise fun a b => m.sameKey key a.2 b.2 = false) → change ∈ changes →
    m.sameKey key change.2 row = true →
    m.changed key changes row = Row.fill change.1 (Row.cell change.2) row
  | first :: rest, distinct, hchange, same => by
    obtain ⟨apart, distinct⟩ := List.pairwise_cons.mp distinct
    rcases List.mem_cons.mp hchange with rfl | hchange
    · simp [changed, same]
    · have differs : m.sameKey key first.2 row = false := by
        rw [← hm.sameKey_congr same]
        exact apart change hchange
      rw [← hm.changed_of_mem distinct hchange same]
      simp [changed, differs]

/-- Where a proposed row meets rows of the table, these take its cells. -/
theorem settle_of_met {rows : List Row} {p : Row} (met : rows.any (m.sameKey key p) = true)
    (updates : List String) :
    m.settle key updates rows p = rows.map (m.changed key [(updates, p)]) := by
  rw [settle, if_pos met]
  refine List.map_congr_left fun row _ => ?_
  by_cases same : m.sameKey key p row = true
  · simp [changed, same]
  · simp [changed, same]

/-- A row that has taken cells from the first proposed one takes none from others with different keys. -/
theorem IsOrder.changed_cons (hm : m.IsOrder) {p : Row} {rest : List (List String × Row)}
    (apart : ∀ change ∈ rest, m.sameKey key p change.2 = false) (updates : List String) (row : Row) :
    m.changed key rest (m.changed key [(updates, p)] row) = m.changed key ((updates, p) :: rest) row := by
  by_cases same : m.sameKey key p row = true
  · rw [changed_eq_self]
    · simp [changed, same]
    · intro change hchange
      rw [hm.sameKey_changed, ← hm.sameKey_congr same, sameKey_comm]
      exact apart change hchange
  · simp [changed, same]

/-- A proposed row meets the rows of the table that it met before they changed. -/
theorem IsOrder.any_changed (hm : m.IsOrder) (changes : List (List String × Row)) (rows : List Row)
    (q : Row) : (rows.map (m.changed key changes)).any (m.sameKey key q) = rows.any (m.sameKey key q) := by
  rw [List.any_map]
  exact congrArg rows.any (funext fun row => hm.sameKey_changed _ row q)

/-- When rows with different keys are proposed, each row of the table meets one of them at most, and those
that meet none are added. -/
theorem IsOrder.settleAll_eq (hm : m.IsOrder) : ∀ {changes : List (List String × Row)} {rows : List Row},
    (changes.Pairwise fun a b => m.sameKey key a.2 b.2 = false) →
    m.settleAll key changes rows = rows.map (m.changed key changes) ++
      (changes.filter fun change => !rows.any (m.sameKey key change.2)).map (·.2)
  | [], rows, _ => by
    have same : m.changed key [] = id := rfl
    simp [settleAll, same]
  | (updates, p) :: rest, rows, distinct => by
    obtain ⟨apart, distinct⟩ := List.pairwise_cons.mp distinct
    have step : m.settleAll key ((updates, p) :: rest) rows =
      m.settleAll key rest (m.settle key updates rows p) := rfl
    rw [step, hm.settleAll_eq distinct]
    by_cases met : rows.any (m.sameKey key p) = true
    · rw [settle_of_met met, List.map_map, List.filter_cons_of_neg (by simp [met])]
      simp only [hm.any_changed]
      congr 1
      exact List.map_congr_left fun row _ => hm.changed_cons apart updates row
    · rw [Bool.not_eq_true] at met
      have settled : m.settle key updates rows p = rows ++ [p] := by
        rw [settle, met]
        rfl
      -- The row that is added meets none of the others either.
      have differs : ∀ change ∈ rest, m.sameKey key change.2 p = false := by
        intro change hchange
        rw [sameKey_comm]
        exact apart change hchange
      have others : rest.filter (fun change => !(rows ++ [p]).any (m.sameKey key change.2)) =
          rest.filter fun change => !rows.any (m.sameKey key change.2) :=
        List.filter_congr fun change hchange => by simp [differs change hchange]
      have unmet : ∀ row ∈ rows, m.changed key ((updates, p) :: rest) row = m.changed key rest row := by
        intro row hrow
        have apart : m.sameKey key p row = false := by simpa using List.any_eq_false.mp met row hrow
        simp [changed, apart]
      rw [settled, others, List.map_append, List.filter_cons_of_pos (by simp [met]),
        List.map_congr_left unmet, List.map_cons, changed_eq_self differs, List.append_assoc]
      rfl

/-! ## The same rows with other columns -/

section Columns

variable {γ : Type} {l : List γ} {proposal : γ → Row}
  (distinct : l.Pairwise fun a b => m.sameKey key (proposal a) (proposal b) = false)
include distinct

/-- A row takes the columns of the proposed row that has its key. -/
theorem IsOrder.changed_proposed (hm : m.IsOrder) (columns : γ → List String) {x : γ} (hx : x ∈ l)
    {row : Row} (same : m.sameKey key (proposal x) row = true) :
    m.changed key (l.map fun x => (columns x, proposal x)) row =
      Row.fill (columns x) (Row.cell (proposal x)) row :=
  hm.changed_of_mem (List.pairwise_map.mpr distinct) (List.mem_map_of_mem hx) same

/-- Which rows are added does not depend on the columns. -/
theorem IsOrder.settleAll_proposed (hm : m.IsOrder) (columns : γ → List String) (rows : List Row) :
    m.settleAll key (l.map fun x => (columns x, proposal x)) rows =
      rows.map (m.changed key (l.map fun x => (columns x, proposal x))) ++
        (l.filter fun x => !rows.any (m.sameKey key (proposal x))).map proposal := by
  rw [hm.settleAll_eq (List.pairwise_map.mpr distinct), List.filter_map, List.map_map]
  rfl

variable {wide narrow : γ → List String} {rows : List Row}

/-- A row becomes the same if it has the cells already that only the one of two changes gives. -/
theorem IsOrder.changed_same (hm : m.IsOrder) (within : ∀ x ∈ l, ∀ name ∈ narrow x, name ∈ wide x)
    {row : Row} (agree : ∀ x ∈ l, m.sameKey key (proposal x) row = true →
      ∀ name ∈ wide x, name ∉ narrow x → Row.cell row name = Row.cell (proposal x) name) :
    Row.Same (m.changed key (l.map fun x => (wide x, proposal x)) row)
      (m.changed key (l.map fun x => (narrow x, proposal x)) row) := by
  intro name
  by_cases met : ∃ x ∈ l, m.sameKey key (proposal x) row = true
  · obtain ⟨x, hx, same⟩ := met
    rw [hm.changed_proposed distinct wide hx same, hm.changed_proposed distinct narrow hx same,
      Row.cell_fill, Row.cell_fill]
    by_cases hnarrow : name ∈ narrow x
    · simp [hnarrow, within x hx name hnarrow]
    · by_cases hwide : name ∈ wide x
      · simp [hnarrow, hwide, agree x hx same name hwide hnarrow]
      · simp [hnarrow, hwide]
  · have unmet : ∀ columns : γ → List String,
        m.changed key (l.map fun x => (columns x, proposal x)) row = row := by
      intro columns
      refine changed_eq_self fun change hchange => ?_
      obtain ⟨x, hx, rfl⟩ := List.mem_map.mp hchange
      rw [← Bool.not_eq_true]
      exact fun same => met ⟨x, hx, same⟩
    rw [unmet wide, unmet narrow]

/-- A row of the content with some columns that has the key of a proposed one, which meets a row of the
table, has the cells of the proposed one in these columns. -/
theorem IsOrder.cell_of_settled (hm : m.IsOrder) (columns : γ → List String) {x : γ} (hx : x ∈ l)
    {row : Row} (hrow : row ∈ rows) (same : m.sameKey key (proposal x) row = true) {other : Row}
    (hother : other ∈ m.settleAll key (l.map fun x => (columns x, proposal x)) rows)
    (sameOther : m.sameKey key (proposal x) other = true) {name : String} (h : name ∈ columns x) :
    Row.cell other name = Row.cell (proposal x) name := by
  rw [hm.settleAll_proposed distinct] at hother
  rcases List.mem_append.mp hother with hother | hother
  · obtain ⟨whole, -, rfl⟩ := List.mem_map.mp hother
    rw [hm.sameKey_changed] at sameOther
    rw [hm.changed_proposed distinct columns hx sameOther, Row.cell_fill, if_pos h]
  · -- An added row meets no row of the table, but this one has the key of one.
    obtain ⟨y, hy, rfl⟩ := List.mem_map.mp hother
    have unmet := (List.mem_filter.mp hy).2
    have met : rows.any (m.sameKey key (proposal y)) = true := by
      refine List.any_eq_true.mpr ⟨row, hrow, ?_⟩
      rw [← hm.sameKey_congr same, sameKey_comm]
      exact sameOther
    simp [met] at unmet

/-- Changes to different columns of the same rows come to the same where the rows already have the cells
that only the one of them gives. -/
theorem IsOrder.settleAll_same_iff (hm : m.IsOrder)
    (within : ∀ x ∈ l, ∀ name ∈ narrow x, name ∈ wide x) :
    SameContent (m.settleAll key (l.map fun x => (wide x, proposal x)) rows)
        (m.settleAll key (l.map fun x => (narrow x, proposal x)) rows) ↔
      ∀ x ∈ l, ∀ row ∈ rows, m.sameKey key (proposal x) row = true →
        ∀ name ∈ wide x, name ∉ narrow x → Row.cell row name = Row.cell (proposal x) name := by
  constructor
  · intro content x hx row hrow same name hwide hnarrow
    have kept : Row.cell (m.changed key (l.map fun x => (narrow x, proposal x)) row) name =
        Row.cell row name := by
      rw [hm.changed_proposed distinct narrow hx same, Row.cell_fill, if_neg hnarrow]
    obtain ⟨other, hother, cells⟩ := content.exists_same
      (b := m.changed key (l.map fun x => (narrow x, proposal x)) row) (by
        rw [hm.settleAll_proposed distinct narrow]
        exact List.mem_append_left _ (List.mem_map_of_mem hrow))
    have sameOther : m.sameKey key (proposal x) other = true := by
      rw [sameKey_same cells, hm.sameKey_changed, same]
    rw [← kept, ← cells name]
    exact hm.cell_of_settled distinct wide hx hrow same hother sameOther hwide
  · intro agree
    rw [hm.settleAll_proposed distinct, hm.settleAll_proposed distinct]
    refine ⟨_, List.Perm.refl _, List.rel_append ?_ ?_⟩
    · rw [List.forall₂_map_left_iff, List.forall₂_map_right_iff, List.forall₂_same]
      exact fun row hrow => hm.changed_same distinct within fun x hx => agree x hx row hrow
    · rw [List.forall₂_same]
      exact fun _ _ _ => rfl

end Columns
end Semantics
end TableGateway
