import TableGateway.Filter.Conditions
import TableGateway.Proofs.Conversion
import TableGateway.Proofs.Naming
import TableGateway.Proofs.Spelling

/-!
# Filters and their conditions

The filters of a request hold filter expressions. Each of them becomes one condition, in order: it is
written with names of the table only, and the texts in it are items of the expression's list that have
passed the denylist. A filter that is refused is refused as a fault of the client. Main statement:
`Filter.conditions_ends`.
-/
namespace TableGateway

/-! ## The expressions of a request -/

namespace Operator

/-- The operator writes the items of its list into the statement. -/
def splices : Operator → Bool
  | hasKeys | hasAnyKeys | arrayHasAny => true
  | _ => false

/-- The operator is written with a question mark of its own. -/
def isMarked : Operator → Bool
  | hasKeys | hasAnyKeys | jsonExists | jsonPath => true
  | _ => false

end Operator

/-- The text is an item of the expression's list that passes the denylist, and the expression writes
its items into the statement. -/
structure FilterExpr.Splices (e : FilterExpr) (s : String) : Prop where
  operator : e.operator.splices = true
  item : s ∈ Filter.listItems e.value
  checked : Denylist.checkItem s = .ok ()

/-- The expression of an alternative of an `or` group. -/
def alternativeExpr? (cs : List Char) : Option FilterExpr :=
  (Text.cut? '.' cs).map fun (_, raw) => FilterExpr.parse (String.ofList raw)

def expressionsOf (name value : String) : List FilterExpr :=
  if name = "or" then (Filter.alternatives value).filterMap alternativeExpr?
  else [FilterExpr.parse value]

/-- The values of filters, each with the name of its filter. -/
def Params.pairs (params : Params) : List (String × String) :=
  params.filters.flatMap fun (name, values) => values.map (name, ·)

/-- The filter expressions of a request on the rows of its table. -/
def Params.expressions (params : Params) : List FilterExpr :=
  params.pairs.flatMap fun (name, value) => expressionsOf name value

/-- The condition is one for the expression, on a column of the table. -/
structure Filter.Answers (table : Table) (e : FilterExpr) (c : Condition) : Prop where
  names : ∀ s ∈ c.names, s ∈ table.names
  literals : ∀ s ∈ c.literals, e.Splices s
  marked : c.predicate.isMarked = e.operator.isMarked

namespace Filter

variable {σ : Type} (source : SchemaSource σ)

/-! ## Predicates -/

theorem checkValue_valid (s : String) : Convert.Valid (Denylist.checkValue s) := by
  unfold Denylist.checkValue
  split
  · exact .error rfl
  · split
    · exact .error rfl
    · exact .ok trivial

theorem checkItem_valid (s : String) :
    Outcome (fun _ => Denylist.checkItem s = .ok ()) (·.isValidation = true)
      (Denylist.checkItem s) := by
  cases h : Denylist.checkItem s with
  | ok => exact .ok rfl
  | error e =>
    unfold Denylist.checkItem at h
    split at h
    · rename_i refused
      cases h
      have := checkValue_valid s
      rw [refused] at this
      exact .error this.of_error
    · split at h
      · cases h
        exact .error rfl
      · cases h

/-- The items of a list that is accepted are those of its text, and each has passed. -/
theorem checkedItems_valid (value : String) :
    Outcome (fun items => ∀ s ∈ items, s ∈ listItems value ∧ Denylist.checkItem s = .ok ())
      (·.isValidation = true) (checkedItems value) := by
  unfold checkedItems
  refine .ite (fun _ => .error rfl) fun _ => ?_
  have items := Outcome.mapM (S := fun item s => s = item ∧ Denylist.checkItem item = .ok ())
    (E := (·.isValidation = true)) (f := fun item => (Denylist.checkItem item).map fun _ => item)
    (l := listItems value) fun item _ => by
      have checked := checkItem_valid item
      cases h : Denylist.checkItem item with
      | ok => exact .ok ⟨rfl, rfl⟩
      | error e =>
        rw [h] at checked
        exact .error checked.of_error
  refine items.mono (fun found hfound s hs => ?_) fun _ => id
  obtain ⟨item, hitem, rfl, checked⟩ := exists_of_forall₂ hfound s hs
  exact ⟨hitem, checked⟩

/-- What a predicate for an operator and its operand on a column of a type is written with. -/
structure Fits (type : ColumnType) (operator : Operator) (value : String) (p : Predicate) : Prop where
  names : ∀ s ∈ p.names, s ∈ type.names
  literals : ∀ s ∈ p.literals,
    operator.splices = true ∧ s ∈ listItems value ∧ Denylist.checkItem s = .ok ()
  marked : p.isMarked = operator.isMarked

theorem compareWith_ends (column : Column) (comparison : Comparison) (value : String) :
    (compareWith source column comparison value).Ends
      (fun p => ∃ v, p = .compare comparison column.type.mark v) (·.isValidation = true) := by
  unfold compareWith
  exact .bind (Convert.ofText_ends source _ _) fun v _ => .pure ⟨v, rfl⟩

theorem itemValues_ends (type : ColumnType) (items : List String) :
    (itemValues source type items).Ends (fun _ => True) (·.isValidation = true) := by
  unfold itemValues
  refine (Lookup.Ends.mapM_all (R := fun _ => True) fun item _ => ?_).mono (fun _ _ => trivial)
    fun _ => id
  refine .bind (.known (checkItem_valid item)) fun _ _ => ?_
  exact Convert.ofText_ends source type item

theorem Fits.compare {type : ColumnType} {operator : Operator} {value : String}
    (h : operator.isMarked = false) (comparison : Comparison) (v : Cell) :
    Fits type operator value (.compare comparison type.mark v) :=
  ⟨fun _ hs => ColumnType.mark_names (by simpa [Predicate.names, Mark.names] using hs),
    by simp [Predicate.literals], h.symm⟩

/-- A predicate without names and literals. -/
theorem Fits.bare {type : ColumnType} {operator : Operator} {value : String} {p : Predicate}
    (hn : p.names = []) (hl : p.literals = []) (h : p.isMarked = operator.isMarked) :
    Fits type operator value p := ⟨by simp [hn], by simp [hl], h⟩

/-- Comparisons with a value of the column. -/
theorem compareWith_fits {column : Column} {operator : Operator} {value : String}
    (h : operator.isMarked = false) (comparison : Comparison) :
    (compareWith source column comparison value).Ends (Fits column.type operator value)
      (·.isValidation = true) := by
  refine (compareWith_ends source column comparison value).mono ?_ fun _ => id
  rintro _ ⟨v, rfl⟩
  exact .compare h comparison v

theorem predicateOf_ends (column : Column) (operator : Operator) (value : String) :
    (predicateOf source column operator value).Ends (Fits column.type operator value)
      (·.isValidation = true) := by
  have items : ∀ p : Predicate, p.names ⊆ column.type.names → p.isMarked = operator.isMarked →
      operator.splices = true →
      (∀ s ∈ p.literals, s ∈ listItems value ∧ Denylist.checkItem s = .ok ()) →
        Fits column.type operator value p := fun p hn hm ho hl =>
    ⟨fun _ hs => hn hs, fun s hs => ⟨ho, hl s hs⟩, hm⟩
  have listed : ∀ excluded, operator.isMarked = false →
      Lookup.Ends (do
        if (listItems value).isEmpty then
          throw (.invalidFilter (column.name ++ ": IN list requires at least one value"))
        return .oneOf excluded column.type.mark (← itemValues source column.type (listItems value)))
        (Fits column.type operator value) (·.isValidation = true) := by
    intro excluded h
    split
    · exact .bind (.throw rfl) fun _ h => h
    · refine .bind (itemValues_ends source _ _) fun values _ => .pure ⟨fun _ hs => ?_, ?_, h.symm⟩
      · exact ColumnType.mark_names (by simpa [Predicate.names, Mark.names] using hs)
      · simp [Predicate.literals]
  cases operator with
  | eq | neq | gt | gte | lt | lte =>
    simp only [predicateOf]
    exact compareWith_fits source rfl _
  | like | ilike | startsWith | endsWith | isNotNull | hasKey | jsonExists | jsonPath
  | jsonPathExists | fts | plfts | wfts =>
    simp only [predicateOf]
    exact .pure (.bare rfl rfl rfl)
  | isIn | notIn =>
    simp only [predicateOf]
    exact listed _ rfl
  | is =>
    simp only [predicateOf]
    split
    · exact .pure (.bare rfl rfl rfl)
    · split
      · exact .pure (.bare rfl rfl rfl)
      · split
        · exact .pure (.bare rfl rfl rfl)
        · split
          · exact .pure (.bare rfl rfl rfl)
          · exact compareWith_fits source rfl _
  | hasKeys | hasAnyKeys =>
    simp only [predicateOf]
    refine .bind (.known (checkedItems_valid value)) fun keys hkeys => .pure ?_
    exact items _ (by simp [Predicate.names]) rfl rfl hkeys
  | arrayHasAny =>
    simp only [predicateOf]
    refine .bind (.known (checkedItems_valid value)) fun keys hkeys => .pure ?_
    exact items _ (by simp [Predicate.names, ColumnType.names]) rfl rfl hkeys
  | jsonContains | jsonContained =>
    simp only [predicateOf]
    split
    · exact .throw rfl
    · exact .pure (.bare rfl rfl rfl)
  | arrayContains =>
    simp only [predicateOf]
    refine .bind (Convert.ofText_ends source _ _) fun v _ => .pure ⟨?_, ?_, rfl⟩
    · simp [Predicate.names, ColumnType.names]
    · simp [Predicate.literals]
  | arrayHasAll =>
    simp only [predicateOf]
    exact .bind (itemValues_ends source _ _) fun _ _ => .pure (.bare rfl rfl rfl)
  | arrayLength =>
    simp only [predicateOf]
    split
    · exact .pure (.bare rfl rfl rfl)
    · exact .throw rfl

/-! ## Conditions -/

variable (table : Table)

theorem condition_ends (column raw : String) :
    (condition source table column raw).Ends (Answers table (FilterExpr.parse raw))
      (·.isValidation = true) := by
  unfold condition
  refine .bind (.known (table.resolve_outcome column)) fun column hcolumn => ?_
  refine .bind (.known (checkValue_valid _)) fun _ _ => ?_
  refine .bind (predicateOf_ends source column _ _) fun p hp => .pure ⟨fun s hs => ?_, ?_, hp.marked⟩
  · refine Table.mem_names hcolumn ?_
    rcases List.mem_cons.mp hs with rfl | hs
    · simp [Column.names]
    · exact List.mem_cons_of_mem _ (hp.names s hs)
  · intro s hs
    obtain ⟨operator, item, checked⟩ := hp.literals s hs
    exact ⟨operator, item, checked⟩

/-- An alternative has one expression, and becomes one condition. -/
theorem alternative_ends (cs : List Char) :
    (alternative source table cs).Ends
      (fun c => ∃ e, alternativeExpr? cs = some e ∧ Answers table e c) (·.isValidation = true) := by
  unfold alternative
  split
  · rename_i column raw found
    refine (condition_ends source table _ _).mono (fun c hc => ⟨_, ?_, hc⟩) fun _ => id
    simp [alternativeExpr?, found]
  · exact .throw rfl

theorem orGroup_ends (value : String) :
    (orGroup source table value).Ends
      (fun c => List.Forall₂ (Answers table) ((alternatives value).filterMap alternativeExpr?)
        c.conditions) (·.isValidation = true) := by
  unfold orGroup
  refine .bind (.mapM fun cs _ => alternative_ends source table cs) fun cs hcs => ?_
  have all : List.Forall₂ (Answers table) ((alternatives value).filterMap alternativeExpr?) cs := by
    generalize alternatives value = texts at hcs
    induction hcs with
    | nil => exact .nil
    | cons h _ ih =>
      obtain ⟨e, he, answers⟩ := h
      rw [List.filterMap_cons_some he]
      exact .cons answers ih
  split
  · exact .bind (.throw rfl) fun _ h => h
  · exact .pure all

theorem conjunct_ends (name value : String) :
    (conjunct source table name value).Ends
      (fun c => List.Forall₂ (Answers table) (expressionsOf name value) c.conditions)
      (·.isValidation = true) := by
  unfold conjunct expressionsOf
  split
  · exact orGroup_ends source table value
  · exact .bind (condition_ends source table name value) fun c hc => .pure (.cons hc .nil)

/-- The conditions of a request answer its expressions one by one. -/
theorem conditions_ends (params : Params) :
    (conditions source table params).Ends
      (fun w => List.Forall₂ (Answers table) params.expressions (Where.conditions w))
      (·.isValidation = true) := by
  unfold conditions
  refine (Lookup.Ends.mapM fun pair _ => conjunct_ends source table pair.1 pair.2).mono
    (fun w hw => ?_) fun _ => id
  show List.Forall₂ _ (params.pairs.flatMap fun pair => expressionsOf pair.1 pair.2) _
  change List.Forall₂ _ params.pairs w at hw
  generalize params.pairs = pairs at hw
  unfold Where.conditions
  induction hw with
  | nil => exact .nil
  | cons h _ ih =>
    rw [List.flatMap_cons, List.flatMap_cons]
    exact List.rel_append h ih

end Filter
end TableGateway
