import TableGateway.Proofs.FilterCost
import TableGateway.Proofs.Meaning
import TableGateway.Proofs.ParamOrder
import TableGateway.Proofs.Steadiness

/-!
# Filters that are composed

A conjunction is given as data: single conditions, and groups of alternatives. Written as the parameters
of a request it is read as it was meant. The request is accepted if each of its conditions is, and the
clause has a part for each of its parts, in the order of the parameters. Main statement:
`Filter.conditions_compose`.
-/
namespace TableGateway.Filter

/-! ## Conjunctions as data -/

/-- A part of a conjunction as data: a column with the text of its expression, or alternatives of this
kind. -/
inductive Part where
  | plain (column expression : String)
  | group (alternatives : List (String × String))

namespace Part

/-- The columns and expressions of the part. -/
def terms : Part → List (String × String)
  | plain column expression => [(column, expression)]
  | group alternatives => alternatives

/-- The text of an alternative: `column.expression`. -/
def text (term : String × String) : List Char := term.1.toList ++ '.' :: term.2.toList

/-- The parameter that the part is written as: `column=expression`, or `or=(…,…)` for a group. -/
def pair : Part → String × String
  | plain column expression => (column, expression)
  | group alternatives =>
    ("or", String.ofList ('(' :: [','].intercalate (alternatives.map text) ++ [')']))

/-- The column of a single condition names a filter, and no group. A group has alternatives; their texts
have no white space around them, their parentheses match, and their commas stand within these. -/
def Proper : Part → Prop
  | plain column _ => Params.isReserved column = false ∧ column ≠ "or" ∧ '.' ∉ column.toList
  | group alternatives => alternatives ≠ [] ∧ ∀ term ∈ alternatives,
      '.' ∉ term.1.toList ∧ Text.trim (text term) = text term ∧ Select.isWhole 0 (text term) = true

def params (parts : List Part) : Params := .ofPairs (parts.map pair)

/-- The parts by the names of their parameters; those of the same name stay in order. -/
def ordered (parts : List Part) : List Part := parts.mergeSort fun p q => Params.nameLe p.pair q.pair

/-- What the part becomes, with the conditions for its terms. -/
def conjunct : Part → List Condition → Conjunct
  | plain _ _, [c] => .one c
  | _, cs => .anyOf cs

/-- The text of the part in a statement: the conditions with `OR` between them, and for a group with
parentheses around them. -/
def fragment : Part → List Condition → String
  | plain _ _, cs => joined " OR " (cs.map Condition.sql)
  | group _, cs => "(" ++ joined " OR " (cs.map Condition.sql) ++ ")"

/-! ## Parameters -/

theorem Proper.isFilter {p : Part} (h : p.Proper) : Params.isFilter p.pair.1 = true := by
  cases p with
  | plain column expression =>
    obtain ⟨free, -, noPoint⟩ := h
    simp [pair, Params.isFilter, free, noPoint]
  | group alternatives =>
    show Params.isFilter "or" = true
    decide

/-- The filters of the request are the parts in their order. -/
theorem params_pairs {parts : List Part} (proper : ∀ p ∈ parts, p.Proper) :
    (params parts).pairs = (ordered parts).map pair := by
  have filters : ∀ param ∈ parts.map pair, Params.isFilter param.1 = true := by
    intro param hparam
    obtain ⟨p, hp, rfl⟩ := List.mem_map.mp hparam
    exact (proper p hp).isFilter
  rw [params, Params.pairs_ofPairs filters, ordered]
  exact (List.map_mergeSort (f := pair) (s := Params.nameLe) fun _ _ _ _ => rfl).symm

end Part

/-! ## Parts are read -/

variable {σ : Type} (source : SchemaSource σ) (table : Table)

/-- The conditions for some terms, in turn. -/
def read (terms : List (String × String)) : Lookup σ (List Condition) :=
  terms.mapM fun term => condition source table term.1 term.2

theorem alternative_text {term : String × String} (h : '.' ∉ term.1.toList) :
    alternative source table (Part.text term) = condition source table term.1 term.2 := by
  rw [alternative, Part.text, Text.cut?_append _ h]
  simp

theorem alternatives_group {group : List (String × String)} (proper : (Part.group group).Proper) :
    alternatives (Part.group group).pair.2 = group.map Part.text := by
  obtain ⟨any, proper⟩ := proper
  have whole : ∀ text ∈ group.map Part.text, Select.isWhole 0 text = true := by
    intro text htext
    obtain ⟨term, hterm, rfl⟩ := List.mem_map.mp htext
    exact (proper term hterm).2.2
  have trimmed : ∀ text ∈ group.map Part.text, text ≠ [] ∧ Text.trim text = text := by
    intro text htext
    obtain ⟨term, hterm, rfl⟩ := List.mem_map.mp htext
    exact ⟨by simp [Part.text], (proper term hterm).2.1⟩
  have split := Select.splitTopLevel_intercalate (by simpa using any) whole trimmed
  rw [alternatives, Part.pair, String.toList_ofList]
  generalize [','].intercalate (group.map Part.text) = inner at split
  have outer : Text.trim ('(' :: inner ++ [')']) = '(' :: inner ++ [')'] :=
    Text.trim_enclosed (by decide) (by decide) inner
  have inside : Text.unwrap? '(' ')' ('(' :: inner ++ [')']) = some inner :=
    Text.unwrap?_eq_some_iff.mpr rfl
  simp only [outer, inside, Option.getD_some, split]

/-- Each part is read as its terms are. -/
theorem conjunct_pair {p : Part} (proper : p.Proper) :
    conjunct source table p.pair.1 p.pair.2 = do return p.conjunct (← read source table p.terms) := by
  cases p with
  | plain column expression =>
    obtain ⟨-, noGroup, -⟩ := proper
    show (if column = "or" then _ else _) = _
    rw [if_neg noGroup]
    simp [read, Part.terms, Part.conjunct, Part.pair]
  | group group =>
    have texts : (group.map Part.text).mapM (alternative source table) = read source table group := by
      rw [List.mapM_map]
      exact Lookup.mapM_congr fun term hterm => alternative_text source table (proper.2 term hterm).1
    show orGroup source table (Part.group group).pair.2 = _
    rw [orGroup, alternatives_group proper, texts]
    -- The terms of a group are some, so that it has conditions.
    cases group with
    | nil => exact absurd rfl proper.1
    | cons term rest => simp [read, Part.terms, Part.conjunct]

theorem conditions_params {parts : List Part} (proper : ∀ p ∈ parts, p.Proper) :
    conditions source table (Part.params parts) =
      (Part.ordered parts).mapM fun p => do return p.conjunct (← read source table p.terms) := by
  show (Part.params parts).pairs.mapM (fun pair => conjunct source table pair.1 pair.2) = _
  rw [Part.params_pairs proper, List.mapM_map]
  exact Lookup.mapM_congr fun p hp =>
    conjunct_pair source table (proper p (List.mem_mergeSort.mp hp))

/-! ## Clauses -/

namespace Part

variable {p : Part} {cs : List Condition}

theorem conjunct_sql (h : cs.length = p.terms.length) : (p.conjunct cs).sql = p.fragment cs := by
  cases p with
  | plain column expression =>
    obtain ⟨c, rfl⟩ := List.length_eq_one_iff.mp h
    rfl
  | group group => rfl

theorem conjunct_params (h : cs.length = p.terms.length) :
    (p.conjunct cs).params = cs.flatMap Condition.params := by
  cases p with
  | plain column expression =>
    obtain ⟨c, rfl⟩ := List.length_eq_one_iff.mp h
    exact (List.append_nil _).symm
  | group group => rfl

/-- A part is true of a row if one of its conditions is. -/
theorem conjunct_true (h : cs.length = p.terms.length) (m : Semantics) (row : Row) :
    m.conjunct row (p.conjunct cs) = some true ↔ ∃ c ∈ cs, m.condition row c = some true := by
  cases p with
  | plain column expression =>
    obtain ⟨c, rfl⟩ := List.length_eq_one_iff.mp h
    simp [conjunct, Semantics.conjunct]
  | group group =>
    show anyTrue (cs.map (m.condition row)) = some true ↔ _
    rw [anyTrue_eq_true_iff]
    simp

end Part

/-- For each part there are as many conditions as terms. -/
def Matched (ps : List Part) (css : List (List Condition)) : Prop :=
  List.Forall₂ (fun p cs => cs.length = p.terms.length) ps css

/-- The clause is the one for the parts, with the conditions for the terms of each: its fragments and
its parameters are theirs in order, and it chooses the rows of which each part is true. -/
structure Composed (parts : List Part) (css : List (List Condition)) (w : Where) : Prop where
  matched : Matched (Part.ordered parts) css
  fragments : w.fragments = List.zipWith Part.fragment (Part.ordered parts) css
  count : w.fragments.length = parts.length
  sql : parts ≠ [] → w.sql =
    " WHERE " ++ joined " AND " (List.zipWith Part.fragment (Part.ordered parts) css)
  params : w.params = css.flatten.flatMap Condition.params
  meaning : ∀ (m : Semantics) (row : Row), m.chooses w row = true ↔
    ∀ cs ∈ css, ∃ c ∈ cs, m.condition row c = some true

section

variable {ps parts : List Part} {css : List (List Condition)}

theorem Matched.fragments (h : Matched ps css) :
    Where.fragments (List.zipWith Part.conjunct ps css) = List.zipWith Part.fragment ps css := by
  induction h with
  | nil => rfl
  | cons h _ ih =>
    rw [Where.fragments] at ih ⊢
    rw [List.zipWith_cons_cons, List.zipWith_cons_cons, List.map_cons, ih, Part.conjunct_sql h]

theorem Matched.params (h : Matched ps css) :
    Where.params (List.zipWith Part.conjunct ps css) = css.flatten.flatMap Condition.params := by
  induction h with
  | nil => rfl
  | cons h _ ih =>
    rw [Where.params] at ih ⊢
    rw [List.zipWith_cons_cons, List.flatMap_cons, ih, Part.conjunct_params h, List.flatten_cons,
      List.flatMap_append]

theorem Matched.chooses (h : Matched ps css) (m : Semantics) (row : Row) :
    m.chooses (List.zipWith Part.conjunct ps css) row = true ↔
      ∀ cs ∈ css, ∃ c ∈ cs, m.condition row c = some true := by
  induction h with
  | nil => simp [Semantics.chooses]
  | cons h _ ih =>
    rw [Semantics.chooses] at ih ⊢
    rw [List.zipWith_cons_cons, List.all_cons, Bool.and_eq_true, ih, beq_iff_eq, Part.conjunct_true h,
      List.forall_mem_cons]

theorem Matched.composed (h : Matched (Part.ordered parts) css) :
    Composed parts css (List.zipWith Part.conjunct (Part.ordered parts) css) := by
  have same : (Part.ordered parts).length = parts.length := List.length_mergeSort parts
  have count : (Where.fragments (List.zipWith Part.conjunct (Part.ordered parts) css)).length =
      parts.length := by
    rw [h.fragments, List.length_zipWith, ← h.length_eq, Nat.min_self, same]
  refine ⟨h, h.fragments, count, fun any => ?_, h.params, h.chooses⟩
  rw [Where.sql, h.fragments, if_neg]
  intro empty
  rw [List.isEmpty_iff.mp empty] at count
  exact any (List.length_eq_zero_iff.mp count.symm)

end

/-! ## Requests -/

/-- The conditions for all parts, in turn. -/
def readAll (parts : List Part) : Lookup σ (List (List Condition)) :=
  (Part.ordered parts).mapM fun p => read source table p.terms

theorem readAll_matched (parts : List Part) :
    (readAll source table parts).Ends (Matched (Part.ordered parts)) fun _ => True := by
  refine Lookup.Ends.mapM fun p _ => ?_
  exact (Lookup.Ends.mapM fun term _ => .any _).mono (fun _ made => made.length_eq.symm) fun _ => id

theorem read_steady {source : SchemaSource σ} (steady : source.current.Steady)
    (terms : List (String × String)) : (read source table terms).Steady :=
  .of_alike (.mapM fun term _ => condition_alike (SchemaSource.agree_self steady)
    (fun _ _ _ _ => trivial) term.1 term.2)

/-- A steady source gives the conditions for all parts in turn if it gives each of them. -/
theorem readAll_gives_iff {source : SchemaSource σ} (steady : source.current.Steady)
    (parts : List Part) (t : σ) :
    (∃ css u, (readAll source table parts).Gives t css u) ↔
      ∀ p ∈ parts, ∀ term ∈ p.terms, ∃ c u, (condition source table term.1 term.2).Gives t c u := by
  -- In turn, each lookup starts where the one before it ends, which is the same to a steady source.
  have one := condition_steady steady table
  constructor
  · rintro ⟨css, u, given⟩ p hp term hterm
    obtain ⟨_, _, _, ofPart⟩ := Lookup.exists_gives_of_mapM given p (List.mem_mergeSort.mpr hp)
    obtain ⟨_, c, _, ofTerm⟩ := Lookup.exists_gives_of_mapM ofPart term hterm
    exact ⟨c, (one _ _).gives ofTerm t⟩
  · intro given
    have parted : ∀ p ∈ Part.ordered parts, ∃ cs u, (read source table p.terms).Gives t cs u := by
      intro p hp
      have ofTerm : ∀ term : String × String, (condition source table term.1 term.2).Steady :=
        fun term => one term.1 term.2
      exact Lookup.Steady.gives_mapM ofTerm (given p (List.mem_mergeSort.mp hp))
    have ofPart : ∀ p : Part, (read source table p.terms).Steady :=
      fun p => read_steady table steady p.terms
    exact Lookup.Steady.gives_mapM ofPart parted

/-- A conjunction that is written as parameters is read as its conditions are: in turn, by any source,
and each for itself, if the source is steady. The clause is the one for its parts. -/
theorem conditions_compose {parts : List Part} (proper : ∀ p ∈ parts, p.Proper) (t : σ) :
    ((∃ w u, (conditions source table (Part.params parts)).Gives t w u) ↔
      ∃ css u, (readAll source table parts).Gives t css u) ∧
    (source.current.Steady →
      ((∃ w u, (conditions source table (Part.params parts)).Gives t w u) ↔
        ∀ p ∈ parts, ∀ term ∈ p.terms, ∃ c u, (condition source table term.1 term.2).Gives t c u)) ∧
    ∀ w u, (conditions source table (Part.params parts)).Gives t w u →
      ∃ css, (readAll source table parts).Gives t css u ∧ Composed parts css w := by
  have gives : ∀ w u, (conditions source table (Part.params parts)).Gives t w u ↔
      ∃ css, (readAll source table parts).Gives t css u ∧
        w = List.zipWith Part.conjunct (Part.ordered parts) css := by
    intro w u
    rw [conditions_params source table proper, Lookup.gives_mapM_zipWith]
    rfl
  have accepted : (∃ w u, (conditions source table (Part.params parts)).Gives t w u) ↔
      ∃ css u, (readAll source table parts).Gives t css u := by
    constructor
    · rintro ⟨w, u, given⟩
      obtain ⟨css, made, -⟩ := (gives w u).mp given
      exact ⟨css, u, made⟩
    · rintro ⟨css, u, made⟩
      exact ⟨_, u, (gives _ u).mpr ⟨css, made, rfl⟩⟩
  refine ⟨accepted, fun steady => accepted.trans (readAll_gives_iff table steady parts t), ?_⟩
  intro w u given
  obtain ⟨css, made, rfl⟩ := (gives w u).mp given
  exact ⟨css, made, ((readAll_matched source table parts).of_gives made).composed⟩

/-- Two conditions on one column, and two groups, of which the first begins with a list. -/
def tasksParts : List Part :=
  [.plain "title" "neq.d", .group [("title", "in.(a,b)"), ("id", "not.isnotnull")],
    .plain "title" "like.e*", .group [("title", "eq.(c)")]]

theorem tasksParts_proper : ∀ p ∈ tasksParts, p.Proper := by
  intro p hp
  simp only [tasksParts, List.mem_cons, List.not_mem_nil, or_false] at hp
  rcases hp with rfl | rfl | rfl | rfl
  · exact ⟨by decide, by decide, by decide⟩
  · refine ⟨by simp, fun term hterm => ?_⟩
    simp only [List.mem_cons, List.not_mem_nil, or_false] at hterm
    rcases hterm with rfl | rfl <;> decide
  · exact ⟨by decide, by decide, by decide⟩
  · refine ⟨by simp, fun term hterm => ?_⟩
    rw [List.mem_singleton.mp hterm]
    decide

def tasksClause : Where :=
  [.anyOf [{ column := "title", predicate := .oneOf false {} [.text "a", .text "b"] },
      { column := "id", negated := true, predicate := .isNotNull }],
    .anyOf [{ column := "title", predicate := .compare .eq {} (.text "(c)") }],
    .one { column := "title", predicate := .compare .ne {} (.text "d") },
    .one { column := "title", predicate := .like false "e%" }]

theorem conditions_compose_tasks :
    (∀ p ∈ tasksParts, p.Proper) ∧ (SchemaSource.fixed {}).current.Steady ∧
      (∀ p ∈ tasksParts, ∀ term ∈ p.terms,
        ∃ c u, (condition (.fixed {}) tasks term.1 term.2).Gives () c u) ∧
      ∃ css, (readAll (.fixed {}) tasks tasksParts).Gives () css () ∧
        Composed tasksParts css tasksClause := by
  have steady : (SchemaSource.fixed {}).current.Steady := fun _ _ => rfl
  have given : (conditions (.fixed {}) tasks (Part.params tasksParts)).Gives () tasksClause () := rfl
  obtain ⟨-, each, composed⟩ := conditions_compose (.fixed {}) tasks tasksParts_proper ()
  exact ⟨tasksParts_proper, steady, (each steady).mp ⟨_, _, given⟩, composed _ _ given⟩

end TableGateway.Filter
