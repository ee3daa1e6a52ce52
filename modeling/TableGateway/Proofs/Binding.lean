import TableGateway.Gateway.Read
import TableGateway.Proofs.Denylist
import TableGateway.Proofs.Provenance

/-!
# Positional binding

A database binds the parameters of a statement to its question marks in order. The readings that are
built from the filters of a request have a question mark for each parameter, and one more for each
filter expression whose operator is itself written with a question mark: `?&`, `?|`, `?` and `@?`. With
any of these, the marks and the parameters do not match. Main statement: `Reads.binds_iff`.
-/
namespace TableGateway

def placeholders (sql : String) : Nat := (Scan.of sql).code.count '?'

/-- The names of the table hold neither quotes nor question marks. -/
def Table.Unmarked (table : Table) : Prop := ∀ s ∈ table.names, '\'' ∉ s.toList ∧ '?' ∉ s.toList

variable {σ : Type}

/-- The conditions that a cursor puts on the rows of a window. -/
def CursorFilter (source : SchemaSource σ) (table : Table) (w : Where) : Prop :=
  ∃ column ∈ table.columns, ∃ comparison cursor t,
    ((cursorCondition source column comparison cursor).run t).1 = .ok w

/-- The statements that read the rows of a table by the filters of a request: counting them, and
reading any columns of them in any order, between any cursors and on any page. -/
inductive Reads (source : SchemaSource σ) (table : Table) (params : Params) : Statement → Prop where
  | count (t : σ) (w : Where) (h : ((Filter.conditions source table params).run t).1 = .ok w) :
    Reads source table params (.count table.name w)
  | select (t : σ) (w : Where) (h : ((Filter.conditions source table params).run t).1 = .ok w)
    (projection : Projection) (hp : ∀ s ∈ projection.names, s ∈ table.names)
    (order : List OrderTerm) (ho : ∀ term ∈ order, term.column ∈ table.names)
    (after before : Where) (ha : CursorFilter source table after)
    (hb : CursorFilter source table before) (page : Option Page) :
    Reads source table params
      (.select { table := table.name, projection, filter := w ++ after ++ before, order, page })

/-- Outside literals anything may stand, and in them anything but quotes. -/
def openManner : Manner where
  code _ := True
  literal s := '\'' ∉ s.toList
  code_of_sql _ _ := trivial
  quote_not_mem _ h := h
  english := by decide

theorem Table.Unmarked.word {table : Table} (h : table.Unmarked) :
    ∀ s ∈ table.names, openManner.Word s := by
  intro s hs c hc
  refine ⟨trivial, ?_, ?_⟩
  · rintro rfl
    exact (h s hs).1 hc
  · rintro rfl
    exact (h s hs).2 hc

theorem cursorCondition_unmarked (source : SchemaSource σ) (column : Column)
    (comparison : Comparison) (cursor : Option String) :
    (cursorCondition source column comparison cursor).Ends
      (fun w => ∀ c ∈ w.conditions, c.predicate.isMarked = false) (fun _ => True) := by
  unfold cursorCondition
  split
  · exact .pure (by simp [Where.conditions])
  · refine .bind (.any _) fun text _ => ?_
    refine .bind (Filter.compareWith_ends source column comparison text).values fun p hp => .pure ?_
    obtain ⟨v, rfl⟩ := hp
    simp [Where.conditions, Conjunct.conditions, Predicate.isMarked]

/-- Conditions and expressions that belong together have the same operators. -/
theorem countP_marked {table : Table} {es : List FilterExpr} {cs : List Condition}
    (h : List.Forall₂ (Filter.Answers table) es cs) :
    cs.countP (·.predicate.isMarked) = es.countP (·.operator.isMarked) := by
  induction h with
  | nil => rfl
  | cons answers _ ih => rw [List.countP_cons, List.countP_cons, ih, answers.marked]

/-- A statement of the table with literals that have no quotes. -/
theorem Statement.placeholders_eq {table : Table} (hn : table.Unmarked) {st : Statement}
    (hst : st.IsOf table fun s => '\'' ∉ s.toList) :
    placeholders st.sql = st.params.length + st.conditions.countP (·.predicate.isMarked) :=
  (st.spells (m := openManner) (fun s hs => hn.word s (hst.names s hs)) hst.literals).marks

variable {source : SchemaSource σ} {table : Table} {params : Params} {st : Statement}

/-- What a cursor adds is of the table, and is not marked. -/
theorem CursorFilter.isOf {L : String → Prop} {w : Where} (h : CursorFilter source table w) :
    w.IsOf table L ∧ ∀ c ∈ w.conditions, c.predicate.isMarked = false := by
  obtain ⟨column, hcolumn, comparison, cursor, t, h⟩ := h
  have isOf := cursorCondition_ends (L := L) source hcolumn comparison cursor t
  have unmarked := cursorCondition_unmarked source column comparison cursor t
  rw [h] at isOf unmarked
  exact ⟨isOf.of_ok, unmarked.of_ok⟩

theorem CursorFilter.countP_marked {w : Where} (h : CursorFilter source table w) :
    w.conditions.countP (·.predicate.isMarked) = 0 := by
  rw [List.countP_eq_zero]
  intro c hc
  simp [(h.isOf (L := fun _ => True)).2 c hc]

/-- The conditions that a request's filters become. -/
theorem conditions_isOf {t : σ} {w : Where}
    (h : ((Filter.conditions source table params).run t).1 = .ok w) :
    w.IsOf table (fun s => '\'' ∉ s.toList) ∧
      w.conditions.countP (·.predicate.isMarked) =
        params.expressions.countP (·.operator.isMarked) := by
  have answers := Filter.conditions_ends source table params t
  rw [h] at answers
  exact ⟨.of_answers answers.of_ok fun e _ s hs => Denylist.checkItem_quote hs.checked,
    countP_marked answers.of_ok⟩

/-- A reading has a question mark for each parameter, and one for each operator that is written with
one. -/
theorem Reads.placeholders_eq (hn : table.Unmarked) (h : Reads source table params st) :
    placeholders st.sql = st.params.length + params.expressions.countP (·.operator.isMarked) := by
  cases h with
  | count t w h =>
    obtain ⟨isOf, marks⟩ := conditions_isOf h
    rw [Statement.placeholders_eq hn (.count isOf), ← marks]
    rfl
  | select t w h projection hp order ho after before ha hb page =>
    obtain ⟨isOf, marks⟩ := conditions_isOf h
    rw [Statement.placeholders_eq hn (.select ((isOf.append ha.isOf.1).append hb.isOf.1) hp ho page)]
    simp only [Statement.conditions, Where.conditions_append, List.countP_append, marks,
      ha.countP_marked, hb.countP_marked, Nat.add_zero]

/-- A reading binds its parameters to its question marks one by one exactly if no filter expression of
the request asks for an operator that is written with a question mark. -/
theorem Reads.binds_iff (hn : table.Unmarked) (h : Reads source table params st) :
    placeholders st.sql = st.params.length ↔
      ∀ e ∈ params.expressions, e.operator.isMarked = false := by
  rw [h.placeholders_eq hn]
  have none : params.expressions.countP (·.operator.isMarked) = 0 ↔
      ∀ e ∈ params.expressions, e.operator.isMarked = false := by
    simp [List.countP_eq_zero]
  rw [← none]
  omega

def postsWithMetadata : Table :=
  { name := "posts", columns := [
      { name := "id", tag := "integer", type := .scalar .integer, isKey := true },
      { name := "metadata", tag := "jsonb", type := .scalar .jsonb }] }

theorem postsWithMetadata_unmarked : postsWithMetadata.Unmarked := by
  have all : postsWithMetadata.names.all (fun s => !s.toList.contains '\'' && !s.toList.contains '?')
      = true := by decide
  intro s hs
  simpa using List.all_eq_true.mp all s hs

/-- With `?` for an operator there are two question marks and one parameter. -/
theorem jsonexists_misbinds :
    ∃ st, Reads (.fixed {}) postsWithMetadata [("metadata", ["jsonexists.a"])] st ∧
      st.sql = "SELECT COUNT(*) AS count FROM posts WHERE metadata ? ?" ∧
      placeholders st.sql = 2 ∧ st.params.length = 1 := by
  refine ⟨_, .count () [.one { column := "metadata", predicate := .keyExists "a" }] ?_, ?_, ?_, ?_⟩
  · rfl
  · decide
  · decide
  · rfl

theorem binds_haskey :
    postsWithMetadata.Unmarked ∧
      ∃ st, Reads (.fixed {}) postsWithMetadata [("metadata", ["haskey.a"])] st ∧
        (placeholders st.sql = st.params.length ↔
          ∀ e ∈ Params.expressions [("metadata", ["haskey.a"])], e.operator.isMarked = false) := by
  have reads : Reads (.fixed {}) postsWithMetadata [("metadata", ["haskey.a"])]
      (.count "posts" [.one { column := "metadata", predicate := .hasKey "a" }]) :=
    .count () _ rfl
  exact ⟨postsWithMetadata_unmarked, _, reads, reads.binds_iff postsWithMetadata_unmarked⟩

end TableGateway
