import TableGateway.Proofs.Projection
import TableGateway.Proofs.ReadBack
import TableGateway.Proofs.Window

/-!
# Cursors that are accepted

A cursor is the text of a cell, and comes back as a text to be converted to the type of its column. Null
has no text: its cursor is empty, and the types whose values cannot be read from an empty text reject
it. Main statement: `Gateway.cursors_accepted`.
-/
namespace TableGateway

variable {σ δ : Type}

/-! ## The texts of cells -/

/-- An empty text is no value of the type. -/
def ScalarType.rejectsEmpty : ScalarType → Bool
  | smallInt | integer | bigInt | real | double | numeric | boolean => true
  | _ => false

/-- The cell is null or a value of the type. -/
def Cell.IsNullOr (type : ScalarType) (c : Cell) : Prop := c = .null ∨ c.IsValue type

/-- The text that stands for a cell in a cursor. -/
def Cell.cursorText (c : Cell) : String := c.text?.getD ""

namespace Convert

/-- Whether there is a value for an empty text. -/
theorem scalar_empty (type : ScalarType) :
    if type.rejectsEmpty then ∃ e, scalar type (.str "") = .error e ∧ e.isValidation = true
    else ∃ c, scalar type (.str "") = .ok c := by
  cases type with
  | smallInt | integer | bigInt | real | double | numeric | boolean => exact ⟨_, rfl, rfl⟩
  | json | jsonb | uuid | bit _ | varBit _ | xml | text | bytea | timestamp | timestampTz | date | time
  | interval | other _ => exact ⟨_, rfl⟩

/-- The text of a value is converted, to a value or to itself. -/
theorem scalar_cursorText {type : ScalarType} {c : Cell} (h : c.IsValue type) :
    ∃ v, scalar type (.str c.cursorText) = .ok v := by
  cases temporal : type.isTemporal with
  | false =>
    obtain ⟨text, htext, converted⟩ := scalar_text h temporal
    exact ⟨c, by rw [Cell.cursorText, htext]; exact converted⟩
  | true =>
    cases h with
    | date d => exact ⟨_, rfl⟩
    | timestamp t => exact ⟨_, rfl⟩
    | _ => cases temporal

/-- The cursor of a cell is rejected only if the cell is null and its type rejects the empty text. -/
theorem ofText_cursorText (source : SchemaSource σ) {type : ScalarType} {c : Cell}
    (h : c.IsNullOr type) :
    if c.isNull && type.rejectsEmpty then
      ∃ e, (ofText source (.scalar type) c.cursorText).Has (.error e) ∧ e.isValidation = true
    else ∃ v, (ofText source (.scalar type) c.cursorText).Has (.ok v) := by
  rw [ofText_scalar]
  rcases h with rfl | value
  · have empty := scalar_empty type
    rw [Cell.isNull, Bool.true_and]
    split at empty
    · rename_i rejects
      rw [if_pos rejects]
      obtain ⟨e, he, validation⟩ := empty
      exact ⟨e, fun _ => he, validation⟩
    · rename_i accepts
      rw [if_neg accepts]
      obtain ⟨v, hv⟩ := empty
      exact ⟨v, fun _ => hv⟩
  · obtain ⟨v, hv⟩ := scalar_cursorText value
    rw [value.isNull, Bool.false_and, if_neg Bool.false_ne_true]
    exact ⟨v, fun _ => hv⟩

end Convert

/-! ## The same request with a cursor -/

/-- Reading the table is not denied in the session. -/
def Gateway.Grants (g : Gateway σ δ) (table : Table) (u : Session σ δ) : Prop :=
  (g.config.database.checkPermissions &&
    isDenied (g.db.query (Privilege.select.question table) u.database).1) = false

/-- The row is one of an answer about the table. -/
def Database.Returns (db : Database δ) (table : Table) (row : Row) : Prop :=
  ∃ s d rows, s.table = table.name ∧ (db.query (.select s) d).1 = .ok rows ∧ row ∈ rows

theorem Gateway.cursorOf_eq (order : OrderTerm) (row : Row) :
    cursorOf order row = Cursor.encode (Row.cell row order.column).cursorText := by
  unfold cursorOf Row.cell Cell.cursorText
  cases Entries.get? order.column row <;> rfl

variable {g : Gateway σ δ} {snapshot : Snapshot} {table : Table} {params : Params}

/-- A cursor that is no value is refused on either side. -/
theorem WindowPlan.Of.settle_error {w : WindowPlan} (h : w.Of g params) {cursor : String} {e : Fault}
    (rejected : ∀ comparison,
      (cursorCondition g.source w.column comparison (some cursor)).Has (.error e)) :
    ∀ key ∈ ["after", "before"],
      (g.settle w.snapshot w.table (params.set key cursor)).Has (.error e) := by
  intro key hkey
  have side : key = "after" ∨ key = "before" := by simpa using hkey
  obtain ⟨order, plan, filter⟩ := h.agree (params.set_agree (by
    rcases side with rfl | rfl <;> decide) cursor) (params.pageSize_cursor side cursor)
  unfold Gateway.settle
  rcases side with rfl | rfl
  · rw [CursorWindow.ofParams_after h.window, order]
    refine .bind (Lookup.has_known _) (.bind (Lookup.has_known _) ?_)
    rw [plan]
    refine .bind (Lookup.has_known _) (.bind filter ?_)
    rw [h.column]
    exact .bind (Lookup.has_known _) (.bind_error (rejected _))
  · rw [CursorWindow.ofParams_before h.window, order]
    refine .bind (Lookup.has_known _) (.bind (Lookup.has_known _) ?_)
    rw [plan]
    refine .bind (Lookup.has_known _) (.bind filter ?_)
    rw [h.column]
    exact .bind (Lookup.has_known _) (.bind h.after (.bind_error (rejected _)))

/-- A cursor that is a value is settled on either side. -/
theorem WindowPlan.Of.settle_ok {w : WindowPlan} (h : w.Of g params) {cursor : String}
    (accepted : ∀ comparison, ∃ condition,
      (cursorCondition g.source w.column comparison (some cursor)).Has (.ok condition)) :
    ∀ key ∈ ["after", "before"], ∃ w',
      (g.settle w.snapshot w.table (params.set key cursor)).Has (.ok w') := by
  intro key hkey
  simp only [List.mem_cons, List.not_mem_nil, or_false] at hkey
  rcases hkey with rfl | rfl
  · obtain ⟨condition, hcondition⟩ := accepted w.order.direction.after
    exact ⟨_, (h.set_after hcondition).settle⟩
  · obtain ⟨condition, hcondition⟩ := accepted w.order.direction.before
    exact ⟨_, (h.set_before hcondition).settle⟩

namespace Gateway

variable {name : String} {u : Session σ δ}

/-- A request that cannot be settled is refused where reading is granted. -/
theorem window_error (fixes : g.source.Fixes snapshot) (resolved : snapshot.resolve name = .ok table)
    (grants : g.Grants table u) {e : Fault} (settled : (g.settle snapshot table params).Has (.error e)) :
    ((g.window name params).run u).1 = .error e := by
  have run := planWindow_run fixes resolved settled u
  rw [grants, if_neg Bool.false_ne_true] at run
  rw [window_eq, Action.run_bind, run]

/-- A request that is settled goes on to read where reading is granted. -/
theorem window_reads (fixes : g.source.Fixes snapshot) (resolved : snapshot.resolve name = .ok table)
    (grants : g.Grants table u) {w : WindowPlan}
    (settled : (g.settle snapshot table params).Has (.ok w)) :
    ∃ v, (g.planWindow name params).Gives u w v ∧
      (g.window name params).run u = (g.readWindow w).run v := by
  have run := planWindow_run fixes resolved settled u
  rw [grants, if_neg Bool.false_ne_true] at run
  refine ⟨_, Prod.ext run rfl, ?_⟩
  rw [window_eq, Action.run_bind, run]

end Gateway

/-- Each cursor of a window is accepted as the cursor of the same request, before or after which its rows
are to come, unless the cell it stands for is null and its type rejects the empty text: then the
request is refused as the client's mistake. -/
theorem Gateway.cursors_accepted (fixes : g.source.Fixes snapshot) {name : String}
    (resolved : snapshot.resolve name = .ok table) {order : OrderTerm}
    (ordered : cursorOrder table params = .ok order) {column : Column}
    (found : table.resolve order.column = .ok column) {type : ScalarType}
    (typed : column.type = .scalar type)
    (values : ∀ row, g.db.Returns table row → (Row.cell row order.column).IsNullOr type)
    {s t : Session σ δ} {c : Connection} (answered : (g.window name params).Gives s c t) :
    ∀ edge ∈ c.edges, ∃ row, g.db.Returns table row ∧ edge.cursor = cursorOf order row ∧
      ∀ key ∈ ["after", "before"], ∀ u, g.Grants table u →
        if (Row.cell row order.column).isNull && type.rejectsEmpty then
          ∃ e, ((g.window name (params.set key edge.cursor)).run u).1 = .error e ∧
            e.isValidation = true
        else ∃ w v, (g.planWindow name (params.set key edge.cursor)).Gives u w v ∧
          (g.window name (params.set key edge.cursor)).run u = (g.readWindow w).run v := by
  rw [window_eq, Action.gives_bind] at answered
  obtain ⟨w, v, planned, opened⟩ := answered
  obtain ⟨rfl, named, of⟩ := planWindow_gives fixes planned
  obtain rfl : w.table = table := Except.ok.inj (named.symm.trans resolved)
  obtain rfl : w.order = order := Except.ok.inj (of.order.symm.trans ordered)
  obtain rfl : w.column = column := Except.ok.inj (of.column.symm.trans found)
  obtain ⟨d, rows, hrows, opens⟩ := readWindow_opens opened
  intro edge hedge
  obtain ⟨row, hrow, marks⟩ := exists_of_forall₂ opens.edges edge hedge
  have returned : g.db.Returns w.table row := by
    refine ⟨_, d, rows, rfl, hrows, ?_⟩
    unfold CursorWindow.cut at hrow
    split at hrow
    · exact List.mem_of_mem_take (List.mem_reverse.mp hrow)
    · exact List.mem_of_mem_take hrow
  refine ⟨row, returned, marks.cursor, fun key hkey u grants => ?_⟩
  have converted := Convert.ofText_cursorText g.source (values row returned)
  rw [← typed] at converted
  rw [marks.cursor, cursorOf_eq]
  split
  · rename_i rejected
    rw [if_pos rejected] at converted
    obtain ⟨e, he, validation⟩ := converted
    have settled := of.settle_error (fun comparison => cursorCondition_encode he comparison) key hkey
    exact ⟨e, window_error fixes resolved grants settled, validation⟩
  · rename_i kept
    rw [if_neg kept] at converted
    obtain ⟨value, hvalue⟩ := converted
    obtain ⟨w', settled⟩ := of.settle_ok
      (fun comparison => ⟨_, cursorCondition_encode hvalue comparison⟩) key hkey
    exact ⟨w', window_reads fixes resolved grants settled⟩

/-! ## The cursor of null -/

/-- Two posts, of which one has no author. -/
def anonymousRows (table : String) : List Row :=
  if table = "posts" then
    [[("author_id", .null), ("id", .int 1), ("title", .text "On names")],
      [("author_id", .int 7), ("id", .int 2), ("title", .text "On numbers")]]
  else []

def anonymousGateway : Gateway Unit Unit where
  config := {}
  source := .fixed blogSnapshot
  db := .holding (.ofRank Cell.number) anonymousRows

/-- The first two posts by their authors. -/
def byAuthor : Params := [("first", ["2"]), ("order", ["author_id"])]

/-- The first post by its author has a cursor, and that of the other one is empty. -/
theorem byAuthor_gives : ∃ c t,
    (anonymousGateway.window "posts" byAuthor).Gives { schema := (), database := () } c t ∧
      c.edges.map Edge.cursor = ["Nw==", ""] := by
  have cursors : ((anonymousGateway.window "posts" byAuthor).run
      { schema := (), database := () }).1.toOption.map (fun c => c.edges.map Edge.cursor) =
      some ["Nw==", ""] := by
    decide +kernel
  obtain ⟨c, answered, cursors⟩ := Action.gives_of_map cursors
  exact ⟨c, _, answered, cursors⟩

theorem anonymousGateway_values (row : Row) (h : anonymousGateway.db.Returns postsTable row) :
    (Row.cell row "author_id").IsNullOr .integer := by
  obtain ⟨s, d, rows, table, answered, hrow⟩ := h
  cases answered
  obtain ⟨whole, hwhole, -, rfl⟩ :=
    (s.answer_answers (Semantics.ofRank_isOrder _) (anonymousRows s.table)).mem hrow
  rcases s.projection.cell_of whole "author_id" with same | absent
  · rw [same]
    rw [table] at hwhole
    have rows : whole = [("author_id", .null), ("id", .int 1), ("title", .text "On names")] ∨
        whole = [("author_id", .int 7), ("id", .int 2), ("title", .text "On numbers")] := by
      simpa [anonymousRows, postsTable] using hwhole
    rcases rows with rfl | rfl
    · exact .inl rfl
    · exact .inr (.integer 7)
  · exact .inl absent

theorem cursors_accepted_byAuthor : ∃ c t,
    (anonymousGateway.window "posts" byAuthor).Gives { schema := (), database := () } c t ∧
      ∀ edge ∈ c.edges, ∃ row, anonymousGateway.db.Returns postsTable row ∧
        edge.cursor = Gateway.cursorOf { column := "author_id" } row ∧
        ∀ key ∈ ["after", "before"], ∀ u, anonymousGateway.Grants postsTable u →
          if (Row.cell row "author_id").isNull && ScalarType.integer.rejectsEmpty then
            ∃ e, ((anonymousGateway.window "posts" (byAuthor.set key edge.cursor)).run u).1 =
                .error e ∧
              e.isValidation = true
          else ∃ w v,
            (anonymousGateway.planWindow "posts" (byAuthor.set key edge.cursor)).Gives u w v ∧
            (anonymousGateway.window "posts" (byAuthor.set key edge.cursor)).run u =
              (anonymousGateway.readWindow w).run v := by
  obtain ⟨c, t, answered, -⟩ := byAuthor_gives
  have ordered : cursorOrder postsTable byAuthor = .ok { column := "author_id" } := by decide +kernel
  have found : postsTable.resolve "author_id" =
      .ok { name := "author_id", tag := "integer", type := .scalar .integer } := by
    decide +kernel
  exact ⟨c, t, answered, Gateway.cursors_accepted (fun _ => rfl) (by decide +kernel) ordered
    found rfl anonymousGateway_values answered⟩

/-- The cursor of the post without an author is refused. -/
theorem byAuthor_refuses_cursor : ∃ c t,
    (anonymousGateway.window "posts" byAuthor).Gives { schema := (), database := () } c t ∧
      (∃ edge ∈ c.edges, edge.cursor = "") ∧
      ((anonymousGateway.window "posts" (byAuthor.set "after" "")).run
        { schema := (), database := () }).1.map (fun _ => ()) =
          .error (.validation "Invalid integer value: \"\"") := by
  obtain ⟨c, t, answered, cursors⟩ := byAuthor_gives
  refine ⟨c, t, answered, List.mem_map.mp ?_, by decide +kernel⟩
  rw [cursors]
  decide

end TableGateway
