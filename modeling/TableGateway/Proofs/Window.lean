import TableGateway.Proofs.CursorParams
import TableGateway.Proofs.Encoding
import TableGateway.Proofs.Projection
import TableGateway.Proofs.Steadiness

/-!
# Windows

A request for a window is settled before a statement about its rows is sent: `Gateway.window_eq`. While
the source supplies one snapshot, what is settled depends on the parameters alone, and a cursor changes
nothing but the condition that it stands for (`WindowPlan.Of.after`, `WindowPlan.Of.before`).
-/
namespace TableGateway

variable {σ δ α β : Type}

/-! ## Settled lookups -/

namespace Lookup

/-- The lookup has the outcome in all states of the source. -/
def Has (x : Lookup σ α) (r : Except Fault α) : Prop := ∀ t, (x.run t).1 = r

theorem has_known (r : Except Fault α) : Has (known r : Lookup σ α) r := fun _ => rfl

theorem Has.of_known {r r' : Except Fault α} (h : Has (known r : Lookup σ α) r') (t : σ) : r = r' := h t

theorem has_pure (a : α) : Has (pure a : Lookup σ α) (.ok a) := fun _ => rfl

theorem Has.bind {x : Lookup σ α} {f : α → Lookup σ β} {a : α} {r : Except Fault β}
    (hx : x.Has (.ok a)) (hf : (f a).Has r) : (x >>= f).Has r := by
  intro t
  rw [run_bind, hx t]
  exact hf _

theorem Has.bind_error {x : Lookup σ α} {f : α → Lookup σ β} {e : Fault} (hx : x.Has (.error e)) :
    (x >>= f).Has (.error e) := by
  intro t
  rw [run_bind, hx t]

/-- A steady lookup has the outcome that it has once. -/
theorem Steady.has {x : Lookup σ α} (h : x.Steady) {t : σ} {r : Except Fault α}
    (once : (x.run t).1 = r) : x.Has r := fun u => (h u t).trans once

/-- A steady lookup of two steps has a value if both have. -/
theorem Has.of_bind {x : Lookup σ α} {f : α → Lookup σ β} {b : β} (steady : x.Steady)
    (steadies : ∀ a, (f a).Steady) {t : σ} (h : ((x >>= f).run t).1 = .ok b) :
    ∃ a, x.Has (.ok a) ∧ ((f a).run t).1 = .ok b := by
  rw [run_bind] at h
  cases hx : (x.run t).1 with
  | ok a =>
    rw [hx] at h
    exact ⟨a, steady.has hx, (steadies a _ _).trans h⟩
  | error e =>
    rw [hx] at h
    cases h

end Lookup

/-- The source supplies the one snapshot in all of its states. -/
def SchemaSource.Fixes (source : SchemaSource σ) (snapshot : Snapshot) : Prop :=
  source.current.Has (.ok snapshot)

theorem SchemaSource.Fixes.steady {source : SchemaSource σ} {snapshot : Snapshot}
    (h : source.Fixes snapshot) : source.current.Steady := fun t u => (h t).trans (h u).symm

/-! ## The plan of a window -/

/-- What is settled of a request for a window. -/
structure WindowPlan where
  snapshot : Snapshot
  table : Table
  window : CursorWindow
  order : OrderTerm
  plan : Plan
  filter : Where
  column : Column
  after : Where
  before : Where

/-- The selection of a window's rows, with one row more. -/
def WindowPlan.selection (w : WindowPlan) (limits : Limits) : Selection where
  table := w.table.name
  projection := w.plan.projection
  filter := w.filter ++ w.after ++ w.before
  order := [if w.window.isBackward then w.order.reversed else w.order]
  page := some ⟨0, w.window.size limits + 1⟩

namespace Gateway

variable (g : Gateway σ δ)

/-- Settle a request for a window of a table. -/
def settle (snapshot : Snapshot) (table : Table) (params : Params) : Lookup σ WindowPlan := do
  let window ← known (CursorWindow.ofParams params g.config.limits)
  let order ← known (cursorOrder table params)
  let plan ← known (Plan.ofParams g.config.complexity snapshot table params [order.column])
  let filter ← Filter.conditions g.source table params
  let column ← known (table.resolve order.column)
  let after ← cursorCondition g.source column order.direction.after window.after
  let before ← cursorCondition g.source column order.direction.before window.before
  return { snapshot, table, window, order, plan, filter, column, after, before }

/-- The part of a request for a window in which no statement about its rows is sent. -/
def planWindow (name : String) (params : Params) : Action σ δ WindowPlan := do
  let snapshot ← g.snapshot
  let table ← g.readable snapshot name
  Session.look (g.settle snapshot table params)

/-- The part of a request for a window in which its rows are read. -/
def readWindow (w : WindowPlan) : Action σ δ Connection := do
  let total ← g.count w.table w.filter
  let rows ← g.fetch (.select (w.selection g.config.limits))
  let size := w.window.size g.config.limits
  let hasExtra := size < rows.length
  let rows := if w.window.isBackward then (rows.take size).reverse else rows.take size
  let records ← g.materialize w.snapshot w.table w.plan rows
  return {
    edges := (records.zip rows).map fun (node, row) => ⟨node, cursorOf w.order row⟩
    hasNextPage := if w.window.isBackward then w.window.before.isSome else hasExtra
    hasPreviousPage := if w.window.isBackward then hasExtra else w.window.after.isSome
    total }

theorem look_bind (x : Lookup σ α) (f : α → Lookup σ β) :
    (Session.look (x >>= f) : Action σ δ β) = Session.look x >>= fun a => Session.look (f a) := by
  funext s
  refine Eq.trans ?_ (Action.run_bind (Session.look x) (fun a => Session.look (f a)) s).symm
  have looked : (Session.look x : Action σ δ α).run s =
      ((x.run s.schema).1, { s with schema := (x.run s.schema).2 }) := rfl
  show (((x >>= f).run s.schema).1, { s with schema := ((x >>= f).run s.schema).2 }) = _
  rw [Lookup.run_bind, looked]
  cases (x.run s.schema).1 <;> rfl

theorem look_known (r : Except Fault α) :
    (Session.look (known r) : Action σ δ α) = known r := rfl

theorem look_pure (a : α) : (Session.look (pure a) : Action σ δ α) = pure a := rfl

/-- A request for a window is settled first. -/
theorem window_eq (name : String) (params : Params) :
    g.window name params = g.planWindow name params >>= g.readWindow := by
  unfold window planWindow settle readWindow
  simp only [look_bind, look_known, look_pure, bind_assoc, pure_bind, WindowPlan.selection]

end Gateway

/-! ## What is settled -/

variable {g : Gateway σ δ} {snapshot : Snapshot} {table : Table} {params : Params}

/-- A cursor that was handed out stands for a comparison with what its text is converted to. -/
theorem cursorCondition_encode {source : SchemaSource σ} {column : Column} {raw : String}
    {r : Except Fault Cell} (h : (Convert.ofText source column.type raw).Has r)
    (comparison : Comparison) :
    (cursorCondition source column comparison (some (Cursor.encode raw))).Has (r.map fun v =>
      [.one { column := column.name, predicate := .compare comparison column.type.mark v }]) := by
  unfold cursorCondition Filter.compareWith
  simp only [Cursor.decode_encode]
  refine .bind (Lookup.has_known _) ?_
  cases r with
  | ok v => exact .bind (.bind h (Lookup.has_pure _)) (Lookup.has_pure _)
  | error e => exact .bind_error (.bind_error h)

namespace WindowPlan

/-- The plan is what is settled of a request for a window, in all states of the source. -/
structure Of (w : WindowPlan) (g : Gateway σ δ) (params : Params) : Prop where
  window : CursorWindow.ofParams params g.config.limits = .ok w.window
  order : cursorOrder w.table params = .ok w.order
  plan : Plan.ofParams g.config.complexity w.snapshot w.table params [w.order.column] = .ok w.plan
  filter : (Filter.conditions g.source w.table params).Has (.ok w.filter)
  column : w.table.resolve w.order.column = .ok w.column
  after : (cursorCondition g.source w.column w.order.direction.after w.window.after).Has (.ok w.after)
  before : (cursorCondition g.source w.column w.order.direction.before w.window.before).Has
    (.ok w.before)

variable {w : WindowPlan}

theorem Of.settle (h : w.Of g params) : (g.settle w.snapshot w.table params).Has (.ok w) := by
  unfold Gateway.settle
  rw [h.window, h.order]
  refine .bind (Lookup.has_known _) (.bind (Lookup.has_known _) ?_)
  rw [h.plan]
  refine .bind (Lookup.has_known _) (.bind h.filter ?_)
  rw [h.column]
  exact .bind (Lookup.has_known _) (.bind h.after (.bind h.before (Lookup.has_pure _)))

/-- What is settled once is settled in all states of a steady source. -/
theorem of_settle (hs : g.source.current.Steady) {t : σ}
    (h : ((g.settle snapshot table params).run t).1 = .ok w) :
    w.snapshot = snapshot ∧ w.table = table ∧ w.Of g params := by
  unfold Gateway.settle at h
  have steady := Filter.conditions_steady hs table params
  have cursor := fun column comparison => cursorCondition_steady hs column comparison
  obtain ⟨window, hwindow, h⟩ := Lookup.Has.of_bind (.known _) (fun _ => .bind (.known _) fun _ =>
    .bind (.known _) fun _ => .bind steady fun _ => .bind (.known _) fun _ =>
    .bind (cursor _ _ _) fun _ => .bind (cursor _ _ _) fun _ => .pure _) h
  obtain ⟨order, horder, h⟩ := Lookup.Has.of_bind (.known _) (fun _ => .bind (.known _) fun _ =>
    .bind steady fun _ => .bind (.known _) fun _ =>
    .bind (cursor _ _ _) fun _ => .bind (cursor _ _ _) fun _ => .pure _) h
  obtain ⟨plan, hplan, h⟩ := Lookup.Has.of_bind (.known _) (fun _ => .bind steady fun _ =>
    .bind (.known _) fun _ => .bind (cursor _ _ _) fun _ => .bind (cursor _ _ _) fun _ => .pure _) h
  obtain ⟨filter, hfilter, h⟩ := Lookup.Has.of_bind steady (fun _ => .bind (.known _) fun _ =>
    .bind (cursor _ _ _) fun _ => .bind (cursor _ _ _) fun _ => .pure _) h
  obtain ⟨column, hcolumn, h⟩ := Lookup.Has.of_bind (.known _) (fun _ =>
    .bind (cursor _ _ _) fun _ => .bind (cursor _ _ _) fun _ => .pure _) h
  obtain ⟨after, hafter, h⟩ := Lookup.Has.of_bind (cursor _ _ _) (fun _ =>
    .bind (cursor _ _ _) fun _ => .pure _) h
  obtain ⟨before, hbefore, h⟩ := Lookup.Has.of_bind (cursor _ _ _) (fun _ => .pure _) h
  cases h
  exact ⟨rfl, rfl, hwindow.of_known t, horder.of_known t, hplan.of_known t, hfilter,
    hcolumn.of_known t, hafter, hbefore⟩

/-- Of a request that differs in its window, the rest is settled in the same way. -/
theorem Of.agree (h : w.Of g params) {q : Params} (agree : q.Agree params)
    (size : Cost.pageSize q = Cost.pageSize params) :
    cursorOrder w.table q = .ok w.order ∧
      Plan.ofParams g.config.complexity w.snapshot w.table q [w.order.column] = .ok w.plan ∧
      (Filter.conditions g.source w.table q).Has (.ok w.filter) := by
  rw [agree.cursorOrder, agree.plan size, agree.conditions]
  exact ⟨h.order, h.plan, h.filter⟩

/-- A cursor after which the rows are to come changes the condition that it stands for. -/
theorem Of.set_after (h : w.Of g params) {cursor : String} {after : Where}
    (hafter : (cursorCondition g.source w.column w.order.direction.after (some cursor)).Has (.ok after)) :
    Of { w with window := { w.window with after := some cursor }, after } g
      (params.set "after" cursor) := by
  obtain ⟨order, plan, filter⟩ := h.agree (params.set_agree (by decide) cursor)
    (params.pageSize_cursor (.inl rfl) cursor)
  exact ⟨CursorWindow.ofParams_after h.window cursor, order, plan, filter, h.column, hafter, h.before⟩

/-- So does a cursor before which they are to come. -/
theorem Of.set_before (h : w.Of g params) {cursor : String} {before : Where}
    (hbefore : (cursorCondition g.source w.column w.order.direction.before (some cursor)).Has
      (.ok before)) :
    Of { w with window := { w.window with before := some cursor }, before } g
      (params.set "before" cursor) := by
  obtain ⟨order, plan, filter⟩ := h.agree (params.set_agree (by decide) cursor)
    (params.pageSize_cursor (.inr rfl) cursor)
  exact ⟨CursorWindow.ofParams_before h.window cursor, order, plan, filter, h.column, h.after, hbefore⟩

end WindowPlan

/-! ## The order column -/

/-- A plan hides what it reads beside the columns that are asked for. -/
theorem Plan.ofParams_extra (limits : ComplexityLimits) (snapshot : Snapshot) (table : Table)
    (params : Params) (required : List String) :
    Outcome (fun plan => plan.extra = (Expansion.extraColumns plan.fields
        (Relationship.keyColumns snapshot table plan.fields ++ required)).eraseDups)
      (fun _ => True) (Plan.ofParams limits snapshot table params required) := by
  unfold ofParams
  refine .bind (.any _) fun fields _ => .bind (.any _) fun _ _ => ?_
  exact .bind (.any _) fun projection h => .ok rfl

namespace WindowPlan

variable {w : WindowPlan}

/-- The column of the order is the one that its name is resolved to. -/
theorem Of.order_column (h : w.Of g params) : w.order.column = w.column.name := by
  have named := cursorOrder_column (P := fun name => isName name = true)
    (fun name => (Outcome.self (w.table.resolve name)).mono
      (fun _ found => (Table.resolve_eq_ok found).2.2) fun _ => id) params
  rw [h.order] at named
  rw [(Table.resolve_eq_ok h.column).2.1, trimmed_of_isName named.of_ok]

/-- The column of the order is read. -/
theorem Of.cell_order (h : w.Of g params) (row : Row) :
    Row.cell (w.plan.projection.of row) w.order.column = Row.cell row w.order.column := by
  have name : Text.trimmed w.order.column = w.order.column := by
    rw [h.order_column]
    exact trimmed_of_isName (Table.resolve_eq_ok h.column).2.2
  have extra := Plan.ofParams_extra g.config.complexity w.snapshot w.table params [w.order.column]
  rw [h.plan] at extra
  have extra := extra.of_ok
  rcases Level.projection_eq_ok (l := ⟨w.table, w.plan.fields, w.plan.extra⟩)
    (Plan.projection_eq_ok h.plan) with ⟨-, all⟩ | ⟨names, named, columns⟩
  · rw [all]
    rfl
  · have read : w.order.column ∈ (names ++ w.plan.extra).map Text.trimmed := by
      refine List.mem_map.mpr ⟨w.order.column, ?_, name⟩
      by_cases asked : w.order.column ∈ names
      · exact List.mem_append_left _ asked
      · refine List.mem_append_right _ ?_
        simp only at named
        rw [extra, List.mem_eraseDups, Expansion.extraColumns, named]
        simp [asked]
    rw [columns, Row.cell, Projection.get?_of, if_pos read, Option.getD_some]

end WindowPlan

/-! ## Runs -/

namespace Gateway

/-- A privilege that is asked for and denied is the only thing that stops a request here. -/
theorem authorize_run (table : Table) (p : Privilege) (s : Session σ δ) :
    ((g.authorize table p).run s).1 =
      if g.config.database.checkPermissions && isDenied (g.db.query (p.question table) s.database).1
      then .error (.forbidden table.name p.name) else .ok () := by
  unfold authorize
  cases g.config.database.checkPermissions with
  | false => rfl
  | true =>
    rw [if_pos rfl, Action.run_bind, Bool.true_and]
    show ((ite _ _ _ : Action σ δ Unit).run _).1 = _
    split <;> rfl

/-- A window of a table of the snapshot is settled, unless reading the table is denied. -/
theorem planWindow_run (fixes : g.source.Fixes snapshot) {name : String}
    (resolved : snapshot.resolve name = .ok table) {r : Except Fault WindowPlan}
    (settled : (g.settle snapshot table params).Has r) (s : Session σ δ) :
    ((g.planWindow name params).run s).1 =
      if g.config.database.checkPermissions &&
        isDenied (g.db.query (Privilege.select.question table) s.database).1
      then .error (.forbidden table.name Privilege.select.name) else r := by
  have found : (g.snapshot.run s).1 = .ok snapshot := fixes s.schema
  have same : (g.snapshot.run s).2.database = s.database := rfl
  unfold planWindow readable
  simp only [bind_assoc, pure_bind]
  rw [Action.run_bind, found]
  simp only [resolved]
  show ((g.authorize table .select >>= fun _ => Session.look (g.settle snapshot table params)).run
    (g.snapshot.run s).2).1 = _
  rw [Action.run_bind, authorize_run, same]
  generalize (g.config.database.checkPermissions &&
    isDenied (g.db.query (Privilege.select.question table) s.database).1) = denied
  cases denied with
  | true => rfl
  | false => exact settled _

/-- What was settled of a request that went on is settled in all states of the source. -/
theorem planWindow_gives (fixes : g.source.Fixes snapshot) {name : String} {w : WindowPlan}
    {s t : Session σ δ} (h : (g.planWindow name params).Gives s w t) :
    w.snapshot = snapshot ∧ snapshot.resolve name = .ok w.table ∧ w.Of g params := by
  unfold planWindow at h
  simp only [Action.gives_bind] at h
  obtain ⟨found, s₁, hfound, table, s₂, htable, h⟩ := h
  obtain rfl : found = snapshot := by
    have ok := (Action.gives_look.mp hfound).1
    rw [show (g.source.current.run s.schema).1 = .ok snapshot from fixes s.schema] at ok
    cases ok
    rfl
  obtain ⟨rfl, rfl, of⟩ := WindowPlan.of_settle fixes.steady (Action.gives_look.mp h).1
  exact ⟨rfl, readable_gives htable, of⟩

end Gateway

/-- The rows of a window among those that were read: as many as were asked for, and from the back in
the order from the front. -/
def CursorWindow.cut (w : CursorWindow) (limits : Limits) (rows : List Row) : List Row :=
  if w.isBackward then (rows.take (w.size limits)).reverse else rows.take (w.size limits)

namespace WindowPlan

/-- The edge is that of a row: it has the row's cursor and shows the row. -/
structure Marks (w : WindowPlan) (source : SchemaSource σ) (row : Row) (edge : Edge) : Prop where
  cursor : edge.cursor = Gateway.cursorOf w.order row
  node : w.plan.ShowsRow source w.table row edge.node

/-- The connection shows the window's part of some rows. -/
structure Opens (w : WindowPlan) (g : Gateway σ δ) (rows : List Row) (c : Connection) : Prop where
  edges : List.Forall₂ (w.Marks g.source) (w.window.cut g.config.limits rows) c.edges
  hasNextPage : c.hasNextPage =
    if w.window.isBackward then w.window.before.isSome
    else decide (w.window.size g.config.limits < rows.length)
  hasPreviousPage : c.hasPreviousPage =
    if w.window.isBackward then decide (w.window.size g.config.limits < rows.length)
    else w.window.after.isSome

end WindowPlan

namespace Gateway

variable {w : WindowPlan} {s t : Session σ δ}

theorem edges_mark {rows : List Row} {records : List Record}
    (h : List.Forall₂ (w.plan.ShowsRow g.source w.table) rows records) :
    List.Forall₂ (w.Marks g.source) rows
      ((records.zip rows).map fun (node, row) => ⟨node, cursorOf w.order row⟩) := by
  induction h with
  | nil => exact .nil
  | cons shows _ ih => exact .cons ⟨rfl, shows⟩ ih

/-- A connection shows the rows that were answered last. -/
theorem readWindow_opens {c : Connection} (h : (g.readWindow w).Gives s c t) :
    ∃ d rows, (g.db.query (.select (w.selection g.config.limits)) d).1 = .ok rows ∧
      w.Opens g rows c := by
  unfold readWindow at h
  simp only [Action.gives_bind, Action.gives_pure] at h
  obtain ⟨total, s₁, -, rows, s₂, hrows, records, s₃, hrecords, rfl, rfl⟩ := h
  exact ⟨_, rows, (fetch_gives hrows).1, edges_mark (materialize_rows hrecords), rfl, rfl⟩

/-- Rows become records in every session. -/
theorem materialize_gives (g : Gateway σ δ) (snapshot : Snapshot) (table : Table) (plan : Plan)
    (rows : List Row) (s : Session σ δ) :
    ∃ records t, (g.materialize snapshot table plan rows).Gives s records t := by
  unfold materialize
  simp only [Action.gives_bind, Action.gives_pure]
  exact ⟨_, _, _, _, Action.gives_lift.mpr rfl, _, _, Action.gives_lift.mpr rfl, rfl, rfl⟩

theorem fetch_of_query {st : Statement} {rows : List Row}
    (h : (g.db.query st s.database).1 = .ok rows) : ∃ t, (g.fetch st).Gives s rows t :=
  ⟨_, Action.gives_classified.mpr (Action.gives_ask.mpr ⟨h, rfl⟩)⟩

/-- A window is read if its rows are counted and answered. -/
theorem readWindow_gives (s : Session σ δ)
    (counts : ∀ d, ∃ rows, (g.db.query (.count w.table.name w.filter) d).1 = .ok rows)
    (answers : ∀ d, ∃ rows, (g.db.query (.select (w.selection g.config.limits)) d).1 = .ok rows) :
    ∃ c t, (g.readWindow w).Gives s c t := by
  unfold readWindow count
  simp only [Action.gives_bind, Action.gives_pure]
  obtain ⟨counted, hcounted⟩ := counts s.database
  obtain ⟨s₁, h₁⟩ := fetch_of_query hcounted
  obtain ⟨rows, hrows⟩ := answers s₁.database
  obtain ⟨s₂, h₂⟩ := fetch_of_query hrows
  obtain ⟨records, s₃, h₃⟩ := g.materialize_gives w.snapshot w.table w.plan
    (if w.window.isBackward then (rows.take (w.window.size g.config.limits)).reverse
      else rows.take (w.window.size g.config.limits)) s₂
  exact ⟨_, s₃, _, s₁, ⟨counted, s₁, h₁, rfl, rfl⟩, rows, s₂, h₂, records, s₃, h₃, rfl, rfl⟩

end Gateway

end TableGateway
