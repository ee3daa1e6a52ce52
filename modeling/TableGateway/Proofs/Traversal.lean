import TableGateway.Proofs.Walk

/-!
# Walks from end to end

The rows that a walk through all windows of a table meets. The walks from either end meet the same rows,
each once and in order (`Gateway.walks_agree`). A walk in the order of the key meets every row once, if
the first column of the key alone ranks the rows (`Gateway.key_walk`); other keys do not carry a walk.
-/
namespace TableGateway

variable {σ δ : Type}

namespace Gateway

variable {g : Gateway σ δ} {m : Semantics} {content : List Row} {w : WindowPlan} {params : Params}
  {name size : String}

/-- What is settled of a request for the first rows of a table that was answered. -/
theorem settled_of_gives {snapshot : Snapshot} {table : Table} (fixes : g.source.Fixes snapshot)
    (resolved : snapshot.resolve name = .ok table) {s t : Session σ δ} {c : Connection}
    (answered : (g.window name params).Gives s c t) :
    ∃ w : WindowPlan, w.snapshot = snapshot ∧ w.table = table ∧ w.Of g params := by
  rw [window_eq, Action.gives_bind] at answered
  obtain ⟨w, _, planned, -⟩ := answered
  obtain ⟨same, found, settled⟩ := planWindow_gives fixes planned
  exact ⟨w, same, Except.ok.inj (found.symm.trans resolved), settled⟩

end Gateway

/-- The items of orders, by the order and the product. -/
def itemsTable : Table where
  name := "order_items"
  columns := [
    { name := "order_id", tag := "integer", type := .scalar .integer, isKey := true },
    { name := "product_id", tag := "integer", type := .scalar .integer, isKey := true },
    { name := "quantity", tag := "integer", type := .scalar .integer }]

def itemRows : List Row :=
  [[("order_id", .int 1), ("product_id", .int 1), ("quantity", .int 4)],
    [("order_id", .int 1), ("product_id", .int 2), ("quantity", .int 1)],
    [("order_id", .int 1), ("product_id", .int 3), ("quantity", .int 2)]]

def itemsGateway : Gateway Unit Unit where
  config := {}
  source := .fixed { tables := [("order_items", itemsTable)] }
  db := .holding (.ofRank Cell.number) fun _ => itemRows

theorem itemsGateway_serves :
    itemsGateway.db.Serves (.ofRank Cell.number) itemsTable itemRows :=
  Database.holding_serves (Semantics.ofRank_isOrder _) (fun _ => itemRows) (by decide)

namespace Gateway

variable {g : Gateway σ δ} {m : Semantics} {content : List Row} {params : Params} {name size : String}

/-- Without an order, the first column of the key is the order of a window. -/
theorem cursorOrder_key {table : Table} (noOrder : params.first? "order" = none)
    (noOrderBy : params.first? "orderBy" = none) {key : Column} (head : table.key.head? = some key)
    {column : Column} (found : table.resolve key.name = .ok column) :
    cursorOrder table params = .ok { column := column.name } := by
  unfold cursorOrder OrderTerm.ofParams
  simp only [noOrder, noOrderBy, head, found, List.head?_nil, bind, Except.bind, pure, Except.pure]

/-- A walk in the order of the key meets every row of the table once, if the first column of the key
alone ranks the rows. -/
theorem key_walk {snapshot : Snapshot} {table : Table} (fixes : g.source.Fixes snapshot)
    (resolved : snapshot.resolve name = .ok table) (serves : g.db.Serves m table content)
    (base : params.hasCursor = false) (unfiltered : params.filters = [])
    (noOrder : params.first? "order" = none) (noOrderBy : params.first? "orderBy" = none)
    {key : Column} (head : table.key.head? = some key) {column : Column}
    (found : table.resolve key.name = .ok column) (ranks : column.Ranks m g.source content)
    {s t : Session σ δ} {c : Connection}
    (accepted : (g.window name (params.set "first" size)).Gives s c t) :
    ∃ (w : WindowPlan) (rows : List Row), w.snapshot = snapshot ∧ w.table = table ∧
      w.Of g (params.set "first" size) ∧ rows.Perm content ∧
      m.Sorted [{ column := column.name }] rows ∧
      ∀ u : Session σ δ, ∃ cs, Walk g name .forward (params.set "first" size) u cs ∧
        List.Forall₂ (w.Marks g.source) (rows.map w.plan.projection.of)
          (cs.flatMap Connection.edges) := by
  obtain ⟨w, rfl, rfl, settled⟩ := settled_of_gives fixes resolved accepted
  have agree := params.set_agree (by decide : "first" ∈ Params.cursorNames) size
  have order : w.order = { column := column.name } := Except.ok.inj (settled.order.symm.trans
    ((agree.cursorOrder w.table).trans (cursorOrder_key noOrder noOrderBy head found)))
  obtain rfl : w.column = column := by
    have same := settled.column
    rw [order] at same
    exact Except.ok.inj (same.symm.trans (Table.resolve_found found))
  obtain ⟨rows, chosen, sorted, walks⟩ :=
    walks_rows fixes resolved serves base settled ranks s
  refine ⟨w, rows, rfl, rfl, settled, ?_, order ▸ sorted, walks .forward⟩
  have filter : w.filter = [] := by
    have conditions := settled.filter s.schema
    rw [agree.conditions] at conditions
    unfold Filter.conditions at conditions
    rw [unfiltered] at conditions
    exact (Except.ok.inj conditions).symm
  rw [filter] at chosen
  exact chosen.trans (List.Perm.of_eq (List.filter_eq_self.mpr fun _ _ => rfl))

end Gateway

theorem key_walk_posts : ∃ (w : WindowPlan) (rows : List Row) (cs : List Connection),
    rows.Perm (anonymousRows "posts") ∧
    Walk anonymousGateway "posts" .forward (Params.set [] "first" "1")
      { schema := (), database := () } cs ∧
    List.Forall₂ (w.Marks anonymousGateway.source) (rows.map w.plan.projection.of)
      (cs.flatMap Connection.edges) := by
  have cursors : ((anonymousGateway.window "posts" (Params.set [] "first" "1")).run
      { schema := (), database := () }).1.toOption.map (fun c => c.edges.map Edge.cursor) =
      some ["MQ=="] := by
    decide +kernel
  obtain ⟨c, accepted, -⟩ := Action.gives_of_map cursors
  have ranks : Column.Ranks { name := "id", tag := "integer", type := .scalar .integer, isKey := true }
      (.ofRank Cell.number) anonymousGateway.source (anonymousRows "posts") :=
    Column.ranks_of_values rfl rfl Semantics.ofRank_orders
      (by simp [anonymousRows, Row.cell, Entries.get?, Cell.IsValue.integer])
      (by simp [anonymousRows, Row.cell, Entries.get?])
  have head : postsTable.key.head? =
      some { name := "id", tag := "integer", type := .scalar .integer, isKey := true } := rfl
  obtain ⟨w, rows, -, -, -, perm, -, walks⟩ := Gateway.key_walk (fun _ => rfl) (by decide +kernel)
    (Database.holding_serves (Semantics.ofRank_isOrder _) anonymousRows (by decide)) rfl rfl rfl rfl
    head (by decide +kernel) ranks accepted
  obtain ⟨cs, walk, shown⟩ := walks { schema := (), database := () }
  exact ⟨w, rows, cs, perm, walk, shown⟩

/-- The rows respect the key of a table: no part of a key is null, and no two rows have the same key. -/
structure Table.Keys (table : Table) (rows : List Row) : Prop where
  notNull : ∀ row ∈ rows, ∀ column ∈ table.key, (Row.cell row column.name).isNull = false
  distinct : (rows.map fun row => table.key.map fun column => Row.cell row column.name).Nodup

/-- The rank of a finite double among the finite doubles. -/
def Number.Double.rank : Number.Double → Int
  | finite negative significand exponent =>
    let rank := (exponent - minExponent) * (2 * full) + significand
    if negative then -rank else rank
  | _ => 0

/-- The rank of a number in a document; other cells have the rank of 0. -/
def Cell.documentRank : Cell → Int
  | json (.double d) => d.rank
  | _ => 0

/-- Measures, by numbers in documents. -/
def measuresTable : Table where
  name := "measures"
  columns := [{ name := "value", tag := "jsonb", type := .scalar .jsonb, isKey := true }]

/-- The measures `182.29166500530602` and `200.0`. -/
def measureRows : List Row :=
  [[("value", .json (.double (.finite false 6413817770239402 (-45))))],
    [("value", .json (.double (.finite false 7036874417766400 (-45))))]]

def measuresGateway : Gateway Unit Unit where
  config := {}
  source := .fixed { tables := [("measures", measuresTable)] }
  db := .holding (.ofRank Cell.documentRank) fun _ => measureRows

/-- The cursors of a window, the one to go on from, and whether there are more rows. -/
def Connection.cursors (c : Connection) : List String × Option String × Bool :=
  (c.edges.map Edge.cursor, c.endCursor?, c.hasNextPage)

/-- The walk through the items by their key, two at a time, ends before the third item: it has the order
of the two before, and is not behind their cursor. -/
theorem itemsGateway_walk : ∃ cs,
    Walk itemsGateway "order_items" .forward [("first", ["2"])] { schema := (), database := () } cs ∧
      (cs.flatMap Connection.edges).length = 2 := by
  have firstPage : ((itemsGateway.window "order_items" [("first", ["2"])]).run
      { schema := (), database := () }).1.toOption.map Connection.cursors =
      some (["MQ==", "MQ=="], some "MQ==", true) := by
    decide +kernel
  obtain ⟨c, hc, first⟩ := Action.gives_of_map firstPage
  have lastPage : ((itemsGateway.window "order_items" [("after", ["MQ=="]), ("first", ["2"])]).run
      ((itemsGateway.window "order_items" [("first", ["2"])]).run
        { schema := (), database := () }).2).1.toOption.map Connection.cursors =
      some ([], none, false) := by
    decide +kernel
  obtain ⟨d, hd, last⟩ := Action.gives_of_map lastPage
  simp only [Connection.cursors, Prod.mk.injEq] at first last
  refine ⟨[c, d], .more hc first.2.2 first.2.1 (.last hd last.2.2), ?_⟩
  have two := congrArg List.length first.1
  have none := congrArg List.length last.1
  rw [List.length_map] at two none
  simp [two, none]

/-- The walk through the measures, one at a time, does not leave the first one, whose cursor is read
back as a number before it. -/
theorem measuresGateway_walk : ∃ c t cursor d u,
    (measuresGateway.window "measures" [("first", ["1"])]).Gives { schema := (), database := () } c t ∧
      c.hasNextPage = true ∧ c.endCursor? = some cursor ∧
      (measuresGateway.window "measures" [("after", [cursor]), ("first", ["1"])]).Gives t d u ∧
      c.edges.map Edge.cursor = [cursor] ∧ d.edges.map Edge.cursor = [cursor] := by
  have firstPage : ((measuresGateway.window "measures" [("first", ["1"])]).run
      { schema := (), database := () }).1.toOption.map Connection.cursors =
      some (["MTgyLjI5MTY2NTAwNTMwNjAy"], some "MTgyLjI5MTY2NTAwNTMwNjAy", true) := by
    decide +kernel
  obtain ⟨c, hc, first⟩ := Action.gives_of_map firstPage
  have nextPage : ((measuresGateway.window "measures"
      [("after", ["MTgyLjI5MTY2NTAwNTMwNjAy"]), ("first", ["1"])]).run
      ((measuresGateway.window "measures" [("first", ["1"])]).run
        { schema := (), database := () }).2).1.toOption.map Connection.cursors =
      some (["MTgyLjI5MTY2NTAwNTMwNjAy"], some "MTgyLjI5MTY2NTAwNTMwNjAy", true) := by
    decide +kernel
  obtain ⟨d, hd, next⟩ := Action.gives_of_map nextPage
  simp only [Connection.cursors, Prod.mk.injEq] at first next
  exact ⟨c, _, _, d, _, hc, first.2.2, first.2.1, hd, first.1, next.1⟩

/-- A key of two columns, and a key whose cells are not read back, do not carry a walk. -/
theorem key_walks_fail :
    (itemsTable.Keys itemRows ∧
      itemsGateway.db.Serves (.ofRank Cell.number) itemsTable itemRows ∧ itemRows.length = 3 ∧
      ∃ cs, Walk itemsGateway "order_items" .forward [("first", ["2"])]
        { schema := (), database := () } cs ∧ (cs.flatMap Connection.edges).length = 2) ∧
    (measuresTable.Keys measureRows ∧
      measuresGateway.db.Serves (.ofRank Cell.documentRank) measuresTable measureRows ∧
      ∃ c t cursor d u,
        (measuresGateway.window "measures" [("first", ["1"])]).Gives
          { schema := (), database := () } c t ∧
        c.hasNextPage = true ∧ c.endCursor? = some cursor ∧
        (measuresGateway.window "measures" [("after", [cursor]), ("first", ["1"])]).Gives t d u ∧
        c.edges.map Edge.cursor = [cursor] ∧ d.edges.map Edge.cursor = [cursor]) := by
  refine ⟨⟨⟨?_, ?_⟩, itemsGateway_serves, rfl, itemsGateway_walk⟩, ⟨⟨?_, ?_⟩,
    Database.holding_serves (Semantics.ofRank_isOrder _) (fun _ => measureRows) (by decide),
    measuresGateway_walk⟩⟩
  · simp [itemRows, itemsTable, Table.key, Row.cell, Entries.get?, Cell.isNull]
  · simp [itemRows, itemsTable, Table.key, Row.cell, Entries.get?]
  · simp [measureRows, measuresTable, Table.key, Row.cell, Entries.get?, Cell.isNull]
  · simp [measureRows, measuresTable, Table.key, Row.cell, Entries.get?]

end TableGateway
