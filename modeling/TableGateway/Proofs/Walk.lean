import TableGateway.Proofs.Ranking

/-!
# Walks through windows

A client walks through the rows of a table window by window, each window beginning where the one before
ended, from the front or from the back. From a session on there is one walk at most (`Walk.unique`). One
window is a step from where a walk stands (`Standing.read`, `Standing.next`), and from where it stands a
walk comes to its end (`Standing.walk`). Main statement: `Gateway.walks_rows`.
-/
namespace TableGateway

variable {σ δ : Type}

/-! ## Ways -/

/-- From which side windows are read. -/
inductive Way where
  | forward | backward
  deriving DecidableEq, Repr

namespace Way

/-- The parameter that says how many rows a window has. -/
def sizeName : Way → String
  | forward => "first"
  | backward => "last"

/-- The parameter that says where a window begins. -/
def cursorName : Way → String
  | forward => "after"
  | backward => "before"

/-- There are more rows on the way. -/
def goesOn : Way → Connection → Bool
  | forward, c => c.hasNextPage
  | backward, c => c.hasPreviousPage

/-- The cursor from which the way goes on. -/
def next? : Way → Connection → Option String
  | forward, c => c.endCursor?
  | backward, c => c.startCursor?

/-- What is met on the way, in the order of the table. -/
def along {α : Type} : Way → List α → List α
  | forward, l => l
  | backward, l => l.reverse

def term : Way → OrderTerm → OrderTerm
  | forward, t => t
  | backward, t => t.reversed

/-- The window of some rows from a cursor on. -/
def window : Way → Nat → Option String → CursorWindow
  | forward, n, cursor => ⟨some n, cursor, none, none⟩
  | backward, n, cursor => ⟨none, none, some n, cursor⟩

end Way

/-- Windows that are read one after the other, from a session on: each begins where the one before ended,
and the last one is one with no more rows behind it. -/
inductive Walk (g : Gateway σ δ) (name : String) (way : Way) :
    Params → Session σ δ → List Connection → Prop where
  | last {params : Params} {s t : Session σ δ} {c : Connection}
      (read : (g.window name params).Gives s c t) (ends : way.goesOn c = false) :
      Walk g name way params s [c]
  | more {params : Params} {s t : Session σ δ} {c : Connection} {cursor : String}
      {rest : List Connection} (read : (g.window name params).Gives s c t)
      (more : way.goesOn c = true) (next : way.next? c = some cursor)
      (walk : Walk g name way (params.set way.cursorName cursor) t rest) :
      Walk g name way params s (c :: rest)

/-- There is no other walk from the same session. -/
theorem Walk.unique {g : Gateway σ δ} {name : String} {way : Way} {params : Params} {s : Session σ δ}
    {cs ds : List Connection} (h : Walk g name way params s cs) (h' : Walk g name way params s ds) :
    cs = ds := by
  induction h generalizing ds with
  | last read ends =>
    cases h' with
    | last read' ends' => rw [(Action.gives_unique read read').1]
    | more read' more' _ _ =>
      rw [← (Action.gives_unique read read').1, ends] at more'
      cases more'
  | more read more next walk ih =>
    cases h' with
    | last read' ends' =>
      rw [← (Action.gives_unique read read').1, more] at ends'
      cases ends'
    | more read' more' next' walk' =>
      obtain ⟨rfl, rfl⟩ := Action.gives_unique read read'
      obtain rfl := Option.some.inj (next.symm.trans next')
      rw [ih walk']

/-- What is settled when the way goes on from a cursor that stands for some conditions. -/
def Way.beyond : Way → WindowPlan → String → Where → WindowPlan
  | forward, w, cursor, behind =>
    { w with window := { w.window with after := some cursor }, after := behind }
  | backward, w, cursor, behind =>
    { w with window := { w.window with before := some cursor }, before := behind }

section

variable (way : Way) (w : WindowPlan) (cursor : String) (behind : Where)

@[simp] theorem Way.beyond_snapshot : (way.beyond w cursor behind).snapshot = w.snapshot := by
  cases way <;> rfl

@[simp] theorem Way.beyond_table : (way.beyond w cursor behind).table = w.table := by
  cases way <;> rfl

@[simp] theorem Way.beyond_column : (way.beyond w cursor behind).column = w.column := by
  cases way <;> rfl

@[simp] theorem Way.beyond_plan : (way.beyond w cursor behind).plan = w.plan := by
  cases way <;> rfl

@[simp] theorem Way.beyond_order : (way.beyond w cursor behind).order = w.order := by
  cases way <;> rfl

@[simp] theorem Way.beyond_filter : (way.beyond w cursor behind).filter = w.filter := by
  cases way <;> rfl

end

theorem WindowPlan.Of.beyond {g : Gateway σ δ} {w : WindowPlan} {params : Params} {way : Way}
    (h : w.Of g params) {cursor : String} {behind : Where}
    (stands : (cursorCondition g.source w.column (way.term w.order).direction.after
      (some cursor)).Has (.ok behind)) :
    (way.beyond w cursor behind).Of g (params.set way.cursorName cursor) := by
  cases way
  · exact h.set_after stands
  · exact h.set_before stands

theorem WindowPlan.marks_beyond {source : SchemaSource σ} {w : WindowPlan} {way : Way} {cursor : String}
    {behind : Where} {row : Row} {edge : Edge} :
    (way.beyond w cursor behind).Marks source row edge ↔ w.Marks source row edge := by
  cases way <;> exact ⟨fun h => ⟨h.cursor, h.node⟩, fun h => ⟨h.cursor, h.node⟩⟩

/-- What is met in one window stands before what is met in later ones. -/
theorem Way.forall₂_along {R : Row → Edge → Prop} (way : Way) {first later : List Row}
    {c : Connection} {cs : List Connection} (h : List.Forall₂ R (way.along first) c.edges)
    (hs : List.Forall₂ R (way.along later) ((way.along cs).flatMap Connection.edges)) :
    List.Forall₂ R (way.along (first ++ later)) ((way.along (c :: cs)).flatMap Connection.edges) := by
  cases way
  · exact List.rel_append h hs
  · simp only [along, List.reverse_append, List.reverse_cons, List.flatMap_append,
      List.flatMap_singleton]
    exact List.rel_append hs h

/-! ## Standing on the way -/

theorem forall₂_getLast? {α β : Type} {R : α → β → Prop} {as : List α} {bs : List β}
    (h : List.Forall₂ R as bs) {a : α} (last : as.getLast? = some a) :
    ∃ b, bs.getLast? = some b ∧ R a b := by
  induction h with
  | nil => cases last
  | cons hR rest ih =>
    cases rest with
    | nil =>
      cases last
      exact ⟨_, rfl, hR⟩
    | cons hS rest =>
      rw [List.getLast?_cons_cons] at last ⊢
      exact ih last

/-- A walk stands before the rest of the rows that its filter chooses, and has met the other ones: the
conditions of its cursor choose the rest. -/
structure Standing (way : Way) (n : Nat) (g : Gateway σ δ) (m : Semantics) (content : List Row)
    (w : WindowPlan) (params : Params) (done rest : List Row) : Prop where
  plan : w.Of g params
  window : ∃ cursor, w.window = way.window n cursor
  rows : (done ++ rest).Perm (content.filter (m.chooses w.filter))
  ordered : (done ++ rest).Pairwise (m.Precedes (way.term w.order))
  behind : ∀ row ∈ done, m.chooses (w.after ++ w.before) row = false
  ahead : ∀ row ∈ rest, m.chooses (w.after ++ w.before) row = true

namespace Standing

variable {way : Way} {n : Nat} {g : Gateway σ δ} {m : Semantics} {content : List Row} {w : WindowPlan}
  {params : Params} {done rest : List Row}

theorem subset (h : Standing way n g m content w params done rest) : done ++ rest ⊆ content :=
  fun _ hrow => (List.mem_filter.mp (h.rows.mem_iff.mp hrow)).1

theorem term_column (h : Standing way n g m content w params done rest) :
    (way.term w.order).column = w.column.name := by
  rw [← h.plan.order_column]
  cases way <;> rfl

/-- The rows that the conditions choose are the rest. -/
theorem chosen (h : Standing way n g m content w params done rest) :
    (content.filter (m.chooses (w.filter ++ w.after ++ w.before))).Perm rest := by
  have both : content.filter (m.chooses (w.filter ++ w.after ++ w.before)) =
      (content.filter (m.chooses w.filter)).filter (m.chooses (w.after ++ w.before)) := by
    rw [List.filter_filter]
    refine List.filter_congr fun row _ => ?_
    rw [List.append_assoc, Semantics.chooses_append, Bool.and_comm]
  have none : done.filter (m.chooses (w.after ++ w.before)) = [] :=
    List.filter_eq_nil_iff.mpr fun row hrow => by simp [h.behind row hrow]
  have all : rest.filter (m.chooses (w.after ++ w.before)) = rest :=
    List.filter_eq_self.mpr h.ahead
  rw [both]
  have perm := h.rows.symm.filter (m.chooses (w.after ++ w.before))
  rwa [List.filter_append, none, all, List.nil_append] at perm

theorem reads (h : Standing way n g m content w params done rest) :
    w.window.isBackward = (way == .backward) ∧ w.window.size g.config.limits = n := by
  obtain ⟨cursor, window⟩ := h.window
  rw [window]
  cases way
  · exact ⟨by simp [CursorWindow.isBackward, Way.window], rfl⟩
  · exact ⟨rfl, rfl⟩

theorem beyond_window (h : Standing way n g m content w params done rest) (cursor : String)
    (behind : Where) : ∃ cursor', (way.beyond w cursor behind).window = way.window n cursor' := by
  obtain ⟨cursor', window⟩ := h.window
  cases way
  · exact ⟨some cursor, by simp [Way.beyond, Way.window, window]⟩
  · exact ⟨some cursor, by simp [Way.beyond, Way.window, window]⟩

/-- On the way there is one cursor only. -/
theorem beyond_conditions (h : Standing way n g m content w params done rest) (t : σ)
    {cursor : String} {behind : Where} :
    (way.beyond w cursor behind).after ++ (way.beyond w cursor behind).before = behind := by
  obtain ⟨cursor', window⟩ := h.window
  have after := h.plan.after t
  have before := h.plan.before t
  rw [window] at after before
  cases way
  · have none : w.before = [] := (Except.ok.inj before).symm
    show behind ++ w.before = behind
    rw [none, List.append_nil]
  · have none : w.after = [] := (Except.ok.inj after).symm
    show w.after ++ behind = behind
    rw [none, List.nil_append]

/-- What answers the selection of the window is the front of the rest. -/
theorem answer_eq (h : Standing way n g m content w params done rest)
    (ranks : w.column.Ranks m g.source content)
    (fits : (content.length : Int) ≤ Number.maxInt) {rows : List Row}
    (answers : (w.selection g.config.limits).Answers m content rows) :
    rows = (rest.take (n + 1)).map w.plan.projection.of := by
  obtain ⟨sorted, perm, inOrder, cut⟩ := answers
  have term : (if w.window.isBackward then w.order.reversed else w.order) = way.term w.order := by
    rw [h.reads.1]
    cases way <;> rfl
  have inTerm : m.Sorted [way.term w.order] sorted := by
    rw [← term]
    exact inOrder
  have chosen : sorted.Perm rest := perm.trans h.chosen
  have inside : sorted ⊆ content := fun _ hrow =>
    h.subset (List.mem_append_right _ (chosen.mem_iff.mp hrow))
  have rest_eq := ranks.eq_of_perm h.term_column inside
    (ranks.precedes_of_sorted h.term_column perm inTerm) (List.pairwise_append.mp h.ordered).2.1 chosen
  have few : (rest.length : Int) ≤ Number.maxInt := by
    have := h.chosen.length_eq
    have := (content.filter_sublist (p := m.chooses (w.filter ++ w.after ++ w.before))).length_le
    omega
  rw [cut, rest_eq]
  show (Page.cut ⟨0, w.window.size g.config.limits + 1⟩ rest).map w.plan.projection.of = _
  rw [h.reads.2, Page.cut_front few]

/-- The window is read, and one row more than it shows. -/
theorem read (h : Standing way n g m content w params done rest) (fixes : g.source.Fixes w.snapshot)
    {name : String} (resolved : w.snapshot.resolve name = .ok w.table)
    (serves : g.db.Serves m w.table content) (ranks : w.column.Ranks m g.source content)
    (s : Session σ δ) : ∃ c t, (g.window name params).Gives s c t ∧
      w.Opens g ((rest.take (n + 1)).map w.plan.projection.of) c := by
  have planned := Gateway.planWindow_run fixes resolved h.plan.settle s
  rw [serves.permits, Bool.and_false, if_neg Bool.false_ne_true] at planned
  have pages := fun d => serves.pages (w.selection g.config.limits) d rfl rfl
  obtain ⟨c, t, opened⟩ := Gateway.readWindow_gives (w := w) ((g.planWindow name params).run s).2
    (serves.counts w.filter) fun d => (pages d).imp fun _ h => h.1
  obtain ⟨d, rows, answered, opens⟩ := Gateway.readWindow_opens opened
  obtain ⟨rows', answered', answers⟩ := pages d
  obtain rfl : rows = rows' := Except.ok.inj (answered.symm.trans answered')
  rw [h.answer_eq ranks serves.fits answers] at opens
  refine ⟨c, t, ?_, opens⟩
  rw [Gateway.window_eq, Action.gives_bind]
  exact ⟨w, _, Prod.ext planned rfl, opened⟩

section

variable {c : Connection}

/-- The window shows the next rows. -/
theorem edges (h : Standing way n g m content w params done rest)
    (opens : w.Opens g ((rest.take (n + 1)).map w.plan.projection.of) c) :
    List.Forall₂ (w.Marks g.source) (way.along ((rest.take n).map w.plan.projection.of)) c.edges := by
  obtain ⟨side, size⟩ := h.reads
  have shown := opens.edges
  rw [CursorWindow.cut, side, size, ← List.map_take, List.take_take,
    Nat.min_eq_left (Nat.le_succ n)] at shown
  cases way <;> exact shown

/-- The window says whether there are more rows behind them. -/
theorem goesOn (h : Standing way n g m content w params done rest)
    (opens : w.Opens g ((rest.take (n + 1)).map w.plan.projection.of) c) :
    way.goesOn c = decide (n < rest.length) := by
  obtain ⟨side, size⟩ := h.reads
  have more : n < ((rest.take (n + 1)).map w.plan.projection.of).length ↔ n < rest.length := by
    rw [List.length_map, List.length_take]
    omega
  cases way
  · show c.hasNextPage = _
    rw [opens.hasNextPage, side, size]
    simp only [more]
    rfl
  · show c.hasPreviousPage = _
    rw [opens.hasPreviousPage, side, size]
    simp only [more]
    rfl

/-- The cursor to go on from is that of the last row shown. -/
theorem next? (h : Standing way n g m content w params done rest)
    (opens : w.Opens g ((rest.take (n + 1)).map w.plan.projection.of) c) {row : Row}
    (last : (rest.take n).getLast? = some row) :
    way.next? c = some (Gateway.cursorOf w.order (w.plan.projection.of row)) := by
  have edges := h.edges opens
  have lastShown : ((rest.take n).map w.plan.projection.of).getLast? =
      some (w.plan.projection.of row) := by
    rw [List.getLast?_map, last, Option.map_some]
  cases way
  · obtain ⟨edge, hedge, marks⟩ := forall₂_getLast? edges lastShown
    show (c.edges.getLast?).map Edge.cursor = _
    rw [hedge, Option.map_some, marks.cursor]
  · have first := List.forall₂_reverse_iff.mpr edges
    rw [Way.along, List.reverse_reverse] at first
    obtain ⟨edge, hedge, marks⟩ := forall₂_getLast? first lastShown
    rw [List.getLast?_reverse] at hedge
    show (c.edges.head?).map Edge.cursor = _
    rw [hedge, Option.map_some, marks.cursor]

end

/-- The cursor of a row stands for a condition that chooses the rows behind it. -/
theorem cursor_chooses (h : Standing way n g m content w params done rest)
    (ranks : w.column.Ranks m g.source content) {row : Row} (hrow : row ∈ content) : ∃ behind,
      (cursorCondition g.source w.column (way.term w.order).direction.after
        (some (Gateway.cursorOf w.order (w.plan.projection.of row)))).Has (.ok behind) ∧
      ∀ other ∈ content,
        m.chooses behind other = true ↔ m.Precedes (way.term w.order) row other := by
  obtain ⟨v, converted, notNull, alike⟩ := ranks.readBack row hrow
  have cursor : Gateway.cursorOf w.order (w.plan.projection.of row) =
      Cursor.encode (Row.cell row w.column.name).cursorText := by
    rw [Gateway.cursorOf_eq, h.plan.cell_order, h.plan.order_column]
  rw [cursor]
  exact ⟨_, cursorCondition_encode converted _,
    fun other hother => ranks.chooses_behind h.term_column hrow notNull alike hother⟩

/-- Behind the last row that was shown, the walk stands before the rows that are left. -/
theorem next (h : Standing way n g m content w params done rest)
    (ranks : w.column.Ranks m g.source content) (t : σ) {row : Row}
    (last : (rest.take n).getLast? = some row) : ∃ cursor behind,
      cursor = Gateway.cursorOf w.order (w.plan.projection.of row) ∧
      Standing way n g m content (way.beyond w cursor behind) (params.set way.cursorName cursor)
        (done ++ rest.take n) (rest.drop n) := by
  have whole : done ++ rest.take n ++ rest.drop n = done ++ rest := by
    rw [List.append_assoc, List.take_append_drop]
  have inside : done ++ rest.take n ++ rest.drop n ⊆ content := whole ▸ h.subset
  have ordered : (done ++ rest.take n ++ rest.drop n).Pairwise (m.Precedes (way.term w.order)) := by
    rw [whole]
    exact h.ordered
  obtain ⟨met, -, across⟩ := List.pairwise_append.mp ordered
  have shown : row ∈ done ++ rest.take n := List.mem_append_right _ (List.mem_of_getLast? last)
  have lastMet : (done ++ rest.take n).getLast? = some row := by
    rw [List.getLast?_append, last, Option.some_or]
  obtain ⟨behind, condition, chooses⟩ :=
    h.cursor_chooses ranks (inside (List.mem_append_left _ shown))
  refine ⟨_, behind, rfl, h.plan.beyond condition, h.beyond_window _ _, ?_, ?_,
    fun other hother => ?_, fun other hother => ?_⟩
  · rw [whole, Way.beyond_filter]
    exact h.rows
  · rw [Way.beyond_order]
    exact ordered
  · rw [h.beyond_conditions t, Bool.eq_false_iff, Ne,
      chooses other (inside (List.mem_append_left _ hother))]
    exact ranks.not_behind_last h.term_column (fun _ h => inside (List.mem_append_left _ h)) met
      lastMet other hother
  · rw [h.beyond_conditions t, chooses other (inside (List.mem_append_right _ hother))]
    exact across row shown other hother

/-- From where it stands, the walk comes to an end, and its windows show the rest. -/
theorem walk (positive : 0 < n) {name : String} (s : Session σ δ)
    (h : Standing way n g m content w params done rest) (fixes : g.source.Fixes w.snapshot)
    (resolved : w.snapshot.resolve name = .ok w.table) (serves : g.db.Serves m w.table content)
    (ranks : w.column.Ranks m g.source content) : ∃ cs, Walk g name way params s cs ∧
      List.Forall₂ (w.Marks g.source) (way.along (rest.map w.plan.projection.of))
        ((way.along cs).flatMap Connection.edges) := by
  -- Each window but the last shows at least one row, so fewer are left behind it.
  induction size : rest.length using Nat.strong_induction_on generalizing w params done rest s with
  | h size ih =>
  obtain ⟨c, t, read, opens⟩ := h.read fixes resolved serves ranks s
  have edges := h.edges opens
  have goesOn := h.goesOn opens
  by_cases more : n < rest.length
  · obtain ⟨row, last⟩ : ∃ row, (rest.take n).getLast? = some row := by
      refine Option.ne_none_iff_exists'.mp fun none => ?_
      have empty := congrArg List.length (List.getLast?_eq_none_iff.mp none)
      rw [List.length_take, List.length_nil] at empty
      omega
    obtain ⟨cursor, behind, rfl, beyond⟩ := h.next ranks s.schema last
    obtain ⟨cs, walk, later⟩ := ih (rest.drop n).length (by rw [List.length_drop]; omega) t beyond
      (by simpa using fixes) (by simpa using resolved) (by simpa using serves) (by simpa using ranks)
      rfl
    refine ⟨c :: cs, .more read (goesOn.trans (decide_eq_true more)) (h.next? opens last) walk, ?_⟩
    rw [Way.beyond_plan] at later
    rw [← List.take_append_drop n rest, List.map_append]
    exact way.forall₂_along edges (later.imp fun _ _ => WindowPlan.marks_beyond.mp)
  · refine ⟨[c], .last read (goesOn.trans (decide_eq_false more)), ?_⟩
    rw [← List.append_nil (rest.map _)]
    rw [List.take_of_length_le (Nat.le_of_not_lt more)] at edges
    exact way.forall₂_along edges (by cases way <;> exact .nil)

end Standing

/-! ## The ends of a table -/

/-- The window of the first rows has a size that is a number within the bounds, and no cursor. -/
theorem CursorWindow.ofParams_first {params : Params} {size : String} {limits : Limits}
    {w : CursorWindow} (h : ofParams (params.set "first" size) limits = .ok w)
    (base : params.hasCursor = false) : ∃ n, 0 < n ∧
      Number.readNat? Number.maxSize (Text.trim size.toList) = some n ∧
      checkSize limits n = .ok () ∧ w.after = none ∧ w.before = none := by
  obtain ⟨first, -, -, bound, after, before⟩ := ofParams_eq_ok.mp h
  have absent := Params.first?_of_hasCursor base
  obtain ⟨n, hn, number⟩ : ∃ n, w.first = some n ∧
      Number.readNat? Number.maxSize (Text.trim size.toList) = some n := by
    rw [Params.size?, Params.first?_set, if_pos rfl] at first
    simp only at first
    split at first
    · rename_i n number
      exact ⟨n, (Except.ok.inj first).symm, number⟩
    · cases first
  have checked := bound n (.inl hn)
  have positive : 0 < n := by
    refine Nat.pos_of_ne_zero fun zero => ?_
    rw [checkSize, zero] at checked
    simp at checked
  rw [Params.first?_set, if_neg (by decide), absent "after" (by decide)] at after
  rw [Params.first?_set, if_neg (by decide), absent "before" (by decide)] at before
  exact ⟨n, positive, number, checked, after, before⟩

namespace Way

variable {params : Params} {size : String} {n : Nat}

/-- A size alone asks for the window at an end of the table. -/
theorem ofParams_window (way : Way) (base : params.hasCursor = false)
    (number : Number.readNat? Number.maxSize (Text.trim size.toList) = some n) {limits : Limits}
    (checked : CursorWindow.checkSize limits n = .ok ()) :
    CursorWindow.ofParams (params.set way.sizeName size) limits = .ok (way.window n none) := by
  have named := (Params.size?_set_self params way.sizeName size n).mpr number
  have unnamed : ∀ name ∈ Params.cursorNames, way.sizeName ≠ name →
      (params.set way.sizeName size).first? name = none := fun name hname different => by
    rw [Params.first?_set, if_neg different, Params.first?_of_hasCursor base name hname]
  have bound : ∀ m, (way.window n none).first = some m ∨ (way.window n none).last = some m →
      CursorWindow.checkSize limits m = .ok () := by
    intro m hm
    have same : n = m := by cases way <;> simpa [window] using hm
    exact same ▸ checked
  refine CursorWindow.ofParams_eq_ok.mpr ?_
  cases way
  · have last := unnamed "last" (by decide) (by decide)
    refine ⟨named, by rw [Params.size?, last]; rfl, .inr rfl, bound, ?_, ?_⟩
    · exact (unnamed "after" (by decide) (by decide)).symm
    · exact (unnamed "before" (by decide) (by decide)).symm
  · have first := unnamed "first" (by decide) (by decide)
    refine ⟨by rw [Params.size?, first]; rfl, named, .inl rfl, bound, ?_, ?_⟩
    · exact (unnamed "after" (by decide) (by decide)).symm
    · exact (unnamed "before" (by decide) (by decide)).symm

theorem pageSize (way : Way) (base : params.hasCursor = false)
    (number : Number.readNat? Number.maxSize (Text.trim size.toList) = some n) :
    Cost.pageSize (params.set way.sizeName size) = Cost.pageSize (params.set "first" size) := by
  cases way
  · rfl
  · exact Params.pageSize_last base number

end Way

/-- The window of so many rows at an end of the table, and nothing else changed. -/
def WindowPlan.atEnd (w : WindowPlan) (way : Way) (n : Nat) : WindowPlan :=
  { w with window := way.window n none }

/-- With a request for the first rows, the request for as many rows from either side is settled. -/
theorem WindowPlan.Of.atEnd {g : Gateway σ δ} {w : WindowPlan} {params : Params} {size : String}
    (h : w.Of g (params.set "first" size)) (base : params.hasCursor = false) (t : σ) :
    ∃ n, 0 < n ∧ w.after = [] ∧ w.before = [] ∧
      ∀ way : Way, (w.atEnd way n).Of g (params.set way.sizeName size) := by
  obtain ⟨n, positive, number, checked, after, before⟩ :=
    CursorWindow.ofParams_first h.window base
  have noAfter := h.after
  have noBefore := h.before
  rw [after] at noAfter
  rw [before] at noBefore
  refine ⟨n, positive, (Except.ok.inj (noAfter t)).symm, (Except.ok.inj (noBefore t)).symm,
    fun way => ?_⟩
  have chosen : way.sizeName ∈ Params.cursorNames := by cases way <;> decide
  have agree : (params.set way.sizeName size).Agree (params.set "first" size) :=
    (params.set_agree chosen size).trans (params.set_agree (by decide) size).symm
  obtain ⟨order, plan, filter⟩ := h.agree agree (way.pageSize base number)
  exact ⟨way.ofParams_window base number checked, order, plan, filter, h.column,
    by cases way <;> exact noAfter, by cases way <;> exact noBefore⟩

/-- At an end of the table, a walk stands before all rows that are chosen. -/
theorem Standing.start {way : Way} {n : Nat} {g : Gateway σ δ} {m : Semantics} {content : List Row}
    {w : WindowPlan} {params : Params} (plan : (w.atEnd way n).Of g params) (noAfter : w.after = [])
    (noBefore : w.before = []) (ranks : w.column.Ranks m g.source content) {rows : List Row}
    (chosen : rows.Perm (content.filter (m.chooses w.filter)))
    (ordered : rows.Pairwise (m.Precedes w.order)) :
    Standing way n g m content (w.atEnd way n) params [] (way.along rows) where
  plan := plan
  window := ⟨none, rfl⟩
  rows := by
    cases way
    · exact chosen
    · exact (List.reverse_perm rows).trans chosen
  ordered := by
    cases way
    · exact ordered
    · have named : w.order.column = w.column.name := plan.order_column
      have inside : ∀ row ∈ rows, row ∈ content := fun _ hrow =>
        (List.mem_filter.mp (chosen.mem_iff.mp hrow)).1
      refine List.pairwise_reverse.mpr (ordered.imp_of_mem fun ha hb precedes => ?_)
      exact ranks.precedes_reversed named (inside _ ha) (inside _ hb) precedes
  behind := by simp
  ahead row _ := by
    show m.chooses (w.after ++ w.before) row = true
    rw [noAfter, noBefore]
    rfl

/-! ## From end to end -/

namespace Gateway

variable {g : Gateway σ δ} {m : Semantics} {content : List Row} {w : WindowPlan} {params : Params}
  {name size : String}

/-- Where the order column tells the rows apart, the walks from either end come to the other one, and
meet the same rows: those that the filter chooses, in order. -/
theorem walks_rows (fixes : g.source.Fixes w.snapshot)
    (resolved : w.snapshot.resolve name = .ok w.table) (serves : g.db.Serves m w.table content)
    (base : params.hasCursor = false) (settled : w.Of g (params.set "first" size))
    (ranks : w.column.Ranks m g.source content) (s : Session σ δ) :
    ∃ rows, rows.Perm (content.filter (m.chooses w.filter)) ∧ m.Sorted [w.order] rows ∧
      ∀ (way : Way) (u : Session σ δ), ∃ cs, Walk g name way (params.set way.sizeName size) u cs ∧
        List.Forall₂ (w.Marks g.source) (rows.map w.plan.projection.of)
          ((way.along cs).flatMap Connection.edges) := by
  obtain ⟨n, positive, noAfter, noBefore, atEnd⟩ := settled.atEnd base s.schema
  obtain ⟨-, -, rows, chosen, sorted, -⟩ :=
    serves.pages ((w.atEnd .forward n).selection g.config.limits) s.database rfl rfl
  replace chosen : rows.Perm (content.filter (m.chooses w.filter)) := by
    have all : ((w.atEnd .forward n).selection g.config.limits).filter = w.filter := by
      show w.filter ++ w.after ++ w.before = w.filter
      rw [noAfter, noBefore, List.append_nil, List.append_nil]
    rwa [all] at chosen
  replace sorted : m.Sorted [w.order] rows := sorted
  have ordered := ranks.precedes_of_sorted settled.order_column chosen sorted
  refine ⟨rows, chosen, sorted, fun way u => ?_⟩
  have start := Standing.start (atEnd way) noAfter noBefore ranks chosen ordered
  obtain ⟨cs, walk, marks⟩ := start.walk positive u fixes resolved serves ranks
  refine ⟨cs, walk, ?_⟩
  have shown : way.along ((way.along rows).map w.plan.projection.of) =
      rows.map w.plan.projection.of := by
    cases way
    · rfl
    · rw [Way.along, Way.along, List.map_reverse, List.reverse_reverse]
  rw [← shown]
  exact marks.imp fun _ _ h => ⟨h.cursor, h.node⟩

end Gateway

end TableGateway
