import TableGateway.Proofs.CursorParams
import TableGateway.Proofs.Injection
import TableGateway.Proofs.Refusal

/-!
# The limits on what a request asks for

The estimate of a request counts its fields and how deep its relations are nested. A request to read is
checked against the limits before any statement about rows is sent, unless a size of a page that it
names cannot be read: then there is no estimate, and the request is let through. Some of these sizes the
operation reads itself, and refuses the request if it cannot. Main statement: `Operation.read_bounded`.
-/
namespace TableGateway

variable {σ δ : Type}

/-! ## Depth and size -/

namespace Field

mutual

/-- The deepest level of a relation in a list, and 0 without relations. -/
def depthIn : List Field → Nat
  | [] => 0
  | f :: rest => max (depth f) (depthIn rest)

/-- The deepest level of a relation in a field, which itself is at the first level. -/
def depth : Field → Nat
  | relation _ _ children _ => depthIn children + 1
  | _ => 0

end

mutual

/-- The number of fields in a list, at all levels. -/
def sizeIn : List Field → Nat
  | [] => 0
  | f :: rest => size f + sizeIn rest

/-- The number of fields in a field, itself among them. -/
def size : Field → Nat
  | relation _ _ children _ => sizeIn children + 1
  | _ => 1

end

theorem depthIn_le_iff {n : Nat} {fields : List Field} : depthIn fields ≤ n ↔ ∀ f ∈ fields, f.depth ≤ n := by
  induction fields with
  | nil => simp [depthIn]
  | cons f rest ih => rw [depthIn, Nat.max_le, ih, List.forall_mem_cons]

end Field

namespace Cost

@[simp] theorem charge_depth (c : Cost) (points : Nat) : (c.charge points).depth = c.depth := rfl
@[simp] theorem charge_breadth (c : Cost) (points : Nat) : (c.charge points).breadth = c.breadth := rfl
@[simp] theorem count_depth (c : Cost) : c.count.depth = c.depth := rfl

mutual

/-- The depth is that of the fields, below the level at which they stand. -/
theorem addFields_depth : ∀ (fields : List Field) {level : Nat} {c : Cost}, level ≤ c.depth →
    (addFields (level + 1) c fields).depth = max c.depth (level + Field.depthIn fields)
  | [], level, c, h => (Nat.max_eq_left h).symm
  | f :: rest, level, c, h => by
    -- A relation counts its level before its children are reached, so the bound is kept on the way down.
    have first := addField_depth f (c := c.count) h
    have reached : level ≤ (addField (level + 1) c.count f).depth := by
      rw [first]
      exact Nat.le_trans h (Nat.le_max_left _ _)
    rw [addFields, addFields_depth rest reached, first, Field.depthIn, count_depth]
    omega

theorem addField_depth : ∀ (f : Field) {level : Nat} {c : Cost}, level ≤ c.depth →
    (addField (level + 1) c f).depth = max c.depth (level + f.depth)
  | .wildcard, level, c, h => (Nat.max_eq_left h).symm
  | .column name, level, c, h => (Nat.max_eq_left h).symm
  | .relation name label children filters, level, c, h => by
    rw [addField, charge_depth, addFields_depth children (Nat.le_max_right _ _), Field.depth]
    show max (max c.depth (level + 1)) _ = _
    omega

end

mutual

/-- The breadth is the number of the fields. -/
theorem addFields_breadth : ∀ (fields : List Field) (level : Nat) {c : Cost},
    c.breadth ≤ Number.maxWord →
    (addFields level c fields).breadth = clamp (c.breadth + Field.sizeIn fields)
  | [], level, c, h => (Nat.min_eq_left h).symm
  | f :: rest, level, c, h => by
    have first := addField_breadth f level c
    have bounded : (addField level c.count f).breadth ≤ Number.maxWord := by
      rw [first]
      exact Nat.min_le_right _ _
    rw [addFields, addFields_breadth rest level bounded, first, Field.sizeIn]
    unfold clamp
    omega

/-- A field is counted before what is within. -/
theorem addField_breadth : ∀ (f : Field) (level : Nat) (c : Cost),
    (addField level c.count f).breadth = clamp (c.breadth + f.size)
  | .wildcard, level, c => rfl
  | .column name, level, c => rfl
  | .relation name label children filters, level, c => by
    have within : (addFields (level + 1) { c.count with depth := max c.depth level } children).breadth =
        clamp (clamp (c.breadth + 1) + Field.sizeIn children) :=
      addFields_breadth children (level + 1) (Nat.min_le_right _ _)
    rw [addField, charge_breadth]
    refine within.trans ?_
    rw [Field.size]
    unfold clamp
    omega

end

/-- Steps that add to the score only keep both counts. -/
theorem foldl_counts {α : Type} {f : Cost → α → Cost}
    (h : ∀ c a, (f c a).depth = c.depth ∧ (f c a).breadth = c.breadth) (l : List α) (c : Cost) :
    (l.foldl f c).depth = c.depth ∧ (l.foldl f c).breadth = c.breadth := by
  induction l generalizing c with
  | nil => exact ⟨rfl, rfl⟩
  | cons a l ih =>
    obtain ⟨depth, breadth⟩ := h c a
    rw [List.foldl_cons, (ih (f c a)).1, (ih (f c a)).2]
    exact ⟨depth, breadth⟩

theorem addFilters_counts (params : Params) (c : Cost) :
    (addFilters params c).depth = c.depth ∧ (addFilters params c).breadth = c.breadth := by
  refine foldl_counts (fun c pair => ?_) _ c
  refine foldl_counts (fun c value => ?_) _ c
  exact ⟨rfl, rfl⟩

theorem addEmbedded_counts (params : Params) (c : Cost) :
    (addEmbedded params c).depth = c.depth ∧ (addEmbedded params c).breadth = c.breadth := by
  refine foldl_counts (fun c condition => ?_) _ c
  exact ⟨rfl, rfl⟩

/-- A request whose sizes can be read has an estimate, with the depth and the number of its fields. -/
theorem analyze_of_pageSize {params : Params} {rows : Nat} (h : pageSize params = .ok rows)
    (fields : List Field) :
    ∃ c, analyze fields params = .ok c ∧ c.depth = Field.depthIn fields ∧
      c.breadth = clamp (Field.sizeIn fields) := by
  unfold analyze
  rw [h]
  refine ⟨_, rfl, ?_, ?_⟩
  · rw [charge_depth, (addEmbedded_counts params _).1, (addFilters_counts params _).1,
      addFields_depth fields (Nat.zero_le _)]
    exact (Nat.zero_max _).trans (Nat.zero_add _)
  · rw [charge_breadth, (addEmbedded_counts params _).2, (addFilters_counts params _).2,
      addFields_breadth fields 1 (Nat.zero_le _)]
    exact congrArg clamp (Nat.zero_add _)

theorem check_eq_ok {limits : ComplexityLimits} {c : Cost} : c.check limits = .ok () ↔
    c.depth ≤ limits.maxDepth ∧ c.breadth ≤ limits.maxBreadth ∧ c.score ≤ limits.maxScore := by
  unfold check
  split_ifs <;> simp only [false_iff, true_iff] <;> omega

end Cost

/-! ## Sizes of pages -/

/-- The parameters for the size of a page, all of which have a part in the estimate. -/
def Params.sizeNames : List String := ["limit", "size", "first", "last"]

/-- The size is absent or a number. -/
def Params.Readable (params : Params) (name : String) : Prop := ∃ n, params.size? name = .ok n

theorem Cost.pageSize_readable {params : Params}
    (h : ∀ name ∈ Params.sizeNames, params.Readable name) :
    ∃ rows, pageSize params = .ok rows := by
  obtain ⟨limit, hlimit⟩ := h "limit" (by decide)
  obtain ⟨size, hsize⟩ := h "size" (by decide)
  obtain ⟨first, hfirst⟩ := h "first" (by decide)
  obtain ⟨last, hlast⟩ := h "last" (by decide)
  rw [Params.pageSize_eq, hlimit, hsize, hfirst, hlast]
  exact ⟨_, rfl⟩

/-- A page reads its limit, and its size if there is no limit. -/
theorem Page.ofParams_readable {params : Params} {limits : Limits} {page : Page}
    (h : Page.ofParams params limits = .ok page) :
    params.Readable "limit" ∧ (params.first? "limit" = none → params.Readable "size") := by
  unfold Page.ofParams at h
  cases limit : params.size? "limit" with
  | error e =>
    rw [limit] at h
    cases h
  | ok n =>
    refine ⟨⟨n, limit⟩, fun absent => ?_⟩
    have unlimited : n = none := by
      rw [Params.size?, absent] at limit
      exact (Except.ok.inj limit).symm
    cases size : params.size? "size" with
    | error e =>
      rw [limit, unlimited, size] at h
      cases h
    | ok m => exact ⟨m, size⟩

namespace Operation

def isRead : Operation → Bool
  | list .. | window .. | get .. => true
  | _ => false

/-- The sizes that the operation does not read itself. A page reads its size only without a limit, a
window reads what it asks for from either side, and a single row needs none. -/
def unreadSizes : Operation → List String
  | list _ params =>
    if params.first? "limit" = none then ["first", "last"] else ["size", "first", "last"]
  | window .. => ["limit", "size"]
  | get .. => Params.sizeNames
  | create .. | update .. | upsert .. | delete .. => []

variable {params : Params} {name : String}

/-- Of a page that is read, all sizes are read if those are that the page itself leaves. -/
theorem list_readable {limits : Limits} {page : Page} (h : Page.ofParams params limits = .ok page)
    (unread : ∀ size ∈ (list name params).unreadSizes, params.Readable size) :
    ∀ size ∈ Params.sizeNames, params.Readable size := by
  obtain ⟨limit, size⟩ := Page.ofParams_readable h
  by_cases absent : params.first? "limit" = none
  · simp only [unreadSizes, if_pos absent, List.forall_mem_cons] at unread
    simpa [Params.sizeNames] using ⟨limit, size absent, unread.1, unread.2.1⟩
  · simp only [unreadSizes, if_neg absent, List.forall_mem_cons] at unread
    simpa [Params.sizeNames] using ⟨limit, unread.1, unread.2.1, unread.2.2.1⟩

theorem window_readable {limits : Limits} {w : CursorWindow}
    (h : CursorWindow.ofParams params limits = .ok w)
    (unread : ∀ size ∈ (window name params).unreadSizes, params.Readable size) :
    ∀ size ∈ Params.sizeNames, params.Readable size := by
  obtain ⟨first, last, -⟩ := CursorWindow.ofParams_eq_ok.mp h
  simp only [unreadSizes, List.forall_mem_cons] at unread
  simpa [Params.sizeNames] using ⟨unread.1, unread.2.1, ⟨_, first⟩, ⟨_, last⟩⟩

end Operation

/-! ## Requests -/

/-- The fields that a request asks for are nested no deeper and are no more than the limits allow. The
largest number of 32 bits is no limit, since fields are not counted beyond. -/
def Params.Bounded (limits : ComplexityLimits) (params : Params) : Prop :=
  ∃ fields, Plan.fieldsOf params = .ok fields ∧ Field.depthIn fields ≤ limits.maxDepth ∧
    (Field.sizeIn fields ≤ limits.maxBreadth ∨ Number.maxWord ≤ limits.maxBreadth)

/-- Fields that pass the check are within the limits, if there is an estimate. -/
theorem Cost.checkRequest_bounds {limits : ComplexityLimits} (enabled : limits.enabled = true)
    {params : Params} (readable : ∀ size ∈ Params.sizeNames, params.Readable size) {fields : List Field}
    (h : checkRequest limits fields params = .ok ()) :
    Field.depthIn fields ≤ limits.maxDepth ∧
      (Field.sizeIn fields ≤ limits.maxBreadth ∨ Number.maxWord ≤ limits.maxBreadth) := by
  obtain ⟨rows, hrows⟩ := pageSize_readable readable
  obtain ⟨c, estimate, depth, breadth⟩ := analyze_of_pageSize hrows fields
  rw [checkRequest, enabled, estimate] at h
  obtain ⟨deep, broad, -⟩ := check_eq_ok.mp h
  rw [depth] at deep
  rw [breadth, clamp] at broad
  exact ⟨deep, by omega⟩

theorem Plan.ofParams_bounded {limits : ComplexityLimits} (enabled : limits.enabled = true)
    {params : Params} (readable : ∀ size ∈ Params.sizeNames, params.Readable size)
    (snapshot : Snapshot) (table : Table) (required : List String) :
    Outcome (fun _ => params.Bounded limits) (fun _ => True)
      (Plan.ofParams limits snapshot table params required) := by
  unfold ofParams
  refine .bind (.self _) fun fields hfields => .bind (.self _) fun _ passed => ?_
  have bounds := Cost.checkRequest_bounds enabled readable passed
  exact .bind (.any _) fun projection _ => .ok ⟨fields, hfields, bounds⟩

namespace Gateway

variable {g : Gateway σ δ} {params : Params}

/-- The statement may be sent for a request to read: it asks for the privilege, or the request is within
the limits. -/
def Allows (g : Gateway σ δ) (params : Params) (st : Statement) : Prop :=
  AsksToRead st ∨ params.Bounded g.config.complexity

theorem readable_allows (snapshot : Snapshot) (name : String) :
    (g.readable snapshot name).Sends (g.Allows params) (fun _ => True) (fun _ => True) :=
  (readable_sends (fun table => .inl ⟨table, rfl⟩) snapshot name).mono (fun _ => id)
    (fun _ _ => trivial) fun _ => id

theorem materialize_allows (bounded : params.Bounded g.config.complexity) (snapshot : Snapshot)
    (table : Table) (plan : Plan) (rows : List Row) :
    (g.materialize snapshot table plan rows).Sends (g.Allows params) (fun _ => True)
      (fun _ => True) := by
  have named : snapshot.Named fun _ => True := fun _ _ _ _ => trivial
  exact (materialize_sends (L := fun _ => True) named table plan rows).mono
    (fun _ _ => .inr bounded) (fun _ => id) fun _ => id

variable (enabled : g.config.complexity.enabled = true)
include enabled

theorem list_allows (name : String)
    (unread : ∀ size ∈ (Operation.list name params).unreadSizes, params.Readable size) :
    (g.list name params).Sends (g.Allows params) (fun _ => True) (fun _ => True) := by
  unfold list
  refine .bind (snapshot_sends (S := fun _ => True) fun _ _ _ => trivial) fun snapshot _ => ?_
  refine .bind (readable_allows snapshot name) fun table _ => ?_
  refine .bind (.known (.self _)) fun page hpage => ?_
  have readable := Operation.list_readable hpage unread
  refine .bind (.known (Plan.ofParams_bounded enabled readable _ _ _)) fun plan bounded => ?_
  refine .bind (.look (.any _)) fun filter _ => ?_
  refine .bind (.known (.any _)) fun order _ => ?_
  refine .bind (count_sends (.inr bounded)) fun total _ => ?_
  refine .bind (fetch_sends (.inr bounded)) fun rows _ => ?_
  exact .bind (materialize_allows bounded snapshot table plan rows) fun _ _ => .pure trivial

theorem window_allows (name : String)
    (unread : ∀ size ∈ (Operation.window name params).unreadSizes, params.Readable size) :
    (g.window name params).Sends (g.Allows params) (fun _ => True) (fun _ => True) := by
  unfold window
  refine .bind (snapshot_sends (S := fun _ => True) fun _ _ _ => trivial) fun snapshot _ => ?_
  refine .bind (readable_allows snapshot name) fun table _ => ?_
  refine .bind (.known (.self _)) fun window hwindow => ?_
  refine .bind (.known (.any _)) fun order _ => ?_
  have readable := Operation.window_readable hwindow unread
  refine .bind (.known (Plan.ofParams_bounded enabled readable _ _ _)) fun plan bounded => ?_
  refine .bind (.look (.any _)) fun filter _ => ?_
  refine .bind (.known (.any _)) fun column _ => ?_
  refine .bind (.look (.any _)) fun after _ => ?_
  refine .bind (.look (.any _)) fun before _ => ?_
  refine .bind (count_sends (.inr bounded)) fun total _ => ?_
  refine .bind (fetch_sends (.inr bounded)) fun rows _ => ?_
  exact .bind (materialize_allows bounded snapshot table plan _) fun _ _ => .pure trivial

theorem get_allows (name key : String)
    (unread : ∀ size ∈ (Operation.get name key params).unreadSizes, params.Readable size) :
    (g.get name key params).Sends (g.Allows params) (fun _ => True) (fun _ => True) := by
  unfold get
  refine .bind (snapshot_sends (S := fun _ => True) fun _ _ _ => trivial) fun snapshot _ => ?_
  refine .bind (readable_allows snapshot name) fun table _ => ?_
  refine .bind (.known (Plan.ofParams_bounded enabled unread _ _ _)) fun plan bounded => ?_
  refine .bind (.look (.any _)) fun filter _ => ?_
  refine .bind (fetch_sends (.inr bounded)) fun rows _ => ?_
  refine .bind (materialize_allows bounded snapshot table plan _) fun records _ => ?_
  exact found_sends _ (fun _ => trivial) trivial

end Gateway

/-- If the limits are enforced, and the sizes that the operation does not read itself can be read, then
each statement that is sent for a request to read asks for the privilege, or the request is within the
limits. -/
theorem Operation.read_bounded (g : Gateway σ δ) {o : Operation} (reads : o.isRead = true)
    (enabled : g.config.complexity.enabled = true)
    (unread : ∀ size ∈ o.unreadSizes, o.params.Readable size) (schema : σ) (database : δ) :
    ∀ st ∈ ((o.perform g).run { schema, database }).2.sent, ¬ Gateway.AsksToRead st →
      o.params.Bounded g.config.complexity := by
  have allows : (o.perform g).Sends (g.Allows o.params) (fun _ => True) (fun _ => True) := by
    cases o with
    | list name params => exact .bind (Gateway.list_allows enabled name unread) fun _ _ => .pure trivial
    | window name params =>
      exact .bind (Gateway.window_allows enabled name unread) fun _ _ => .pure trivial
    | get name key params =>
      exact .bind (Gateway.get_allows enabled name key unread) fun _ _ => .pure trivial
    | create => cases reads
    | update => cases reads
    | upsert => cases reads
    | delete => cases reads
  intro st sent other
  exact ((allows.fresh schema database).1 st sent).resolve_left other

def Statement.isSelection : Statement → Bool
  | select _ => true
  | _ => false

/-- A selection is no question for a privilege. -/
theorem Statement.exists_other {sent : List Statement} (h : sent.any isSelection = true) :
    ∃ st ∈ sent, ¬ Gateway.AsksToRead st := by
  obtain ⟨st, hst, selects⟩ := List.any_eq_true.mp h
  refine ⟨st, hst, ?_⟩
  rintro ⟨table, rfl⟩
  cases selects

/-- A page of the numbers and titles of notes. -/
def titlesOfNotes : Operation := .list "notes" [("select", ["id,title"]), ("size", ["5"])]

theorem read_bounded_titles :
    titlesOfNotes.isRead = true ∧ notesGateway.config.complexity.enabled = true ∧
    (∀ size ∈ titlesOfNotes.unreadSizes, titlesOfNotes.params.Readable size) ∧
    (∃ st ∈ ((titlesOfNotes.perform notesGateway).run { schema := (), database := () }).2.sent,
      ¬ Gateway.AsksToRead st) ∧
    titlesOfNotes.params.Bounded notesGateway.config.complexity := by
  have unread : ∀ size ∈ titlesOfNotes.unreadSizes, titlesOfNotes.params.Readable size := by
    have both : ∀ size ∈ ["first", "last"], titlesOfNotes.params.Readable size :=
      List.forall_mem_cons.mpr ⟨⟨none, rfl⟩, List.forall_mem_singleton.mpr ⟨none, rfl⟩⟩
    exact both
  have other : ∃ st ∈ ((titlesOfNotes.perform notesGateway).run
      { schema := (), database := () }).2.sent, ¬ Gateway.AsksToRead st :=
    Statement.exists_other (by decide +kernel)
  obtain ⟨st, hst, hother⟩ := other
  exact ⟨rfl, rfl, unread, ⟨st, hst, hother⟩,
    Operation.read_bounded notesGateway rfl rfl unread () () st hst hother⟩

/-- A single note with relations at four levels, and with a limit that is no number. -/
def nestedNote : Operation :=
  .get "notes" "1" [("limit", ["lots"]), ("select", ["a(b(c(d(*))))"])]

/-- A size that cannot be read lets a request through that is beyond the limits. -/
theorem nestedNote_unbounded :
    nestedNote.isRead = true ∧ notesGateway.config.complexity.enabled = true ∧
    (∃ st ∈ ((nestedNote.perform notesGateway).run { schema := (), database := () }).2.sent,
      ¬ Gateway.AsksToRead st) ∧
    ∃ fields, Plan.fieldsOf nestedNote.params = .ok fields ∧
      notesGateway.config.complexity.maxDepth < Field.depthIn fields := by
  refine ⟨rfl, rfl, Statement.exists_other (by decide +kernel), ?_⟩
  have deep : (Plan.fieldsOf nestedNote.params).toOption.map Field.depthIn = some 4 := by
    decide +kernel
  cases asked : Plan.fieldsOf nestedNote.params with
  | error e =>
    rw [asked] at deep
    cases deep
  | ok fields =>
    rw [asked] at deep
    refine ⟨fields, rfl, ?_⟩
    rw [Option.some.inj deep]
    decide

end TableGateway
