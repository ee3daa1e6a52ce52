import TableGateway.Gateway.Read

/-!
# The parameters of a window

`first`, `last`, `after` and `before` choose the window of a request and change nothing else in it: its
fields, its filters and its order are those of the other parameters. Main statements:
`Params.Agree.fieldsOf`, `Params.Agree.conditions`, `Params.Agree.cursorOrder`.
-/
namespace TableGateway

/-! ## Entries -/

namespace Entries

variable {α β : Type}

/-- An entry that a selection passes over may be inserted before or after the selection. -/
theorem filterMap_insert {f : String × α → Option β} {key : String} (h : ∀ v, f (key, v) = none)
    (value : α) (entries : Entries α) :
    (insert key value entries).filterMap f = entries.filterMap f := by
  induction entries with
  | nil => simp [insert, h]
  | cons e rest ih =>
    obtain ⟨k, v⟩ := e
    rw [insert]
    split
    · simp [List.filterMap_cons, h]
    · split
      · rename_i same
        simp [h, same]
      · simp [List.filterMap_cons, ih]

end Entries

namespace Params

/-! ## One value for a parameter -/

/-- The parameters with the one value for a name, in place of those that it has. -/
def set (params : Params) (name value : String) : Params := Entries.insert name [value] params

theorem first?_set (params : Params) (name name' value : String) :
    (params.set name value).first? name' = if name = name' then some value else params.first? name' := by
  unfold first? values set
  rw [Entries.get?_insert]
  split <;> rfl

/-- The parameters that choose the window of a request. -/
def cursorNames : List String := ["first", "after", "last", "before"]

/-- The requests differ in their windows only. -/
structure Agree (p q : Params) : Prop where
  filters : p.filters = q.filters
  embedded : p.embedded = q.embedded
  first? : ∀ name ∉ cursorNames, p.first? name = q.first? name

theorem Agree.trans {p q r : Params} (h : p.Agree q) (h' : q.Agree r) : p.Agree r :=
  ⟨h.filters.trans h'.filters, h.embedded.trans h'.embedded,
    fun name hname => (h.first? name hname).trans (h'.first? name hname)⟩

theorem Agree.symm {p q : Params} (h : p.Agree q) : q.Agree p :=
  ⟨h.filters.symm, h.embedded.symm, fun name hname => (h.first? name hname).symm⟩

theorem set_agree (params : Params) {name : String} (h : name ∈ cursorNames) (value : String) :
    (params.set name value).Agree params := by
  have reserved : isReserved name = true := by
    simp only [cursorNames, List.mem_cons, List.not_mem_nil, or_false] at h
    rcases h with rfl | rfl | rfl | rfl <;> decide
  refine ⟨?_, Entries.filterMap_insert (fun v => by simp [reserved]) [value] params, fun other hother => ?_⟩
  · simp only [filters, set, ← List.filterMap_eq_filter]
    exact Entries.filterMap_insert (fun v => by simp [Option.guard, reserved]) [value] params
  · have different : name ≠ other := fun same => hother (same ▸ h)
    rw [first?_set, if_neg different]

namespace Agree

variable {σ : Type} {p q : Params}

theorem fieldsOf (h : p.Agree q) : Plan.fieldsOf p = Plan.fieldsOf q := by
  unfold Plan.fieldsOf Select.attachFilters
  rw [h.first? "select" (by decide), h.first? "expand" (by decide), h.embedded]

theorem conditions (h : p.Agree q) (source : SchemaSource σ) (table : Table) :
    Filter.conditions source table p = Filter.conditions source table q := by
  unfold Filter.conditions
  rw [h.filters]

theorem cursorOrder (h : p.Agree q) (table : Table) :
    TableGateway.cursorOrder table p = TableGateway.cursorOrder table q := by
  unfold TableGateway.cursorOrder OrderTerm.ofParams
  rw [h.first? "order" (by decide), h.first? "orderBy" (by decide),
    h.first? "orderDirection" (by decide)]

/-- Requests for windows of the same size are planned alike. -/
theorem plan (h : p.Agree q) (same : Cost.pageSize p = Cost.pageSize q) (limits : ComplexityLimits)
    (snapshot : Snapshot) (table : Table) (required : List String) :
    Plan.ofParams limits snapshot table p required = Plan.ofParams limits snapshot table q required := by
  unfold Plan.ofParams Cost.checkRequest Cost.analyze Cost.addFilters Cost.addEmbedded
  rw [h.fieldsOf, same, h.filters, h.embedded]

end Agree

/-! ## Sizes -/

theorem size?_set_other (params : Params) {name name' : String} (h : name ≠ name') (value : String) :
    (params.set name value).size? name' = params.size? name' := by
  unfold size?
  rw [first?_set, if_neg h]

theorem size?_set_self (params : Params) (name value : String) (n : Nat) :
    (params.set name value).size? name = .ok (some n) ↔
      Number.readNat? Number.maxSize (Text.trim value.toList) = some n := by
  simp only [size?, first?_set, if_true]
  cases Number.readNat? Number.maxSize (Text.trim value.toList) <;> simp

theorem pageSize_eq (params : Params) : Cost.pageSize params = (do
    let limit ← params.size? "limit"
    let size ← params.size? "size"
    let first ← params.size? "first"
    let last ← params.size? "last"
    return ([limit, size, first, last].filterMap id).foldl max 0) := by
  simp [Cost.pageSize, List.mapM_cons]

/-- A cursor has no part in the size of a page. -/
theorem pageSize_cursor (params : Params) {name : String} (h : name = "after" ∨ name = "before")
    (cursor : String) : Cost.pageSize (params.set name cursor) = Cost.pageSize params := by
  have other : ∀ name' ∈ ["limit", "size", "first", "last"], name ≠ name' := by
    rintro name' hname' rfl
    rcases h with rfl | rfl <;> simp at hname'
  rw [pageSize_eq, pageSize_eq, size?_set_other _ (other "limit" (by decide)),
    size?_set_other _ (other "size" (by decide)), size?_set_other _ (other "first" (by decide)),
    size?_set_other _ (other "last" (by decide))]

/-- A request that asks for no window names no part of one. -/
theorem first?_of_hasCursor {params : Params} (h : params.hasCursor = false) :
    ∀ name ∈ cursorNames, params.first? name = none := by
  intro name hname
  have absent : Entries.has name params = false :=
    (List.any_eq_false.mp h name hname) |> Bool.eq_false_iff.mpr
  rw [Entries.has, Option.isSome_eq_false_iff, Option.isNone_iff_eq_none] at absent
  rw [first?, values, absent]
  rfl

/-- A page from the back costs what one of the same size from the front costs. -/
theorem pageSize_last {params : Params} (base : params.hasCursor = false) {value : String} {n : Nat}
    (number : Number.readNat? Number.maxSize (Text.trim value.toList) = some n) :
    Cost.pageSize (params.set "last" value) = Cost.pageSize (params.set "first" value) := by
  have absent : ∀ name ∈ cursorNames, params.size? name = .ok none := fun name hname => by
    rw [size?, first?_of_hasCursor base name hname]
  have size := fun name => (size?_set_self params name value n).mpr number
  have first : (params.set "last" value).size? "first" = .ok none :=
    (size?_set_other params (by decide) value).trans (absent "first" (by decide))
  have last : (params.set "first" value).size? "last" = .ok none :=
    (size?_set_other params (by decide) value).trans (absent "last" (by decide))
  have limit := fun name (h : name ≠ "limit") => size?_set_other params h value
  have rows := fun name (h : name ≠ "size") => size?_set_other params h value
  rw [pageSize_eq, pageSize_eq, first, last, size, size, limit "first" (by decide),
    limit "last" (by decide), rows "first" (by decide), rows "last" (by decide)]
  rfl

end Params

/-! ## Windows -/

namespace CursorWindow

variable {params : Params} {limits : Limits} {w : CursorWindow}

/-- A window asks for rows from one side at most, within the bounds on its size. -/
theorem ofParams_eq_ok : ofParams params limits = .ok w ↔
    params.size? "first" = .ok w.first ∧ params.size? "last" = .ok w.last ∧
      (w.first = none ∨ w.last = none) ∧
      (∀ n, w.first = some n ∨ w.last = some n → checkSize limits n = .ok ()) ∧
      w.after = params.first? "after" ∧ w.before = params.first? "before" := by
  obtain ⟨first, after, last, before⟩ := w
  unfold ofParams
  cases params.size? "first" with
  | error e => simp [bind, Except.bind]
  | ok f =>
    cases params.size? "last" with
    | error e => simp [bind, Except.bind]
    | ok l =>
      cases f with
      | none =>
        cases l with
        | none =>
          simp [bind, Except.bind, pure, Except.pure]
          grind
        | some l =>
          simp [bind, Except.bind, pure, Except.pure]
          cases checked : checkSize limits l <;> simp <;> grind
      | some f =>
        cases l with
        | none =>
          simp [bind, Except.bind, pure, Except.pure]
          cases checked : checkSize limits f <;> simp <;> grind
        | some l =>
          simp [bind, Except.bind, throw, throwThe, MonadExceptOf.throw]
          grind

theorem ofParams_after (h : ofParams params limits = .ok w) (cursor : String) :
    ofParams (params.set "after" cursor) limits = .ok { w with after := some cursor } := by
  obtain ⟨first, last, side, bound, -, before⟩ := ofParams_eq_ok.mp h
  refine ofParams_eq_ok.mpr ⟨?_, ?_, side, bound, ?_, ?_⟩
  · rw [Params.size?_set_other _ (by decide), first]
  · rw [Params.size?_set_other _ (by decide), last]
  · rw [Params.first?_set, if_pos rfl]
  · rw [Params.first?_set, if_neg (by decide), before]

theorem ofParams_before (h : ofParams params limits = .ok w) (cursor : String) :
    ofParams (params.set "before" cursor) limits = .ok { w with before := some cursor } := by
  obtain ⟨first, last, side, bound, after, -⟩ := ofParams_eq_ok.mp h
  refine ofParams_eq_ok.mpr ⟨?_, ?_, side, bound, ?_, ?_⟩
  · rw [Params.size?_set_other _ (by decide), first]
  · rw [Params.size?_set_other _ (by decide), last]
  · rw [Params.first?_set, if_neg (by decide), after]
  · rw [Params.first?_set, if_pos rfl]

end CursorWindow
end TableGateway
