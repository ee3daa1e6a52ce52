import TableGateway.Gateway.Operation
import TableGateway.Proofs.Denial

/-!
# Requests with denied texts

A request to read a table is refused if a value of one of its filters is denied, in whatever part of the
filter the denied text stands. All that is sent for such a request is the question for the privilege.
Main statement: `Params.denied_refused`.
-/
namespace TableGateway

open Denylist

variable {σ δ : Type}

/-! ## Filters -/

namespace Filter

variable (source : SchemaSource σ) {table : Table}

/-- A denied expression is no condition, whatever its operator. -/
theorem condition_refused (column : String) {raw : String} (denied : Denied raw.toList) :
    (condition source table column raw).Ends (fun _ => False) (·.isValidation = true) := by
  unfold condition
  refine .bind (.known (table.resolve_outcome column)) fun column _ => ?_
  have refused := (checkValue_valid (FilterExpr.parse raw).value).fails fun _ passed =>
    checkValue_ok_iff.mp passed denied.parse
  exact .bind (.known refused) fun _ h => h.elim

/-- In a denied alternative, either the column is denied or the expression. -/
theorem alternative_refused (unreserved : table.Unreserved) {cs : List Char} (denied : Denied cs) :
    (alternative source table cs).Ends (fun _ => False) (·.isValidation = true) := by
  unfold alternative
  split
  · rename_i column raw cut
    rw [(Text.cut?_eq_some cut).1] at denied
    rcases denied.cut (separates_of_mem (by simp)) with denied | denied
    · unfold condition
      refine .bind (.known (unreserved.not_resolved ?_)) fun _ h => h.elim
      simpa using denied
    · exact condition_refused source _ (by simpa using denied)
  · exact .throw rfl

theorem orGroup_refused (unreserved : table.Unreserved) {group : String}
    (denied : Denied group.toList) :
    (orGroup source table group).Ends (fun _ => False) (·.isValidation = true) := by
  obtain ⟨cs, hcs, denied⟩ := denied.alternative
  unfold orGroup
  refine .bind (Q := fun _ => False) ?_ fun _ h => h.elim
  exact .mapM_fails (fun cs _ => alternative_ends source table cs) hcs
    (alternative_refused source unreserved denied)

theorem conjunct_refused (unreserved : table.Unreserved) (name : String) {value : String}
    (denied : Denied value.toList) :
    (conjunct source table name value).Ends (fun _ => False) (·.isValidation = true) := by
  unfold conjunct
  split
  · exact orGroup_refused source unreserved denied
  · exact .bind (condition_refused source name denied) fun _ h => h.elim

/-- One denied value is enough to refuse all filters of a request. -/
theorem conditions_refused (unreserved : table.Unreserved) {params : Params}
    {pair : String × String} (h : pair ∈ params.pairs) (denied : Denied pair.2.toList) :
    (conditions source table params).Ends (fun _ => False) (·.isValidation = true) := by
  have refused := conjunct_refused source unreserved pair.1 denied
  exact Lookup.Ends.mapM_fails (f := fun pair => conjunct source table pair.1 pair.2)
    (fun pair _ => conjunct_ends source table pair.1 pair.2) h refused

end Filter

/-- A value of a parameter that is not reserved and has no point is a value of a filter. -/
theorem Params.mem_pairs {params : Params} {name value : String} {values : List String}
    (h : (name, values) ∈ params) (hv : value ∈ values) (free : Params.isReserved name = false)
    (plain : '.' ∉ name.toList) : (name, value) ∈ params.pairs := by
  refine List.mem_flatMap.mpr ⟨(name, values), List.mem_filter.mpr ⟨h, ?_⟩, ?_⟩
  · simp [free, plain]
  · exact List.mem_map_of_mem hv

/-! ## Requests -/

namespace Gateway

variable {g : Gateway σ δ} {name : String}
  (hs : g.source.Supplies fun s => ∀ table, s.resolve name = .ok table → table.Unreserved)
  {params : Params} {pair : String × String} (h : pair ∈ params.pairs)
  (denied : Denied pair.2.toList)

/-- The statement asks whether the role may read a table. -/
def AsksToRead (st : Statement) : Prop := ∃ table, st = Privilege.select.question table

include hs h denied

theorem list_refused :
    (g.list name params).Sends AsksToRead (fun _ => False) (fun _ => True) := by
  unfold list
  refine .bind (snapshot_sends hs) fun snapshot hsnapshot => ?_
  refine .bind (readable_sends (fun table => ⟨table, rfl⟩) _ _) fun table htable => ?_
  refine .bind (.known (.any _)) fun page _ => ?_
  refine .bind (.known (.any _)) fun plan _ => ?_
  have refused := Filter.conditions_refused g.source (hsnapshot table htable) h denied
  exact .bind (.look (refused.mono (fun _ => id) fun _ _ => trivial)) fun _ h => h.elim

theorem window_refused :
    (g.window name params).Sends AsksToRead (fun _ => False) (fun _ => True) := by
  unfold window
  refine .bind (snapshot_sends hs) fun snapshot hsnapshot => ?_
  refine .bind (readable_sends (fun table => ⟨table, rfl⟩) _ _) fun table htable => ?_
  refine .bind (.known (.any _)) fun window _ => ?_
  refine .bind (.known (.any _)) fun order _ => ?_
  refine .bind (.known (.any _)) fun plan _ => ?_
  have refused := Filter.conditions_refused g.source (hsnapshot table htable) h denied
  exact .bind (.look (refused.mono (fun _ => id) fun _ _ => trivial)) fun _ h => h.elim

end Gateway

/-- A request whose filters have a denied value is refused. If no column of the table is named like a
keyword, the filters are a fault of the client, in whatever state the schema is; and neither a page nor
a window is read for them, nor any statement sent but the question for the privilege. -/
theorem Params.denied_refused {params : Params} {name value : String} {values : List String}
    (h : (name, values) ∈ params) (hv : value ∈ values) (free : Params.isReserved name = false)
    (plain : '.' ∉ name.toList) (denied : Denied value.toList) :
    (∀ (source : SchemaSource σ) (table : Table) (schema : σ), table.Unreserved →
      ∃ e, ((Filter.conditions source table params).run schema).1 = .error e ∧
        e.isValidation = true) ∧
    ∀ (g : Gateway σ δ) (target : String) (schema : σ) (database : δ),
      g.source.Supplies (fun s => ∀ table, s.resolve target = .ok table → table.Unreserved) →
      ∀ op ∈ [Operation.list target params, .window target params],
        (∃ e, ((op.perform g).run { schema, database }).1 = .error e) ∧
        ∀ st ∈ ((op.perform g).run { schema, database }).2.sent, Gateway.AsksToRead st := by
  have pair := Params.mem_pairs h hv free plain
  constructor
  · intro source table schema unreserved
    exact (Filter.conditions_refused source unreserved pair denied schema).exists_error
  · intro g target schema database unreserved op hop
    have refused : (op.perform g).Sends Gateway.AsksToRead (fun _ => False) (fun _ => True) := by
      simp only [List.mem_cons, List.not_mem_nil, or_false] at hop
      rcases hop with rfl | rfl
      · exact .bind (Gateway.list_refused unreserved pair denied) fun _ h => h.elim
      · exact .bind (Gateway.window_refused unreserved pair denied) fun _ h => h.elim
    obtain ⟨sent, outcome⟩ := refused.fresh schema database
    obtain ⟨e, run, -⟩ := outcome.exists_error
    exact ⟨⟨e, run⟩, sent⟩

def notes : Table :=
  { name := "notes", columns := [
      { name := "id", tag := "integer", type := .scalar .integer, isKey := true },
      { name := "title", tag := "text", type := .scalar .text }] }

/-- A gateway to notes that asks for privileges. -/
def notesGateway : Gateway Unit Unit :=
  { config := { database := { checkPermissions := true } }
    source := .fixed { tables := [("notes", notes)] }, db := .empty }

theorem notes_unreserved : notes.Unreserved := by
  unfold Table.Unreserved
  decide

theorem notesGateway_supplies : notesGateway.source.Supplies fun s =>
    ∀ table, s.resolve "notes" = .ok table → table.Unreserved := by
  rintro _ _ ⟨⟩ table resolved
  cases Snapshot.resolve_eq_ok resolved
  exact notes_unreserved

/-- A group in which the second title is a keyword. -/
def dropping : String := "(title.eq.a,title.like.Drop)"

theorem dropping_denied : Denied dropping.toList := by
  refine .inr ⟨"DROP", by decide, "(title.eq.a,title.like.".toList, "Drop".toList, ")".toList, ?_⟩
  refine ⟨by decide, ?_, by decide, by decide⟩
  simp [Spelled, isLetter]

theorem denied_refused_dropping :
    (∃ e, ((Filter.conditions notesGateway.source notes [("or", [dropping])]).run ()).1 = .error e ∧
      e.isValidation = true) ∧
    ∀ op ∈ [Operation.list "notes" [("or", [dropping])], .window "notes" [("or", [dropping])]],
      (∃ e, ((op.perform notesGateway).run { schema := (), database := () }).1 = .error e) ∧
      ∀ st ∈ ((op.perform notesGateway).run { schema := (), database := () }).2.sent,
        Gateway.AsksToRead st := by
  have given : ("or", [dropping]) ∈ ([("or", [dropping])] : Params) := List.mem_singleton.mpr rfl
  have refused := Params.denied_refused (σ := Unit) (δ := Unit) given (List.mem_singleton.mpr rfl)
    (by decide) (by decide) dropping_denied
  exact ⟨refused.1 _ notes () notes_unreserved,
    refused.2 notesGateway "notes" () () notesGateway_supplies⟩

end TableGateway
