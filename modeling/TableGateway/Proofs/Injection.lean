import TableGateway.Gateway.Operation
import TableGateway.Proofs.Denylist
import TableGateway.Proofs.Provenance
import TableGateway.Proofs.Trace

/-!
# Freedom from injection

Whatever a client asks for, the statements that the gateway sends are written with names of the
snapshot. The only texts of the request in them are items of lists that have passed the denylist, and
these stand in literals. Main statement: `Operation.sent_scan`.
-/
namespace TableGateway

/-- The names that the statement is written with have one property, and its literals another. -/
structure Statement.Plain (N L : String → Prop) (st : Statement) : Prop where
  names : ∀ s ∈ st.names, N s
  literals : ∀ s ∈ st.literals, L s

/-- The names of all tables have a property. -/
def Snapshot.Named (N : String → Prop) (s : Snapshot) : Prop :=
  ∀ table ∈ s.tables.map (·.2), ∀ n ∈ table.names, N n

variable {σ δ : Type} {N L : String → Prop}

theorem Statement.IsOf.plain {table : Table} {st : Statement} (h : st.IsOf table L)
    (hn : ∀ n ∈ table.names, N n) : st.Plain N L := ⟨fun s hs => hn s (h.names s hs), h.literals⟩

/-- The question for a privilege is always the same text. -/
theorem Privilege.question_plain (table : Table) (p : Privilege) :
    (p.question table).Plain N L := by
  constructor
  · simp [question, Statement.names, Statement.ownNames, Statement.conditions]
  · simp [question, Statement.literals, Statement.conditions]

/-- A table of the snapshot has names with the property. -/
theorem Snapshot.Named.resolve {s : Snapshot} (h : s.Named N) {name : String} {table : Table}
    (ht : s.resolve name = .ok table) : ∀ n ∈ table.names, N n :=
  h table (mem_of_table? (resolve_eq_ok ht))

/-! ## Relations -/

theorem Snapshot.mem_of_referencing {s : Snapshot} {name : String} {table : Table}
    {key : ForeignKey} (h : (table, key) ∈ s.referencing name) : table ∈ s.tables.map (·.2) := by
  rw [referencing, referencesAmong, List.mem_mergeSort] at h
  obtain ⟨t, ht, h⟩ := List.mem_flatMap.mp h
  obtain ⟨_, -, h⟩ := List.mem_map.mp h
  cases h
  exact ht

/-- The related table is a table of the snapshot. -/
theorem Relationship.related_mem {s : Snapshot} {table : Table} {name : String} {r : Relationship}
    (h : resolve? s table name = some r) : r.related ∈ s.tables.map (·.2) := by
  rw [resolve?, Option.or_eq_some_iff] at h
  rcases h with h | ⟨-, h⟩
  · simp only [forward?, Option.bind_eq_bind, Option.bind_eq_some_iff] at h
    obtain ⟨key, -, target, htarget, h⟩ := h
    cases h
    exact Snapshot.mem_of_table? htarget
  · simp only [reverse?, Option.bind_eq_bind, Option.bind_eq_some_iff] at h
    obtain ⟨⟨t, key⟩, hfound, h⟩ := h
    cases h
    exact Snapshot.mem_of_referencing (List.mem_of_find?_eq_some hfound)

namespace Expansion

variable (source : SchemaSource σ) (db : Database δ) {snapshot : Snapshot}

theorem fetch_sends {r : Relationship} (hr : ∀ n ∈ r.related.names, N n) (texts : List String)
    (children : List Field) (filters : Entries String) (extra : List String) :
    (fetch source db r texts children filters extra).Sends (Statement.Plain N L) (fun _ => True)
      (fun _ => True) := by
  unfold fetch
  refine .bind (.look (selection_ends (L := L) source r texts children filters extra)) fun s hs => ?_
  refine .bind (.ask (hs.plain hr) fun _ => .any _) fun rows _ => ?_
  exact .lift (.read fun _ => trivial)

mutual

/-- Whatever relations are nested in a list, what is sent for them is plain. -/
theorem expand_sends (h : snapshot.Named N) (table : Table) (records : List Record) :
    ∀ fields : List Field,
      Session.Sends (expand source db snapshot table records fields) (Statement.Plain N L)
        (fun _ => True)
  | [] => by
    rw [expand]
    exact .pure trivial
  | f :: rest => by
    rw [expand]
    exact .bind (expandField_sends h table records f) fun records _ =>
      expand_sends h table records rest

theorem expandField_sends (h : snapshot.Named N) (table : Table) (records : List Record) :
    ∀ f : Field,
      Session.Sends (expandField source db snapshot table records f) (Statement.Plain N L)
        (fun _ => True)
  | .wildcard => by
    simp only [expandField]
    exact .pure trivial
  | .column name => by
    simp only [expandField]
    exact .pure trivial
  | .relation name label children filters => by
    rw [expandField]
    split
    · exact .pure trivial
    · rename_i r found
      simp only
      split
      · exact .pure trivial
      · refine .bind (fetch_sends source db (h _ (Relationship.related_mem found)) _ _ _ _)
          fun answer _ => ?_
        split
        · exact .pure trivial
        · exact .bind (expand_sends h _ _ children) fun items _ => .pure trivial

end
end Expansion

/-! ## Reading -/

/-- A plan reads columns of the table. -/
theorem Plan.ofParams_names (limits : ComplexityLimits) (snapshot : Snapshot) (table : Table)
    (params : Params) (required : List String) :
    Outcome (fun plan => ∀ s ∈ plan.projection.names, s ∈ table.names) (fun _ => True)
      (Plan.ofParams limits snapshot table params required) := by
  unfold ofParams
  refine .bind (.any _) fun fields _ => .bind (.any _) fun _ _ => ?_
  exact .bind (Build.projection_names _) fun projection h => .ok h

/-- What is known of every column that a text is resolved to is known of the column of a window's
order. -/
theorem cursorOrder_column {table : Table} {P : String → Prop}
    (hP : ∀ name, Outcome (fun column : Column => P column.name) (fun _ => True) (table.resolve name))
    (params : Params) : Outcome (fun t => P t.column) (fun _ => True) (cursorOrder table params) := by
  unfold cursorOrder
  refine .bind (OrderTerm.ofParams_columns hP params) fun order horder => ?_
  split
  · rename_i term _ _ head
    exact .ok (horder _ (List.mem_of_head? head))
  · exact .bind (hP _) fun column hcolumn => .ok hcolumn
  · exact .error trivial

theorem cursorOrder_names (table : Table) (params : Params) :
    Outcome (fun t => t.column ∈ table.names) (fun _ => True) (cursorOrder table params) :=
  cursorOrder_column table.resolve_name params

namespace Gateway

variable {g : Gateway σ δ} {snapshot : Snapshot}

theorem materialize_sends (h : snapshot.Named N) (table : Table) (plan : Plan) (rows : List Row) :
    (g.materialize snapshot table plan rows).Sends (Statement.Plain N L) (fun _ => True)
      (fun _ => True) := by
  unfold materialize
  refine .bind (records_sends table rows) fun records _ => ?_
  exact .bind (.lift (Expansion.expand_sends _ _ h table records _)) fun _ _ => .pure trivial

variable (hs : g.source.Supplies (Snapshot.Named N))
include hs

theorem list_sends (name : String) {params : Params}
    (hl : ∀ e ∈ params.expressions, ∀ s, e.Splices s → L s) :
    (g.list name params).Sends (Statement.Plain N L) (fun _ => True) (fun _ => True) := by
  unfold list
  refine .bind (snapshot_sends hs) fun snapshot hsnapshot => ?_
  refine .bind (readable_sends (Privilege.question_plain · _) _ _) fun table htable => ?_
  have hn := hsnapshot.resolve htable
  refine .bind (.known (.any _)) fun page _ => ?_
  refine .bind (.known (Plan.ofParams_names _ _ _ _ _)) fun plan hplan => ?_
  refine .bind (.look (Filter.conditions_ends _ table params).values) fun filter hfilter => ?_
  have isOf := Where.IsOf.of_answers hfilter hl
  refine .bind (.known (OrderTerm.ofParams_names params)) fun order horder => ?_
  refine .bind (count_sends ((Statement.IsOf.count isOf).plain hn)) fun total _ => ?_
  refine .bind (fetch_sends ((Statement.IsOf.select isOf hplan horder _).plain hn)) fun rows _ => ?_
  exact .bind (materialize_sends hsnapshot table plan rows) fun _ _ => .pure trivial

theorem window_sends (name : String) {params : Params}
    (hl : ∀ e ∈ params.expressions, ∀ s, e.Splices s → L s) :
    (g.window name params).Sends (Statement.Plain N L) (fun _ => True) (fun _ => True) := by
  unfold window
  refine .bind (snapshot_sends hs) fun snapshot hsnapshot => ?_
  refine .bind (readable_sends (Privilege.question_plain · _) _ _) fun table htable => ?_
  have hn := hsnapshot.resolve htable
  refine .bind (.known (.any _)) fun window _ => ?_
  refine .bind (.known (cursorOrder_names table params)) fun order horder => ?_
  refine .bind (.known (Plan.ofParams_names _ _ _ _ _)) fun plan hplan => ?_
  refine .bind (.look (Filter.conditions_ends _ table params).values) fun filter hfilter => ?_
  have isOf := Where.IsOf.of_answers hfilter hl
  refine .bind (.known ((table.resolve_outcome _).mono (fun _ => id) fun _ _ => trivial))
    fun column hcolumn => ?_
  refine .bind (.look (cursorCondition_ends (L := L) _ hcolumn _ _)) fun after hafter => ?_
  refine .bind (.look (cursorCondition_ends (L := L) _ hcolumn _ _)) fun before hbefore => ?_
  have terms : ∀ t ∈ [if window.isBackward then order.reversed else order],
      t.column ∈ table.names := by
    intro t ht
    rw [List.mem_singleton.mp ht]
    split
    · exact horder
    · exact horder
  refine .bind (count_sends ((Statement.IsOf.count isOf).plain hn)) fun total _ => ?_
  refine .bind (fetch_sends ((Statement.IsOf.select ((isOf.append hafter).append hbefore) hplan terms
    _).plain hn)) fun rows _ => ?_
  exact .bind (materialize_sends hsnapshot table plan _) fun _ _ => .pure trivial

theorem get_sends (name key : String) (params : Params) :
    (g.get name key params).Sends (Statement.Plain N L) (fun _ => True) (fun _ => True) := by
  unfold get
  refine .bind (snapshot_sends hs) fun snapshot hsnapshot => ?_
  refine .bind (readable_sends (Privilege.question_plain · _) _ _) fun table htable => ?_
  refine .bind (.known (Plan.ofParams_names _ _ _ _ _)) fun plan hplan => ?_
  refine .bind (.look (Build.keyFilter_ends (L := L) _ key).values) fun filter hfilter => ?_
  refine .bind (fetch_sends ((Statement.IsOf.select hfilter hplan (by simp) none).plain
    (hsnapshot.resolve htable))) fun rows _ => ?_
  refine .bind (materialize_sends hsnapshot table plan _) fun records _ => ?_
  split
  · exact .pure trivial
  · exact .throw trivial

/-! ## Writing -/

/-- The table of a request to write has names with the property. -/
theorem writable_named (name : String) (privileges : List Privilege) :
    (g.writable name privileges).Sends (Statement.Plain N L)
      (fun table => ∀ n ∈ table.names, N n) (fun _ => True) := by
  refine (writable_sends hs Privilege.question_plain name privileges).mono (fun _ => id) ?_
    fun _ => id
  rintro table ⟨snapshot, hsnapshot, htable⟩
  exact hsnapshot.resolve htable

omit hs in
theorem find?_sends {table : Table} (hn : ∀ n ∈ table.names, N n) (key : String) :
    (g.find? table key).Sends (Statement.Plain N L) (fun _ => True) (fun _ => True) := by
  unfold find? first?
  refine .bind (.look (Build.keyFilter_ends (L := L) _ key).values) fun filter hfilter => ?_
  refine .bind (fetch_sends ((Statement.IsOf.select hfilter (by simp [Projection.names]) (by simp)
    none).plain hn)) fun rows _ => ?_
  exact .bind (records_sends table rows) fun _ _ => .pure trivial

theorem create_sends (name : String) (body : Json) :
    (g.create name body).Sends (Statement.Plain N L) (fun _ => True) (fun _ => True) := by
  unfold create
  refine .bind (writable_named hs name _) fun table hn => ?_
  refine .bind (.known (.any _)) fun payload _ => ?_
  have inserted : (g.insertion table payload).Ends (Statement.IsOf table L) (fun _ => True) := by
    cases payload with
    | single record => exact Build.insert_ends _ record _
    | many records => exact Build.insertAll_ends _ records _
  refine .bind (.look inserted) fun st hst => ?_
  split
  · refine .bind (fetch_sends (hst.plain hn)) fun rows _ => ?_
    exact .bind (records_sends table rows) fun _ _ => .pure trivial
  · refine .bind (apply_sends (hst.plain hn)) fun _ _ => ?_
    refine .bind (.mapM (R := fun _ => True) fun record _ => ?_) fun _ _ => .pure trivial
    unfold reread
    split
    · exact .pure trivial
    · exact .bind (find?_sends hn _) fun _ _ => .pure trivial

theorem update_sends (name key : String) (body : Json) :
    (g.update name key body).Sends (Statement.Plain N L) (fun _ => True) (fun _ => True) := by
  unfold update
  refine .bind (writable_named hs name _) fun table hn => ?_
  split
  · rename_i record
    refine .bind (.look (Build.keyFilter_ends (L := L) _ key).values) fun filter hfilter => ?_
    refine .bind (.look (Build.update_ends (L := L) _ record hfilter _)) fun st hst => ?_
    simp only
    split
    · refine .bind (Q := fun _ => True) ?_ fun r _ => found_sends r (fun _ => trivial) trivial
      unfold first?
      refine .bind (fetch_sends (hst.plain hn)) fun rows _ => ?_
      exact .bind (records_sends table rows) fun _ _ => .pure trivial
    · refine .bind (Q := fun _ => True) ?_ fun r _ => found_sends r (fun _ => trivial) trivial
      unfold changed?
      refine .bind (apply_sends (hst.plain hn)) fun n _ => ?_
      split
      · exact .pure trivial
      · exact find?_sends hn _
  · exact .throw trivial

theorem delete_sends (name key : String) :
    (g.delete name key).Sends (Statement.Plain N L) (fun _ => True) (fun _ => True) := by
  unfold delete
  refine .bind (writable_named hs name _) fun table hn => ?_
  refine .bind (.look (Build.keyFilter_ends (L := L) _ key).values) fun filter hfilter => ?_
  have plain : Statement.IsOf table L (.delete table.name filter) := by
    refine .of_conditions (fun s h => ?_) hfilter
    rw [List.mem_singleton.mp h]
    simp [Table.names]
  refine .bind (apply_sends (plain.plain hn)) fun n _ => ?_
  simp only
  split
  · exact .bind (.throw (Q := fun _ => False) trivial) fun _ h => h.elim
  · exact .pure trivial

theorem upsert_sends (name : String) (body : Json) :
    (g.upsert name body).Sends (Statement.Plain N L) (fun _ => True) (fun _ => True) := by
  unfold upsert
  refine .bind (writable_named hs name _) fun table hn => ?_
  refine .bind (.known (.any _)) fun payload _ => ?_
  refine .bind (.look (Build.upsertAll_ends (L := L) _ payload.records)) fun st hst => ?_
  refine .bind (fetch_sends (hst.plain hn)) fun rows _ => ?_
  exact .bind (records_sends table rows) fun _ _ => .pure trivial

end Gateway

/-! ## All operations -/

/-- Every operation sends plain statements only. -/
theorem Operation.perform_sends {g : Gateway σ δ} (hs : g.source.Supplies (Snapshot.Named N))
    (op : Operation) (hl : ∀ e ∈ op.params.expressions, ∀ s, e.Splices s → L s) :
    (op.perform g).Sends (Statement.Plain N L) (fun _ => True) (fun _ => True) := by
  cases op with
  | list name params => exact .bind (Gateway.list_sends hs name hl) fun _ _ => .pure trivial
  | window name params => exact .bind (Gateway.window_sends hs name hl) fun _ _ => .pure trivial
  | get name key params =>
    exact .bind (Gateway.get_sends hs name key params) fun _ _ => .pure trivial
  | create name body => exact Gateway.create_sends hs name body
  | update name key body =>
    exact .bind (Gateway.update_sends hs name key body) fun _ _ => .pure trivial
  | upsert name body => exact Gateway.upsert_sends hs name body
  | delete name key => exact .bind (Gateway.delete_sends hs name key) fun _ _ => .pure trivial

/-- Outside literals a statement for the request has no character that could end it, open a comment,
or quote a name. In them it has nothing but the name of a language and items that have passed. -/
def Params.manner (params : Params) : Manner where
  code c := c ∉ [';', '-', '/', '\\', '"']
  literal s := s = "english" ∨ ∃ e ∈ params.expressions, e.Splices s
  code_of_sql c h := by
    simp only [isSqlChar, decide_eq_true_eq, List.mem_cons, List.not_mem_nil, or_false] at h ⊢
    tauto
  quote_not_mem s h := by
    rcases h with rfl | ⟨e, -, h⟩
    · decide
    · exact Denylist.checkItem_quote h.checked
  english := .inl rfl

/-- The characters of types, and so those of names, may stand outside literals. -/
theorem Params.manner_word (params : Params) {s : String} (h : ∀ c ∈ s.toList, isTypeChar c = true) :
    params.manner.Word s := by
  intro c hc
  have type := h c hc
  have outside : [';', '-', '/', '\\', '"', '\'', '?'].all (!isTypeChar ·) = true := by decide
  have other : ∀ d ∈ [';', '-', '/', '\\', '"', '\'', '?'], c ≠ d := by
    rintro d hd rfl
    have := List.all_eq_true.mp outside c hd
    rw [type] at this
    cases this
  refine ⟨fun hmem => ?_, other _ (by simp), other _ (by simp)⟩
  exact other c (List.mem_append_left ['\'', '?'] hmem) rfl

/-- Every statement that an operation sends, whatever the client asks for and however the database
answers, ends outside a literal. Outside literals it has no character that could end it, open a
comment, or quote a name; each literal is the name of a language, or an item of a list in the request
that has passed the denylist. -/
theorem Operation.sent_scan {g : Gateway σ δ} (hs : g.source.Supplies Snapshot.Tidy)
    (op : Operation) (schema : σ) (database : δ) :
    ∀ st ∈ ((op.perform g).run { schema, database }).2.sent,
      (Scan.of st.sql).pending = none ∧
      (∀ c ∈ (Scan.of st.sql).code, c ∉ [';', '-', '/', '\\', '"']) ∧
      ∀ l ∈ (Scan.of st.sql).literals,
        l = "english" ∨ ∃ e ∈ op.params.expressions, e.Splices l := by
  intro st hst
  have named : g.source.Supplies (Snapshot.Named op.params.manner.Word) := by
    intro t s hsnapshot table htable n hn
    exact op.params.manner_word ((hs t s hsnapshot table htable).chars n hn)
  have sends := op.perform_sends named (L := op.params.manner.literal)
    fun e he s h => .inr ⟨e, he, h⟩
  have plain := (sends.fresh schema database).1 st hst
  have spelled := st.spells plain.names plain.literals
  exact ⟨spelled.closed, spelled.code, spelled.literals⟩

def taggedPosts : Snapshot :=
  { tables := [("posts", { name := "posts", columns := [
      { name := "id", tag := "integer", type := .scalar .integer, isKey := true },
      { name := "tags", tag := "text[]", type := .array (.scalar .text) }] })] }

def anyTag : Operation := .list "posts" [("tags", ["arrayhasany.\x7ba,b\x7d"])]

def taggedGateway : Gateway Unit Unit :=
  { config := {}, source := .fixed taggedPosts, db := .empty }

theorem taggedPosts_tidy : taggedGateway.source.Supplies Snapshot.Tidy := by
  rintro _ _ ⟨⟩ table htable
  rw [show table = _ from List.mem_singleton.mp htable]
  refine ⟨by decide, fun column hcolumn => ?_⟩
  simp only [List.mem_cons, List.not_mem_nil, or_false] at hcolumn
  rcases hcolumn with rfl | rfl
  · exact ⟨by decide, by decide⟩
  · exact ⟨by decide, by decide⟩

theorem sent_scan_anyTag :
    taggedGateway.source.Supplies Snapshot.Tidy ∧
      ∀ st ∈ ((anyTag.perform taggedGateway).run { schema := (), database := () }).2.sent,
        (Scan.of st.sql).pending = none ∧
        (∀ c ∈ (Scan.of st.sql).code, c ∉ [';', '-', '/', '\\', '"']) ∧
        ∀ l ∈ (Scan.of st.sql).literals,
          l = "english" ∨ ∃ e ∈ anyTag.params.expressions, e.Splices l :=
  ⟨taggedPosts_tidy, Operation.sent_scan taggedPosts_tidy anyTag () ()⟩

/-- The two tags stand in literals. -/
example :
    ((anyTag.perform taggedGateway).run { schema := (), database := () }).2.sent.map Statement.sql =
      ["SELECT COUNT(*) AS count FROM posts WHERE tags && ARRAY['a','b']::text[]",
        "SELECT * FROM posts WHERE tags && ARRAY['a','b']::text[] LIMIT ? OFFSET ?"] := by
  decide +kernel

end TableGateway
