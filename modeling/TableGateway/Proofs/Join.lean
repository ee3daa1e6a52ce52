import TableGateway.Proofs.Projection
import TableGateway.Proofs.RelationLookup

/-!
# Related rows join their records

One expansion of a relation without relations within: the rows are asked for by the texts of the
records, each text once, and every record is given the rows whose text is its own, and no others. Rows
that nobody asked for are given to nobody. Main statement: `Expansion.relation_joins`.
-/
namespace TableGateway

variable {σ δ : Type}

/-! ## Texts in the order of their first sight -/

/-- The texts are those of a list, each once, in the order in which they come first. -/
structure FirstSeen (all texts : List String) : Prop where
  mem : ∀ text, text ∈ texts ↔ text ∈ all
  order : texts.Pairwise fun a b => all.idxOf a < all.idxOf b

theorem firstSeen_eraseDups (all : List String) : FirstSeen all all.eraseDups := by
  refine ⟨fun text => List.mem_eraseDups, ?_⟩
  -- From the back: a last text that was seen before is dropped, and another one comes last.
  induction all using List.reverseRecOn with
  | nil => simp
  | append_singleton front last ih =>
    have earlier : front.eraseDups.Pairwise fun a b =>
        (front ++ [last]).idxOf a < (front ++ [last]).idxOf b := by
      refine ih.imp_of_mem fun {a b} ha hb before => ?_
      rw [List.idxOf_append_of_mem (List.mem_eraseDups.mp ha),
        List.idxOf_append_of_mem (List.mem_eraseDups.mp hb)]
      exact before
    rw [List.eraseDups_append]
    by_cases seen : last ∈ front
    · simpa [List.removeAll, seen] using earlier
    · have alone : ([last].removeAll front).eraseDups = [last] := by
        simp [List.removeAll, seen, List.eraseDups_cons]
      rw [alone, List.pairwise_append]
      refine ⟨earlier, List.pairwise_singleton _ _, fun a ha b hb => ?_⟩
      obtain rfl := List.mem_singleton.mp hb
      have ha := List.mem_eraseDups.mp ha
      rw [List.idxOf_append_of_mem ha, List.idxOf_append_of_notMem seen, List.idxOf_cons_self]
      have := List.idxOf_lt_length_iff.mpr ha
      omega

/-! ## Rows and records that belong together -/

namespace Relationship

variable (r : Relationship)

/-- The record has a text in its column, and the row of the related table has the same text in its
own. -/
def connects (record row : Record) : Bool :=
  match Record.joinText? record r.localColumn with
  | some text => Record.joinText? row r.remoteColumn == some text
  | none => false

/-- The column that connects is read of the related table but was not asked for. -/
def isAdded (children : List Field) : Bool :=
  match Field.columns? children with
  | some names => !names.contains r.remoteColumn
  | none => false

/-- A related row as it is attached: without the column that connects if that was added. -/
def visible (children : List Field) (row : Record) : Record :=
  if r.isAdded children then Entries.erase r.remoteColumn row else row

/-- The rows that belong to a record, in their order. -/
def partners (children : List Field) (rows : List Record) (record : Record) : List Record :=
  (rows.filter (r.connects record)).map (r.visible children)

/-- Without a text, no row belongs to a record. -/
theorem partners_none {record : Record} (h : Record.joinText? record r.localColumn = none)
    (children : List Field) (rows : List Record) : r.partners children rows record = [] := by
  have apart : rows.filter (r.connects record) = [] :=
    List.filter_eq_nil_iff.mpr fun row _ => by simp [connects, h]
  rw [partners, apart, List.map_nil]

end Relationship

/-- A null or absent value has no text. -/
theorem Record.joinText?_missing {record : Record} {column : String}
    (h : Entries.get? column record = none ∨ Entries.get? column record = some .null) :
    Record.joinText? record column = none := by
  unfold Record.joinText?
  rcases h with h | h
  · rw [h]
    rfl
  · rw [h]
    rfl

/-- How a record changes when some rows of a relation are attached under a name: it is given all rows
that belong to it, or the first one if there can be one only. -/
structure Joined (r : Relationship) (output : String) (children : List Field) (rows : List Record)
    (before after : Record) : Prop where
  others : ∀ name, name ≠ output → Entries.get? name after = Entries.get? name before
  many : r.isForward = false →
    Entries.get? output after = some (.arr ((r.partners children rows before).map .obj))
  one : r.isForward = true →
    Entries.get? output after = some (((r.partners children rows before).head?.map .obj).getD .null)
  missing : Entries.get? r.localColumn before = none ∨
      Entries.get? r.localColumn before = some .null →
    Entries.get? output after = some (if r.isForward then .null else .arr [])

namespace Expansion

variable {source : SchemaSource σ} {db : Database δ} {snapshot : Snapshot} {r : Relationship}
  {children : List Field}

/-- How the rows for some texts are asked for: not at all without a text, and else by one selection from
the related table, of the rows whose column is among the converted texts and that meet other
conditions. -/
inductive Asks (source : SchemaSource σ) (db : Database δ) (r : Relationship) (texts : List String)
    (s : Session σ δ) : List Record → Session σ δ → Prop where
  | nothing (none : texts = []) : Asks source db r texts s [] s
  | rows {column : Column} {values : List Cell} {u v : σ} {selection : Selection} {others : Where}
      {rows : List Row} {d : δ} (some : texts ≠ [])
      (resolved : r.related.resolve r.remoteColumn = .ok column)
      (converted : (texts.mapM (Convert.ofText source column.type)).Gives s.schema values u)
      (table : selection.table = r.related.name)
      (filter : selection.filter = .one (among column values) :: others)
      (answered : db.query (.select selection) s.database = (.ok rows, d)) :
      Asks source db r texts s (Convert.rowsJson source r.related rows v).1
        ⟨(Convert.rowsJson source r.related rows v).2, d, s.sent ++ [.select selection]⟩

theorem fetch_asks {texts : List String} {filters : Entries String} {extra : List String}
    (some : texts ≠ []) {s t : Session σ δ} {items : List Record}
    (h : (fetch source db r texts children filters extra).Gives s items t) :
    Asks source db r texts s items t := by
  obtain ⟨selection, v, rows, d, hselection, hrows, rfl, rfl⟩ := fetch_gives.mp h
  obtain ⟨p, column, values, u, cs, -, hcolumn, hvalues, -, rfl⟩ :=
    selection_gives.mp hselection
  exact .rows some hcolumn hvalues rfl rfl hrows

/-- Without relations among the fields, nothing is expanded. -/
theorem expand_plain (table : Table) (records : List Record) (s : Session σ δ) :
    ∀ {fields : List Field}, (∀ f ∈ fields, f.isRelation = false) →
      expand source db snapshot table records fields s = (records, s)
  | [], _ => by
    rw [expand]
    rfl
  | f :: rest, plain => by
    have same : expandField source db snapshot table records f s = (records, s) := by
      cases f with
      | wildcard => rfl
      | column name => rfl
      | relation => cases plain _ (List.mem_cons_self ..)
    rw [expand_cons, same]
    exact expand_plain table records s fun f hf => plain f (List.mem_cons_of_mem _ hf)

/-- Without relations among the fields, the only column that may be added is the one that connects. -/
theorem hidden_plain (snapshot : Snapshot) (r : Relationship)
    (plain : ∀ f ∈ children, f.isRelation = false) :
    hidden snapshot r children = if r.isAdded children then [r.remoteColumn] else [] := by
  have none : children.filter Field.isRelation = [] :=
    List.filter_eq_nil_iff.mpr fun f hf => by simp [plain f hf]
  have keys : Relationship.keyColumns snapshot r.related children = [] := by
    rw [Relationship.keyColumns, none]
    rfl
  rw [hidden, keys, extraColumns, Relationship.isAdded]
  cases Field.columns? children with
  | none => rfl
  | some names => simp [List.filter_cons]

/-- What is found for the text of a record are the rows that belong to it. -/
theorem matching_keyed {extra : List String}
    (h : extra = if r.isAdded children then [r.remoteColumn] else []) (rows : List Record)
    (record : Record) :
    Related.matching (keyed r.remoteColumn extra rows) (Record.joinText? record r.localColumn) =
      r.partners children rows record := by
  have stripped : ∀ row : Record, extra.foldl (fun row name => Entries.erase name row) row =
      r.visible children row := by
    intro row
    rw [h, Relationship.visible]
    split
    · rfl
    · rfl
  cases own : Record.joinText? record r.localColumn with
  | none => exact (r.partners_none own children rows).symm
  | some text =>
    rw [Related.matching, Relationship.partners]
    -- A row without a text, or with another one, is left out on both sides.
    induction rows with
    | nil => rfl
    | cons row rows ih =>
      rw [keyed, List.filterMap_cons]
      cases other : Record.joinText? row r.remoteColumn with
      | none =>
        rw [List.filter_cons_of_neg (by simp [Relationship.connects, own, other])]
        exact ih
      | some found =>
        rw [Option.map_some, stripped]
        by_cases same : found = text
        · rw [List.filter_cons_of_pos (by simp [same]), List.map_cons,
            List.filter_cons_of_pos (by simp [Relationship.connects, own, other, same]), List.map_cons]
          exact congrArg _ ih
        · rw [List.filter_cons_of_neg (by simp [same]),
            List.filter_cons_of_neg (by simp [Relationship.connects, own, other, same])]
          exact ih

/-- Attaching under their texts joins rows to their records. -/
theorem attach_joined {extra : List String}
    (h : extra = if r.isAdded children then [r.remoteColumn] else []) (output : String)
    (rows : List Record) (records : List Record) :
    List.Forall₂ (Joined r output children rows) records
      (attach r output (keyed r.remoteColumn extra rows) records) := by
  rw [attach, List.forall₂_map_right_iff, List.forall₂_same]
  intro record _
  simp only [matching_keyed h]
  refine ⟨fun name other => ?_, fun many => ?_, fun one => ?_, fun missing => ?_⟩
  · rw [Entries.get?_insert, if_neg (Ne.symm other)]
  · rw [Entries.get?_insert, if_pos rfl]
    simp [shown, many]
  · rw [Entries.get?_insert, if_pos rfl]
    cases r.partners children rows record <;> simp [shown, one]
  · rw [Entries.get?_insert, if_pos rfl, r.partners_none (Record.joinText?_missing missing)]
    simp [shown]

/-- A relation without relations within that is expanded from a session on, if its lookup does not fail:
its rows are asked for by the texts of the records, each once and in the order in which they come first,
and each record is given the rows of its own text in the order of the answer, less the column that
connects if that was added. -/
theorem relation_joins {table : Table} {records after : List Record} {name : String}
    {label : Option String} {filters : Entries String}
    (found : Relationship.resolve? snapshot table name = some r)
    (plain : ∀ f ∈ children, f.isRelation = false) {s t : Session σ δ}
    (h : (expandOrFail source db snapshot table records
      (.relation name label children filters)).Gives s after t) :
    expandField source db snapshot table records (.relation name label children filters) s =
        (after, t) ∧
      ∃ texts rows,
        FirstSeen (records.filterMap (Record.joinText? · r.localColumn)) texts ∧
        Asks source db r texts s rows t ∧
        List.Forall₂ (Joined r (label.getD name) children rows) records after := by
  have run : expandField source db snapshot table records (.relation name label children filters) s =
      (after, t) := by
    rw [expandField_eq, h]
  have hidden := hidden_plain snapshot r plain
  refine ⟨run, joinTexts r.localColumn records, ?_⟩
  rcases (expandOrFail_gives found).mp h with ⟨none, rfl, rfl⟩ | ⟨some, items, u, fetched, rfl, rfl⟩
  · exact ⟨[], firstSeen_eraseDups _, .nothing none, attach_joined hidden _ [] records⟩
  · rw [expand_plain r.related items u plain]
    exact ⟨items, firstSeen_eraseDups _, fetch_asks some fetched,
      attach_joined hidden _ items records⟩

/-- A database that answers with posts of three authors, whatever is asked. -/
def postsDatabase : Database Unit where
  query _ d :=
    (.ok [[("author_id", .int 8), ("title", .text "On signs")],
      [("author_id", .int 7), ("title", .text "On names")],
      [("author_id", .int 9), ("title", .text "On sums")],
      [("author_id", .int 7), ("title", .text "On numbers")]], d)
  execute _ d := (.ok 0, d)

/-- Three authors, one of them without a number. -/
def threeAuthors : List Record :=
  [[("id", .int 7), ("name", .str "Ann")], [("name", .str "Bob")], [("id", .int 8), ("name", .str "Cy")]]

def postsOfAuthors : Relationship :=
  .reverse ⟨"posts_author_id_fkey", "author_id", "authors", "id"⟩ postsTable

def titlesOfPosts : Field := .relation "posts" none [.column "title"] []

/-- The expansion of the titles, from a session that begins. -/
def titlesExpanded : Except Fault (List Record) × Session Unit Unit :=
  (expandOrFail (.fixed blogSnapshot) postsDatabase blogSnapshot authorsTable threeAuthors
    titlesOfPosts).run { schema := (), database := () }

theorem relation_joins_titles :
    Relationship.resolve? blogSnapshot authorsTable "posts" = some postsOfAuthors ∧
      (∀ f ∈ [Field.column "title"], f.isRelation = false) ∧
      ∃ after t, (expandOrFail (.fixed blogSnapshot) postsDatabase blogSnapshot authorsTable
          threeAuthors titlesOfPosts).Gives { schema := (), database := () } after t ∧
        expandField (.fixed blogSnapshot) postsDatabase blogSnapshot authorsTable threeAuthors
            titlesOfPosts { schema := (), database := () } = (after, t) ∧
          ∃ texts rows, FirstSeen (threeAuthors.filterMap (Record.joinText? · "id")) texts ∧
            Asks (.fixed blogSnapshot) postsDatabase postsOfAuthors texts
              { schema := (), database := () } rows t ∧
            List.Forall₂ (Joined postsOfAuthors "posts" [.column "title"] rows) threeAuthors after := by
  have found : Relationship.resolve? blogSnapshot authorsTable "posts" = some postsOfAuthors := by
    decide +kernel
  have plain : ∀ f ∈ [Field.column "title"], f.isRelation = false := by simp [Field.isRelation]
  have given : titlesExpanded.1.toOption.map List.length = some 3 := by decide +kernel
  obtain ⟨after, gives, -⟩ := Action.gives_of_map given
  exact ⟨found, plain, after, _, gives, relation_joins found plain gives⟩

/-- Two posts for the first author and one for the last; that of another author is nobody's. -/
example : titlesExpanded.1.toOption.map (·.map fun record =>
    ((Entries.get? "posts" record).bind Json.items?).map List.length) =
      some [some 2, some 0, some 1] := by
  decide +kernel

end Expansion
end TableGateway
