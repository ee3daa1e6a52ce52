import TableGateway.Proofs.Join

/-!
# One statement for each relation

However many records there are, the expansion of a list of fields sends one statement at most for each
relation in it, at whatever level, and none without records. A relation that can be selected is asked
for exactly once, unless no record has a text to ask with. Main statement: `Expansion.expand_batched`.
-/
namespace TableGateway

variable {σ δ : Type}

namespace Field

mutual

/-- The number of relations in a list, at all levels. -/
def relationsIn : List Field → Nat
  | [] => 0
  | f :: rest => relations f + relationsIn rest

/-- The number of relations in a field, itself among them. -/
def relations : Field → Nat
  | relation _ _ children _ => 1 + relationsIn children
  | _ => 0

end

end Field

namespace Expansion

variable {source : SchemaSource σ} {db : Database δ} {snapshot : Snapshot}

/-- A lookup sends its selection, if there is one, and nothing else. -/
theorem fetch_sent (r : Relationship) (texts : List String) (children : List Field)
    (filters : Entries String) (extra : List String) (s : Session σ δ) :
    ((fetch source db r texts children filters extra).run s).2.sent =
      s.sent ++ (((selection source r texts children filters extra).run s.schema).1.toOption.map
        Statement.select).toList := by
  have looked : (Session.look (selection source r texts children filters extra) :
      Action σ δ _).run s = (((selection source r texts children filters extra).run s.schema).1,
        { s with schema := ((selection source r texts children filters extra).run s.schema).2 }) := rfl
  rw [fetch, Action.run_bind, looked]
  cases ((selection source r texts children filters extra).run s.schema).1 with
  | error e => exact (List.append_nil _).symm
  | ok chosen =>
    simp only
    rw [Action.run_bind]
    cases ((db.ask (.select chosen) : Action σ δ _).run _).1 <;> rfl

theorem fetch_runs (source : SchemaSource σ) (db : Database δ) (r : Relationship)
    (texts : List String) (children : List Field) (filters : Entries String) (extra : List String) :
    Session.Runs (fetch source db r texts children filters extra).run fun _ new =>
      new.length ≤ 1 := by
  intro s
  refine ⟨_, fetch_sent r texts children filters extra s, ?_⟩
  show (Option.toList _).length ≤ 1
  rw [Option.length_toList]
  split <;> omega

mutual

/-- The expansion of a list sends one statement at most for each relation in it. -/
theorem expand_runs (table : Table) : ∀ (fields : List Field) (records : List Record),
    Session.Runs (expand source db snapshot table records fields) fun _ new =>
      new.length ≤ Field.relationsIn fields
  | [], records => by
    rw [expand]
    exact .pure (Nat.le_refl 0)
  | f :: rest, records => by
    rw [expand]
    refine (Session.Runs.bind (expandField_runs table f records) fun after _ _ =>
      expand_runs table rest after).mono ?_
    rintro _ _ ⟨-, first, last, rfl, hfirst, hlast⟩
    rw [Field.relationsIn, List.length_append]
    exact Nat.add_le_add hfirst hlast

/-- The expansion of a field sends one statement at most for itself, and one for each relation
within. -/
theorem expandField_runs (table : Table) : ∀ (f : Field) (records : List Record),
    Session.Runs (expandField source db snapshot table records f) fun _ new =>
      new.length ≤ f.relations
  | .wildcard, records => .pure (Nat.le_refl 0)
  | .column name, records => .pure (Nat.le_refl 0)
  | .relation name label children filters, records => by
    intro s
    have quiet (after : List Record) : ∃ new, (after, s).2.sent = s.sent ++ new ∧
        new.length ≤ (Field.relation name label children filters).relations :=
      ⟨[], (List.append_nil _).symm, Nat.zero_le _⟩
    rw [expandField_relation]
    split
    · exact quiet _
    · rename_i r _
      split
      · exact quiet _
      · obtain ⟨asked, hasked, one⟩ := fetch_runs source db r
          (joinTexts r.localColumn records) children filters (hidden snapshot r children) s
        split
        · rename_i run
          rw [run] at hasked
          exact ⟨asked, hasked, Nat.le_add_right_of_le one⟩
        · rename_i items t run
          rw [run] at hasked
          -- The bound for the children does not depend on the rows that come back.
          obtain ⟨within, hwithin, few⟩ := expand_runs r.related children items t
          refine ⟨asked ++ within, ?_, ?_⟩
          · rw [hwithin, hasked, List.append_assoc]
          · show (asked ++ within).length ≤ _
            rw [List.length_append]
            exact Nat.add_le_add one few

end

/-- Without records, nothing is asked for. -/
theorem expandField_no_records (table : Table) (f : Field) (s : Session σ δ) :
    expandField source db snapshot table [] f s = ([], s) := by
  cases f with
  | wildcard => rfl
  | column name => rfl
  | relation name label children filters =>
    rw [expandField_relation]
    cases Relationship.resolve? snapshot table name <;> rfl

theorem expand_no_records (table : Table) (fields : List Field) (s : Session σ δ) :
    expand source db snapshot table [] fields s = ([], s) := by
  induction fields with
  | nil =>
    rw [expand]
    rfl
  | cons f rest ih => rw [expand_cons, expandField_no_records, ih]

theorem joinTexts_eq_nil_iff {column : String} {records : List Record} :
    joinTexts column records = [] ↔ ∀ record ∈ records, Record.joinText? record column = none := by
  rw [joinTexts, ← List.filterMap_eq_nil_iff]
  simp only [List.eq_nil_iff_forall_not_mem, List.mem_eraseDups]

/-- A relation without relations within sends what its own lookup sends. -/
theorem expandField_sent {table : Table} {records : List Record} {name : String}
    {label : Option String} {children : List Field} {filters : Entries String} {r : Relationship}
    (found : Relationship.resolve? snapshot table name = some r)
    (plain : ∀ f ∈ children, f.isRelation = false)
    (some : joinTexts r.localColumn records ≠ []) (s : Session σ δ) :
    (expandField source db snapshot table records (.relation name label children filters) s).2.sent =
      ((fetch source db r (joinTexts r.localColumn records) children filters
        (hidden snapshot r children)).run s).2.sent := by
  rw [expandField_relation, found]
  simp only
  rw [if_neg (by simpa using some)]
  split
  · rename_i run
    rw [run]
  · rename_i run
    rw [run, expand_plain r.related _ _ plain]

/-- The statements of an expansion do not grow with the records: a list of fields sends one for each of
its relations at most, and none without records. A relation without relations within sends nothing if no
record has a text to ask with, and else exactly one selection, if the columns are there, the texts are
converted to the type of the column that connects, and the filters are conditions. -/
theorem expand_batched (table : Table) (records : List Record) (s : Session σ δ) :
    (∀ fields, ∃ new,
      (expand source db snapshot table records fields s).2.sent = s.sent ++ new ∧
      new.length ≤ Field.relationsIn fields ∧ (records = [] → new = [])) ∧
    ∀ name label children filters r, Relationship.resolve? snapshot table name = some r →
      (∀ f ∈ children, f.isRelation = false) →
      ((∀ record ∈ records, Record.joinText? record r.localColumn = none) →
        (expandField source db snapshot table records (.relation name label children filters)
          s).2.sent = s.sent) ∧
      ((∃ record ∈ records, Record.joinText? record r.localColumn ≠ none) →
        ∀ p column values u cs v,
          projection r.related children (hidden snapshot r children) = .ok p →
          r.related.resolve r.remoteColumn = .ok column →
          ((joinTexts r.localColumn records).mapM (Convert.ofText source column.type)).Gives
            s.schema values u →
          (conditions source r.related filters).Gives u cs v →
          (expandField source db snapshot table records (.relation name label children filters)
            s).2.sent =
            s.sent ++ [.select
              { table := r.related.name
                projection := p
                filter := (among column values :: cs).map .one }]) := by
  refine ⟨fun fields => ?_, fun name label children filters r found plain => ⟨fun none => ?_,
    fun some p column values u cs v hp hcolumn hvalues hconditions => ?_⟩⟩
  · have runs : Session.Runs (expand source db snapshot table records fields) fun _ new =>
        new.length ≤ Field.relationsIn fields := expand_runs table fields records
    obtain ⟨new, hnew, few⟩ := runs s
    refine ⟨new, hnew, few, ?_⟩
    rintro rfl
    rw [expand_no_records] at hnew
    exact List.self_eq_append_right.mp hnew
  · rw [expandField_relation, found]
    simp only
    rw [if_pos (by simpa using joinTexts_eq_nil_iff.mpr none)]
  · have texts : joinTexts r.localColumn records ≠ [] := by
      intro none
      obtain ⟨record, mem, text⟩ := some
      exact text (joinTexts_eq_nil_iff.mp none record mem)
    have chosen := selection_gives.mpr
      ⟨p, column, values, u, cs, hp, hcolumn, hvalues, hconditions, rfl⟩
    rw [expandField_sent found plain texts, fetch_sent, chosen]
    rfl

theorem expand_batched_titles :
    Relationship.resolve? blogSnapshot authorsTable "posts" = some postsOfAuthors ∧
    (∀ f ∈ [Field.column "title"], f.isRelation = false) ∧
    (∃ record ∈ threeAuthors, Record.joinText? record "id" ≠ none) ∧
    ∃ column values, postsTable.resolve "author_id" = .ok column ∧
      ((joinTexts "id" threeAuthors).mapM
        (Convert.ofText (.fixed blogSnapshot) column.type)).Gives () values () ∧
      (expandField (.fixed blogSnapshot) postsDatabase blogSnapshot authorsTable threeAuthors
        titlesOfPosts { schema := (), database := () }).2.sent =
        [.select
          { table := "posts"
            projection := .columns ["title", "author_id"]
            filter := [.one (among column values)] }] := by
  have found : Relationship.resolve? blogSnapshot authorsTable "posts" = some postsOfAuthors := by
    decide +kernel
  have plain : ∀ f ∈ [Field.column "title"], f.isRelation = false := by simp [Field.isRelation]
  have texts : ∃ record ∈ threeAuthors, Record.joinText? record "id" ≠ none := by decide +kernel
  have columns : projection postsTable [.column "title"]
      (hidden blogSnapshot postsOfAuthors [.column "title"]) =
        .ok (.columns ["title", "author_id"]) := by decide +kernel
  have connects : postsTable.resolve "author_id" =
    .ok { name := "author_id", tag := "integer", type := .scalar .integer } := by decide +kernel
  have converted : ((joinTexts "id" threeAuthors).mapM
      (Convert.ofText (.fixed blogSnapshot) (.scalar .integer))).Gives () [.int 7, .int 8] () := rfl
  have unfiltered : (conditions (.fixed blogSnapshot) postsTable []).Gives () [] () := rfl
  exact ⟨found, plain, texts, _, _, connects, converted,
    ((expand_batched authorsTable threeAuthors { schema := (), database := () }).2 "posts" none
      [.column "title"] [] postsOfAuthors found plain).2 texts _ _ _ _ _ _ columns connects converted
        unfiltered⟩

end Expansion
end TableGateway
