import TableGateway.Proofs.Join

/-!
# Failures of an expansion stay local

An expansion changes records under the names of its relations only. A relation that is not found, or
whose rows cannot be looked up, leaves the records as the fields before it have left them, and the
fields after it go on from there. Main statement: `Expansion.expand_stays_local`.
-/
namespace TableGateway.Expansion

variable {σ δ : Type} {source : SchemaSource σ} {db : Database δ} {snapshot : Snapshot}

/-- The field is a relation that is not found, or whose rows cannot be looked up for the records, from a
session on. -/
inductive Misses (source : SchemaSource σ) (db : Database δ) (snapshot : Snapshot) (table : Table)
    (records : List Record) (s : Session σ δ) : Field → Prop where
  | unresolved {name : String} {label : Option String} {children : List Field}
      {filters : Entries String} (none : Relationship.resolve? snapshot table name = none) :
      Misses source db snapshot table records s (.relation name label children filters)
  | failed {name : String} {label : Option String} {children : List Field}
      {filters : Entries String} {r : Relationship}
      (found : Relationship.resolve? snapshot table name = some r)
      (texts : joinTexts r.localColumn records ≠ [])
      (fails : LookupFails source db r (joinTexts r.localColumn records) children filters
        (hidden snapshot r children) s) :
      Misses source db snapshot table records s (.relation name label children filters)

/-- A relation that is missed changes nothing. -/
theorem Misses.same {table : Table} {records : List Record} {s : Session σ δ} {f : Field}
    (h : Misses source db snapshot table records s f) :
    (expandField source db snapshot table records f s).1 = records := by
  cases h with
  | unresolved none => rw [expandField_relation, none]
  | failed found texts fails =>
    rw [expandField_relation, found]
    simp only
    rw [if_neg (by simpa using texts)]
    obtain ⟨e, failed⟩ := fetch_fails_iff.mpr fails
    -- Only a lookup that gives rows goes on to attach them.
    split
    · rfl
    · rename_i run
      rw [run] at failed
      cases failed

/-- The fields of a list are expanded from the left, each from where the last one ends. -/
theorem expand_append (table : Table) (after : List Field) : ∀ (before : List Field)
    (records : List Record) (s : Session σ δ),
    expand source db snapshot table records (before ++ after) s =
      expand source db snapshot table (expand source db snapshot table records before s).1 after
        (expand source db snapshot table records before s).2
  | [], records, s => by
    rw [List.nil_append, expand]
    rfl
  | f :: before, records, s => by
    rw [List.cons_append, expand, expand]
    exact expand_append table after before _ _

/-- After the expansion of some fields the records are as many, in the same order, and the same but
under the names of relations. A relation that is missed leaves the records that the fields before it
have left, and the fields after it are expanded from these. -/
theorem expand_stays_local (table : Table) (records : List Record) (fields : List Field)
    (s : Session σ δ) :
    List.Forall₂ (Kept fields) records (expand source db snapshot table records fields s).1 ∧
    ∀ before f after mid u, fields = before ++ f :: after →
      expand source db snapshot table records before s = (mid, u) →
      Misses source db snapshot table mid u f →
      ∃ v, expandField source db snapshot table mid f u = (mid, v) ∧
        expand source db snapshot table records fields s =
          expand source db snapshot table mid after v := by
  refine ⟨expand_kept table fields records s, ?_⟩
  rintro before f after mid u rfl expanded missed
  refine ⟨(expandField source db snapshot table mid f u).2, Prod.ext missed.same rfl, ?_⟩
  rw [expand_append, expanded, expand_cons, missed.same]

/-- The ratings of posts, which have none. -/
def ratingsOfPosts : Field := .relation "posts" (some "ratings") [.column "rating"] []

/-- The three authors with the titles of their posts, and the session after that. -/
def withTitles : List Record × Session Unit Unit :=
  expand (.fixed blogSnapshot) postsDatabase blogSnapshot authorsTable threeAuthors [titlesOfPosts]
    { schema := (), database := () }

theorem expand_stays_local_ratings :
    Misses (.fixed blogSnapshot) postsDatabase blogSnapshot authorsTable withTitles.1 withTitles.2
      ratingsOfPosts ∧
    ∃ v, expandField (.fixed blogSnapshot) postsDatabase blogSnapshot authorsTable withTitles.1
        ratingsOfPosts withTitles.2 = (withTitles.1, v) ∧
      expand (.fixed blogSnapshot) postsDatabase blogSnapshot authorsTable threeAuthors
        [titlesOfPosts, ratingsOfPosts, .column "name"] { schema := (), database := () } =
        expand (.fixed blogSnapshot) postsDatabase blogSnapshot authorsTable withTitles.1
          [.column "name"] v := by
  have found : Relationship.resolve? blogSnapshot authorsTable "posts" = some postsOfAuthors := by
    decide +kernel
  have texts : joinTexts "id" withTitles.1 ≠ [] := by decide +kernel
  have unknown : projection postsTable [.column "rating"]
      (hidden blogSnapshot postsOfAuthors [.column "rating"]) =
        .error (.invalidColumn "rating (table posts)") := by decide +kernel
  have missed : Misses (.fixed blogSnapshot) postsDatabase blogSnapshot authorsTable withTitles.1
      withTitles.2 ratingsOfPosts := .failed found texts (.projection unknown)
  exact ⟨missed, (expand_stays_local authorsTable threeAuthors _ _).2 [titlesOfPosts] ratingsOfPosts
    [.column "name"] _ _ rfl rfl missed⟩

end TableGateway.Expansion
