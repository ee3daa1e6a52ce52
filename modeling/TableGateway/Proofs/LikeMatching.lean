import Mathlib.Data.List.Infix
import TableGateway.Filter.Conditions
import TableGateway.Proofs.Expressions

/-!
# Filters by patterns

A pattern is matched by a text as SQL has it: `%` stands for any text, `_` for any character, and `\`
before a character for that character. The filters for texts that begin with a value, end with it or
hold it bind the value within such a pattern as it is. They are literal exactly for the values without
these three characters. Main statement: `Filter.patterns_literal`.
-/
namespace TableGateway

/-! ## Patterns -/

/-- The characters with a meaning of their own in a pattern. -/
def Pattern.isSpecial (c : Char) : Bool := c = '%' || c = '_' || c = '\\'

/-- The text has no character with a meaning in patterns. -/
def Pattern.Plain (cs : List Char) : Prop := ∀ c ∈ cs, isSpecial c = false

/-- The text has the form of the pattern. A `\` that ends a pattern is before no character, so no text
has that form. -/
inductive Likes : List Char → List Char → Prop where
  | done : Likes [] []
  | any (run : List Char) {p t : List Char} (h : Likes p t) : Likes ('%' :: p) (run ++ t)
  | one (c : Char) {p t : List Char} (h : Likes p t) : Likes ('_' :: p) (c :: t)
  | escaped (c : Char) {p t : List Char} (h : Likes p t) : Likes ('\\' :: c :: p) (c :: t)
  | usual {c : Char} (hc : Pattern.isSpecial c = false) {p t : List Char} (h : Likes p t) :
    Likes (c :: p) (c :: t)

namespace Pattern

/-- Match a text against a pattern, or against what is behind a `\`. -/
def matchAt : Bool → List Char → List Char → Bool
  | behind, [], t => !behind && t.isEmpty
  | true, c :: p, t => t.head? = some c && matchAt false p t.tail
  | false, c :: p, t =>
    if c = '%' then t.tails.any (matchAt false p)
    else if c = '\\' then matchAt true p t
    else (if c = '_' then t.head?.isSome else t.head? = some c) && matchAt false p t.tail

theorem matchAt_of_likes {p t : List Char} (h : Likes p t) : matchAt false p t = true := by
  induction h with
  | done => rfl
  | any run _ ih =>
    rw [matchAt, if_pos rfl, List.any_eq_true]
    exact ⟨_, (List.mem_tails _ _).mpr (List.suffix_append run _), ih⟩
  | one c _ ih => simpa [matchAt] using ih
  | escaped c _ ih => simpa [matchAt] using ih
  | usual hc _ ih =>
    simp only [isSpecial, Bool.or_eq_false_iff, decide_eq_false_iff_not] at hc
    simpa [matchAt, hc] using ih

theorem likes_of_matchAt (p : List Char) : ∀ t : List Char,
    (matchAt false p t = true → Likes p t) ∧ (matchAt true p t = true → Likes ('\\' :: p) t) := by
  induction p with
  | nil =>
    intro t
    constructor
    · intro h
      obtain rfl : t = [] := by simpa [matchAt] using h
      exact .done
    · intro h
      simp [matchAt] at h
  | cons c p ih =>
    intro t
    constructor
    · intro h
      rw [matchAt] at h
      by_cases any : c = '%'
      · rw [if_pos any, List.any_eq_true] at h
        obtain ⟨rest, among, matched⟩ := h
        obtain ⟨run, rfl⟩ := (List.mem_tails _ _).mp among
        subst any
        exact .any run ((ih rest).1 matched)
      · rw [if_neg any] at h
        by_cases escape : c = '\\'
        · rw [if_pos escape] at h
          subst escape
          exact (ih t).2 h
        · rw [if_neg escape, Bool.and_eq_true] at h
          obtain ⟨first, rest⟩ := h
          cases t with
          | nil => split at first <;> simp at first
          | cons d t =>
            by_cases one : c = '_'
            · subst one
              exact .one d ((ih t).1 rest)
            · obtain rfl : d = c := by simpa [one] using first
              exact .usual (by simp [isSpecial, any, one, escape]) ((ih t).1 rest)
    · intro h
      rw [matchAt, Bool.and_eq_true] at h
      obtain ⟨first, rest⟩ := h
      cases t with
      | nil => simp at first
      | cons d t =>
        obtain rfl : d = c := by simpa using first
        exact .escaped d ((ih t).1 rest)

instance (p t : List Char) : Decidable (Likes p t) :=
  decidable_of_iff (matchAt false p t = true) ⟨(likes_of_matchAt p t).1, matchAt_of_likes⟩

instance (cs : List Char) : Decidable (Plain cs) := List.decidableBAll (isSpecial · = false) cs

/-! ## Literal patterns -/

variable {v p q t : List Char}

theorem likes_nil_iff : Likes [] t ↔ t = [] := by
  constructor
  · intro h
    cases h
    rfl
  · rintro rfl
    exact .done

theorem likes_any_iff : Likes ('%' :: p) t ↔ ∃ run rest, t = run ++ rest ∧ Likes p rest := by
  constructor
  · intro h
    cases h with
    | any run h => exact ⟨run, _, rfl, h⟩
    | usual hc => cases hc
  · rintro ⟨run, rest, rfl, h⟩
    exact .any run h

/-- A plain text at the start of a pattern stands for itself. -/
theorem likes_append_iff (plain : Plain v) :
    Likes (v ++ q) t ↔ ∃ rest, t = v ++ rest ∧ Likes q rest := by
  induction v generalizing t with
  | nil => simp
  | cons c v ih =>
    have usual : isSpecial c = false := plain c (by simp)
    have later : Plain v := fun d hd => plain d (by simp [hd])
    rw [List.cons_append]
    generalize whole : v ++ q = p at *
    constructor
    · intro h
      cases h with
      | usual _ h =>
        obtain ⟨rest, rfl, matched⟩ := (ih later).mp h
        exact ⟨rest, rfl, matched⟩
      | any | one | escaped => cases usual
    · rintro ⟨rest, rfl, matched⟩
      exact .usual usual ((ih later).mpr ⟨rest, rfl, matched⟩)

theorem likes_plain_iff (plain : Plain v) : Likes v t ↔ t = v := by
  have whole := likes_append_iff (q := []) (t := t) plain
  rw [List.append_nil] at whole
  simp [whole, likes_nil_iff]

theorem likes_run : Likes ['%'] t := by
  have := Likes.any t .done
  rwa [List.append_nil] at this

theorem likes_start_iff (plain : Plain v) : Likes (v ++ ['%']) t ↔ v <+: t := by
  rw [likes_append_iff plain]
  constructor
  · rintro ⟨rest, rfl, -⟩
    exact List.prefix_append v rest
  · rintro ⟨rest, rfl⟩
    exact ⟨rest, rfl, likes_run⟩

theorem likes_end_iff (plain : Plain v) : Likes ('%' :: v) t ↔ v <:+ t := by
  rw [likes_any_iff]
  constructor
  · rintro ⟨run, rest, rfl, h⟩
    rw [(likes_plain_iff plain).mp h]
    exact List.suffix_append run v
  · rintro ⟨run, rfl⟩
    exact ⟨run, v, rfl, (likes_plain_iff plain).mpr rfl⟩

theorem likes_inside_iff (plain : Plain v) : Likes ('%' :: (v ++ ['%'])) t ↔ v <:+: t := by
  rw [likes_any_iff]
  constructor
  · rintro ⟨run, rest, rfl, h⟩
    obtain ⟨behind, rfl⟩ := (likes_start_iff plain).mp h
    exact ⟨run, behind, List.append_assoc run v behind⟩
  · rintro ⟨run, behind, rfl⟩
    exact ⟨run, v ++ behind, List.append_assoc run v behind,
      (likes_start_iff plain).mpr (List.prefix_append v behind)⟩

/-! ## Patterns that are not literal -/

/-- The shortest text of the form of a pattern, or of what is behind a `\`, with a blank for each `_`. -/
def shortest : Bool → List Char → List Char
  | _, [] => []
  | true, c :: p => c :: shortest false p
  | false, c :: p =>
    if c = '%' then shortest false p
    else if c = '\\' then shortest true p
    else (if c = '_' then ' ' else c) :: shortest false p

theorem likes_shortest (h : Likes p t) : Likes p (shortest false p) := by
  induction h with
  | done => exact .done
  | any _ _ ih => exact .any [] ih
  | one _ _ ih => exact .one ' ' ih
  | escaped c _ ih => exact .escaped c ih
  | usual hc _ ih =>
    have parts := hc
    simp only [isSpecial, Bool.or_eq_false_iff, decide_eq_false_iff_not] at parts
    rw [shortest, if_neg parts.1.1, if_neg parts.2, if_neg parts.1.2]
    exact .usual hc ih

/-- With `%` behind it or not, a value as a pattern has no shortest text longer than itself. -/
theorem length_shortest_append_le (hq : q = [] ∨ q = ['%']) (v : List Char) :
    ∀ behind : Bool, (shortest behind (v ++ q)).length ≤ v.length + behind.toNat := by
  induction v with
  | nil => rcases hq with rfl | rfl <;> decide
  | cons c v ih =>
    have next := ih false
    have later := ih true
    simp only [Bool.toNat_false, Bool.toNat_true] at next later
    intro behind
    cases behind with
    | true =>
      rw [List.cons_append, shortest, List.length_cons, List.length_cons]
      omega
    | false =>
      rw [List.cons_append, shortest]
      split_ifs <;> simp only [List.length_cons] <;> omega

/-- That shortest text is the value itself only if the value is plain. -/
theorem plain_of_shortest (hq : q = [] ∨ q = ['%']) (same : shortest false (v ++ q) = v) : Plain v := by
  induction v with
  | nil => exact fun c hc => absurd hc List.not_mem_nil
  | cons c v ih =>
    have bound := length_shortest_append_le hq v false
    rw [List.cons_append, shortest] at same
    by_cases any : c = '%'
    · rw [if_pos any] at same
      rw [same, List.length_cons, Bool.toNat_false] at bound
      omega
    · rw [if_neg any] at same
      by_cases escape : c = '\\'
      · rw [if_pos escape, escape] at same
        -- The text is that of what is behind the `\`, which is `%` or has become too short.
        cases v with
        | nil => rcases hq with rfl | rfl <;> simp [shortest] at same
        | cons d v =>
          have short := length_shortest_append_le hq v false
          rw [List.cons_append, shortest] at same
          rw [(List.cons.inj same).2, List.length_cons, Bool.toNat_false] at short
          omega
      · rw [if_neg escape] at same
        obtain ⟨first, rest⟩ := List.cons.inj same
        have one : c ≠ '_' := by
          rintro rfl
          cases first
        intro d hd
        rcases List.mem_cons.mp hd with rfl | hd
        · simp [isSpecial, any, one, escape]
        · exact ih rest d hd

/-- A pattern that has the form of its value, and is matched only by texts that hold the value, has a
plain value. -/
theorem plain_of_literal (hq : q = [] ∨ q = ['%'])
    (short : shortest false p = shortest false (v ++ q)) (itself : Likes p v)
    (holds : ∀ t, Likes p t → v <:+: t) : Plain v := by
  have inside := holds _ (likes_shortest itself)
  rw [short] at inside
  have bound := length_shortest_append_le hq v false
  exact plain_of_shortest hq (inside.eq_of_length_le bound).symm

theorem start_literal_iff : (∀ t, Likes (v ++ ['%']) t ↔ v <+: t) ↔ Plain v := by
  constructor
  · intro literal
    exact plain_of_literal (.inr rfl) rfl ((literal v).mpr List.prefix_rfl)
      fun t h => ((literal t).mp h).isInfix
  · intro plain t
    exact likes_start_iff plain

theorem end_literal_iff : (∀ t, Likes ('%' :: v) t ↔ v <:+ t) ↔ Plain v := by
  constructor
  · intro literal
    refine plain_of_literal (.inl rfl) ?_ ((literal v).mpr List.suffix_rfl)
      fun t h => ((literal t).mp h).isInfix
    rw [List.append_nil]
    rfl
  · intro plain t
    exact likes_end_iff plain

theorem inside_literal_iff : (∀ t, Likes ('%' :: (v ++ ['%'])) t ↔ v <:+: t) ↔ Plain v := by
  constructor
  · intro literal
    refine plain_of_literal (.inr rfl) ?_ ((literal v).mpr List.infix_rfl) fun t => (literal t).mp
    rfl
  · intro plain t
    exact likes_inside_iff plain

end Pattern

/-! ## Filters -/

namespace Filter

variable {σ : Type} (source : SchemaSource σ) (table : Table)

/-- The filter compares a column of the table with a pattern, which is the only value that is bound. -/
def BindsPattern (name raw : String) (pattern : List Char) : Prop :=
  ∃ column c, table.resolve name = .ok column ∧ condition source table name raw = pure c ∧
    c.sql = column.name ++ " LIKE ?" ∧ c.params = [.text (String.ofList pattern)]

variable {table} {name v : String} {column : Column}

theorem bindsPattern (resolved : table.resolve name = .ok column)
    (accepted : Denylist.checkValue v = .ok ()) (keyword : String) {operator : Operator}
    (known : Operator.ofKeyword? keyword.toList = some operator) {pattern : String}
    (asks : predicateOf source column operator v = pure (.like false pattern)) :
    BindsPattern source table name (keyword ++ "." ++ v) pattern.toList := by
  refine ⟨column, { column := column.name, predicate := .like false pattern }, resolved, ?_, rfl, ?_⟩
  · unfold condition
    have passed : ∀ {α : Type} (a : α), (TableGateway.known (.ok a) : Lookup σ α) = pure a :=
      fun _ => rfl
    rw [resolved, FilterExpr.parse_operator known]
    simp only [accepted, passed, pure_bind, asks]
  · rw [String.ofList_toList]
    rfl

open Pattern in
/-- The patterns for texts that begin with a value, end with it or hold it are the value with `%` at
its open ends. They are literal exactly if the value is plain. -/
theorem patterns_literal (resolved : table.resolve name = .ok column)
    (accepted : Denylist.checkValue v = .ok ()) :
    (BindsPattern source table name ("startswith." ++ v) (v.toList ++ ['%']) ∧
      ((∀ t, Likes (v.toList ++ ['%']) t ↔ v.toList <+: t) ↔ Plain v.toList)) ∧
    (BindsPattern source table name ("endswith." ++ v) ('%' :: v.toList) ∧
      ((∀ t, Likes ('%' :: v.toList) t ↔ v.toList <:+ t) ↔ Plain v.toList)) ∧
    ('*' ∉ v.toList →
      BindsPattern source table name ("like." ++ v) ('%' :: (v.toList ++ ['%'])) ∧
      ((∀ t, Likes ('%' :: (v.toList ++ ['%'])) t ↔ v.toList <:+: t) ↔ Plain v.toList)) := by
  refine ⟨⟨?_, start_literal_iff⟩, ⟨?_, end_literal_iff⟩, fun starless => ⟨?_, inside_literal_iff⟩⟩
  · have := bindsPattern source resolved accepted "startswith" rfl rfl
    simpa using this
  · have := bindsPattern source resolved accepted "endswith" rfl rfl
    simpa using this
  · have := bindsPattern source resolved accepted "like" rfl rfl
    simpa [likePattern, starless] using this

def namesColumn : Column := .ofTag "name" "text"

def namesTable : Table := { name := "people", columns := [namesColumn] }

theorem patterns_literal_names :
    namesTable.resolve "name" = .ok namesColumn ∧ Denylist.checkValue "Jo" = .ok () ∧
    BindsPattern (.fixed {}) namesTable "name" "startswith.Jo" ['J', 'o', '%'] ∧
    BindsPattern (.fixed {}) namesTable "name" "endswith.Jo" ['%', 'J', 'o'] ∧
    BindsPattern (.fixed {}) namesTable "name" "like.Jo" ['%', 'J', 'o', '%'] ∧
    ∀ t, Likes ['J', 'o', '%'] t ↔ ['J', 'o'] <+: t := by
  have resolved : namesTable.resolve "name" = .ok namesColumn := rfl
  have accepted : Denylist.checkValue "Jo" = .ok () := by decide +kernel
  have plain : Pattern.Plain "Jo".toList := by decide
  obtain ⟨⟨starts, literal⟩, ⟨ends, -⟩, inside⟩ := patterns_literal (.fixed {}) resolved accepted
  exact ⟨resolved, accepted, starts, ends, (inside (by decide)).1, literal.mpr plain⟩

/-- An accepted value with `_` is not literal. -/
theorem startsWith_underscore :
    Denylist.checkValue "a_c" = .ok () ∧
    BindsPattern (.fixed {}) namesTable "name" "startswith.a_c" ['a', '_', 'c', '%'] ∧
    Likes ['a', '_', 'c', '%'] ['a', 'b', 'c'] ∧ ¬ ['a', '_', 'c'] <+: ['a', 'b', 'c'] := by
  have accepted : Denylist.checkValue "a_c" = .ok () := by decide +kernel
  have resolved : namesTable.resolve "name" = .ok namesColumn := rfl
  exact ⟨accepted, bindsPattern (.fixed {}) resolved accepted "startswith" rfl rfl, by decide, by decide⟩

end Filter
end TableGateway
