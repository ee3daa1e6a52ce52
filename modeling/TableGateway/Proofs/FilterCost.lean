import Mathlib.Algebra.BigOperators.Ring.List
import Mathlib.Algebra.Ring.Nat
import TableGateway.Proofs.Filters
import TableGateway.Proofs.Splitting
import TableGateway.Query.Complexity

/-!
# The cost of filters

The estimate counts the conditions of an `or` group in its text: it drops all opening parentheses before
the text and all closing ones behind it, where the reader of filters drops one of each. The numbers are
the same for every group that is accepted, since its alternatives begin with names and have points. So
what the estimate charges for the filters of a request are two points for each condition that they
become. Main statement: `Cost.analyze_charges`.
-/
namespace TableGateway

/-! ## Alternatives that are accepted -/

namespace Filter

/-- The text begins with a name, with white space around it, and a point. -/
def Named (cs : List Char) : Prop :=
  ∃ column raw, Text.cut? '.' cs = some (column, raw) ∧ isName (Text.trimmed (String.ofList column)) = true

theorem Named.pointed {cs : List Char} (h : Named cs) : '.' ∈ cs := by
  obtain ⟨column, raw, cut, -⟩ := h
  rw [(Text.cut?_eq_some cut).1]
  simp

/-- No name begins with a parenthesis. -/
theorem Named.head_ne {cs : List Char} (h : Named cs) : cs.head? ≠ some '(' := by
  obtain ⟨column, raw, cut, named⟩ := h
  rw [(Text.cut?_eq_some cut).1]
  intro first
  cases column with
  | nil => exact absurd first (by simp)
  | cons c column =>
    have opening : c = '(' := by simpa using first
    have start : (Text.trim (c :: column)).head? = some '(' :=
      Text.head?_trim (by rw [opening]; rfl) (by decide)
    obtain ⟨cs, hcs⟩ := List.head?_eq_some_iff.mp start
    rw [isName, Text.trimmed, String.toList_ofList, String.toList_ofList, hcs] at named
    exact absurd named (by simp [isNameStart])

variable {σ : Type} (source : SchemaSource σ) (table : Table)

theorem alternative_named (cs : List Char) :
    (alternative source table cs).Ends (fun _ => Named cs) fun _ => True := by
  unfold alternative
  split
  · rename_i column raw cut
    unfold condition
    refine .bind (.known (.self _)) fun found resolved => ?_
    obtain ⟨-, trimmed, named⟩ := Table.resolve_eq_ok resolved
    refine (Lookup.Ends.any _).mono (fun _ _ => ⟨column, raw, cut, ?_⟩) fun _ => id
    rwa [← trimmed]
  · exact .throw trivial

end Filter

/-! ## Conditions are counted -/

namespace Cost

/-- The text without the opening parentheses before it and the closing ones behind it. -/
def strip (cs : List Char) : List Char :=
  ((cs.dropWhile (· == '(')).reverse.dropWhile (· == ')')).reverse

theorem conditions_or (value : String) :
    conditions "or" value = (Select.splitTopLevel (strip (Text.trim value.toList))).length := by
  rw [conditions, if_pos rfl]
  rfl

variable {cs : List Char}

theorem dropWhile_opening (h : cs.head? ≠ some '(') : cs.dropWhile (· == '(') = cs := by
  cases cs with
  | nil => rfl
  | cons c cs => exact List.dropWhile_cons_of_neg (by simpa using h)

/-- Where nothing is dropped before the text, only closing parentheses are dropped. -/
theorem exists_strip (h : cs.head? ≠ some '(') : ∃ ks, (∀ c ∈ ks, c = ')') ∧ cs = strip cs ++ ks := by
  refine ⟨(cs.reverse.takeWhile (· == ')')).reverse, fun c hc => ?_, ?_⟩
  · simpa using List.all_eq_true.mp List.all_takeWhile c (List.mem_reverse.mp hc)
  · rw [strip, dropWhile_opening h, ← List.reverse_append, List.takeWhile_append_dropWhile,
      List.reverse_reverse]

/-- With one pair of parentheses around it, the same is left of the text. -/
theorem strip_enclosed (h : cs.head? ≠ some '(') : strip ('(' :: cs ++ [')']) = strip cs := by
  have kept : (cs ++ [')']).head? ≠ some '(' := by
    cases cs with
    | nil => decide
    | cons c cs => exact h
  rw [strip, strip, dropWhile_opening h, List.cons_append, List.dropWhile_cons_of_pos rfl,
    dropWhile_opening kept, List.reverse_append]
  rfl

/-- The alternatives of a group that begin with names are those that are counted. -/
theorem conditions_group {value : String} (named : ∀ cs ∈ Filter.alternatives value, Filter.Named cs) :
    conditions "or" value = (Filter.alternatives value).length := by
  rw [conditions_or]
  unfold Filter.alternatives at named ⊢
  generalize Text.trim value.toList = text at named ⊢
  simp only at named ⊢
  generalize hinner : (Text.unwrap? '(' ')' text).getD text = inner at named ⊢
  -- More parentheses before the inside would stand before the name of its first alternative.
  have head : inner.head? ≠ some '(' := by
    intro first
    obtain ⟨rest, rfl⟩ := List.head?_eq_some_iff.mp first
    obtain ⟨part, hpart, opening⟩ := Select.exists_part_opening rest
    exact (named part hpart).head_ne opening
  have same : strip text = strip inner := by
    cases unwrapped : Text.unwrap? '(' ')' text with
    | none => rw [← hinner, unwrapped, Option.getD_none]
    | some cs =>
      rw [unwrapped, Option.getD_some] at hinner
      rw [Text.unwrap?_eq_some_iff.mp unwrapped, hinner, strip_enclosed head]
  obtain ⟨ks, closing, split⟩ := exists_strip head
  rw [same]
  conv_rhs => rw [split]
  refine (Select.length_splitTopLevel_closing closing _ fun part hpart => ?_).symm
  rw [← split] at hpart
  exact (named part hpart).pointed

-- A group that is refused may be counted in another way than it is read.
example : conditions "or" "(a.eq.1,))" = 1 ∧ (Filter.alternatives "(a.eq.1,))").length = 2 := by decide

end Cost

/-! ## The conditions of a request -/

namespace Filter

variable {σ : Type} (source : SchemaSource σ) (table : Table)

theorem orGroup_counts (value : String) :
    (orGroup source table value).Ends (fun c => c.conditions.length = Cost.conditions "or" value)
      fun _ => True := by
  unfold orGroup
  refine .bind (.mapM fun cs _ => alternative_named source table cs) fun found hfound => ?_
  have named : ∀ cs ∈ alternatives value, Named cs := by
    intro cs hcs
    obtain ⟨_, -, h⟩ := exists_of_forall₂ hfound.flip cs hcs
    exact h
  split
  · exact .bind (.throw trivial) fun _ h => h
  · refine .pure ?_
    rw [Cost.conditions_group named, hfound.length_eq]
    rfl

theorem conjunct_counts (name value : String) :
    (conjunct source table name value).Ends
      (fun c => c.conditions.length = Cost.conditions name value) fun _ => True := by
  unfold conjunct
  split
  · rename_i group
    rw [group]
    exact orGroup_counts source table value
  · rename_i plain
    refine .bind (.any _) fun c _ => .pure ?_
    rw [Cost.conditions, if_neg plain]
    rfl

/-- A request has as many conditions as are counted in its filters. -/
theorem conditions_counts (params : Params) :
    (conditions source table params).Ends
      (fun w => w.conditions.length =
        (params.pairs.map fun pair => Cost.conditions pair.1 pair.2).sum) fun _ => True := by
  unfold conditions
  refine (Lookup.Ends.mapM fun pair _ => conjunct_counts source table pair.1 pair.2).mono
    (fun w hw => ?_) fun _ => id
  change List.Forall₂ _ params.pairs w at hw
  rw [Where.conditions, List.length_flatMap]
  generalize params.pairs = pairs at hw
  induction hw with
  | nil => rfl
  | cons h _ ih => rw [List.map_cons, List.map_cons, List.sum_cons, List.sum_cons, h, ih]

end Filter

/-! ## Points -/

namespace Field

mutual

/-- The points for a list of fields at a level, without a bound. -/
def pointsIn (level : Nat) : List Field → Nat
  | [] => 0
  | f :: rest => points level f + pointsIn level rest

/-- The points for a field at a level, without a bound. -/
def points (level : Nat) : Field → Nat
  | wildcard => 5
  | column _ => 1
  | relation _ _ children _ => pointsIn (level + 1) children + 10 * level

end

end Field

/-- The points for the filters of relations, without a bound. -/
def Params.embeddedPoints (params : Params) : Nat :=
  (params.embedded.map fun (_, _, values) => 2 * values.length).sum

namespace Cost

theorem clamp_le (n : Nat) : clamp n ≤ Number.maxWord := Nat.min_le_right _ _

theorem clamp_eq_self {n : Nat} (h : n ≤ Number.maxWord) : clamp n = n := Nat.min_eq_left h

/-- A bound that is kept on the way is one at the end. -/
theorem clamp_clamp_add (m n : Nat) : clamp (clamp m + n) = clamp (m + n) := by
  unfold clamp
  omega

theorem clamp_add_clamp (m n : Nat) : clamp (m + clamp n) = clamp (m + n) := by
  unfold clamp
  omega

theorem charge_score (c : Cost) (points : Nat) :
    (c.charge points).score = clamp (c.score + points) := rfl

theorem chargeConditions_score (c : Cost) (n : Nat) :
    (c.chargeConditions n).score = clamp (c.score + 2 * n) := by
  rw [chargeConditions, charge_score, clamp_add_clamp]
  unfold clamp
  omega

mutual

/-- The score of fields is the sum of their points. -/
theorem addFields_score : ∀ (fields : List Field) (level : Nat) {c : Cost}, c.score ≤ Number.maxWord →
    (addFields level c fields).score = clamp (c.score + Field.pointsIn level fields)
  | [], level, c, h => (clamp_eq_self h).symm
  | f :: rest, level, c, h => by
    have first : (addField level c.count f).score = clamp (c.score + f.points level) :=
      addField_score f level h
    have bounded : (addField level c.count f).score ≤ Number.maxWord := by
      rw [first]
      exact clamp_le _
    rw [addFields, addFields_score rest level bounded, first, clamp_clamp_add, Field.pointsIn,
      Nat.add_assoc]

theorem addField_score : ∀ (f : Field) (level : Nat) {c : Cost}, c.score ≤ Number.maxWord →
    (addField level c f).score = clamp (c.score + f.points level)
  | .wildcard, level, c, h => rfl
  | .column name, level, c, h => rfl
  | .relation name label children filters, level, c, h => by
    have within : (addFields (level + 1) { c with depth := max c.depth level } children).score =
        clamp (c.score + Field.pointsIn (level + 1) children) := addFields_score children (level + 1) h
    rw [addField, charge_score, within, clamp_clamp_add, clamp_add_clamp, Field.points, Nat.add_assoc]

end

/-- Steps that each add points add their sum. -/
theorem foldl_score {α : Type} {f : Cost → α → Cost} {points : α → Nat}
    (h : ∀ c a, (f c a).score = clamp (c.score + points a)) (l : List α) {c : Cost}
    (hc : c.score ≤ Number.maxWord) :
    (l.foldl f c).score = clamp (c.score + (l.map points).sum) := by
  induction l generalizing c with
  | nil => exact (clamp_eq_self hc).symm
  | cons a l ih =>
    have bounded : (f c a).score ≤ Number.maxWord := by
      rw [h]
      exact clamp_le _
    rw [List.foldl_cons, ih bounded, h, clamp_clamp_add, List.map_cons, List.sum_cons, Nat.add_assoc]

theorem addFilters_eq (params : Params) (c : Cost) : c.addFilters params =
    params.pairs.foldl (fun c pair => c.chargeConditions (conditions pair.1 pair.2)) c := by
  rw [addFilters, Params.pairs, List.foldl_flatMap]
  simp only [List.foldl_map]

theorem addFilters_score (params : Params) {c : Cost} (h : c.score ≤ Number.maxWord) :
    (c.addFilters params).score = clamp (c.score +
      2 * (params.pairs.map fun pair => conditions pair.1 pair.2).sum) := by
  have step : ∀ (c : Cost) (pair : String × String), (c.chargeConditions (conditions pair.1 pair.2)).score =
      clamp (c.score + 2 * conditions pair.1 pair.2) := fun c _ => chargeConditions_score c _
  rw [addFilters_eq, foldl_score step _ h, List.sum_map_mul_left]

theorem addEmbedded_score (params : Params) {c : Cost} (h : c.score ≤ Number.maxWord) :
    (c.addEmbedded params).score = clamp (c.score + params.embeddedPoints) := by
  refine foldl_score ?_ params.embedded h
  rintro c ⟨relation, column, values⟩
  exact chargeConditions_score c values.length

/-! ## The estimate -/

/-- The estimate charges two points for each condition that the filters of a request become: as long as
the score stays within its bound that is what is added for the filters, and the score of the whole
request is a sum in which it is one part. -/
theorem analyze_charges {σ : Type} {source : SchemaSource σ} {table : Table} {params : Params} {t u : σ}
    {w : Where} (accepted : (Filter.conditions source table params).Gives t w u) :
    (∀ c : Cost, c.score + 2 * w.conditions.length ≤ Number.maxWord →
      (c.addFilters params).score = c.score + 2 * w.conditions.length) ∧
    ∀ (fields : List Field) (rows : Nat), pageSize params = .ok rows →
      ∃ c, analyze fields params = .ok c ∧
        c.score = clamp (Field.pointsIn 1 fields + 2 * w.conditions.length + params.embeddedPoints +
          rows / 100) := by
  have counted := (Filter.conditions_counts source table params).of_gives accepted
  constructor
  · intro c fits
    rw [addFilters_score params (Nat.le_of_add_right_le fits), ← counted, clamp_eq_self fits]
  · intro fields rows sized
    unfold analyze
    rw [sized]
    refine ⟨_, rfl, ?_⟩
    have fromFields := addFields_score fields 1 (c := {}) (Nat.zero_le _)
    have fromFilters := addFilters_score params (fromFields ▸ clamp_le _)
    rw [fromFields, clamp_clamp_add, ← counted] at fromFilters
    have fromEmbedded := addEmbedded_score params (fromFilters ▸ clamp_le _)
    rw [fromFilters, clamp_clamp_add] at fromEmbedded
    rw [charge_score, clamp_add_clamp, fromEmbedded, clamp_clamp_add, Nat.zero_add]

end Cost

def tasks : Table :=
  { name := "tasks", columns := [
      { name := "id", tag := "integer", type := .scalar .integer, isKey := true },
      { name := "title", tag := "text", type := .scalar .text }] }

/-- A group that begins with a list and ends with two closing parentheses, beside two other filters. -/
def tasksParams : Params :=
  [("first", ["250"]), ("or", [" (title.in.(a,b),title.eq.(c)) "]), ("title", ["neq.d", "like.e*"])]

def tasksWhere : Where :=
  [.anyOf [{ column := "title", predicate := .oneOf false {} [.text "a", .text "b"] },
      { column := "title", predicate := .compare .eq {} (.text "(c)") }],
    .one { column := "title", predicate := .compare .ne {} (.text "d") },
    .one { column := "title", predicate := .like false "e%" }]

theorem Cost.analyze_charges_tasks :
    (Filter.conditions (.fixed {}) tasks tasksParams).Gives () tasksWhere () ∧
      (({} : Cost).addFilters tasksParams).score = 8 ∧
      ∃ c, analyze [.column "id"] tasksParams = .ok c ∧ c.score = 11 := by
  have accepted : (Filter.conditions (.fixed {}) tasks tasksParams).Gives () tasksWhere () := rfl
  obtain ⟨added, whole⟩ := analyze_charges accepted
  exact ⟨accepted, added {} (by decide), whole [.column "id"] 250 rfl⟩

end TableGateway
