import TableGateway.Filter.Operator

/-!
# Reading filter expressions

A keyword of an operator and a point begin an expression of that operator, whatever the value behind them, and
a `not.` before both negates it. All other texts but one are values to be equal to, so that they mean the same
with and without an `eq.` before them. Main statement: `FilterExpr.parse_unambiguous`.
-/
namespace TableGateway

/-! ## Keywords -/

namespace Operator

/-- The text is one of the keywords of the operator, in any case of its letters. -/
def SpelledBy (operator : Operator) (text : List Char) : Prop :=
  ∃ words, (operator, words) ∈ table ∧ ∃ word ∈ words, Text.sameCaseless text word.toList = true

variable {text : List Char} {operator : Operator}

theorem ofKeyword?_congr {other : List Char} (h : Text.sameCaseless text other = true) :
    ofKeyword? text = ofKeyword? other := by
  rw [Text.sameCaseless, beq_iff_eq] at h
  rw [ofKeyword?, ofKeyword?, h]

/-- A keyword is known as that of the one operator that it stands for. -/
theorem ofKeyword?_eq_some_iff : ofKeyword? text = some operator ↔ operator.SpelledBy text := by
  constructor
  · intro h
    obtain ⟨⟨other, words⟩, found, same⟩ := Option.map_eq_some_iff.mp h
    have word : String.ofList (Text.lower text) ∈ words := by simpa using List.find?_some found
    have small : ∀ entry ∈ table, ∀ w ∈ entry.2, Text.lower w.toList = w.toList := by decide
    have here := small _ (List.mem_of_find?_eq_some found) _ word
    rw [String.toList_ofList] at here
    refine ⟨words, same ▸ List.mem_of_find?_eq_some found, _, word, ?_⟩
    rw [Text.sameCaseless, beq_iff_eq, String.toList_ofList, here]
  · rintro ⟨words, entry, word, hword, same⟩
    -- No keyword stands for two operators.
    have distinct : ∀ entry ∈ table, ∀ w ∈ entry.2, ofKeyword? w.toList = some entry.1 := by
      decide +kernel
    rw [ofKeyword?_congr same, distinct _ entry _ hword]

/-- A known operator is written without a point, and is not the word for a negation. -/
theorem keyword_of_ofKeyword? {keyword : List Char} (h : ofKeyword? keyword = some operator) :
    '.' ∉ Text.lower keyword ∧ Text.lower keyword ≠ "not".toList := by
  obtain ⟨words, entry, word, hword, same⟩ := ofKeyword?_eq_some_iff.mp h
  have known : ∀ entry ∈ table, ∀ w ∈ entry.2,
      '.' ∉ Text.lower w.toList ∧ Text.lower w.toList ≠ "not".toList := by decide
  rw [Text.sameCaseless, beq_iff_eq] at same
  rw [same]
  exact known _ entry word hword

end Operator

/-! ## Expressions -/

namespace FilterExpr

/-- The text is `not.`, in any case of its letters. -/
def IsNot (lead : List Char) : Prop := Text.sameCaseless lead "not.".toList = true

/-- The text begins with `not.`, in any case of its letters. -/
def BeginsNot (cs : List Char) : Prop := ∃ lead rest, IsNot lead ∧ cs = lead ++ rest

theorem dropNot?_eq_some_iff {cs rest : List Char} :
    dropNot? cs = some rest ↔ ∃ lead, IsNot lead ∧ cs = lead ++ rest := by
  constructor
  · intro h
    unfold dropNot? at h
    split at h
    · rename_i n o t point tail
      split at h
      · rename_i same
        cases h
        exact ⟨[n, o, t, point], same, rfl⟩
      · cases h
    · cases h
  · rintro ⟨lead, same, rfl⟩
    have letters : Text.lower lead = "not.".toList := by
      rw [IsNot, Text.sameCaseless, beq_iff_eq] at same
      exact same
    have length : lead.length = 4 := by simpa [Text.lower] using congrArg List.length letters
    match lead, length with
    | [n, o, t, point], _ => exact if_pos same

theorem dropNot?_eq_none_iff {cs : List Char} : dropNot? cs = none ↔ ¬ BeginsNot cs := by
  rw [Option.eq_none_iff_forall_ne_some]
  constructor
  · rintro kept ⟨lead, rest, same, split⟩
    exact kept rest (dropNot?_eq_some_iff.mpr ⟨lead, same, split⟩)
  · intro affirmed rest dropped
    obtain ⟨lead, same, split⟩ := dropNot?_eq_some_iff.mp dropped
    exact affirmed ⟨lead, rest, same, split⟩

variable {operator : Operator} {keyword value : List Char}

/-- A keyword is known by the point behind it, as it has none itself. -/
theorem bare_keyword (h : Operator.ofKeyword? keyword = some operator) (value : List Char) :
    bare (keyword ++ '.' :: value) = (operator, value) := by
  have unpointed : '.' ∉ keyword := fun point =>
    (Operator.keyword_of_ofKeyword? h).1 (List.mem_map.mpr ⟨'.', point, rfl⟩)
  rw [bare, Text.cut?_append _ unpointed]
  simp only [h]

/-- No keyword is taken for a negation: in small letters both words end at the first point. -/
theorem not_beginsNot_keyword (h : Operator.ofKeyword? keyword = some operator) (value : List Char) :
    ¬ BeginsNot (keyword ++ '.' :: value) := by
  rintro ⟨lead, rest, same, split⟩
  obtain ⟨unpointed, affirmed⟩ := Operator.keyword_of_ofKeyword? h
  rw [IsNot, Text.sameCaseless, beq_iff_eq] at same
  have small : Text.lower keyword ++ '.' :: Text.lower value = "not".toList ++ '.' :: Text.lower rest := by
    have := congrArg Text.lower split
    simp only [Text.lower, List.map_append, List.map_cons] at this same ⊢
    rw [same] at this
    exact this
  have first := Text.cut?_append (Text.lower value) unpointed
  have second := Text.cut?_append (Text.lower rest) (show '.' ∉ "not".toList by decide)
  rw [← small] at second
  exact affirmed (Prod.mk.inj (Option.some.inj (first.symm.trans second))).1

/-- A known operator in any case and a point before a value make the expression of the two. -/
theorem parse_operator {keyword : String} (h : Operator.ofKeyword? keyword.toList = some operator)
    (value : String) : parse (keyword ++ "." ++ value) = ⟨operator, value, false⟩ := by
  have text : (keyword ++ "." ++ value).toList = keyword.toList ++ '.' :: value.toList := by simp
  unfold parse
  rw [text, dropNot?_eq_none_iff.mpr (not_beginsNot_keyword h _), bare_keyword h, String.ofList_toList]

/-- After `not.` comes what is negated. -/
theorem parse_not {negation : String} (h : IsNot negation.toList) (rest : String) :
    parse (negation ++ rest) = ⟨(bare rest.toList).1, String.ofList (bare rest.toList).2, true⟩ := by
  unfold parse
  rw [String.toList_append, dropNot?_eq_some_iff.mpr ⟨_, h, rfl⟩]

/-- Without negation, a text is a value to be equal to if it does not begin with an operator and is not the one
operator that needs no value. -/
theorem bare_eq_self_iff {cs : List Char} : bare cs = (.eq, cs) ↔
    Text.sameCaseless cs "isnotnull".toList = false ∧
      ('.' ∉ cs ∨ ∃ front back, cs = front ++ '.' :: back ∧ '.' ∉ front ∧
        ∀ operator : Operator, ¬ operator.SpelledBy front) := by
  unfold bare
  cases cut : Text.cut? '.' cs with
  | none =>
    have unpointed := Text.cut?_eq_none_iff.mp cut
    cases word : Text.sameCaseless cs "isnotnull".toList with
    | true =>
      refine iff_of_false (fun h => ?_) fun h => nomatch h.1
      cases congrArg Prod.fst h
    | false => exact iff_of_true rfl ⟨rfl, .inl unpointed⟩
  | some parts =>
    obtain ⟨front, back⟩ := parts
    obtain ⟨rfl, unpointed⟩ := Text.cut?_eq_some cut
    simp only
    cases known : Operator.ofKeyword? front with
    | some operator =>
      refine iff_of_false (fun h => ?_) ?_
      · have length : back.length = (front ++ '.' :: back).length := congrArg (·.2.length) h
        rw [List.length_append, List.length_cons] at length
        omega
      · rintro ⟨-, none | ⟨front', back', split, unpointed', unknown⟩⟩
        · exact none (by simp)
        · rw [split, Text.cut?_append _ unpointed'] at cut
          cases cut
          exact unknown operator (Operator.ofKeyword?_eq_some_iff.mp known)
    | none =>
      refine iff_of_true rfl ⟨?_, .inr ⟨front, back, rfl, unpointed, fun operator spelled => ?_⟩⟩
      · rw [Text.sameCaseless, beq_eq_false_iff_ne]
        intro same
        have point : '.' ∈ Text.lower (front ++ '.' :: back) := List.mem_map.mpr ⟨'.', by simp, rfl⟩
        rw [same] at point
        exact absurd point (by decide)
      · rw [Operator.ofKeyword?_eq_some_iff.mpr spelled] at known
        cases known

theorem parse_eq_self_iff {t : String} :
    parse t = ⟨.eq, t, false⟩ ↔ ¬ BeginsNot t.toList ∧ bare t.toList = (.eq, t.toList) := by
  unfold parse
  cases dropped : dropNot? t.toList with
  | some rest =>
    refine iff_of_false (fun h => ?_) fun h => h.1 ?_
    · cases congrArg negated h
    · obtain ⟨lead, same, split⟩ := dropNot?_eq_some_iff.mp dropped
      exact ⟨lead, rest, same, split⟩
  | none =>
    simp only [dropNot?_eq_none_iff.mp dropped, not_false_eq_true, true_and, mk.injEq, and_true,
      Prod.ext_iff]
    exact and_congr_right fun _ => ⟨fun h => String.toList_ofList.symm.trans (congrArg String.toList h),
      fun h => by rw [h, String.ofList_toList]⟩

/-- Every keyword in any case makes an expression of its operator with any value, negated by a `not.` in any
case; and a text means the same as with `eq.` before it exactly if it does not begin with `not.`, is not
`isnotnull`, and has no keyword before its first point. -/
theorem parse_unambiguous :
    (∀ (operator : Operator) (keyword value : String), operator.SpelledBy keyword.toList →
      parse (keyword ++ "." ++ value) = ⟨operator, value, false⟩ ∧
      ∀ negation : String, IsNot negation.toList →
        parse (negation ++ keyword ++ "." ++ value) = ⟨operator, value, true⟩) ∧
    ∀ t : String, parse t = parse ("eq." ++ t) ↔
      ¬ BeginsNot t.toList ∧ Text.sameCaseless t.toList "isnotnull".toList = false ∧
        ('.' ∉ t.toList ∨ ∃ front back, t.toList = front ++ '.' :: back ∧ '.' ∉ front ∧
          ∀ operator : Operator, ¬ operator.SpelledBy front) := by
  constructor
  · intro operator keyword value spelled
    have known := Operator.ofKeyword?_eq_some_iff.mpr spelled
    refine ⟨parse_operator known value, fun negation negates => ?_⟩
    have text : (keyword ++ "." ++ value).toList = keyword.toList ++ '.' :: value.toList := by simp
    have apart : negation ++ keyword ++ "." ++ value = negation ++ (keyword ++ "." ++ value) := by
      simp only [String.append_assoc]
    rw [apart, parse_not negates, text, bare_keyword known, String.ofList_toList]
  · intro t
    have known : Operator.ofKeyword? "eq".toList = some .eq := by decide
    have equal : parse ("eq." ++ t) = ⟨.eq, t, false⟩ := parse_operator known t
    rw [equal, parse_eq_self_iff, bare_eq_self_iff]

/-- A list may hold points and words that look like operators, and an address of mail is a value. -/
theorem parse_unambiguous_notIn :
    parse "nOt.NotIn.(a.b,not.eq.c)" = ⟨.notIn, "(a.b,not.eq.c)", true⟩ ∧
      parse "ann.lee@example.org" = parse "eq.ann.lee@example.org" := by
  have spelled : Operator.notIn.SpelledBy "NotIn".toList :=
    ⟨["notin"], by decide, "notin", by decide, by decide⟩
  have negates : IsNot "nOt.".toList := by
    unfold IsNot
    decide
  refine ⟨(parse_unambiguous.1 .notIn "NotIn" "(a.b,not.eq.c)" spelled).2 "nOt." negates, ?_⟩
  refine (parse_unambiguous.2 "ann.lee@example.org").mpr ⟨?_, by decide, .inr ⟨"ann".toList, _, rfl, by decide, ?_⟩⟩
  · rw [← dropNot?_eq_none_iff]
    decide
  · intro operator spelled
    have unknown : Operator.ofKeyword? "ann".toList = none := by decide
    rw [Operator.ofKeyword?_eq_some_iff.mpr spelled] at unknown
    cases unknown

end FilterExpr
end TableGateway
