import TableGateway.Proofs.ComplexityBound
import TableGateway.Proofs.SelectToken

/-!
# The shape of select lists

What is known of the fields that are read from a text, whatever the text: their names are names, and their
relations are not nested too deep. No list of fields is empty, in the text or in one of its relations, except
where the text has nothing but commas for it; such a list selects all columns. Main statement:
`Select.parse_shape`.
-/
namespace TableGateway

open Text (Blank isBlank trim)

namespace Field

variable {fields siblings : List Field}

/-- A list of fields at some level of another one: the list itself, or one within a relation in it. -/
inductive HasLevel : List Field → List Field → Prop where
  | top (fields : List Field) : HasLevel fields fields
  | within {fields siblings : List Field} {f : Field} (h : f ∈ fields) (relation : f.isRelation = true)
    (level : HasLevel f.children siblings) : HasLevel fields siblings

/-- The name of the field is a name, and so is its label, if it has one. -/
structure WellNamed (f : Field) : Prop where
  name : Select.IsName f.name.toList
  label : ∀ label ∈ f.label?, Select.IsName label.toList

/-- A list without relations has one level. -/
theorem HasLevel.eq_of_plain (level : HasLevel fields siblings) (plain : ∀ f ∈ fields, f.isRelation = false) :
    siblings = fields := by
  cases level with
  | top => rfl
  | within h relation =>
    rw [plain _ h] at relation
    cases relation

end Field

namespace Select

variable {fuel : Nat} {cs front inner outer part : List Char} {f : Field} {fields : List Field}

/-! ## Texts for empty lists -/

/-- The text has commas and white space only, and at least one comma. -/
structure Bare (cs : List Char) : Prop where
  comma : ',' ∈ cs
  only : ∀ c ∈ cs, c = ',' ∨ isBlank c = true

/-- The text, or a text in parentheses within it, is bare. -/
def Hollow (cs : List Char) : Prop :=
  Bare cs ∨ ∃ front inner back, cs = front ++ '(' :: inner ++ ')' :: back ∧ Bare inner

theorem Hollow.enclosed (h : Hollow inner) (front back : List Char) :
    Hollow (front ++ '(' :: inner ++ ')' :: back) := by
  rcases h with bare | ⟨before, inside, behind, rfl, bare⟩
  · exact .inr ⟨front, inner, back, rfl, bare⟩
  · exact .inr ⟨front ++ '(' :: before, inside, behind ++ ')' :: back, by simp, bare⟩

theorem not_hollow_blank (blank : Blank cs) : ¬ Hollow cs := by
  rintro (bare | ⟨front, inner, back, rfl, -⟩)
  · exact absurd (blank ',' bare.comma) (by decide)
  · exact absurd (blank '(' (by simp)) (by decide)

/-- A bare text in parentheses within a text in parentheses makes that hollow. -/
theorem hollow_of_enclosed {before behind : List Char} (bare : Bare inner) (balanced : Balanced 0 outer)
    (closed : '(' ∉ front)
    (same : before ++ '(' :: inner ++ ')' :: behind = front ++ '(' :: outer ++ [')']) : Hollow outer := by
  have flat := balanced_flat bare.only
  -- The last parenthesis is the one behind the bare text, or comes later.
  rcases List.eq_nil_or_concat behind with rfl | ⟨behind, last, rfl⟩
  · have cut : before ++ '(' :: (inner ++ [')']) = front ++ '(' :: (outer ++ [')']) := by simpa using same
    rcases enclosed_append_cases closed cut with all | ⟨gap, inside⟩
    · exact .inl (List.append_cancel_right all ▸ bare)
    · have longer : outer ++ [')'] = (gap ++ '(' :: inner) ++ [')'] := by simpa using inside
      rw [List.append_cancel_right longer] at balanced
      exact absurd balanced (not_balanced_opening flat gap)
  · have cut : before ++ '(' :: (inner ++ ')' :: behind ++ [last]) = front ++ '(' :: (outer ++ [')']) := by
      simpa using same
    rcases enclosed_append_cases closed cut with all | ⟨gap, inside⟩
    · rw [← (List.append_inj' all rfl).1] at balanced
      exact absurd balanced (not_balanced_closing flat behind)
    · have longer : outer ++ [')'] = (gap ++ '(' :: inner ++ ')' :: behind) ++ [last] := by simpa using inside
      exact .inr ⟨gap, inner, behind, (List.append_inj' longer rfl).1, bare⟩

/-! ## Names -/

theorem head_isName {name : List Char} {label : Option (List Char)} (plain : ∀ c ∈ front, IsPlain c)
    (parted : head front = (label, name)) (named : name ≠ []) (labelled : ∀ text ∈ label, text ≠ []) :
    IsName name ∧ ∀ text ∈ label, IsName text := by
  have kept : ∀ c ∈ trim front, IsPlain c := fun c hc => plain c (Text.mem_of_mem_trim hc)
  rw [head] at parted
  split at parted
  · rename_i first second cut
    obtain ⟨rfl, rfl⟩ := Prod.mk.inj parted
    rw [(Text.cut?_eq_some cut).1] at kept
    refine ⟨⟨named, Text.trim_trim second, fun c hc => kept c ?_⟩, ?_⟩
    · have := Text.mem_of_mem_trim hc
      simp [this]
    · rintro _ ⟨⟩
      refine ⟨labelled _ rfl, Text.trim_trim first, fun c hc => kept c ?_⟩
      exact List.mem_append_left _ (Text.mem_of_mem_trim hc)
  · obtain ⟨rfl, rfl⟩ := Prod.mk.inj parted
    exact ⟨⟨named, Text.trim_trim front, kept⟩, by simp⟩

/-- What a field has that is read from a whole text. -/
theorem token_wellNamed (form : TokenForm fuel part f) (whole : isWhole 0 part = true) (some : part ≠ [])
    (trimmed : trim part = part) : f.WellNamed := by
  cases form with
  | wildcard => exact ⟨by decide, by simp [Field.label?]⟩
  | column closed other =>
    refine ⟨?_, by simp [Field.label?]⟩
    rw [Field.name, String.toList_ofList]
    exact ⟨some, trimmed, plain_of_isWhole whole closed⟩
  | @relation _ front inner name label children closed parted named labelled within =>
    rw [List.append_assoc] at whole
    obtain ⟨hname, hlabel⟩ := head_isName (plain_front whole closed) parted named labelled
    refine ⟨?_, ?_⟩
    · rwa [Field.name, String.toList_ofList]
    · rw [Field.label?]
      intro text htext
      obtain ⟨cs, hcs, rfl⟩ := Option.map_eq_some_iff.mp htext
      rw [String.toList_ofList]
      exact hlabel cs hcs

/-! ## What is read -/

/-- The fields that are read from a text. -/
structure Shape (cs : List Char) (fields : List Field) : Prop where
  balanced : Balanced 0 cs
  low : height 0 cs ≤ maxNesting
  depth : Field.depthIn fields ≤ height 0 cs
  named : ∀ siblings, Field.HasLevel fields siblings → ∀ f ∈ siblings, f.WellNamed
  hollow : Field.HasLevel fields [] ↔ Hollow cs

/-- All columns, for a blank text. -/
theorem shape_blank (blank : Blank cs) : Shape cs [.wildcard] := by
  have alone : ∀ siblings, Field.HasLevel [.wildcard] siblings → siblings = [.wildcard] := fun siblings level =>
    level.eq_of_plain (by simp [Field.isRelation])
  refine ⟨balanced_flat fun c hc => .inr (blank c hc), ?_, Nat.zero_le _, ?_, ?_⟩
  · rw [(plain_whole (plain_of_blank blank)).2]
    exact Nat.zero_le _
  · rintro siblings level f hf
    rw [alone siblings level, List.mem_singleton] at hf
    rw [hf]
    exact ⟨by decide, by simp [Field.label?]⟩
  · refine ⟨fun level => ?_, fun hollow => absurd hollow (not_hollow_blank blank)⟩
    exact absurd (alone [] level).symm (List.cons_ne_nil _ _)

theorem isRelation_iff (form : TokenForm fuel part f) : f.isRelation = true ↔ '(' ∈ part := by
  cases form with
  | wildcard => simp [Field.isRelation]
  | column closed => simp [Field.isRelation, closed]
  | relation => simp [Field.isRelation]

/-- A relation has parentheses, and in them the text of the fields within. -/
theorem token_within (form : TokenForm fuel part f) (relation : f.isRelation = true) :
    ∃ front inner rest, part = front ++ '(' :: inner ++ [')'] ∧ '(' ∉ front ∧ rest < fuel ∧
      list rest inner = .ok f.children ∧ f.depth = Field.depthIn f.children + 1 := by
  cases form with
  | wildcard => cases relation
  | column => cases relation
  | relation closed parted named labelled within =>
    exact ⟨_, _, _, rfl, closed, Nat.lt_succ_self _, within, rfl⟩

section

variable (forms : List.Forall₂ (TokenForm fuel) (splitTopLevel cs) fields)
  (known : ∀ {rest : Nat} {inner : List Char} {children : List Field}, rest < fuel →
    list rest inner = .ok children → Shape inner children)

include forms known

/-- Each level of relations has its parentheses. -/
theorem depthIn_le_height (balanced : Balanced 0 cs) : Field.depthIn fields ≤ height 0 cs := by
  refine Field.depthIn_le_iff.mpr fun f hf => ?_
  obtain ⟨part, hpart, form⟩ := exists_of_forall₂ forms f hf
  obtain ⟨whole, high, -, -⟩ := isWhole_of_mem_splitTopLevel balanced hpart
  refine Nat.le_trans ?_ high
  by_cases relation : f.isRelation = true
  · obtain ⟨front, inner, rest, rfl, closed, less, within, deep⟩ := token_within form relation
    have shape := known less within
    rw [List.append_assoc] at whole
    rw [deep, (isWhole_enclosed (plain_front whole closed) shape.balanced).2]
    exact Nat.succ_le_succ shape.depth
  · cases f with
    | relation => exact absurd rfl relation
    | wildcard => exact Nat.zero_le _
    | column => exact Nat.zero_le _

theorem level_wellNamed (balanced : Balanced 0 cs) {siblings : List Field} (level : Field.HasLevel fields siblings) :
    ∀ f ∈ siblings, f.WellNamed := by
  cases level with
  | top =>
    intro f hf
    obtain ⟨part, hpart, form⟩ := exists_of_forall₂ forms f hf
    obtain ⟨whole, -, some, trimmed⟩ := isWhole_of_mem_splitTopLevel balanced hpart
    exact token_wellNamed form whole some trimmed
  | within hf relation level =>
    obtain ⟨part, -, form⟩ := exists_of_forall₂ forms _ hf
    obtain ⟨front, inner, rest, -, -, less, within, -⟩ := token_within form relation
    exact (known less within).named _ level

/-- An empty list has its commas, in the text or in the parentheses of the relation in which it is. -/
theorem level_nil_iff (shown : ¬ Blank cs) : Field.HasLevel fields [] ↔ Hollow cs := by
  have empty : fields = [] ↔ splitTopLevel cs = [] := by
    rw [← List.length_eq_zero_iff, ← List.length_eq_zero_iff, forms.length_eq]
  constructor
  · intro level
    cases level with
    | top =>
      have flat := splitTopLevel_eq_nil_iff.mp (empty.mp rfl)
      obtain ⟨c, hc, visible⟩ : ∃ c ∈ cs, ¬ isBlank c = true := by simpa [Blank] using shown
      exact .inl ⟨(flat c hc).resolve_right visible ▸ hc, flat⟩
    | within hf relation level =>
      obtain ⟨part, hpart, form⟩ := exists_of_forall₂ forms _ hf
      obtain ⟨front, inner, rest, rfl, -, less, within, -⟩ := token_within form relation
      obtain ⟨before, behind, split⟩ := infix_of_mem_splitTopLevel hpart
      have hollow := ((known less within).hollow.mp level).enclosed (before ++ front) behind
      rw [← split]
      simpa using hollow
  · rintro (bare | ⟨front, inner, back, rfl, bare⟩)
    · rw [empty.mpr (splitTopLevel_eq_nil_iff.mpr bare.only)]
      exact .top []
    · -- The bare text is in one part, which is a relation since it has parentheses.
      obtain ⟨part, hpart, before, behind, place⟩ := exists_part_enclosed (balanced_flat bare.only) front back
      obtain ⟨f, hf, form⟩ := exists_of_forall₂ forms.flip part hpart
      have relation : f.isRelation = true := (isRelation_iff form).mpr (place ▸ by simp)
      obtain ⟨first, outer, rest, same, closed, less, within, -⟩ := token_within form relation
      have shape := known less within
      exact .within hf relation
        (shape.hollow.mpr (hollow_of_enclosed bare shape.balanced closed (place.symm.trans same)))

end

theorem list_shape {fuel : Nat} {cs : List Char} {fields : List Field} (h : list fuel cs = .ok fields) :
    Shape cs fields := by
  -- The texts of relations are read with less fuel, by two for each level.
  induction fuel using Nat.strongRecOn generalizing cs fields with
  | ind fuel ih =>
    cases fuel with
    | zero =>
      rw [list] at h
      cases h
    | succ fuel =>
      have known : ∀ {rest : Nat} {inner : List Char} {children : List Field}, rest < fuel →
          list rest inner = .ok children → Shape inner children := fun less => ih _ (Nat.lt_succ_of_lt less)
      rcases list_eq_ok_iff.mp h with ⟨blank, rfl⟩ | ⟨shown, ⟨balanced, low⟩, forms⟩
      · exact shape_blank blank
      · exact ⟨balanced, low, depthIn_le_height forms known balanced,
          fun _ => level_wellNamed forms known balanced, level_nil_iff forms known shown⟩

/-- Of the fields that are read from a text, at whatever level, the names and labels hold something but no
parentheses and commas, and have no white space around them; the relations are not nested too deep; and there
is an empty list of fields exactly if the text, or one in parentheses in it, has nothing but commas and white
space, with a comma at least. -/
theorem parse_shape {text : String} (h : parse text = .ok fields) :
    (∀ siblings, Field.HasLevel fields siblings → ∀ f ∈ siblings, f.WellNamed) ∧
    Field.depthIn fields ≤ maxNesting ∧
    (Field.HasLevel fields [] ↔ Hollow text.toList) := by
  have shape := list_shape h
  exact ⟨shape.named, Nat.le_trans shape.depth shape.low, shape.hollow⟩

/-- An empty list, alone and within a relation. -/
theorem commas_only : parse "," = .ok [] ∧ parse "authors(,)" = .ok [.relation "authors" none [] []] :=
  ⟨by cbv, by cbv⟩

/-- A relation with a field and one without. -/
def uneven : List Field :=
  [.relation "authors" (some "writer") [.column "name"] [], .relation "posts" none [] []]

theorem parse_shape_uneven :
    parse " writer : authors(name), posts(,)" = .ok uneven ∧
    (∀ siblings, Field.HasLevel uneven siblings → ∀ f ∈ siblings, f.WellNamed) ∧
    Field.depthIn uneven ≤ maxNesting ∧
    (Field.HasLevel uneven [] ↔ Hollow " writer : authors(name), posts(,)".toList) := by
  have read : parse " writer : authors(name), posts(,)" = .ok uneven := by cbv
  exact ⟨read, parse_shape read⟩

end Select
end TableGateway
