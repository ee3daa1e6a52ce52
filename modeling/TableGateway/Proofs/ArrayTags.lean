import TableGateway.Proofs.Denylist
import TableGateway.Proofs.Trimming
import TableGateway.Schema.ColumnType

/-!
# Tags of arrays

Brackets behind a tag make it the tag of an array of what the tag itself stands for, and so do further
brackets for further dimensions. The tags of enum and composite types are the exception: all that is
behind their mark is the name of the type, brackets too. Main statement: `ColumnType.ofTag_brackets`.
-/
namespace TableGateway

/-! ## Small letters -/

namespace Text

theorem lower_append (as bs : List Char) : lower (as ++ bs) = lower as ++ lower bs := List.map_append

theorem lower_reverse (cs : List Char) : lower cs.reverse = (lower cs).reverse := List.map_reverse

theorem lower_lower (cs : List Char) : lower (lower cs) = lower cs := by
  unfold lower
  rw [List.map_map]
  refine List.map_congr_left fun c _ => ?_
  rcases ascii_or_caseless c with ⟨n, hn, rfl⟩ | ⟨-, same, -⟩
  · have all : ∀ n < 128, (Char.ofNat n).toLower.toLower = (Char.ofNat n).toLower := by decide
    exact all n hn
  · rw [Function.comp_apply, same, same]

/-- White space has no case. -/
theorem isBlank_toLower (c : Char) : isBlank c.toLower = isBlank c := by
  rcases ascii_or_caseless c with ⟨n, hn, rfl⟩ | ⟨-, same, -⟩
  · have all : ∀ n < 128, isBlank (Char.ofNat n).toLower = isBlank (Char.ofNat n) := by decide
    exact all n hn
  · rw [same]

theorem trimStart_lower (cs : List Char) : trimStart (lower cs) = lower (trimStart cs) := by
  unfold trimStart lower
  rw [List.dropWhile_map]
  exact congrArg (fun p => List.map Char.toLower (List.dropWhile p cs)) (funext isBlank_toLower)

theorem trimEnd_lower (cs : List Char) : trimEnd (lower cs) = lower (trimEnd cs) := by
  have turned := trimStart_lower cs.reverse
  rw [lower_reverse] at turned
  calc trimEnd (lower cs)
      = (trimStart (lower cs).reverse).reverse := rfl
    _ = (lower (trimStart cs.reverse)).reverse := by rw [turned]
    _ = lower (trimStart cs.reverse).reverse := (lower_reverse _).symm
    _ = lower (trimEnd cs) := rfl

theorem trim_lower (cs : List Char) : trim (lower cs) = lower (trim cs) := by
  rw [trim, trimStart_lower, trimEnd_lower, trim]

/-! ## How texts begin -/

/-- A text without a character begins another one if it begins what is before that character. -/
theorem begins_append_cons {lead as bs : List Char} {c : Char} (h : c ∉ lead) :
    lead <+: as ++ c :: bs ↔ lead <+: as := by
  constructor
  · intro begins
    rcases List.prefix_or_prefix_of_prefix begins (List.prefix_append as (c :: bs)) with short | long
    · exact short
    · obtain ⟨rest, rfl⟩ := long
      cases rest with
      | nil => simp
      | cons d rest =>
        have second := (List.prefix_append_right_inj as).mp begins
        have first : d = c := (List.cons_prefix_cons.mp second).1
        exact absurd (by simp [first]) h
  · intro begins
    exact begins.trans (List.prefix_append as (c :: bs))

/-- White space behind a text has no part in how it begins, as far as that is none. -/
theorem begins_append_blank {lead as ws : List Char} (h : ∀ c ∈ lead, isBlank c = false)
    (blank : Blank ws) : lead <+: as ++ ws ↔ lead <+: as := by
  cases ws with
  | nil => rw [List.append_nil]
  | cons c ws =>
    apply begins_append_cons
    intro hc
    have := h c hc
    rw [blank c List.mem_cons_self] at this
    cases this

end Text

namespace ColumnType

/-! ## Marks -/

def marks : List (List Char) := [enumTag.toList, compositeTag.toList]

/-- The tag begins with a mark. -/
def IsMarked (tag : List Char) : Prop := ∃ lead ∈ marks, lead <+: Text.trim tag

/-- The tag begins with a mark, in some case. -/
def IsCustom (tag : List Char) : Prop := ∃ lead ∈ marks, lead <+: Text.lower (Text.trim tag)

instance (tag : List Char) : Decidable (IsCustom tag) :=
  inferInstanceAs (Decidable (∃ lead ∈ marks, lead <+: Text.lower (Text.trim tag)))

variable {tag lead : List Char}

/-- Marks are small letters, without white space and brackets. -/
theorem mark_plain (h : lead ∈ marks) :
    Text.lower lead = lead ∧ (∀ c ∈ lead, Text.isBlank c = false) ∧ '[' ∉ lead := by
  have all : marks.all (fun lead => Text.lower lead == lead && lead.all (!Text.isBlank ·) &&
      !lead.contains '[') = true := by decide
  have here := List.all_eq_true.mp all lead h
  simpa [and_assoc] using here

theorem IsMarked.isCustom (h : IsMarked tag) : IsCustom tag := by
  obtain ⟨lead, hlead, begins⟩ := h
  refine ⟨lead, hlead, ?_⟩
  have small := begins.map Char.toLower
  rwa [← Text.lower, ← Text.lower, (mark_plain hlead).1] at small

theorem isMarked_lower : IsMarked (Text.lower tag) ↔ IsCustom tag := by
  unfold IsMarked IsCustom
  rw [Text.trim_lower]

/-- A mark that begins the trimmed tag begins the tag without white space before it. -/
theorem begins_trimStart (h : lead ∈ marks) : lead <+: Text.trimStart tag ↔ lead <+: Text.trim tag := by
  obtain ⟨ws, blank, split⟩ := Text.exists_trimEnd (Text.trimStart tag)
  rw [split]
  exact Text.begins_append_blank (mark_plain h).2.1 blank

theorem trim_brackets (tag : List Char) : Text.trim (tag ++ ['[', ']']) = Text.trimStart tag ++ ['[', ']'] :=
  Text.trim_append_cons (by decide) tag [']']

theorem isMarked_brackets : IsMarked (tag ++ ['[', ']']) ↔ IsMarked tag := by
  unfold IsMarked
  rw [trim_brackets]
  refine exists_congr fun lead => and_congr_right fun hlead => ?_
  rw [Text.begins_append_cons (mark_plain hlead).2.2, begins_trimStart hlead]

theorem isCustom_brackets : IsCustom (tag ++ ['[', ']']) ↔ IsCustom tag := by
  have small : Text.lower ['[', ']'] = ['[', ']'] := by decide
  rw [← isMarked_lower, Text.lower_append, small, isMarked_brackets, isMarked_lower]

/-! ## Classification -/

/-- The tag of the element of an array, from a trimmed tag in small letters. -/
def elementTag? (tag : List Char) : Option (List Char) :=
  (Text.dropTail? "[]".toList tag).or (Text.dropLead? ['_'] tag)

theorem length_elementTag? {element : List Char} (h : elementTag? tag = some element) :
    element.length < tag.length := by
  rcases Option.or_eq_some_iff.mp h with behind | ⟨-, before⟩
  · rw [Text.dropTail?_eq_some_iff.mp behind, List.length_append]
    exact Nat.lt_add_of_pos_right (by decide)
  · rw [Text.dropLead?_eq_some_iff.mp before]
    exact Nat.lt_succ_self _

/-- The type of a trimmed tag in small letters, without a mark. -/
def ofPlainTag (fuel : Nat) (tag : List Char) : ColumnType :=
  match elementTag? tag with
  | some element => .array (ofTagWithin fuel element)
  | none =>
    if tag = "array".toList then .array (.scalar .text)
    else if tag = "inet".toList then .network .inet
    else if tag = "cidr".toList then .network .cidr
    else if tag = "macaddr".toList then .network .macaddr
    else if tag = "macaddr8".toList then .network .macaddr8
    else .scalar (.ofTag tag)

def isDefined : ColumnType → Bool
  | enumeration _ | composite _ => true
  | _ => false

theorem ofPlainTag_not_isDefined (fuel : Nat) (tag : List Char) : (ofPlainTag fuel tag).isDefined = false := by
  unfold ofPlainTag
  split
  · rfl
  · split_ifs <;> rfl

/-- A tag stands for a type that is defined by the user if it has a mark, and otherwise for what its
small letters say. -/
theorem ofTagWithin_cases (tag : List Char) :
    (IsMarked tag ∧ ∃ type, isDefined type = true ∧ ∀ fuel, ofTagWithin (fuel + 1) tag = type) ∨
    (¬ IsMarked tag ∧
      ∀ fuel, ofTagWithin (fuel + 1) tag = ofPlainTag fuel (Text.lower (Text.trim tag))) := by
  cases enum : Text.dropLead? enumTag.toList (Text.trim tag) with
  | some name =>
    have begins := Text.dropLead?_eq_some_iff.mp enum
    have marked : IsMarked tag := ⟨_, by simp [marks], name, begins.symm⟩
    refine .inl ⟨marked, .enumeration (String.ofList name), rfl, fun fuel => ?_⟩
    simp only [ofTagWithin, enum]
  | none =>
    cases composite : Text.dropLead? compositeTag.toList (Text.trim tag) with
    | some name =>
      have begins := Text.dropLead?_eq_some_iff.mp composite
      have marked : IsMarked tag := ⟨_, by simp [marks], name, begins.symm⟩
      refine .inl ⟨marked, .composite (String.ofList name), rfl, fun fuel => ?_⟩
      simp only [ofTagWithin, enum, composite]
    | none =>
      refine .inr ⟨?_, fun fuel => by simp only [ofTagWithin, enum, composite]; rfl⟩
      rintro ⟨lead, hlead, name, begins⟩
      have found := Text.dropLead?_eq_some_iff.mpr begins.symm
      simp only [marks, List.mem_cons, List.not_mem_nil, or_false] at hlead
      rcases hlead with rfl | rfl
      · rw [enum] at found
        cases found
      · rw [composite] at found
        cases found

theorem ofTagWithin_isDefined (fuel : Nat) : (ofTagWithin (fuel + 1) tag).isDefined = true ↔ IsMarked tag := by
  rcases ofTagWithin_cases tag with ⟨marked, type, defined, same⟩ | ⟨plain, same⟩
  · rw [same]
    exact iff_of_true defined marked
  · rw [same, ofPlainTag_not_isDefined]
    exact iff_of_false Bool.false_ne_true plain

theorem ofTagWithin_plain (h : ¬ IsMarked tag) (fuel : Nat) :
    ofTagWithin (fuel + 1) tag = ofPlainTag fuel (Text.lower (Text.trim tag)) := by
  rcases ofTagWithin_cases tag with ⟨marked, -⟩ | ⟨-, same⟩
  · exact absurd marked h
  · exact same fuel

/-- More fuel than the tag has characters makes no difference. -/
theorem ofTagWithin_stable : ∀ {m n : Nat} {tag : List Char}, tag.length < m → tag.length < n →
    ofTagWithin m tag = ofTagWithin n tag
  | m + 1, n + 1, tag, hm, hn => by
    rcases ofTagWithin_cases tag with ⟨-, type, -, same⟩ | ⟨-, same⟩
    · rw [same, same]
    · rw [same, same, ofPlainTag, ofPlainTag]
      cases found : elementTag? (Text.lower (Text.trim tag)) with
      | none => rfl
      | some element =>
        have shorter := length_elementTag? found
        have trimmed := Text.length_trim_le tag
        rw [Text.lower, List.length_map] at shorter
        exact congrArg array (ofTagWithin_stable (by omega) (by omega))

theorem ofTag_eq {t : String} {fuel : Nat} (h : t.toList.length < fuel) :
    ofTag t = ofTagWithin fuel t.toList :=
  ofTagWithin_stable (Nat.lt_succ_self t.toList.length) h

/-- Brackets behind a tag without a mark make it the tag of an array. -/
theorem ofTagWithin_brackets (h : ¬ IsMarked tag) (fuel : Nat) :
    ofTagWithin (fuel + 1) (tag ++ ['[', ']']) =
      .array (ofTagWithin fuel (Text.lower (Text.trimStart tag))) := by
  have small : Text.lower ['[', ']'] = ['[', ']'] := by decide
  have behind : Text.dropTail? "[]".toList (Text.lower (Text.trimStart tag) ++ ['[', ']']) =
      some (Text.lower (Text.trimStart tag)) := Text.dropTail?_eq_some_iff.mpr rfl
  rw [ofTagWithin_plain (fun marked => h (isMarked_brackets.mp marked)), trim_brackets,
    Text.lower_append, small, ofPlainTag, elementTag?, behind, Option.some_or]

/-- The element that is read again, in small letters and without white space before it, has a mark if and
only if the tag has one in some case. -/
theorem isMarked_element : IsMarked (Text.lower (Text.trimStart tag)) ↔ IsCustom tag := by
  rw [isMarked_lower]
  unfold IsCustom
  rw [Text.trim_trimStart]

theorem ofTagWithin_element (h : ¬ IsCustom tag) (fuel : Nat) :
    ofTagWithin (fuel + 1) (Text.lower (Text.trimStart tag)) = ofTagWithin (fuel + 1) tag := by
  rw [ofTagWithin_plain (fun marked => h (isMarked_element.mp marked)),
    ofTagWithin_plain (fun marked => h marked.isCustom), Text.trim_lower, Text.lower_lower,
    Text.trim_trimStart]

/-! ## Dimensions -/

theorem ofTag_brackets_iff {t : String} : ofTag (t ++ "[]") = .array (ofTag t) ↔ ¬ IsCustom t.toList := by
  have text : (t ++ "[]").toList = t.toList ++ ['[', ']'] := String.toList_append
  have whole : ofTag (t ++ "[]") = ofTagWithin (t.toList.length + 3) (t.toList ++ ['[', ']']) := by
    rw [← text]
    refine ofTag_eq ?_
    rw [text, List.length_append]
    exact Nat.lt_succ_self _
  have inner : ofTag t = ofTagWithin (t.toList.length + 2) t.toList := ofTag_eq (by omega)
  rw [whole, inner]
  by_cases marked : IsMarked t.toList
  · -- The whole tag is that of a type defined by the user, which is no array.
    refine iff_of_false (fun same => ?_) (fun h => h marked.isCustom)
    have defined := (ofTagWithin_isDefined (t.toList.length + 2)).mpr (isMarked_brackets.mpr marked)
    rw [same] at defined
    cases defined
  · rw [ofTagWithin_brackets marked]
    constructor
    · intro same custom
      have element := ColumnType.array.inj same
      have defined := (ofTagWithin_isDefined (t.toList.length + 1)).mpr (isMarked_element.mpr custom)
      rw [element, ofTagWithin_isDefined] at defined
      exact marked defined
    · intro h
      rw [ofTagWithin_element h]

/-- The tag with brackets for so many dimensions. -/
def bracketed (t : String) : Nat → String
  | 0 => t
  | n + 1 => bracketed t n ++ "[]"

/-- The array type with so many dimensions more. -/
def nested (type : ColumnType) : Nat → ColumnType
  | 0 => type
  | n + 1 => .array (nested type n)

theorem baseElement_nested (type : ColumnType) (n : Nat) : (nested type n).baseElement = type.baseElement := by
  induction n with
  | zero => rfl
  | succ n ih => exact ih

theorem isCustom_bracketed {t : String} (n : Nat) :
    IsCustom (bracketed t n).toList ↔ IsCustom t.toList := by
  induction n with
  | zero => rfl
  | succ n ih =>
    rw [bracketed, String.toList_append, ← ih]
    exact isCustom_brackets

theorem ofTag_bracketed {t : String} (h : ¬ IsCustom t.toList) (n : Nat) :
    ofTag (bracketed t n) = nested (ofTag t) n := by
  induction n with
  | zero => rfl
  | succ n ih =>
    rw [bracketed, nested, ← ih]
    exact ofTag_brackets_iff.mpr ((isCustom_bracketed n).not.mpr h)

/-- Brackets behind a tag make an array of its type if and only if the tag begins with no mark of a type
that is defined by the user. So do further brackets then, and the innermost element stays that of the
tag: its own type, unless it is an array already. -/
theorem ofTag_brackets (t : String) :
    (ofTag (t ++ "[]") = .array (ofTag t) ↔ ¬ IsCustom t.toList) ∧
    (¬ IsCustom t.toList → ∀ n, ofTag (bracketed t n) = nested (ofTag t) n ∧
      (ofTag (bracketed t n)).baseElement = (ofTag t).baseElement ∧
      ((ofTag t).isArray = false → (ofTag (bracketed t n)).baseElement = ofTag t)) := by
  refine ⟨ofTag_brackets_iff, fun h n => ?_⟩
  have same := ofTag_bracketed h n
  have base : (ofTag (bracketed t n)).baseElement = (ofTag t).baseElement := by
    rw [same, baseElement_nested]
  refine ⟨same, base, fun single => ?_⟩
  rw [base]
  cases type : ofTag t with
  | array element =>
    rw [type] at single
    cases single
  | _ => rfl

theorem ofTag_brackets_bits :
    ¬ IsCustom " Bit Varying(16)".toList ∧
    ofTag (bracketed " Bit Varying(16)" 2) = .array (.array (.scalar (.varBit (some 16)))) ∧
    (ofTag (bracketed " Bit Varying(16)" 2)).baseElement = .scalar (.varBit (some 16)) := by
  have plain : ¬ IsCustom " Bit Varying(16)".toList := by decide
  have bits : ofTag " Bit Varying(16)" = .scalar (.varBit (some 16)) := by decide
  obtain ⟨same, -, base⟩ := (ofTag_brackets " Bit Varying(16)").2 plain 2
  rw [bits] at same base
  exact ⟨plain, same, base rfl⟩

/-- The brackets belong to the name of an enum type. -/
theorem ofTag_brackets_mood :
    ofTag "postgres_enum:mood" = .enumeration "mood" ∧
    ofTag ("postgres_enum:mood" ++ "[]") = .enumeration "mood[]" ∧
    ofTag ("postgres_enum:mood" ++ "[]") ≠ .array (ofTag "postgres_enum:mood") :=
  ⟨by decide, by decide, by decide⟩

end ColumnType
end TableGateway
