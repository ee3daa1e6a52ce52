import TableGateway.Proofs.ComplexityBound
import TableGateway.Proofs.SelectToken

/-!
# Select lists read back

A list of fields has its tokens: stars, names, labels with a colon behind, parentheses and commas. From
whatever text in which they follow each other, with any white space around them, the list is read, unless its
relations are nested too deep; then the text is refused for that. Main statement: `Select.parse_spaced`.
-/
namespace TableGateway

open Text (Blank trim trimStart trimEnd isBlank)

/-! ## Tokens with white space around them -/

namespace Text

/-- The tokens follow each other in the text, with any white space before, between and behind them. -/
inductive Spaced : List (List Char) → List Char → Prop where
  | nil {ws : List Char} (h : Blank ws) : Spaced [] ws
  | cons {ws token cs : List Char} {tokens : List (List Char)} (h : Blank ws) (rest : Spaced tokens cs) :
    Spaced (token :: tokens) (ws ++ token ++ cs)

variable {tokens others : List (List Char)} {token cs ws : List Char}

/-- Tokens can be put together with the same white space before each of them. -/
theorem spaced_flatMap (blank : Blank ws) : ∀ tokens : List (List Char), Spaced tokens (tokens.flatMap (ws ++ ·))
  | [] => .nil .nil
  | _ :: tokens => .cons blank (spaced_flatMap blank tokens)

/-- A text is cut at a token of one character. -/
theorem Spaced.cut {c : Char} (h : Spaced (tokens ++ [c] :: others) cs) :
    ∃ front back, cs = front ++ c :: back ∧ Spaced tokens front ∧ Spaced others back := by
  induction tokens generalizing cs with
  | nil =>
    cases h with
    | @cons ws _ back _ blank rest => exact ⟨ws, back, by simp, .nil blank, rest⟩
  | cons token tokens ih =>
    cases h with
    | @cons ws _ rest _ blank rest =>
      obtain ⟨front, back, rfl, first, second⟩ := ih rest
      exact ⟨ws ++ token ++ front, back, by simp, .cons blank first, second⟩

theorem Spaced.trim_single (h : Spaced [token] cs) : trim cs = trim token := by
  cases h with
  | cons before rest =>
    cases rest with
    | nil behind => rw [List.append_assoc, trim_blank_append before, trim_append_blank behind]

/-- What holds of the characters of the tokens and of white space holds of those of the text. -/
theorem Spaced.forall {P : Char → Prop} (h : Spaced tokens cs) (inside : ∀ token ∈ tokens, ∀ c ∈ token, P c)
    (around : ∀ c, isBlank c = true → P c) : ∀ c ∈ cs, P c := by
  induction h with
  | nil blank => exact fun c hc => around c (blank c hc)
  | cons blank _ ih =>
    rw [List.forall_mem_cons] at inside
    intro c hc
    rcases List.mem_append.mp hc with hc | hc
    · rcases List.mem_append.mp hc with hc | hc
      · exact around c (blank c hc)
      · exact inside.1 c hc
    · exact ih inside.2 c hc

end Text

open Text (Spaced)

/-! ## Fields and their tokens -/

namespace Field

def headTokens (name : String) : Option String → List (List Char)
  | none => [name.toList]
  | some label => [label.toList, [':'], name.toList]

mutual

def tokens : Field → List (List Char)
  | wildcard => [['*']]
  | column name => [name.toList]
  | relation name label children _ => headTokens name label ++ ['('] :: (tokensIn children ++ [[')']])

/-- The tokens of a list of fields, with commas between them. -/
def tokensIn : List Field → List (List Char)
  | [] => []
  | [f] => tokens f
  | f :: next :: rest => tokens f ++ [','] :: tokensIn (next :: rest)

end

/-- The field has a text from which it can be read: its names have no white space around them and hold no
commas and parentheses, those of relations no colons, no column has the name of all columns, and each relation
has fields and no conditions. -/
inductive Printable : Field → Prop where
  | wildcard : Printable wildcard
  | column {name : String} (h : Select.IsName name.toList) (other : name ≠ "*") : Printable (column name)
  | relation {name : String} {label : Option String} {children : List Field}
    (h : Select.IsName name.toList) (colon : ':' ∉ name.toList)
    (hlabel : ∀ text ∈ label, Select.IsName text.toList ∧ ':' ∉ text.toList)
    (some : children ≠ []) (hchildren : ∀ f ∈ children, Printable f) :
    Printable (relation name label children [])

end Field

namespace Select

variable {cs front : List Char} {f : Field} {fields : List Field}

/-! ## The name and the label of a relation -/

theorem head_trimStart (cs : List Char) : head (trimStart cs) = head cs := by
  rw [head, Text.trim_trimStart, head]

theorem head_plain (h : ':' ∉ cs) : head cs = (none, trim cs) := by
  rw [head, Text.cut?_eq_none_iff.mpr (mt Text.mem_of_mem_trim h)]

theorem head_colon {label name : List Char} (h : ':' ∉ label) :
    head (label ++ ':' :: name) = (some (trim label), trim name) := by
  have closed : ':' ∉ trimStart label := fun colon => h ((List.dropWhile_suffix isBlank).subset colon)
  rw [head, Text.trim_append_cons (by decide), Text.cut?_append _ closed]
  show (some (trim (trimStart label)), trim (trimEnd name)) = _
  rw [Text.trim_trimStart, Text.trim_trimEnd]

theorem not_colon {cs : List Char} (h : Spaced [front] cs) (colon : ':' ∉ front) : ':' ∉ cs := by
  intro hc
  refine h.forall (P := (· ≠ ':')) (fun token htoken c hc same => ?_) (fun c blank same => ?_) ':' hc rfl
  · rw [List.mem_singleton] at htoken
    exact colon (htoken ▸ same ▸ hc)
  · exact absurd (same ▸ blank) (by decide)

theorem head_spaced {name : String} {label : Option String} (h : IsName name.toList)
    (colon : ':' ∉ name.toList) (hlabel : ∀ text ∈ label, IsName text.toList ∧ ':' ∉ text.toList)
    (spaced : Spaced (Field.headTokens name label) front) :
    head front = (label.map String.toList, name.toList) := by
  cases label with
  | none =>
    rw [head_plain (not_colon spaced colon), spaced.trim_single, h.trimmed]
    rfl
  | some label =>
    obtain ⟨named, closed⟩ := hlabel label rfl
    have separated : Spaced ([label.toList] ++ [':'] :: [name.toList]) front := spaced
    obtain ⟨first, second, rfl, front, back⟩ := separated.cut
    rw [head_colon (not_colon front closed), front.trim_single, back.trim_single, h.trimmed, named.trimmed]
    rfl

/-- The tokens of a name and its label are plain. -/
theorem head_isPlain {name : String} {label : Option String} (h : IsName name.toList)
    (hlabel : ∀ text ∈ label, IsName text.toList ∧ ':' ∉ text.toList)
    (spaced : Spaced (Field.headTokens name label) front) : ∀ c ∈ front, IsPlain c := by
  refine spaced.forall (fun token htoken => ?_) fun c => isPlain_of_isBlank
  cases label with
  | none => exact List.mem_singleton.mp htoken ▸ h.plain
  | some label =>
    simp only [Field.headTokens, List.mem_cons, List.not_mem_nil, or_false] at htoken
    rcases htoken with rfl | rfl | rfl
    · exact (hlabel label rfl).1.plain
    · exact fun c hc => List.mem_singleton.mp hc ▸ by decide
    · exact h.plain

/-! ## The texts of the fields in a list -/

/-- The commas between fields cut the text into the texts of the fields. -/
theorem parts_spaced : ∀ {fields : List Field} {cs : List Char}, fields ≠ [] →
    Spaced (Field.tokensIn fields) cs →
    ∃ parts, cs = [','].intercalate parts ∧ List.Forall₂ (fun f part => Spaced f.tokens part) fields parts
  | [], _, any, _ => absurd rfl any
  | [f], cs, _, spaced => ⟨[cs], by simp, .cons spaced .nil⟩
  | f :: next :: rest, cs, _, spaced => by
    obtain ⟨front, back, rfl, first, others⟩ := spaced.cut
    obtain ⟨parts, rfl, texts⟩ := parts_spaced (List.cons_ne_nil next rest) others
    refine ⟨front :: parts, ?_, .cons first texts⟩
    cases texts with
    | cons => simp [List.intercalate_cons_cons]

/-- Texts of fields that are as high as these are deep make a text that is as high as the list is deep. -/
theorem balanced_intercalate {fields : List Field} {parts : List (List Char)}
    (h : List.Forall₂ (fun f part => isWhole 0 part = true ∧ height 0 part = f.depth) fields parts) :
    Balanced 0 ([','].intercalate parts) ∧ height 0 ([','].intercalate parts) = Field.depthIn fields := by
  induction h with
  | nil => exact ⟨rfl, rfl⟩
  | @cons f part fields parts first rest ih =>
    obtain ⟨whole, high⟩ := first
    cases rest with
    | nil =>
      rw [List.intercalate_singleton, high]
      exact ⟨balanced_of_isWhole whole, (Nat.max_zero _).symm⟩
    | cons =>
      rw [List.intercalate_cons_cons, List.append_assoc, List.singleton_append]
      obtain ⟨balanced, deep⟩ := balanced_comma whole _
      exact ⟨balanced.mpr ih.1, deep.trans (by rw [high, ih.2]; rfl)⟩

theorem relation_spaced {name : String} {label : Option String} {children : List Field}
    {filters : Entries String} (spaced : Spaced (Field.relation name label children filters).tokens cs) :
    ∃ front inner ws, cs = front ++ '(' :: inner ++ [')'] ++ ws ∧ Blank ws ∧
      Spaced (Field.headTokens name label) front ∧ Spaced (Field.tokensIn children) inner := by
  rw [Field.tokens] at spaced
  obtain ⟨front, back, rfl, named, rest⟩ := spaced.cut
  obtain ⟨inner, ws, rfl, within, behind⟩ := rest.cut
  cases behind with
  | nil blank => exact ⟨front, inner, ws, by simp, blank, named, within⟩

/-- The text of a field is no white space. -/
theorem not_blank_spaced (h : f.Printable) (spaced : Spaced f.tokens cs) : ¬ Blank cs := by
  intro blank
  cases h with
  | wildcard =>
    have star := Text.Spaced.trim_single spaced
    rw [Text.trim_blank blank] at star
    exact absurd star (by decide)
  | column h =>
    have shown := Text.Spaced.trim_single spaced
    rw [Text.trim_blank blank, h.trimmed] at shown
    exact h.some shown.symm
  | relation =>
    obtain ⟨front, inner, ws, rfl, -⟩ := relation_spaced spaced
    exact absurd (blank '(' (by simp)) (by decide)

/-- The text of a list is as high as the list is deep, if this is so for its fields. -/
theorem balanced_spaced (some : fields ≠ []) (spaced : Spaced (Field.tokensIn fields) cs)
    (h : ∀ f ∈ fields, ∀ part, Spaced f.tokens part → isWhole 0 part = true ∧ height 0 part = f.depth) :
    Balanced 0 cs ∧ height 0 cs = Field.depthIn fields := by
  obtain ⟨parts, rfl, texts⟩ := parts_spaced some spaced
  refine balanced_intercalate (((List.forall₂_and_left _ _).mpr ⟨h, texts⟩).imp fun f part found => ?_)
  exact found.1 part found.2

/-- The commas in the text of a field are in parentheses, which are nested as its relations are. -/
theorem isWhole_spaced (h : f.Printable) : ∀ cs, Spaced f.tokens cs →
    isWhole 0 cs = true ∧ height 0 cs = f.depth := by
  induction h with
  | wildcard =>
    intro cs spaced
    refine plain_whole (spaced.forall (fun token htoken c hc => ?_) fun c => isPlain_of_isBlank)
    rw [List.mem_singleton.mp htoken, List.mem_singleton] at hc
    exact hc ▸ by decide
  | column h =>
    intro cs spaced
    refine plain_whole (spaced.forall (fun token htoken => ?_) fun c => isPlain_of_isBlank)
    exact List.mem_singleton.mp htoken ▸ h.plain
  | @relation name label children h colon hlabel some hchildren ih =>
    intro cs spaced
    obtain ⟨front, inner, ws, rfl, blank, named, within⟩ := relation_spaced spaced
    obtain ⟨balanced, deep⟩ := balanced_spaced some within ih
    obtain ⟨whole, high⟩ := isWhole_enclosed (head_isPlain h hlabel named) balanced
    obtain ⟨same, level⟩ := append_plain (plain_of_blank blank) 0 (front ++ '(' :: inner ++ [')'])
    rw [same, level, whole, high, deep]
    exact ⟨rfl, rfl⟩

/-! ## Reading -/

theorem not_blank_list (some : fields ≠ []) (h : ∀ f ∈ fields, f.Printable)
    (spaced : Spaced (Field.tokensIn fields) cs) : ¬ Blank cs := by
  obtain ⟨parts, rfl, texts⟩ := parts_spaced some spaced
  cases texts with
  | nil => exact absurd rfl some
  | @cons f part fields parts first rest =>
    refine fun blank => not_blank_spaced (h f List.mem_cons_self) first fun c hc => blank c ?_
    cases parts with
    | nil => simpa using hc
    | cons next others => simp [List.intercalate_cons_cons, hc]

/-- A list whose fields are read is read, if it is not nested too deep. -/
theorem list_spaced {fuel : Nat} (some : fields ≠ []) (h : ∀ f ∈ fields, f.Printable)
    (spaced : Spaced (Field.tokensIn fields) cs) (low : Field.depthIn fields ≤ maxNesting)
    (read : ∀ f ∈ fields, ∀ part, Spaced f.tokens part → TokenForm fuel (trim part) f) :
    list (fuel + 1) cs = .ok fields := by
  have whole : ∀ f ∈ fields, ∀ part, Spaced f.tokens part →
      isWhole 0 part = true ∧ height 0 part = f.depth := fun f hf => isWhole_spaced (h f hf)
  obtain ⟨balanced, deep⟩ := balanced_spaced some spaced whole
  refine list_eq_ok_iff.mpr (.inr ⟨not_blank_list some h spaced, ⟨balanced, deep ▸ low⟩, ?_⟩)
  obtain ⟨parts, rfl, texts⟩ := parts_spaced some spaced
  have field : ∀ part ∈ parts, ∃ f ∈ fields, Spaced f.tokens part := exists_of_forall₂ texts
  have any : parts ≠ [] := by
    rintro rfl
    exact some (List.forall₂_nil_right_iff.mp texts)
  have separate : splitTopLevel ([','].intercalate parts) = parts.map trim := by
    rw [splitTopLevel, splitRaw_intercalate any fun part hpart => ?_, List.filter_eq_self]
    · rw [List.forall_mem_map]
      intro part hpart
      obtain ⟨f, hf, spaced⟩ := field part hpart
      simpa using mt Text.trim_eq_nil_iff.mp (not_blank_spaced (h f hf) spaced)
    · obtain ⟨f, hf, spaced⟩ := field part hpart
      exact (whole f hf part spaced).1
  rw [separate, List.forall₂_map_left_iff]
  refine (((List.forall₂_and_left _ _).mpr ⟨read, texts⟩).imp fun f part found => ?_).flip
  exact found.1 part found.2

/-- The text of a field is read as the field. -/
theorem tokenForm_spaced (h : f.Printable) : ∀ {fuel : Nat}, 2 * f.depth ≤ fuel → f.depth ≤ maxNesting →
    ∀ cs, Spaced f.tokens cs → TokenForm fuel (trim cs) f := by
  induction h with
  | wildcard =>
    intro fuel _ _ cs spaced
    rw [Text.Spaced.trim_single spaced]
    exact .wildcard
  | @column name h other =>
    intro fuel _ _ cs spaced
    rw [Text.Spaced.trim_single spaced, h.trimmed]
    have form : TokenForm fuel name.toList (.column (String.ofList name.toList)) :=
      .column (fun opening => (h.plain _ opening).1 rfl) fun star => other (String.toList_inj.mp star)
    rwa [String.ofList_toList] at form
  | @relation name label children h colon hlabel some hchildren ih =>
    intro fuel enough low cs spaced
    rw [Field.depth] at enough low
    -- One is used up for the relation and one for the list within.
    obtain ⟨fuel, rfl⟩ : ∃ rest, fuel = rest + 1 + 1 := ⟨fuel - 2, by omega⟩
    obtain ⟨front, inner, ws, rfl, blank, named, within⟩ := relation_spaced spaced
    have shallow : ∀ f ∈ children, f.depth ≤ Field.depthIn children := Field.depthIn_le_iff.mp (Nat.le_refl _)
    have inside : list (fuel + 1) inner = .ok children := by
      refine list_spaced some hchildren within (by omega) fun f hf => ih f hf ?_ ?_
      · have := shallow f hf
        omega
      · have := shallow f hf
        omega
    have closed : '(' ∉ trimStart front := fun opening =>
      (head_isPlain h hlabel named _ ((List.dropWhile_suffix isBlank).subset opening)).1 rfl
    have parted : head (trimStart front) = (label.map String.toList, name.toList) :=
      (head_trimStart front).trans (head_spaced h colon hlabel named)
    have labelled : ∀ text ∈ label.map String.toList, text ≠ [] := by
      simpa using fun text htext => (hlabel text htext).1.some
    have form := TokenForm.relation closed parted h.some labelled inside
    have behind : trimEnd (inner ++ [')']) = inner ++ [')'] := Text.trimEnd_append_cons (by decide) inner []
    rw [Text.trim_append_blank blank, List.append_assoc, List.cons_append, Text.trim_append_cons (by decide),
      behind]
    simpa [Function.comp_def] using form

/-- From a text in which the tokens of some fields follow each other with any white space around them, the
fields are read, unless their relations are nested too deep. Then the text is refused for that. -/
theorem parse_spaced {text : String} (some : fields ≠ []) (h : ∀ f ∈ fields, f.Printable)
    (spaced : Spaced (Field.tokensIn fields) text.toList) :
    (Field.depthIn fields ≤ maxNesting → parse text = .ok fields) ∧
    (maxNesting < Field.depthIn fields → parse text =
      .error (.tooComplex ("select nests " ++ toString (Field.depthIn fields) ++ " levels, maximum is " ++
        toString maxNesting))) := by
  have notblank := not_blank_list some h spaced
  obtain ⟨balanced, deep⟩ := balanced_spaced some spaced fun f hf => isWhole_spaced (h f hf)
  have short := height_le_length 0 text.toList
  rw [deep, String.length_toList] at short
  have shallow : ∀ f ∈ fields, f.depth ≤ Field.depthIn fields := Field.depthIn_le_iff.mp (Nat.le_refl _)
  refine ⟨fun low => ?_, fun high => ?_⟩
  · refine list_spaced some h spaced low fun f hf => tokenForm_spaced (h f hf) ?_ ?_
    · have := shallow f hf
      omega
    · exact Nat.le_trans (shallow f hf) low
  · have refused := checkBalanced_of_balanced balanced
    rw [deep, if_pos high] at refused
    rw [parse, list, if_neg (mt List.all_eq_true.mp notblank), refused]

/-- A relation in a relation, one of them under another name. -/
def writers : List Field :=
  [.wildcard, .relation "authors" (some "writer") [.column "name", .relation "posts" none [.wildcard] []] []]

theorem parse_spaced_writers :
    writers ≠ [] ∧ (∀ f ∈ writers, f.Printable) ∧
    Spaced (Field.tokensIn writers) " * , writer : authors ( name , posts ( * ) )".toList ∧
    (Field.depthIn writers ≤ maxNesting →
      parse " * , writer : authors ( name , posts ( * ) )" = .ok writers) ∧
    (maxNesting < Field.depthIn writers → parse " * , writer : authors ( name , posts ( * ) )" =
      .error (.tooComplex ("select nests " ++ toString (Field.depthIn writers) ++ " levels, maximum is " ++
        toString maxNesting))) := by
  have some : writers ≠ [] := List.cons_ne_nil _ _
  have posts : (Field.relation "posts" none [.wildcard] []).Printable :=
    .relation (by decide) (by decide) nofun (List.cons_ne_nil _ _)
      (by simpa using .wildcard)
  have authors : (Field.relation "authors" (.some "writer")
      [.column "name", .relation "posts" none [.wildcard] []] []).Printable := by
    refine .relation (by decide) (by decide) ?_ (List.cons_ne_nil _ _) ?_
    · rintro _ ⟨⟩
      exact ⟨by decide, by decide⟩
    · simpa using ⟨.column (by decide) (by decide), posts⟩
  have printable : ∀ f ∈ writers, f.Printable := by
    simpa [writers] using ⟨.wildcard, authors⟩
  have blank : Blank [' '] := by
    simpa [Blank] using (by decide : isBlank ' ' = true)
  have spaced : Spaced (Field.tokensIn writers) " * , writer : authors ( name , posts ( * ) )".toList :=
    Text.spaced_flatMap blank _
  exact ⟨some, printable, spaced, parse_spaced some printable spaced⟩

end Select
end TableGateway
