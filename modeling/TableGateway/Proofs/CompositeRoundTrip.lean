import TableGateway.Convert.Reading
import TableGateway.Proofs.KeyText
import TableGateway.Proofs.Trimming

/-!
# Composites read back

The writing of a composite puts a field in quotes where that is needed, with a backslash before each quote
and each backslash. The reading is simpler: it cuts at every comma, takes the quotes off a field and leaves
the backslashes in, and holds an empty field for null and an empty composite for one without fields. So a
list of fields is found again exactly if none of this matters for it. Main statements:
`Literal.readComposite_write`, `Convert.composite_readBack`.
-/
namespace TableGateway

namespace Literal

open Text (trim unwrap?_eq_some_iff trim_enclosed)

/-! ## A backslash before quotes and backslashes -/

/-- A character that is written with a backslash before it. -/
def isEscaped (c : Char) : Bool := c = '"' || c = '\\'

theorem escape_cons (c : Char) (cs : List Char) :
    escape (c :: cs) = (if isEscaped c then ['\\', c] else [c]) ++ escape cs := by
  simp [escape, isEscaped]

theorem length_escape (cs : List Char) : (escape cs).length = cs.length + cs.countP isEscaped := by
  induction cs with
  | nil => rfl
  | cons c cs ih =>
    rw [escape_cons, List.length_append, ih, List.countP_cons, List.length_cons]
    split <;> simp <;> omega

theorem escape_eq_self_iff {cs : List Char} : escape cs = cs ↔ ∀ c ∈ cs, isEscaped c = false := by
  constructor
  · intro same c hc
    have length := length_escape cs
    rw [same] at length
    have none : cs.countP isEscaped = 0 := by omega
    simpa using List.countP_eq_zero.mp none c hc
  · intro plain
    induction cs with
    | nil => rfl
    | cons c cs ih =>
      rw [escape_cons, ih fun d hd => plain d (List.mem_cons_of_mem c hd), plain c List.mem_cons_self]
      rfl

theorem escape_eq_nil_iff {cs : List Char} : escape cs = [] ↔ cs = [] := by
  rw [← List.length_eq_zero_iff, ← List.length_eq_zero_iff, length_escape]
  have := List.countP_le_length (p := isEscaped) (l := cs)
  omega

/-- A backslash is put before characters other than commas. -/
theorem comma_mem_escape {cs : List Char} : ',' ∈ escape cs ↔ ',' ∈ cs := by
  induction cs with
  | nil => rfl
  | cons c cs ih =>
    rw [escape_cons, List.mem_append, ih, List.mem_cons]
    split <;> simp

/-! ## One field -/

theorem isSpecialInField_eq_false {c : Char} (h : isSpecialInField c = false) :
    c ≠ ',' ∧ c ≠ '"' ∧ isEscaped c = false ∧ Text.isBlank c = false := by
  simp only [isSpecialInField, Bool.or_eq_false_iff, beq_eq_false_iff_ne] at h
  obtain ⟨⟨⟨⟨⟨comma, -⟩, -⟩, quote⟩, backslash⟩, blank⟩ := h
  exact ⟨comma, quote, by simp [isEscaped, quote, backslash], blank⟩

/-- Without white space and quotes around it a text is unquoted as it is. -/
theorem unquote_of_not_mem {cs : List Char} (h : '"' ∉ cs) : unquote cs = cs := by
  have none : Text.unwrap? '"' '"' cs = none := by
    by_contra quoted
    obtain ⟨inner, hinner⟩ := Option.ne_none_iff_exists'.mp quoted
    rw [unwrap?_eq_some_iff.mp hinner] at h
    simp at h
  rw [unquote, none, Option.getD_none]

/-- A field that is not cut at a comma loses its quotes and keeps its backslashes. -/
theorem unquote_quoteField (cs : List Char) : unquote (trim (quoteField cs)) = escape cs := by
  rw [quoteField]
  split
  · have around : trim ('"' :: escape cs ++ ['"']) = '"' :: escape cs ++ ['"'] :=
      trim_enclosed (by decide) (by decide) (escape cs)
    rw [around, unquote, unwrap?_eq_some_iff.mpr rfl, Option.getD_some]
  · rename_i bare
    have plain : ∀ c ∈ cs, isSpecialInField c = false := by
      simp only [Bool.or_eq_true, not_or, List.any_eq_true, not_exists, not_and] at bare
      exact fun c hc => by simpa using bare.2 c hc
    rw [Text.trim_eq_self fun c hc => (isSpecialInField_eq_false (plain c hc)).2.2.2,
      unquote_of_not_mem fun quote => (isSpecialInField_eq_false (plain _ quote)).2.1 rfl,
      escape_eq_self_iff.mpr fun c hc => (isSpecialInField_eq_false (plain c hc)).2.2.1]

theorem comma_mem_quoteField {cs : List Char} : ',' ∈ quoteField cs ↔ ',' ∈ cs := by
  rw [quoteField]
  split
  · simp [comma_mem_escape]
  · rfl

theorem quoteField_ne_nil (cs : List Char) : quoteField cs ≠ [] := by
  rw [quoteField]
  split
  · exact List.cons_ne_nil _ _
  · rename_i bare
    rintro rfl
    exact bare rfl

/-! ## All fields -/

def fieldText (f : Option (List Char)) : List Char := f.elim [] quoteField

/-- The texts that are found where a field was written. -/
def fragments (f : Option (List Char)) : List (List Char) :=
  ((fieldText f).splitOn ',').map fun part => unquote (trim part)

variable {fields : List (Option (List Char))}

theorem fragments_of_no_comma {f : Option (List Char)} (h : ∀ cs ∈ f, ',' ∉ cs) :
    fragments f = [escape (f.getD [])] := by
  cases f with
  | none => rfl
  | some cs =>
    have whole : ',' ∉ quoteField cs := mt comma_mem_quoteField.mp (h cs rfl)
    rw [fragments, fieldText, Option.elim_some, List.splitOn_eq_singleton whole, List.map_singleton,
      unquote_quoteField, Option.getD_some]

/-- Fields without commas are found one by one. -/
theorem flatMap_fragments (h : ∀ f ∈ fields, ∀ cs ∈ f, ',' ∉ cs) :
    fields.flatMap fragments = fields.map fun f => escape (f.getD []) := by
  rw [List.flatMap_congr fun f hf => fragments_of_no_comma (h f hf), List.map_eq_flatMap]

/-- What is between the parentheses is empty for no field and for null alone. -/
theorem intercalate_fieldText_eq_nil_iff :
    [','].intercalate (fields.map fieldText) = [] ↔ fields = [] ∨ fields = [none] := by
  match fields with
  | [] => simp
  | [none] => simp [fieldText]
  | [some cs] => simp [fieldText, quoteField_ne_nil]
  | f :: g :: rest => simp [List.intercalate_cons_cons]

/-- The fields of a composite that was written are read one after the other, unless null is the only
one. -/
theorem readComposite_write (several : fields ≠ [none]) :
    readComposite (String.ofList (writeComposite fields)) =
      (fields.flatMap fragments).map String.ofList := by
  have around : trim (writeComposite fields) = writeComposite fields :=
    trim_enclosed (by decide) (by decide) _
  have inside : Text.unwrap? '(' ')' (writeComposite fields) =
      some ([','].intercalate (fields.map fieldText)) := unwrap?_eq_some_iff.mpr rfl
  rw [readComposite, String.toList_ofList, around, inside, Option.getD_some]
  cases fields with
  | nil => rfl
  | cons f rest =>
    have some : [','].intercalate ((f :: rest).map fieldText) ≠ [] := by
      rw [ne_eq, intercalate_fieldText_eq_nil_iff, not_or]
      exact ⟨List.cons_ne_nil f rest, several⟩
    rw [if_neg (by simpa using some), splitOn_intercalate_eq ',' (by simp), List.flatMap_map]
    simp only [List.map_flatMap, fragments, List.map_map, Function.comp_def]

/-- There is a text more for each comma in a field. -/
theorem length_flatMap_fragments (fields : List (Option (List Char))) :
    (fields.flatMap fragments).length =
      fields.length + ((fields.map fieldText).map (List.count ',')).sum := by
  have length := length_flatMap_splitOn ',' (fields.map fieldText)
  rw [List.flatMap_map, List.length_map] at length
  rw [← length, List.length_flatMap, List.length_flatMap]
  simp only [fragments, List.length_map]

/-- As many texts are found as fields were written exactly if no field holds a comma. -/
theorem length_flatMap_fragments_eq_iff :
    (fields.flatMap fragments).length = fields.length ↔ ∀ f ∈ fields, ∀ cs ∈ f, ',' ∉ cs := by
  rw [length_flatMap_fragments, Nat.add_eq_left, List.sum_eq_zero_iff_forall_eq_nat]
  simp only [List.forall_mem_map, List.count_eq_zero]
  refine forall₂_congr fun f _ => ?_
  cases f with
  | none => simp [fieldText]
  | some cs => simp [fieldText, comma_mem_quoteField]

end Literal

namespace Convert

open Literal (escape fragments readComposite writeComposite)

/-- A text that comes back from a composite as it was. -/
structure Kept (text : String) : Prop where
  some : text ≠ ""
  plain : ∀ c ∈ text.toList, c ≠ ',' ∧ c ≠ '"' ∧ c ≠ '\\'

/-- A text without commas is kept exactly if it is read and has no backslash put into it. -/
theorem kept_iff {text : String} (h : ',' ∉ text.toList) :
    Kept text ↔ text.toList ≠ [] ∧ escape text.toList = text.toList := by
  rw [ne_eq, String.toList_eq_nil_iff, Literal.escape_eq_self_iff]
  constructor
  · rintro ⟨some, plain⟩
    exact ⟨some, fun c hc => by simp [Literal.isEscaped, plain c hc]⟩
  · rintro ⟨some, bare⟩
    refine ⟨some, fun c hc => ⟨fun comma => h (comma ▸ hc), ?_⟩⟩
    simpa [Literal.isEscaped] using bare c hc

/-! ## Documents -/

def fieldJson (text : String) : Json := if text.isEmpty then .null else .str text

/-- What is read of a field without a comma is its document exactly if it is null or is kept. -/
theorem fieldJson_escape_iff {f : Option String} (h : ∀ text ∈ f, ',' ∉ text.toList) :
    fieldJson (String.ofList (escape ((f.map String.toList).getD []))) = Json.ofText? f ↔
      ∀ text ∈ f, Kept text := by
  cases f with
  | none => simp [fieldJson, escape, Json.ofText?]
  | some text =>
    have kept : Kept text ↔ _ := kept_iff (h text rfl)
    simp only [Option.mem_some_iff, forall_eq', kept, Json.ofText?, Option.elim_some, fieldJson,
      Option.map_some, Option.getD_some, String.isEmpty_iff, String.ofList_eq_empty_iff]
    by_cases empty : text.toList = []
    · simp [empty, escape]
    · rw [if_neg (mt Literal.escape_eq_nil_iff.mp empty), Json.str.injEq, ← String.toList_inj, String.toList_ofList]
      exact (and_iff_right empty).symm

/-- The literal of the documents of some fields. -/
theorem compositeLiteral_ofText? (fields : List (Option String)) :
    compositeLiteral (fields.map Json.ofText?) =
      String.ofList (writeComposite (fields.map (Option.map String.toList))) := by
  rw [compositeLiteral, List.map_map]
  congr 2
  refine List.map_congr_left fun f _ => ?_
  cases f <;> rfl

/-- The documents of the fields that are read are those of the fields that were written exactly if each
text is kept and the fields are not null alone. -/
theorem readComposite_fields_iff (fields : List (Option String)) :
    (readComposite (compositeLiteral (fields.map Json.ofText?))).map fieldJson =
        fields.map Json.ofText? ↔
      fields ≠ [none] ∧ ∀ f ∈ fields, ∀ text ∈ f, Kept text := by
  rw [compositeLiteral_ofText?]
  by_cases alone : fields = [none]
  · subst alone
    have lost : readComposite (String.ofList (writeComposite [none])) = [] := by decide
    simp [lost]
  · have several : fields.map (Option.map String.toList) ≠ [none] := by
      simpa [List.map_eq_singleton_iff] using alone
    have commas : (∀ f ∈ fields.map (Option.map String.toList), ∀ cs ∈ f, ',' ∉ cs) ↔
        ∀ f ∈ fields, ∀ text ∈ f, ',' ∉ text.toList := by
      simp
    -- field by field, once no comma cuts one in two
    have pointwise (whole : ∀ f ∈ fields, ∀ text ∈ f, ',' ∉ text.toList) :
        (readComposite (String.ofList (writeComposite (fields.map (Option.map String.toList))))).map
            fieldJson = fields.map Json.ofText? ↔ ∀ f ∈ fields, ∀ text ∈ f, Kept text := by
      rw [Literal.readComposite_write several, Literal.flatMap_fragments (commas.mpr whole)]
      simp only [List.map_map, List.map_inj_left, Function.comp_apply]
      exact forall₂_congr fun f hf => fieldJson_escape_iff (whole f hf)
    rw [and_iff_right alone]
    constructor
    · intro same
      refine (pointwise (commas.mp (Literal.length_flatMap_fragments_eq_iff.mp ?_))).mp same
      have length := congrArg List.length same
      rw [Literal.readComposite_write several] at length
      simpa only [List.length_map] using length
    · intro kept
      exact (pointwise fun f hf text htext comma => ((kept f hf text htext).plain _ comma).1 rfl).mpr kept

variable {σ : Type} (source : SchemaSource σ) (s t : σ)

/-- The document of a composite with the documents of its fields. -/
def compositeDocument (name : String) (fields : List Json) : Json :=
  .object [("type", .str "composite"), ("typeName", .str name), ("fields", .arr fields)]

theorem member?_compositeDocument (name : String) (fields : List Json) :
    (compositeDocument name fields).member? "type" = some (.str "composite") ∧
      (compositeDocument name fields).member? "fields" = some (.arr fields) := by
  simp [compositeDocument, Json.object, Json.member?, Entries.ofList, Entries.get?_insert]

/-- A composite is written as the list of its fields is. -/
theorem parameter_compositeDocument (name : String) (fields : List Json) :
    parameter source (.composite name) (compositeDocument name fields) =
      parameter source (.composite name) (.arr fields) := by
  obtain ⟨type, items⟩ := member?_compositeDocument name fields
  show composite source name (compositeDocument name fields) = composite source name (.arr fields)
  simp only [compositeDocument, Json.object, Json.member?] at type items
  simp only [compositeDocument, Json.object, composite, type, items, Option.bind_some, Json.str?,
    Json.items?, if_true, Option.getD_some]

/-- A list of fields, each null or a text, is written as a text, and so is the composite of these fields. That
text is read as a composite, which has the same fields exactly if each text is kept and the fields are not
null alone. -/
theorem composite_readBack (name : String) (fields : List (Option String)) :
    ∃ text back,
      ((parameter source (.composite name) (.arr (fields.map Json.ofText?))).run s).1 = .ok (.text text) ∧
      ((parameter source (.composite name)
        (compositeDocument name (fields.map Json.ofText?))).run s).1 = .ok (.text text) ∧
      ((json source (.composite name) (.text text)).run t).1 = compositeDocument name back ∧
      (back = fields.map Json.ofText? ↔ fields ≠ [none] ∧ ∀ f ∈ fields, ∀ text ∈ f, Kept text) := by
  refine ⟨compositeLiteral (fields.map Json.ofText?),
    (readComposite (compositeLiteral (fields.map Json.ofText?))).map fieldJson, rfl, ?_, rfl,
    readComposite_fields_iff fields⟩
  rw [parameter_compositeDocument]
  rfl

/-- A comma in a field cuts it in two. -/
theorem composite_comma :
    ((parameter (.fixed {}) (.composite "address") (.arr [.str "a,b"])).run ()).1 =
      .ok (.text "(\"a,b\")") ∧
    ((json (.fixed {}) (.composite "address") (.text "(\"a,b\")")).run ()).1 =
      compositeDocument "address" [.str "\"a", .str "b\""] ∧
    ((json (.fixed {}) (.composite "address") (.text "(\"a,b\")")).run ()).1 ≠
      compositeDocument "address" [.str "a,b"] := by
  have read : ((json (.fixed {}) (.composite "address") (.text "(\"a,b\")")).run ()).1 =
      compositeDocument "address" [.str "\"a", .str "b\""] := by rfl
  refine ⟨rfl, read, ?_⟩
  rw [read]
  intro same
  have items := congrArg (Json.member? "fields") same
  simp [member?_compositeDocument] at items

end Convert
end TableGateway
