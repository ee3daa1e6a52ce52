import TableGateway.Proofs.ArrayLiteral
import TableGateway.Proofs.DocumentRoundTrip

/-!
# Cells read back from their texts

Cursors, keys and joins carry cells as texts, arrays among them as literals. A cell becomes itself again
when its text is converted, and an array that comes as a literal is shown like one that comes as an
array. Main statements: `Convert.ofText_text`, `Convert.json_literal`.
-/
namespace TableGateway

namespace Cell

/-- The cell is a value of the type, and not null. The values of an array type are arrays of any
dimensions. -/
inductive Fills (admits : String → String → Prop) : ColumnType → Cell → Prop where
  | leaf {type : ColumnType} {c : Cell} (h : c.IsLeaf admits type) : Fills admits type c
  | array {type : ColumnType} {items : List Cell}
    (h : Nested (IsLeaf admits type.baseElement) 0 items) : Fills admits (.array type) (array items)

variable {admits : String → String → Prop} {type : ColumnType} {c : Cell}

theorem IsLeaf.element_eq (h : c.IsLeaf admits type) : c.element = .item (c.text?.getD "") := by
  cases h with
  | plain h => cases h <;> rfl
  | label h => rfl

theorem IsLeaf.text?_isSome (h : c.IsLeaf admits type) : c.text?.isSome = true := by
  cases h with
  | plain h =>
    cases h with
    | boolean b => cases b <;> rfl
    | _ => rfl
  | label h => rfl

theorem text?_array (items : List Cell) : (array items).text? = some (array items).literal := by
  simp [literal, text?, chars?]

end Cell

namespace Convert

open Cell (IsLeaf Nested Fills)

variable {σ : Type} {source : SchemaSource σ} {s : σ} {admits : String → String → Prop}
  {base type : ColumnType} {c : Cell} {n : Nat} {items : List Cell}

/-! ## Texts are converted to what they were made from -/

/-- The items of the literal of an array are converted to the items. -/
theorem elements_yields (h : Nested (IsLeaf (source.Admits s) base) n items) :
    ∀ {type : ColumnType}, type.baseElement = base →
      source.Yields s (elements source type (Cell.elements items)) items := by
  -- over the nesting; only the innermost type counts for a literal, which stays the same
  induction h with
  | nil n => exact fun _ => SchemaSource.yields_pure []
  | null hrest ih =>
    intro type innermost
    exact .bind (SchemaSource.yields_pure Cell.null) (.bind (ih innermost) (SchemaSource.yields_pure _))
  | leaf hc hrest ih =>
    intro type innermost
    rw [Cell.elements, hc.element_eq, elements, element, innermost]
    exact .bind (leaf_text hc) (.bind (ih innermost) (SchemaSource.yields_pure _))
  | array hinner hrest ihinner ihrest =>
    intro type innermost
    rw [Cell.elements, Cell.element, elements, element]
    have nested := ihinner (type.baseElement_element.trans innermost)
    exact .bind (.bind nested (SchemaSource.yields_pure _))
      (.bind (ihrest innermost) (SchemaSource.yields_pure _))

theorem arrayText?_literal (items : List Cell) :
    arrayText? (.str (Cell.array items).literal) = some (Cell.array items).literal := by
  have written : (Cell.array items).literal.toList = Literal.braces (Cell.itemTexts items) := by
    simp [Cell.literal, Cell.text?, Cell.chars?]
  rw [arrayText?, written]
  rfl

/-- The text of an array is read as a literal, in a column of arrays. -/
theorem ofText_literal (fits : (Cell.array items).levels ≤ Literal.maxDimensions) :
    ofText source (.array type) (Cell.array items).literal = do
      return .array (← elements source type (Cell.elements items)) := by
  rw [ofText, alone, arrayText?_literal]
  show (known (Literal.readArray _) >>= _) = _
  rw [Cell.readArray_literal fits]
  rfl

theorem ofText_leaf (h : c.IsLeaf admits type) (text : String) :
    ofText source type text = single source type (.str text) := by
  cases h with
  | plain h => cases h <;> rfl
  | label h => rfl

/-- A leaf has a text, which is converted to the leaf. -/
theorem ofText_leaf_yields (h : c.IsLeaf (source.Admits s) type) :
    ∃ text, c.text? = some text ∧ source.Yields s (ofText source type text) c := by
  obtain ⟨text, written⟩ := Option.isSome_iff_exists.mp h.text?_isSome
  refine ⟨text, written, ?_⟩
  have read := leaf_text h
  rw [written] at read
  rw [ofText_leaf h]
  exact read

/-- The text of a cell is converted to the cell. -/
theorem ofText_fills (h : c.Fills (source.Admits s) type) (fits : c.levels ≤ Literal.maxDimensions) :
    ∃ text, c.text? = some text ∧ source.Yields s (ofText source type text) c := by
  cases h with
  | leaf h => exact ofText_leaf_yields h
  | @array type items h =>
    refine ⟨(Cell.array items).literal, Cell.text?_array items, ?_⟩
    rw [ofText_literal fits]
    exact .bind (elements_yields h rfl) (SchemaSource.yields_pure _)

/-- The text of a cell, alone or in a cursor, is converted to the cell. -/
theorem ofText_text (h : c.Fills (source.Admits s) type) (fits : c.levels ≤ Literal.maxDimensions) :
    ∃ text, c.text? = some text ∧
      ((ofText source type text).run s).1 = .ok c ∧
      (∀ raw, Cursor.decode (Cursor.encode raw) = .ok raw) ∧
      ((known (Cursor.decode (Cursor.encode text)) >>= ofText source type).run s).1 = .ok c := by
  obtain ⟨text, written, read⟩ := ofText_fills h fits
  refine ⟨text, written, read.value, Cursor.decode_encode, ?_⟩
  rw [Cursor.decode_encode]
  exact read.value

/-- Items that are quoted, or empty, in the literal of their array. -/
def quotedItems : List Cell := [.text "null", .text "a \"b\"", .null, .array [.text "", .array []]]

theorem ofText_text_quoted :
    (Fills (SchemaSource.Admits (.fixed {}) ()) (.array (.scalar .text)) (.array quotedItems) ∧
      (Cell.array quotedItems).levels ≤ Literal.maxDimensions) ∧
    ∃ text, (Cell.array quotedItems).text? = some text ∧
      ((ofText (.fixed {}) (.array (.scalar .text)) text).run ()).1 = .ok (.array quotedItems) ∧
      (∀ raw, Cursor.decode (Cursor.encode raw) = .ok raw) ∧
      ((known (Cursor.decode (Cursor.encode text)) >>=
        ofText (.fixed {}) (.array (.scalar .text))).run ()).1 = .ok (.array quotedItems) := by
  have leaf (text : String) :
      IsLeaf (SchemaSource.Admits (.fixed {}) ()) (.scalar .text) (.text text) := .plain (.text text)
  have filled : Fills (SchemaSource.Admits (.fixed {}) ()) (.array (.scalar .text))
      (.array quotedItems) := by
    refine .array (.leaf (leaf _) (.leaf (leaf _) (.null (.array ?_ (.nil 0)))))
    exact .leaf (leaf "") (.array (.nil 0) (.nil 0))
  have fits : (Cell.array quotedItems).levels ≤ Literal.maxDimensions := by decide
  exact ⟨⟨filled, fits⟩, ofText_text filled fits⟩

/-! ## Literals are shown as arrays are -/

/-- The text of a leaf is converted to the leaf, or, if it is refused, is the text that the leaf holds. -/
theorem single_getD (h : c.IsLeaf admits type) (t : σ) :
    ((single source type (.str (c.text?.getD ""))).run t).1.toOption.getD (.text (c.text?.getD "")) = c := by
  cases h with
  | plain h =>
    rw [single_text h]
    rfl
  | @label enum label h =>
    -- a label that is refused is kept as text, which is what an accepted one becomes
    rw [Cell.text?_text]
    show ((Convert.label source enum (.str label)).run t).1.toOption.getD _ = _
    rw [label_run]
    cases source.labelsAt t enum with
    | none => rfl
    | some labels =>
      by_cases declared : label ∈ labels
      · simp [textOf, declared, Except.toOption]
      · simp [textOf, declared, Except.toOption]

theorem elementJson_leaf (h : c.IsLeaf admits base) (innermost : type.baseElement = base) (t : σ) :
    ((elementJson source type c.element).run t).1 = shown base c := by
  rw [h.element_eq, elementJson, innermost, shown_leaf h]
  exact congrArg (singleJson base) (single_getD h t)

/-- The items of the literal of an array are shown as the items. -/
theorem elementsJson_shown (h : Nested (IsLeaf admits base) n items) :
    ∀ {type : ColumnType}, type.baseElement = base → ∀ t : σ,
      ((elementsJson source type (Cell.elements items)).run t).1 = shownItems base items := by
  induction h with
  | nil n => exact fun _ _ => rfl
  | null hrest ih =>
    intro type innermost t
    rw [Cell.elements, Cell.element, elementsJson, elementJson, pure_bind]
    exact congrArg (Json.null :: ·) (ih innermost t)
  | leaf hc hrest ih =>
    intro type innermost t
    rw [Cell.elements, elementsJson]
    exact congrArg₂ List.cons (elementJson_leaf hc innermost t) (ih innermost _)
  | array hinner hrest ihinner ihrest =>
    intro type innermost t
    have first := ihinner (type.baseElement_element.trans innermost) t
    rw [Cell.elements, Cell.element, elementsJson, elementJson]
    exact congrArg₂ (fun inner rest => Json.arr inner :: rest) first (ihrest innermost _)

/-- An array that comes as a literal is shown like the array, item for item, whatever the source knows. -/
theorem json_literal (h : Nested (IsLeaf (fun _ _ => True) type.baseElement) type.dimensions items)
    (fits : (Cell.array items).levels ≤ Literal.maxDimensions) :
    ((json source (.array type) (.text (Cell.array items).literal)).run s).1 =
      ((json source (.array type) (.array items)).run s).1 ∧
    ((json source (.array type) (.array items)).run s).1 = .arr (shownItems type.baseElement items) := by
  have read : json source (.array type) (.text (Cell.array items).literal) = do
      return .arr (← elementsJson source type (Cell.elements items)) := by
    rw [json, literalJson, Cell.readArray_literal fits]
    intro items same
    cases same
  have mirrored : ((json source (.array type) (.text (Cell.array items).literal)).run s).1 =
      .arr (shownItems type.baseElement items) := by
    rw [read]
    exact congrArg Json.arr (elementsJson_shown h rfl s)
  rw [mirrored, json_shown h]
  exact ⟨rfl, rfl⟩

theorem json_literal_flags :
    (Nested (IsLeaf (fun _ _ => True) (.scalar .boolean)) 1 [.null, .array [.bool true, .null]] ∧
      (Cell.array [.null, .array [.bool true, .null]]).levels ≤ Literal.maxDimensions) ∧
    ((json (.fixed {}) (.array (.array (.scalar .boolean)))
        (.text (Cell.array [.null, .array [.bool true, .null]]).literal)).run ()).1 =
      ((json (.fixed {}) (.array (.array (.scalar .boolean)))
        (.array [.null, .array [.bool true, .null]])).run ()).1 ∧
    ((json (.fixed {}) (.array (.array (.scalar .boolean)))
        (.array [.null, .array [.bool true, .null]])).run ()).1 =
      .arr [.null, .arr [.bool true, .null]] := by
  have flag : IsLeaf (fun _ _ => True) (.scalar .boolean) (.bool true) := .plain (.boolean true)
  have nested : Nested (IsLeaf (fun _ _ => True) (.scalar .boolean)) 1
      [.null, .array [.bool true, .null]] := .null (.array (.leaf flag (.null (.nil 0))) (.nil 1))
  have fits : (Cell.array [.null, .array [.bool true, .null]]).levels ≤ Literal.maxDimensions := by
    decide
  exact ⟨⟨nested, fits⟩, @json_literal Unit (.fixed {}) () (.array (.scalar .boolean)) _ nested fits⟩

end Convert
end TableGateway
