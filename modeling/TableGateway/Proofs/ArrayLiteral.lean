import TableGateway.Cell
import TableGateway.Proofs.ArrayGrammar

/-!
# Array literals are read back

The items of an array literal have a printer, `Element.chars`, in which the literal of an array of cells
is the literal of its items. What is printed is a text of the grammar: it is read back as long as arrays
are nested at most six deep, and refused if they are nested deeper. Main statements:
`Literal.readArray_texts`, `Cell.readArray_literal`, `Cell.literal_mirrored`.
-/
namespace TableGateway

namespace Literal

open Text (Blank)

mutual

def Element.chars : Element → List Char
  | .null => "NULL".toList
  | .item s => quoteItem s.toList
  | .nested es => braces (texts es)

def texts : List Element → List (List Char)
  | [] => []
  | e :: es => e.chars :: texts es

end

/-! ## Single items -/

theorem quotedForm_escape (cs : List Char) : QuotedForm cs (escape cs) := by
  induction cs with
  | nil => exact .nil
  | cons c cs ih =>
    by_cases special : c = '"' ∨ c = '\\'
    · have written : escape (c :: cs) = '\\' :: c :: escape cs := by simp [escape, special]
      rw [written]
      exact .escaped ih
    · have written : escape (c :: cs) = c :: escape cs := by simp [escape, special]
      rw [not_or] at special
      rw [written]
      exact .plain special.1 special.2 ih

theorem isSpecial_eq_false {c : Char} (h : isSpecial c = false) :
    endsItem c = false ∧ c ≠ '\x7b' ∧ c ≠ '"' ∧ Text.isBlank c = false := by
  simp only [isSpecial, Bool.or_eq_false_iff, beq_eq_false_iff_ne] at h
  obtain ⟨⟨⟨⟨⟨comma, opening⟩, closing⟩, quote⟩, -⟩, blank⟩ := h
  exact ⟨by simp [endsItem, comma, closing], opening, quote, blank⟩

/-- A text without special characters needs no quotes. -/
theorem bareForm_of_not_special {cs : List Char} (h : ∀ c ∈ cs, isSpecial c = false) : BareForm cs where
  trimmed := Text.trim_eq_self fun c hc => (isSpecial_eq_false (h c hc)).2.2.2
  inside c hc := (isSpecial_eq_false (h c hc)).1
  brace first := (isSpecial_eq_false (h _ (List.mem_of_mem_head? first))).2.1 rfl
  quote first := (isSpecial_eq_false (h _ (List.mem_of_mem_head? first))).2.2.1 rfl

theorem itemForm_quoteItem (s : String) : ∃ bares, ItemForm (.item s) (quoteItem s.toList) bares := by
  rw [← String.ofList_toList (s := s)]
  generalize s.toList = cs
  rw [String.toList_ofList]
  unfold quoteItem
  split
  · exact ⟨[], .quoted (quotedForm_escape cs)⟩
  · rename_i h
    simp only [Bool.or_eq_true, List.any_eq_true, not_or, not_exists, not_and,
      Bool.not_eq_true] at h
    exact ⟨[cs], .bare (bareForm_of_not_special h.2) h.1.2⟩

theorem quoteItem_ne_nil (cs : List Char) : quoteItem cs ≠ [] := by
  unfold quoteItem
  split
  · simp
  · rename_i h
    rintro rfl
    exact h rfl

/-- An item is not printed as white space. -/
theorem Element.chars_not_blank (e : Element) : ¬ Blank e.chars := by
  intro h
  cases e with
  | null => exact absurd (h 'N' (by decide)) (by decide)
  | nested es => exact absurd (h '\x7b' (List.mem_cons_self ..)) (by decide)
  | item s =>
    obtain ⟨bares, form⟩ := itemForm_quoteItem s
    rcases form.head with empty | ⟨c, ds, written, blank, -⟩
    · exact absurd empty (quoteItem_ne_nil _)
    · have first := h c (by rw [Element.chars, written]; simp)
      rw [blank] at first
      cases first

/-! ## Items in braces -/

/-- Where some items have the form of items, they have that of the inside of an array. -/
theorem innerForm_texts {es : List Element}
    (form : es ≠ [] → ∃ bares, ItemsForm es ([','].intercalate (texts es)) bares) :
    ∃ bares, InnerForm es ([','].intercalate (texts es)) bares := by
  cases es with
  | nil => exact ⟨[], .none .nil⟩
  | cons e es =>
    obtain ⟨bares, form⟩ := form (List.cons_ne_nil e es)
    refine ⟨bares, .some form fun h => e.chars_not_blank fun c hc => h c ?_⟩
    cases es <;> simp [texts, hc, List.intercalate_cons_cons]

theorem bareForm_null : BareForm "NULL".toList := by
  refine ⟨by decide, fun c hc => ?_, by decide, by decide⟩
  have all : "NULL".toList.all (!endsItem ·) = true := by decide
  simpa using List.all_eq_true.mp all c hc

mutual

/-- What is printed for an item is a text of the grammar. -/
theorem Element.chars_form : ∀ e : Element, ∃ bares, ItemForm e e.chars bares
  | .null => ⟨_, .null bareForm_null (by decide)⟩
  | .item s => itemForm_quoteItem s
  | .nested es => by
    obtain ⟨bares, form⟩ := innerForm_texts (texts_form es)
    exact ⟨bares, .nested form⟩

/-- And so it is for several items, with commas between them. -/
theorem texts_form : ∀ es : List Element, es ≠ [] →
    ∃ bares, ItemsForm es ([','].intercalate (texts es)) bares
  | [], any => absurd rfl any
  | [e], _ => by
    obtain ⟨bares, form⟩ := e.chars_form
    have one := ItemsForm.one .nil form .nil
    refine ⟨bares, ?_⟩
    simpa [texts] using one
  | e :: e' :: es, _ => by
    obtain ⟨bares, form⟩ := e.chars_form
    obtain ⟨bares', rest⟩ := texts_form (e' :: es) (List.cons_ne_nil e' es)
    have more := ItemsForm.more .nil form .nil rest
    refine ⟨bares ++ bares', ?_⟩
    simpa [texts, List.intercalate_cons_cons] using more

end

/-- What is printed for some items in braces is an array of them. -/
theorem arrayForm_texts (es : List Element) :
    ∃ bares, ArrayForm es (String.ofList (braces (texts es))) bares := by
  obtain ⟨bares, form⟩ := innerForm_texts (texts_form es)
  refine ⟨bares, _, ?_, form⟩
  rw [String.toList_ofList]
  exact Text.trim_enclosed (by decide) (by decide) _

/-- The literal of items that are not nested too deep is read as the items. -/
theorem readArray_texts (es : List Element) (fits : levels es < maxDimensions) :
    readArray (String.ofList (braces (texts es))) = .ok es :=
  readArray_eq_ok_iff.mpr ⟨fits, arrayForm_texts es⟩

end Literal

/-! ## Cells -/

namespace Cell

mutual

/-- The item of an array literal as which a cell is written. -/
def element : Cell → Literal.Element
  | null => .null
  | array items => .nested (elements items)
  | c => .item (c.text?.getD "")

def elements : List Cell → List Literal.Element
  | [] => []
  | c :: rest => c.element :: elements rest

end

/-- How many arrays within one another a cell holds. -/
def levels (c : Cell) : Nat := c.element.levels

theorem toList_text (c : Cell) : (c.text?.getD "").toList = c.chars?.getD [] := by
  unfold text?
  cases c.chars? <;> simp

/-- The first item is written as its item of a literal, if the items of an array within it are. -/
theorem itemTexts_cons (c : Cell) (rest : List Cell)
    (inner : ∀ items, c = array items → itemTexts items = Literal.texts (elements items)) :
    itemTexts (c :: rest) = c.element.chars :: itemTexts rest := by
  cases c with
  | null => rfl
  | array items =>
    rw [itemTexts, chars?, inner items rfl]
    rfl
  | _ => simp only [itemTexts, element, Literal.Element.chars, toList_text]

theorem itemTexts_eq : ∀ items : List Cell, itemTexts items = Literal.texts (elements items)
  | [] => rfl
  | c :: rest => by
    rw [itemTexts_cons c rest ?_, itemTexts_eq rest]
    · rfl
    · cases c with
      | array items => exact fun _ h => array.inj h ▸ itemTexts_eq items
      | _ => exact nofun

theorem literal_array (items : List Cell) : (array items).literal =
    String.ofList (Literal.braces (Literal.texts (elements items))) := by
  rw [literal, text?, chars?, itemTexts_eq]
  rfl

/-- The literal of an array that is not nested too deep is read as its items. -/
theorem readArray_literal {items : List Cell} (fits : (array items).levels ≤ Literal.maxDimensions) :
    Literal.readArray (array items).literal = .ok (elements items) := by
  rw [literal_array]
  exact Literal.readArray_texts _ fits

/-- The element of a literal shows the cell: null as null, an array as its items, and anything else as
its text. -/
inductive Mirrors : Cell → Literal.Element → Prop where
  | null : Mirrors .null .null
  | array {items : List Cell} {es : List Literal.Element} (h : List.Forall₂ Mirrors items es) :
    Mirrors (.array items) (.nested es)
  | leaf {c : Cell} {s : String} (whole : ∀ items, c ≠ .array items) (h : c.text? = some s) :
    Mirrors c (.item s)

mutual

theorem mirrors_element : ∀ c : Cell, Mirrors c c.element
  | null => .null
  | array items => .array (mirrors_elements items)
  | bool true | bool false | int _ | float _ | text _ | bytes _ | json _ | uuid _ | date _ | time _
  | timestamp _ | timestampTz _ => .leaf nofun rfl

theorem mirrors_elements : ∀ items : List Cell, List.Forall₂ Mirrors items (elements items)
  | [] => .nil
  | c :: rest => .cons (mirrors_element c) (mirrors_elements rest)

end

/-- The literal of an array is read as elements that show its items if arrays are nested at most six
deep, and refused for its dimensions if they are not. -/
theorem literal_mirrored (items : List Cell) :
    ((array items).levels ≤ Literal.maxDimensions → ∃ es,
      Literal.readArray (array items).literal = .ok es ∧ List.Forall₂ Mirrors items es) ∧
    (Literal.maxDimensions < (array items).levels →
      Literal.readArray (array items).literal =
        .error (Literal.Malformed.dimensions.fault (array items).literal)) := by
  refine ⟨fun fits => ⟨_, readArray_literal fits, mirrors_elements items⟩, fun deep => ?_⟩
  rw [literal_array]
  obtain ⟨bares, form⟩ := Literal.arrayForm_texts (elements items)
  have tooDeep : ¬ Literal.levels (elements items) < Literal.maxDimensions :=
    Nat.not_lt.mpr (Nat.le_of_lt_succ deep)
  rw [form.read, if_neg tooDeep]

/-- Items that look like null or like nothing, beside a text with blanks and quotes in five more arrays. -/
def wrappedItems : List Cell :=
  [.text "NuLL", .null, .text "", .array [],
    .array [.array [.array [.array [.array [.text "a\u2003\"\\,\x7b\x7d"]]]]]]

theorem literal_mirrored_wrapped :
    ((array wrappedItems).levels ≤ Literal.maxDimensions ∧ ∃ es,
      Literal.readArray (array wrappedItems).literal = .ok es ∧
        List.Forall₂ Mirrors wrappedItems es) ∧
    (Literal.maxDimensions < (array [array wrappedItems]).levels ∧
      Literal.readArray (array [array wrappedItems]).literal =
        .error (Literal.Malformed.dimensions.fault (array [array wrappedItems]).literal)) := by
  have fits : (array wrappedItems).levels ≤ Literal.maxDimensions := by decide
  have deep : Literal.maxDimensions < (array [array wrappedItems]).levels := by decide
  exact ⟨⟨fits, (literal_mirrored wrappedItems).1 fits⟩, deep,
    (literal_mirrored [array wrappedItems]).2 deep⟩

end Cell
end TableGateway
