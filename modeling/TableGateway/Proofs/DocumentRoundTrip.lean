import TableGateway.Proofs.JsonText
import TableGateway.Proofs.Leaf

/-!
# Cells read as documents and written back

A cell that is shown in an answer and sent back unchanged becomes the cell again. For arrays the document
mirrors the array, `Convert.shown`, whatever dimensions were declared, as long as the leaves lie at least
so deep. Main statements: `Convert.roundTrip_hasType`, `Convert.roundTrip_document`.
-/
namespace TableGateway

def ColumnType.dimensions : ColumnType → Nat
  | array t => t.dimensions + 1
  | _ => 0

namespace ColumnType

theorem dimensions_element (type : ColumnType) : type.element.dimensions = type.dimensions - 1 := by
  cases type <;> rfl

theorem baseElement_element (type : ColumnType) : type.element.baseElement = type.baseElement := by
  cases type <;> rfl

theorem baseElement_of_dimensions {type : ColumnType} (h : type.dimensions = 0) :
    type.baseElement = type := by
  cases type with
  | array t => cases h
  | _ => rfl

end ColumnType

namespace Cell

/-- The leaves in the items of an array have the property, and each of them lies at least so many arrays
deep within the items. Null may stand anywhere. -/
inductive Nested (leaf : Cell → Prop) : Nat → List Cell → Prop where
  | nil (n : Nat) : Nested leaf n []
  | null {n : Nat} {rest : List Cell} (hrest : Nested leaf n rest) : Nested leaf n (null :: rest)
  | leaf {c : Cell} {rest : List Cell} (hc : leaf c) (hrest : Nested leaf 0 rest) :
    Nested leaf 0 (c :: rest)
  | array {n : Nat} {inner rest : List Cell} (hinner : Nested leaf (n - 1) inner)
    (hrest : Nested leaf n rest) : Nested leaf n (array inner :: rest)

/-- The cell is null or a value of the type. The values of an array type are arrays in which no leaf
lies above the declared dimensions. -/
inductive HasType (admits : String → String → Prop) : ColumnType → Cell → Prop where
  | null (type : ColumnType) : HasType admits type null
  | leaf {type : ColumnType} {c : Cell} (h : c.IsLeaf admits type) : HasType admits type c
  | array {type : ColumnType} {items : List Cell}
    (h : Nested (IsLeaf admits type.baseElement) type.dimensions items) :
    HasType admits (.array type) (array items)

end Cell

namespace Convert

open Cell (IsLeaf Nested HasType)

mutual

/-- The document of an item of an array with innermost items of the type. -/
def shown (base : ColumnType) : Cell → Json
  | .array items => .arr (shownItems base items)
  | c => singleJson base c

/-- The documents of the items of an array with innermost items of the type. -/
def shownItems (base : ColumnType) : List Cell → List Json
  | [] => []
  | c :: rest => shown base c :: shownItems base rest

end

variable {σ : Type} {source : SchemaSource σ} {s : σ} {admits : String → String → Prop}
  {base type : ColumnType} {c : Cell} {n : Nat} {items : List Cell}

/-! ## What is shown -/

theorem json_null (type : ColumnType) : json source type .null = pure .null := by
  cases type <;> rfl

theorem json_leaf (h : c.IsLeaf admits type) : json source type c = pure (singleJson type c) := by
  cases h with
  | plain h => cases h <;> rfl
  | label h => rfl

theorem shown_leaf (h : c.IsLeaf admits type) : shown type c = singleJson type c := by
  cases h with
  | plain h => cases h <;> rfl
  | label h => rfl

/-- A leaf among items is shown without a look at the dimensions. -/
theorem jsons_leaf (h : c.IsLeaf admits type) (rest : List Cell) :
    jsons source type (c :: rest) = do
      return shown type c :: (← jsons source type rest) := by
  cases h with
  | plain h => cases h <;> rfl
  | label h => rfl

/-- The items of an array are shown as they are nested. -/
theorem jsons_shown (h : Nested (IsLeaf admits base) n items) : ∀ {type : ColumnType},
    type.dimensions = n → type.baseElement = base →
      jsons source type items = pure (shownItems base items) := by
  -- over the nesting; the dimensions of the type run out before a leaf is met
  induction h with
  | nil n => exact fun _ _ => rfl
  | @null n rest hrest ih =>
    intro type dimensions innermost
    show (do
      let v ← json source type .null
      return v :: (← jsons source type rest)) = _
    rw [json_null, pure_bind, ih dimensions innermost]
    rfl
  | leaf hc hrest ih =>
    intro type dimensions innermost
    rw [ColumnType.baseElement_of_dimensions dimensions] at innermost
    subst innermost
    rw [jsons_leaf hc, ih dimensions (ColumnType.baseElement_of_dimensions dimensions)]
    rfl
  | array hinner hrest ihinner ihrest =>
    intro type dimensions innermost
    rw [jsons, ihinner (by rw [type.dimensions_element, dimensions])
      (type.baseElement_element.trans innermost), pure_bind, ihrest dimensions innermost]
    rfl

/-- An array is shown as it is nested, in a column of arrays. -/
theorem json_shown (h : Nested (IsLeaf admits type.baseElement) type.dimensions items) :
    json source (.array type) (.array items) = pure (.arr (shownItems type.baseElement items)) := by
  rw [json, jsons_shown h rfl rfl, pure_bind]

/-! ## What is written back -/

theorem parameter_leaf (h : c.IsLeaf admits type) :
    parameter source type (singleJson type c) = single source type (singleJson type c) := by
  cases h with
  | plain h => cases h <;> rfl
  | label h => rfl

theorem parameters_leaf (h : c.IsLeaf admits type) (rest : List Json) :
    parameters source type (shown type c :: rest) = do
      let cell ← single source type (singleJson type c)
      return cell :: (← parameters source type rest) := by
  cases h with
  | plain h => cases h <;> rfl
  | label h => rfl

/-- The documents of the items of an array are converted to the items. -/
theorem parameters_shown (h : Nested (IsLeaf (source.Admits s) base) n items) :
    ∀ {type : ColumnType}, type.dimensions = n → type.baseElement = base →
      source.Yields s (parameters source type (shownItems base items)) items := by
  induction h with
  | nil n => exact fun _ _ => SchemaSource.yields_pure []
  | @null n rest hrest ih =>
    intro type dimensions innermost
    show source.Yields s (do
      let cell ← parameter source type .null
      return cell :: (← parameters source type (shownItems base rest))) _
    exact .bind (SchemaSource.yields_pure Cell.null) (.bind (ih dimensions innermost)
      (SchemaSource.yields_pure _))
  | leaf hc hrest ih =>
    intro type dimensions innermost
    rw [ColumnType.baseElement_of_dimensions dimensions] at innermost
    subst innermost
    rw [shownItems, parameters_leaf hc]
    exact .bind (leaf_json hc) (.bind (ih dimensions (ColumnType.baseElement_of_dimensions dimensions))
      (SchemaSource.yields_pure _))
  | array hinner hrest ihinner ihrest =>
    intro type dimensions innermost
    rw [shownItems, shown, parameters]
    exact .bind (ihinner (by rw [type.dimensions_element, dimensions])
      (type.baseElement_element.trans innermost)) (.bind (ihrest dimensions innermost)
      (SchemaSource.yields_pure _))

/-! ## There and back -/

/-- What becomes of a cell that is shown as a document and written back. -/
def roundTrip (source : SchemaSource σ) (type : ColumnType) (c : Cell) : Lookup σ Cell := do
  parameter source type (← ExceptT.lift (json source type c))

theorem roundTrip_eq {v : Json} (h : json source type c = pure v) :
    roundTrip source type c = parameter source type v := by
  rw [roundTrip, h]
  rfl

/-- A value of a type, of any depth, is shown as a document that is converted to the value. -/
theorem roundTrip_hasType (h : c.HasType (source.Admits s) type) :
    ((roundTrip source type c).run s).1 = .ok c := by
  cases h with
  | null type =>
    rw [roundTrip_eq (json_null type)]
    rfl
  | leaf h =>
    rw [roundTrip_eq (json_leaf h), parameter_leaf h]
    exact (leaf_json h).value
  | @array type items h =>
    rw [roundTrip_eq (json_shown h), parameter]
    exact (SchemaSource.Yields.bind (parameters_shown h rfl rfl)
      (SchemaSource.yields_pure (Cell.array items))).value

/-- An enum with labels that look like parts of array literals. -/
def moods : Snapshot := { enums := [("mood", ["calm", "null", "\x7b\x7d"])] }

/-- Items of an array of two dimensions, one of them of three. -/
def moodItems : List Cell :=
  [.array [.text "null", .null], .null, .array [.array [.text "\x7b\x7d"]]]

theorem roundTrip_moods :
    HasType (SchemaSource.Admits (.fixed moods) ()) (.array (.array (.enumeration "mood")))
      (.array moodItems) ∧
    ((roundTrip (.fixed moods) (.array (.array (.enumeration "mood"))) (.array moodItems)).run ()).1 =
      .ok (.array moodItems) := by
  have leaf (label : String) (h : label ∈ ["calm", "null", "\x7b\x7d"]) :
      IsLeaf (SchemaSource.Admits (.fixed moods) ()) (.enumeration "mood") (.text label) :=
    .label (SchemaSource.admits_fixed.mpr fun labels declared => by
      cases declared
      exact h)
  have typed : HasType (SchemaSource.Admits (.fixed moods) ()) (.array (.array (.enumeration "mood")))
      (.array moodItems) := by
    refine .array (.array ?_ (.null (.array ?_ (.nil 1))))
    · exact .leaf (leaf "null" (by decide)) (.null (.nil 0))
    · exact .array (.leaf (leaf "\x7b\x7d" (by decide)) (.nil 0)) (.nil 0)
  exact ⟨typed, roundTrip_hasType typed⟩

/-! ## Documents in columns of documents -/

theorem document_str (text : String) : document (.str text) = match Json.read? text with
    | some v => .json v
    | none => .text text := rfl

theorem document_of_str?_eq_none {v : Json} (h : v.str? = none) : document v = .json v := by
  cases v with
  | str text => cases h
  | _ => rfl

/-- The documents that are kept as they are are those that are no strings. -/
theorem document_eq_json_iff {v : Json} : document v = .json v ↔ v.str? = none := by
  refine ⟨fun kept => ?_, document_of_str?_eq_none⟩
  cases v with
  | str text =>
    rw [document_str] at kept
    cases read : Json.read? text with
    | none =>
      rw [read] at kept
      cases kept
    | some w =>
      rw [read] at kept
      exact absurd (read.trans (congrArg some (Cell.json.inj kept))) (Json.read?_ne_str text)
  | _ => rfl

theorem json_document {t : ScalarType} (ht : t = .json ∨ t = .jsonb) (v : Json) :
    json source (.scalar t) (.json v) = pure v := by
  rcases ht with rfl | rfl <;> rfl

theorem parameter_document {t : ScalarType} (ht : t = .json ∨ t = .jsonb) {v : Json}
    (hv : v.isNull = false) : parameter source (.scalar t) v = pure (document v) := by
  cases v with
  | null => cases hv
  | _ => rcases ht with rfl | rfl <;> rfl

/-- A document is shown as it is. Written back, exactly the documents that are no strings become
themselves: a string is taken as the text of a document, and stays text if it is none. -/
theorem roundTrip_document {t : ScalarType} (ht : t = .json ∨ t = .jsonb) {v : Json}
    (hv : v.isNull = false) :
    ((json source (.scalar t) (.json v)).run s).1 = v ∧
    (((roundTrip source (.scalar t) (.json v)).run s).1 = .ok (.json v) ↔ v.str? = none) ∧
    ∀ text, v = .str text → ((roundTrip source (.scalar t) (.json v)).run s).1 =
      .ok (match Json.read? text with
        | some w => .json w
        | none => .text text) := by
  have back : roundTrip source (.scalar t) (.json v) = pure (document v) := by
    rw [roundTrip_eq (json_document ht v), parameter_document ht hv]
  have outcome : ((roundTrip source (.scalar t) (.json v)).run s).1 = .ok (document v) := by
    rw [back]
    rfl
  refine ⟨by rw [json_document ht v]; rfl, ?_, ?_⟩
  · rw [outcome, Except.ok.injEq]
    exact document_eq_json_iff
  · rintro text rfl
    rw [outcome, document_str]

theorem roundTrip_document_number :
    ((json (.fixed {}) (.scalar .jsonb) (.json (.int 5))).run ()).1 = .int 5 ∧
    (((roundTrip (.fixed {}) (.scalar .jsonb) (.json (.int 5))).run ()).1 = .ok (.json (.int 5)) ↔
      (Json.int 5).str? = none) ∧
    ∀ text, Json.int 5 = .str text →
      ((roundTrip (.fixed {}) (.scalar .jsonb) (.json (.int 5))).run ()).1 =
        .ok (match Json.read? text with
          | some w => .json w
          | none => .text text) :=
  roundTrip_document (.inr rfl) rfl

/-- A string of digits becomes a number. -/
theorem roundTrip_digits :
    (Json.str "5").isNull = false ∧
    ((roundTrip (.fixed {}) (.scalar .jsonb) (.json (.str "5"))).run ()).1 = .ok (.json (.int 5)) ∧
    ((roundTrip (.fixed {}) (.scalar .jsonb) (.json (.str "5"))).run ()).1 ≠ .ok (.json (.str "5")) := by
  have number : ((roundTrip (.fixed {}) (.scalar .jsonb) (.json (.str "5"))).run ()).1 =
      .ok (.json (.int 5)) := by rfl
  exact ⟨rfl, number, by rw [number]; exact nofun⟩

end Convert
end TableGateway
