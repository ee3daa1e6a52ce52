import TableGateway.Convert.Binding
import TableGateway.Proofs.Outcome

/-!
# Faults of conversion

A text of a URL that is no value of a column's type is a fault of the client, whatever the state of
the schema: an enum whose labels cannot be learnt accepts every text, and composites are taken as they
are. Nothing but `null` is converted to null. Main statements: `Convert.ofText_ends`,
`Convert.parameter_valued`.
-/
namespace TableGateway.Convert

/-- A value, or a fault of the client. -/
abbrev Valid {α : Type} : Except Fault α → Prop := Outcome (fun _ => True) (·.isValidation = true)

theorem valid_ok {α : Type} (a : α) : Valid (.ok a) := .ok trivial

theorem valid_invalid {α : Type} (kind : String) (v : Json) :
    Valid (.error (invalid kind v) : Except Fault α) := .error rfl

/-! ## Scalars -/

theorem integer_valid (v : Json) : Valid (integer v) := by
  simp only [integer]
  split
  · exact valid_ok _
  · exact valid_invalid _ _

theorem double_valid (v : Json) : Valid (double v) := by
  simp only [double]
  split
  · exact valid_ok _
  · exact valid_invalid _ _

theorem numeric_valid (v : Json) : Valid (numeric v) := by
  unfold numeric
  split
  · exact valid_ok _
  · exact valid_ok _
  · split
    · exact valid_ok _
    · exact valid_invalid _ _
  · exact valid_invalid _ _

theorem boolean_valid (v : Json) : Valid (boolean v) := by
  unfold boolean
  split
  · exact valid_ok _
  · simp only
    generalize trueWords.contains _ = yes, falseWords.contains _ = no
    cases yes
    · cases no
      · exact valid_invalid _ _
      · exact valid_ok _
    · exact valid_ok _
  · exact .ite (fun _ => valid_ok _) fun _ => .ite (fun _ => valid_ok _) fun _ => valid_invalid _ _
  · exact valid_invalid _ _

theorem uuid_valid (v : Json) : Valid (uuid v) := by
  unfold uuid
  split
  · split <;> exact valid_ok _
  · exact valid_invalid _ _

theorem bytea_valid (v : Json) : Valid (bytea v) := by
  unfold bytea
  split
  · split
    · split
      · exact valid_ok _
      · exact valid_invalid _ _
    · exact valid_ok _
  · split
    · split
      · exact valid_ok _
      · exact valid_invalid _ _
    · exact valid_invalid _ _
  · exact valid_invalid _ _

theorem temporal_valid (type : ScalarType) (v : Json) : Valid (temporal type v) := by
  unfold temporal
  split
  · exact valid_ok _
  · exact valid_invalid _ _

theorem scalar_valid (type : ScalarType) (v : Json) : Valid (scalar type v) := by
  cases type with
  | smallInt | integer | bigInt => exact integer_valid v
  | real | double => exact double_valid v
  | numeric => exact numeric_valid v
  | boolean => exact boolean_valid v
  | uuid => exact uuid_valid v
  | bytea => exact bytea_valid v
  | timestamp | timestampTz | date | time | interval => exact temporal_valid _ v
  | json | jsonb | bit _ | varBit _ | xml | text | other _ => exact valid_ok _

theorem address_valid (kind : Network.Kind) (v : Json) : Valid (address kind v) := by
  unfold address
  split
  · simp only
    split
    · exact valid_ok _
    · exact valid_invalid _ _
  · exact valid_invalid _ _

/-! ## Texts of a URL -/

variable {σ : Type} (source : SchemaSource σ)

theorem label_ends (name : String) (v : Json) :
    (label source name v).Ends (fun _ => True) (·.isValidation = true) := by
  unfold label
  refine .bind (Q := fun _ => True) (fun _ => .ok trivial) fun found _ => ?_
  split
  · split
    · exact .pure trivial
    · exact .throw rfl
  · exact .pure trivial

theorem single_ends (type : ColumnType) (s : String) :
    (single source type (.str s)).Ends (fun _ => True) (·.isValidation = true) := by
  cases type with
  | scalar t => exact .known (scalar_valid t _)
  | network kind => exact .known (address_valid kind _)
  | enumeration name => exact label_ends source name _
  | composite name => exact .pure trivial
  | array element => exact .pure trivial

mutual

theorem element_ends (type : ColumnType) : ∀ item : Literal.Element,
    (element source type item).Ends (fun _ => True) (·.isValidation = true)
  | .null => by
    rw [element]
    exact .pure trivial
  | .nested inner => by
    rw [element]
    exact .bind (elements_ends type.element inner) fun _ _ => .pure trivial
  | .item s => by
    rw [element]
    exact single_ends source _ s

theorem elements_ends (type : ColumnType) : ∀ items : List Literal.Element,
    (elements source type items).Ends (fun _ => True) (·.isValidation = true)
  | [] => by
    rw [elements]
    exact .pure trivial
  | item :: rest => by
    rw [elements]
    refine .bind (element_ends type item) fun _ _ => ?_
    exact .bind (elements_ends type rest) fun _ _ => .pure trivial

end

theorem readArray_valid (s : String) : Valid (Literal.readArray s) := by
  unfold Literal.readArray
  split
  · split
    · exact valid_ok _
    · exact .error rfl
    · rename_i e _
      cases e <;> exact .error rfl
  · exact .error rfl

theorem ofText_ends (type : ColumnType) (s : String) :
    (ofText source type s).Ends (fun _ => True) (·.isValidation = true) := by
  unfold ofText
  induction type with
  | array inner ih =>
    rw [alone]
    split
    · exact .bind (.known (readArray_valid _)) fun items _ =>
        .bind (elements_ends source inner items) fun _ _ => .pure trivial
    · exact .bind ih fun _ _ => .pure trivial
  | _ =>
    rw [alone]
    · exact single_ends source _ s
    · simp

/-! ## Null -/

/-- A value that is not null. -/
abbrev Valued : Except Fault Cell → Prop := Outcome (·.isNull = false) (fun _ => True)

theorem temporalCell_isNull (type : ScalarType) (s : String) : (temporalCell type s).isNull = false := by
  unfold temporalCell
  simp only
  split
  · cases Calendar.Timestamp.read? (Text.trim s.toList) <;> rfl
  · cases Calendar.Clock.read? (Text.trim s.toList) <;> rfl
  · cases Calendar.Timestamp.read? (Text.trim s.toList) <;> rfl
  · cases ((Calendar.Timestamp.readZoned? (Text.trim s.toList)).or
      (Calendar.Timestamp.read? (Text.trim s.toList))) <;> rfl
  · rfl

theorem document_isNull (v : Json) : (document v).isNull = false := by
  unfold document
  split
  · split <;> rfl
  · rfl

theorem untyped_isNull (v : Json) : (untyped v).isNull = false := by
  unfold untyped
  split
  · rfl
  · rfl
  · split <;> rfl
  · rfl
  · rfl

theorem scalar_valued (type : ScalarType) (v : Json) : Valued (scalar type v) := by
  cases type with
  | json | jsonb => exact .ok (document_isNull v)
  | bit _ | varBit _ | xml | text => exact .ok rfl
  | other name => exact .ok (untyped_isNull v)
  | timestamp | timestampTz | date | time | interval =>
    simp only [scalar, temporal]
    split
    · exact .ok (temporalCell_isNull _ _)
    · exact .error trivial
  | smallInt | integer | bigInt | real | double | numeric | boolean | uuid | bytea =>
    simp only [scalar, integer, double, numeric, boolean, uuid, bytea]
    -- Each branch is a fault or a cell of one form.
    repeat' split
    all_goals first
      | exact .ok rfl
      | exact .error trivial

theorem address_valued (kind : Network.Kind) (v : Json) : Valued (address kind v) := by
  unfold address
  split
  · exact .ite (fun _ => .ok rfl) fun _ => .error trivial
  · exact .error trivial

theorem label_valued (name : String) (v : Json) :
    (label source name v).Ends (·.isNull = false) (fun _ => True) := by
  unfold label
  refine .bind (.any _) fun found _ => ?_
  split
  · split
    · exact .pure rfl
    · exact .throw trivial
  · exact .pure rfl

theorem composite_valued (name : String) (v : Json) :
    (composite source name v).Ends (·.isNull = false) (fun _ => True) := by
  unfold composite
  split
  · exact .pure rfl
  · split
    · exact .pure rfl
    · refine .bind (.any _) fun found _ => ?_
      split
      · exact .pure rfl
      · exact .throw trivial
  · exact .pure rfl

theorem single_valued (type : ColumnType) (v : Json) :
    (single source type v).Ends (·.isNull = false) (fun _ => True) := by
  cases type with
  | scalar t => exact .known (scalar_valued t v)
  | network kind => exact .known (address_valued kind v)
  | enumeration name => exact label_valued source name v
  | composite name => exact composite_valued source name v
  | array element => exact .pure (document_isNull v)

theorem alone_valued (type : ColumnType) (v : Json) :
    (alone source type v).Ends (·.isNull = false) (fun _ => True) := by
  cases type with
  | array inner =>
    rw [alone]
    split
    · exact .bind (.any _) fun _ _ => .bind (.any _) fun _ _ => .pure rfl
    · exact .bind (.any _) fun _ _ => .pure rfl
  | scalar _ | network _ | enumeration _ | composite _ =>
    rw [alone]
    · exact single_valued source _ v
    · simp

/-- A document that is not `null` is converted to a value that is not null. -/
theorem parameter_valued (type : ColumnType) {v : Json} (h : v ≠ .null) :
    (parameter source type v).Ends (·.isNull = false) (fun _ => True) := by
  cases v with
  | null => exact absurd rfl h
  | arr items =>
    cases type with
    | array inner =>
      rw [parameter]
      exact .bind (.any _) fun _ _ => .pure rfl
    | scalar _ | network _ | enumeration _ | composite _ =>
      rw [parameter]
      · exact single_valued source _ _
      · simp
  | bool _ | int _ | double _ | str _ | obj _ =>
    rw [parameter]
    · exact alone_valued source type _
    all_goals simp

end TableGateway.Convert
