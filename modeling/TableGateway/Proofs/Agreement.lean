import TableGateway.Proofs.DocumentRoundTrip
import TableGateway.Proofs.Provenance

/-!
# Sources that agree

What a request looks up in the schema after its snapshot are the labels of enums and the fields of composite
types. Two sources that tell the same about those of a table, reading by reading, convert the same values for
it: each lookup has the same outcome in both and leaves them in states that agree again. Main statements:
`Convert.parameter_alike`, `Build.keyFilter_alike`, `Filter.conditions_alike`.
-/
namespace TableGateway

variable {σ τ α β : Type}

/-! ## Runs that are alike -/

/-- From related states, both computations give the same and leave related states. -/
def Alike (R : σ → τ → Prop) (x : StateM σ α) (y : StateM τ α) : Prop :=
  ∀ t u, R t u → (x t).1 = (y u).1 ∧ R (x t).2 (y u).2

variable {R : σ → τ → Prop}

theorem Alike.pure (a : α) : Alike R (Pure.pure a : StateM σ α) (Pure.pure a) := fun _ _ h => ⟨rfl, h⟩

theorem Alike.bind {x : StateM σ α} {y : StateM τ α} {f : α → StateM σ β} {g : α → StateM τ β}
    (h : Alike R x y) (hf : ∀ a, Alike R (f a) (g a)) : Alike R (x >>= f) (y >>= g) := by
  intro t u related
  obtain ⟨same, related⟩ := h t u related
  show (f (x t).1 (x t).2).1 = (g (y u).1 (y u).2).1 ∧ R (f (x t).1 (x t).2).2 (g (y u).1 (y u).2).2
  rw [← same]
  exact hf _ _ _ related

theorem Alike.mapM {f : α → StateM σ β} {g : α → StateM τ β} (h : ∀ a, Alike R (f a) (g a)) :
    ∀ l : List α, Alike R (l.mapM f) (l.mapM g)
  | [] => by
    rw [List.mapM_nil, List.mapM_nil]
    exact .pure []
  | a :: l => by
    rw [List.mapM_cons, List.mapM_cons]
    exact .bind (h a) fun _ => .bind (Alike.mapM h l) fun _ => .pure _

namespace Lookup

/-- From related states, both lookups have the same outcome and leave related states. -/
def Alike (R : σ → τ → Prop) (x : Lookup σ α) (y : Lookup τ α) : Prop := TableGateway.Alike R x.run y.run

theorem Alike.pure (a : α) : Alike R (Pure.pure a : Lookup σ α) (Pure.pure a) := fun _ _ h => ⟨rfl, h⟩

theorem Alike.throw (e : Fault) : Alike R (throw e : Lookup σ α) (throw e) := fun _ _ h => ⟨rfl, h⟩

theorem Alike.known (r : Except Fault α) :
    Alike R (TableGateway.known r : Lookup σ α) (TableGateway.known r) := fun _ _ h => ⟨rfl, h⟩

theorem Alike.bind {x : Lookup σ α} {y : Lookup τ α} {f : α → Lookup σ β} {g : α → Lookup τ β}
    (h : Alike R x y) (hf : ∀ a, Alike R (f a) (g a)) : Alike R (x >>= f) (y >>= g) := by
  show TableGateway.Alike R (x.run >>= ExceptT.bindCont f) (y.run >>= ExceptT.bindCont g)
  refine TableGateway.Alike.bind h fun r => ?_
  cases r with
  | ok a => exact hf a
  | error e => exact .pure _

/-- What would come after a fault does not matter. -/
theorem Alike.throw_bind (e : Fault) {f : α → Lookup σ β} {g : α → Lookup τ β} :
    Alike R ((MonadExcept.throw e : Lookup σ α) >>= f) ((MonadExcept.throw e : Lookup τ α) >>= g) :=
  fun _ _ h => ⟨rfl, h⟩

theorem Alike.ite {c : Prop} [Decidable c] {x x' : Lookup σ α} {y y' : Lookup τ α}
    (h : Alike R x y) (h' : Alike R x' y') :
    Alike R (if c then x else x') (if c then y else y') := by
  by_cases holds : c
  · rwa [if_pos holds, if_pos holds]
  · rwa [if_neg holds, if_neg holds]

/-- After what is known, both go on from the one value, of which something may be known. -/
theorem Alike.known_bind {r : Except Fault α} {Q : α → Prop} {P : Fault → Prop} (h : Outcome Q P r)
    {f : α → Lookup σ β} {g : α → Lookup τ β} (hf : ∀ a, Q a → Alike R (f a) (g a)) :
    Alike R (TableGateway.known r >>= f) (TableGateway.known r >>= g) := by
  cases h with
  | ok h => exact hf _ h
  | error _ => exact .throw _

theorem Alike.mapM {f : α → Lookup σ β} {g : α → Lookup τ β} : ∀ {l : List α},
    (∀ a ∈ l, Alike R (f a) (g a)) → Alike R (l.mapM f) (l.mapM g)
  | [], _ => by
    rw [List.mapM_nil, List.mapM_nil]
    exact .pure []
  | a :: l, h => by
    rw [List.mapM_cons, List.mapM_cons]
    refine .bind (h a (by simp)) fun _ => ?_
    exact .bind (Alike.mapM fun a' ha' => h a' (by simp [ha'])) fun _ => .pure _

end Lookup

/-! ## Types that are known alike -/

/-- Two readings of the schema tell the same about some enums and some composite types. A reading that fails
tells of no enum. -/
structure SameTypes (E F : String → Prop) (r s : Except Fault Snapshot) : Prop where
  labels : ∀ name, E name →
    r.toOption.bind (·.enums.get? name) = s.toOption.bind (·.enums.get? name)
  fields : ∀ name, F name → r.map (·.composites.get? name) = s.map (·.composites.get? name)

theorem SameTypes.refl {E F : String → Prop} (r : Except Fault Snapshot) : SameTypes E F r r :=
  ⟨fun _ _ => rfl, fun _ _ => rfl⟩

/-- From related states, the sources tell the same about the types, and go on to do so. -/
def SchemaSource.Agree (a : SchemaSource σ) (b : SchemaSource τ) (R : σ → τ → Prop)
    (E F : String → Prop) : Prop :=
  ∀ t u, R t u → SameTypes E F (a.snapshot t).1 (b.snapshot u).1 ∧ R (a.snapshot t).2 (b.snapshot u).2

/-- If the type is made of an enum, then of one of these. -/
def ColumnType.EnumIn (E : String → Prop) (type : ColumnType) : Prop :=
  ∀ name, type.baseElement = .enumeration name → E name

/-- If the type is made of a composite type, then of one of these. -/
def ColumnType.CompositeIn (F : String → Prop) (type : ColumnType) : Prop :=
  ∀ name, type.baseElement = .composite name → F name

/-- So are the types of all columns. -/
def Table.EnumsIn (E : String → Prop) (table : Table) : Prop :=
  ∀ column ∈ table.columns, column.type.EnumIn E

/-- So are the types of all columns. -/
def Table.CompositesIn (F : String → Prop) (table : Table) : Prop :=
  ∀ column ∈ table.columns, column.type.CompositeIn F

@[simp]
theorem ColumnType.baseElement_baseElement : ∀ type : ColumnType,
    type.baseElement.baseElement = type.baseElement
  | array inner => baseElement_baseElement inner
  | scalar _ | enumeration _ | composite _ | network _ => rfl

theorem ColumnType.EnumIn.element {E : String → Prop} {type : ColumnType} (h : type.EnumIn E) :
    type.element.EnumIn E := by
  simpa only [EnumIn, baseElement_element] using h

theorem ColumnType.CompositeIn.element {F : String → Prop} {type : ColumnType} (h : type.CompositeIn F) :
    type.element.CompositeIn F := by
  simpa only [CompositeIn, baseElement_element] using h

theorem ColumnType.EnumIn.inner {E : String → Prop} {inner : ColumnType} (h : (array inner).EnumIn E) :
    inner.EnumIn E := h

theorem ColumnType.CompositeIn.inner {F : String → Prop} {inner : ColumnType}
    (h : (array inner).CompositeIn F) : inner.CompositeIn F := h

theorem ColumnType.EnumIn.baseElement {E : String → Prop} {type : ColumnType} (h : type.EnumIn E) :
    type.baseElement.EnumIn E := by
  simpa only [EnumIn, baseElement_baseElement] using h

/-! ## Conversion -/

namespace Convert

variable {a : SchemaSource σ} {b : SchemaSource τ} {E F : String → Prop}

theorem label_alike (agree : a.Agree b R E F) {name : String} (h : E name) (v : Json) :
    Lookup.Alike R (label a name v) (label b name v) := by
  intro t u related
  obtain ⟨same, related⟩ := agree t u related
  rw [label_run, label_run, SchemaSource.labelsAt, SchemaSource.labelsAt, same.labels name h]
  exact ⟨rfl, related⟩

theorem fields?_alike (agree : a.Agree b R E F) {name : String} (h : F name) :
    Lookup.Alike R (a.fields? name) (b.fields? name) := by
  intro t u related
  obtain ⟨same, related⟩ := agree t u related
  rw [SchemaSource.fields?, SchemaSource.fields?, SchemaSource.run_current_map,
    SchemaSource.run_current_map, same.fields name h]
  exact ⟨rfl, related⟩

/-- The fields of a composite type are looked up for an object only. -/
theorem composite_alike (agree : a.Agree b R E F) {name : String} {v : Json}
    (h : (∀ s, v ≠ .str s) → F name) :
    Lookup.Alike R (composite a name v) (composite b name v) := by
  unfold composite
  split
  · exact .pure _
  · split
    · exact .pure _
    · refine .bind (fields?_alike agree (h nofun)) fun found => ?_
      split
      · exact .pure _
      · exact .throw _
  · exact .pure _

theorem single_alike (agree : a.Agree b R E F) {type : ColumnType} {v : Json} (enum : type.EnumIn E)
    (fields : (∀ s, v ≠ .str s) → type.CompositeIn F) :
    Lookup.Alike R (single a type v) (single b type v) := by
  cases type with
  | scalar t => exact .known _
  | network kind => exact .known _
  | enumeration name => exact label_alike agree (enum name rfl) v
  | composite name => exact composite_alike agree fun other => fields other name rfl
  | array _ => exact .pure _

/-- A text is no object. -/
theorem single_text_alike (agree : a.Agree b R E F) {type : ColumnType} (enum : type.EnumIn E) (s : String) :
    Lookup.Alike R (single a type (.str s)) (single b type (.str s)) :=
  single_alike agree enum fun other => absurd rfl (other s)

mutual

theorem element_alike (agree : a.Agree b R E F) {type : ColumnType} (enum : type.EnumIn E) :
    ∀ item : Literal.Element, Lookup.Alike R (element a type item) (element b type item)
  | .null => by
    rw [element, element]
    exact .pure _
  | .nested inner => by
    rw [element, element]
    exact .bind (elements_alike agree enum.element inner) fun _ => .pure _
  | .item s => by
    rw [element, element]
    exact single_text_alike agree enum.baseElement s

theorem elements_alike (agree : a.Agree b R E F) {type : ColumnType} (enum : type.EnumIn E) :
    ∀ items : List Literal.Element, Lookup.Alike R (elements a type items) (elements b type items)
  | [] => by
    rw [elements, elements]
    exact .pure _
  | item :: rest => by
    rw [elements, elements]
    exact .bind (element_alike agree enum item) fun _ =>
      .bind (elements_alike agree enum rest) fun _ => .pure _

end

theorem alone_alike (agree : a.Agree b R E F) {v : Json} : ∀ {type : ColumnType}, type.EnumIn E →
    ((∀ s, v ≠ .str s) → type.CompositeIn F) → Lookup.Alike R (alone a type v) (alone b type v)
  | .array inner, enum, fields => by
    rw [alone, alone]
    split
    · exact .bind (.known _) fun items =>
        .bind (elements_alike agree enum.inner items) fun _ => .pure _
    · exact .bind (alone_alike agree enum.inner fields) fun _ => .pure _
  | .scalar _, enum, fields | .network _, enum, fields | .enumeration _, enum, fields
  | .composite _, enum, fields => by
    rw [alone, alone]
    · exact single_alike agree enum fields
    all_goals simp

/-- A text of a URL is converted alike if the labels of its type are the same. -/
theorem ofText_alike (agree : a.Agree b R E F) {type : ColumnType} (enum : type.EnumIn E) (text : String) :
    Lookup.Alike R (ofText a type text) (ofText b type text) :=
  alone_alike agree enum fun other => absurd rfl (other text)

mutual

/-- A document is converted alike if the labels and the fields of its type are the same. -/
theorem parameter_alike (agree : a.Agree b R E F) {type : ColumnType} (enum : type.EnumIn E)
    (fields : type.CompositeIn F) : ∀ v : Json, Lookup.Alike R (parameter a type v) (parameter b type v)
  | .null => by
    rw [parameter, parameter]
    exact .pure _
  | .arr items => by
    cases type with
    | array inner =>
      rw [parameter, parameter]
      exact .bind (parameters_alike agree enum.inner fields.inner items) fun _ => .pure _
    | scalar _ | network _ | enumeration _ | composite _ =>
      rw [parameter, parameter]
      · exact single_alike agree enum fun _ => fields
      all_goals simp
  | .bool _ | .int _ | .double _ | .str _ | .obj _ => by
    rw [parameter, parameter]
    · exact alone_alike agree enum fun _ => fields
    all_goals simp

theorem parameters_alike (agree : a.Agree b R E F) {type : ColumnType} (enum : type.EnumIn E)
    (fields : type.CompositeIn F) : ∀ items : List Json,
    Lookup.Alike R (parameters a type items) (parameters b type items)
  | [] => by
    rw [parameters, parameters]
    exact .pure _
  | .arr inner :: rest => by
    rw [parameters, parameters]
    exact .bind (parameters_alike agree enum.element fields.element inner) fun _ =>
      .bind (parameters_alike agree enum fields rest) fun _ => .pure _
  | .null :: rest | .bool _ :: rest | .int _ :: rest | .double _ :: rest | .str _ :: rest
  | .obj _ :: rest => by
    rw [parameters, parameters]
    · exact .bind (parameter_alike agree enum fields _) fun _ =>
        .bind (parameters_alike agree enum fields rest) fun _ => .pure _
    all_goals simp

end

/-! ## Documents from cells -/

mutual

theorem elementJson_alike (agree : a.Agree b R E F) {type : ColumnType} (enum : type.EnumIn E) :
    ∀ item : Literal.Element, Alike R (elementJson a type item) (elementJson b type item)
  | .null => by
    rw [elementJson, elementJson]
    exact .pure _
  | .nested inner => by
    rw [elementJson, elementJson]
    exact .bind (elementsJson_alike agree enum.element inner) fun _ => .pure _
  | .item s => by
    rw [elementJson, elementJson]
    exact .bind (single_text_alike agree enum.baseElement s) fun _ => .pure _

theorem elementsJson_alike (agree : a.Agree b R E F) {type : ColumnType} (enum : type.EnumIn E) :
    ∀ items : List Literal.Element, Alike R (elementsJson a type items) (elementsJson b type items)
  | [] => by
    rw [elementsJson, elementsJson]
    exact .pure _
  | item :: rest => by
    rw [elementsJson, elementsJson]
    exact .bind (elementJson_alike agree enum item) fun _ =>
      .bind (elementsJson_alike agree enum rest) fun _ => .pure _

end

/-- Only an array literal holds texts that are looked up. -/
theorem literalJson_alike (agree : a.Agree b R E F) {type : ColumnType} (enum : type.EnumIn E) (c : Cell) :
    Alike R (literalJson a type c) (literalJson b type c) := by
  unfold literalJson
  split
  · split
    · exact .bind (elementsJson_alike agree enum _) fun _ => .pure _
    · exact .pure _
  · exact .pure _

mutual

theorem json_alike (agree : a.Agree b R E F) {type : ColumnType} (enum : type.EnumIn E) :
    ∀ c : Cell, Alike R (json a type c) (json b type c)
  | .array items => by
    cases type with
    | array inner =>
      rw [json, json]
      exact .bind (jsons_alike agree enum.inner items) fun _ => .pure _
    | scalar _ | network _ | enumeration _ | composite _ =>
      rw [json, json]
      · exact .pure _
      all_goals simp
  | .null | .bool _ | .int _ | .float _ | .text _ | .bytes _ | .uuid _ | .json _ | .date _ | .time _
  | .timestamp _ | .timestampTz _ => by
    cases type with
    | array inner =>
      rw [json, json]
      · exact literalJson_alike agree enum.inner _
      all_goals simp
    | scalar _ | network _ | enumeration _ | composite _ =>
      rw [json, json]
      · exact .pure _
      all_goals simp

theorem jsons_alike (agree : a.Agree b R E F) {type : ColumnType} (enum : type.EnumIn E) :
    ∀ items : List Cell, Alike R (jsons a type items) (jsons b type items)
  | [] => by
    rw [jsons, jsons]
    exact .pure _
  | .array inner :: rest => by
    rw [jsons, jsons]
    exact .bind (jsons_alike agree enum.element inner) fun _ =>
      .bind (jsons_alike agree enum rest) fun _ => .pure _
  | .null :: rest | .bool _ :: rest | .int _ :: rest | .float _ :: rest | .text _ :: rest
  | .bytes _ :: rest | .uuid _ :: rest | .json _ :: rest | .date _ :: rest | .time _ :: rest
  | .timestamp _ :: rest | .timestampTz _ :: rest => by
    rw [jsons, jsons]
    · exact .bind (json_alike agree enum _) fun _ => .bind (jsons_alike agree enum rest) fun _ => .pure _
    all_goals simp

end

theorem rowJson_alike (agree : a.Agree b R E F) {table : Table} (enums : table.EnumsIn E) :
    ∀ row : Row, Alike R (rowJson a table row) (rowJson b table row)
  | [] => .pure _
  | (name, c) :: rest => by
    have later (v : Json) : Alike R (do return (name, v) :: (← rowJson a table rest))
        (do return (name, v) :: (← rowJson b table rest)) :=
      .bind (rowJson_alike agree enums rest) fun _ => .pure _
    rw [rowJson, rowJson]
    split
    · rename_i column found
      exact .bind (json_alike agree (enums column (List.mem_of_find?_eq_some found)) c) later
    · exact later _

/-- The rows of a table become records alike if the labels of its types are the same. -/
theorem rowsJson_alike (agree : a.Agree b R E F) {table : Table} (enums : table.EnumsIn E) (rows : List Row) :
    Alike R (rowsJson a table rows) (rowsJson b table rows) := .mapM (rowJson_alike agree enums) rows

end Convert

/-! ## Statements -/

variable {a : SchemaSource σ} {b : SchemaSource τ} {E F : String → Prop} {table : Table}

namespace Build

/-- A key chooses rows alike. -/
theorem keyFilter_alike (agree : a.Agree b R E F) (enums : table.EnumsIn E) (key : String) :
    Lookup.Alike R (keyFilter a table key) (keyFilter b table key) := by
  unfold keyFilter
  refine .known_bind (Key.parse_columns key) fun parts hparts => .mapM fun (column, part) hpart => ?_
  unfold keyCondition
  refine .bind (.known _) fun _ => ?_
  exact .bind (Convert.ofText_alike agree (enums column (hparts _ hpart)) part) fun _ => .pure _

theorem row_alike (agree : a.Agree b R E F) (enums : table.EnumsIn E) (fields : table.CompositesIn F)
    (record : Record) {columns : List Column} (h : columns ⊆ table.columns) :
    Lookup.Alike R (row a columns record) (row b columns record) := by
  refine .mapM fun column hcolumn => ?_
  unfold bound?
  split
  · have declared := h hcolumn
    exact .bind (Convert.parameter_alike agree (enums column declared) (fields column declared) _)
      fun _ => .pure _
  · exact .pure _

theorem insertion_alike (agree : a.Agree b R E F) (enums : table.EnumsIn E) (fields : table.CompositesIn F)
    (records : List Record) :
    Lookup.Alike R (insertion a table records) (insertion b table records) := by
  have rows : Lookup.Alike R (records.mapM (row a (columnsOf table records)))
      (records.mapM (row b (columnsOf table records))) :=
    .mapM fun record _ => row_alike agree enums fields record (List.filter_subset_self _)
  unfold insertion
  refine .ite (.throw_bind _) (.bind (.known _) fun _ => ?_)
  exact .ite (.throw_bind _) (.bind rows fun _ => .pure _)

/-- Some records are inserted alike. -/
theorem insertAll_alike (agree : a.Agree b R E F) (enums : table.EnumsIn E)
    (fields : table.CompositesIn F) (records : List Record) (returning : Bool) :
    Lookup.Alike R (insertAll a table records returning) (insertAll b table records returning) :=
  .bind (insertion_alike agree enums fields records) fun _ => .pure _

theorem insert_alike (agree : a.Agree b R E F) (enums : table.EnumsIn E) (fields : table.CompositesIn F)
    (record : Record) (returning : Bool) :
    Lookup.Alike R (insert a table record returning) (insert b table record returning) :=
  .ite (.pure _) (insertAll_alike agree enums fields [record] returning)

theorem upsertAll_alike (agree : a.Agree b R E F) (enums : table.EnumsIn E)
    (fields : table.CompositesIn F) (records : List Record) :
    Lookup.Alike R (upsertAll a table records) (upsertAll b table records) :=
  .ite (.throw_bind _) (.bind (insertion_alike agree enums fields records) fun _ => .pure _)

/-- A record changes rows alike. -/
theorem update_alike (agree : a.Agree b R E F) (enums : table.EnumsIn E) (fields : table.CompositesIn F)
    (record : Record) (filter : Where) (returning : Bool) :
    Lookup.Alike R (update a table record filter returning) (update b table record filter returning) := by
  refine .ite (.throw_bind _) (.bind (.known _) fun _ => .bind (.mapM fun column hcolumn => ?_) fun _ => .pure _)
  have declared := List.mem_of_mem_filter hcolumn
  exact .bind (Convert.parameter_alike agree (enums column declared) (fields column declared) _)
    fun _ => .pure _

end Build

/-! ## Filters -/

namespace Filter

theorem compareWith_alike (agree : a.Agree b R E F) {column : Column} (enum : column.type.EnumIn E)
    (comparison : Comparison) (value : String) :
    Lookup.Alike R (compareWith a column comparison value) (compareWith b column comparison value) :=
  .bind (Convert.ofText_alike agree enum value) fun _ => .pure _

theorem itemValues_alike (agree : a.Agree b R E F) {type : ColumnType} (enum : type.EnumIn E)
    (items : List String) : Lookup.Alike R (itemValues a type items) (itemValues b type items) :=
  .mapM fun item _ => .bind (.known _) fun _ => Convert.ofText_alike agree enum item

theorem predicateOf_alike (agree : a.Agree b R E F) {column : Column} (enum : column.type.EnumIn E)
    (operator : Operator) (value : String) :
    Lookup.Alike R (predicateOf a column operator value) (predicateOf b column operator value) := by
  cases operator with
  | eq | neq | gt | gte | lt | lte => exact compareWith_alike agree enum _ value
  | like | ilike | startsWith | endsWith | isNotNull | hasKey | jsonExists | jsonPath
  | jsonPathExists | fts | plfts | wfts => exact .pure _
  | hasKeys | hasAnyKeys | arrayHasAny => exact .bind (.known _) fun _ => .pure _
  | arrayContains => exact .bind (Convert.ofText_alike agree enum.baseElement value) fun _ => .pure _
  | arrayHasAll => exact .bind (itemValues_alike agree enum.baseElement _) fun _ => .pure _
  | isIn | notIn =>
    simp only [predicateOf]
    exact .ite (.throw_bind _) (.bind (itemValues_alike agree enum _) fun _ => .pure _)
  | is =>
    exact .ite (.pure _) (.ite (.pure _) (.ite (.pure _) (.ite (.pure _)
      (compareWith_alike agree enum _ value))))
  | jsonContains | jsonContained =>
    simp only [predicateOf]
    split
    · exact .throw _
    · exact .pure _
  | arrayLength =>
    simp only [predicateOf]
    split
    · exact .pure _
    · exact .throw _

theorem condition_alike (agree : a.Agree b R E F) (enums : table.EnumsIn E) (column raw : String) :
    Lookup.Alike R (condition a table column raw) (condition b table column raw) :=
  .known_bind (table.resolve_outcome column) fun column hcolumn => .bind (.known _) fun _ =>
    .bind (predicateOf_alike agree (enums column hcolumn) _ _) fun _ => .pure _

theorem alternative_alike (agree : a.Agree b R E F) (enums : table.EnumsIn E) (cs : List Char) :
    Lookup.Alike R (alternative a table cs) (alternative b table cs) := by
  unfold alternative
  split
  · exact condition_alike agree enums _ _
  · exact .throw _

theorem conjunct_alike (agree : a.Agree b R E F) (enums : table.EnumsIn E) (name value : String) :
    Lookup.Alike R (conjunct a table name value) (conjunct b table name value) := by
  refine .ite ?_ (.bind (condition_alike agree enums name value) fun _ => .pure _)
  refine .bind (.mapM fun cs _ => alternative_alike agree enums cs) fun conditions => ?_
  exact .ite (.throw_bind _) (.pure _)

/-- Filters become conditions alike. -/
theorem conditions_alike (agree : a.Agree b R E F) (enums : table.EnumsIn E) (params : Params) :
    Lookup.Alike R (conditions a table params) (conditions b table params) :=
  .mapM fun (name, value) _ => conjunct_alike agree enums name value

end Filter

/-- A cursor puts a condition on rows alike. -/
theorem cursorCondition_alike (agree : a.Agree b R E F) {column : Column} (enum : column.type.EnumIn E)
    (comparison : Comparison) (cursor : Option String) :
    Lookup.Alike R (cursorCondition a column comparison cursor)
      (cursorCondition b column comparison cursor) := by
  unfold cursorCondition
  split
  · exact .pure _
  · exact .bind (.known _) fun text =>
      .bind (Filter.compareWith_alike agree enum comparison text) fun _ => .pure _

end TableGateway
