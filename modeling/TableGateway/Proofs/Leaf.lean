import TableGateway.Convert.Reading
import TableGateway.Proofs.Address
import TableGateway.Proofs.Outcome

/-!
# Leaves

The values of the types that are no arrays, other than numbers with a fraction, times, documents and
composites. They are read back both from their texts and from their documents; the labels of an enum
are, as long as the source of the schema admits them. Main statements: `Convert.leaf_text`, `Convert.leaf_json`.
-/
namespace TableGateway

variable {σ α β : Type}

/-! ## Readings of a source -/

namespace SchemaSource

variable (source : SchemaSource σ)

/-- The states that the source reaches from a state by being read. -/
inductive Reaches (s : σ) : σ → Prop where
  | start : Reaches s s
  | read {t : σ} (h : Reaches s t) : Reaches s (source.snapshot t).2

/-- The labels of an enum, if the source knows them in the state. -/
def labelsAt (t : σ) (enum : String) : Option (List String) :=
  (source.snapshot t).1.toOption.bind (·.enums.get? enum)

/-- From the state on, the label is declared whenever the labels of the enum are known. -/
def Admits (s : σ) (enum label : String) : Prop :=
  ∀ t labels, source.Reaches s t → source.labelsAt t enum = some labels → label ∈ labels

/-- From the state on, the lookup has the value, and it only reads. -/
def Yields (s : σ) (x : Lookup σ α) (a : α) : Prop :=
  ∀ t, source.Reaches s t → (x.run t).1 = .ok a ∧ source.Reaches s (x.run t).2

/-- Of a schema that stays the same, the labels are those that are declared. -/
theorem admits_fixed {snapshot : Snapshot} {enum label : String} :
    (fixed snapshot).Admits () enum label ↔
      ∀ labels, snapshot.enums.get? enum = some labels → label ∈ labels :=
  ⟨fun h labels declared => h () labels .start declared,
    fun h _ labels _ declared => h labels declared⟩

variable {source} {s : σ}

theorem yields_pure (a : α) : source.Yields s (pure a) a := fun _ h => ⟨rfl, h⟩

theorem Yields.bind {x : Lookup σ α} {f : α → Lookup σ β} {a : α} {b : β}
    (hx : source.Yields s x a) (hf : source.Yields s (f a) b) : source.Yields s (x >>= f) b := by
  intro t ht
  obtain ⟨value, reached⟩ := hx t ht
  rw [Lookup.run_bind, value]
  exact hf _ reached

theorem Yields.value {x : Lookup σ α} {a : α} (h : source.Yields s x a) : (x.run s).1 = .ok a :=
  (h s .start).1

end SchemaSource

/-! ## Leaves -/

namespace Cell

/-- The cell is a value of the type, which is no enum. -/
inductive IsPlain : ColumnType → Cell → Prop where
  | smallInt (n : Int64) : IsPlain (.scalar .smallInt) (.int n)
  | integer (n : Int64) : IsPlain (.scalar .integer) (.int n)
  | bigInt (n : Int64) : IsPlain (.scalar .bigInt) (.int n)
  | boolean (b : Bool) : IsPlain (.scalar .boolean) (.bool b)
  | text (s : String) : IsPlain (.scalar .text) (.text s)
  | xml (s : String) : IsPlain (.scalar .xml) (.text s)
  | bit (length : Option Nat) (s : String) : IsPlain (.scalar (.bit length)) (.text s)
  | varBit (length : Option Nat) (s : String) : IsPlain (.scalar (.varBit length)) (.text s)
  | uuid (u : Uuid) : IsPlain (.scalar .uuid) (.uuid u)
  | bytea (bs : List UInt8) : IsPlain (.scalar .bytea) (.bytes bs)
  | address {kind : Network.Kind} {s : String} (h : Network.isValid kind s = true) :
    IsPlain (.network kind) (.text s)

/-- The cell is a value of the type, where enums have the labels that are admitted. -/
inductive IsLeaf (admits : String → String → Prop) : ColumnType → Cell → Prop where
  | plain {type : ColumnType} {c : Cell} (h : c.IsPlain type) : IsLeaf admits type c
  | label {enum label : String} (h : admits enum label) :
    IsLeaf admits (.enumeration enum) (.text label)

end Cell

@[simp] theorem Cell.text?_text (s : String) : (text s).text? = some s := by
  simp [text?, chars?]

@[simp] theorem Cell.plainJson_text (s : String) : (text s).plainJson = .str s := by
  simp [plainJson, Json.ofText?]

/-! ## Reading leaves back -/

namespace Convert

theorem integer_number (n : Int64) : integer (.int n.toInt) = .ok (.int n) := by
  simp only [integer, Json.int64?, Number.int64?_toInt]

theorem bytea_text (bs : List UInt8) :
    bytea (.str (String.ofList ('\\' :: 'x' :: Text.Hex.encode bs))) = .ok (.bytes bs) := by
  simp [bytea, hexBytes?, Text.dropLead?, Text.Hex.decode?_encode]

theorem bytea_envelope (bs : List UInt8) : bytea (bytesEnvelope bs) = .ok (.bytes bs) := by
  have data (text : String) (n : Json) : Entries.get? "data" (Entries.ofList
      [("type", .str "bytea"), ("encoding", .str "base64"), ("data", .str text), ("length", n)]) =
      some (.str text) := by
    simp [Entries.ofList, Entries.get?_insert]
  simp only [bytesEnvelope, Json.object, bytea, data, Option.bind_some, Json.str?, Text.Utf8.bytes,
    String.toList_ofList, Text.Base64.decode_encode]

/-- An envelope stands for the text in it. -/
theorem uuid_of_text {v : Json} {s : String} (h : envelopeText? v = some s) : uuid v = uuid (.str s) := by
  unfold uuid
  rw [h]
  rfl

theorem uuid_envelope (u : Uuid) : uuid (uuidEnvelope u) = .ok (.uuid u) := by
  have value (text : String) (n : Json) :
      Entries.get? "value" (Entries.ofList [("value", .str text), ("version", n)]) = some (.str text) := by
    simp [Entries.ofList, Entries.get?_insert]
  have text : envelopeText? (uuidEnvelope u) = some u.text := by
    simp only [uuidEnvelope, Json.object, envelopeText?, value, Option.bind_some, Json.str?]
  exact (uuid_of_text text).trans (uuid_text u)

theorem address_text {kind : Network.Kind} {s : String} (h : Network.isValid kind s = true) :
    address kind (.str s) = .ok (.text s) := by
  simp only [address, Network.trimmed_of_isValid h, h, if_true]

variable {source : SchemaSource σ} {s : σ} {type : ColumnType} {c : Cell}

/-- The text of a value is converted to the value. -/
theorem single_text (h : c.IsPlain type) : single source type (.str (c.text?.getD "")) = pure c := by
  cases h with
  | smallInt n | integer n | bigInt n => exact congrArg known (integer_text n)
  | boolean b => cases b <;> rfl
  | text s | xml s | bit _ s | varBit _ s =>
    rw [Cell.text?_text]
    rfl
  | uuid u => exact congrArg known (uuid_text u)
  | bytea bs => exact congrArg known (bytea_text bs)
  | address h =>
    rw [Cell.text?_text]
    exact congrArg known (address_text h)

/-- The document of a value is converted to the value. -/
theorem single_json (h : c.IsPlain type) : single source type (singleJson type c) = pure c := by
  cases h with
  | smallInt n | integer n | bigInt n => exact congrArg known (integer_number n)
  | boolean b => rfl
  | text s | xml s | bit _ s | varBit _ s =>
    show single source _ (Cell.text s).plainJson = _
    rw [Cell.plainJson_text]
    rfl
  | uuid u => exact congrArg known (uuid_envelope u)
  | bytea bs => exact congrArg known (bytea_envelope bs)
  | @address kind s h =>
    show single source _ (Cell.text s).plainJson = _
    rw [Cell.plainJson_text]
    exact congrArg known (address_text h)

/-- A label is refused where the labels of its enum are known and it is none of them. -/
theorem label_run (source : SchemaSource σ) (enum : String) (v : Json) (t : σ) :
    (Convert.label source enum v).run t =
      (match source.labelsAt t enum with
        | some labels =>
          if textOf v ∈ labels then .ok (.text (textOf v)) else .error (.invalidEnumValue enum (textOf v))
        | none => .ok (.text (textOf v)), (source.snapshot t).2) := by
  have read : (source.labels? enum).attempt.run t =
      (.ok ((source.snapshot t).1.map (·.enums.get? enum)), (source.snapshot t).2) := by
    show (Except.ok ((source.labels? enum).run t).1, ((source.labels? enum).run t).2) = _
    rw [SchemaSource.labels?, SchemaSource.run_current_map]
  rw [Convert.label, Lookup.run_bind, read, SchemaSource.labelsAt]
  cases (source.snapshot t).1 with
  | error e => rfl
  | ok snapshot =>
    simp only [Except.map, Except.toOption, Option.bind_some]
    cases snapshot.enums.get? enum with
    | none => rfl
    | some labels =>
      by_cases declared : textOf v ∈ labels
      · simp only [List.contains_iff_mem.mpr declared, declared, if_true]
        rfl
      · simp only [List.contains_iff_mem, declared, if_false]
        rfl

/-- A label that is admitted is converted to itself. -/
theorem label_yields {enum label : String} (h : source.Admits s enum label) :
    source.Yields s (Convert.label source enum (.str label)) (.text label) := by
  intro t reached
  rw [label_run]
  refine ⟨?_, reached.read⟩
  cases known : source.labelsAt t enum with
  | none => rfl
  | some labels => exact if_pos (h t labels reached known)

/-- The text of a leaf is converted to the leaf. -/
theorem leaf_text (h : c.IsLeaf (source.Admits s) type) :
    source.Yields s (single source type (.str (c.text?.getD ""))) c := by
  cases h with
  | plain h =>
    rw [single_text h]
    exact SchemaSource.yields_pure c
  | label h =>
    rw [Cell.text?_text]
    exact label_yields h

/-- The document of a leaf is converted to the leaf. -/
theorem leaf_json (h : c.IsLeaf (source.Admits s) type) :
    source.Yields s (single source type (singleJson type c)) c := by
  cases h with
  | plain h =>
    rw [single_json h]
    exact SchemaSource.yields_pure c
  | @label enum label h =>
    have shown : singleJson (.enumeration enum) (.text label) = .str label := Cell.plainJson_text label
    rw [shown]
    exact label_yields h

end Convert
end TableGateway
