import TableGateway.Proofs.Join
import TableGateway.Proofs.LiteralRoundTrip
import TableGateway.Proofs.TemporalRoundTrip

/-!
# The texts that rows are joined by

Rows are joined by texts that are taken from their documents. Of nearly all types by whose values a row can
be told, the text is that of the cell, so that it tells the cell and is converted to it. There are two
exceptions. A leap second within a minute has the text of the second after it, and is taken for that one. And
bytes have no such text, since their envelope has no `value`: no row is ever joined by them. Main statement:
`Convert.joinText_identifies`.
-/
namespace TableGateway

namespace Cell

/-- The cell is a value of a type by which rows can be joined: an integer, a truth value, a text, a UUID, an
address, a label, a moment or, though this fails, bytes. -/
inductive IsKey (admits : String → String → Prop) : ColumnType → Cell → Prop where
  | leaf {type : ColumnType} {c : Cell} (h : c.IsLeaf admits type) : IsKey admits type c
  | moment {type : ScalarType} {c : Cell} (h : c.IsMoment type) : IsKey admits (.scalar type) c

end Cell

/-! ## The text in an envelope -/

theorem Json.valueText?_eq (members : List (String × Json)) :
    Json.valueText? members = (Entries.get? "value" members).bind Json.joinText? := by
  induction members with
  | nil => rfl
  | cons member rest ih =>
    rw [Json.valueText?, Entries.get?, ih]
    split <;> rfl

/-- An envelope with a `value` has the text of that. -/
theorem Json.joinText?_object (members : List (String × Json)) :
    (Json.object members).joinText? =
      (Entries.get? "value" (Entries.ofList members)).bind Json.joinText? := by
  rw [Json.object, Json.joinText?, Json.valueText?_eq]

namespace Convert

open Cell (IsKey)

variable {σ : Type} {source : SchemaSource σ} {s : σ} {admits : String → String → Prop}
  {type : ColumnType} {a b c : Cell}

theorem joinText?_uuid (u : Uuid) : (uuidEnvelope u).joinText? = some u.text := by
  rw [uuidEnvelope, Json.joinText?_object]
  simp [Entries.ofList, Entries.get?_insert, Json.joinText?]

theorem joinText?_temporal (t : ScalarType) (c : Cell) :
    (temporalEnvelope t c).joinText? = some (c.text?.getD "") := by
  rw [temporalEnvelope, Json.joinText?_object]
  simp [Entries.ofList, Entries.get?_insert, Json.joinText?]

theorem joinText?_bytes (bs : List UInt8) : (bytesEnvelope bs).joinText? = none := by
  rw [bytesEnvelope, Json.joinText?_object]
  simp [Entries.ofList, Entries.get?_insert, Entries.get?]

/-! ## The text of a cell -/

theorem json_key (h : c.IsKey admits type) : json source type c = pure (singleJson type c) := by
  cases h with
  | leaf h => exact json_leaf h
  | moment h => exact json_scalar _ c

/-- Rows are joined by the text of the cell, unless it holds bytes. -/
theorem joinText?_key (h : c.IsKey admits type) (other : type ≠ .scalar .bytea) :
    (singleJson type c).joinText? = c.text? := by
  cases h with
  | leaf h =>
    cases h with
    | plain h =>
      cases h with
      | smallInt n | integer n | bigInt n => rfl
      | boolean b => cases b <;> rfl
      | text s | xml s | bit _ s | varBit _ s | address _ =>
        show (Cell.text _).plainJson.joinText? = _
        rw [Cell.plainJson_text, Cell.text?_text]
        rfl
      | uuid u => exact joinText?_uuid u
      | bytea bs => exact absurd rfl other
    | label _ =>
      show (Cell.text _).plainJson.joinText? = _
      rw [Cell.plainJson_text, Cell.text?_text]
      rfl
  | moment h =>
    obtain ⟨text, written⟩ := h.exists_text
    rw [singleJson_temporal h.isTemporal h.isNull, joinText?_temporal, written, Option.getD_some]

theorem normal_leaf (h : c.IsLeaf admits type) : c.normal = c := by
  cases h with
  | plain h => cases h <;> rfl
  | label _ => rfl

/-- The text of a cell is converted to its normal form. -/
theorem ofText_key (h : c.IsKey (source.Admits s) type) :
    ∃ text, c.text? = some text ∧ ((ofText source type text).run s).1 = .ok c.normal := by
  cases h with
  | leaf h =>
    obtain ⟨text, written, read⟩ := ofText_leaf_yields h
    rw [normal_leaf h]
    exact ⟨text, written, read.value⟩
  | moment h =>
    obtain ⟨text, written, -, read⟩ := @back_moment σ source s _ _ h
    exact ⟨text, written, read⟩

/-- Cells with one text have one normal form. -/
theorem text?_eq_iff (ha : a.IsKey (source.Admits s) type) (hb : b.IsKey (source.Admits s) type) :
    a.text? = b.text? ↔ a.normal = b.normal := by
  refine ⟨fun same => ?_, fun same => ?_⟩
  · obtain ⟨text, written, first⟩ := ofText_key ha
    obtain ⟨_, other, second⟩ := ofText_key hb
    obtain rfl := Option.some.inj ((written.symm.trans same).trans other)
    exact Except.ok.inj (first.symm.trans second)
  · rw [← a.text?_normal, same, b.text?_normal]

/-! ## The text of a cell in a column -/

/-- The text by which rows are joined that have the cell in a column of the type, read in a state of the
source. -/
def joinText (source : SchemaSource σ) (type : ColumnType) (c : Cell) (t : σ) : Option String :=
  ((json source type c).run t).1.joinText?

theorem joinText_eq (h : c.IsKey admits type) (t : σ) :
    joinText source type c t = if type = .scalar .bytea then none else c.text? := by
  have shown : joinText source type c t = (singleJson type c).joinText? := by
    rw [joinText, json_key h]
    rfl
  rw [shown]
  split
  · rename_i binary
    subst binary
    cases h with
    | leaf h =>
      cases h with
      | plain h =>
        cases h with
        | bytea bs => exact joinText?_bytes bs
    | moment h => cases h
  · rename_i other
    exact joinText?_key h other

/-- Records whose columns have the cells are connected if both have the same text. -/
theorem connects_iff {r : Relationship} {record row : Record} {t u : σ}
    (own : Entries.get? r.localColumn record = some ((json source type a).run t).1)
    (other : Entries.get? r.remoteColumn row = some ((json source type b).run u).1) :
    r.connects record row = true ↔
      ∃ text, joinText source type a t = some text ∧ joinText source type b u = some text := by
  have first : Record.joinText? record r.localColumn = joinText source type a t := by
    rw [Record.joinText?, own]
    rfl
  have second : Record.joinText? row r.remoteColumn = joinText source type b u := by
    rw [Record.joinText?, other]
    rfl
  rw [Relationship.connects, first, second]
  cases joinText source type a t <;> simp

/-- Rows are joined by two values of a type, other than bytes, exactly if the values have one normal form, and
the text that they are joined by is converted to that. A value is its own normal form unless it has a leap
second within a minute. Bytes have no text, and no rows are joined by them. -/
theorem joinText_identifies (ha : a.IsKey (source.Admits s) type) (hb : b.IsKey (source.Admits s) type)
    (t u : σ) :
    (type ≠ .scalar .bytea → ∃ text other,
      joinText source type a t = some text ∧ joinText source type b u = some other ∧
      (text = other ↔ a.normal = b.normal) ∧ ((ofText source type text).run s).1 = .ok a.normal) ∧
    (∀ c : Cell, c.normal = c ↔ c.IsNormal) ∧
    (type = .scalar .bytea → joinText source type a t = none) ∧
    ∀ (r : Relationship) (record row : Record),
      Entries.get? r.localColumn record = some ((json source type a).run t).1 →
      Entries.get? r.remoteColumn row = some ((json source type b).run u).1 →
      (r.connects record row = true ↔ type ≠ .scalar .bytea ∧ a.normal = b.normal) := by
  obtain ⟨text, written, read⟩ := ofText_key ha
  obtain ⟨other, otherwritten, -⟩ := ofText_key hb
  have same : text = other ↔ a.normal = b.normal := by
    rw [← text?_eq_iff ha hb, written, otherwritten, Option.some.injEq]
  refine ⟨fun readable => ⟨text, other, ?_, ?_, same, read⟩, Cell.normal_eq_iff, fun binary => ?_,
    fun r record row own related => ?_⟩
  · rw [joinText_eq ha, if_neg readable, written]
  · rw [joinText_eq hb, if_neg readable, otherwritten]
  · rw [joinText_eq ha, if_pos binary]
  · rw [connects_iff own related, joinText_eq ha, joinText_eq hb, ← same, written, otherwritten]
    by_cases binary : type = .scalar .bytea
    · simp [binary]
    · simp [binary, eq_comm]

/-- Two labels of an enum that are declared. -/
theorem joinText_identifies_moods :
    (Cell.text "calm").IsKey (SchemaSource.Admits (.fixed moods) ()) (.enumeration "mood") ∧
    (Cell.text "null").IsKey (SchemaSource.Admits (.fixed moods) ()) (.enumeration "mood") ∧
    ((.enumeration "mood" ≠ ColumnType.scalar .bytea → ∃ text other,
        joinText (.fixed moods) (.enumeration "mood") (.text "calm") () = some text ∧
        joinText (.fixed moods) (.enumeration "mood") (.text "null") () = some other ∧
        (text = other ↔ Cell.text "calm" = .text "null") ∧
        ((ofText (.fixed moods) (.enumeration "mood") text).run ()).1 = .ok (.text "calm")) ∧
      (∀ c : Cell, c.normal = c ↔ c.IsNormal) ∧
      (.enumeration "mood" = ColumnType.scalar .bytea →
        joinText (.fixed moods) (.enumeration "mood") (.text "calm") () = none) ∧
      ∀ (r : Relationship) (record row : Record),
        Entries.get? r.localColumn record =
          some ((json (.fixed moods) (.enumeration "mood") (.text "calm")).run ()).1 →
        Entries.get? r.remoteColumn row =
          some ((json (.fixed moods) (.enumeration "mood") (.text "null")).run ()).1 →
        (r.connects record row = true ↔
          .enumeration "mood" ≠ ColumnType.scalar .bytea ∧ Cell.text "calm" = .text "null")) := by
  have declared (label : String) (h : label ∈ ["calm", "null", "\x7b\x7d"]) :
      (Cell.text label).IsKey (SchemaSource.Admits (.fixed moods) ()) (.enumeration "mood") := by
    refine .leaf (.label (SchemaSource.admits_fixed.mpr fun labels known => ?_))
    cases known
    exact h
  have calm := declared "calm" (by decide)
  have null := declared "null" (by decide)
  exact ⟨calm, null, joinText_identifies calm null () ()⟩

/-- Two times that differ have one text. -/
example : joinText (.fixed {}) (.scalar .time) (.time strayLeap) () =
    joinText (.fixed {}) (.scalar .time) (.time ⟨23, 56, 5, 333333333, by decide⟩) () := by
  have typed (t : Calendar.Clock) : (Cell.time t).IsKey (fun _ _ => True) (.scalar .time) := .moment (.time t)
  rw [joinText_eq (typed _), joinText_eq (typed _)]
  exact congrArg _ (Cell.text?_normal (.time strayLeap)).symm

/-- Bytes that are the same are not joined. -/
theorem bytes_apart :
    (Cell.bytes [1, 2]).IsKey (SchemaSource.Admits (.fixed {}) ()) (.scalar .bytea) ∧
    joinText (.fixed {}) (.scalar .bytea) (.bytes [1, 2]) () = none := by
  have typed : (Cell.bytes [1, 2]).IsKey (SchemaSource.Admits (.fixed {}) ()) (.scalar .bytea) :=
    .leaf (.plain (.bytea [1, 2]))
  exact ⟨typed, joinText_eq typed ()⟩

end Convert
end TableGateway
