import TableGateway.Proofs.CalendarText
import TableGateway.Proofs.DocumentRoundTrip

/-!
# Dates, times and points in time written back

A date, a time of day or a point in time without a zone becomes itself again, both from its document and from
its text, unless it has a leap second within a minute: that becomes the second after it, whose text it has.
With a zone this is so in the years of four digits only: any other year is printed with a sign, which the
reading of a time with an offset does not know, and the reading that knows signs does not know offsets. Such
a point in time comes back as a text. Main statements: `Convert.roundTrip_moment`, `Convert.roundTrip_zoned`.
-/
namespace TableGateway

open Calendar (Date Clock Timestamp isPlainYear isPlainYear_iff isStampChar stampChar_not_isBlank)

/-- The cell is a date, a time of day or a point in time without a zone, of the type. -/
inductive Cell.IsMoment : ScalarType → Cell → Prop where
  | date (d : Date) : IsMoment .date (.date d)
  | time (t : Clock) : IsMoment .time (.time t)
  | timestamp (t : Timestamp) : IsMoment .timestamp (.timestamp t)

/-- The cell with its time in normal form. -/
def Cell.normal : Cell → Cell
  | .time t => .time t.normal
  | .timestamp t => .timestamp t.normal
  | .timestampTz t => .timestampTz t.normal
  | c => c

/-- A leap second of the cell stands at the end of its minute. -/
def Cell.IsNormal : Cell → Prop
  | .time t => t.IsNormal
  | .timestamp t | .timestampTz t => t.time.IsNormal
  | _ => True

theorem Cell.normal_eq_iff (c : Cell) : c.normal = c ↔ c.IsNormal := by
  cases c with
  | time t => exact Cell.time.injEq .. ▸ Clock.normal_eq_iff
  | timestamp t => exact Cell.timestamp.injEq .. ▸ Timestamp.normal_eq_iff
  | timestampTz t => exact Cell.timestampTz.injEq .. ▸ Timestamp.normal_eq_iff
  | _ => exact iff_of_true rfl trivial

/-- The normal form of a cell has the same text. -/
theorem Cell.text?_normal (c : Cell) : c.normal.text? = c.text? := by
  cases c with
  | time t => simp [normal, text?, chars?, t.chars_normal]
  | timestamp t => simp [normal, text?, chars?, t.chars_normal]
  | timestampTz t => simp [normal, text?, chars?, Timestamp.zonedChars, t.chars_normal]
  | _ => rfl

namespace Cell.IsMoment

variable {type : ScalarType} {c : Cell}

theorem isTemporal (h : c.IsMoment type) : type.isTemporal = true := by
  cases h <;> rfl

theorem isNull (h : c.IsMoment type) : c.isNull = false := by
  cases h <;> rfl

theorem exists_text (h : c.IsMoment type) : ∃ text, c.text? = some text := by
  cases h <;> exact ⟨_, rfl⟩

end Cell.IsMoment

namespace Convert

variable {σ : Type} {source : SchemaSource σ} {s : σ} {type : ScalarType} {c : Cell}

/-! ## The text that counts -/

theorem envelopeText?_temporal (type : ScalarType) (c : Cell) :
    envelopeText? (temporalEnvelope type c) = some (c.text?.getD "") := by
  have value (kind text : String) :
      Entries.get? "value" (Entries.ofList [("type", Json.str kind), ("value", .str text)]) =
        some (.str text) := by
    simp [Entries.ofList, Entries.get?_insert]
  simp only [temporalEnvelope, Json.object, envelopeText?, value, Option.bind_some, Json.str?]

theorem json_scalar (type : ScalarType) (c : Cell) :
    json source (.scalar type) c = pure (singleJson (.scalar type) c) := by
  cases c <;> rfl

theorem scalar_of_temporal (temporal : type.isTemporal = true) (v : Json) :
    scalar type v = Convert.temporal type v := by
  cases type <;> first | rfl | cases temporal

theorem singleJson_temporal (temporal : type.isTemporal = true) (valued : c.isNull = false) :
    singleJson (.scalar type) c = temporalEnvelope type c := by
  simp [singleJson, valued, scalarJson, temporal]

/-- A cell comes back, from its document as from its text, as what its text is read as. -/
theorem back_temporal {text : String} {d : Cell} (temporal : type.isTemporal = true)
    (valued : c.isNull = false) (shown : c.text? = some text) (read : temporalCell type text = d) :
    ((roundTrip source (.scalar type) c).run s).1 = .ok d ∧
    ((ofText source (.scalar type) text).run s).1 = .ok d := by
  have document : roundTrip source (.scalar type) c = pure d := by
    rw [roundTrip_eq (json_scalar type c), singleJson_temporal temporal valued]
    show known (scalar type (temporalEnvelope type c)) = _
    rw [scalar_of_temporal temporal, Convert.temporal, envelopeText?_temporal, shown, Option.getD_some,
      ← read]
    rfl
  have parameter : ofText source (.scalar type) text = pure d := by
    rw [ofText_scalar, scalar_of_temporal temporal, ← read]
    rfl
  rw [document, parameter]
  exact ⟨rfl, rfl⟩

/-! ## Without a zone -/

/-- The text of a moment is read as its normal form. -/
theorem temporalCell_moment (h : c.IsMoment type) :
    ∃ text, c.text? = some text ∧ temporalCell type text = c.normal := by
  have untouched {cs : List Char} (stamp : ∀ x ∈ cs, isStampChar x = true) : Text.trim cs = cs :=
    Text.trim_eq_self fun x hx => stampChar_not_isBlank (stamp x hx)
  cases h with
  | date d =>
    refine ⟨_, rfl, ?_⟩
    simp [temporalCell, untouched d.chars_stamp, Timestamp.read?_date, Cell.normal]
  | time t =>
    refine ⟨_, rfl, ?_⟩
    simp [temporalCell, untouched t.chars_stamp, t.read?_chars, Cell.normal]
  | timestamp t =>
    refine ⟨_, rfl, ?_⟩
    simp [temporalCell, untouched t.chars_stamp, t.read?_chars, Cell.normal]

/-- A moment comes back as its normal form. -/
theorem back_moment (h : c.IsMoment type) :
    ∃ text, c.text? = some text ∧ ((roundTrip source (.scalar type) c).run s).1 = .ok c.normal ∧
      ((ofText source (.scalar type) text).run s).1 = .ok c.normal := by
  obtain ⟨text, shown, read⟩ := temporalCell_moment h
  exact ⟨text, shown, back_temporal h.isTemporal h.isNull shown read⟩

/-- What a moment becomes when its document is written back, and when its text is taken from a URL, is its
normal form. So it is itself again exactly if it has no leap second within a minute. -/
theorem roundTrip_moment (h : c.IsMoment type) :
    ((roundTrip source (.scalar type) c).run s).1 = .ok c.normal ∧
    (∃ text, c.text? = some text ∧ ((ofText source (.scalar type) text).run s).1 = .ok c.normal) ∧
    (c.normal = c ↔ c.IsNormal) := by
  obtain ⟨text, shown, document, parameter⟩ := back_moment h
  exact ⟨document, ⟨text, shown, parameter⟩, c.normal_eq_iff⟩

/-- A leap second at the end of a day, long ago. -/
def idesOfMarch : Timestamp := ⟨⟨-44, 3, 15, by decide⟩, ⟨23, 59, 59, 1000001000, by decide⟩⟩

theorem roundTrip_leapSecond :
    (Cell.timestamp idesOfMarch).IsMoment .timestamp ∧
    ((roundTrip (.fixed {}) (.scalar .timestamp) (.timestamp idesOfMarch)).run ()).1 =
      .ok (.timestamp idesOfMarch) ∧
    ∃ text, (Cell.timestamp idesOfMarch).text? = some text ∧
      ((ofText (.fixed {}) (.scalar .timestamp) text).run ()).1 = .ok (.timestamp idesOfMarch) := by
  obtain ⟨document, ⟨text, shown, parameter⟩, same⟩ :=
    @roundTrip_moment Unit (.fixed {}) () _ _ (.timestamp idesOfMarch)
  have normal : (Cell.timestamp idesOfMarch).normal = .timestamp idesOfMarch := same.mpr (.inr rfl)
  rw [normal] at document parameter
  exact ⟨.timestamp idesOfMarch, document, text, shown, parameter⟩

def strayLeap : Clock := ⟨23, 56, 4, 1333333333, by decide⟩

/-- Its text is that of the second after it, and it becomes that one both ways. -/
theorem strayLeap_lost :
    (Cell.time strayLeap).text? = some "23:56:05.333333333" ∧
    ((roundTrip (.fixed {}) (.scalar .time) (.time strayLeap)).run ()).1 =
      .ok (.time ⟨23, 56, 5, 333333333, by decide⟩) ∧
    ((roundTrip (.fixed {}) (.scalar .time) (.time strayLeap)).run ()).1 ≠ .ok (.time strayLeap) ∧
    ((ofText (.fixed {}) (.scalar .time) "23:56:05.333333333").run ()).1 ≠ .ok (.time strayLeap) := by
  have shown : (Cell.time strayLeap).text? = some "23:56:05.333333333" :=
    congrArg some (by decide : String.ofList strayLeap.chars = _)
  obtain ⟨text, written, document, parameter⟩ :=
    @back_moment Unit (.fixed {}) () _ _ (.time strayLeap)
  obtain rfl : text = "23:56:05.333333333" := Option.some.inj (written.symm.trans shown)
  have changed : (Cell.time strayLeap).normal ≠ .time strayLeap :=
    mt (Cell.normal_eq_iff _).mp (by decide : ¬ strayLeap.IsNormal)
  refine ⟨shown, document.trans rfl, ?_, ?_⟩
  · rw [document]
    exact fun same => changed (Except.ok.inj same)
  · rw [parameter]
    exact fun same => changed (Except.ok.inj same)

/-! ## With a zone -/

/-- What a point in time of the prime meridian is read back as. -/
def zonedBack (t : Timestamp) : Cell :=
  if isPlainYear t.date.year then .timestampTz t.normal else .text (String.ofList t.zonedChars)

theorem temporalCell_zoned (t : Timestamp) :
    temporalCell .timestampTz (String.ofList t.zonedChars) = zonedBack t := by
  have untouched : Text.trim t.zonedChars = t.zonedChars :=
    Text.trim_eq_self fun x hx => stampChar_not_isBlank (t.zonedChars_stamp x hx)
  -- the reading without an offset never helps
  simp only [temporalCell, String.toList_ofList, untouched, t.read?_zonedChars, Option.or_none,
    t.readZoned?_zonedChars, zonedBack]
  split <;> rfl

theorem zonedBack_eq_iff (t : Timestamp) :
    zonedBack t = .timestampTz t ↔ (0 ≤ t.date.year ∧ t.date.year ≤ 9999) ∧ t.time.IsNormal := by
  rw [← isPlainYear_iff, ← Timestamp.normal_eq_iff, zonedBack]
  split
  · rename_i plain
    simp [plain]
  · rename_i signed
    simp [signed]

/-- A point in time of the prime meridian is itself again, from its document as from its text, in exactly
the years that are written with four digits and no sign, unless it has a leap second within a minute. In
any other year its text is all that is left, and such a leap second becomes the second after it. -/
theorem roundTrip_zoned (t : Timestamp) :
    ((roundTrip source (.scalar .timestampTz) (.timestampTz t)).run s).1 = .ok (zonedBack t) ∧
    (∃ text, (Cell.timestampTz t).text? = some text ∧
      ((ofText source (.scalar .timestampTz) text).run s).1 = .ok (zonedBack t)) ∧
    (zonedBack t = .timestampTz t ↔ (0 ≤ t.date.year ∧ t.date.year ≤ 9999) ∧ t.time.IsNormal) := by
  obtain ⟨document, parameter⟩ :=
    back_temporal (c := .timestampTz t) rfl rfl rfl (temporalCell_zoned t)
  exact ⟨document, ⟨_, rfl, parameter⟩, zonedBack_eq_iff t⟩

/-- A point in time in a year of five digits. -/
def farFuture : Timestamp := ⟨⟨12024, 1, 1, by decide⟩, .midnight⟩

/-- It is lost both ways. -/
theorem farFuture_lost :
    (Cell.timestampTz farFuture).text? = some "+12024-01-01T00:00:00+00:00" ∧
    ((roundTrip (.fixed {}) (.scalar .timestampTz) (.timestampTz farFuture)).run ()).1 =
      .ok (.text "+12024-01-01T00:00:00+00:00") ∧
    ((roundTrip (.fixed {}) (.scalar .timestampTz) (.timestampTz farFuture)).run ()).1 ≠
      .ok (.timestampTz farFuture) ∧
    ((ofText (.fixed {}) (.scalar .timestampTz) "+12024-01-01T00:00:00+00:00").run ()).1 ≠
      .ok (.timestampTz farFuture) := by
  have text : String.ofList farFuture.zonedChars = "+12024-01-01T00:00:00+00:00" := by decide
  have shown : (Cell.timestampTz farFuture).text? = some "+12024-01-01T00:00:00+00:00" :=
    congrArg some text
  have back : zonedBack farFuture = .text "+12024-01-01T00:00:00+00:00" :=
    congrArg Cell.text text
  have read := temporalCell_zoned farFuture
  rw [text, back] at read
  obtain ⟨document, parameter⟩ :=
    @back_temporal Unit (.fixed {}) () _ (.timestampTz farFuture) _ _ rfl rfl shown read
  refine ⟨shown, document, ?_, ?_⟩
  · rw [document]
    exact nofun
  · rw [parameter]
    exact nofun

end Convert
end TableGateway
