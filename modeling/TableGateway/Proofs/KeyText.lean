import TableGateway.Proofs.KeyScope

/-!
# Keys read back from their texts

A key is the texts of its parts with commas between them, and nothing marks a comma within a part. It is cut
apart at all of its commas, so a part with a comma in it makes more parts than the primary key has columns,
and the key is refused rather than misread. The key of one column is not cut. Main statement:
`Key.parse_encode`.
-/
namespace TableGateway

/-! ## Cutting what was joined -/

/-- There is one text more than there are separators. -/
theorem length_splitOn (sep : Char) (cs : List Char) : (cs.splitOn sep).length = cs.count sep + 1 := by
  induction cs with
  | nil => simp
  | cons c cs ih =>
    rw [List.splitOn_cons_eq_if_modifyHead]
    by_cases separates : c = sep
    · simp [separates, ih]
    · simp [separates, ih]

/-- Texts are cut apart again where they were joined, and at the separators within them. -/
theorem splitOn_intercalate_eq (sep : Char) : ∀ {parts : List (List Char)}, parts ≠ [] →
    ([sep].intercalate parts).splitOn sep = parts.flatMap (List.splitOn sep)
  | [], h => absurd rfl h
  | [part], _ => by simp
  | part :: next :: rest, _ => by
    have cut : ([sep].intercalate (part :: next :: rest)).splitOn sep =
        part.splitOn sep ++ ([sep].intercalate (next :: rest)).splitOn sep := by
      rw [List.intercalate_cons_cons, List.append_assoc]
      exact List.splitOn_append_cons_self part _
    rw [cut, splitOn_intercalate_eq sep (List.cons_ne_nil _ _)]
    rfl

/-- Cutting texts apart gives one more text for each separator within them. -/
theorem length_flatMap_splitOn (sep : Char) (parts : List (List Char)) :
    (parts.flatMap (List.splitOn sep)).length = parts.length + (parts.map (List.count sep)).sum := by
  induction parts with
  | nil => rfl
  | cons part rest ih =>
    simp only [List.flatMap_cons, List.length_append, length_splitOn, ih, List.length_cons, List.map_cons,
      List.sum_cons]
    omega

/-- Texts without separators stay as they are. -/
theorem flatMap_splitOn {sep : Char} : ∀ {parts : List (List Char)}, (∀ part ∈ parts, sep ∉ part) →
    parts.flatMap (List.splitOn sep) = parts
  | [], _ => rfl
  | part :: rest, h => by
    rw [List.forall_mem_cons] at h
    rw [List.flatMap_cons, List.splitOn_eq_singleton h.1, flatMap_splitOn h.2]
    rfl

namespace Key

variable {table : Table} {key : String} {values : List String}

/-! ## The parts of a key that was made -/

def commas (values : List String) : Nat := (values.map fun value => value.toList.count ',').sum

theorem commas_eq_zero_iff : commas values = 0 ↔ ∀ value ∈ values, ',' ∉ value.toList := by
  induction values with
  | nil => simp [commas]
  | cons value rest ih =>
    rw [List.forall_mem_cons, ← ih, ← List.count_eq_zero]
    simp [commas]

/-- The text of a key of one column is its part, commas and all. -/
theorem parts_encode_of_single (single : table.key.length = 1) (width : values.length = table.key.length) :
    parts table (encode values) = values := by
  obtain ⟨value, rfl⟩ := List.length_eq_one_iff.mp (width.trans single)
  simp [parts, single, encode]

/-- The text of a key of more columns is cut at the commas in its parts as well. -/
theorem parts_encode_of_several (several : table.key.length ≠ 1) (some : values ≠ []) :
    parts table (encode values) =
      ((values.map String.toList).flatMap (List.splitOn ',')).map String.ofList := by
  rw [parts, if_neg several, encode, String.toList_ofList, splitOn_intercalate_eq _ (by simpa using some)]

theorem length_parts_encode (several : table.key.length ≠ 1) (some : values ≠ []) :
    (parts table (encode values)).length = values.length + commas values := by
  rw [parts_encode_of_several several some, List.length_map, length_flatMap_splitOn, List.length_map,
    List.map_map]
  rfl

/-- Texts that make a key with a part for each column are its parts. -/
theorem parts_encode_of_width (keyed : table.key ≠ []) (width : values.length = table.key.length)
    (fits : (parts table (encode values)).length = table.key.length) : parts table (encode values) = values := by
  by_cases single : table.key.length = 1
  · exact parts_encode_of_single single width
  · have some : values ≠ [] := by
      rintro rfl
      exact keyed (List.length_eq_zero_iff.mp width.symm)
    have whole : ∀ value ∈ values, ',' ∉ value.toList := by
      rw [← commas_eq_zero_iff]
      have := length_parts_encode single some
      omega
    rw [parts_encode_of_several single some, flatMap_splitOn (by simpa using whole), List.map_map]
    simp

/-- Texts that make a key of the table are its parts. -/
theorem parts_encode (width : values.length = table.key.length) (fits : Fits table (encode values)) :
    parts table (encode values) = values :=
  parts_encode_of_width fits.keyed width fits.width

/-! ## Reading a key that was made -/

/-- A text with too many or too few parts is refused for that, whatever the parts are. -/
theorem parse_of_width_ne (keyed : table.key ≠ []) (width : (parts table key).length ≠ table.key.length) :
    parse table key = .error (.keyMismatch table.key.length (parts table key).length) := by
  have cut : (if table.key.length = 1 then [key] else (key.toList.splitOn ',').map String.ofList) =
      parts table key := rfl
  simp only [parse, cut]
  simp [keyed, width]

/-- Texts make a key if none is blank, and, unless there is one only, none has a comma. -/
theorem fits_encode_iff (keyed : table.key ≠ []) (width : values.length = table.key.length) :
    Fits table (encode values) ↔ (∀ value ∈ values, Text.isBlankText value = false) ∧
      (table.key.length = 1 ∨ ∀ value ∈ values, ',' ∉ value.toList) := by
  have some : values ≠ [] := by
    rintro rfl
    exact keyed (List.length_eq_zero_iff.mp width.symm)
  constructor
  · intro fits
    have same := parts_encode width fits
    have filled := fits.filled
    rw [same] at filled
    refine ⟨filled, or_iff_not_imp_left.mpr fun several => ?_⟩
    rw [← commas_eq_zero_iff]
    have := length_parts_encode several some
    have := fits.width
    omega
  · rintro ⟨filled, whole⟩
    have same : parts table (encode values) = values := by
      rcases whole with single | whole
      · exact parts_encode_of_single single width
      · by_cases single : table.key.length = 1
        · exact parts_encode_of_single single width
        · refine parts_encode_of_width keyed width ?_
          rw [length_parts_encode single some, commas_eq_zero_iff.mpr whole, width]
          rfl
    exact ⟨keyed, by rw [same, width], by rwa [same]⟩

/-- The key of some texts, one for each column of the primary key, is read as these texts exactly if none of
them is blank and, unless there is one only, none has a comma in it. In all other cases it is refused, and
if there are commas for that reason. -/
theorem parse_encode (keyed : table.key ≠ []) (width : values.length = table.key.length) :
    (parse table (encode values) = .ok (table.key.zip values) ↔
      (∀ value ∈ values, Text.isBlankText value = false) ∧
        (table.key.length = 1 ∨ ∀ value ∈ values, ',' ∉ value.toList)) ∧
    (parse table (encode values) = .ok (table.key.zip values) ∨
      ∃ fault, parse table (encode values) = .error fault ∧ fault.isValidation = true) ∧
    (2 ≤ table.key.length → (∃ value ∈ values, ',' ∈ value.toList) →
      parse table (encode values) =
        .error (.keyMismatch table.key.length (table.key.length + commas values))) := by
  refine ⟨?_, ?_, fun several ⟨value, hvalue, comma⟩ => ?_⟩
  · rw [parse_eq_ok, ← fits_encode_iff keyed width]
    exact ⟨And.left, fun fits => ⟨fits, by rw [parts_encode width fits]⟩⟩
  · cases read : parse table (encode values) with
    | ok pairs =>
      obtain ⟨fits, rfl⟩ := parse_eq_ok.mp read
      exact .inl (by rw [parts_encode width fits])
    | error fault =>
      have outcome : Outcome _ (·.isValidation = true) (parse table (encode values)) := parse_columns _
      rw [read] at outcome
      exact .inr ⟨fault, rfl, outcome.of_error⟩
  · have length : (parts table (encode values)).length = values.length + commas values :=
      length_parts_encode (by omega) (List.ne_nil_of_mem hvalue)
    have commas : commas values ≠ 0 := fun none => commas_eq_zero_iff.mp none value hvalue comma
    rw [parse_of_width_ne keyed (by omega), length, width]

/-- A table whose rows are named by a region and a number. -/
def devicesTable : Table :=
  { name := "devices"
    columns := [{ Column.ofTag "region" "text" with isKey := true },
      { Column.ofTag "serial" "text" with isKey := true }, .ofTag "ratio" "numeric"] }

theorem parse_encode_devices :
    (devicesTable.key ≠ [] ∧ ["eu", "7"].length = devicesTable.key.length ∧
      ["eu,west", " "].length = devicesTable.key.length) ∧
    parse devicesTable (encode ["eu", "7"]) = .ok (devicesTable.key.zip ["eu", "7"]) ∧
    parse devicesTable (encode ["eu,west", " "]) = .error (.keyMismatch 2 3) := by
  have keyed : devicesTable.key ≠ [] := by decide
  refine ⟨⟨keyed, rfl, rfl⟩, ?_, ?_⟩
  · exact (parse_encode keyed rfl).1.mpr ⟨by decide, .inr (by decide)⟩
  · exact (parse_encode keyed rfl).2.2 (by decide) ⟨"eu,west", by decide, by decide⟩

end Key
end TableGateway
