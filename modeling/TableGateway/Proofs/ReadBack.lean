import TableGateway.Convert.Binding
import TableGateway.Proofs.Encoding

/-!
# Values read back from their texts

Integers and UUIDs are read from the text they are printed as, and so is a cell of an integer, text,
boolean or UUID column from the text in its cursor. Main statements: `Number.readInt?_intText`,
`Uuid.read?_chars`, `Convert.scalar_text`.
-/
namespace TableGateway

/-! ## Integers -/

namespace Number

theorem isDigit_eq (c : Char) : isDigit c = c.isDigit := by
  simp [isDigit, Char.isDigit, Char.le_def]

theorem natText_digits {n : Nat} : ∀ c ∈ natText n, isDigit c = true := by
  intro c hc
  rw [isDigit_eq]
  exact Nat.isDigit_of_mem_toDigits (by decide) (by decide) hc

theorem digits?_natText (n : Nat) : digits? (natText n) = some n := by
  have some : (natText n).isEmpty = false := by
    simp [natText, Nat.toDigits_ne_nil]
  have digits : (natText n).all isDigit = true := List.all_eq_true.mpr natText_digits
  have value : ofDigits (natText n) = n := Nat.ofDigitChars_ten_toDigits
  simp [digits?, some, digits, value]

theorem int64?_toInt (n : Int64) : int64? n.toInt = some n := by
  have least := n.le_toInt
  have most := n.toInt_lt
  have bounds : minInt ≤ n.toInt ∧ n.toInt ≤ maxInt := by
    unfold minInt maxInt
    omega
  rw [int64?, if_pos bounds, Int64.ofInt_toInt]

theorem readInt?_digits {n : Nat} : readInt? (natText n) = int64? n := by
  have digit := natText_digits (n := n)
  have read := digits?_natText n
  unfold readInt?
  split
  · rename_i rest h
    exact absurd (digit '-' (by simp [h])) (by decide)
  · rename_i rest h
    exact absurd (digit '+' (by simp [h])) (by decide)
  · rw [read, Option.bind_some]

/-- The text of a number is read as the number, if that fits. -/
theorem readInt?_intText_eq (n : Int) : readInt? (intText n) = int64? n := by
  cases n with
  | ofNat m => exact readInt?_digits
  | negSucc m =>
    rw [intText, readInt?, digits?_natText, Option.bind_some, Int.negSucc_eq]
    rfl

theorem readInt?_intText (n : Int64) : readInt? (intText n.toInt) = some n := by
  rw [readInt?_intText_eq, int64?_toInt]

theorem not_isBlank_of_isDigit {c : Char} (h : isDigit c = true) : Text.isBlank c = false := by
  simp only [isDigit, Bool.and_eq_true, decide_eq_true_eq, Char.le_def, UInt32.le_iff_toNat_le] at h
  have bounds : 48 ≤ c.toNat ∧ c.toNat ≤ 57 := h
  simp [Text.isBlank]
  omega

theorem intText_not_isBlank (n : Int) : ∀ c ∈ intText n, Text.isBlank c = false := by
  intro c hc
  cases n with
  | ofNat n => exact not_isBlank_of_isDigit (natText_digits c hc)
  | negSucc n =>
    rcases List.mem_cons.mp hc with rfl | hc
    · decide
    · exact not_isBlank_of_isDigit (natText_digits c hc)

end Number

/-! ## UUIDs -/

namespace Uuid

theorem digit?_digit (d : Fin 16) : digit? (Text.Hex.digit d.val) = some d := by
  simp [digit?, Text.Hex.value?_digit d.isLt]

theorem ofDigits?_digitChars (u : Uuid) : ofDigits? u.digitChars = some u := by
  have digits : ∀ ds : List (Fin 16),
      (ds.map fun d => Text.Hex.digit d.val).mapM digit? = some ds := by
    intro ds
    induction ds with
    | nil => rfl
    | cons d ds ih => simp [List.mapM_cons, digit?_digit, ih]
  simp [ofDigits?, digitChars, digits, u.length_digits]

/-- Five groups with hyphens between them are taken together. -/
theorem ungroup?_groups {a b c d e : List Char} (ha : a.length = 8) (hb : b.length = 4)
    (hc : c.length = 4) (hd : d.length = 4) (he : e.length = 12) :
    ungroup? (a ++ '-' :: b ++ '-' :: c ++ '-' :: d ++ '-' :: e) = some (a ++ b ++ c ++ d ++ e) := by
  have dropped : ∀ (n : Nat) {l : List Char}, l.length ≤ n → l.drop n = [] := fun n _ h =>
    List.drop_eq_nil_of_le h
  simp [ungroup?, ha, hb, hc, hd, he, List.drop_append, List.getElem?_append,
    dropped]

/-- The text of a UUID is read as the UUID. -/
theorem read?_chars (u : Uuid) : read? u.chars = some u := by
  have length : u.digitChars.length = 32 := by simp [digitChars, u.length_digits]
  have groups : ungroup? u.chars = some u.digitChars := by
    unfold chars
    rw [ungroup?_groups (by simp [length]) (by simp [length]) (by simp [length])
      (by simp [length]) (by simp [length])]
    simp only [← List.drop_drop, List.append_assoc, List.take_append_drop,
      show 12 = 8 + 4 from rfl, show 16 = 8 + 4 + 4 from rfl, show 20 = 8 + 4 + 4 + 4 from rfl]
  have size : u.chars.length = 36 := by simp [chars, length]
  simp [read?, size, groups, ofDigits?_digitChars]

theorem chars_not_isBlank (u : Uuid) : ∀ c ∈ u.chars, Text.isBlank c = false := by
  have digit : ∀ n : Fin 16, Text.isBlank (Text.Hex.digit n) = false := by decide
  have digits : ∀ c ∈ u.digitChars, Text.isBlank c = false := by
    simp only [digitChars, List.mem_map]
    rintro _ ⟨n, -, rfl⟩
    exact digit n
  simp only [chars, List.mem_append, List.mem_cons]
  intro c hc
  have hyphen : Text.isBlank '-' = false := by decide
  rcases hc with (((hc | rfl | hc) | rfl | hc) | rfl | hc) | rfl | hc
  · exact digits c (List.mem_of_mem_take hc)
  · exact hyphen
  · exact digits c (List.mem_of_mem_drop (List.mem_of_mem_take hc))
  · exact hyphen
  · exact digits c (List.mem_of_mem_drop (List.mem_of_mem_take hc))
  · exact hyphen
  · exact digits c (List.mem_of_mem_drop (List.mem_of_mem_take hc))
  · exact hyphen
  · exact digits c (List.mem_of_mem_drop hc)

end Uuid

/-! ## Cells -/

/-- The cell is a value of a type of integers, texts, truth values, UUIDs, dates or points in time. -/
inductive Cell.IsValue : ScalarType → Cell → Prop where
  | smallInt (n : Int64) : IsValue .smallInt (.int n)
  | integer (n : Int64) : IsValue .integer (.int n)
  | bigInt (n : Int64) : IsValue .bigInt (.int n)
  | text (s : String) : IsValue .text (.text s)
  | boolean (b : Bool) : IsValue .boolean (.bool b)
  | uuid (u : Uuid) : IsValue .uuid (.uuid u)
  | date (d : Calendar.Date) : IsValue .date (.date d)
  | timestamp (t : Calendar.Timestamp) : IsValue .timestamp (.timestamp t)

theorem Cell.IsValue.isNull {type : ScalarType} {c : Cell} (h : c.IsValue type) : c.isNull = false := by
  cases h <;> rfl

namespace Convert

/-- The text of an integer is converted to the integer. -/
theorem integer_text (n : Int64) : integer (.str (String.ofList (Number.intText n.toInt))) = .ok (.int n) := by
  simp only [integer, String.toList_ofList, Text.trim_eq_self (Number.intText_not_isBlank _),
    Number.readInt?_intText]

theorem uuid_text (u : Uuid) : uuid (.str (String.ofList u.chars)) = .ok (.uuid u) := by
  simp only [uuid, envelopeText?, String.toList_ofList, Text.trim_eq_self u.chars_not_isBlank,
    Uuid.read?_chars]

theorem boolean_text (b : Bool) : boolean (.str (if b then "true" else "false")) = .ok (.bool b) := by
  cases b <;> rfl

/-- Values other than dates and points in time are read from their texts. -/
theorem scalar_text {type : ScalarType} {c : Cell} (h : c.IsValue type)
    (timeless : type.isTemporal = false) :
    ∃ text, c.text? = some text ∧ scalar type (.str text) = .ok c := by
  cases h with
  | smallInt n => exact ⟨_, rfl, integer_text n⟩
  | integer n => exact ⟨_, rfl, integer_text n⟩
  | bigInt n => exact ⟨_, rfl, integer_text n⟩
  | text s => exact ⟨s, by simp [Cell.text?, Cell.chars?], rfl⟩
  | boolean b => exact ⟨if b then "true" else "false", by cases b <;> rfl, boolean_text b⟩
  | uuid u => exact ⟨_, rfl, uuid_text u⟩
  | date d => cases timeless
  | timestamp t => cases timeless

variable {σ : Type} (source : SchemaSource σ)

theorem ofText_scalar (type : ScalarType) (text : String) :
    ofText source (.scalar type) text = known (scalar type (.str text)) := by
  rw [ofText, alone, single]
  simp

end Convert
end TableGateway
