import TableGateway.Naming
import TableGateway.Proofs.Encoding
import TableGateway.Proofs.Outcome
import TableGateway.Statement.Condition
import TableGateway.Text.Word

/-!
# The names of a table

What a name in a request is resolved to is a column of the table, or a table of the snapshot. The
names of a table are those that statements about it may be written with: its own, and those of its
columns and of their types. Main statement: the names of a tidy table are made of few characters
(`Table.Tidy.chars`).
-/
namespace TableGateway

/-! ## Resolution -/

/-- A text is resolved to the column of that name. -/
theorem Table.resolve_eq_ok {table : Table} {name : String} {column : Column}
    (h : table.resolve name = .ok column) :
    column ∈ table.columns ∧ column.name = Text.trimmed name ∧ isName column.name = true := by
  unfold resolve at h
  simp only at h
  split at h
  · cases h
  · rename_i proper
    split at h
    · rename_i found
      cases h
      have same : column.name = Text.trimmed name := by simpa using List.find?_some found
      exact ⟨List.mem_of_find?_eq_some found, same, by rw [same]; simpa using proper⟩
    · cases h

/-- A text that is no column is a fault of the client. -/
theorem Table.resolve_outcome (table : Table) (name : String) :
    Outcome (· ∈ table.columns) (·.isValidation = true) (table.resolve name) := by
  cases h : table.resolve name with
  | ok column => exact .ok (resolve_eq_ok h).1
  | error e =>
    unfold resolve at h
    simp only at h
    split at h
    · cases h
      exact .error rfl
    · split at h
      · cases h
      · cases h
        exact .error rfl

theorem Entries.mem_of_get? {α : Type} {key : String} {v : α} : ∀ {entries : Entries α},
    entries.get? key = some v → (key, v) ∈ entries
  | (k, w) :: rest, h => by
    simp only [get?] at h
    split at h
    · rename_i same
      cases h
      simp [same]
    · exact List.mem_cons_of_mem _ (mem_of_get? h)

/-- The value of the only entry under its name is found there. -/
theorem Entries.get?_of_mem {α : Type} {key : String} {v : α} : ∀ {entries : Entries α},
    (Entries.keys entries).Nodup → (key, v) ∈ entries → entries.get? key = some v
  | (k, w) :: rest, distinct, h => by
    obtain ⟨fresh, distinct⟩ := List.nodup_cons.mp distinct
    rcases List.mem_cons.mp h with same | h
    · cases same
      simp [get?]
    · have differs : k ≠ key := by
        rintro rfl
        exact fresh (List.mem_map.mpr ⟨_, h, rfl⟩)
      rw [get?, if_neg differs]
      exact get?_of_mem distinct h

/-- A table found by its name is a table of the snapshot. -/
theorem Snapshot.mem_of_table? {s : Snapshot} {name : String} {table : Table}
    (h : s.table? name = some table) : table ∈ s.tables.map (·.2) :=
  List.mem_map.mpr ⟨_, Entries.mem_of_get? h, rfl⟩

theorem Snapshot.resolve_eq_ok {s : Snapshot} {name : String} {table : Table}
    (h : s.resolve name = .ok table) : s.table? name = some table := by
  unfold resolve at h
  split at h
  · cases h
  · split at h
    · rename_i found
      cases h
      exact found
    · cases h

/-! ## Names -/

/-- The names of the type in casts: its own, and that of the innermost items of an array. -/
def ColumnType.names (type : ColumnType) : List String := [type.sqlName, type.baseElement.sqlName]

def Column.names (column : Column) : List String := column.name :: column.type.names

/-- The names of the table, and of its columns with their types. -/
def Table.names (table : Table) : List String := table.name :: table.columns.flatMap Column.names

theorem ColumnType.mark_names {type : ColumnType} {s : String} (h : s ∈ type.mark.cast) :
    s ∈ type.names := by
  cases type with
  | scalar t =>
    simp only [mark] at h
    split at h
    · simp_all [names, sqlName]
    · simp at h
  | _ => simp_all [names, mark]

theorem Table.mem_names {table : Table} {column : Column} (h : column ∈ table.columns) {s : String}
    (hs : s ∈ column.names) : s ∈ table.names :=
  List.mem_cons_of_mem _ (List.mem_flatMap.mpr ⟨column, h, hs⟩)

/-! ## Tidy tables -/

/-- A character that may stand in the name of a type. -/
def isTypeChar (c : Char) : Bool := Text.isWordChar c || c ∈ [' ', '(', ')', '[', ']']

/-- The names in a type that are not the gateway's own. -/
def ColumnType.givenNames : ColumnType → List String
  | scalar (.other name) | enumeration name | composite name => [name]
  | array element => element.givenNames
  | scalar _ | network _ => []

/-- The column has a proper name, and no unusual characters in the names of its type. -/
structure Column.Tidy (column : Column) : Prop where
  name : isName column.name = true
  type : ∀ s ∈ column.type.givenNames, s.toList.all isTypeChar = true

/-- The table has a proper name, and so have its columns. -/
structure Table.Tidy (table : Table) : Prop where
  name : isName table.name = true
  columns : ∀ column ∈ table.columns, column.Tidy

def Snapshot.Tidy (s : Snapshot) : Prop := ∀ table ∈ s.tables.map (·.2), table.Tidy

/-- The characters of names are letters and digits of ASCII, and the underscore. -/
theorem codes_of_isNameChar {c : Char} (h : isNameChar c = true) :
    ((65 ≤ c.toNat ∧ c.toNat ≤ 90 ∨ 97 ≤ c.toNat ∧ c.toNat ≤ 122) ∨
      48 ≤ c.toNat ∧ c.toNat ≤ 57) ∨ c = '_' := by
  rcases Bool.or_eq_true_iff.mp h with alphanumeric | underscore
  · rcases Bool.or_eq_true_iff.mp alphanumeric with letter | digit
    · rcases Bool.or_eq_true_iff.mp letter with upper | lower
      · exact .inl (.inl (.inl (of_decide_eq_true upper)))
      · obtain ⟨least, most⟩ := Bool.and_eq_true_iff.mp lower
        exact .inl (.inl (.inr ⟨of_decide_eq_true least, of_decide_eq_true most⟩))
    · exact .inl (.inr (Char.isDigit_iff_toNat.mp digit))
  · exact .inr (beq_iff_eq.mp underscore)

theorem isWordChar_of_isNameChar {c : Char} (h : isNameChar c = true) : Text.isWordChar c = true := by
  have ascii : c.toNat < 0x80 := by
    rcases codes_of_isNameChar h with ((upper | lower) | digit) | rfl
    · omega
    · omega
    · omega
    · decide
  simpa [Text.isWordChar, ascii, isNameChar] using h

/-- A name is made of the characters of names. -/
theorem isNameChar_of_isName {s : String} (h : isName s = true) : ∀ c ∈ s.toList, isNameChar c = true := by
  unfold isName at h
  intro c hc
  cases hs : s.toList with
  | nil => simp [hs] at hc
  | cons d ds =>
    rw [hs] at h hc
    simp only [Bool.and_eq_true, List.all_eq_true] at h
    rcases List.mem_cons.mp hc with rfl | hc
    · have := h.1.1
      simp only [isNameStart, isNameChar, Char.isAlphanum, Bool.or_eq_true] at this ⊢
      tauto
    · exact h.1.2 c hc

theorem not_isBlank_of_isNameChar {c : Char} (h : isNameChar c = true) : Text.isBlank c = false := by
  rcases codes_of_isNameChar h with codes | rfl
  · simp [Text.isBlank]
    omega
  · decide

/-- There is no white space around a name. -/
theorem trimmed_of_isName {s : String} (h : isName s = true) : Text.trimmed s = s := by
  rw [Text.trimmed, Text.trim_eq_self fun c hc => not_isBlank_of_isNameChar (isNameChar_of_isName h c hc),
    String.ofList_toList]

/-- The name of a column that was found names the column. -/
theorem Table.resolve_found {table : Table} {name : String} {column : Column}
    (h : table.resolve name = .ok column) : table.resolve column.name = .ok column := by
  obtain ⟨-, trimmed, named⟩ := Table.resolve_eq_ok h
  rw [← h]
  unfold resolve
  rw [trimmed_of_isName named, trimmed]

theorem isTypeChar_of_isName {s : String} (h : isName s = true) :
    ∀ c ∈ s.toList, isTypeChar c = true := by
  intro c hc
  simp [isTypeChar, isWordChar_of_isNameChar (isNameChar_of_isName h c hc)]

/-- The name of a type with a length. -/
theorem ScalarType.sized_chars {name : String} (h : ∀ c ∈ name.toList, isTypeChar c = true)
    (n : Option Nat) : ∀ c ∈ (sized name n).toList, isTypeChar c = true := by
  cases n with
  | none => exact h
  | some n =>
    have digits : ∀ c ∈ (toString n).toList, isTypeChar c = true := by
      intro c hc
      rw [show toString n = n.repr from rfl, Nat.toList_repr] at hc
      have digit : c.isDigit = true := Nat.isDigit_of_mem_toDigits (by decide) (by decide) hc
      have word : Text.isWordChar c = true :=
        isWordChar_of_isNameChar (by simp [isNameChar, Char.isAlphanum, digit])
      simp [isTypeChar, word]
    intro c hc
    simp only [sized, String.toList_append, List.mem_append] at hc
    rcases hc with ((hc | hc) | hc) | hc
    · exact h c hc
    · exact List.all_eq_true.mp (show "(".toList.all isTypeChar = true by decide) c hc
    · exact digits c hc
    · exact List.all_eq_true.mp (show ")".toList.all isTypeChar = true by decide) c hc

/-- The gateway's own names of types, and those that are given, are made of the characters of types. -/
theorem ColumnType.sqlName_chars : ∀ type : ColumnType,
    (∀ s ∈ type.givenNames, s.toList.all isTypeChar = true) →
      ∀ c ∈ type.sqlName.toList, isTypeChar c = true
  | array element, h => by
    intro c hc
    simp only [sqlName, String.toList_append, List.mem_append] at hc
    rcases hc with hc | hc
    · exact sqlName_chars element h c hc
    · exact List.all_eq_true.mp (show "[]".toList.all isTypeChar = true by decide) c hc
  | enumeration name, h => List.all_eq_true.mp (h name (by simp [givenNames]))
  | composite name, h => List.all_eq_true.mp (h name (by simp [givenNames]))
  | network kind, _ => by cases kind <;> exact List.all_eq_true.mp (by decide)
  | scalar type, h => by
    cases type with
    | other name => exact List.all_eq_true.mp (h name (by simp [givenNames]))
    | bit n => exact ScalarType.sized_chars (List.all_eq_true.mp (by decide)) n
    | varBit n => exact ScalarType.sized_chars (List.all_eq_true.mp (by decide)) n
    | _ => exact List.all_eq_true.mp (by decide)

theorem ColumnType.givenNames_baseElement (type : ColumnType) :
    type.baseElement.givenNames = type.givenNames := by
  induction type with
  | array element ih => exact ih
  | _ => rfl

/-- All names of a tidy table are made of the characters of types. -/
theorem Table.Tidy.chars {table : Table} (h : table.Tidy) :
    ∀ s ∈ table.names, ∀ c ∈ s.toList, isTypeChar c = true := by
  intro s hs
  rcases List.mem_cons.mp hs with rfl | hs
  · exact isTypeChar_of_isName h.name
  · obtain ⟨column, hcolumn, hs⟩ := List.mem_flatMap.mp hs
    have tidy := h.columns column hcolumn
    simp only [Column.names, ColumnType.names, List.mem_cons, List.not_mem_nil, or_false] at hs
    rcases hs with rfl | rfl | rfl
    · exact isTypeChar_of_isName tidy.name
    · exact ColumnType.sqlName_chars _ tidy.type
    · exact ColumnType.sqlName_chars _ (by rw [ColumnType.givenNames_baseElement]; exact tidy.type)

end TableGateway
