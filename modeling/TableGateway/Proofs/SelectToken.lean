import TableGateway.Proofs.Outcome
import TableGateway.Proofs.Parentheses

/-!
# Select lists, field by field

What a text must be like to be read as a field, and a list of texts as a select list. Main statements:
`Select.token_eq_ok_iff`, `Select.list_eq_ok_iff`.
-/
namespace TableGateway.Select

open Text (isBlank)

variable {fuel : Nat} {cs : List Char} {f : Field} {fields : List Field}

/-- The text is read as the field, whose relations within are nested at most `fuel` deep. -/
inductive TokenForm : Nat → List Char → Field → Prop where
  | wildcard {fuel : Nat} : TokenForm fuel ['*'] .wildcard
  | column {fuel : Nat} {cs : List Char} (closed : '(' ∉ cs) (other : cs ≠ ['*']) :
    TokenForm fuel cs (.column (String.ofList cs))
  | relation {fuel : Nat} {front inner name : List Char} {label : Option (List Char)} {children : List Field}
    (closed : '(' ∉ front) (parted : head front = (label, name)) (named : name ≠ [])
    (labelled : ∀ text ∈ label, text ≠ []) (within : list fuel inner = .ok children) :
    TokenForm (fuel + 1) (front ++ '(' :: inner ++ [')'])
      (.relation (String.ofList name) (label.map String.ofList) children [])

/-- Neither the name nor the label is missing. -/
theorem isNamed_iff {label : Option (List Char)} {name : List Char} :
    (name.isEmpty || label.any List.isEmpty) = false ↔ name ≠ [] ∧ ∀ text ∈ label, text ≠ [] := by
  cases label <;> simp

theorem token_eq_ok_iff : token fuel cs = .ok f ↔ TokenForm fuel cs f := by
  constructor
  · intro h
    rw [token] at h
    split at h
    · rename_i star
      cases h
      exact star ▸ .wildcard
    · rename_i other
      split at h
      · rename_i closed
        cases h
        exact .column (Text.cut?_eq_none_iff.mp closed) other
      · rename_i front back cut
        obtain ⟨rfl, closed⟩ := Text.cut?_eq_some cut
        split at h
        · cases h
        · rename_i inner dropped
          obtain rfl := Text.dropTail?_eq_some_iff.mp dropped
          simp only at h
          split at h
          · cases h
          · rename_i named
            split at h
            · cases h
            · rename_i fuel
              obtain ⟨some, labelled⟩ := isNamed_iff.mp (Bool.eq_false_iff.mpr named)
              cases within : list fuel inner with
              | error e =>
                rw [within] at h
                cases h
              | ok children =>
                rw [within] at h
                cases h
                rw [← List.cons_append, ← List.append_assoc]
                exact .relation closed rfl some labelled within
  · intro h
    cases h with
    | wildcard =>
      rw [token]
      simp
    | column closed other =>
      rw [token, if_neg other, Text.cut?_eq_none_iff.mpr closed]
    | @relation fuel front inner name label children closed parted named labelled within =>
      have other : front ++ '(' :: inner ++ [')'] ≠ ['*'] := by
        intro same
        have opening : '(' ∈ front ++ '(' :: inner ++ [')'] := by simp
        rw [same] at opening
        exact absurd opening (by decide)
      have cut : Text.cut? '(' (front ++ '(' :: inner ++ [')']) = some (front, inner ++ [')']) := by
        rw [List.append_assoc]
        exact Text.cut?_append (inner ++ [')']) closed
      rw [token, if_neg other, cut]
      simp only [Text.dropTail?_eq_some_iff.mpr rfl, parted, isNamed_iff.mpr ⟨named, labelled⟩, within]
      rfl

/-- The text is blank, for all columns, or its parts are the texts of the fields. -/
theorem list_eq_ok_iff : list (fuel + 1) cs = .ok fields ↔
    (∀ c ∈ cs, isBlank c = true) ∧ fields = [.wildcard] ∨
    ¬ (∀ c ∈ cs, isBlank c = true) ∧ (Balanced 0 cs ∧ height 0 cs ≤ maxNesting) ∧
      List.Forall₂ (TokenForm fuel) (splitTopLevel cs) fields := by
  have forms : List.Forall₂ (TokenForm fuel) (splitTopLevel cs) fields ↔
      (splitTopLevel cs).mapM (token fuel) = .ok fields := by
    rw [mapM_eq_ok_iff]
    simp only [token_eq_ok_iff]
  rw [list, forms, ← checkBalanced_eq_ok_iff, ← List.all_eq_true]
  by_cases blank : cs.all isBlank = true
  · rw [if_pos blank]
    simp [blank, eq_comm]
  · rw [if_neg blank]
    cases checkBalanced cs with
    | error e => simp [blank]
    | ok u => simp [blank]

end TableGateway.Select
