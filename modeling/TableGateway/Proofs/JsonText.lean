import Mathlib.Tactic.Common
import TableGateway.Json.Reader

/-!
# Texts of JSON strings

The text of a JSON string has its quotes and, for each character, at least one more. So no text writes
the string that it is itself. Main statement: `Json.read?_ne_str`.
-/
namespace TableGateway.Json

/-! ## Strings -/

/-- Hexadecimal digits take up characters. -/
theorem length_of_unit? {cs rest : List Char} {n : Nat} (h : unit? cs = some (n, rest)) :
    rest.length < cs.length := by
  unfold unit? at h
  split at h
  · split at h
    · cases h
      simp only [List.length_cons]
      omega
    · cases h
  · cases h

/-- An escape takes up characters. -/
theorem length_of_escape? {cs rest : List Char} {c : Char} (h : escape? cs = some (c, rest)) :
    rest.length < cs.length := by
  unfold escape? at h
  split at h
  case h_9 more =>
    obtain ⟨⟨high, after⟩, hhigh, h⟩ := Option.bind_eq_some_iff.mp h
    have first := length_of_unit? hhigh
    dsimp only at h
    split at h
    · split at h
      · obtain ⟨⟨low, last⟩, hlow, h⟩ := Option.bind_eq_some_iff.mp h
        have second := length_of_unit? hlow
        dsimp only at h
        split at h
        · obtain ⟨-, rfl⟩ := Prod.mk.inj (Option.some.inj h)
          simp only [List.length_cons] at first ⊢
          omega
        · cases h
      · cases h
    · split at h
      · cases h
      · obtain ⟨-, rfl⟩ := Prod.mk.inj (Option.some.inj h)
        simp only [List.length_cons]
        omega
  case h_10 => cases h
  all_goals
    cases h
    simp

/-- The characters of a string and its closing quote take up at least as many. -/
theorem length_of_stringBody {fuel : Nat} {cs s rest : List Char}
    (h : stringBody fuel cs = some (s, rest)) : s.length + rest.length < cs.length := by
  induction fuel generalizing cs s with
  | zero => cases h
  | succ fuel ih =>
    cases cs with
    | nil => cases h
    | cons c cs =>
      rw [stringBody] at h
      split at h
      · cases h
        simp
      · split at h
        · obtain ⟨⟨e, after⟩, hescape, h⟩ := Option.bind_eq_some_iff.mp h
          obtain ⟨⟨more, last⟩, hmore, same⟩ := Option.map_eq_some_iff.mp h
          cases same
          have first := length_of_escape? hescape
          have later := ih hmore
          simp only [List.length_cons]
          omega
        · split at h
          · cases h
          · obtain ⟨⟨more, last⟩, hmore, same⟩ := Option.map_eq_some_iff.mp h
            cases same
            have later := ih hmore
            simp only [List.length_cons]
            omega

/-! ## Numbers -/

theorem doubleOf?_not_str {negative : Bool} {start : Nat} {power : Int} {after rest : List Char}
    {v : Json} (h : (doubleOf? negative start power).map (·, after) = some (v, rest)) :
    v.str? = none := by
  obtain ⟨d, found, same⟩ := Option.map_eq_some_iff.mp h
  cases same
  obtain ⟨rounded, -, rfl⟩ := Option.map_eq_some_iff.mp found
  rfl

theorem unsignedNumber?_not_str {negative : Bool} {cs rest : List Char} {v : Json}
    (h : unsignedNumber? negative cs = some (v, rest)) : v.str? = none := by
  simp only [unsignedNumber?] at h
  split at h
  · cases h
  · split at h
    · -- a point
      split at h
      · cases h
      · obtain ⟨_, -, h⟩ := Option.bind_eq_some_iff.mp h
        exact doubleOf?_not_str h
    · split_ifs at h
      · -- an exponent
        obtain ⟨_, -, h⟩ := Option.bind_eq_some_iff.mp h
        exact doubleOf?_not_str h
      · exact doubleOf?_not_str h
      · cases h
        rfl
      · exact doubleOf?_not_str h
      · cases h
        rfl

theorem number?_not_str {cs rest : List Char} {v : Json} (h : number? cs = some (v, rest)) :
    v.str? = none := by
  unfold number? at h
  split at h
  · exact unsignedNumber?_not_str h
  · exact unsignedNumber?_not_str h

/-! ## Documents -/

/-- A document that is a string begins with a quote. -/
theorem quote_of_value? {fuel depth : Nat} {c : Char} {cs rest : List Char} {s : String}
    (h : value? (fuel + 1) depth (c :: cs) = some (str s, rest)) : c = '"' := by
  by_contra quote
  rw [value?.eq_def] at h
  simp only [if_neg quote] at h
  split_ifs at h
  case neg => exact nomatch number?_not_str h
  case' pos | pos =>
    -- an array or an object, which is empty or is built from what was read
    split at h
    · cases h
    · split at h
      · cases h
      · obtain ⟨_, -, same⟩ := Option.map_eq_some_iff.mp h
        cases same
  all_goals split at h <;> cases h

/-- A text that writes a string is longer than the string. -/
theorem length_of_value? {fuel depth : Nat} {cs rest : List Char} {s : String}
    (h : value? fuel depth cs = some (str s, rest)) : s.toList.length < cs.length := by
  cases fuel with
  | zero => cases h
  | succ fuel =>
    cases cs with
    | nil => cases h
    | cons c cs =>
      obtain rfl := quote_of_value? h
      rw [value?.eq_def] at h
      obtain ⟨⟨read, last⟩, hread, same⟩ := Option.map_eq_some_iff.mp h
      cases same
      have body := length_of_stringBody hread
      simp only [String.toList_ofList, List.length_cons]
      omega

/-- No text writes the string that it is itself. -/
theorem read?_ne_str (s : String) : read? s ≠ some (str s) := by
  intro h
  obtain ⟨⟨v, rest⟩, hv, h⟩ := Option.bind_eq_some_iff.mp h
  dsimp only at h
  split at h
  · cases h
    have shorter := length_of_value? hv
    have skipped : (skip s.toList).length ≤ s.toList.length := (List.dropWhile_suffix isSpace).length_le
    omega
  · cases h

end TableGateway.Json
