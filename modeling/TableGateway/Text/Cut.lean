import TableGateway.Text.Blank

/-!
# Cutting text

Splitting at a separator, taking fixed text off either end, searching, and comparison that does
not see the case of the ASCII letters.
-/
namespace TableGateway.Text

/-- The parts before and after the first `sep`. -/
def cut? (sep : Char) : List Char → Option (List Char × List Char)
  | [] => none
  | c :: cs => if c = sep then some ([], cs) else (cut? sep cs).map fun (a, b) => (c :: a, b)

def cutString? (sep : Char) (s : String) : Option (String × String) :=
  (cut? sep s.toList).map fun (a, b) => (String.ofList a, String.ofList b)

/-- The rest of a text that begins with `lead`. -/
def dropLead? : List Char → List Char → Option (List Char)
  | [], cs => some cs
  | _ :: _, [] => none
  | l :: ls, c :: cs => if l = c then dropLead? ls cs else none

/-- The start of a text that ends with `tail`. -/
def dropTail? (tail cs : List Char) : Option (List Char) :=
  (dropLead? tail.reverse cs.reverse).map List.reverse

/-- The inside of a text that begins with `opening` and goes on to end with `closing`. -/
def unwrap? (opening closing : Char) (cs : List Char) : Option (List Char) :=
  (dropLead? [opening] cs).bind (dropTail? [closing])

/-- `needle` stands somewhere in the text. -/
def holds (needle : List Char) : List Char → Bool
  | [] => needle.isEmpty
  | c :: cs => (dropLead? needle (c :: cs)).isSome || holds needle cs

/-- The ASCII capitals replaced by their small letters. -/
def lower (cs : List Char) : List Char := cs.map Char.toLower

def lowered (s : String) : String := String.ofList (lower s.toList)

/-- Equal up to the case of ASCII letters. -/
def sameCaseless (a b : List Char) : Bool := lower a == lower b

/-- Split at every `sep`, trim the parts, and drop the empty ones. -/
def items (sep : Char) (cs : List Char) : List (List Char) :=
  ((cs.splitOn sep).map trim).filter (!·.isEmpty)

theorem cut?_eq_some {sep : Char} {cs a b : List Char} (h : cut? sep cs = some (a, b)) :
    cs = a ++ sep :: b ∧ sep ∉ a := by
  induction cs generalizing a with
  | nil => simp [cut?] at h
  | cons c cs ih =>
    by_cases hc : c = sep
    · simp only [cut?, if_pos hc, Option.some.injEq, Prod.mk.injEq] at h
      obtain ⟨rfl, rfl⟩ := h
      simp [hc]
    · simp only [cut?, if_neg hc, Option.map_eq_some_iff, Prod.mk.injEq, Prod.exists] at h
      obtain ⟨a', b', h, rfl, rfl⟩ := h
      obtain ⟨rfl, hn⟩ := ih h
      simp [hn]; exact fun e => hc e.symm

theorem cut?_append {sep : Char} {a : List Char} (b : List Char) (h : sep ∉ a) :
    cut? sep (a ++ sep :: b) = some (a, b) := by
  induction a with
  | nil => simp [cut?]
  | cons c cs ih =>
    simp only [List.mem_cons, not_or] at h
    simp [cut?, Ne.symm h.1, ih h.2]

theorem cut?_eq_none_iff {sep : Char} {cs : List Char} : cut? sep cs = none ↔ sep ∉ cs := by
  induction cs with
  | nil => simp [cut?]
  | cons c cs ih =>
    by_cases hc : c = sep
    · simp [cut?, hc]
    · simp [cut?, hc, Ne.symm hc, ih]

theorem dropLead?_eq_some_iff {lead cs rest : List Char} :
    dropLead? lead cs = some rest ↔ cs = lead ++ rest := by
  induction lead generalizing cs with
  | nil => simp [dropLead?]
  | cons l ls ih =>
    cases cs with
    | nil => simp [dropLead?]
    | cons c cs =>
      by_cases h : l = c
      · simp [dropLead?, h, ih]
      · simp [dropLead?, h, Ne.symm h]

theorem dropTail?_eq_some_iff {tail cs start : List Char} :
    dropTail? tail cs = some start ↔ cs = start ++ tail := by
  simp only [dropTail?, Option.map_eq_some_iff, dropLead?_eq_some_iff]
  constructor
  · rintro ⟨r, h, rfl⟩
    have := congrArg List.reverse h
    simpa using this
  · rintro rfl
    exact ⟨start.reverse, by simp, by simp⟩

theorem unwrap?_eq_some_iff {opening closing : Char} {cs inner : List Char} :
    unwrap? opening closing cs = some inner ↔ cs = opening :: inner ++ [closing] := by
  simp [unwrap?, Option.bind_eq_some_iff, dropLead?_eq_some_iff, dropTail?_eq_some_iff]

end TableGateway.Text
