import TableGateway.Proofs.Trimming
import TableGateway.Query.Select

/-!
# Splitting at commas

A text is split at its commas outside parentheses. Parts whose parentheses match, without such commas,
are found again in the text that joins them; and closing parentheses behind a text belong to its last
part. Main statements: `Select.splitTopLevel_intercalate`, `Select.length_splitTopLevel_closing`.
-/
namespace TableGateway.Select

def depthAfter (depth : Nat) (c : Char) : Nat :=
  if c = '(' then depth + 1 else if c = ')' then depth - 1 else depth

theorem splitRaw_ne_nil : ∀ (depth : Nat) (cs : List Char), splitRaw depth cs ≠ []
  | _, [] => by simp [splitRaw]
  | depth, c :: cs => by
    rw [splitRaw]
    split
    · simp
    · simp only
      split <;> simp

theorem splitRaw_comma (cs : List Char) : splitRaw 0 (',' :: cs) = [] :: splitRaw 0 cs := by
  simp [splitRaw]

/-- A character at which the text is not split stands before the first part. -/
theorem splitRaw_cons {depth : Nat} {c : Char} (h : c ≠ ',' ∨ depth ≠ 0) {cs part : List Char}
    {parts : List (List Char)} (rest : splitRaw (depthAfter depth c) cs = part :: parts) :
    splitRaw depth (c :: cs) = (c :: part) :: parts := by
  have kept : ¬ ((c = ',' && depth = 0) = true) := by
    simpa only [Bool.and_eq_true, decide_eq_true_eq, not_and_or] using h
  rw [splitRaw, if_neg kept]
  rw [depthAfter] at rest
  simp only [rest]

/-- A character cuts off an empty part, or stands before the first part of what follows. -/
theorem splitRaw_cases (depth : Nat) (c : Char) (cs : List Char) :
    (c = ',' ∧ depth = 0 ∧ splitRaw depth (c :: cs) = [] :: splitRaw 0 cs) ∨
    ((c ≠ ',' ∨ depth ≠ 0) ∧ ∃ part parts, splitRaw (depthAfter depth c) cs = part :: parts ∧
      splitRaw depth (c :: cs) = (c :: part) :: parts) := by
  by_cases split : c = ',' ∧ depth = 0
  · obtain ⟨rfl, rfl⟩ := split
    exact .inl ⟨rfl, rfl, splitRaw_comma cs⟩
  · obtain ⟨part, parts, rest⟩ := List.exists_cons_of_ne_nil (splitRaw_ne_nil (depthAfter depth c) cs)
    have kept := not_and_or.mp split
    exact .inr ⟨kept, part, parts, rest, splitRaw_cons kept rest⟩

/-- The parts of a text between its commas, put together again, are the text. -/
theorem intercalate_splitRaw : ∀ (depth : Nat) (cs : List Char),
    [','].intercalate (splitRaw depth cs) = cs
  | _, [] => rfl
  | depth, c :: cs => by
    rcases splitRaw_cases depth c cs with ⟨rfl, rfl, cut⟩ | ⟨-, part, parts, rest, longer⟩
    · obtain ⟨part, parts, rest⟩ := List.exists_cons_of_ne_nil (splitRaw_ne_nil 0 cs)
      have joined := intercalate_splitRaw 0 cs
      rw [rest] at joined cut
      rw [cut, List.intercalate_cons_cons, joined]
      rfl
    · have joined := intercalate_splitRaw (depthAfter depth c) cs
      rw [rest] at joined
      rw [longer, ← joined]
      cases parts with
      | nil => simp
      | cons next parts => simp [List.intercalate_cons_cons]

/-! ## Whole parts -/

/-- From the depth on, each closing parenthesis has its opening one and all are closed in the end, and
commas stand within parentheses only. -/
def isWhole : Nat → List Char → Bool
  | depth, [] => depth = 0
  | depth, c :: cs =>
    if c = '(' then isWhole (depth + 1) cs
    else if c = ')' then depth ≠ 0 && isWhole (depth - 1) cs
    else (c ≠ ',' || depth ≠ 0) && isWhole depth cs

theorem isWhole_cons {depth : Nat} {c : Char} {cs : List Char} (h : isWhole depth (c :: cs) = true) :
    (c ≠ ',' ∨ depth ≠ 0) ∧ isWhole (depthAfter depth c) cs = true := by
  rw [isWhole] at h
  rw [depthAfter]
  by_cases opening : c = '('
  · rw [if_pos opening] at h ⊢
    exact ⟨.inl (by rw [opening]; decide), h⟩
  · rw [if_neg opening] at h ⊢
    by_cases closing : c = ')'
    · rw [if_pos closing] at h ⊢
      exact ⟨.inl (by rw [closing]; decide), (Bool.and_eq_true_iff.mp h).2⟩
    · rw [if_neg closing] at h ⊢
      simpa using h

/-- A whole text is not split, and goes into the first part of what follows. -/
theorem splitRaw_whole {rest part : List Char} {parts : List (List Char)}
    (hrest : splitRaw 0 rest = part :: parts) : ∀ {depth : Nat} {cs : List Char},
      isWhole depth cs = true → splitRaw depth (cs ++ rest) = (cs ++ part) :: parts
  | depth, [], h => by
    rw [of_decide_eq_true h]
    exact hrest
  | depth, c :: cs, h => by
    obtain ⟨kept, behind⟩ := isWhole_cons h
    exact splitRaw_cons kept (splitRaw_whole hrest behind)

theorem splitRaw_intercalate : ∀ {parts : List (List Char)}, parts ≠ [] →
    (∀ part ∈ parts, isWhole 0 part = true) → splitRaw 0 ([','].intercalate parts) = parts
  | [], any, _ => absurd rfl any
  | [part], _, h => by
    have last : splitRaw 0 [] = [[]] := rfl
    have alone := splitRaw_whole last (h part (by simp))
    rw [List.append_nil] at alone
    rwa [List.intercalate_singleton]
  | part :: next :: parts, _, h => by
    have rest := splitRaw_intercalate (List.cons_ne_nil next parts) fun other hother =>
      h other (List.mem_cons_of_mem part hother)
    have behind := splitRaw_comma ([','].intercalate (next :: parts))
    rw [rest] at behind
    have first := splitRaw_whole behind (h part (by simp))
    rw [List.append_nil] at first
    rwa [List.intercalate_cons_cons, List.append_assoc]

/-- Whole texts without white space around them are found again between commas. -/
theorem splitTopLevel_intercalate {parts : List (List Char)} (any : parts ≠ [])
    (whole : ∀ part ∈ parts, isWhole 0 part = true) (proper : ∀ part ∈ parts, part ≠ [] ∧ Text.trim part = part) :
    splitTopLevel ([','].intercalate parts) = parts := by
  rw [splitTopLevel, splitRaw_intercalate any whole,
    List.map_congr_left fun part hpart => (proper part hpart).2, List.map_id']
  refine List.filter_eq_self.mpr fun part hpart => ?_
  simpa using (proper part hpart).1

/-! ## Parentheses around a text -/

/-- A text that begins with a parenthesis has a part that does. -/
theorem exists_part_opening (cs : List Char) : ∃ part ∈ splitTopLevel ('(' :: cs), part.head? = some '(' := by
  obtain ⟨part, parts, rest⟩ := List.exists_cons_of_ne_nil (splitRaw_ne_nil (depthAfter 0 '(') cs)
  have start : (Text.trim ('(' :: part)).head? = some '(' := Text.head?_trim rfl (by decide)
  refine ⟨Text.trim ('(' :: part), ?_, start⟩
  rw [splitTopLevel, splitRaw_cons (.inl (by decide)) rest]
  refine List.mem_filter.mpr ⟨by simp, ?_⟩
  cases empty : Text.trim ('(' :: part) with
  | nil =>
    rw [empty] at start
    cases start
  | cons => rfl

/-- Closing parentheses behind a text belong to its last part. -/
theorem splitRaw_closing {ks : List Char} (hk : ∀ c ∈ ks, c = ')') :
    ∀ (depth : Nat) (cs : List Char), ∃ parts last, splitRaw depth cs = parts ++ [last] ∧
      splitRaw depth (cs ++ ks) = parts ++ [last ++ ks]
  | depth, [] => by
    -- Only the depth changes along the parentheses, so that they make one part.
    refine ⟨[], [], rfl, ?_⟩
    induction ks generalizing depth with
    | nil => rfl
    | cons k ks ih =>
      have closing := hk k (by simp)
      refine splitRaw_cons (.inl ?_) (ih (fun c hc => hk c (by simp [hc])) _)
      rw [closing]
      decide
  | depth, c :: cs => by
    by_cases split : c = ',' ∧ depth = 0
    · obtain ⟨rfl, rfl⟩ := split
      obtain ⟨parts, last, here, longer⟩ := splitRaw_closing hk 0 cs
      refine ⟨[] :: parts, last, ?_, ?_⟩
      · rw [splitRaw_comma, here, List.cons_append]
      · rw [List.cons_append, splitRaw_comma, longer, List.cons_append]
    · obtain ⟨parts, last, here, longer⟩ := splitRaw_closing hk (depthAfter depth c) cs
      have kept := not_and_or.mp split
      cases parts with
      | nil => exact ⟨[], c :: last, splitRaw_cons kept here, splitRaw_cons kept longer⟩
      | cons part parts =>
        exact ⟨(c :: part) :: parts, last, splitRaw_cons kept here, splitRaw_cons kept longer⟩

/-- If each part has a point, there are as many of them without the closing parentheses at the end. -/
theorem length_splitTopLevel_closing {ks : List Char} (hk : ∀ c ∈ ks, c = ')') (cs : List Char)
    (pointed : ∀ part ∈ splitTopLevel (cs ++ ks), '.' ∈ part) :
    (splitTopLevel (cs ++ ks)).length = (splitTopLevel cs).length := by
  obtain ⟨parts, last, here, longer⟩ := splitRaw_closing hk 0 cs
  rw [splitTopLevel, longer] at pointed ⊢
  rw [splitTopLevel, here]
  simp only [List.map_append, List.map_cons, List.map_nil, List.filter_append, List.length_append]
    at pointed ⊢
  congr 1
  -- The last part is empty in both texts or in neither, since its point is no closing parenthesis.
  have same : Text.trim (last ++ ks) = [] ↔ Text.trim last = [] := by
    rw [Text.trim_eq_nil_iff, Text.trim_eq_nil_iff]
    refine ⟨fun blank c hc => blank c (List.mem_append_left ks hc), fun blank => ?_⟩
    by_contra some
    have shown : Text.trim (last ++ ks) ≠ [] := mt Text.trim_eq_nil_iff.mp some
    have point := Text.mem_of_mem_trim (pointed (Text.trim (last ++ ks)) (by simp [shown]))
    rcases List.mem_append.mp point with inside | closing
    · exact absurd (blank '.' inside) (by decide)
    · exact absurd (hk '.' closing) (by decide)
  by_cases empty : Text.trim last = []
  · simp [empty, same.mpr empty]
  · simp [empty, mt same.mp empty]

end TableGateway.Select
