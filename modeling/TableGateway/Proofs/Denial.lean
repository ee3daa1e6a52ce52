import TableGateway.Proofs.Denylist
import TableGateway.Proofs.Filters
import TableGateway.Proofs.Splitting
import TableGateway.Proofs.Trace

/-!
# The denylist over the grammar of filters

The check of values is made on what remains of a filter after it has been taken apart: after `not.`, the
operator, the parentheses and commas of an `or` group, and the columns of its alternatives have been cut
off. None of these cuts can hide a denied text, since all are made at separating characters, and what
is cut off is no denied text itself. Main statements: `Denied.parse`, `Denied.alternative`,
`Table.Unreserved.not_resolved`.
-/
namespace TableGateway

open Denylist

/-! ## What may be cut off -/

/-- Denied texts are denied in small letters. -/
theorem Denylist.Denied.lower {cs : List Char} (h : Denied cs) : Denied (Text.lower cs) := by
  rcases h with ⟨d, hd, h⟩ | ⟨k, hk, start, found, rest, rfl, spelled, before, after⟩
  · have same : ∀ d ∈ sequences, d.toList.map Char.toLower = d.toList := by decide
    refine .inl ⟨d, hd, ?_⟩
    rw [← same d hd]
    exact h.map _
  · have word : ∀ c : Option Char, IsWord (c.map Char.toLower) ↔ IsWord c := by
      intro c
      cases c <;> simp [IsWord, isWordChar_toLower]
    refine .inr ⟨k, hk, Text.lower start, Text.lower found, Text.lower rest, ?_, ?_, ?_, ?_⟩
    · simp [Text.lower]
    · unfold Spelled at spelled ⊢
      unfold Text.lower
      rw [List.forall₂_map_right_iff]
      exact spelled.imp fun _ _ => isLetter_toLower
    · simp only [Text.lower, List.getLast?_map, Option.or_none] at before ⊢
      rwa [word]
    · simp only [Text.lower, List.head?_map]
      rwa [word]

/-- A text that is some word in any case is denied only if the word is. -/
theorem not_denied_of_lower {cs : List Char} {word : String} (h : Text.lower cs = word.toList)
    (hw : checkValue word = .ok ()) : ¬ Denied cs := by
  intro denied
  have := denied.lower
  rw [h] at this
  exact checkValue_ok_iff.mp hw this

/-- The blanks by their numbers. -/
theorem blank_cases {c : Char} (h : Text.isBlank c = true) :
    ∃ n ∈ [0x09, 0x0A, 0x0B, 0x0C, 0x0D, 0x20, 0x85, 0xA0, 0x1680, 0x2000, 0x2001, 0x2002, 0x2003,
      0x2004, 0x2005, 0x2006, 0x2007, 0x2008, 0x2009, 0x200A, 0x2028, 0x2029, 0x202F, 0x205F, 0x3000],
      c = Char.ofNat n := by
  refine ⟨c.toNat, ?_, (Char.ofNat_toNat c).symm⟩
  simp only [Text.isBlank, Bool.or_eq_true, Bool.and_eq_true, decide_eq_true_eq, beq_iff_eq] at h
  simp only [List.mem_cons, List.not_mem_nil, or_false]
  omega

theorem separates_of_isBlank {c : Char} (h : Text.isBlank c = true) : Separates c := by
  obtain ⟨n, hn, rfl⟩ := blank_cases h
  constructor
  · revert n
    decide +kernel
  · revert n
    decide +kernel

theorem separates_of_mem {c : Char} (h : c ∈ ['.', ',', '(', ')']) : Separates c := by
  have all : ['.', ',', '(', ')'].all (fun c =>
      !Text.isWordChar c && sequences.all fun d => !d.toList.contains c) = true := by decide
  have here := List.all_eq_true.mp all c h
  simp only [Bool.and_eq_true, Bool.not_eq_true', List.all_eq_true] at here
  exact ⟨here.1, fun d hd => by simpa using here.2 d hd⟩

/-- White space around a text hides nothing. -/
theorem Denylist.Denied.trim {cs : List Char} (h : Denied cs) : Denied (Text.trim cs) := by
  have blanks : ∀ {l : List Char}, ∀ c ∈ l.takeWhile Text.isBlank, Separates c := fun c hc =>
    separates_of_isBlank (List.all_eq_true.mp List.all_takeWhile c hc)
  have start : Denied (Text.trimStart cs) := by
    rw [← List.takeWhile_append_dropWhile (p := Text.isBlank) (l := cs)] at h
    exact h.of_append_left blanks
  generalize hcs : Text.trimStart cs = ds at start
  have split : ds = Text.trimEnd ds ++ (ds.reverse.takeWhile Text.isBlank).reverse := by
    rw [Text.trimEnd, ← List.reverse_append, List.takeWhile_append_dropWhile, List.reverse_reverse]
  rw [split] at start
  rw [Text.trim, hcs]
  exact start.of_append_right fun c hc => blanks c (List.mem_reverse.mp hc)

/-- Neither does what encloses it. -/
theorem Denylist.Denied.unwrap {opening closing : Char} {cs inner : List Char} (h : Denied cs)
    (ho : Separates opening) (hc : Separates closing)
    (hcs : Text.unwrap? opening closing cs = some inner) : Denied inner := by
  rw [Text.unwrap?_eq_some_iff.mp hcs, List.cons_append] at h
  refine Denied.of_append_right (b := [closing]) ?_ (Denied.of_append_left (a := [opening]) ?_ h)
  · simpa using hc
  · simpa using ho

/-! ## Filter expressions -/

theorem not_denied_of_keyword {keyword : List Char} {operator : Operator}
    (h : Operator.ofKeyword? keyword = some operator) : ¬ Denied keyword := by
  unfold Operator.ofKeyword? at h
  obtain ⟨⟨o, words⟩, found, -⟩ := Option.map_eq_some_iff.mp h
  have word : String.ofList (Text.lower keyword) ∈ words := by simpa using List.find?_some found
  have passed : ∀ entry ∈ Operator.table, ∀ w ∈ entry.2, checkValue w = .ok () := by
    decide +kernel
  exact not_denied_of_lower (by simp) (passed _ (List.mem_of_find?_eq_some found) _ word)

/-- An operator and its point hide nothing. -/
theorem Denylist.Denied.bare {cs : List Char} (h : Denied cs) : Denied (FilterExpr.bare cs).2 := by
  unfold FilterExpr.bare
  split
  · rename_i keyword value cut
    split
    · rename_i operator found
      rw [(Text.cut?_eq_some cut).1] at h
      rcases h.cut (separates_of_mem (by simp)) with h | h
      · exact absurd h (not_denied_of_keyword found)
      · exact h
    · exact h
  · split
    · rename_i same
      have lower : Text.lower cs = Text.lower "isnotnull".toList := by
        simpa [Text.sameCaseless] using same
      have word : Text.lower cs = "isnotnull".toList := lower.trans (by decide)
      exact absurd h (not_denied_of_lower word (by decide +kernel))
    · exact h

/-- A point has no other case. -/
theorem eq_point_of_toLower {c : Char} (h : c.toLower = '.') : c = '.' := by
  rcases ascii_or_caseless c with ⟨n, hn, rfl⟩ | ⟨-, same, -⟩
  · have all : ∀ n < 128, (Char.ofNat n).toLower = '.' → Char.ofNat n = '.' := by decide
    exact all n hn h
  · rwa [same] at h

/-- Nor does `not.`. -/
theorem Denylist.Denied.dropNot {cs rest : List Char} (h : Denied cs)
    (hd : FilterExpr.dropNot? cs = some rest) : Denied rest := by
  unfold FilterExpr.dropNot? at hd
  split at hd
  · rename_i n o t point tail
    split at hd
    · rename_i same
      cases hd
      have letters : Text.lower [n, o, t, point] = Text.lower "not.".toList := by
        simpa [Text.sameCaseless] using same
      have front : Text.lower [n, o, t] = "not".toList :=
        congrArg (List.take 3) letters
      have last : point = '.' := eq_point_of_toLower (by
        have := congrArg (List.drop 3) letters
        simpa [Text.lower] using this)
      rw [last] at h
      rcases Denied.cut (a := [n, o, t]) (separates_of_mem (by simp)) h with h | h
      · exact absurd h (not_denied_of_lower front (by decide +kernel))
      · exact h
    · cases hd
  · cases hd

theorem Denylist.Denied.parse {raw : String} (h : Denied raw.toList) :
    Denied (FilterExpr.parse raw).value.toList := by
  unfold FilterExpr.parse
  split
  · rename_i rest dropped
    rw [String.toList_ofList]
    exact (h.dropNot dropped).bare
  · rw [String.toList_ofList]
    exact h.bare

/-! ## Groups -/

/-- A text with separating characters between its parts is denied only if one of these is. -/
theorem Denylist.Denied.intercalate {sep : Char} (hsep : Separates sep) :
    ∀ {parts : List (List Char)}, Denied ([sep].intercalate parts) → ∃ part ∈ parts, Denied part
  | [], h => absurd h not_denied_nil
  | [part], h => ⟨part, by simp, by simpa using h⟩
  | part :: next :: parts, h => by
    rw [List.intercalate_cons_cons, List.append_assoc] at h
    rcases h.cut hsep with h | h
    · exact ⟨part, by simp, h⟩
    · obtain ⟨found, hfound, h⟩ := Denied.intercalate hsep h
      exact ⟨found, List.mem_cons_of_mem _ hfound, h⟩

/-- In a denied group one of the alternatives is denied. -/
theorem Denylist.Denied.alternative {group : String} (h : Denied group.toList) :
    ∃ cs ∈ Filter.alternatives group, Denied cs := by
  unfold Filter.alternatives
  simp only
  have inner : Denied ((Text.unwrap? '(' ')' (Text.trim group.toList)).getD
      (Text.trim group.toList)) := by
    cases unwrapped : Text.unwrap? '(' ')' (Text.trim group.toList) with
    | none => exact h.trim
    | some rest =>
      exact h.trim.unwrap (separates_of_mem (by simp)) (separates_of_mem (by simp)) unwrapped
  generalize (Text.unwrap? '(' ')' (Text.trim group.toList)).getD (Text.trim group.toList) = cs at inner
  rw [← Select.intercalate_splitRaw 0 cs] at inner
  obtain ⟨part, hpart, denied⟩ := Denied.intercalate (separates_of_mem (by simp)) inner
  refine ⟨Text.trim part, List.mem_filter.mpr ⟨List.mem_map_of_mem hpart, ?_⟩, denied.trim⟩
  -- An empty part is no denied one.
  cases empty : Text.trim part with
  | nil => exact absurd (empty ▸ denied.trim) not_denied_nil
  | cons => rfl

/-! ## Columns -/

/-- No column of the table is named like a keyword. -/
def Table.Unreserved (table : Table) : Prop :=
  ∀ column ∈ table.columns, ∀ k ∈ keywords, ¬ Text.sameCaseless column.name.toList k.toList

/-- The letters of a name are those of a keyword in another case. -/
theorem toLower_of_isLetter {k c : Char} (hc : isNameChar c = true) (h : isLetter k c = true) :
    c.toLower = k.toLower := by
  have ascii : ∀ n < 128, (Char.ofNat n).toUpper.toLower = (Char.ofNat n).toLower := by decide
  simp only [isLetter, Bool.or_eq_true, beq_iff_eq, Bool.and_eq_true] at h
  rcases h with rfl | ⟨-, rfl⟩
  · rcases ascii_or_caseless c with ⟨n, hn, rfl⟩ | ⟨-, -, same⟩
    · exact (ascii n hn).symm
    · rw [same]
  · exact absurd hc (by decide)

theorem Denylist.Spelled.lower {word found : List Char} (h : Spelled word found) :
    (∀ c ∈ found, isNameChar c = true) → Text.lower found = Text.lower word := by
  intro chars
  unfold Spelled at h
  unfold Text.lower
  induction h with
  | nil => rfl
  | cons letter _ ih =>
    rw [List.map_cons, List.map_cons, toLower_of_isLetter (chars _ (by simp)) letter]
    rw [ih fun c hc => chars c (by simp [hc])]

/-- A name is denied only if it is a keyword. -/
theorem Denylist.Denied.keyword {name : String} (hn : isName name = true) (h : Denied name.toList) :
    ∃ k ∈ keywords, Text.sameCaseless name.toList k.toList = true := by
  have chars := isNameChar_of_isName hn
  rcases h with ⟨d, hd, piece⟩ | ⟨k, hk, start, found, rest, split, spelled, before, after⟩
  · -- Each sequence has a character that stands in no name.
    have first : ∀ d ∈ sequences, d.toList.all isNameChar = false := by decide
    have all := List.all_eq_true.mpr fun c hc => chars c (piece.subset hc)
    rw [first d hd] at all
    cases all
  · have word : ∀ c ∈ name.toList, Text.isWordChar c = true := fun c hc =>
      isWordChar_of_isNameChar (chars c hc)
    rw [split] at word
    -- Word characters all around leave no room for a boundary, so that the word is the whole name.
    have noStart : start = [] := by
      cases hstart : start.getLast? with
      | none => simpa using hstart
      | some c =>
        rw [hstart] at before
        exact absurd (word c (by simp [List.mem_of_getLast? hstart])) before
    have noRest : rest = [] := by
      cases rest with
      | nil => rfl
      | cons c rest => exact absurd (word c (by simp)) after
    rw [noStart, noRest, List.nil_append, List.append_nil] at split
    refine ⟨k, hk, ?_⟩
    rw [Text.sameCaseless, beq_iff_eq, split]
    exact spelled.lower fun c hc => chars c (split ▸ hc)

/-- The denied text of a column names no column of a table without reserved names. -/
theorem Table.Unreserved.not_resolved {table : Table} (h : table.Unreserved) {name : String}
    (denied : Denied name.toList) : Outcome (fun _ => False) (·.isValidation = true)
      (table.resolve name) := by
  refine (table.resolve_outcome name).fails fun column resolved => ?_
  obtain ⟨hcolumn, same, isName⟩ := Table.resolve_eq_ok resolved
  have trimmed : Denied column.name.toList := by
    rw [same, Text.trimmed, String.toList_ofList]
    exact denied.trim
  obtain ⟨k, hk, sameCase⟩ := trimmed.keyword isName
  exact h column hcolumn k hk sameCase

end TableGateway
