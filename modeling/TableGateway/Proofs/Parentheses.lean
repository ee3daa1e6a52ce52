import TableGateway.Proofs.Splitting

/-!
# Parentheses in select lists

A text is balanced if each closing parenthesis has its opening one and all are closed in the end, and its
height is how deep they are nested. The parts of a balanced text between the commas outside parentheses are
whole, and no part is higher than the text; and what is in parentheses lies within one part. The check of a
select list accepts exactly the balanced texts that are not too high. Main statements:
`Select.checkBalanced_eq_ok_iff`, `Select.isWhole_of_mem_splitTopLevel`, `Select.exists_part_enclosed`.
-/
namespace TableGateway.Select

open Text (Blank isBlank trim trimStart trimEnd)

/-- From the depth on, each closing parenthesis has its opening one and all are closed in the end. -/
def Balanced : Nat → List Char → Prop
  | depth, [] => depth = 0
  | depth, c :: cs => (depth = 0 → c ≠ ')') ∧ Balanced (depthAfter depth c) cs

/-- The greatest depth on the way through a text, from the depth on. -/
def height : Nat → List Char → Nat
  | depth, [] => depth
  | depth, c :: cs => max depth (height (depthAfter depth c) cs)

/-- The character is no parenthesis and no comma. -/
def IsPlain (c : Char) : Prop := c ≠ '(' ∧ c ≠ ')' ∧ c ≠ ','

instance : DecidablePred IsPlain := fun c => inferInstanceAs (Decidable (c ≠ '(' ∧ c ≠ ')' ∧ c ≠ ','))

/-- The text can be a name: it holds something but no parentheses and commas, and has no white space around
it. -/
structure IsName (cs : List Char) : Prop where
  some : cs ≠ []
  trimmed : trim cs = cs
  plain : ∀ c ∈ cs, IsPlain c

instance : DecidablePred IsName := fun cs =>
  decidable_of_iff (cs ≠ [] ∧ trim cs = cs ∧ cs.all (fun c => decide (IsPlain c)) = true)
    ⟨fun h => ⟨h.1, h.2.1, by simpa using h.2.2⟩, fun h => ⟨h.some, h.trimmed, by simpa using h.plain⟩⟩

variable {depth below deepest : Nat} {c : Char} {cs p rest ws front inner part : List Char}

/-! ## One character -/

theorem isWhole_cons_iff : isWhole depth (c :: cs) = true ↔
    (depth = 0 → c ≠ ')' ∧ c ≠ ',') ∧ isWhole (depthAfter depth c) cs = true := by
  rw [isWhole, depthAfter]
  by_cases opening : c = '('
  · simp [opening]
  · by_cases closing : c = ')'
    · by_cases outside : depth = 0 <;> simp [closing, outside]
    · by_cases outside : depth = 0 <;> simp [opening, closing, outside]

theorem depthAfter_plain (h : IsPlain c) : depthAfter depth c = depth := by
  simp [depthAfter, h.1, h.2.1]

/-- Further out, a character that closes nothing from outside changes the depth in the same way. -/
theorem depthAfter_add (h : depth = 0 → c ≠ ')') :
    depthAfter (below + depth) c = below + depthAfter depth c := by
  unfold depthAfter
  by_cases closing : c = ')'
  · have : depth ≠ 0 := fun outside => h outside closing
    simp only [closing, if_false, if_true, Char.reduceEq]
    omega
  · by_cases opening : c = '('
    · simp only [opening, if_true]
      omega
    · simp [opening, closing]

theorem depths_cons (h : depth = 0 → c ≠ ')') (reached : depth ≤ deepest) :
    depths depth deepest (c :: cs) =
      depths (depthAfter depth c) (max deepest (depthAfter depth c)) cs := by
  by_cases opening : c = '('
  · simp [depths, depthAfter, opening]
  · by_cases closing : c = ')'
    · cases depth with
      | zero => exact absurd closing (h rfl)
      | succ depth =>
        have kept : max deepest depth = deepest := by omega
        simp [depths, depthAfter, closing, kept]
    · simp [depths, depthAfter, opening, closing, Nat.max_eq_left reached]

theorem depths_unopened (cs : List Char) : depths 0 deepest (')' :: cs) = (none, deepest) := by
  simp [depths]

theorem le_height (depth : Nat) (cs : List Char) : depth ≤ height depth cs := by
  cases cs with
  | nil => exact Nat.le_refl depth
  | cons => exact Nat.le_max_left _ _

/-! ## Plain text -/

theorem isPlain_of_isBlank (h : isBlank c = true) : IsPlain c := by
  refine ⟨?_, ?_, ?_⟩ <;>
  · rintro rfl
    exact absurd h (by decide)

theorem plain_of_blank (h : Blank ws) : ∀ c ∈ ws, IsPlain c := fun c hc => isPlain_of_isBlank (h c hc)

/-- Plain text in front of a text is never noticed. -/
theorem plain_append (plain : ∀ c ∈ p, IsPlain c) (depth : Nat) (rest : List Char) :
    isWhole depth (p ++ rest) = isWhole depth rest ∧ (Balanced depth (p ++ rest) ↔ Balanced depth rest) ∧
      height depth (p ++ rest) = height depth rest := by
  induction p with
  | nil => exact ⟨rfl, Iff.rfl, rfl⟩
  | cons c p ih =>
    obtain ⟨here, plain⟩ := List.forall_mem_cons.mp plain
    obtain ⟨whole, balanced, same⟩ := ih plain
    have stays : depthAfter depth c = depth := depthAfter_plain here
    refine ⟨?_, ?_, ?_⟩
    · rw [List.cons_append, Bool.eq_iff_iff, isWhole_cons_iff, stays, whole]
      exact and_iff_right fun _ => here.2
    · rw [List.cons_append, Balanced, stays, balanced]
      exact and_iff_right fun _ => here.2.1
    · rw [List.cons_append, height, stays, same, Nat.max_eq_right (le_height depth rest)]

theorem plain_whole (plain : ∀ c ∈ cs, IsPlain c) : isWhole 0 cs = true ∧ height 0 cs = 0 := by
  obtain ⟨whole, -, high⟩ := plain_append plain 0 []
  rw [List.append_nil] at whole high
  exact ⟨whole, high⟩

/-- Plain text behind a text is never noticed. -/
theorem append_plain (plain : ∀ c ∈ ws, IsPlain c) : ∀ (depth : Nat) (cs : List Char),
    isWhole depth (cs ++ ws) = isWhole depth cs ∧ height depth (cs ++ ws) = height depth cs
  | depth, [] => by
    obtain ⟨whole, -, same⟩ := plain_append plain depth []
    rw [List.append_nil] at whole same
    exact ⟨whole, same⟩
  | depth, c :: cs => by
    obtain ⟨whole, same⟩ := append_plain plain (depthAfter depth c) cs
    refine ⟨?_, ?_⟩
    · rw [List.cons_append, Bool.eq_iff_iff, isWhole_cons_iff, isWhole_cons_iff, whole]
    · rw [List.cons_append, height, height, same]

/-- White space around a part is never noticed. -/
theorem trim_whole (cs : List Char) :
    isWhole 0 (trim cs) = isWhole 0 cs ∧ height 0 (trim cs) = height 0 cs := by
  obtain ⟨vs, ws, before, behind, split⟩ := Text.exists_trim cs
  obtain ⟨front, -, low⟩ := plain_append (plain_of_blank before) 0 (trim cs)
  obtain ⟨back, high⟩ := append_plain (plain_of_blank behind) 0 (vs ++ trim cs)
  rw [← split] at back high
  exact ⟨(back.trans front).symm, (high.trans low).symm⟩

/-! ## Balanced text -/

/-- Balanced text goes back to the depth at which it began. -/
theorem balanced_append (h : Balanced depth p) (below : Nat) (rest : List Char) :
    (Balanced (below + depth) (p ++ rest) ↔ Balanced below rest) ∧
      height (below + depth) (p ++ rest) = max (below + height depth p) (height below rest) := by
  induction p generalizing depth with
  | nil =>
    rw [show depth = 0 from h]
    exact ⟨Iff.rfl, (Nat.max_eq_right (le_height below rest)).symm⟩
  | cons c p ih =>
    obtain ⟨here, behind⟩ := h
    obtain ⟨balanced, high⟩ := ih behind
    have deeper : depthAfter (below + depth) c = below + depthAfter depth c := depthAfter_add here
    refine ⟨?_, ?_⟩
    · rw [List.cons_append, Balanced, deeper, balanced]
      exact and_iff_right fun outside => here (by omega)
    · rw [List.cons_append, height, height, deeper, high]
      omega

/-- Within parentheses, the commas of balanced text split nothing. -/
theorem isWhole_balanced_append (h : Balanced depth p) (below : Nat) (rest : List Char) :
    isWhole (below + 1 + depth) (p ++ rest) = isWhole (below + 1) rest := by
  induction p generalizing depth with
  | nil =>
    rw [show depth = 0 from h]
    rfl
  | cons c p ih =>
    obtain ⟨here, behind⟩ := h
    rw [List.cons_append, Bool.eq_iff_iff, isWhole_cons_iff, depthAfter_add here, ih behind]
    exact and_iff_right fun outside => absurd outside (by omega)

/-- Within parentheses, the commas of balanced text split nothing. -/
theorem splitRaw_balanced_append {parts : List (List Char)} (hrest : splitRaw (below + 1) rest = part :: parts)
    (h : Balanced depth inner) : splitRaw (below + 1 + depth) (inner ++ rest) = (inner ++ part) :: parts := by
  induction inner generalizing depth with
  | nil =>
    rw [show depth = 0 from h]
    exact hrest
  | cons c inner ih =>
    obtain ⟨here, behind⟩ := h
    refine splitRaw_cons (.inr (by omega)) ?_
    rw [depthAfter_add here]
    exact ih behind

theorem balanced_of_isWhole (h : isWhole depth cs = true) : Balanced depth cs := by
  induction cs generalizing depth with
  | nil => exact (of_decide_eq_true h : depth = 0)
  | cons c cs ih =>
    obtain ⟨here, behind⟩ := isWhole_cons_iff.mp h
    exact ⟨fun outside => (here outside).1, ih behind⟩

/-- A text in parentheses is whole, behind plain text, and one higher. -/
theorem isWhole_enclosed {front inner : List Char} (plain : ∀ c ∈ front, IsPlain c) (h : Balanced 0 inner) :
    isWhole 0 (front ++ '(' :: inner ++ [')']) = true ∧
      height 0 (front ++ '(' :: inner ++ [')']) = height 0 inner + 1 := by
  obtain ⟨whole, -, same⟩ := plain_append plain 0 ('(' :: inner ++ [')'])
  rw [List.append_assoc, whole, same]
  refine ⟨?_, ?_⟩
  · rw [List.cons_append, isWhole_cons_iff]
    refine ⟨fun _ => by decide, ?_⟩
    exact (isWhole_balanced_append h 0 [')']).trans rfl
  · have high := (balanced_append h 1 [')']).2
    have behind : height 1 [')'] = 1 := rfl
    rw [behind] at high
    show max 0 (height (1 + 0) (inner ++ [')'])) = _
    rw [high]
    omega

theorem height_le_length (depth : Nat) (cs : List Char) : height depth cs ≤ depth + cs.length := by
  induction cs generalizing depth with
  | nil => exact Nat.le_refl depth
  | cons c cs ih =>
    have deeper : depthAfter depth c ≤ depth + 1 := by
      unfold depthAfter
      split
      · exact Nat.le_refl _
      · split <;> omega
    have := ih (depthAfter depth c)
    rw [height, List.length_cons]
    omega

theorem balanced_flat : ∀ {cs : List Char}, (∀ c ∈ cs, c = ',' ∨ isBlank c = true) → Balanced 0 cs
  | [], _ => rfl
  | c :: cs, h => by
    obtain ⟨here, behind⟩ := List.forall_mem_cons.mp h
    have outside : c ≠ ')' ∧ depthAfter 0 c = 0 := by
      rcases here with rfl | blank
      · decide
      · have plain := isPlain_of_isBlank blank
        exact ⟨plain.2.1, depthAfter_plain plain⟩
    refine ⟨fun _ => outside.1, ?_⟩
    rw [outside.2]
    exact balanced_flat behind

/-! ## Parentheses that do not match -/

/-- A text is balanced from one depth at most. -/
theorem not_balanced_deeper (h : Balanced 0 cs) (depth : Nat) : ¬ Balanced (depth + 1) cs := by
  intro deeper
  have behind := (balanced_append h (depth + 1) []).1
  rw [List.append_nil] at behind
  exact absurd (behind.mp deeper) (Nat.succ_ne_zero depth)

theorem exists_balanced_of_append : ∀ {depth : Nat} {cs : List Char}, Balanced depth (cs ++ rest) →
    ∃ after, Balanced after rest
  | depth, [], h => ⟨depth, h⟩
  | _, _ :: _, h => exists_balanced_of_append h.2

/-- Behind an opening parenthesis, a balanced text is not balanced again. -/
theorem not_balanced_opening (h : Balanced 0 inner) (front : List Char) :
    ¬ Balanced depth (front ++ '(' :: inner) := by
  intro whole
  obtain ⟨after, -, deeper⟩ := exists_balanced_of_append whole
  exact not_balanced_deeper h after deeper

/-- Before a closing parenthesis, a balanced text is the end of what is balanced. -/
theorem not_balanced_closing (h : Balanced 0 inner) (back : List Char) :
    ¬ Balanced 0 (inner ++ ')' :: back) := by
  intro whole
  exact ((balanced_append h 0 (')' :: back)).1.mp whole).1 rfl rfl

/-- A text in parentheses within another one is all of what is there, or lies behind an opening parenthesis. -/
theorem enclosed_append_cases {before : List Char} (closed : '(' ∉ front)
    (same : before ++ '(' :: cs = front ++ '(' :: rest) :
    cs = rest ∨ ∃ gap, rest = gap ++ '(' :: cs := by
  rcases List.append_eq_append_iff.mp same with ⟨gap, longer, split⟩ | ⟨gap, longer, split⟩
  · cases gap with
    | nil => exact .inl (List.cons.inj split).2
    | cons c gap =>
      rw [longer, ← (List.cons.inj split).1] at closed
      exact absurd (by simp) closed
  · cases gap with
    | nil => exact .inl (List.cons.inj split).2.symm
    | cons c gap => exact .inr ⟨gap, (List.cons.inj split).2⟩

/-! ## The check -/

theorem depths_balanced (h : Balanced depth cs) : ∀ {deepest : Nat}, depth ≤ deepest →
    depths depth deepest cs = (some 0, max deepest (height depth cs)) := by
  induction cs generalizing depth with
  | nil =>
    intro deepest reached
    rw [show depth = 0 from h]
    simp [depths, height]
  | cons c cs ih =>
    obtain ⟨here, behind⟩ := h
    intro deepest reached
    have least := le_height (depthAfter depth c) cs
    rw [depths_cons here reached, ih behind (Nat.le_max_right _ _), height]
    congr 1
    omega

theorem balanced_of_depths (h : (depths depth deepest cs).1 = some 0) (reached : depth ≤ deepest) :
    Balanced depth cs := by
  induction cs generalizing depth deepest with
  | nil => exact Option.some.inj h
  | cons c cs ih =>
    by_cases unopened : depth = 0 ∧ c = ')'
    · obtain ⟨rfl, rfl⟩ := unopened
      rw [depths_unopened] at h
      cases h
    · have here := not_and.mp unopened
      rw [depths_cons here reached] at h
      exact ⟨here, ih h (Nat.le_max_right _ _)⟩

/-- A balanced text is refused for its height only. -/
theorem checkBalanced_of_balanced (h : Balanced 0 cs) :
    checkBalanced cs =
      if maxNesting < height 0 cs then
        .error (.tooComplex ("select nests " ++ toString (height 0 cs) ++ " levels, maximum is " ++
          toString maxNesting))
      else .ok () := by
  rw [checkBalanced, depths_balanced h (Nat.le_refl 0), Nat.zero_max]
  simp

theorem balanced_of_checkBalanced (h : checkBalanced cs = .ok ()) : Balanced 0 cs := by
  refine balanced_of_depths ?_ (Nat.le_refl 0)
  simp only [checkBalanced] at h
  split at h
  · cases h
  · split at h
    · assumption
    · cases h

/-- The balanced texts that are not too high are accepted. -/
theorem checkBalanced_eq_ok_iff : checkBalanced cs = .ok () ↔ Balanced 0 cs ∧ height 0 cs ≤ maxNesting := by
  constructor
  · intro h
    have balanced := balanced_of_checkBalanced h
    rw [checkBalanced_of_balanced balanced] at h
    refine ⟨balanced, Nat.le_of_not_lt fun high => ?_⟩
    rw [if_pos high] at h
    cases h
  · rintro ⟨balanced, low⟩
    rw [checkBalanced_of_balanced balanced, if_neg (Nat.not_lt.mpr low)]

/-! ## Parts -/

/-- A whole part is followed by a comma and another balanced text. -/
theorem balanced_comma (h : isWhole 0 p = true) (rest : List Char) :
    (Balanced 0 (p ++ ',' :: rest) ↔ Balanced 0 rest) ∧
      height 0 (p ++ ',' :: rest) = max (height 0 p) (height 0 rest) := by
  obtain ⟨balanced, high⟩ := balanced_append (balanced_of_isWhole h) 0 (',' :: rest)
  have comma : height 0 (',' :: rest) = height 0 rest := Nat.zero_max _
  refine ⟨balanced.trans (and_iff_right fun _ => by decide), ?_⟩
  rwa [comma, Nat.zero_add (height 0 p)] at high

/-- The first part goes on from the depth at which the text begins, and the others begin outside. -/
theorem splitRaw_balanced (h : Balanced depth cs) {first : List Char} {parts : List (List Char)}
    (split : splitRaw depth cs = first :: parts) :
    (isWhole depth first = true ∧ height depth first ≤ height depth cs) ∧
      ∀ part ∈ parts, isWhole 0 part = true ∧ height 0 part ≤ height depth cs := by
  induction cs generalizing depth first parts with
  | nil =>
    obtain ⟨rfl, rfl⟩ := List.cons.inj split
    rw [show depth = 0 from h]
    exact ⟨⟨rfl, Nat.le_refl _⟩, nofun⟩
  | cons c cs ih =>
    obtain ⟨here, behind⟩ := h
    rcases splitRaw_cases depth c cs with ⟨rfl, rfl, cut⟩ | ⟨kept, next, others, rest, longer⟩
    · obtain ⟨rfl, rfl⟩ := List.cons.inj (cut.symm.trans split)
      refine ⟨⟨rfl, Nat.zero_le _⟩, fun part hpart => ?_⟩
      obtain ⟨next, others, rest⟩ := List.exists_cons_of_ne_nil (splitRaw_ne_nil 0 cs)
      obtain ⟨whole, wholes⟩ := ih behind rest
      have higher : height 0 cs ≤ height 0 (',' :: cs) := Nat.le_max_right _ _
      rw [rest] at hpart
      rcases List.mem_cons.mp hpart with rfl | hpart
      · exact ⟨whole.1, Nat.le_trans whole.2 higher⟩
      · exact ⟨(wholes part hpart).1, Nat.le_trans (wholes part hpart).2 higher⟩
    · obtain ⟨rfl, rfl⟩ := List.cons.inj (longer.symm.trans split)
      obtain ⟨whole, wholes⟩ := ih behind rest
      refine ⟨⟨isWhole_cons_iff.mpr ⟨fun outside => ⟨here outside, ?_⟩, whole.1⟩, ?_⟩, fun part hpart => ?_⟩
      · exact kept.resolve_right (not_not_intro outside)
      · exact Nat.max_le.mpr ⟨Nat.le_max_left _ _, Nat.le_trans whole.2 (Nat.le_max_right _ _)⟩
      · exact ⟨(wholes part hpart).1, Nat.le_trans (wholes part hpart).2 (Nat.le_max_right _ _)⟩

/-- The parts of a balanced text are whole, no higher than it, trimmed and not empty. -/
theorem isWhole_of_mem_splitTopLevel (h : Balanced 0 cs) {part : List Char} (hpart : part ∈ splitTopLevel cs) :
    isWhole 0 part = true ∧ height 0 part ≤ height 0 cs ∧ part ≠ [] ∧ trim part = part := by
  simp only [splitTopLevel, List.mem_filter, List.mem_map, Bool.not_eq_true', List.isEmpty_eq_false_iff] at hpart
  obtain ⟨⟨raw, hraw, rfl⟩, some⟩ := hpart
  obtain ⟨first, parts, split⟩ := List.exists_cons_of_ne_nil (splitRaw_ne_nil 0 cs)
  obtain ⟨whole, wholes⟩ := splitRaw_balanced h split
  have found : isWhole 0 raw = true ∧ height 0 raw ≤ height 0 cs := by
    rw [split] at hraw
    rcases List.mem_cons.mp hraw with rfl | hraw
    · exact whole
    · exact wholes raw hraw
  obtain ⟨same, high⟩ := trim_whole raw
  exact ⟨same.trans found.1, high ▸ found.2, some, Text.trim_trim raw⟩

/-- Up to its first opening parenthesis, whole text is plain. -/
theorem plain_front {front : List Char} (h : isWhole 0 (front ++ rest) = true) (closed : '(' ∉ front) :
    ∀ c ∈ front, IsPlain c := by
  induction front with
  | nil => exact nofun
  | cons c front ih =>
    rw [List.mem_cons, not_or] at closed
    obtain ⟨here, behind⟩ := isWhole_cons_iff.mp h
    have plain : IsPlain c := ⟨Ne.symm closed.1, here rfl⟩
    rw [depthAfter_plain plain] at behind
    exact List.forall_mem_cons.mpr ⟨plain, ih behind closed.2⟩

theorem plain_of_isWhole (h : isWhole 0 cs = true) (closed : '(' ∉ cs) : ∀ c ∈ cs, IsPlain c := by
  rw [← List.append_nil cs] at h
  exact plain_front h closed

/-! ## Where the parts are -/

theorem infix_intercalate {sep : List Char} : ∀ {parts : List (List Char)}, part ∈ parts →
    part <:+: sep.intercalate parts
  | [only], h => ⟨[], [], by simp [List.mem_singleton.mp h]⟩
  | first :: next :: parts, h => by
    rw [List.intercalate_cons_cons]
    rcases List.mem_cons.mp h with rfl | h
    · exact ⟨[], sep ++ sep.intercalate (next :: parts), by simp⟩
    · exact (infix_intercalate h).trans (List.suffix_append _ _).isInfix

theorem mem_intercalate {sep : List Char} {c : Char} : ∀ {parts : List (List Char)},
    c ∈ sep.intercalate parts → c ∈ sep ∨ ∃ part ∈ parts, c ∈ part
  | [only], h => .inr ⟨only, List.mem_singleton_self only, by rwa [List.intercalate_singleton] at h⟩
  | first :: next :: parts, h => by
    rw [List.intercalate_cons_cons, List.mem_append, List.mem_append] at h
    rcases h with (inFirst | inSep) | later
    · exact .inr ⟨first, List.mem_cons_self, inFirst⟩
    · exact .inl inSep
    · obtain inSep | ⟨part, hpart, hc⟩ := mem_intercalate later
      · exact .inl inSep
      · exact .inr ⟨part, List.mem_cons_of_mem _ hpart, hc⟩

theorem infix_of_mem_splitTopLevel (h : part ∈ splitTopLevel cs) : part <:+: cs := by
  simp only [splitTopLevel, List.mem_filter, List.mem_map] at h
  obtain ⟨⟨raw, hraw, rfl⟩, -⟩ := h
  have within : raw <:+: [','].intercalate (splitRaw 0 cs) := infix_intercalate hraw
  rw [intercalate_splitRaw] at within
  obtain ⟨vs, ws, -, -, split⟩ := Text.exists_trim raw
  exact List.IsInfix.trans ⟨vs, ws, split.symm⟩ within

/-- A balanced text in parentheses lies within one part, before the parts are trimmed. -/
theorem exists_raw_enclosed (h : Balanced 0 inner) (back : List Char) : ∀ (depth : Nat) (front : List Char),
    ∃ raw ∈ splitRaw depth (front ++ '(' :: inner ++ ')' :: back), ∃ before behind,
      raw = before ++ '(' :: inner ++ ')' :: behind
  | depth, [] => by
    obtain ⟨part, parts, rest⟩ := List.exists_cons_of_ne_nil (splitRaw_ne_nil depth back)
    have closing : splitRaw (depth + 1) (')' :: back) = (')' :: part) :: parts :=
      splitRaw_cons (.inl (by decide)) rest
    have opening : splitRaw depth ('(' :: (inner ++ ')' :: back)) = ('(' :: (inner ++ ')' :: part)) :: parts :=
      splitRaw_cons (.inl (by decide)) (splitRaw_balanced_append closing h)
    refine ⟨'(' :: (inner ++ ')' :: part), ?_, [], part, rfl⟩
    show _ ∈ splitRaw depth ('(' :: (inner ++ ')' :: back))
    rw [opening]
    exact List.mem_cons_self
  | depth, c :: front => by
    rw [List.cons_append, List.cons_append]
    rcases splitRaw_cases depth c (front ++ '(' :: inner ++ ')' :: back) with
      ⟨rfl, rfl, cut⟩ | ⟨-, part, parts, rest, longer⟩
    · obtain ⟨raw, hraw, before, behind, form⟩ := exists_raw_enclosed h back 0 front
      rw [cut]
      exact ⟨raw, List.mem_cons_of_mem _ hraw, before, behind, form⟩
    · obtain ⟨raw, hraw, before, behind, rfl⟩ := exists_raw_enclosed h back (depthAfter depth c) front
      rw [longer]
      rw [rest] at hraw
      rcases List.mem_cons.mp hraw with first | later
      · exact ⟨c :: part, List.mem_cons_self, c :: before, behind, by rw [← first]; rfl⟩
      · exact ⟨_, List.mem_cons_of_mem _ later, before, behind, rfl⟩

/-- A balanced text in parentheses lies within one part. -/
theorem exists_part_enclosed (h : Balanced 0 inner) (front back : List Char) :
    ∃ part ∈ splitTopLevel (front ++ '(' :: inner ++ ')' :: back), ∃ before behind,
      part = before ++ '(' :: inner ++ ')' :: behind := by
  obtain ⟨raw, hraw, before, behind, rfl⟩ := exists_raw_enclosed h back 0 front
  have trimmed : trim (before ++ '(' :: inner ++ ')' :: behind) =
      trimStart before ++ '(' :: inner ++ ')' :: trimEnd behind := by
    rw [List.append_assoc, List.cons_append, Text.trim_append_cons (by decide),
      Text.trimEnd_append_cons (by decide), List.append_assoc, List.cons_append]
  refine ⟨_, ?_, trimStart before, trimEnd behind, rfl⟩
  rw [splitTopLevel, List.mem_filter, List.mem_map]
  exact ⟨⟨_, hraw, trimmed⟩, by simp⟩

/-- Commas and white space make no parts. -/
theorem splitTopLevel_eq_nil_iff : splitTopLevel cs = [] ↔ ∀ c ∈ cs, c = ',' ∨ isBlank c = true := by
  constructor
  · intro none
    have empty : ∀ raw ∈ splitRaw 0 cs, Blank raw := by
      simpa [splitTopLevel, List.filter_eq_nil_iff, Text.trim_eq_nil_iff] using none
    intro c hc
    rw [← intercalate_splitRaw 0 cs] at hc
    rcases mem_intercalate hc with comma | ⟨raw, hraw, hc⟩
    · exact .inl (List.mem_singleton.mp comma)
    · exact .inr (empty raw hraw c hc)
  · intro flat
    refine List.eq_nil_iff_forall_not_mem.mpr fun part hpart => ?_
    have inside : ∀ c ∈ part, c = ',' ∨ isBlank c = true := fun c hc =>
      flat c ((infix_of_mem_splitTopLevel hpart).subset hc)
    obtain ⟨whole, -, some, trimmed⟩ := isWhole_of_mem_splitTopLevel (balanced_flat flat) hpart
    have closed : '(' ∉ part := fun opening => absurd (inside '(' opening) (by decide)
    have plain := plain_of_isWhole whole closed
    have blank : Blank part := fun c hc => (inside c hc).resolve_left (plain c hc).2.2
    rw [Text.trim_blank blank] at trimmed
    exact some trimmed.symm

end TableGateway.Select
