import TableGateway.Proofs.ArrayGrammar

/-!
# Readings of array literals

The reader of array literals takes a number of steps at most, and refuses a text when they run out. Here
the readings of a text are told without such a number: what comes of a text at a depth, and into which of
the arrays within it the reading goes. Every text has a reading, since an array within begins further on
and a comma stands between two items. The reader gives what comes of it, for it has three steps for each
character. A reading goes one level beyond `maxDimensions` at most, where it fails at once. Main statement:
`Literal.body_bounded`.
-/
namespace TableGateway.Literal

open Text (trimStart trimStart_suffix)

/-! ## Readings -/

/-- What comes of a text: a value and the text behind it, or why there is none. -/
abbrev Result (α : Type) := Except Malformed (α × List Char)

/-- An array that a reading goes into: the depth of its items, and the text behind its opening brace. -/
structure Opening where
  depth : Nat
  text : List Char
  deriving DecidableEq, Repr

mutual

/-- What comes of the text behind the opening brace of an array with its items at the depth, and the arrays
within that are gone into. -/
inductive BodyRun : Nat → List Char → Result (List Element) → List Opening → Prop where
  | tooDeep {depth : Nat} {cs : List Char} (h : maxDimensions < depth) :
    BodyRun depth cs (.error .dimensions) []
  | none {depth : Nat} {cs rest : List Char} (h : depth ≤ maxDimensions)
    (closing : trimStart cs = '\x7d' :: rest) : BodyRun depth cs (.ok ([], rest)) []
  | some {depth : Nat} {cs : List Char} {r : Result (List Element)} {openings : List Opening}
    (h : depth ≤ maxDimensions) (other : (trimStart cs).head? ≠ some '\x7d')
    (run : ItemsRun depth cs r openings) : BodyRun depth cs r openings

/-- What comes of the text of one or more items and the closing brace. -/
inductive ItemsRun : Nat → List Char → Result (List Element) → List Opening → Prop where
  | fails {depth : Nat} {cs : List Char} {e : Malformed} {openings : List Opening}
    (first : ElementRun depth (trimStart cs) (.error e) openings) : ItemsRun depth cs (.error e) openings
  | more {depth : Nat} {cs rest behind : List Char} {e : Element} {r : Result (List Element)}
    {openings openings' : List Opening}
    (first : ElementRun depth (trimStart cs) (.ok (e, rest)) openings)
    (comma : trimStart rest = ',' :: behind) (run : ItemsRun depth behind r openings') :
    ItemsRun depth cs (r.map fun (es, rest) => (e :: es, rest)) (openings ++ openings')
  | last {depth : Nat} {cs rest behind : List Char} {e : Element} {openings : List Opening}
    (first : ElementRun depth (trimStart cs) (.ok (e, rest)) openings)
    (closing : trimStart rest = '\x7d' :: behind) : ItemsRun depth cs (.ok ([e], behind)) openings
  | stray {depth : Nat} {cs rest : List Char} {e : Element} {openings : List Opening}
    (first : ElementRun depth (trimStart cs) (.ok (e, rest)) openings)
    (other : ∀ c ∈ (trimStart rest).head?, endsItem c = false) : ItemsRun depth cs (.error .text) openings

/-- What comes of the text of one item. -/
inductive ElementRun : Nat → List Char → Result Element → List Opening → Prop where
  | missing {depth : Nat} : ElementRun depth [] (.error .text) []
  | nested {depth : Nat} {cs : List Char} {r : Result (List Element)} {openings : List Opening}
    (run : BodyRun (depth + 1) cs r openings) :
    ElementRun depth ('\x7b' :: cs) (r.map fun (es, rest) => (.nested es, rest))
      (⟨depth + 1, cs⟩ :: openings)
  | quoted {depth : Nat} {s cs rest : List Char} (h : quotedBody cs = .some (s, rest)) :
    ElementRun depth ('"' :: cs) (.ok (.item (String.ofList s), rest)) []
  | unclosed {depth : Nat} {cs : List Char} (h : quotedBody cs = .none) :
    ElementRun depth ('"' :: cs) (.error .text) []
  | bare {depth : Nat} {c : Char} {cs : List Char} (brace : c ≠ '\x7b') (quote : c ≠ '"') :
    ElementRun depth (c :: cs) (.ok (Literal.bare ((c :: cs).takeWhile (!endsItem ·)),
      (c :: cs).drop ((c :: cs).takeWhile (!endsItem ·)).length)) []

end

/-! ## Readings go on -/

/-- The text begins further on in the other one. -/
def Behind (rest cs : List Char) : Prop := rest <:+ cs ∧ rest.length < cs.length

theorem Behind.of_suffix {rest bs cs : List Char} (h : Behind rest bs) (hs : bs <:+ cs) : Behind rest cs :=
  ⟨h.1.trans hs, Nat.lt_of_lt_of_le h.2 hs.length_le⟩

theorem Behind.cons (c : Char) (cs : List Char) : Behind cs (c :: cs) :=
  ⟨List.suffix_cons c cs, Nat.lt_succ_self _⟩

theorem behind_of_trimStart {c : Char} {rest cs : List Char} (h : trimStart cs = c :: rest) :
    Behind rest cs := (Behind.cons c rest).of_suffix (h ▸ trimStart_suffix cs)

/-- What stands behind an item and the character after it begins further on. -/
theorem behind_item {c : Char} {behind rest cs : List Char} (item : rest <:+ trimStart cs)
    (next : trimStart rest = c :: behind) : Behind behind cs :=
  (behind_of_trimStart next).of_suffix (item.trans (trimStart_suffix cs))

/-- What begins further on than in a position begins in a greater one. -/
theorem Behind.drop {rest cs : List Char} {start : Nat} (h : Behind rest (cs.drop start)) :
    ∃ position, start < position ∧ position ≤ cs.length ∧ rest = cs.drop position := by
  obtain ⟨⟨used, split⟩, shorter⟩ := h
  have length := congrArg List.length split
  rw [List.length_append, List.length_drop] at length
  rw [List.length_drop] at shorter
  refine ⟨start + used.length, by omega, by omega, ?_⟩
  rw [← List.drop_drop, ← split, List.drop_left]

theorem exists_of_map_eq_ok {α β : Type} {f : α × List Char → β × List Char} {r : Result α}
    {read : β × List Char} (h : r.map f = .ok read) :
    ∃ a rest, r = .ok (a, rest) ∧ f (a, rest) = read := by
  cases r with
  | error e => cases h
  | ok first => exact ⟨first.1, first.2, rfl, Except.ok.inj h⟩

mutual

theorem ElementRun.suffix {depth : Nat} {cs : List Char} {r : Result Element} {openings : List Opening} :
    ElementRun depth cs r openings → ∀ {e : Element} {rest : List Char}, r = .ok (e, rest) → rest <:+ cs
  | @ElementRun.nested _ cs _ _ run, e, rest, h => by
    obtain ⟨es, rest', inner, same⟩ := exists_of_map_eq_ok h
    cases same
    exact (run.behind inner).1.trans (List.suffix_cons _ cs)
  | .quoted h, e, rest, same => by
    cases same
    obtain ⟨used, rfl, -⟩ := quotedBody_form h
    exact (List.suffix_cons _ _).trans ((List.suffix_append _ _).trans (List.suffix_cons _ _))
  | .bare _ _, e, rest, h => by
    cases h
    exact List.drop_suffix ..

theorem ItemsRun.behind {depth : Nat} {cs : List Char} {r : Result (List Element)}
    {openings : List Opening} :
    ItemsRun depth cs r openings → ∀ {es : List Element} {rest : List Char}, r = .ok (es, rest) →
      Behind rest cs
  | .more first comma run, es, rest, h => by
    obtain ⟨es', rest', later, same⟩ := exists_of_map_eq_ok h
    cases same
    exact (run.behind later).of_suffix (behind_item (first.suffix rfl) comma).1
  | .last first closing, es, rest, h => by
    cases h
    exact behind_item (first.suffix rfl) closing

theorem BodyRun.behind {depth : Nat} {cs : List Char} {r : Result (List Element)}
    {openings : List Opening} :
    BodyRun depth cs r openings → ∀ {es : List Element} {rest : List Char}, r = .ok (es, rest) →
      Behind rest cs
  | .none _ closing, es, rest, h => by
    cases h
    exact behind_of_trimStart closing
  | .some _ _ run, es, rest, h => run.behind h

end

/-! ## Every text has a reading -/

mutual

theorem exists_elementRun (depth : Nat) : ∀ cs, ∃ r openings, ElementRun depth cs r openings
  | [] => ⟨_, _, .missing⟩
  | c :: cs => by
    by_cases brace : c = '\x7b'
    · subst brace
      obtain ⟨r, openings, run⟩ := exists_bodyRun (depth + 1) cs
      exact ⟨_, _, .nested run⟩
    · by_cases quote : c = '"'
      · subst quote
        cases h : quotedBody cs with
        | none => exact ⟨_, _, .unclosed h⟩
        | some read => exact ⟨_, _, .quoted h⟩
      · exact ⟨_, _, .bare brace quote⟩
termination_by cs => 3 * cs.length + 1

theorem exists_itemsRun (depth : Nat) (cs : List Char) : ∃ r openings, ItemsRun depth cs r openings := by
  have start := Text.length_trimStart_le cs
  obtain ⟨r, openings, first⟩ := exists_elementRun depth (trimStart cs)
  cases r with
  | error e => exact ⟨_, _, .fails first⟩
  | ok read =>
    obtain ⟨e, rest⟩ := read
    cases next : trimStart rest with
    | nil => exact ⟨_, _, .stray first (by rw [next]; nofun)⟩
    | cons c behind =>
      -- An item may be empty, but a comma behind it is passed.
      have shorter := (behind_item (first.suffix rfl) next).2
      by_cases ends : endsItem c = true
      · rcases endsItem_iff.mp ends with rfl | rfl
        · obtain ⟨r, openings', run⟩ := exists_itemsRun depth behind
          exact ⟨_, _, .more first next run⟩
        · exact ⟨_, _, .last first next⟩
      · exact ⟨_, _, .stray first (by simpa [next] using ends)⟩
termination_by 3 * cs.length + 2

/-- Every text has a reading at every depth: the text gets shorter, or the reading goes on from an array to
its items, or from these to the first one. -/
theorem exists_bodyRun (depth : Nat) (cs : List Char) : ∃ r openings, BodyRun depth cs r openings := by
  by_cases deep : maxDimensions < depth
  · exact ⟨_, _, .tooDeep deep⟩
  · by_cases closing : (trimStart cs).head? = some '\x7d'
    · obtain ⟨rest, split⟩ := List.head?_eq_some_iff.mp closing
      exact ⟨_, _, .none (Nat.le_of_not_lt deep) split⟩
    · obtain ⟨r, openings, run⟩ := exists_itemsRun depth cs
      exact ⟨_, _, .some (Nat.le_of_not_lt deep) closing run⟩
termination_by 3 * cs.length + 3

end

/-! ## The reader gives what comes of a reading -/

mutual

theorem ElementRun.element_eq {depth : Nat} {cs : List Char} {r : Result Element}
    {openings : List Opening} :
    ElementRun depth cs r openings → depth ≤ maxDimensions → ∀ {fuel : Nat}, 3 * cs.length + 1 ≤ fuel →
      element fuel (maxDimensions - depth) cs = r
  | .missing, _, fuel + 1, _ => rfl
  | .nested run, _, fuel + 1, enough => by
    rw [List.length_cons] at enough
    have inner := run.body_eq (show _ ≤ fuel by omega)
    rw [Nat.add_sub_add_right] at inner
    rw [element, if_pos rfl, inner]
  | .quoted h, _, fuel + 1, _ => by
    have different : '"' ≠ '\x7b' := by decide
    rw [element, if_neg different, if_pos rfl, h]
  | .unclosed h, _, fuel + 1, _ => by
    have different : '"' ≠ '\x7b' := by decide
    rw [element, if_neg different, if_pos rfl, h]
  | .bare brace quote, _, fuel + 1, _ => by
    rw [element, if_neg brace, if_neg quote]

theorem ItemsRun.items_eq {depth : Nat} {cs : List Char} {r : Result (List Element)}
    {openings : List Opening} :
    ItemsRun depth cs r openings → depth ≤ maxDimensions → ∀ {fuel : Nat}, 3 * cs.length + 2 ≤ fuel →
      items fuel (maxDimensions - depth) cs = r
  | .fails first, h, fuel + 1, enough => by
    have start := Text.length_trimStart_le cs
    rw [items, first.element_eq h (by omega)]
  | .more first comma run, h, fuel + 1, enough => by
    have start := Text.length_trimStart_le cs
    have shorter := (behind_item (first.suffix rfl) comma).2
    rw [items, first.element_eq h (by omega)]
    simp only
    rw [comma]
    simp only
    rw [run.items_eq h (by omega)]
  | .last first closing, h, fuel + 1, enough => by
    have start := Text.length_trimStart_le cs
    rw [items, first.element_eq h (by omega)]
    simp only
    rw [closing]
    rfl
  | .stray first other, h, fuel + 1, enough => by
    have start := Text.length_trimStart_le cs
    rw [items, first.element_eq h (by omega)]
    simp only
    split
    · rename_i comma
      rw [comma] at other
      exact absurd (other ',' rfl) (by decide)
    · rename_i closing
      rw [closing] at other
      exact absurd (other '\x7d' rfl) (by decide)
    · rfl

/-- The reader gives what comes of the reading, if it may take three steps for each character. -/
theorem BodyRun.body_eq {depth : Nat} {cs : List Char} {r : Result (List Element)}
    {openings : List Opening} :
    BodyRun depth cs r openings → ∀ {fuel : Nat}, 3 * cs.length + 3 ≤ fuel →
      body fuel (maxDimensions + 1 - depth) cs = r
  | .tooDeep h, fuel + 1, _ => by
    rw [Nat.sub_eq_zero_of_le h, body]
  | .none h closing, fuel + 1, _ => by
    rw [Nat.succ_sub h, body, closing]
    rfl
  | .some h other run, fuel + 1, enough => by
    have inner := run.items_eq h (show _ ≤ fuel by omega)
    rw [← items_trimStart] at inner
    rw [Nat.succ_sub h, body]
    split
    · rename_i closing
      rw [closing] at other
      exact absurd rfl other
    · exact inner

end

/-! ## Readings stay within the dimensions -/

mutual

theorem ElementRun.openings_bounded {depth : Nat} {cs : List Char} {r : Result Element}
    {openings : List Opening} :
    ElementRun depth cs r openings → depth ≤ maxDimensions → ∀ o ∈ openings,
      depth < o.depth ∧ o.depth ≤ maxDimensions + 1 ∧ Behind o.text cs
  | @ElementRun.nested depth cs _ _ run, h, o, ho => by
    rcases List.mem_cons.mp ho with rfl | ho
    · exact ⟨Nat.lt_succ_self depth, Nat.succ_le_succ h, .cons _ cs⟩
    · obtain ⟨deeper, bounded, behind⟩ := run.openings_bounded o ho
      exact ⟨Nat.lt_of_succ_lt deeper, bounded, behind.of_suffix (List.suffix_cons _ cs)⟩

theorem ItemsRun.openings_bounded {depth : Nat} {cs : List Char} {r : Result (List Element)}
    {openings : List Opening} :
    ItemsRun depth cs r openings → depth ≤ maxDimensions → ∀ o ∈ openings,
      depth < o.depth ∧ o.depth ≤ maxDimensions + 1 ∧ Behind o.text cs
  | .fails first, h, o, ho | .last first _, h, o, ho | .stray first _, h, o, ho => by
    obtain ⟨deeper, bounded, behind⟩ := first.openings_bounded h o ho
    exact ⟨deeper, bounded, behind.of_suffix (trimStart_suffix _)⟩
  | .more first comma run, h, o, ho => by
    rcases List.mem_append.mp ho with ho | ho
    · obtain ⟨deeper, bounded, behind⟩ := first.openings_bounded h o ho
      exact ⟨deeper, bounded, behind.of_suffix (trimStart_suffix _)⟩
    · obtain ⟨deeper, bounded, behind⟩ := run.openings_bounded h o ho
      exact ⟨deeper, bounded, behind.of_suffix (behind_item (first.suffix rfl) comma).1⟩

/-- Each array that is gone into is deeper than the one read, one level beyond the dimensions at most, and
begins further on. -/
theorem BodyRun.openings_bounded {depth : Nat} {cs : List Char} {r : Result (List Element)}
    {openings : List Opening} :
    BodyRun depth cs r openings → ∀ o ∈ openings,
      depth < o.depth ∧ o.depth ≤ maxDimensions + 1 ∧ Behind o.text cs
  | .some h _ run, o, ho => run.openings_bounded h o ho

end

/-! ## Bounds -/

/-- What a reading of a text from a position on, with items at a depth, keeps to. -/
structure Bounded (cs : List Char) (start depth : Nat) (r : Result (List Element))
    (openings : List Opening) : Prop where
  /-- The reader gives what comes of it, however many steps it may take beyond three for each character. -/
  given : ∀ fuel, 3 * (cs.length - start) + 3 ≤ fuel →
    body fuel (maxDimensions + 1 - depth) (cs.drop start) = r
  /-- The arrays that it goes into are deeper, by one level beyond the dimensions at most. -/
  deeper : ∀ o ∈ openings, depth < o.depth ∧ o.depth ≤ maxDimensions + 1
  /-- They begin further on. -/
  further : ∀ o ∈ openings, ∃ position, start < position ∧ position ≤ cs.length ∧
    o.text = cs.drop position
  /-- It ends further on, right behind a closing brace. -/
  finish : ∀ es rest, r = .ok (es, rest) → ∃ position, start < position ∧ position ≤ cs.length ∧
    cs[position - 1]? = some '\x7d' ∧ rest = cs.drop position
  /-- What it gives fits into the dimensions that are left. -/
  fits : ∀ es rest, r = .ok (es, rest) → levels es + depth ≤ maxDimensions

/-- What stands behind a character in the rest of a text begins right behind its position. -/
theorem drop_of_split {cs used rest : List Char} {c : Char} {start : Nat}
    (split : cs.drop start = used ++ c :: rest) :
    start + used.length + 1 ≤ cs.length ∧ cs[start + used.length]? = some c ∧
      rest = cs.drop (start + used.length + 1) := by
  have length := congrArg List.length split
  rw [List.length_drop, List.length_append, List.length_cons] at length
  refine ⟨by omega, ?_, ?_⟩
  · rw [← List.getElem?_drop, split, List.getElem?_append_right (Nat.le_refl _), Nat.sub_self]
    rfl
  · rw [Nat.add_assoc, ← List.drop_drop, split, ← List.drop_drop, List.drop_left]
    rfl

theorem BodyRun.bounded {cs : List Char} {start depth : Nat} {r : Result (List Element)}
    {openings : List Opening} (run : BodyRun depth (cs.drop start) r openings) :
    Bounded cs start depth r openings := by
  have given : ∀ fuel, 3 * (cs.length - start) + 3 ≤ fuel →
      body fuel (maxDimensions + 1 - depth) (cs.drop start) = r :=
    fun fuel enough => run.body_eq (by rwa [List.length_drop])
  refine ⟨given, fun o ho => ?_, fun o ho => ?_, fun es rest h => ?_, fun es rest h => ?_⟩
  · obtain ⟨deeper, bounded, -⟩ := run.openings_bounded o ho
    exact ⟨deeper, bounded⟩
  · exact (run.openings_bounded o ho).2.2.drop
  · obtain ⟨-, used, bares, split, -⟩ := body_form ((given _ (Nat.le_refl _)).trans h)
    obtain ⟨inside, closing, behind⟩ := drop_of_split split
    exact ⟨start + used.length + 1, by omega, inside, closing, behind⟩
  · have fits := (body_form ((given _ (Nat.le_refl _)).trans h)).1
    omega

/-- A text is read as the items that a reading at the first depth gives, if nothing stands behind them. -/
theorem readArray_eq_ok_iff_run {s : String} {es : List Element} : readArray s = .ok es ↔
    ∃ cs openings, Text.trim s.toList = '\x7b' :: cs ∧ BodyRun 1 cs (.ok (es, [])) openings := by
  unfold readArray
  constructor
  · intro h
    split at h
    · rename_i cs opening
      obtain ⟨r, openings, run⟩ := exists_bodyRun 1 cs
      have given : body (3 * cs.length + 3) maxDimensions cs = r := run.body_eq (Nat.le_refl _)
      rw [given] at h
      split at h
      · cases h
        exact ⟨cs, openings, opening, run⟩
      · cases h
      · cases h
    · cases h
  · rintro ⟨cs, openings, opening, run⟩
    have given : body (3 * cs.length + 3) maxDimensions cs = .ok (es, []) := run.body_eq (Nat.le_refl _)
    rw [opening]
    simp only
    rw [given]

/-- Every text has a reading from every position on and at every depth, and each one keeps to its bounds. So
an array that is read has at most as many levels as there are dimensions. -/
theorem body_bounded (cs : List Char) (start depth : Nat) :
    (∃ r openings, BodyRun depth (cs.drop start) r openings) ∧
    (∀ r openings, BodyRun depth (cs.drop start) r openings → Bounded cs start depth r openings) ∧
    ∀ s es, readArray s = .ok es → (Element.nested es).levels ≤ maxDimensions := by
  refine ⟨exists_bodyRun depth _, fun r openings run => run.bounded, fun s es h => ?_⟩
  obtain ⟨text, openings, -, run⟩ := readArray_eq_ok_iff_run.mp h
  have bounded : Bounded text 0 1 (.ok (es, [])) openings := BodyRun.bounded run
  exact bounded.fits es [] rfl

/-- An empty item, and an array within with a closing brace in quotes. -/
theorem body_bounded_nested :
    BodyRun 1 ("\x7b,\x7b\"\x7d\"\x7d\x7d".toList.drop 1)
      (.ok ([.item "", .nested [.item "\x7d"]], [])) [⟨2, "\"\x7d\"\x7d\x7d".toList⟩] ∧
    Bounded "\x7b,\x7b\"\x7d\"\x7d\x7d".toList 1 1
      (.ok ([.item "", .nested [.item "\x7d"]], [])) [⟨2, "\"\x7d\"\x7d\x7d".toList⟩] ∧
    readArray "\x7b,\x7b\"\x7d\"\x7d\x7d" = .ok [.item "", .nested [.item "\x7d"]] ∧
    (Element.nested [.item "", .nested [.item "\x7d"]]).levels ≤ maxDimensions := by
  have inner : BodyRun 2 "\"\x7d\"\x7d\x7d".toList (.ok ([.item "\x7d"], ['\x7d'])) [] :=
    .some (by decide) (by decide) (.last (.quoted rfl) rfl)
  have later : ItemsRun 1 "\x7b\"\x7d\"\x7d\x7d".toList (.ok ([.nested [.item "\x7d"]], []))
      [⟨2, "\"\x7d\"\x7d\x7d".toList⟩] := .last (.nested inner) rfl
  have empty : ElementRun 1 ",\x7b\"\x7d\"\x7d\x7d".toList
      (.ok (.item "", ",\x7b\"\x7d\"\x7d\x7d".toList)) [] := .bare (c := ',') (by decide) (by decide)
  have both := @ItemsRun.more 1 ",\x7b\"\x7d\"\x7d\x7d".toList _ _ _ _ _ _ empty rfl later
  have run : BodyRun 1 ("\x7b,\x7b\"\x7d\"\x7d\x7d".toList.drop 1)
      (.ok ([.item "", .nested [.item "\x7d"]], [])) [⟨2, "\"\x7d\"\x7d\x7d".toList⟩] :=
    .some (by decide) (by decide) both
  have read : readArray "\x7b,\x7b\"\x7d\"\x7d\x7d" = .ok [.item "", .nested [.item "\x7d"]] :=
    readArray_eq_ok_iff_run.mpr ⟨_, _, by decide, run⟩
  obtain ⟨-, bounded, nested⟩ := body_bounded "\x7b,\x7b\"\x7d\"\x7d\x7d".toList 1 1
  exact ⟨run, bounded _ _ run, read, nested _ _ read⟩

end TableGateway.Literal
