import TableGateway.Literal.Array
import TableGateway.Proofs.Trimming

/-!
# The grammar of array literals

Which texts are array literals, and what stands in them: items in quotes, items without quotes, and
arrays in braces, with commas between them and white space around them. The reader accepts the texts of
this grammar and no others, unless arrays are nested too deep in them. Main statement:
`Literal.readArray_eq_ok_iff`.
-/
namespace TableGateway.Literal

open Text (Blank trimStart)

/-! ## Forms -/

/-- The second text is the first one as it stands between quotes. A backslash goes before any character,
and before quotes and backslashes it must. -/
inductive QuotedForm : List Char → List Char → Prop where
  | nil : QuotedForm [] []
  | plain {c : Char} {s cs : List Char} (quote : c ≠ '"') (backslash : c ≠ '\\')
    (h : QuotedForm s cs) : QuotedForm (c :: s) (c :: cs)
  | escaped {c : Char} {s cs : List Char} (h : QuotedForm s cs) : QuotedForm (c :: s) ('\\' :: c :: cs)

/-- A text that may stand as an item without quotes. Nothing is said of quotes and opening braces but
that it does not begin with one. -/
structure BareForm (cs : List Char) : Prop where
  trimmed : Text.trim cs = cs
  inside : ∀ c ∈ cs, endsItem c = false
  brace : cs.head? ≠ some '\x7b'
  quote : cs.head? ≠ some '"'

mutual

/-- The text is one of the item. The last argument lists the items without quotes in it. -/
inductive ItemForm : Element → List Char → List (List Char) → Prop where
  | null {cs : List Char} (h : BareForm cs) (word : Text.sameCaseless cs "null".toList = true) :
    ItemForm .null cs [cs]
  | bare {cs : List Char} (h : BareForm cs) (word : Text.sameCaseless cs "null".toList = false) :
    ItemForm (.item (String.ofList cs)) cs [cs]
  | quoted {s cs : List Char} (h : QuotedForm s cs) :
    ItemForm (.item (String.ofList s)) ('"' :: cs ++ ['"']) []
  | nested {es : List Element} {cs : List Char} {bares : List (List Char)} (h : InnerForm es cs bares) :
    ItemForm (.nested es) ('\x7b' :: cs ++ ['\x7d']) bares

/-- The text is one of one or more items, with commas between them. -/
inductive ItemsForm : List Element → List Char → List (List Char) → Prop where
  | one {e : Element} {before cs behind : List Char} {bares : List (List Char)} (hb : Blank before)
    (h : ItemForm e cs bares) (ha : Blank behind) : ItemsForm [e] (before ++ cs ++ behind) bares
  | more {e : Element} {es : List Element} {before cs behind rest : List Char}
    {bares bares' : List (List Char)} (hb : Blank before) (h : ItemForm e cs bares)
    (ha : Blank behind) (hrest : ItemsForm es rest bares') :
    ItemsForm (e :: es) (before ++ cs ++ behind ++ ',' :: rest) (bares ++ bares')

/-- The text may stand between the braces of an array. White space alone stands for no items. -/
inductive InnerForm : List Element → List Char → List (List Char) → Prop where
  | none {cs : List Char} (h : Blank cs) : InnerForm [] cs []
  | some {es : List Element} {cs : List Char} {bares : List (List Char)} (h : ItemsForm es cs bares)
    (any : ¬ Blank cs) : InnerForm es cs bares

end

/-! ## Levels -/

mutual

/-- How many arrays within one another an item holds. -/
def Element.levels : Element → Nat
  | .null | .item _ => 0
  | .nested es => levels es + 1

/-- How many arrays within one another some items hold. -/
def levels : List Element → Nat
  | [] => 0
  | e :: es => max e.levels (levels es)

end

/-! ## Quotes -/

theorem quotedBody_plain {c : Char} (quote : c ≠ '"') (backslash : c ≠ '\\') (cs : List Char) :
    quotedBody (c :: cs) = (quotedBody cs).map fun (s, rest) => (c :: s, rest) :=
  quotedBody.eq_5 c cs quote (fun h => absurd h backslash) fun _ _ h => absurd h backslash

/-- A text in quotes is read up to the quote that is not escaped. -/
theorem QuotedForm.read {s cs : List Char} (h : QuotedForm s cs) (rest : List Char) :
    quotedBody (cs ++ '"' :: rest) = some (s, rest) := by
  induction h with
  | nil => rfl
  | plain quote backslash _ ih =>
    rw [List.cons_append, quotedBody_plain quote backslash, ih]
    rfl
  | escaped _ ih =>
    rw [List.cons_append, List.cons_append, quotedBody, ih]
    rfl

/-- What is read as a text in quotes has its form. -/
theorem quotedBody_form {cs s rest : List Char} (h : quotedBody cs = some (s, rest)) :
    ∃ used, cs = used ++ '"' :: rest ∧ QuotedForm s used := by
  fun_induction quotedBody cs generalizing s with
  | case1 => cases h
  | case2 rest' =>
    cases h
    exact ⟨[], rfl, .nil⟩
  | case3 => cases h
  | case4 c cs ih =>
    obtain ⟨⟨s', rest'⟩, read, same⟩ := Option.map_eq_some_iff.mp h
    cases same
    obtain ⟨used, rfl, form⟩ := ih read
    exact ⟨_, rfl, .escaped form⟩
  | case5 c cs quote last pair ih =>
    obtain ⟨⟨s', rest'⟩, read, same⟩ := Option.map_eq_some_iff.mp h
    cases same
    obtain ⟨used, rfl, form⟩ := ih read
    -- A backslash is the last character or has one behind it.
    have backslash : c ≠ '\\' := by
      rintro rfl
      cases used with
      | nil => exact pair _ _ rfl rfl
      | cons d used => exact pair _ _ rfl rfl
    exact ⟨c :: used, rfl, .plain quote backslash form⟩

/-! ## Items without quotes -/

/-- The text goes on with a character that ends an item. -/
def Stops (rest : List Char) : Prop := ∃ c cs, rest = c :: cs ∧ endsItem c = true

theorem endsItem_iff {c : Char} : endsItem c = true ↔ c = ',' ∨ c = '\x7d' := by
  simp [endsItem]

theorem Stops.trimStart {rest : List Char} (h : Stops rest) : trimStart rest = rest := by
  obtain ⟨c, cs, rfl, ends⟩ := h
  rcases endsItem_iff.mp ends with rfl | rfl
  · rfl
  · rfl

/-- An item without quotes goes on to the character that ends it. -/
theorem element_bare {fuel depth : Nat} {cs rest : List Char} (inside : ∀ c ∈ cs, endsItem c = false)
    (brace : cs.head? ≠ some '\x7b') (quote : cs.head? ≠ some '"') (stops : Stops rest) :
    element (fuel + 1) depth (cs ++ rest) = .ok (bare cs, rest) := by
  obtain ⟨e, es, rfl, ends⟩ := stops
  have text : (cs ++ e :: es).takeWhile (!endsItem ·) = cs := by
    rw [List.takeWhile_append_of_pos fun c hc => by rw [inside c hc, Bool.not_false]]
    simp [ends]
  -- The first character is that of the item, or the one behind it if the item is empty.
  obtain ⟨c, ds, split⟩ : ∃ c ds, cs ++ e :: es = c :: ds := List.exists_cons_of_ne_nil (by simp)
  have first : (cs.head?).getD e = c := by
    have := congrArg List.head? split
    cases cs <;> simpa using this
  have notBrace : c ≠ '\x7b' := by
    rintro rfl
    cases cs with
    | nil => simp_all [endsItem]
    | cons d cs => exact brace (congrArg some first)
  have notQuote : c ≠ '"' := by
    rintro rfl
    cases cs with
    | nil => simp_all [endsItem]
    | cons d cs => exact quote (congrArg some first)
  rw [split] at text ⊢
  simp only [element, if_neg notBrace, if_neg notQuote, text]
  rw [← split, List.drop_left]

theorem bare_congr {cs ds : List Char} (h : Text.trim cs = Text.trim ds) : bare cs = bare ds := by
  rw [bare, bare, h]

theorem BareForm.read {cs behind rest : List Char} (h : BareForm cs) (blank : Blank behind)
    (stops : Stops rest) (fuel depth : Nat) :
    element (fuel + 1) depth (trimStart (cs ++ (behind ++ rest))) = .ok (bare cs, rest) := by
  cases cs with
  | nil =>
    rw [List.nil_append, Text.trimStart_blank_append blank, stops.trimStart]
    exact @element_bare fuel depth [] rest nofun nofun nofun stops
  | cons c cs =>
    have inside : ∀ d ∈ c :: cs ++ behind, endsItem d = false := by
      intro d hd
      rcases List.mem_append.mp hd with hd | hd
      · exact h.inside d hd
      · -- A character that ends an item is no white space.
        by_contra ends
        rcases endsItem_iff.mp (Bool.not_eq_false _ ▸ ends) with rfl | rfl
        · exact absurd (blank _ hd) (by decide)
        · exact absurd (blank _ hd) (by decide)
    have first : Text.isBlank c = false := (Text.trim_eq_self_iff.mp h.trimmed).1 c rfl
    rw [List.cons_append, Text.trimStart_cons first, ← List.cons_append, ← List.append_assoc,
      element_bare inside h.brace h.quote stops, bare_congr (Text.trim_append_blank blank _)]

/-! ## Texts of the grammar are read -/

theorem ItemForm.head {e : Element} {cs : List Char} {bares : List (List Char)}
    (h : ItemForm e cs bares) : cs = [] ∨ ∃ c ds, cs = c :: ds ∧ Text.isBlank c = false ∧ c ≠ '\x7d' := by
  have bare : ∀ {cs : List Char}, BareForm cs →
      cs = [] ∨ ∃ c ds, cs = c :: ds ∧ Text.isBlank c = false ∧ c ≠ '\x7d' := by
    intro cs h
    cases cs with
    | nil => exact .inl rfl
    | cons c cs =>
      refine .inr ⟨c, cs, rfl, (Text.trim_eq_self_iff.mp h.trimmed).1 c rfl, ?_⟩
      rintro rfl
      exact absurd (h.inside '\x7d' (by simp)) (by decide)
  cases h with
  | null h => exact bare h
  | bare h => exact bare h
  | quoted => exact .inr ⟨'"', _, rfl, by decide, by decide⟩
  | nested => exact .inr ⟨'\x7b', _, rfl, by decide, by decide⟩

/-- Items do not begin with a closing brace. -/
theorem ItemsForm.head {es : List Element} {cs : List Char} {bares : List (List Char)}
    (h : ItemsForm es cs bares) (any : ¬ Blank cs) (rest : List Char) :
    ∃ c ds, trimStart (cs ++ rest) = c :: ds ∧ c ≠ '\x7d' := by
  cases h with
  | @one e before cs behind _ hb h ha =>
    rcases h.head with rfl | ⟨c, ds, rfl, blank, closing⟩
    · exact absurd (by simpa using hb.append ha) any
    · refine ⟨c, ds ++ (behind ++ rest), ?_, closing⟩
      rw [List.append_assoc, List.append_assoc, Text.trimStart_blank_append hb, List.cons_append,
        Text.trimStart_cons blank]
  | @more e es before cs behind text _ _ hb h ha hrest =>
    rcases h.head with rfl | ⟨c, ds, rfl, blank, closing⟩
    · refine ⟨',', text ++ rest, ?_, by decide⟩
      rw [List.append_nil, List.append_assoc, Text.trimStart_blank_append (hb.append ha),
        List.cons_append, Text.trimStart_cons (by decide)]
    · refine ⟨c, ds ++ (behind ++ (',' :: text ++ rest)), ?_, closing⟩
      rw [List.append_assoc, List.append_assoc, List.append_assoc, Text.trimStart_blank_append hb,
        List.cons_append, Text.trimStart_cons blank]

theorem items_trimStart (fuel depth : Nat) (cs : List Char) :
    items fuel depth (trimStart cs) = items fuel depth cs := by
  cases fuel with
  | zero => rfl
  | succ fuel => rw [items, items, Text.trimStart_trimStart]

mutual

/-- The text of an item is read as the item, or refused if arrays are nested too deep in it. -/
theorem ItemForm.read {e : Element} {cs : List Char} {bares : List (List Char)} :
    ItemForm e cs bares → ∀ (fuel depth : Nat) {behind rest : List Char},
      3 * cs.length + 1 ≤ fuel → Blank behind → Stops rest →
      ∃ ws, Blank ws ∧ element fuel depth (trimStart (cs ++ (behind ++ rest))) =
        if e.levels ≤ depth then .ok (e, ws ++ rest) else .error .dimensions
  | .null h word, fuel + 1, depth, behind, rest, enough, blank, stops => by
    refine ⟨[], .nil, ?_⟩
    rw [h.read blank stops, bare, h.trimmed, word]
    exact (if_pos (Nat.zero_le _)).symm
  | .bare h word, fuel + 1, depth, behind, rest, enough, blank, stops => by
    refine ⟨[], .nil, ?_⟩
    rw [h.read blank stops, bare, h.trimmed, word]
    exact (if_pos (Nat.zero_le _)).symm
  | .quoted h, fuel + 1, depth, behind, rest, enough, blank, stops => by
    refine ⟨behind, blank, ?_⟩
    have different : '"' ≠ '\x7b' := by decide
    rw [List.cons_append, List.cons_append, Text.trimStart_cons (by decide), List.append_assoc,
      List.singleton_append, element, if_neg different, if_pos rfl, h.read]
    exact (if_pos (Nat.zero_le _)).symm
  | @ItemForm.nested es cs _ h, fuel + 1, depth, behind, rest, enough, blank, stops => by
    refine ⟨behind, blank, ?_⟩
    rw [List.length_append, List.length_cons] at enough
    rw [List.cons_append, List.cons_append, Text.trimStart_cons (by decide), List.append_assoc,
      List.singleton_append, element, if_pos rfl, h.read fuel depth _ (by omega), Element.levels]
    by_cases fits : levels es + 1 ≤ depth
    · rw [if_pos fits, if_pos (Nat.lt_of_succ_le fits)]
      rfl
    · rw [if_neg fits, if_neg (mt Nat.succ_le_of_lt fits)]
      rfl

/-- The text of some items is read as the items, up to the closing brace. -/
theorem ItemsForm.read {es : List Element} {cs : List Char} {bares : List (List Char)} :
    ItemsForm es cs bares → ∀ (fuel depth : Nat) (rest : List Char), 3 * cs.length + 2 ≤ fuel →
      items fuel depth (cs ++ '\x7d' :: rest) =
        if levels es ≤ depth then .ok (es, rest) else .error .dimensions
  | @ItemsForm.one e before cs behind _ hb h ha, fuel + 1, depth, rest, enough => by
    rw [List.length_append, List.length_append] at enough
    have stops : Stops ('\x7d' :: rest) := ⟨_, _, rfl, rfl⟩
    obtain ⟨ws, blank, read⟩ := h.read fuel depth (by omega) ha stops
    rw [List.append_assoc, List.append_assoc, items, Text.trimStart_blank_append hb, read, levels, levels,
      Nat.max_zero]
    by_cases fits : e.levels ≤ depth
    · rw [if_pos fits, if_pos fits]
      simp only
      rw [Text.trimStart_blank_append blank, Text.trimStart_cons (by decide)]
      rfl
    · rw [if_neg fits, if_neg fits]
  | @ItemsForm.more e es before cs behind text _ _ hb h ha hrest, fuel + 1, depth, rest, enough => by
    simp only [List.length_append, List.length_cons] at enough
    have stops : Stops (',' :: (text ++ '\x7d' :: rest)) := ⟨_, _, rfl, rfl⟩
    obtain ⟨ws, blank, read⟩ := h.read fuel depth (by omega) ha stops
    have later := hrest.read fuel depth rest (by omega)
    rw [List.append_assoc, List.append_assoc, List.append_assoc, List.cons_append, items,
      Text.trimStart_blank_append hb, read, levels]
    by_cases fits : e.levels ≤ depth
    · rw [if_pos fits]
      simp only
      rw [Text.trimStart_blank_append blank, Text.trimStart_cons (by decide)]
      simp only
      rw [later]
      by_cases deep : levels es ≤ depth
      · rw [if_pos deep, if_pos (Nat.max_le.mpr ⟨fits, deep⟩)]
        rfl
      · rw [if_neg deep, if_neg fun h => deep (Nat.max_le.mp h).2]
        rfl
    · rw [if_neg fits, if_neg fun h => fits (Nat.max_le.mp h).1]

/-- The text between the braces of an array is read as its items. -/
theorem InnerForm.read {es : List Element} {cs : List Char} {bares : List (List Char)} :
    InnerForm es cs bares → ∀ (fuel depth : Nat) (rest : List Char), 3 * cs.length + 3 ≤ fuel →
      body fuel depth (cs ++ '\x7d' :: rest) =
        if levels es < depth then .ok (es, rest) else .error .dimensions
  | .none blank, fuel + 1, 0, rest, enough => rfl
  | .none blank, fuel + 1, depth + 1, rest, enough => by
    rw [body, Text.trimStart_blank_append blank, Text.trimStart_cons (by decide)]
    exact (if_pos (Nat.zero_lt_succ _)).symm
  | .some h any, fuel + 1, 0, rest, enough => rfl
  | @InnerForm.some es cs _ h any, fuel + 1, depth + 1, rest, enough => by
    have entered : body (fuel + 1) (depth + 1) (cs ++ '\x7d' :: rest) =
        items fuel depth (cs ++ '\x7d' :: rest) := by
      obtain ⟨c, ds, start, closing⟩ := h.head any ('\x7d' :: rest)
      rw [← items_trimStart, body, start]
      split
      · rename_i same
        exact absurd (List.cons.inj same).1 closing
      · rfl
    rw [entered, h.read fuel depth rest (by omega)]
    simp only [Nat.lt_succ_iff]

end

/-! ## What is read is a text of the grammar -/

theorem bare_levels (cs : List Char) : (bare cs).levels = 0 := by
  simp only [bare]
  split <;> rfl

/-- What stands before the next comma or closing brace is an item without quotes, with the white space
behind it. -/
theorem bare_form {c : Char} (cs : List Char) (blank : Text.isBlank c = false) (brace : c ≠ '\x7b')
    (quote : c ≠ '"') :
    ∃ used behind, (c :: cs).takeWhile (!endsItem ·) = used ++ behind ∧ Blank behind ∧
      ItemForm (bare ((c :: cs).takeWhile (!endsItem ·))) used [used] := by
  have inside : ∀ d ∈ (c :: cs).takeWhile (!endsItem ·), endsItem d = false := fun d hd => by
    simpa using List.all_eq_true.mp List.all_takeWhile d hd
  have first : ∀ d, ((c :: cs).takeWhile (!endsItem ·)).head? = some d → d = c := by
    intro d hd
    rw [List.takeWhile_cons] at hd
    split at hd
    · exact (Option.some.inj hd).symm
    · cases hd
  generalize (c :: cs).takeWhile (!endsItem ·) = text at inside first
  have start : trimStart text = text := Text.trimStart_eq_self_iff.mpr fun d hd => first d hd ▸ blank
  obtain ⟨behind, hbehind, split⟩ := Text.exists_trimEnd text
  have trimmed : Text.trim text = Text.trimEnd text := by rw [Text.trim, start]
  rw [← trimmed] at split
  have head : ∀ d, (Text.trim text).head? = some d → d = c := by
    intro d hd
    refine first d ?_
    rw [split, List.head?_append, hd]
    rfl
  have form : BareForm (Text.trim text) :=
    ⟨Text.trim_trim text, fun d hd => inside d (split ▸ List.mem_append_left _ hd),
      fun h => brace (head _ h).symm, fun h => quote (head _ h).symm⟩
  refine ⟨Text.trim text, behind, split, hbehind, ?_⟩
  rw [bare]
  split
  · rename_i word
    exact .null form word
  · rename_i word
    exact .bare form (Bool.not_eq_true _ ▸ word)

mutual

/-- An item that is read has its form, with white space behind it perhaps. -/
theorem element_form : ∀ {fuel depth : Nat} {cs : List Char} {e : Element} {rest : List Char},
    element fuel depth (trimStart cs) = .ok (e, rest) → e.levels ≤ depth ∧
      ∃ used behind bares, trimStart cs = used ++ (behind ++ rest) ∧ Blank behind ∧
        ItemForm e used bares
  | 0, _, _, _, _, h => by cases h
  | fuel + 1, depth, cs, e, rest, h => by
    have head := @Text.head?_trimStart cs
    cases start : trimStart cs with
    | nil =>
      rw [start] at h
      cases h
    | cons c ds =>
      rw [start] at h head
      rw [element] at h
      split at h
      · rename_i opening
        cases inner : body fuel depth ds with
        | error e =>
          rw [inner] at h
          cases h
        | ok read =>
          rw [inner] at h
          cases h
          obtain ⟨fits, used, bares, rfl, form⟩ := body_form inner
          exact ⟨fits, _, [], bares, by simp [opening], .nil, .nested form⟩
      · rename_i opening
        split at h
        · rename_i quote
          split at h
          · rename_i s rest' read
            cases h
            obtain ⟨used, rfl, form⟩ := quotedBody_form read
            exact ⟨Nat.zero_le _, _, [], [], by simp [quote], .nil, .quoted form⟩
          · cases h
        · rename_i quote
          obtain ⟨used, behind, split, blank, form⟩ := bare_form ds (head rfl) opening quote
          cases h
          refine ⟨?_, used, behind, [used], ?_, blank, form⟩
          · rw [bare_levels]
            exact Nat.zero_le _
          · rw [← List.append_assoc, ← split]
            exact (List.prefix_iff_eq_append.mp (List.takeWhile_prefix _)).symm

/-- Items that are read have their form, up to the closing brace. -/
theorem items_form : ∀ {fuel depth : Nat} {cs : List Char} {es : List Element} {rest : List Char},
    items fuel depth cs = .ok (es, rest) → levels es ≤ depth ∧
      ∃ used bares, cs = used ++ '\x7d' :: rest ∧ ItemsForm es used bares
  | 0, _, _, _, _, h => by cases h
  | fuel + 1, depth, cs, es, rest, h => by
    obtain ⟨before, hbefore, start⟩ := Text.exists_trimStart cs
    rw [items] at h
    cases first : element fuel depth (trimStart cs) with
    | error e =>
      rw [first] at h
      cases h
    | ok read =>
      obtain ⟨e, tail⟩ := read
      obtain ⟨fits, used, behind, bares, text, hbehind, form⟩ := element_form first
      obtain ⟨blank, hblank, next⟩ := Text.exists_trimStart tail
      have around : cs = before ++ used ++ (behind ++ blank) ++ trimStart tail := by
        rw [start, text, next, Text.trimStart_blank_append hblank, Text.trimStart_trimStart]
        simp only [List.append_assoc]
      rw [first] at h
      simp only at h
      split at h
      · rename_i comma
        cases more : items fuel depth _ with
        | error e =>
          rw [more] at h
          cases h
        | ok read =>
          rw [more] at h
          cases h
          obtain ⟨fits', used', bares', rfl, form'⟩ := items_form more
          refine ⟨Nat.max_le.mpr ⟨fits, fits'⟩, _, _, ?_,
            .more hbefore form (hbehind.append hblank) form'⟩
          rw [around, comma]
          simp only [List.append_assoc, List.cons_append]
      · rename_i closing
        cases h
        refine ⟨Nat.max_le.mpr ⟨fits, Nat.zero_le _⟩, _, bares, ?_,
          .one hbefore form (hbehind.append hblank)⟩
        rw [around, closing]
      · cases h

/-- What is read between braces has its form. -/
theorem body_form : ∀ {fuel depth : Nat} {cs : List Char} {es : List Element} {rest : List Char},
    body fuel depth cs = .ok (es, rest) → levels es < depth ∧
      ∃ used bares, cs = used ++ '\x7d' :: rest ∧ InnerForm es used bares
  | 0, _, _, _, _, h => by cases h
  | fuel + 1, 0, _, _, _, h => by cases h
  | fuel + 1, depth + 1, cs, es, rest, h => by
    rw [body] at h
    split at h
    · rename_i closing
      cases h
      obtain ⟨blank, hblank, start⟩ := Text.exists_trimStart cs
      rw [closing] at start
      exact ⟨Nat.zero_lt_succ _, blank, [], start, .none hblank⟩
    · rename_i other
      rw [items_trimStart] at h
      obtain ⟨fits, used, bares, rfl, form⟩ := items_form h
      refine ⟨Nat.lt_succ_of_le fits, used, bares, rfl, .some form fun blank => ?_⟩
      -- White space alone before the closing brace would have been the other case.
      rw [Text.trimStart_blank_append blank, Text.trimStart_cons (by decide)] at other
      exact other rest rfl

end

/-- The text is an array of the items by the grammar, with white space around it. The last argument lists
the items without quotes in it. -/
def ArrayForm (es : List Element) (s : String) (bares : List (List Char)) : Prop :=
  ∃ cs, Text.trim s.toList = '\x7b' :: cs ++ ['\x7d'] ∧ InnerForm es cs bares

/-- An array is read as its items, or refused if arrays are nested too deep in it. -/
theorem ArrayForm.read {es : List Element} {s : String} {bares : List (List Char)}
    (h : ArrayForm es s bares) : readArray s =
      if levels es < maxDimensions then .ok es else .error (Malformed.dimensions.fault s) := by
  obtain ⟨cs, text, form⟩ := h
  have enough : 3 * cs.length + 3 ≤ 3 * (cs ++ ['\x7d']).length + 3 := by
    rw [List.length_append]
    omega
  have read := form.read _ maxDimensions [] enough
  unfold readArray
  rw [text, List.cons_append]
  simp only [read]
  by_cases fits : levels es < maxDimensions
  · rw [if_pos fits, if_pos fits]
  · rw [if_neg fits, if_neg fits]

/-- A text is read as some items exactly if it is an array of them by the grammar, and arrays are nested
at most six deep. -/
theorem readArray_eq_ok_iff {s : String} {es : List Element} :
    readArray s = .ok es ↔ levels es < maxDimensions ∧ ∃ bares, ArrayForm es s bares := by
  constructor
  · intro h
    unfold readArray at h
    split at h
    · rename_i cs opening
      split at h
      · rename_i read
        cases h
        obtain ⟨fits, used, bares, rfl, form⟩ := body_form read
        exact ⟨fits, bares, used, opening, form⟩
      · cases h
      · cases h
    · cases h
  · rintro ⟨fits, bares, form⟩
    rw [form.read, if_pos fits]

end TableGateway.Literal
