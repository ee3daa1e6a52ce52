import TableGateway.Proofs.ArrayGrammar

/-!
# Quotes and braces of array literals

A text is balanced if each of its quotes is closed and its first brace is closed by its last character,
where braces in quotes do not count. The reader looks for quotes and opening braces only where an item
begins, so that it takes a text that is not balanced if an item without quotes holds one of them, and
refuses any other. Main statement: `Literal.readArray_unbalanced_iff`.
-/
namespace TableGateway.Literal

open Text (Blank)

/-- In quotes or not, and within so many braces, the text closes its quotes and goes on to the brace that
closes the first one, where it ends. In quotes, a backslash takes the next character as it is. -/
def closesAtEnd : Bool → Nat → List Char → Bool
  | _, _, [] => false
  | true, depth, '\\' :: _ :: cs => closesAtEnd true depth cs
  | true, depth, c :: cs => closesAtEnd (c ≠ '"') depth cs
  | false, depth, c :: cs =>
    if c = '"' then closesAtEnd true depth cs
    else if c = '\x7b' then closesAtEnd false (depth + 1) cs
    else if c = '\x7d' then
      if 1 < depth then closesAtEnd false (depth - 1) cs else depth = 1 && cs.isEmpty
    else closesAtEnd false depth cs

/-- All quotes are closed, and the first brace is closed by the last character of the text. -/
def isBalanced (cs : List Char) : Bool := closesAtEnd false 0 cs

/-- The item without quotes holds a quote or an opening brace. -/
def Stray (cs : List Char) : Prop := '"' ∈ cs ∨ '\x7b' ∈ cs

/-! ## Texts that leave the balance as it is -/

/-- Within braces, the text closes what it opens. -/
def Neutral (cs : List Char) : Prop :=
  ∀ depth rest, closesAtEnd false (depth + 1) (cs ++ rest) = closesAtEnd false (depth + 1) rest

theorem Neutral.nil : Neutral [] := fun _ _ => rfl

theorem Neutral.append {cs ds : List Char} (hc : Neutral cs) (hd : Neutral ds) : Neutral (cs ++ ds) := by
  intro depth rest
  rw [List.append_assoc, hc, hd]

theorem Neutral.cons {c : Char} {cs : List Char} (quote : c ≠ '"') (opening : c ≠ '\x7b')
    (closing : c ≠ '\x7d') (h : Neutral cs) : Neutral (c :: cs) := by
  intro depth rest
  rw [List.cons_append, closesAtEnd, if_neg quote, if_neg opening, if_neg closing, h]

theorem Neutral.blank {cs : List Char} (h : Blank cs) : Neutral cs := by
  induction cs with
  | nil => exact .nil
  | cons c cs ih =>
    have first := h c (List.mem_cons_self ..)
    refine .cons ?_ ?_ ?_ (ih fun d hd => h d (List.mem_cons_of_mem c hd)) <;> rintro rfl
    · exact absurd first (by decide)
    · exact absurd first (by decide)
    · exact absurd first (by decide)

theorem Neutral.bare {cs : List Char} (inside : ∀ c ∈ cs, endsItem c = false) (h : ¬ Stray cs) :
    Neutral cs := by
  induction cs with
  | nil => exact .nil
  | cons c cs ih =>
    simp only [Stray, List.mem_cons, not_or] at h
    obtain ⟨⟨quote, quotes⟩, opening, openings⟩ := h
    refine .cons (Ne.symm quote) (Ne.symm opening) ?_
      (ih (fun d hd => inside d (List.mem_cons_of_mem c hd)) (not_or.mpr ⟨quotes, openings⟩))
    rintro rfl
    exact absurd (inside '\x7d' (List.mem_cons_self ..)) (by decide)

/-- A text in quotes goes on to the quote that closes them. -/
theorem QuotedForm.closes {s cs : List Char} (h : QuotedForm s cs) (depth : Nat) (rest : List Char) :
    closesAtEnd true depth (cs ++ '"' :: rest) = closesAtEnd false depth rest := by
  induction h with
  | nil => simp [closesAtEnd]
  | @plain c s cs quote backslash _ ih =>
    rw [List.cons_append, closesAtEnd.eq_3 depth c _ fun _ _ h => absurd h backslash]
    simpa [quote] using ih
  | escaped _ ih =>
    rw [List.cons_append, List.cons_append, closesAtEnd]
    exact ih

theorem Neutral.quoted {s cs : List Char} (h : QuotedForm s cs) : Neutral ('"' :: cs ++ ['"']) := by
  intro depth rest
  rw [List.cons_append, List.cons_append, List.append_assoc, List.singleton_append, closesAtEnd, if_pos rfl,
    h.closes]

theorem Neutral.braces {cs : List Char} (h : Neutral cs) : Neutral ('\x7b' :: cs ++ ['\x7d']) := by
  intro depth rest
  have quote : '\x7b' ≠ '"' := by decide
  rw [List.cons_append, List.cons_append, List.append_assoc, List.singleton_append, closesAtEnd,
    if_neg quote, if_pos rfl, h]
  simp [closesAtEnd]

/-! ## Texts of the grammar -/

mutual

/-- The text of an item is neutral, if nothing is stray in the items without quotes. -/
theorem ItemForm.neutral {e : Element} {cs : List Char} {bares : List (List Char)} :
    ItemForm e cs bares → (∀ b ∈ bares, ¬ Stray b) → Neutral cs
  | .null h _, tidy => .bare h.inside (tidy _ (List.mem_singleton_self _))
  | .bare h _, tidy => .bare h.inside (tidy _ (List.mem_singleton_self _))
  | .quoted h, _ => .quoted h
  | .nested h, tidy => (h.neutral tidy).braces

theorem ItemsForm.neutral {es : List Element} {cs : List Char} {bares : List (List Char)} :
    ItemsForm es cs bares → (∀ b ∈ bares, ¬ Stray b) → Neutral cs
  | .one hb h ha, tidy => ((Neutral.blank hb).append (h.neutral tidy)).append (.blank ha)
  | .more hb h ha hrest, tidy => by
    have item := h.neutral fun b hb => tidy b (List.mem_append_left _ hb)
    have rest := hrest.neutral fun b hb => tidy b (List.mem_append_right _ hb)
    exact (((Neutral.blank hb).append item).append (.blank ha)).append
      (.cons (by decide) (by decide) (by decide) rest)

theorem InnerForm.neutral {es : List Element} {cs : List Char} {bares : List (List Char)} :
    InnerForm es cs bares → (∀ b ∈ bares, ¬ Stray b) → Neutral cs
  | .none h, _ => .blank h
  | .some h _, tidy => h.neutral tidy

end

/-- An array is balanced, if nothing is stray in its items without quotes. -/
theorem ArrayForm.balanced {es : List Element} {s : String} {bares : List (List Char)}
    (h : ArrayForm es s bares) (tidy : ∀ b ∈ bares, ¬ Stray b) :
    isBalanced (Text.trim s.toList) = true := by
  obtain ⟨cs, text, form⟩ := h
  have quote : '\x7b' ≠ '"' := by decide
  rw [text, isBalanced, List.cons_append, closesAtEnd, if_neg quote, if_pos rfl, form.neutral tidy]
  rfl

/-- A text that is not balanced is read as some items exactly if it is an array of them in which an item
without quotes holds a quote or an opening brace. -/
theorem readArray_unbalanced_iff {s : String} (unbalanced : isBalanced (Text.trim s.toList) = false)
    (es : List Element) : readArray s = .ok es ↔ levels es < maxDimensions ∧
      ∃ bares, ArrayForm es s bares ∧ ∃ b ∈ bares, Stray b := by
  rw [readArray_eq_ok_iff]
  refine and_congr_right fun _ => exists_congr fun bares => ⟨fun form => ⟨form, ?_⟩, fun h => h.1⟩
  by_contra tidy
  push Not at tidy
  rw [form.balanced tidy] at unbalanced
  cases unbalanced

/-- A quote inside an item opens nothing for the reader. -/
theorem readArray_unbalanced_iff_quote :
    isBalanced (Text.trim "\x7ba\"b\x7d".toList) = false ∧
    (levels [.item "a\"b"] < maxDimensions ∧
      ∃ bares, ArrayForm [.item "a\"b"] "\x7ba\"b\x7d" bares ∧ ∃ b ∈ bares, Stray b) := by
  have unbalanced : isBalanced (Text.trim "\x7ba\"b\x7d".toList) = false := by decide
  exact ⟨unbalanced, (readArray_unbalanced_iff unbalanced _).mp rfl⟩

/-- A quote that is not closed is taken as a character of an item. -/
theorem quote_unclosed_read :
    isBalanced (Text.trim "\x7ba\"b\x7d".toList) = false ∧
    readArray "\x7ba\"b\x7d" = .ok [.item "a\"b"] := ⟨by decide, rfl⟩

end TableGateway.Literal
