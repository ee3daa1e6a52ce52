import TableGateway.Denylist
import TableGateway.Proofs.Outcome

/-!
# The denylist

A text is denied if a denied sequence stands anywhere in it, or a keyword as a word of its own. The
check of values refuses the denied texts and no others (`Denylist.checkValue_ok_iff`). Cutting a text at
a character that is neither part of a word nor of a sequence does not hide anything: one of the two
parts is denied as well (`Denied.cut`).
-/
namespace TableGateway

/-- A text is found where it stands. -/
theorem Text.holds_iff {needle : List Char} : ∀ {cs : List Char},
    Text.holds needle cs = true ↔ needle <:+: cs
  | [] => by simp [holds, List.isEmpty_iff]
  | c :: cs => by
    rw [holds, Bool.or_eq_true, holds_iff, List.infix_cons_iff, Option.isSome_iff_exists]
    simp only [dropLead?_eq_some_iff, List.prefix_iff_exists_eq_append]

/-- A character is one of ASCII, or has no other case. -/
theorem ascii_or_caseless (c : Char) :
    (∃ n < 128, c = Char.ofNat n) ∨ (128 ≤ c.toNat ∧ c.toLower = c ∧ c.toUpper = c) := by
  by_cases h : c.toNat < 128
  · exact .inl ⟨c.toNat, h, (Char.ofNat_toNat c).symm⟩
  · refine .inr ⟨by omega, ?_, ?_⟩
    · unfold Char.toLower
      rw [dif_neg]
      rintro ⟨-, hz⟩
      have : c.toNat ≤ 90 := hz
      omega
    · unfold Char.toUpper
      rw [dif_neg]
      rintro ⟨-, hz⟩
      have : c.toNat ≤ 122 := hz
      omega

namespace Denylist

theorem sequence?_eq_none {denied : List String} {s : String} :
    sequence? denied s = none ↔ ∀ d ∈ denied, ¬ d.toList <:+: s.toList := by
  simp only [sequence?, List.find?_eq_none, Text.holds_iff]

theorem checkItem_ok {s : String} (h : checkItem s = .ok ()) :
    checkValue s = .ok () ∧ sequence? itemSequences s = none := by
  unfold checkItem at h
  split at h
  · cases h
  · rename_i passed
    split at h
    · cases h
    · rename_i none
      exact ⟨passed, none⟩

/-- An item of a list that passes has no quotes. -/
theorem checkItem_quote {s : String} (h : checkItem s = .ok ()) : '\'' ∉ s.toList := by
  intro mem
  obtain ⟨before, after, split⟩ := List.append_of_mem mem
  refine sequence?_eq_none.mp (checkItem_ok h).2 "'" (by decide) ⟨before, after, ?_⟩
  simp [split]

/-! ## Letters -/

/-- The letters of a word are characters of words. -/
theorem isWordChar_of_isLetter {k c : Char} (hk : k.isUpper = true) (h : isLetter k c = true) :
    Text.isWordChar c = true := by
  simp only [isLetter, Bool.or_eq_true, beq_iff_eq, Bool.and_eq_true] at h
  rcases h with rfl | ⟨-, rfl⟩
  · rcases ascii_or_caseless c with ⟨n, hn, rfl⟩ | ⟨hc, -, same⟩
    · have all : ∀ n < 128, (Char.ofNat n).toUpper.isUpper = true → Text.isWordChar (Char.ofNat n) = true := by
        decide
      exact all n hn hk
    · rw [same] at hk
      have bounds : 65 ≤ c.toNat ∧ c.toNat ≤ 90 := of_decide_eq_true hk
      omega
  · decide +kernel

theorem isWordChar_toLower (c : Char) : Text.isWordChar c.toLower = Text.isWordChar c := by
  rcases ascii_or_caseless c with ⟨n, hn, rfl⟩ | ⟨-, same, -⟩
  · have all : ∀ n < 128,
        Text.isWordChar (Char.ofNat n).toLower = Text.isWordChar (Char.ofNat n) := by decide
    exact all n hn
  · rw [same]

/-- Letters keep being letters of a word in their other case. -/
theorem isLetter_toLower {k c : Char} (h : isLetter k c = true) : isLetter k c.toLower = true := by
  rcases ascii_or_caseless c with ⟨n, hn, rfl⟩ | ⟨-, same, -⟩
  · have all : ∀ n < 128, (Char.ofNat n).toLower.toUpper = (Char.ofNat n).toUpper ∧
        Char.ofNat n ≠ '\u017F' := by decide
    obtain ⟨upper, other⟩ := all n hn
    simp only [isLetter, Bool.or_eq_true, beq_iff_eq, Bool.and_eq_true, other, and_false,
      or_false] at h ⊢
    exact .inl (upper.trans h)
  · rwa [same]

/-! ## Denied texts -/

/-- A character belongs to a word. -/
abbrev IsWord (c : Option Char) : Prop := c.any Text.isWordChar = true

/-- The letters of a word in capitals, in some case. -/
def Spelled (word found : List Char) : Prop := List.Forall₂ (fun k c => isLetter k c = true) word found

/-- The word stands in the text after the character `before`, and is no part of a longer one. -/
def StandsAfter (before : Option Char) (word cs : List Char) : Prop :=
  ∃ start found rest, cs = start ++ found ++ rest ∧ Spelled word found ∧
    ¬ IsWord (start.getLast?.or before) ∧ ¬ IsWord rest.head?

/-- The text holds a denied sequence, or a keyword as a word of its own in any case. -/
def Denied (cs : List Char) : Prop :=
  (∃ d ∈ sequences, d.toList <:+: cs) ∨ ∃ k ∈ keywords, StandsAfter none k.toList cs

theorem dropWord?_eq_some_iff {word cs rest : List Char} :
    dropWord? word cs = some rest ↔ ∃ found, cs = found ++ rest ∧ Spelled word found := by
  induction word generalizing cs with
  | nil =>
    simp only [dropWord?, Option.some.injEq, Spelled, List.forall₂_nil_left_iff]
    constructor
    · rintro rfl
      exact ⟨[], rfl, rfl⟩
    · rintro ⟨_, rfl, rfl⟩
      rfl
  | cons k ks ih =>
    cases cs with
    | nil => simp [dropWord?, Spelled, List.forall₂_cons_left_iff]
    | cons c cs =>
      simp only [dropWord?, Spelled, List.forall₂_cons_left_iff]
      split
      · rename_i letter
        rw [ih]
        constructor
        · rintro ⟨found, rfl, h⟩
          exact ⟨c :: found, rfl, c, found, letter, h, rfl⟩
        · rintro ⟨_, h, d, found, -, hfound, rfl⟩
          obtain ⟨rfl, rfl⟩ := List.cons.inj h
          exact ⟨found, rfl, hfound⟩
      · rename_i other
        constructor
        · rintro ⟨⟩
        · rintro ⟨_, h, d, found, letter, -, rfl⟩
          obtain ⟨rfl, rfl⟩ := List.cons.inj h
          exact absurd letter other

/-- The letters of keywords are capitals. -/
theorem isUpper_of_keyword {k : String} (hk : k ∈ keywords) :
    ∀ c ∈ k.toList, c.isUpper = true := by
  have all : ∀ k ∈ keywords, k.toList.all Char.isUpper = true := by decide
  exact List.all_eq_true.mp (all k hk)

/-- What spells a keyword is made of characters of words. -/
theorem Spelled.isWordChar {k : String} (hk : k ∈ keywords) {found : List Char}
    (h : Spelled k.toList found) : ∀ c ∈ found, Text.isWordChar c = true := by
  intro c hc
  obtain ⟨letter, hletter, hc⟩ := exists_of_forall₂ h c hc
  exact isWordChar_of_isLetter (isUpper_of_keyword hk letter hletter) hc

/-- A keyword begins a text and ends there. -/
theorem beginsWith_iff {k : String} (hk : k ∈ keywords) {cs : List Char} :
    beginsWith k.toList cs = true ↔
      ∃ found rest, cs = found ++ rest ∧ Spelled k.toList found ∧ ¬ IsWord rest.head? := by
  -- The last letter is a character of words, so that the word ends where none follows.
  have last : k.toList.getLast?.any Text.isWordChar = true := by
    have all : ∀ k ∈ keywords, k.toList.getLast?.any Text.isWordChar = true := by decide
    exact all k hk
  have boundary : ∀ rest : List Char,
      Text.isWordBoundary k.toList.getLast? rest.head? = true ↔ ¬ IsWord rest.head? := by
    intro rest
    simp [Text.isWordBoundary, last, IsWord]
  unfold beginsWith
  split
  · rename_i rest hrest
    obtain ⟨found, rfl, spelled⟩ := dropWord?_eq_some_iff.mp hrest
    rw [boundary]
    constructor
    · intro h
      exact ⟨found, rest, rfl, spelled, h⟩
    · rintro ⟨found', rest', same, spelled', h⟩
      have length : found.length = found'.length := by rw [← spelled.length_eq, spelled'.length_eq]
      obtain ⟨rfl, rfl⟩ := List.append_inj same length
      exact h
  · rename_i none
    constructor
    · rintro ⟨⟩
    · rintro ⟨found, rest, rfl, spelled, -⟩
      have some : dropWord? k.toList (found ++ rest) = some rest :=
        dropWord?_eq_some_iff.mpr ⟨found, rfl, spelled⟩
      rw [none] at some
      cases some

theorem Spelled.ne_nil {k : String} (hk : k ∈ keywords) {found : List Char}
    (h : Spelled k.toList found) : found ≠ [] := by
  rintro rfl
  have all : ∀ k ∈ keywords, k.toList.length ≠ 0 := by decide
  exact all k hk h.length_eq

/-- A word stands in a text at its first character or after it. -/
theorem standsAfter_cons {before : Option Char} {word cs : List Char} {c : Char} :
    StandsAfter before word (c :: cs) ↔
      (∃ found rest, c :: cs = found ++ rest ∧ Spelled word found ∧ ¬ IsWord before ∧
        ¬ IsWord rest.head?) ∨ StandsAfter (some c) word cs := by
  have last : ∀ start : List Char,
      (c :: start).getLast?.or before = start.getLast?.or (some c) := by
    intro start
    rw [List.getLast?_cons]
    cases start.getLast? <;> rfl
  constructor
  · rintro ⟨start, found, rest, h, spelled, hbefore, hafter⟩
    cases start with
    | nil => exact .inl ⟨found, rest, h, spelled, hbefore, hafter⟩
    | cons d start =>
      obtain ⟨rfl, rfl⟩ := List.cons.inj h
      rw [last] at hbefore
      exact .inr ⟨start, found, rest, rfl, spelled, hbefore, hafter⟩
  · rintro (⟨found, rest, h, spelled, hbefore, hafter⟩ |
      ⟨start, found, rest, rfl, spelled, hbefore, hafter⟩)
    · exact ⟨[], found, rest, h, spelled, hbefore, hafter⟩
    · exact ⟨c :: start, found, rest, rfl, spelled, by rwa [last], hafter⟩

/-- The search finds a keyword exactly if one stands in the text. -/
theorem keywordFrom?_isSome_iff {cs : List Char} : ∀ {before : Option Char},
    (keywordFrom? before cs).isSome = true ↔ ∃ k ∈ keywords, StandsAfter before k.toList cs := by
  induction cs with
  | nil =>
    intro before
    refine ⟨(nomatch ·), ?_⟩
    rintro ⟨k, hk, start, found, rest, h, spelled, -⟩
    simp only [List.nil_eq, List.append_eq_nil_iff] at h
    exact absurd h.1.2 (spelled.ne_nil hk)
  | cons c cs ih =>
    intro before
    rw [keywordFrom?, Option.isSome_or, Bool.or_eq_true, ih]
    -- At the first character there is a boundary exactly if it is not preceded by a word.
    have here : (if Text.isWordBoundary before (some c) then
          keywords.find? fun word => beginsWith word.toList (c :: cs) else none).isSome = true ↔
        ∃ k ∈ keywords, ∃ found rest, c :: cs = found ++ rest ∧ Spelled k.toList found ∧
          ¬ IsWord before ∧ ¬ IsWord rest.head? := by
      have boundary : ∀ k ∈ keywords, ∀ found rest, c :: cs = found ++ rest →
          Spelled k.toList found →
            (Text.isWordBoundary before (some c) = true ↔ ¬ IsWord before) := by
        intro k hk found rest h spelled
        have word : Text.isWordChar c = true := by
          cases found with
          | nil => exact absurd rfl (spelled.ne_nil hk)
          | cons d found =>
            obtain ⟨rfl, -⟩ := List.cons.inj h
            exact spelled.isWordChar hk c (by simp)
        simp [Text.isWordBoundary, IsWord, word]
      constructor
      · intro h
        split at h
        · rename_i bound
          rw [List.find?_isSome] at h
          obtain ⟨k, hk, h⟩ := h
          obtain ⟨found, rest, split, spelled, hafter⟩ := (beginsWith_iff hk).mp h
          exact ⟨k, hk, found, rest, split, spelled,
            (boundary k hk found rest split spelled).mp bound, hafter⟩
        · cases h
      · rintro ⟨k, hk, found, rest, split, spelled, hbefore, hafter⟩
        rw [if_pos ((boundary k hk found rest split spelled).mpr hbefore), List.find?_isSome]
        exact ⟨k, hk, (beginsWith_iff hk).mpr ⟨found, rest, split, spelled, hafter⟩⟩
    rw [here]
    simp only [standsAfter_cons]
    constructor
    · rintro (⟨k, hk, h⟩ | ⟨k, hk, h⟩)
      · exact ⟨k, hk, .inl h⟩
      · exact ⟨k, hk, .inr h⟩
    · rintro ⟨k, hk, h | h⟩
      · exact .inl ⟨k, hk, h⟩
      · exact .inr ⟨k, hk, h⟩

/-- The values that pass are those that are not denied. -/
theorem checkValue_ok_iff {s : String} : checkValue s = .ok () ↔ ¬ Denied s.toList := by
  have sequence : sequence? sequences s = none ↔ ¬ ∃ d ∈ sequences, d.toList <:+: s.toList := by
    rw [sequence?_eq_none]
    simp
  have keyword : keyword? s = none ↔ ¬ ∃ k ∈ keywords, StandsAfter none k.toList s.toList := by
    rw [← keywordFrom?_isSome_iff, keyword?]
    simp
  rw [Denied, not_or, ← sequence, ← keyword, checkValue]
  cases sequence? sequences s with
  | some d => simp
  | none =>
    cases keyword? s with
    | some word => simp
    | none => simp

/-! ## Cutting -/

/-- A character that is neither part of a word nor of a denied sequence. -/
structure Separates (c : Char) : Prop where
  word : Text.isWordChar c = false
  sequence : ∀ d ∈ sequences, c ∉ d.toList

/-- A piece of a text without a character lies before that character or after it. -/
theorem piece_of_cut {sep : Char} {start found rest a b : List Char} (hsep : sep ∉ found)
    (h : start ++ found ++ rest = a ++ sep :: b) :
    (∃ rest', a = start ++ found ++ rest' ∧ rest = rest' ++ sep :: b) ∨
      ∃ start', start = a ++ sep :: start' ∧ b = start' ++ found ++ rest := by
  rcases List.append_eq_append_iff.mp h with ⟨rest', ha, hrest⟩ | ⟨more, hmore, hb⟩
  · exact .inl ⟨rest', ha, hrest⟩
  · cases more with
    | nil => exact .inl ⟨[], by simpa using hmore.symm, hb.symm⟩
    | cons c more =>
      obtain ⟨rfl, rfl⟩ := List.cons.inj hb
      rcases List.append_eq_append_iff.mp hmore with ⟨found', -, hfound⟩ | ⟨start', hstart, hfound⟩
      · rw [hfound] at hsep
        simp at hsep
      · cases start' with
        | nil =>
          rw [← List.nil_append found, ← hfound] at hsep
          simp at hsep
        | cons d start' =>
          obtain ⟨rfl, rfl⟩ := List.cons.inj hfound
          exact .inr ⟨start', hstart, rfl⟩

theorem not_denied_nil : ¬ Denied [] := by
  rintro (⟨d, hd, h⟩ | ⟨k, hk, start, found, rest, h, spelled, -⟩)
  · have all : ∀ d ∈ sequences, d.toList ≠ [] := by decide
    exact all d hd (List.infix_nil.mp h)
  · simp only [List.nil_eq, List.append_eq_nil_iff] at h
    exact spelled.ne_nil hk h.1.2

/-- A text cut at a separating character is denied only if one of its parts is. -/
theorem Denied.cut {sep : Char} (hsep : Separates sep) {a b : List Char}
    (h : Denied (a ++ sep :: b)) : Denied a ∨ Denied b := by
  rcases h with ⟨d, hd, start, rest, h⟩ | ⟨k, hk, start, found, rest, h, spelled, before, after⟩
  · rcases piece_of_cut (hsep.sequence d hd) h with ⟨rest', ha, -⟩ | ⟨start', -, hb⟩
    · exact .inl (.inl ⟨d, hd, start, rest', ha.symm⟩)
    · exact .inr (.inl ⟨d, hd, start', rest, hb.symm⟩)
  · have absent : sep ∉ found := fun mem => by
      have word := spelled.isWordChar hk sep mem
      rw [hsep.word] at word
      cases word
    rcases piece_of_cut absent h.symm with ⟨rest', ha, hrest⟩ | ⟨start', hstart, hb⟩
    · refine .inl (.inr ⟨k, hk, start, found, rest', ha, spelled, before, ?_⟩)
      cases rest' with
      | nil => simp [IsWord]
      | cons c rest' =>
        rw [hrest] at after
        exact after
    · refine .inr (.inr ⟨k, hk, start', found, rest, hb, spelled, ?_, after⟩)
      cases start' with
      | nil => simp [IsWord]
      | cons c start' =>
        rw [hstart, List.getLast?_append, List.getLast?_cons_cons] at before
        simpa [List.getLast?_cons] using before

/-- Nothing is hidden by separating characters in front. -/
theorem Denied.of_append_left {a b : List Char} (ha : ∀ c ∈ a, Separates c) (h : Denied (a ++ b)) :
    Denied b := by
  induction a with
  | nil => exact h
  | cons c a ih =>
    rcases Denied.cut (a := []) (ha c (by simp)) h with h | h
    · exact absurd h not_denied_nil
    · exact ih (fun d hd => ha d (by simp [hd])) h

/-- Nor by those at the end. -/
theorem Denied.of_append_right {a b : List Char} (hb : ∀ c ∈ b, Separates c) (h : Denied (a ++ b)) :
    Denied a := by
  cases b with
  | nil => rwa [List.append_nil] at h
  | cons c b =>
    rcases h.cut (hb c (by simp)) with h | h
    · exact h
    · have none : Denied (b ++ []) := by rwa [List.append_nil]
      exact absurd (none.of_append_left fun d hd => hb d (by simp [hd])) not_denied_nil

end Denylist
end TableGateway
