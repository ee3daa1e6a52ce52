import Mathlib.Algebra.GroupWithZero.Nat
import TableGateway.Statement.Basic

/-!
# Reading statements from left to right

A text of SQL is read character by character, where a single quote opens a literal or closes it. A
`Manner` tells which characters may stand outside literals and which texts in them, and `Spells` says
that a text keeps to it, ends outside a literal, and has so many placeholders. Texts that keep to a
manner may be put together: `Spells.append`, `Spells.join`.
-/
namespace TableGateway

/-- What has been found in a text. -/
structure Scan where
  /-- The characters outside literals. -/
  code : List Char := []
  /-- The texts in the literals that are closed. -/
  literals : List String := []
  /-- The text in the literal that is open. -/
  pending : Option (List Char) := none
  deriving DecidableEq, Repr

namespace Scan

def step (s : Scan) (c : Char) : Scan :=
  match s.pending with
  | none => if c = '\'' then { s with pending := some [] } else { s with code := s.code ++ [c] }
  | some cs =>
    if c = '\'' then { s with literals := s.literals ++ [String.ofList cs], pending := none }
    else { s with pending := some (cs ++ [c]) }

def of (s : String) : Scan := s.toList.foldl step {}

/-- What was found before is kept. -/
def after (first last : Scan) : Scan :=
  { last with code := first.code ++ last.code, literals := first.literals ++ last.literals }

theorem step_after (first last : Scan) (c : Char) :
    step (first.after last) c = first.after (step last c) := by
  obtain ⟨code, literals, pending⟩ := last
  cases pending <;> by_cases h : c = '\'' <;> simp [step, after, h]

theorem foldl_after (first : Scan) : ∀ (cs : List Char) (last : Scan),
    cs.foldl step (first.after last) = first.after (cs.foldl step last)
  | [], _ => rfl
  | c :: cs, last => by
    rw [List.foldl_cons, step_after, foldl_after first cs]
    rfl

/-- After a text that ends outside a literal, another one is read as if it stood alone. -/
theorem of_append {a b : String} (h : (of a).pending = none) : of (a ++ b) = (of a).after (of b) := by
  have start : of a = (of a).after {} := by simp [after, ← h]
  unfold of at *
  rw [String.toList_append, List.foldl_append]
  conv => lhs; rw [start]
  exact foldl_after _ _ _

/-- Outside literals, a text without quotes is read as it is. -/
theorem foldl_code {cs : List Char} (h : '\'' ∉ cs) (s : Scan) (hs : s.pending = none) :
    cs.foldl step s = { s with code := s.code ++ cs } := by
  induction cs generalizing s with
  | nil => simp
  | cons c cs ih =>
    simp only [List.mem_cons, not_or] at h
    have hc : step s c = { s with code := s.code ++ [c] } := by simp [step, hs, Ne.symm h.1]
    rw [List.foldl_cons, hc, ih h.2]
    · simp
    · exact hs

/-- So it is within a literal. -/
theorem foldl_literal {cs : List Char} (h : '\'' ∉ cs) (s : Scan) {l : List Char}
    (hs : s.pending = some l) : cs.foldl step s = { s with pending := some (l ++ cs) } := by
  induction cs generalizing s l with
  | nil => simp [← hs]
  | cons c cs ih =>
    simp only [List.mem_cons, not_or] at h
    have hc : step s c = { s with pending := some (l ++ [c]) } := by
      simp [step, hs, Ne.symm h.1]
    rw [List.foldl_cons, hc, ih h.2 _ rfl]
    simp

theorem of_code {s : String} (h : '\'' ∉ s.toList) : of s = { code := s.toList } :=
  foldl_code h {} rfl

/-- A text without quotes stands in its literal as it is. -/
theorem of_quotedLiteral {s : String} (h : '\'' ∉ s.toList) :
    of (quotedLiteral s) = { literals := [s] } := by
  have same : (s.toList.flatMap fun c => if c = '\'' then ['\'', '\''] else [c]) = s.toList := by
    generalize s.toList = cs at h
    induction cs with
    | nil => rfl
    | cons c cs ih =>
      simp only [List.mem_cons, not_or] at h
      simp [Ne.symm h.1, ih h.2]
  have opened : step {} '\'' = { pending := some [] } := rfl
  simp only [of, quotedLiteral, same, String.toList_append, String.toList_ofList,
    List.foldl_append]
  show step (s.toList.foldl step (step {} '\'')) '\'' = _
  rw [opened, foldl_literal h _ rfl]
  simp [step]

end Scan

/-- The characters of the fixed parts of statements: none that could end a statement or open a
comment, a literal or a quoted name. -/
def isSqlChar (c : Char) : Bool := c ∉ [';', '-', '/', '\\', '"', '\'']

/-- A fixed part of a statement has so many placeholders, and no literal but `english`. -/
def isFixed (n : Nat) (s : String) : Bool :=
  let scan := Scan.of s
  scan.pending.isNone && scan.code.all isSqlChar && scan.literals.all (· == "english") &&
    scan.code.count '?' == n

/-- What may stand in a statement outside literals, and in them. -/
structure Manner where
  code : Char → Prop
  literal : String → Prop
  code_of_sql : ∀ c, isSqlChar c = true → code c
  quote_not_mem : ∀ s, literal s → '\'' ∉ s.toList
  english : literal "english"

namespace Manner

variable (m : Manner)

/-- The text keeps to the manner and has `n` placeholders. -/
structure Spells (n : Nat) (s : String) : Prop where
  closed : (Scan.of s).pending = none
  code : ∀ c ∈ (Scan.of s).code, m.code c
  literals : ∀ l ∈ (Scan.of s).literals, m.literal l
  marks : (Scan.of s).code.count '?' = n

/-- A name or a part of one, which is neither quoted nor read as a placeholder. -/
def Word (s : String) : Prop := ∀ c ∈ s.toList, m.code c ∧ c ≠ '\'' ∧ c ≠ '?'

variable {m}

theorem Spells.cast {k n : Nat} {s : String} (h : m.Spells k s) (e : k = n) : m.Spells n s := e ▸ h

theorem Spells.append {k n : Nat} {a b : String} (ha : m.Spells k a) (hb : m.Spells n b) :
    m.Spells (k + n) (a ++ b) := by
  have h := Scan.of_append (b := b) ha.closed
  refine ⟨?_, ?_, ?_, ?_⟩ <;> rw [h] <;> simp only [Scan.after]
  · exact hb.closed
  · intro c hc
    rcases List.mem_append.mp hc with hc | hc
    · exact ha.code c hc
    · exact hb.code c hc
  · intro l hl
    rcases List.mem_append.mp hl with hl | hl
    · exact ha.literals l hl
    · exact hb.literals l hl
  · rw [List.count_append, ha.marks, hb.marks]

/-- A fixed text, by evaluation. -/
theorem Spells.fixed (n : Nat) {s : String} (h : isFixed n s = true) : m.Spells n s := by
  simp only [isFixed, Bool.and_eq_true, Option.isNone_iff_eq_none, List.all_eq_true,
    beq_iff_eq] at h
  obtain ⟨⟨⟨closed, code⟩, literals⟩, marks⟩ := h
  exact ⟨closed, fun c hc => m.code_of_sql c (code c hc),
    fun l hl => literals l hl ▸ m.english, marks⟩

/-- A fixed text at the end. -/
theorem Spells.text {k : Nat} {a b : String} (ha : m.Spells k a) (n : Nat)
    (hb : isFixed n b = true) : m.Spells (k + n) (a ++ b) := ha.append (.fixed n hb)

/-- A fixed text in front. -/
theorem Spells.lead {k : Nat} {a b : String} (hb : m.Spells k b) (n : Nat)
    (ha : isFixed n a = true) : m.Spells (n + k) (a ++ b) := .append (.fixed n ha) hb

theorem Spells.word {s : String} (h : m.Word s) : m.Spells 0 s := by
  have hq : '\'' ∉ s.toList := fun hc => (h _ hc).2.1 rfl
  refine ⟨?_, ?_, ?_, ?_⟩ <;> rw [Scan.of_code hq]
  · exact fun c hc => (h c hc).1
  · simp
  · exact List.count_eq_zero.mpr fun hc => (h _ hc).2.2 rfl

theorem Spells.quoted {s : String} (h : m.literal s) : m.Spells 0 (quotedLiteral s) := by
  refine ⟨?_, ?_, ?_, ?_⟩ <;> rw [Scan.of_quotedLiteral (m.quote_not_mem s h)]
  · simp
  · simpa using h
  · rfl

/-- Texts with a separator between them. -/
theorem Spells.join {α : Type} {separator : String} {marks : α → Nat} {text : α → String}
    (hsep : m.Spells 0 separator) : ∀ {l : List α}, (∀ a ∈ l, m.Spells (marks a) (text a)) →
      m.Spells (l.map marks).sum (joined separator (l.map text))
  | [], _ => Spells.fixed 0 (s := "") (by decide)
  | [a], h => (h a (by simp)).cast (by simp)
  | a :: b :: l, h => by
    have rest := Spells.join hsep (l := b :: l) fun c hc => h c (List.mem_cons_of_mem a hc)
    exact (((h a (by simp)).append hsep).append rest).cast (by simp)

/-- Texts without placeholders with a separator between them. -/
theorem Spells.join_words {separator : String} {l : List String} (hsep : m.Spells 0 separator)
    (h : ∀ s ∈ l, m.Spells 0 s) : m.Spells 0 (joined separator l) := by
  have none : (l.map fun _ => 0).sum = 0 := by rw [List.map_const', List.sum_replicate_nat]; simp
  have all : m.Spells (l.map fun _ => 0).sum (joined separator (l.map id)) := .join hsep h
  rwa [none, List.map_id] at all

end Manner
end TableGateway
