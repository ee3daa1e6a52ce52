import Mathlib.Data.List.Infix
import TableGateway.Violation

/-!
# Classes of database failures

A failure of the database is told apart by its SQLSTATE first and by the words of its message second. What it
becomes is classified once and for all, and a refusal of the client's data is never a failure of the server,
whatever the message says. `Violation.Tells` says without a search what a message has to hold to be classified
by its words. Main statement: `Fault.classified_stable`.
-/
namespace TableGateway

theorem Text.cut?_eq_some_iff {sep : Char} {cs a b : List Char} :
    cut? sep cs = some (a, b) ↔ cs = a ++ sep :: b ∧ sep ∉ a :=
  ⟨cut?_eq_some, fun ⟨split, apart⟩ => split ▸ cut?_append b apart⟩

namespace Violation

/-! ## Words of a message -/

/-- The message has the words and after them a name in quotes, which is not empty. -/
def Quotes (words message : String) : Prop :=
  ∃ front name back, message.toList = front ++ (words.toList ++ '"' :: name ++ '"' :: back) ∧
    name ≠ [] ∧ '"' ∉ name

/-- The message has the words about labels, and after them the name of an enum and a text in quotes. -/
def QuotesLabel (message : String) : Prop :=
  ∃ front name label back,
    message.toList = front ++ ("invalid input value for enum ".toList ++ name ++ ": ".toList ++
      '"' :: label ++ '"' :: back) ∧
    name ≠ [] ∧ (∀ c ∈ name, isEnumChar c = true) ∧ '"' ∉ label

/-- The message tells of a violation. -/
def Tells (message : String) : Prop :=
  Quotes "null value in column " message ∨
  Quotes "duplicate key value violates unique constraint " message ∨
  Quotes "violates foreign key constraint " message ∨
  Quotes "violates check constraint " message ∨
  QuotesLabel message

/-- Nothing is found if nothing is at any place. -/
theorem search?_eq_none_iff {α : Type} {find? : List Char → Option α} {cs : List Char} :
    search? find? cs = none ↔ ∀ front rest, cs = front ++ rest → find? rest = none := by
  have places : search? find? cs = none ↔ ∀ rest, rest <:+ cs → find? rest = none := by
    induction cs with
    | nil => simp [search?]
    | cons c cs ih => simp [search?, ih, List.suffix_cons_iff]
  rw [places]
  exact ⟨fun h front rest split => h rest ⟨front, split.symm⟩,
    fun h rest ⟨front, split⟩ => h front rest split.symm⟩

theorem quotedAt?_eq_none_iff {words cs : List Char} : quotedAt? words cs = none ↔
    ∀ name back, cs = words ++ '"' :: name ++ '"' :: back → name ≠ [] → '"' ∈ name := by
  have found (s : String) : quotedAt? words cs = some s ↔ ∃ name back,
      cs = words ++ '"' :: name ++ '"' :: back ∧ '"' ∉ name ∧ name ≠ [] ∧ String.ofList name = s := by
    simp only [quotedAt?, Option.bind_eq_bind, Option.bind_eq_some_iff, Text.dropLead?_eq_some_iff,
      Prod.exists, Text.cut?_eq_some_iff, List.isEmpty_iff]
    constructor
    · rintro ⟨rest, rfl, name, back, ⟨rfl, apart⟩, h⟩
      split at h
      · cases h
      · rename_i named
        exact ⟨name, back, by simp, apart, named, Option.some.inj h⟩
    · rintro ⟨name, back, rfl, apart, named, rfl⟩
      exact ⟨_, by simp, name, back, ⟨rfl, apart⟩, if_neg named⟩
  rw [Option.eq_none_iff_forall_ne_some]
  constructor
  · intro none name back split named
    by_contra apart
    exact none _ ((found _).mpr ⟨name, back, split, apart, named, rfl⟩)
  · intro none s h
    obtain ⟨name, back, split, apart, named, -⟩ := (found s).mp h
    exact apart (none name back split named)

theorem quoted?_eq_none_iff {words message : String} : quoted? words message = none ↔ ¬ Quotes words message := by
  rw [quoted?, search?_eq_none_iff]
  constructor
  · rintro none ⟨front, name, back, split, named, apart⟩
    exact apart (quotedAt?_eq_none_iff.mp (none front _ split) name back rfl named)
  · intro none front rest split
    refine quotedAt?_eq_none_iff.mpr fun name back here named => ?_
    by_contra apart
    exact none ⟨front, name, back, here ▸ split, named, apart⟩

/-- The name of an enum goes on up to the colon. -/
theorem labelAt?_isSome_iff {cs : List Char} : (labelAt? cs).isSome = true ↔ ∃ name label back,
    cs = "invalid input value for enum ".toList ++ name ++ ": ".toList ++ '"' :: label ++ '"' :: back ∧
      name ≠ [] ∧ (∀ c ∈ name, isEnumChar c = true) ∧ '"' ∉ label := by
  rw [Option.isSome_iff_exists]
  simp only [labelAt?, Option.bind_eq_bind, Option.bind_eq_some_iff, Text.dropLead?_eq_some_iff,
    Prod.exists, Text.cut?_eq_some_iff, List.isEmpty_iff]
  constructor
  · rintro ⟨name, label, rest, rfl, after, colon, back, rest', ⟨rfl, apart⟩, h⟩
    split at h
    · cases h
    · rename_i named
      have chars : ∀ c ∈ rest.takeWhile isEnumChar, isEnumChar c = true :=
        List.all_eq_true.mp List.all_takeWhile
      have whole := List.takeWhile_append_dropWhile (p := isEnumChar) (l := rest)
      rw [colon] at whole
      refine ⟨rest.takeWhile isEnumChar, back, rest', ?_, named, chars, apart⟩
      conv_lhs => rw [← whole]
      simp
  · rintro ⟨name, label, back, rfl, named, chars, apart⟩
    have stop : ((": ".toList ++ '"' :: label ++ '"' :: back).takeWhile isEnumChar) = [] := by
      rfl
    have name_eq : (name ++ (": ".toList ++ '"' :: label ++ '"' :: back)).takeWhile isEnumChar = name := by
      rw [List.takeWhile_append_of_pos chars, stop, List.append_nil]
    refine ⟨String.ofList (unquoted name), String.ofList label,
      name ++ (": ".toList ++ '"' :: label ++ '"' :: back), by simp, label ++ '"' :: back, ?_, label, back,
      ⟨rfl, apart⟩, ?_⟩
    · rw [List.dropWhile_append_of_pos chars]
      rfl
    · rw [name_eq]
      exact if_neg named

theorem label?_eq_none_iff {message : String} : label? message = none ↔ ¬ QuotesLabel message := by
  rw [label?, search?_eq_none_iff]
  constructor
  · rintro none ⟨front, name, label, back, split, form⟩
    have found := labelAt?_isSome_iff.mpr ⟨name, label, back, rfl, form⟩
    rw [none front _ split] at found
    cases found
  · intro none front rest split
    rw [← Option.not_isSome_iff_eq_none]
    intro found
    obtain ⟨name, label, back, here, form⟩ := labelAt?_isSome_iff.mp found
    exact none ⟨front, name, label, back, here ▸ split, form⟩

theorem ofMessage?_eq_none_iff {message : String} : ofMessage? message = none ↔ ¬ Tells message := by
  simp only [ofMessage?, column?, unique?, reference?, check?, Option.or_eq_none_iff,
    Option.map_eq_none_iff, quoted?_eq_none_iff, label?_eq_none_iff, Tells, not_or]

/-! ## States -/

/-- The state is in the class of violated constraints, or is that of a text that is no value. -/
def Refuses (state : String) : Prop := "23".toList <+: state.toList ∨ state = "22P02"

theorem isRefusal_iff {state : String} : isRefusal state = true ↔ Refuses state := by
  rw [isRefusal, Bool.or_eq_true, Option.isSome_iff_exists, beq_iff_eq]
  simp only [Text.dropLead?_eq_some_iff]
  exact or_congr_left ⟨fun ⟨rest, h⟩ => ⟨rest, h.symm⟩, fun ⟨rest, h⟩ => ⟨rest, h.symm⟩⟩

/-- Each state with a kind of its own is a refusal. -/
theorem ofState?_eq_none {state : String} (h : ¬ Refuses state) (message : String) :
    ofState? state message = none := by
  have refused : ∀ own ∈ ["23502", "23505", "23503", "23514"], Refuses own := by
    simp only [Refuses]
    decide
  have differs : ∀ own ∈ ["23502", "23505", "23503", "23514"], state ≠ own := fun own hown same =>
    h (same ▸ refused own hown)
  simp only [List.forall_mem_cons] at differs
  obtain ⟨null, unique, reference, check, -⟩ := differs
  rw [ofState?, if_neg null, if_neg unique, if_neg reference, if_neg check]

/-- A state and a message stand for no violation exactly if neither tells of one. -/
theorem of?_eq_none_iff {state : Option String} {message : String} :
    of? state message = none ↔ (∀ s, state = some s → ¬ Refuses s) ∧ ¬ Tells message := by
  have refusal : state.any isRefusal = true ↔ ∃ s, state = some s ∧ Refuses s := by
    cases state with
    | none => simp
    | some s => simp [isRefusal_iff]
  simp only [of?, Option.or_eq_none_iff, ofMessage?_eq_none_iff]
  constructor
  · rintro ⟨⟨-, silent⟩, kept⟩
    refine ⟨fun s hs refuses => ?_, silent⟩
    rw [if_pos (refusal.mpr ⟨s, hs, refuses⟩)] at kept
    cases kept
  · rintro ⟨kept, silent⟩
    refine ⟨⟨?_, silent⟩, if_neg fun h => ?_⟩
    · cases state with
      | none => rfl
      | some s => exact ofState?_eq_none (kept s rfl) message
    · obtain ⟨s, hs, refuses⟩ := refusal.mp h
      exact kept s hs refuses

end Violation

/-! ## Faults -/

namespace Fault

open Violation (Refuses Tells)

/-- The state, if there is one, and the message with which the database reported the failure. -/
def report? : Fault → Option (Option String × String)
  | sql state message => some (state, message)
  | database message => some (none, message)
  | _ => none

def state? (f : Fault) : Option String := f.report?.bind (·.1)

/-- Nothing in the fault tells of a violation. -/
def Settled (f : Fault) : Prop :=
  ∀ state message, f.report? = some (state, message) →
    (∀ s, state = some s → ¬ Refuses s) ∧ ¬ Tells message

/-- What a failure of the database is classified as. -/
inductive IsViolation : Fault → Prop where
  | notNull (column : String) : IsViolation (.notNullViolation column)
  | duplicate (detail : String) : IsViolation (.duplicateKey detail)
  | reference (detail : String) : IsViolation (.foreignKeyViolation detail)
  | check (constraint : String) : IsViolation (.checkViolation constraint)
  | label (name label : String) : IsViolation (.invalidEnumValue name label)
  | refused (reason : String) : IsViolation (.validation reason)

variable {f g : Fault} {state : Option String} {message s : String}

/-- The client has to mend it. -/
theorem IsViolation.status (h : f.IsViolation) : f.status < 500 := by
  cases h with
  | notNull | duplicate | reference | check | label | refused => simp [Fault.status]

theorem IsViolation.settled (h : f.IsViolation) : f.Settled := by
  cases h with
  | notNull | duplicate | reference | check | label | refused => exact fun _ _ => nofun

theorem isViolation_of_state (h : Violation.ofState? s message = some g) : g.IsViolation := by
  unfold Violation.ofState? at h
  split at h
  · cases h
    exact .notNull _
  · split at h
    · cases h
      exact .duplicate _
    · split at h
      · cases h
        exact .reference _
      · split at h
        · cases h
          exact .check _
        · cases h

theorem isViolation_of_message (h : Violation.ofMessage? message = some g) : g.IsViolation := by
  simp only [Violation.ofMessage?, Option.or_eq_some_iff, Option.map_eq_some_iff] at h
  rcases h with ⟨_, -, rfl⟩ | ⟨-, ⟨_, -, rfl⟩ | ⟨-, ⟨_, -, rfl⟩ | ⟨-, ⟨_, -, rfl⟩ | ⟨-, _, -, rfl⟩⟩⟩⟩
  · exact .notNull _
  · exact .duplicate _
  · exact .reference _
  · exact .check _
  · exact .label _ _

theorem isViolation_of (h : Violation.of? state message = some g) : g.IsViolation := by
  simp only [Violation.of?, Option.or_eq_some_iff, Option.bind_eq_some_iff] at h
  rcases h with (⟨s, -, h⟩ | ⟨-, h⟩) | ⟨-, h⟩
  · exact isViolation_of_state h
  · exact isViolation_of_message h
  · split at h
    · cases h
      exact .refused _
    · cases h

theorem classified_of_report (h : f.report? = some (state, message)) :
    f.classified = (Violation.of? state message).getD f := by
  cases f with
  | sql | database =>
    cases h
    rfl
  | _ => cases h

theorem classified_of_unreported (h : f.report? = none) : f.classified = f := by
  cases f with
  | sql | database => cases h
  | _ => rfl

theorem Settled.classified (h : f.Settled) : f.classified = f := by
  cases reported : f.report? with
  | none => exact classified_of_unreported reported
  | some report =>
    obtain ⟨state, message⟩ := report
    rw [classified_of_report reported, Violation.of?_eq_none_iff.mpr (h state message reported),
      Option.getD_none]

/-- A fault is settled, or classified as a violation. -/
theorem settled_or_isViolation (f : Fault) : f.Settled ∨ f.classified.IsViolation := by
  by_cases settled : f.Settled
  · exact .inl settled
  · simp only [Settled, not_forall] at settled
    obtain ⟨state, message, reported, told⟩ := settled
    rw [← Violation.of?_eq_none_iff, ← ne_eq, Option.ne_none_iff_exists'] at told
    obtain ⟨g, found⟩ := told
    rw [classified_of_report reported, found, Option.getD_some]
    exact .inr (isViolation_of found)

/-- Whatever the message says, a state with a kind of its own has the last word. -/
theorem exists_classified {kind : String → Fault}
    (own : ∀ message, ∃ detail, Violation.ofState? s message = some (kind detail)) (h : f.state? = some s) :
    ∃ detail, f.classified = kind detail := by
  obtain ⟨⟨state, message⟩, reported, rfl⟩ := Option.bind_eq_some_iff.mp h
  obtain ⟨detail, found⟩ := own message
  refine ⟨detail, ?_⟩
  simp only [classified_of_report reported, Violation.of?, Option.bind_some, found, Option.some_or,
    Option.getD_some]

/-- Classifying is final. The four states with a kind of their own decide it, no refusal is a failure of the
server, and a fault is left as it is exactly if neither its state nor its message tells of a violation. -/
theorem classified_stable (f : Fault) :
    f.classified.classified = f.classified ∧
    (f.state? = some "23502" → ∃ column, f.classified = .notNullViolation column) ∧
    (f.state? = some "23505" → ∃ detail, f.classified = .duplicateKey detail) ∧
    (f.state? = some "23503" → ∃ detail, f.classified = .foreignKeyViolation detail) ∧
    (f.state? = some "23514" → ∃ constraint, f.classified = .checkViolation constraint) ∧
    (∀ state, f.state? = some state → Refuses state → f.classified.status < 500) ∧
    (f.classified = f ↔ f.Settled) := by
  have settled : f.classified.Settled := by
    rcases settled_or_isViolation f with settled | violation
    · rwa [settled.classified]
    · exact violation.settled
  refine ⟨settled.classified, exists_classified fun _ => ⟨_, rfl⟩, exists_classified fun _ => ⟨_, rfl⟩,
    exists_classified fun _ => ⟨_, rfl⟩, exists_classified fun _ => ⟨_, rfl⟩, fun state h refuses => ?_,
    fun same => same ▸ settled, Settled.classified⟩
  rcases settled_or_isViolation f with silent | violation
  · obtain ⟨⟨_, message⟩, reported, rfl⟩ := Option.bind_eq_some_iff.mp h
    exact absurd refuses ((silent _ message reported).1 state rfl)
  · exact violation.status

/-- A second row with a key is that, even where its message quotes the words about missing values. -/
theorem classified_stable_duplicate :
    (∃ detail, (sql (some "23505") "null value in column \"email\"").classified = .duplicateKey detail) ∧
    (sql (some "23P01") "no words").classified.status < 500 ∧
    (sql (some "08006") "connection failure").classified = sql (some "08006") "connection failure" := by
  refine ⟨(classified_stable _).2.2.1 rfl, ?_, ?_⟩
  · exact (classified_stable _).2.2.2.2.2.1 "23P01" rfl (.inl (by decide))
  · refine (classified_stable _).2.2.2.2.2.2.mpr fun state message reported => ?_
    cases reported
    exact Violation.of?_eq_none_iff.mp (by decide)

end Fault
end TableGateway
