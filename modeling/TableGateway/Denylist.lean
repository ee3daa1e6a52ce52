import TableGateway.Fault
import TableGateway.Text.Cut
import TableGateway.Text.Word

/-!
# The denylist

Values that could end a statement, open a comment or name a command are refused, although values are
bound and never become part of a statement. Section 2 (the validation layer) of the specification.

| here | in the service |
| --- | --- |
| `Denylist.keywords` | `SQL_KEYWORDS` |
| `Denylist.checkValue` | `check_value` |
| `Denylist.checkItem` | `check_in_item` |
-/
namespace TableGateway.Denylist

/-- Sequences that no value may hold. -/
def sequences : List String := [";", "--", "/*", "*/"]

/-- Sequences that no item of a list may hold. -/
def itemSequences : List String := ["(", ")", "'", "\\"]

/-- Words that no value may hold, in any case. -/
def keywords : List String :=
  ["DROP", "DELETE", "UPDATE", "INSERT", "CREATE", "ALTER", "TRUNCATE", "UNION", "EXEC", "EXECUTE"]

/-- A letter is the capital `k` in some case. The long s is a small form of `S`. -/
def isLetter (k c : Char) : Bool := c.toUpper == k || (k == 'S' && c == '\u017F')

/-- The text after a word in capitals that begins it in some case. -/
def dropWord? : List Char → List Char → Option (List Char)
  | [], cs => some cs
  | _ :: _, [] => none
  | k :: ks, c :: cs => if isLetter k c then dropWord? ks cs else none

/-- The text begins with the word, and the word ends there. -/
def beginsWith (word : List Char) (cs : List Char) : Bool :=
  match dropWord? word cs with
  | some rest => Text.isWordBoundary word.getLast? rest.head?
  | none => false

/-- The first keyword in a text that follows the character `before`, looking from left to right. -/
def keywordFrom? (before : Option Char) : List Char → Option String
  | [] => none
  | c :: cs =>
    let here :=
      if Text.isWordBoundary before (some c) then
        keywords.find? fun word => beginsWith word.toList (c :: cs)
      else none
    here.or (keywordFrom? (some c) cs)

def keyword? (s : String) : Option String := keywordFrom? none s.toList

/-- The first of some sequences that stands anywhere in a text. -/
def sequence? (denied : List String) (s : String) : Option String :=
  denied.find? fun d => Text.holds d.toList s.toList

/-- Refuse a value that holds a denied sequence or keyword. -/
def checkValue (s : String) : Except Fault Unit :=
  match sequence? sequences s with
  | some d => .error (.unsafeValue ("value contains '" ++ d ++ "'"))
  | none =>
    match keyword? s with
    | some word => .error (.unsafeValue ("value contains SQL keyword '" ++ word ++ "'"))
    | none => .ok ()

/-- Refuse an item of a list that holds anything denied in values or in items. -/
def checkItem (s : String) : Except Fault Unit :=
  match checkValue s with
  | .error e => .error e
  | .ok () =>
    match sequence? itemSequences s with
    | some d => .error (.unsafeValue ("IN list item contains '" ++ d ++ "'"))
    | none => .ok ()

end TableGateway.Denylist
