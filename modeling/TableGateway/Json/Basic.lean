import TableGateway.Entries
import TableGateway.Number.Double

/-!
# JSON values

Documents with exact integers beside double precision numbers. The members of an object are kept
in the order of their names.
-/
namespace TableGateway

open Number (Double)

/-- A JSON document. Integers are those from `-2^63` to `2^64 - 1`; all other numbers are doubles. -/
inductive Json where
  | null
  | bool (b : Bool)
  | int (n : Int)
  | double (d : Double)
  | str (s : String)
  | arr (items : List Json)
  | obj (members : List (String × Json))
  deriving Repr, Inhabited

/-- A JSON object. -/
abbrev Record := Entries Json

namespace Json

mutual

/-- Equality of documents, with doubles compared as numbers. -/
def same : Json → Json → Bool
  | null, null => true
  | bool a, bool b => a == b
  | int a, int b => a == b
  | double a, double b => a.same b
  | str a, str b => a == b
  | arr as, arr bs => sameItems as bs
  | obj as, obj bs => sameMembers as bs
  | _, _ => false

def sameItems : List Json → List Json → Bool
  | [], [] => true
  | a :: as, b :: bs => same a b && sameItems as bs
  | _, _ => false

def sameMembers : List (String × Json) → List (String × Json) → Bool
  | [], [] => true
  | (k, a) :: as, (l, b) :: bs => k == l && same a b && sameMembers as bs
  | _, _ => false

end

def isNull : Json → Bool
  | null => true
  | _ => false

/-- An object from its members in any order. -/
def object (members : List (String × Json)) : Json := obj (Entries.ofList members)

def member? (name : String) : Json → Option Json
  | obj members => Entries.get? name members
  | _ => none

def str? : Json → Option String
  | str s => some s
  | _ => none

def items? : Json → Option (List Json)
  | arr items => some items
  | _ => none

/-- The integer, if it fits 64 bits with a sign. -/
def int64? : Json → Option Int64
  | int n => Number.int64? n
  | _ => none

def double? : Json → Option Double
  | int n => some (Double.ofInt n)
  | double d => some d
  | _ => none

/-- A text, or `null` for none. -/
def ofText? (s : Option String) : Json := s.elim null str

def nat (n : Nat) : Json := int n

end Json
end TableGateway
