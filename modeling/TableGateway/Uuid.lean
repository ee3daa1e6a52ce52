import TableGateway.Text.Cut
import TableGateway.Text.Hex

/-!
# UUIDs

Universally unique identifiers: thirty-two hexadecimal digits, written in five groups. They are
read with or without the hyphens, in braces and as URNs. Section 4.5 of the specification.
-/
namespace TableGateway

structure Uuid where
  digits : List (Fin 16)
  length_digits : digits.length = 32
  deriving DecidableEq, Repr

namespace Uuid

/-- The value of a digit in either case. -/
def digit? (c : Char) : Option (Fin 16) :=
  (Text.Hex.value? c).bind fun n => if h : n < 16 then some ⟨n, h⟩ else none

def ofDigits? (cs : List Char) : Option Uuid :=
  (cs.mapM digit?).bind fun ds => if h : ds.length = 32 then some ⟨ds, h⟩ else none

/-- The digits of five groups of 8, 4, 4, 4 and 12 with hyphens between them. -/
def ungroup? (cs : List Char) : Option (List Char) :=
  if cs.length = 36 && [8, 13, 18, 23].all fun i => cs[i]? == some '-' then
    some (cs.take 8 ++ (cs.drop 9).take 4 ++ (cs.drop 14).take 4 ++ (cs.drop 19).take 4 ++
      cs.drop 24)
  else none

def read? (cs : List Char) : Option Uuid :=
  let urn := "urn:uuid:".toList
  if cs.length = 32 then ofDigits? cs
  else
    let grouped :=
      if cs.length = 36 then some cs
      else if cs.length = 38 then Text.unwrap? '\x7b' '\x7d' cs
      else (Text.dropLead? urn cs).or (Text.dropLead? (urn.map Char.toUpper) cs)
    (grouped.bind ungroup?).bind ofDigits?

def digitChars (u : Uuid) : List Char := u.digits.map fun d => Text.Hex.digit d.val

/-- The five groups with hyphens between them. -/
def chars (u : Uuid) : List Char :=
  let ds := u.digitChars
  ds.take 8 ++ '-' :: (ds.drop 8).take 4 ++ '-' :: (ds.drop 12).take 4 ++
    '-' :: (ds.drop 16).take 4 ++ '-' :: ds.drop 20

def text (u : Uuid) : String := String.ofList u.chars

/-- The version: the first digit of the third group. -/
def version (u : Uuid) : Nat := (u.digits[12]?.map Fin.val).getD 0

end Uuid
end TableGateway
