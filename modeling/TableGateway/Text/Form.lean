import TableGateway.Text.Cut
import TableGateway.Text.Hex
import TableGateway.Text.Utf8

/-!
# URL-encoded text

Percent-decoding, and the pairs of an `application/x-www-form-urlencoded` query string.
-/
namespace TableGateway.Text.Form

/-- The value of a byte that is the code of a hexadecimal digit. -/
def nibble? (b : UInt8) : Option Nat := Hex.value? (Char.ofNat b.toNat)

/-- The byte that a `%` and two hexadecimal digits name, if that is the first of the bytes. -/
def escaped? (a b c : UInt8) : Option UInt8 :=
  if a = 37 then
    match nibble? b, nibble? c with
    | some x, some y => some (UInt8.ofNat (x * 16 + y))
    | _, _ => none
  else none

/-- Replace each `%` that two hexadecimal digits follow by the byte they name, unless that byte is
to be kept in its encoded form. -/
def percentDecode (kept : UInt8 → Bool) : List UInt8 → List UInt8
  | a :: b :: c :: rest =>
    match (escaped? a b c).filter (!kept ·) with
    | some byte => byte :: percentDecode kept rest
    | none => a :: percentDecode kept (b :: c :: rest)
  | bytes => bytes

/-- Undo the encoding of a text. -/
def decodeText (cs : List Char) : String :=
  String.ofList (Utf8.decodeLossy (percentDecode (fun _ => false) (Utf8.encode cs)))

/-- Undo the encoding of a path but for `%`, `+` and `/`, so that its segments stay apart. -/
def decodePath (cs : List Char) : List Char :=
  Utf8.decodeLossy (percentDecode ("%+/".toList.map (UInt8.ofNat ·.toNat)).contains (Utf8.encode cs))

/-- Undo the encoding of a key or a value of a form, where `+` is a space. -/
def decodeField (cs : List Char) : String := decodeText (cs.map fun c => if c = '+' then ' ' else c)

/-- The key and the value of one piece of a form; a piece without `=` has the empty value. -/
def field (piece : List Char) : String × String :=
  match cut? '=' piece with
  | some (key, value) => (decodeField key, decodeField value)
  | none => (decodeField piece, "")

/-- The pairs of a query string, in order. Empty pieces are no pairs. -/
def pairs (query : String) : List (String × String) :=
  ((query.toList.splitOn '&').filter (!·.isEmpty)).map field

end TableGateway.Text.Form
