import TableGateway.Number.Integer
import TableGateway.Text.Cut
import TableGateway.Text.Hex

/-!
# Network addresses

The texts of Internet addresses with an optional mask length, and of hardware addresses.
Section 4.5 of the specification.

| here | in the service |
| --- | --- |
| `Network.Kind.name` | `NetworkType.sql_name` |
| `Network.isPairs` | `MAC6`, `MAC8` |
| `Network.isValid` | `is_valid_network` |
-/
namespace TableGateway.Network

inductive Kind where
  | inet
  | cidr
  | macaddr
  | macaddr8
  deriving DecidableEq, Repr

def Kind.name : Kind → String
  | inet => "inet"
  | cidr => "cidr"
  | macaddr => "macaddr"
  | macaddr8 => "macaddr8"

/-! ## Internet addresses -/

/-- A decimal number up to 255 without leading zeros. -/
def isOctet (cs : List Char) : Bool :=
  cs.length ≤ 3 && (cs.length = 1 || cs.head? != some '0') &&
    ((Number.digits? cs).any (· ≤ 255))

/-- Four octets with points between them. -/
def isV4 (cs : List Char) : Bool :=
  let parts := cs.splitOn '.'
  parts.length = 4 && parts.all isOctet

/-- One to four hexadecimal digits. -/
def isGroup (cs : List Char) : Bool :=
  1 ≤ cs.length && cs.length ≤ 4 && cs.all fun c => (Text.Hex.value? c).isSome

/-- The number of groups that parts between colons make up, where a dotted address may stand last
and counts for two; `none` if one is no group. -/
def groups? (dotted : Bool) : List (List Char) → Option Nat
  | [] => some 0
  | [last] =>
    if isGroup last then some 1 else if dotted && isV4 last then some 2 else none
  | part :: rest => if isGroup part then (groups? dotted rest).map (· + 1) else none

/-- The number of groups in a text; the empty text has none. -/
def groupsOf? (dotted : Bool) (cs : List Char) : Option Nat :=
  if cs.isEmpty then some 0 else groups? dotted (cs.splitOn ':')

/-- Cut a text at its first double colon. -/
def cutGap? : List Char → Option (List Char × List Char)
  | ':' :: ':' :: rest => some ([], rest)
  | c :: cs => (cutGap? cs).map fun (a, b) => (c :: a, b)
  | [] => none

/-- Eight groups, or fewer with one double colon for the missing ones. -/
def isV6 (cs : List Char) : Bool :=
  match cutGap? cs with
  | none => groupsOf? true cs == some 8
  | some (front, back) =>
    match groupsOf? false front, groupsOf? true back with
    | some m, some n => m + n ≤ 7
    | _, _ => false

/-- An address with at most as many mask bits as it has bits. -/
def isInternet (cs : List Char) : Bool :=
  let (address, mask) := match Text.cut? '/' cs with
    | some (address, mask) => (address, some mask)
    | none => (cs, none)
  let fits (most : Nat) : Bool := match mask with
    | none => true
    | some mask => (Number.readNat? most mask).isSome
  if isV4 address then fits 32 else isV6 address && fits 128

/-! ## Hardware addresses -/

/-- `count` pairs of hexadecimal digits with colons or hyphens between them. -/
def isPairs : Nat → List Char → Bool
  | 0, _ => false
  | 1, [a, b] => (Text.Hex.value? a).isSome && (Text.Hex.value? b).isSome
  | count + 1, a :: b :: c :: rest =>
    (Text.Hex.value? a).isSome && (Text.Hex.value? b).isSome && (c == ':' || c == '-') &&
      isPairs count rest
  | _, _ => false

def isValid (kind : Kind) (s : String) : Bool :=
  match kind with
  | .macaddr => isPairs 6 s.toList
  | .macaddr8 => isPairs 8 s.toList || isPairs 6 s.toList
  | .inet | .cidr => isInternet s.toList

end TableGateway.Network
