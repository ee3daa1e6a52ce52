/-!
# UTF-8

Text as bytes and back. `pieces` reads any bytes: it cuts them into characters and into the longest
runs that begin no character, so that strict and lenient decoding are two views of one reading.
-/
namespace TableGateway.Text.Utf8

def encode (cs : List Char) : List UInt8 := cs.flatMap String.utf8EncodeChar

def bytes (s : String) : List UInt8 := encode s.toList

inductive Piece where
  /-- A character, written in `size` bytes. -/
  | char (c : Char) (size : Nat)
  /-- As many bytes that begin no character. -/
  | invalid (size : Nat)
  /-- A character that the end of the bytes cuts off. -/
  | incomplete
  deriving DecidableEq, Repr

/-- A byte that continues a character: `10xxxxxx`. -/
def isTail (b : UInt8) : Bool := 0x80 ≤ b && b ≤ 0xBF

/-- The second byte that may follow the first byte `a` of a longer character. -/
def isSecond (a b : UInt8) : Bool :=
  if a == 0xE0 then 0xA0 ≤ b && b ≤ 0xBF
  else if a == 0xED then 0x80 ≤ b && b ≤ 0x9F
  else if a == 0xF0 then 0x90 ≤ b && b ≤ 0xBF
  else if a == 0xF4 then 0x80 ≤ b && b ≤ 0x8F
  else isTail b

def low (b : UInt8) : Nat := b.toNat % 64

/-- Cut bytes into characters and runs that are none. -/
def pieces : List UInt8 → List Piece
  | [] => []
  | a :: s =>
    if a < 0x80 then .char (Char.ofNat a.toNat) 1 :: pieces s
    else if 0xC2 ≤ a && a ≤ 0xDF then
      match s with
      | [] => [.incomplete]
      | b :: t =>
        if isTail b then .char (Char.ofNat (a.toNat % 32 * 64 + low b)) 2 :: pieces t
        else .invalid 1 :: pieces (b :: t)
    else if 0xE0 ≤ a && a ≤ 0xEF then
      match s with
      | [] => [.incomplete]
      | b :: t =>
        if isSecond a b then
          match t with
          | [] => [.incomplete]
          | c :: u =>
            if isTail c then
              .char (Char.ofNat ((a.toNat % 16 * 64 + low b) * 64 + low c)) 3 :: pieces u
            else .invalid 2 :: pieces (c :: u)
        else .invalid 1 :: pieces (b :: t)
    else if 0xF0 ≤ a && a ≤ 0xF4 then
      match s with
      | [] => [.incomplete]
      | b :: t =>
        if isSecond a b then
          match t with
          | [] => [.incomplete]
          | c :: u =>
            if isTail c then
              match u with
              | [] => [.incomplete]
              | d :: v =>
                if isTail d then
                  .char (Char.ofNat (((a.toNat % 8 * 64 + low b) * 64 + low c) * 64 + low d)) 4
                    :: pieces v
                else .invalid 3 :: pieces (d :: v)
            else .invalid 2 :: pieces (c :: u)
        else .invalid 1 :: pieces (b :: t)
    else .invalid 1 :: pieces s

/-- Why bytes are no text, with the index of the first byte at fault. -/
inductive Malformed where
  | invalid (size index : Nat)
  | incomplete (index : Nat)
  deriving DecidableEq, Repr

def Malformed.message : Malformed → String
  | invalid size index =>
    "invalid utf-8 sequence of " ++ toString size ++ " bytes from index " ++ toString index
  | incomplete index => "incomplete utf-8 byte sequence from index " ++ toString index

/-- The text of some pieces, which begin at byte `index`, if all are characters. -/
def join (index : Nat) : List Piece → Except Malformed (List Char)
  | [] => .ok []
  | .char c size :: ps => (join (index + size) ps).map (c :: ·)
  | .invalid size :: _ => .error (.invalid size index)
  | .incomplete :: _ => .error (.incomplete index)

/-- The text of some bytes, if they are well formed. -/
def decode (bs : List UInt8) : Except Malformed (List Char) := join 0 (pieces bs)

/-- The text of some bytes, with U+FFFD for each piece that is no character. -/
def decodeLossy (bs : List UInt8) : List Char :=
  (pieces bs).map fun
    | .char c _ => c
    | _ => '\uFFFD'

end TableGateway.Text.Utf8
