/-!
# Base64

The standard alphabet with `=` padding. Decoding accepts the canonical form only: complete padding,
and no bits set beyond the last byte.
-/
namespace TableGateway.Text.Base64

/-- The character of a six-bit number. -/
def symbol (n : Nat) : Char :=
  if n < 26 then Char.ofNat (n + 'A'.toNat)
  else if n < 52 then Char.ofNat (n - 26 + 'a'.toNat)
  else if n < 62 then Char.ofNat (n - 52 + '0'.toNat)
  else if n = 62 then '+' else '/'

/-- The six-bit number of a byte of the alphabet. -/
def value? (b : UInt8) : Option Nat :=
  let n := b.toNat
  if 65 ≤ n && n ≤ 90 then some (n - 65)
  else if 97 ≤ n && n ≤ 122 then some (n - 71)
  else if 48 ≤ n && n ≤ 57 then some (n + 4)
  else if n = 43 then some 62
  else if n = 47 then some 63
  else none

def pad : UInt8 := 61

/-- Four characters for each three bytes; a last group of one or two bytes is padded. -/
def encode : List UInt8 → List Char
  | [] => []
  | [a] =>
    let n := a.toNat * 65536
    [symbol (n / 262144), symbol (n / 4096 % 64), '=', '=']
  | [a, b] =>
    let n := a.toNat * 65536 + b.toNat * 256
    [symbol (n / 262144), symbol (n / 4096 % 64), symbol (n / 64 % 64), '=']
  | a :: b :: c :: rest =>
    let n := a.toNat * 65536 + b.toNat * 256 + c.toNat
    symbol (n / 262144) :: symbol (n / 4096 % 64) :: symbol (n / 64 % 64) :: symbol (n % 64)
      :: encode rest

/-- Why a text is not in canonical base64. -/
inductive Malformed where
  /-- A byte outside the alphabet, or padding where none may stand. -/
  | byte (value : UInt8) (offset : Nat)
  /-- One symbol is left over, which is less than a byte. -/
  | length
  /-- The last symbol sets bits beyond the last byte. -/
  | lastSymbol (value : UInt8) (offset : Nat)
  /-- Padding is missing or partial. -/
  | padding
  deriving DecidableEq, Repr

def Malformed.message : Malformed → String
  | byte value offset =>
    "Invalid byte " ++ toString value.toNat ++ ", offset " ++ toString offset ++ "."
  | length => "Encoded text cannot have a 6-bit remainder."
  | lastSymbol value offset =>
    "Invalid last symbol " ++ toString value.toNat ++ ", offset " ++ toString offset ++ "."
  | padding => "Invalid padding"

/-- The symbols before the padding with their values, read from `offset` on, and the number of
padding bytes. -/
def symbols (offset : Nat) : List UInt8 → Except Malformed (List (UInt8 × Nat) × Nat)
  | [] => .ok ([], 0)
  | b :: bs =>
    if b = pad then
      -- Padding ends the text and stands third or fourth in its group.
      if offset % 4 < 2 then .error (.byte pad offset)
      else if bs.all (· == pad) then
        if offset % 4 + bs.length < 4 then .ok ([], bs.length + 1) else .error (.byte pad offset)
      else .error (.byte pad offset)
    else
      match value? b with
      | none => .error (.byte b offset)
      | some v => (symbols (offset + 1) bs).map fun (vs, n) => ((b, v) :: vs, n)

/-- The bytes of groups of four symbols; the last group may be short. -/
def unpack : List Nat → List UInt8
  | a :: b :: c :: d :: rest =>
    let n := ((a * 64 + b) * 64 + c) * 64 + d
    UInt8.ofNat (n / 65536) :: UInt8.ofNat (n / 256 % 256) :: UInt8.ofNat (n % 256) :: unpack rest
  | [a, b, c] =>
    let n := (a * 64 + b) * 64 + c
    [UInt8.ofNat (n / 1024), UInt8.ofNat (n / 4 % 256)]
  | [a, b] => [UInt8.ofNat ((a * 64 + b) / 16)]
  | _ => []

/-- The bits of the last of `count` symbols that no byte takes up. -/
def spare (count last : Nat) : Nat :=
  if count % 4 = 2 then last % 16 else if count % 4 = 3 then last % 4 else 0

/-- The bytes of a canonical text. -/
def decode (bs : List UInt8) : Except Malformed (List UInt8) :=
  if bs.length % 4 = 1 then
    match bs.getLast? with
    | some b => if b ≠ pad && (value? b).isNone then .error (.byte b (bs.length - 1))
                else .error .length
    | none => .error .length
  else
    match symbols 0 bs with
    | .error e => .error e
    | .ok (vs, padding) =>
      if (vs.length + padding) % 4 ≠ 0 then .error .padding
      else
        match vs.getLast? with
        | none => .ok []
        | some (b, v) =>
          if spare vs.length v ≠ 0 then .error (.lastSymbol b (vs.length - 1))
          else .ok (unpack (vs.map (·.2)))

end TableGateway.Text.Base64
