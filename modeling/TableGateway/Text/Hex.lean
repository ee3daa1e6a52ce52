/-!
# Hexadecimal

Digits in base sixteen, and bytes written as pairs of them.
-/
namespace TableGateway.Text.Hex

/-- The small digit of a number below sixteen. -/
def digit (n : Nat) : Char := Nat.digitChar n

/-- The value of a digit in either case. -/
def value? (c : Char) : Option Nat :=
  if '0' ≤ c && c ≤ '9' then some (c.toNat - '0'.toNat)
  else if 'a' ≤ c && c ≤ 'f' then some (c.toNat - 'a'.toNat + 10)
  else if 'A' ≤ c && c ≤ 'F' then some (c.toNat - 'A'.toNat + 10)
  else none

/-- Two small digits for each byte. -/
def encode (bs : List UInt8) : List Char :=
  bs.flatMap fun b => [digit (b.toNat / 16), digit (b.toNat % 16)]

/-- The bytes of an even number of digits in either case. -/
def decode? : List Char → Option (List UInt8)
  | [] => some []
  | [_] => none
  | a :: b :: cs =>
    match value? a, value? b with
    | some x, some y => (decode? cs).map (UInt8.ofNat (x * 16 + y) :: ·)
    | _, _ => none

theorem value?_digit {n : Nat} (h : n < 16) : value? (digit n) = some n := by
  have : ∀ i : Fin 16, value? (digit i) = some i := by decide
  exact this ⟨n, h⟩

theorem decode?_encode (bs : List UInt8) : decode? (encode bs) = some bs := by
  induction bs with
  | nil => rfl
  | cons b bs ih =>
    have hb := b.toNat_lt
    simp only [encode, List.flatMap_cons, List.cons_append, List.nil_append, decode?,
      value?_digit (Nat.div_lt_of_lt_mul (by omega : b.toNat < 16 * 16)),
      value?_digit (Nat.mod_lt b.toNat (by decide : 16 > 0))]
    rw [← encode, ih, Nat.div_add_mod' b.toNat 16]
    simp

end TableGateway.Text.Hex
