import TableGateway.Number.Integer

/-!
# Double precision numbers

The binary floating-point numbers of 64 bits by their values: `significand · 2 ^ exponent`. Every
number is rounded once, to the nearest representable one, ties to the even significand.
-/
namespace TableGateway.Number

/-- A double precision number. A finite one is `significand · 2 ^ exponent` with its sign. -/
inductive Double where
  | nan
  | infinity (negative : Bool)
  | finite (negative : Bool) (significand : Nat) (exponent : Int)
  deriving DecidableEq, Repr, Inhabited

/-- The quotient rounded to the nearest integer, ties to the even one. -/
def roundEven (num den : Nat) : Nat :=
  let floor := num / den
  let rest := num % den
  if 2 * rest < den then floor
  else if den < 2 * rest then floor + 1
  else floor + floor % 2

/-- The fraction `num / den · base ^ power` as numerator and denominator. -/
def scale (base num den : Nat) (power : Int) : Nat × Nat :=
  match power with
  | .ofNat p => (num * Nat.pow base p, den)
  | .negSucc p => (num, den * Nat.pow base (p + 1))

namespace Double

/-- The least significand of a number that has all its 53 bits. -/
def full : Nat := 4503599627370496

/-- The exponent of the smallest numbers. -/
def minExponent : Int := -1074

/-- The exponent of the largest numbers. -/
def maxExponent : Int := 971

/-- Zero, with a sign. -/
def zero (negative : Bool) : Double := .finite negative 0 minExponent

/-- `⌊log₂ (num / den)⌋` for positive numbers. -/
def leading (num den : Nat) : Int :=
  let guess : Int := (num.log2 : Int) - den.log2
  let (n, d) := scale 2 num den (-guess)
  if d ≤ n then guess else guess - 1

def ofRatio (negative : Bool) (num den : Nat) : Double :=
  if num = 0 then zero negative
  else
    let exponent := max (leading num den - 52) minExponent
    let (n, d) := scale 2 num den (-exponent)
    let significand := roundEven n d
    let (significand, exponent) :=
      if significand = 2 * full then (full, exponent + 1) else (significand, exponent)
    if maxExponent < exponent then .infinity negative
    else .finite negative significand exponent

def ofDecimal (negative : Bool) (digits : Nat) (power : Int) : Double :=
  let size := (natText digits).length + power
  if digits = 0 || size < -330 then zero negative
  else if 310 < size then .infinity negative
  else
    let (n, d) := scale 10 digits 1 power
    ofRatio negative n d

def ofInt (n : Int) : Double := ofRatio (n < 0) n.natAbs 1

def neg : Double → Double
  | nan => nan
  | infinity s => infinity !s
  | finite s m e => finite (!s) m e

def mulFinite (s₁ : Bool) (m₁ : Nat) (e₁ : Int) (s₂ : Bool) (m₂ : Nat) (e₂ : Int) : Double :=
  let (n, d) := scale 2 (m₁ * m₂) 1 (e₁ + e₂)
  ofRatio (s₁ != s₂) n d

def mul : Double → Double → Double
  | nan, _ | _, nan => nan
  | infinity s, infinity t => infinity (s != t)
  | infinity s, finite t m _ | finite t m _, infinity s => if m = 0 then nan else infinity (s != t)
  | finite s₁ m₁ e₁, finite s₂ m₂ e₂ => mulFinite s₁ m₁ e₁ s₂ m₂ e₂

def div : Double → Double → Double
  | nan, _ | _, nan => nan
  | infinity _, infinity _ => nan
  | infinity s, finite t _ _ => infinity (s != t)
  | finite s _ _, infinity t => zero (s != t)
  | finite s₁ m₁ e₁, finite s₂ m₂ e₂ =>
    if m₂ = 0 then if m₁ = 0 then nan else infinity (s₁ != s₂)
    else
      let (n, d) := scale 2 m₁ m₂ (e₁ - e₂)
      ofRatio (s₁ != s₂) n d

/-- Numerical equality: no number equals `nan`, and the two zeros are equal. -/
def same : Double → Double → Bool
  | infinity s, infinity t => s == t
  | finite s m e, finite t n f => (m == 0 && n == 0) || (s == t && m == n && e == f)
  | _, _ => false

def isFinite : Double → Bool
  | finite .. => true
  | _ => false

end Double
end TableGateway.Number
