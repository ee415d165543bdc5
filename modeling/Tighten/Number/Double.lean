/-
Double-precision numbers, as the values they denote.

A finite number is a significand below 2^53 times a power of two not below 2^-1074.  Each value
has one representation: the significand has all 53 bits unless the exponent is already the
smallest.  Zero keeps its sign.  The two ways into the type, from a quotient and from a decimal,
both round to the nearest value and break ties towards the even significand; a quotient too large
for the format becomes an infinity.
-/
namespace Tighten

/-- A double-precision number. -/
inductive Double where
  /-- `significand * 2 ^ exponent`, negated when `negative`. -/
  | finite (negative : Bool) (significand : Nat) (exponent : Int)
  | infinite (negative : Bool)
  | undefined
deriving DecidableEq, Repr

namespace Double

/-- The exponent of the smallest positive value. -/
def minExponent : Int := -1074

/-- The exponent of the largest finite value. -/
def maxExponent : Int := 971

/-- Zero, with the sign it was reached from. -/
def zero (negative : Bool) : Double :=
  .finite negative 0 minExponent

/-- The quotient rounded to the nearest whole number, a half going to the even neighbour. -/
def roundDiv (num den : Nat) : Nat :=
  let q := num / den
  let r := num % den
  if 2 * r < den then q
  else if den < 2 * r then q + 1
  else q + q % 2

/-- `num / den` in units of `2 ^ exponent`, rounded. -/
def inUnits (num den : Nat) (exponent : Int) : Nat :=
  if 0 ≤ exponent then roundDiv num (den * Nat.pow 2 exponent.toNat)
  else roundDiv (num * Nat.pow 2 (-exponent).toNat) den

/-- The value with this significand and exponent, once the significand has reached 53 bits. -/
def settle (negative : Bool) (significand : Nat) (exponent : Int) : Double :=
  let carried := significand = Nat.pow 2 53
  let m := if carried then Nat.pow 2 52 else significand
  let e := if carried then exponent + 1 else exponent
  if maxExponent < e then .infinite negative else .finite negative m e

/-- Whether `num / den` is at least `2 ^ k`. -/
def reaches (num den : Nat) (k : Int) : Bool :=
  if 0 ≤ k then den * Nat.pow 2 k.toNat ≤ num else den ≤ num * Nat.pow 2 (-k).toNat

/-- The exponent of the greatest power of two that is not above `num / den`, for positive
numbers. -/
def binaryExponent (num den : Nat) : Int :=
  -- The quotient lies strictly between 2^(guess - 1) and 2^(guess + 1).
  let guess : Int := (Nat.log2 num : Int) - (Nat.log2 den : Int)
  if reaches num den guess then guess else guess - 1

/-- The nearest value to `num / den`, for a positive `den`. -/
def ofQuotient (negative : Bool) (num den : Nat) : Double :=
  if num = 0 then zero negative
  else
    -- Significands have 53 bits, or fewer at the smallest exponent.
    let exponent : Int := max minExponent (binaryExponent num den - 52)
    settle negative (inUnits num den exponent) exponent

/-- The nearest value to a whole number. -/
def ofInt (n : Int) : Double :=
  ofQuotient (n < 0) n.natAbs 1

/-- The nearest value to `mantissa * 10 ^ exponent`.  Exponents so far out that the answer is an
infinity or zero whatever the digits are answered without computing the power. -/
def ofDecimal (negative : Bool) (mantissa : Nat) (exponent : Int) : Double :=
  let digits : Int := (Nat.toDigits 10 mantissa).length
  if mantissa = 0 then zero negative
  else if 400 < digits + exponent then .infinite negative
  else if digits + exponent < -400 then zero negative
  else if 0 ≤ exponent then ofQuotient negative (mantissa * Nat.pow 10 exponent.toNat) 1
  else ofQuotient negative mantissa (Nat.pow 10 (-exponent).toNat)

/-- Whether the number is above zero; no undefined number is. -/
def isPositive : Double → Bool
  | .finite negative m _ => !negative && m != 0
  | .infinite negative => !negative
  | .undefined => false

/-- The numerator and denominator of a finite magnitude. -/
def magnitude (significand : Nat) (exponent : Int) : Nat × Nat :=
  if 0 ≤ exponent then (significand * Nat.pow 2 exponent.toNat, 1)
  else (significand, Nat.pow 2 (-exponent).toNat)

/-- The whole number that a finite value is, if it has no fractional part. -/
def toInt? : Double → Option Int
  | .finite negative m e =>
    let (num, den) := magnitude m e
    if num % den = 0 then
      some (if negative then -((num / den : Nat) : Int) else ((num / den : Nat) : Int))
    else none
  | _ => none

/-- Whether the number is neither infinite nor undefined. -/
def isFinite : Double → Bool
  | .finite .. => true
  | _ => false

end Double

end Tighten
