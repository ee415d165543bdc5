import Tighten.Number.Double

/-
The shortest decimal of a double.

Every real in a certain interval around a finite value rounds to that value.  The shortest decimal
is the one with the fewest digits inside the interval, and of those the nearest to the value.
For each number of digits there are at most two decimals worth testing, the value's neighbours on
the grid of that precision, so the search is a scan over the precisions 1 to 17.  Everything is
done with whole numbers: a test is a comparison of two products.
-/
namespace Tighten.Double

/-- A decimal `0.d₁d₂… * 10 ^ point`, where `digits` is the whole number `d₁d₂…`. -/
structure Decimal where
  digits : Nat
  point : Int
deriving DecidableEq, Repr

/-- `num / den * 10 ^ shift` as a fraction. -/
def scaled (num den : Nat) (shift : Int) : Nat × Nat :=
  if 0 ≤ shift then (num * Nat.pow 10 shift.toNat, den)
  else (num, den * Nat.pow 10 (-shift).toNat)

/-- The least `k` with `num / den < 10 ^ k`, from a bracketing by binary size: with `b` bits
between them, `num / den` lies between `2 ^ (b - 1)` and `2 ^ (b + 1)`. -/
def decimalPoint (num den : Nat) : Int :=
  let bits : Int := (Nat.log2 num : Int) - (Nat.log2 den : Int)
  -- 30103 / 100000 is just above the decimal logarithm of two.
  let guess : Int := (bits - 1) * 30103 / 100000 - 1
  let fits (k : Int) : Bool :=
    let (n, d) := scaled num den (-k)
    n < d
  if fits guess then guess
  else if fits (guess + 1) then guess + 1
  else if fits (guess + 2) then guess + 2
  else guess + 3

/-- The halves of the distances to the neighbouring values, in quarter units of the last place:
the one below is shorter where the value is the least of its exponent. -/
def slackBelow (significand : Nat) (exponent : Int) : Nat :=
  if significand = Nat.pow 2 52 ∧ minExponent < exponent then 1 else 2

/-- Whether the decimal `digits * 10 ^ unit` rounds to `significand * 2 ^ exponent`. -/
def roundsTo (significand : Nat) (exponent : Int) (digits : Nat) (unit : Int) : Bool :=
  -- All quantities are multiplied by 4 and written over one denominator.
  let (ln, ld) := magnitude (4 * significand - slackBelow significand exponent) exponent
  let (hn, hd) := magnitude (4 * significand + 2) exponent
  let (dn, dd) := scaled (4 * digits) 1 unit
  let closed := significand % 2 == 0
  let above := if closed then ln * dd ≤ dn * ld else ln * dd < dn * ld
  let below := if closed then dn * hd ≤ hn * dd else dn * hd < hn * dd
  above && below

/-- Drops the zeros at the end of a whole number, for at most `fuel` digits. -/
def stripZeros : (fuel : Nat) → Nat → Nat
  | 0, n => n
  | fuel + 1, n => if n % 10 = 0 then stripZeros fuel (n / 10) else n

/-- The decimal of `precision` digits that rounds to the value, if there is one. -/
def atPrecision? (significand : Nat) (exponent : Int) (point : Int) (precision : Nat) :
    Option Nat :=
  let (num, den) := magnitude significand exponent
  let unit : Int := point - precision
  let (sn, sd) := scaled num den (-unit)
  let f := sn / sd
  let lower := roundsTo significand exponent f unit
  let upper := roundsTo significand exponent (f + 1) unit
  let remainder := sn % sd
  match lower, upper with
  | false, false => none
  | true, false => some f
  | false, true => some (f + 1)
  | true, true =>
    if 2 * remainder < sd then some f
    else if sd < 2 * remainder then some (f + 1)
    else some (f + f % 2)

/-- The shortest decimal among the precisions from `precision` on. -/
def searchFrom (significand : Nat) (exponent : Int) (point : Int) :
    (fuel precision : Nat) → Nat × Nat
  | 0, precision => (0, precision)
  | fuel + 1, precision =>
    match atPrecision? significand exponent point precision with
    | some d => (d, precision)
    | none => searchFrom significand exponent point fuel (precision + 1)

/-- The shortest decimal of a positive value. -/
def shortest (significand : Nat) (exponent : Int) : Decimal :=
  let (num, den) := magnitude significand exponent
  let point := decimalPoint num den
  let (d, precision) := searchFrom significand exponent point 17 1
  -- Rounding up can carry into one more digit, as from 9.99 to 10.
  let carried := Nat.pow 10 precision ≤ d
  ⟨stripZeros 17 d, if carried then point + 1 else point⟩

/-! ### Notation -/

/-- The decimal digits of a whole number. -/
def digitsOf (n : Nat) : List Char :=
  Nat.toDigits 10 n

/-- A number is written without an exponent when the exponent of its first digit lies in
`[leastPositional, firstScientific)`. -/
structure Style where
  leastPositional : Int
  firstScientific : Int
  /-- The fewest digits of a written exponent. -/
  exponentWidth : Nat

/-- Positional from 10^-4 up to 10^16, and exponents of two digits or more. -/
def plainStyle : Style := ⟨-4, 16, 2⟩

/-- A decimal without an exponent, always with a digit on each side of the point. -/
def positional (digits : List Char) (point : Int) : List Char :=
  if point ≤ 0 then
    ['0', '.'] ++ List.replicate (-point).toNat '0' ++ digits
  else if (digits.length : Int) ≤ point then
    digits ++ List.replicate (point.toNat - digits.length) '0' ++ ['.', '0']
  else
    digits.take point.toNat ++ ['.'] ++ digits.drop point.toNat

/-- A decimal with one digit before the point and an exponent. -/
def scientific (style : Style) (digits : List Char) (exponent : Int) : List Char :=
  let fraction := match digits.drop 1 with
    | [] => []
    | ds => '.' :: ds
  let magnitude := digitsOf exponent.natAbs
  let padding := List.replicate (style.exponentWidth - magnitude.length) '0'
  digits.take 1 ++ fraction ++ ['e', if exponent < 0 then '-' else '+'] ++ padding ++ magnitude

/-- The text of a number: the shortest decimal that reads back as it. -/
def toText : Double → String
  | .undefined => "nan"
  | .infinite negative => if negative then "-inf" else "inf"
  | .finite negative m e =>
    let sign := if negative then ['-'] else []
    let body :=
      if m = 0 then ['0', '.', '0']
      else
        let d := shortest m e
        let digits := digitsOf d.digits
        let exponent := d.point - 1
        if plainStyle.leastPositional ≤ exponent ∧ exponent < plainStyle.firstScientific
        then positional digits d.point
        else scientific plainStyle digits exponent
    String.ofList (sign ++ body)

end Tighten.Double
