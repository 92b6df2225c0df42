/-
The shortest decimal that reads back as a given binary number. All reals between the two
midpoints to the neighbouring numbers read back as it, the midpoints themselves if its
significand is even. For one digit, two digits, and so on, the two decimals of that length next
to the number are tried; the first length with a hit wins, and of two hits the nearer.
-/
import CodeAtlas.Number.Binary64

namespace CodeAtlas.Number

/-- The decimal number digits · 10^exponent. -/
structure Decimal where
  digits : Nat
  exponent : Int
deriving DecidableEq, Repr

namespace Decimal

/-- The same number without zeros at the end of its digits. -/
def strip : Nat → Decimal → Decimal
  | 0, decimal => decimal
  | fuel + 1, decimal =>
    if decimal.digits ≠ 0 ∧ decimal.digits % 10 = 0 then
      strip fuel ⟨decimal.digits / 10, decimal.exponent + 1⟩
    else decimal

end Decimal

/-- The reals that round to a number, over a common denominator. -/
structure Interval where
  low : Nat
  value : Nat
  high : Nat
  denominator : Nat
  closed : Bool
deriving DecidableEq, Repr

namespace Interval

/-- The reals that round to significand · 2^exponent. Below a power of two the next number is
only half as far. -/
def around (significand : Nat) (exponent : Int) : Interval :=
  let below := if significand = Nat.pow 2 52 ∧ -1074 < exponent then 1 else 2
  let (unit, denominator) := Binary64.fraction 1 (exponent - 2)
  ⟨(4 * significand - below) * unit, 4 * significand * unit, (4 * significand + 2) * unit,
    denominator, significand % 2 == 0⟩

/-- The interval over a step of 10^exponent: the numbers that it is made of count steps. -/
def inSteps (interval : Interval) : Int → Interval
  | .ofNat exponent => { interval with denominator := interval.denominator * Nat.pow 10 exponent }
  | .negSucc exponent =>
    let factor := Nat.pow 10 (exponent + 1)
    { interval with
      low := interval.low * factor
      value := interval.value * factor
      high := interval.high * factor }

/-- Whether a whole number of steps lies in the interval. -/
def contains (interval : Interval) (count : Nat) : Bool :=
  let scaled := count * interval.denominator
  if interval.closed then interval.low ≤ scaled && scaled ≤ interval.high
  else interval.low < scaled && scaled < interval.high

/-- The whole number of steps in the interval that is nearest to the value, if there is one. -/
def pick? (interval : Interval) : Option Nat :=
  let below := interval.value / interval.denominator
  let twice := 2 * (interval.value % interval.denominator)
  match interval.contains below, interval.contains (below + 1) with
  | true, true =>
    if twice < interval.denominator then some below
    else if interval.denominator < twice then some (below + 1)
    else some (below + below % 2)
  | true, false => some below
  | false, true => some (below + 1)
  | false, false => none

/-- The exponent of the leading digit of the value, which is not zero. -/
def leadingExponent (interval : Interval) : Int :=
  Binary64.digitCount (interval.value * Nat.pow 10 400 / interval.denominator) - 401

end Interval

namespace Binary64

/-- The shortest decimal in an interval whose leading digit has the given exponent, with at
least so many digits. -/
def shortestFrom (interval : Interval) (leading : Int) : Nat → Nat → Decimal
  | 0, length => ⟨0, leading - length⟩
  | fuel + 1, length =>
    let exponent := leading - length + 1
    match (interval.inSteps exponent).pick? with
    | some digits => Decimal.strip 20 ⟨digits, exponent⟩
    | none => shortestFrom interval leading fuel (length + 1)

/-- The shortest decimal that reads back as a finite number without its sign. -/
def shortest (significand : Nat) (exponent : Int) : Decimal :=
  if significand = 0 then ⟨0, 0⟩
  else
    let interval := Interval.around significand exponent
    shortestFrom interval interval.leadingExponent 17 1

/-! ### Notations -/

/-- How numbers are written. -/
structure NumberStyle where
  /-- The exponents of the leading digit for which no power of ten is written. -/
  isPositional : Int → Bool
  /-- How many digits the exponent has at least. -/
  exponentWidth : Nat

/-- Zeros in front up to a width. -/
def padZeros (width : Nat) (digits : List Char) : List Char :=
  List.replicate (width - digits.length) '0' ++ digits

/-- Digits with the point where it belongs, and always a digit behind it. -/
def positional (digits : List Char) (exponent : Int) : List Char :=
  match exponent with
  | .ofNat zeros => digits ++ List.replicate zeros '0' ++ ['.', '0']
  | .negSucc less =>
    let places := less + 1
    if places < digits.length then
      digits.take (digits.length - places) ++ ['.'] ++ digits.drop (digits.length - places)
    else ['0', '.'] ++ padZeros places digits

/-- Digits with the point behind the first, and a power of ten. -/
def scientific (width : Nat) (digits : List Char) (leading : Int) : List Char :=
  digits.take 1 ++ (if digits.length ≤ 1 then [] else '.' :: digits.drop 1) ++
    ['e', if leading < 0 then '-' else '+'] ++
    padZeros width (Nat.toDigits 10 leading.natAbs)

/-- A number in a notation. -/
def write (style : NumberStyle) : Binary64 → List Char
  | .nan => ['N', 'a', 'N']
  | .infinite negative => (if negative then ['-'] else []) ++ ['i', 'n', 'f']
  | .finite negative significand exponent =>
    let decimal := shortest significand exponent
    let digits := Nat.toDigits 10 decimal.digits
    let leading : Int := decimal.exponent + digits.length - 1
    (if negative then ['-'] else []) ++
      (if style.isPositional leading then positional digits decimal.exponent
      else scientific style.exponentWidth digits leading)

end Binary64

end CodeAtlas.Number
