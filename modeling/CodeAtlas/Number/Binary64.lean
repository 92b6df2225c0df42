/-
Numbers of the binary64 format, in exact integer arithmetic. A finite number is a significand
below 2^53 times a power of two no smaller than 2^-1074; every operation is the exact result
rounded to the nearest such number, a tie going to the even significand, and to infinity when
the exponent would grow past 971.
-/

namespace CodeAtlas.Number

/-- A number of the binary64 format. -/
inductive Binary64 where
  | finite (negative : Bool) (significand : Nat) (exponent : Int)
  | infinite (negative : Bool)
  | nan
deriving DecidableEq, Repr

/-- A quotient rounded to the nearest integer, a tie to the even one. -/
def roundDiv (numerator denominator : Nat) : Nat :=
  let quotient := numerator / denominator
  let twice := 2 * (numerator % denominator)
  if twice < denominator then quotient
  else if denominator < twice then quotient + 1
  else quotient + quotient % 2

/-- The fraction numerator / (denominator · 2^exponent) as a numerator and a denominator. -/
def unscale (numerator denominator : Nat) : Int → Nat × Nat
  | .ofNat exponent => (numerator, denominator * Nat.pow 2 exponent)
  | .negSucc exponent => (numerator * Nat.pow 2 (exponent + 1), denominator)

namespace Binary64

/-- Zero. -/
def zero (negative : Bool) : Binary64 := .finite negative 0 (-1074)

/-- The exponent for which a fraction has a significand of 53 bits, but never below the
smallest. -/
def exponentFor (numerator denominator : Nat) : Int :=
  let guess : Int := (numerator.log2 : Int) - denominator.log2 - 53
  let (top, bottom) := unscale numerator denominator guess
  max (-1074) (if top / bottom < Nat.pow 2 53 then guess else guess + 1)

/-- The number nearest to a fraction. -/
def nearest (negative : Bool) (numerator denominator : Nat) : Binary64 :=
  if numerator = 0 then zero negative
  else
    let exponent := exponentFor numerator denominator
    let (top, bottom) := unscale numerator denominator exponent
    let significand := roundDiv top bottom
    let (significand, exponent) :=
      if significand = Nat.pow 2 53 then (Nat.pow 2 52, exponent + 1) else (significand, exponent)
    if 971 < exponent then .infinite negative else .finite negative significand exponent

/-- How many decimal digits a number has. -/
def digitCount (value : Nat) : Nat := (Nat.toDigits 10 value).length

/-- The number nearest to digits · 10^exponent. Numbers that are far too large or too small are
told apart before the power of ten is worked out. -/
def ofDecimal (negative : Bool) (digits : Nat) (exponent : Int) : Binary64 :=
  let magnitude : Int := exponent + digitCount digits
  if digits = 0 || magnitude < -340 then zero negative
  else if 340 < magnitude then .infinite negative
  else
    match exponent with
    | .ofNat power => nearest negative (digits * Nat.pow 10 power) 1
    | .negSucc power => nearest negative digits (Nat.pow 10 (power + 1))

/-- A whole number. -/
def ofNat (value : Nat) : Binary64 := nearest false value 1

/-- Whether the number is neither infinite nor undefined. -/
def isFinite : Binary64 → Bool
  | .finite .. => true
  | _ => false

/-- Whether the number is zero. -/
def isZero : Binary64 → Bool
  | .finite _ significand _ => significand == 0
  | _ => false

/-- The opposite number. -/
def negate : Binary64 → Binary64
  | .finite negative significand exponent => .finite (!negative) significand exponent
  | .infinite negative => .infinite (!negative)
  | .nan => .nan

/-- The fraction that the absolute value of a finite number is. -/
def fraction (significand : Nat) : Int → Nat × Nat
  | .ofNat exponent => (significand * Nat.pow 2 exponent, 1)
  | .negSucc exponent => (significand, Nat.pow 2 (exponent + 1))

/-- The product of two finite numbers, rounded. -/
def mul : Binary64 → Binary64 → Binary64
  | .finite negative significand exponent, .finite negative' significand' exponent' =>
    let (top, bottom) := fraction (significand * significand') (exponent + exponent')
    nearest (negative != negative') top bottom
  | _, _ => .nan

/-- The quotient of two finite numbers, rounded. The divisor is not zero. -/
def div : Binary64 → Binary64 → Binary64
  | .finite negative significand exponent, .finite negative' significand' exponent' =>
    let (top, bottom) := fraction significand (exponent - exponent')
    nearest (negative != negative') top (bottom * significand')
  | _, _ => .nan

end Binary64

end CodeAtlas.Number
