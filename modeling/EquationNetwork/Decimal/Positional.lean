/-!
# Positional notation

Numbers are written with all their digits and never with an exponent. `withPoint` sets the decimal
point into a whole number, and `positional` writes `digits · 10 ^ exponent`.
-/

namespace EquationNetwork.Decimal

/-- The decimal digits of a whole number, without leading zeros. -/
def wholeDigits (n : Nat) : List Char := Nat.toDigits 10 n

/-- The number `n / 10 ^ places` with exactly `places` digits after the point and at least one
before it. -/
def withPoint (places n : Nat) : List Char :=
  let digits := wholeDigits n
  let padded := List.replicate (places + 1 - digits.length) '0' ++ digits
  let whole := padded.length - places
  padded.take whole ++ '.' :: padded.drop whole

/-- The number `digits · 10 ^ exponent`; a point is written only if there are places after it. -/
def positional (digits : Nat) (exponent : Int) : List Char :=
  if 0 ≤ exponent then wholeDigits digits ++ List.replicate exponent.toNat '0'
  else withPoint (-exponent).toNat digits

/-- A minus sign in front of negative numbers. -/
def signed (negative : Bool) (magnitude : List Char) : List Char :=
  if negative then '-' :: magnitude else magnitude

end EquationNetwork.Decimal
