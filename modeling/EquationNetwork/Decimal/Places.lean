import EquationNetwork.Decimal.Binary
import EquationNetwork.Decimal.Positional

/-!
# A fixed number of decimal places

`placesText` writes a double with a given number of digits after the point. The double's exact value
is rounded to the nearest such decimal, a half to the even one.
-/

namespace EquationNetwork.Decimal

/-- The quotient `num / den` rounded to the nearest whole number, a half to the even one. -/
def roundDiv (num den : Nat) : Nat :=
  let quotient := num / den
  let twice := 2 * (num % den)
  if twice < den then quotient
  else if den < twice then quotient + 1
  else if quotient % 2 = 0 then quotient
  else quotient + 1

/-- The whole number nearest to the magnitude times `10 ^ places`. -/
def Binary.scaled (b : Binary) (places : Nat) : Nat :=
  roundDiv (b.mantissa * Nat.pow 2 b.exponent.toNat * Nat.pow 10 places)
    (Nat.pow 2 (-b.exponent).toNat)

/-- A double with exactly `places` digits after the point. The sign is kept also where all digits
are zero. -/
def placesText (places : Nat) (x : Float) : String :=
  String.ofList <|
    match Parts.ofFloat x with
    | .nan => "NaN".toList
    | .infinity negative => signed negative "inf".toList
    | .finite b => signed b.negative (withPoint places (b.scaled places))

end EquationNetwork.Decimal
