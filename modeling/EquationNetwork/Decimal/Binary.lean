/-!
# Doubles as exact numbers

A finite double is `± mantissa · 2 ^ exponent` with naturals only, so whatever is said about its
decimal digits can be said in exact arithmetic. `Parts.ofFloat` takes a double apart.
-/

namespace EquationNetwork.Decimal

/-- The exact number `± mantissa · 2 ^ exponent`. -/
structure Binary where
  negative : Bool
  mantissa : Nat
  exponent : Int
deriving DecidableEq, Repr

/-- What a double can be. -/
inductive Parts where
  | nan
  | infinity (negative : Bool)
  | finite (number : Binary)
deriving DecidableEq, Repr

/-- The least exponent of a finite double, that of the subnormal numbers. -/
def leastExponent : Int := -1074

/-- The mantissa of a power of two. -/
def hiddenBit : Nat := Nat.pow 2 52

/-- The parts that a bit pattern of 64 bits stands for: a sign bit, eleven bits of exponent and
fifty-two of fraction. The least exponent field marks subnormal numbers, which lack the hidden bit,
and the greatest marks infinities and NaN. -/
def Parts.ofBits (bits : Nat) : Parts :=
  let negative := bits / Nat.pow 2 63 % 2 == 1
  let field := bits / Nat.pow 2 52 % Nat.pow 2 11
  let fraction := bits % Nat.pow 2 52
  if field = Nat.pow 2 11 - 1 then
    if fraction = 0 then .infinity negative else .nan
  else if field = 0 then .finite ⟨negative, fraction, leastExponent⟩
  else .finite ⟨negative, hiddenBit + fraction, leastExponent + (field - 1 : Nat)⟩

/-- The parts of a double. -/
def Parts.ofFloat (x : Float) : Parts := .ofBits x.toBits.toNat

end EquationNetwork.Decimal
