/-!
# Reading numbers

A *plain numeral* is a run of digits with at most one decimal point, with a digit on at least one
side of it. `readNumber` reads more: an optional sign, a plain numeral with an optional power of
ten, or one of the words for infinity and NaN. The result is the double nearest to the number
written.
-/

namespace EquationNetwork.Decimal

/-- The leading digits of a text, and what follows them. -/
def spanDigits (cs : List Char) : List Char × List Char :=
  (cs.takeWhile Char.isDigit, cs.dropWhile Char.isDigit)

/-- Is the text a non-empty run of digits? -/
def isDigits (cs : List Char) : Bool := !cs.isEmpty && cs.all Char.isDigit

/-- The number that a run of digits stands for. -/
def digitsValue (digits : List Char) : Nat :=
  digits.foldl (fun n c => 10 * n + (c.toNat - '0'.toNat)) 0

/-- The parts of a plain numeral at the start of a text, and what follows it. -/
structure Magnitude where
  whole : List Char
  fraction : List Char
  rest : List Char

/-- Reads the longest plain numeral at the start of a text. -/
def readMagnitude (cs : List Char) : Option Magnitude :=
  let (whole, rest) := spanDigits cs
  let (fraction, rest) :=
    match rest with
    | '.' :: rest => spanDigits rest
    | rest => ([], rest)
  if whole.isEmpty && fraction.isEmpty then none else some ⟨whole, fraction, rest⟩

/-- The double nearest to `n · 10 ^ exponent`. -/
def scaleTen (n : Nat) (exponent : Int) : Float :=
  Float.ofScientific n (exponent < 0) exponent.natAbs

/-- The double nearest to a magnitude times `10 ^ exponent`. -/
def Magnitude.value (m : Magnitude) (exponent : Int) : Float :=
  scaleTen (digitsValue (m.whole ++ m.fraction)) (exponent - m.fraction.length)

/-- An optional sign at the start of a text: is it a minus, and what follows. -/
def readSign : List Char → Bool × List Char
  | '-' :: rest => (true, rest)
  | '+' :: rest => (false, rest)
  | rest => (false, rest)

/-- The power of ten that ends a number: nothing, or `e` with an optional sign and digits. -/
def readExponent : List Char → Option Int
  | [] => some 0
  | c :: rest =>
      if c = 'e' ∨ c = 'E' then
        let (negative, digits) := readSign rest
        if isDigits digits then
          some (if negative then -(digitsValue digits : Int) else digitsValue digits)
        else none
      else none

/-- The words for numbers that have no digits, in any case. -/
def readWord (cs : List Char) : Option Float :=
  let word := String.ofList (cs.map Char.toLower)
  if word = "inf" ∨ word = "infinity" then some (1.0 / 0.0)
  else if word = "nan" then some (0.0 / 0.0)
  else none

/-- A number without sign. -/
def readUnsigned (cs : List Char) : Option Float :=
  match readMagnitude cs with
  | some m => (readExponent m.rest).map m.value
  | none => readWord cs

/-- The double that a text stands for, if all of it is a number. -/
def readNumber (cs : List Char) : Option Float :=
  let (negative, rest) := readSign cs
  (readUnsigned rest).map fun x => if negative then -x else x

/-- The double that a plain numeral stands for. Words and powers of ten are no plain numerals. -/
def numeral? (lexeme : String) : Option Float :=
  match readMagnitude lexeme.toList with
  | some m => if m.rest.isEmpty then some (m.value 0) else none
  | none => none

end EquationNetwork.Decimal
