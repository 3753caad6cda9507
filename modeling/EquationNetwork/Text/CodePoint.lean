/-!
# Ranges of code points

Properties of characters are tables of inclusive ranges of code points. A property that only one
module asks about is kept in that module; the combining characters matter both to quoting and to
the width of a text.
-/

namespace EquationNetwork.Text

/-- Does a character lie in one of the given inclusive ranges? -/
def inRanges (ranges : List (Nat × Nat)) (c : Char) : Bool :=
  ranges.any fun (low, high) => low ≤ c.toNat && c.toNat ≤ high

/-- The blocks of combining marks for general use, and the variation selectors: characters that show
only on the character before them. -/
def combiningRanges : List (Nat × Nat) :=
  [(0x0300, 0x036F), (0x0483, 0x0489), (0x1AB0, 0x1ACE), (0x1DC0, 0x1DFF), (0x20D0, 0x20F0),
   (0xFE00, 0xFE0F), (0xFE20, 0xFE2F), (0xE0100, 0xE01EF)]

end EquationNetwork.Text
