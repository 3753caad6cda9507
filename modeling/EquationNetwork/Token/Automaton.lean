import EquationNetwork.Text.Blank
import EquationNetwork.Token.Basic

/-!
# The scanner's automaton

The scanner reads a token by following the edges of a finite automaton from `start`, one edge a
character. The state in which no edge accepts the next character decides the kind of the token.

A number passes through `whole` (digits), `point` (a decimal point just read) and `fraction` (digits
after it). A second point leads to `malformed`, which takes the rest of the run, so that `1.2.3` is
one token.
-/

namespace EquationNetwork.Scanner

/-- The states of the automaton. -/
inductive State where
  | start
  | name
  | operator
  | bracket
  | equals
  | whole
  | point
  | fraction
  | malformed
deriving DecidableEq, Repr

/-- The kind of a token that ends in a state. Nothing ends in `start`. -/
def State.kind? : State → Option Kind
  | start => none
  | name => some .name
  | operator => some .operator
  | bracket => some .bracket
  | equals => some .equals
  | whole | fraction => some .number
  | point | malformed => some .malformed

/-! ## Character classes -/

/-- Letters are those of ASCII. -/
def isLetter (c : Char) : Bool := c.isAlpha

/-- A name goes on with letters, digits and underscores. -/
def isNameChar (c : Char) : Bool := c.isAlphanum || c == '_'

def isOperator (c : Char) : Bool := ['+', '-', '*', '/', '^'].contains c

def isBracket (c : Char) : Bool := ['(', ')', '[', ']'].contains c

def isDigitOrPoint (c : Char) : Bool := c.isDigit || c == '.'

/-! ## Edges -/

/-- An edge leads from one state to another on the characters it accepts. -/
structure Edge where
  source : State
  target : State
  accepts : Char → Bool

/-- The edges, in the order in which they are tried. -/
def edges : List Edge :=
  [⟨.start, .start, Text.isBlank⟩,
   ⟨.start, .name, isLetter⟩,
   ⟨.name, .name, isNameChar⟩,
   ⟨.start, .operator, isOperator⟩,
   ⟨.start, .bracket, isBracket⟩,
   ⟨.start, .equals, (· == '=')⟩,
   ⟨.start, .whole, Char.isDigit⟩,
   ⟨.start, .point, (· == '.')⟩,
   ⟨.whole, .whole, Char.isDigit⟩,
   ⟨.whole, .point, (· == '.')⟩,
   ⟨.point, .fraction, Char.isDigit⟩,
   ⟨.point, .malformed, (· == '.')⟩,
   ⟨.fraction, .fraction, Char.isDigit⟩,
   ⟨.fraction, .malformed, (· == '.')⟩,
   ⟨.malformed, .malformed, isDigitOrPoint⟩]

namespace State

/-- Where a character leads from a state: along the first edge that accepts it. -/
def next (s : State) (c : Char) : Option State :=
  (edges.find? fun e => e.source == s && e.accepts c).map Edge.target

/-- The number of edges that leave a state. -/
def degree (s : State) : Nat := (edges.filter (·.source == s)).length

/-- A state that no edge leaves ends its token at once. -/
def isFinal (s : State) : Bool := s.degree == 0

end State

end EquationNetwork.Scanner
