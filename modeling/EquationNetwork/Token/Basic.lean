import EquationNetwork.Decimal.Numeral
import EquationNetwork.Decimal.Shortest

/-!
# Tokens

A token is a kind, a lexeme and the place of the lexeme in its text. What a lexeme means, a number
or an operator, is read off the kind and the lexeme.

* `Op` is the closed set of binary operators, with `=` among them, and their binding powers.
* `Span` is a place in a text; positions count characters from 1 and both ends belong to it.
* `Token.value?` and `Token.op?` read a token as a number or as an operator.
-/

namespace EquationNetwork

/-! ## Operators -/

/-- The binary operators. -/
inductive Op where
  | add
  | sub
  | mul
  | div
  | pow
  | equals
deriving DecidableEq, Repr

namespace Op

/-- The symbol that stands for an operator. -/
def symbol : Op → Char
  | add => '+'
  | sub => '-'
  | mul => '*'
  | div => '/'
  | pow => '^'
  | equals => '='

/-- An operator's symbol as a text. -/
def lexeme (op : Op) : String := String.singleton op.symbol

/-- The operator that a lexeme stands for. -/
def ofLexeme? : String → Option Op
  | "+" => some add
  | "-" => some sub
  | "*" => some mul
  | "/" => some div
  | "^" => some pow
  | "=" => some equals
  | _ => none

/-- How tightly an operator binds its operands; a higher power binds tighter. -/
def power : Op → Nat
  | equals => 1
  | add | sub => 10
  | mul | div => 20
  | pow => 30

/-- The power that an operator in the right operand has to exceed. For `^` this is less than its own
power, so powers group to the right; after `=` every operator is taken in. -/
def rightPower : Op → Nat
  | pow => 29
  | equals => 0
  | op => op.power

theorem ofLexeme?_lexeme (op : Op) : ofLexeme? op.lexeme = some op := by
  cases op <;> rfl

end Op

/-! ## Places -/

/-- The first and the last character of a lexeme, counted from 1. -/
structure Span where
  first : Nat
  last : Nat
deriving DecidableEq, Repr

/-- A place as it is written in messages. -/
def Span.text (span : Span) : String := s!"{span.first}-{span.last}"

/-! ## Tokens -/

/-- What a token is at first sight. -/
inductive Kind where
  | number
  | name
  | operator
  | equals
  | bracket
  /-- A run of digits and points that is no number. -/
  | malformed
deriving DecidableEq, Repr

/-- The word for a kind in messages. -/
def Kind.label : Kind → String
  | number => "Number"
  | name => "Variable"
  | operator => "Operator"
  | equals => "Equals"
  | bracket => "Parenthesis"
  | malformed => "Error"

/-- A classified lexeme. -/
structure Token where
  kind : Kind
  lexeme : String
  span : Span
deriving DecidableEq, Repr

namespace Token

/-- The number that a token stands for. Only numbers and names are read as numbers. -/
def value? (t : Token) : Option Float :=
  match t.kind with
  | .number | .name => Decimal.numeral? t.lexeme
  | _ => none

/-- The operator that a token stands for. -/
def op? (t : Token) : Option Op :=
  match t.kind with
  | .operator | .equals => Op.ofLexeme? t.lexeme
  | _ => none

/-- Is the token a name that stands for a quantity, and not for a number? -/
def isVariable (t : Token) : Bool := t.kind == .name && t.value?.isNone

/-- Is the token an opening bracket? -/
def isOpening (t : Token) : Bool := t.kind == .bracket && (t.lexeme == "(" || t.lexeme == "[")

/-- Is the token a closing bracket? -/
def isClosing (t : Token) : Bool := t.kind == .bracket && (t.lexeme == ")" || t.lexeme == "]")

/-- Does the token close what another one opened? Round brackets close round ones and square
brackets square ones. -/
def closes (t opener : Token) : Bool :=
  opener.lexeme == "(" && t.lexeme == ")" || opener.lexeme == "[" && t.lexeme == "]"

/-- A token as it is written in messages. -/
def text (t : Token) : String := s!"{t.kind.label} {t.lexeme}"

/-! ## Tokens that no text holds -/

/-- A number as a token. -/
def ofNumber (x : Float) (span : Span) : Token := ⟨.number, Decimal.shortestText x, span⟩

/-- An operator as a token. -/
def ofOp (op : Op) (span : Span) : Token :=
  ⟨if op = .equals then .equals else .operator, op.lexeme, span⟩

@[simp] theorem op?_ofOp (op : Op) (span : Span) : (ofOp op span).op? = some op := by
  cases op <;> rfl

end Token

end EquationNetwork
