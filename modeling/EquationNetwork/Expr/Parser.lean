import EquationNetwork.Expr.Basic
import EquationNetwork.Token.Scanner

/-!
# Parsing

The parser reads tokens one by one and keeps a stack of what is still open: brackets that wait for
their closing one, minus signs that wait for an operand, and operators that wait for their right
operand. It alternates between two states. Where an *operand* is due, a number or a name is one,
and an opening bracket or a minus sign opens a frame. Where an *operator* is due, it takes the
operand before it as its left one if it binds tighter than the innermost frame allows; otherwise
the frame is complete and closes first.

* Operators that bind equally group to the left; `^` groups to the right.
* A minus sign in front of an operand is `0 - operand`. It binds looser than `^` and tighter than
  `*`, so `-x ^ 2` is `0 - (x ^ 2)`.
* `=` may stand only once, at the root.
* The number of open frames and the number of operator levels in an operand are both bounded by a
  limit, so no expression is nested deeper than that.

`Parser.step` takes one token and `Parser.finish` the end of the text; `Expr.parse` runs them over a
list of tokens and `Expr.read` over a text.
-/

namespace EquationNetwork

/-! ## Errors -/

/-- What can go wrong in parsing. -/
inductive ParseError where
  | unexpectedToken (lexeme : String) (span : Span)
  | unexpectedEnd
  | unmatchedBracket (span : Span)
  | unexpectedEquals (span : Span)
  | nestingTooDeep (limit : Nat) (span : Span)
deriving DecidableEq

def ParseError.message : ParseError → String
  | unexpectedToken lexeme span => s!"unexpected token '{lexeme}' at {span.text}"
  | unexpectedEnd => "unexpected end of input"
  | unmatchedBracket span => s!"unmatched parenthesis at {span.text}"
  | unexpectedEquals span =>
      s!"unexpected '=' at {span.text}: an equation has exactly one top-level '='"
  | nestingTooDeep limit span =>
      s!"expression nested deeper than {limit} levels at {span.text}"

/-- What can go wrong in reading an expression from a text. -/
inductive ReadError where
  | scan (error : ScanError)
  | parse (error : ParseError)
deriving DecidableEq

def ReadError.message : ReadError → String
  | scan error => error.message
  | parse error => error.message

namespace Parser

/-! ## Frames -/

/-- An operand that has been read, with the number of operator levels in it. -/
structure Operand where
  tree : Expr
  levels : Nat
deriving DecidableEq

/-- Something that waits for what follows. -/
inductive Frame where
  /-- A bracket that waits for the one that closes it. -/
  | group (opener : Token)
  /-- A minus sign that waits for its operand. -/
  | minus (token : Token)
  /-- An operator that waits for its right operand. -/
  | infixed (left : Operand) (op : Op) (token : Token)
deriving DecidableEq

/-- The power that an operand of a minus sign needs to take an operator in. -/
def minusPower : Nat := 25

/-- The power that an operator inside the frame has to exceed. -/
def Frame.floor : Frame → Nat
  | group _ => 0
  | minus _ => minusPower
  | infixed _ op _ => op.rightPower

/-- The power that an operator has to exceed to continue the innermost frame. -/
def floor : List Frame → Nat
  | [] => 0
  | frame :: _ => frame.floor

/-- The innermost bracket that is open. -/
def innermost? : List Frame → Option Token
  | [] => none
  | .group opener :: _ => some opener
  | _ :: stack => innermost? stack

/-- The state of the parser: what is due next, under which open frames. -/
inductive State where
  | operand (stack : List Frame)
  | operator (stack : List Frame) (held : Operand)
deriving DecidableEq

/-! ## Where an operand is due -/

/-- The error for a token that cannot stand where it does. -/
def unexpected (t : Token) : ParseError := .unexpectedToken t.lexeme t.span

/-- Takes a token where an operand is due. A closing bracket for the innermost open one is reported
as unexpected, since what is missing is an operand and not a bracket. -/
def takeOperand (limit : Nat) (stack : List Frame) (t : Token) : Except ParseError State :=
  if limit < stack.length then .error (.nestingTooDeep limit t.span)
  else
    match t.kind with
    | .number | .name => .ok (.operator stack ⟨.leaf t, 0⟩)
    | .bracket =>
        if t.isOpening then .ok (.operand (.group t :: stack))
        else if (innermost? stack).any t.closes then .error (unexpected t)
        else if t.isClosing then .error (.unmatchedBracket t.span)
        else .error (unexpected t)
    | .operator =>
        if t.op? = some .sub then .ok (.operand (.minus t :: stack)) else .error (unexpected t)
    | .equals | .malformed => .error (unexpected t)

/-! ## Where an operator is due -/

/-- The operand that a minus sign makes of another one. -/
def negate (limit : Nat) (t : Token) (held : Operand) : Except ParseError Operand :=
  if limit < held.levels + 1 then .error (.nestingTooDeep limit t.span)
  else .ok ⟨.binary .sub t (.ofNumber 0 t.span) held.tree, held.levels + 1⟩

/-- The operand that an operator makes of two. -/
def join (limit : Nat) (left : Operand) (op : Op) (t : Token) (right : Operand) :
    Except ParseError Operand :=
  let levels := 1 + max left.levels right.levels
  if limit < levels then .error (.nestingTooDeep limit t.span)
  else .ok ⟨.binary op t left.tree right.tree, levels⟩

/-- The operator that a token stands for, if it binds tighter than a power. -/
def opAbove? (power : Nat) (t : Token) : Option Op := t.op?.filter (power < ·.power)

/-- Takes a token where an operator is due, after closing the frames that it completes. -/
def takeOperator (limit : Nat) (t : Token) : List Frame → Operand → Except ParseError State
  | stack, held =>
    match opAbove? (floor stack) t with
    | some op => .ok (.operand (.infixed held op t :: stack))
    | none =>
        match stack with
        | [] => .error (if t.isClosing then .unmatchedBracket t.span else unexpected t)
        | .group opener :: stack =>
            if t.closes opener then .ok (.operator stack held)
            else .error (if t.isClosing then .unmatchedBracket opener.span else unexpected t)
        | .minus sign :: stack =>
            match negate limit sign held with
            | .ok held => takeOperator limit t stack held
            | .error error => .error error
        | .infixed left op token :: stack =>
            match join limit left op token held with
            | .ok held => takeOperator limit t stack held
            | .error error => .error error

/-! ## The run -/

/-- Takes one token. -/
def step (limit : Nat) : State → Token → Except ParseError State
  | .operand stack, t => takeOperand limit stack t
  | .operator stack held, t => takeOperator limit t stack held

/-- Closes all frames at the end of the tokens. -/
def closeAll (limit : Nat) : List Frame → Operand → Except ParseError Expr
  | [], held => .ok held.tree
  | .group opener :: _, _ => .error (.unmatchedBracket opener.span)
  | .minus sign :: stack, held =>
      match negate limit sign held with
      | .ok held => closeAll limit stack held
      | .error error => .error error
  | .infixed left op token :: stack, held =>
      match join limit left op token held with
      | .ok held => closeAll limit stack held
      | .error error => .error error

/-- Takes the end of the tokens; `last` is the place of the last one. -/
def finish (limit : Nat) (last : Span) : State → Except ParseError Expr
  | .operand stack =>
      .error (if limit < stack.length then .nestingTooDeep limit last else .unexpectedEnd)
  | .operator stack held => closeAll limit stack held

/-- The place of the last token. -/
def lastSpan (tokens : List Token) : Span := (tokens.getLast?.map Token.span).getD ⟨0, 0⟩

/-- The tree of a list of tokens, wherever `=` stands in it. -/
def run (limit : Nat) (tokens : List Token) : Except ParseError Expr := do
  let state ← tokens.foldlM (step limit) (.operand [])
  finish limit (lastSpan tokens) state

end Parser

namespace Expr

/-- The expression that a list of tokens stands for. -/
def parse (limit : Nat) (tokens : List Token) : Except ParseError Expr := do
  let e ← Parser.run limit tokens
  match e.misplacedEquals? with
  | some t => throw (.unexpectedEquals t.span)
  | none => return e

/-- The expression that a text stands for. -/
def read (limit : Nat) (text : String) : Except ReadError Expr :=
  match tokenize text with
  | .error error => .error (.scan error)
  | .ok tokens => (parse limit tokens).mapError .parse

end Expr

end EquationNetwork
