import EquationNetwork.Expr.Basic

/-!
# Evaluation

The value of an expression under a valuation of its variables, in double precision. Operands are
evaluated from left to right, and the first variable without a value is the error. An equation has
no value; `residual` says how far its sides are apart.
-/

namespace EquationNetwork

/-- The values of variables, where they have one. -/
abbrev Valuation := String → Option Float

/-- The valuation that a list of pairs stands for; the first pair of a name counts. -/
def Valuation.ofList (pairs : List (String × Float)) : Valuation := fun name => pairs.lookup name

/-- What can go wrong in evaluation. -/
inductive EvalError where
  | unboundVariable (name : String)
  /-- An equation was to be evaluated as a whole. -/
  | isEquation
  /-- Only an equation has a residual. -/
  | notAnEquation
  | nodeNotFound (lexeme : String)
deriving DecidableEq

def EvalError.message : EvalError → String
  | unboundVariable name => s!"no value supplied for variable '{name}'"
  | isEquation => "an equation has no single numeric value, evaluate one of its sides"
  | notAnEquation => "expression has no '=', it has no residual"
  | nodeNotFound lexeme => s!"node '{lexeme}' not found in expression"

/-- An operator applied to two numbers. -/
def Op.apply (op : Op) (x y : Float) : Except EvalError Float :=
  match op with
  | add => .ok (x + y)
  | sub => .ok (x - y)
  | mul => .ok (x * y)
  | div => .ok (x / y)
  | pow => .ok (Float.pow x y)
  | equals => .error .isEquation

/-- The value of a leaf: the number it is, or the value of the variable it names. -/
def Token.evaluate (known : Valuation) (t : Token) : Except EvalError Float :=
  match t.value? with
  | some x => .ok x
  | none =>
      match if t.kind = .name then known t.lexeme else none with
      | some x => .ok x
      | none => .error (.unboundVariable t.lexeme)

namespace Expr

/-- The value of an expression. -/
def evaluate (known : Valuation) : Expr → Except EvalError Float
  | leaf t => t.evaluate known
  | binary .equals _ _ _ => .error .isEquation
  | binary op _ l r =>
      match l.evaluate known with
      | .error error => .error error
      | .ok x =>
          match r.evaluate known with
          | .error error => .error error
          | .ok y => op.apply x y

/-- The value of the first node with a lexeme, which may be that of an operator. -/
def evaluateAt (known : Valuation) (e : Expr) (lexeme : String) : Except EvalError Float :=
  match (e.find? lexeme).bind e.at? with
  | some node => node.evaluate known
  | none => .error (.nodeNotFound lexeme)

/-- The left side of an equation minus its right side. -/
def residual (known : Valuation) (e : Expr) : Except EvalError Float :=
  match e.sides? with
  | none => .error .notAnEquation
  | some (l, r) =>
      match l.evaluate known with
      | .error error => .error error
      | .ok x =>
          match r.evaluate known with
          | .error error => .error error
          | .ok y => .ok (x - y)

end Expr

end EquationNetwork
