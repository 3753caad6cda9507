import EquationNetwork.Expr.Basic

/-!
# Printing expressions

`Expr.text` writes an expression with brackets around every operation, so that the text shows the
tree. Only `=` stands without brackets.
-/

namespace EquationNetwork.Expr

/-- The text of an expression. -/
def text : Expr → String
  | leaf t => t.lexeme
  | binary .equals _ l r => l.text ++ " = " ++ r.text
  | binary op _ l r => "(" ++ l.text ++ " " ++ op.lexeme ++ " " ++ r.text ++ ")"

end EquationNetwork.Expr
