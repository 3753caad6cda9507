import EquationNetwork.Expr.Printer

/-!
# Isolating a variable

An equation is rewritten until the first occurrence of a chosen variable stands alone on its side.
The side that holds it is unwound from the outside: its outermost operator is undone by moving the
operand without the variable across `=`.

| operation | variable on the left (`x`) | variable on the right (`x`) |
|-----------|----------------------------|-----------------------------|
| `x + m`   | `o - m`                    | `o - m`                     |
| `x - m`   | `o + m`                    | `m - o`                     |
| `x * m`   | `o / m`                    | `o / m`                     |
| `x / m`   | `o * m`                    | `m / o`                     |
| `x ^ m`   | `o ^ (1 / m)`              | no inverse                  |

* `Op.undo` is one such move.
* `Unwinding` is an equation being rewritten, and `Unwinding.run` makes the moves along a path.
* `Expr.solve` gives what the variable equals, `Expr.isolate` the rewritten equation.
-/

namespace EquationNetwork

/-- What can go wrong in isolating a variable. -/
inductive SolveError where
  | variableNotFound (name : String)
  | notAnEquation
  /-- The operator cannot be undone for the operand that holds the variable. -/
  | noInverse (op : Op)
  | limitExceeded (limit : Nat)
deriving DecidableEq

/-- Why an operator cannot be undone. -/
def Op.whyNoInverse : Op → String
  | pow => "only the base of a power can be isolated"
  | _ => "nested '=' cannot be moved across '='"

def SolveError.message : SolveError → String
  | variableNotFound name => s!"variable '{name}' not found in expression"
  | notAnEquation => "expression has no '=' to solve across"
  | noInverse op => s!"no inverse for '{op.symbol}': {op.whyNoInverse}"
  | limitExceeded limit => s!"isolation needs more than {limit} rewrite steps"

/-- The other side of an equation after one move. The variable's side was an operator with the
variable in the operand on `side`; `moved` is its other operand and `opposite` the other side before
the move. What the move adds is placed at `span`. -/
def Op.undo (op : Op) (side : Side) (opposite moved : Expr) (span : Span) :
    Except SolveError Expr :=
  match op, side with
  | .add, _ => .ok (.combine .sub opposite moved span)
  | .sub, .left => .ok (.combine .add opposite moved span)
  | .sub, .right => .ok (.combine .sub moved opposite span)
  | .mul, _ => .ok (.combine .div opposite moved span)
  | .div, .left => .ok (.combine .mul opposite moved span)
  | .div, .right => .ok (.combine .div moved opposite span)
  | .pow, .left =>
      .ok (.combine .pow opposite (.combine .div (.ofNumber 1 span) moved span) span)
  | .pow, .right => .error (.noInverse .pow)
  | .equals, _ => .error (.noInverse .equals)

/-- An equation being rewritten: what is left of the variable's side, and the other side. -/
structure Unwinding where
  current : Expr
  opposite : Expr
deriving DecidableEq

namespace Unwinding

/-- One move towards the variable `name`, which the current side holds in the operand on `side`. -/
def step (name : String) (u : Unwinding) (side : Side) : Except SolveError Unwinding :=
  match u.current with
  | .leaf _ => .error (.variableNotFound name)
  | .binary op t l r =>
      let (kept, moved) :=
        match side with
        | .left => (l, r)
        | .right => (r, l)
      (op.undo side u.opposite moved t.span).map fun opposite => ⟨kept, opposite⟩

/-- The moves along a path to the variable, when `done` of the `limit` moves are made already. -/
def run (name : String) (limit done : Nat) (u : Unwinding) : Path → Except SolveError Unwinding
  | [] => .ok u
  | side :: path =>
      if limit ≤ done then .error (.limitExceeded limit)
      else
        match u.step name side with
        | .ok next => run name limit (done + 1) next path
        | .error error => .error error

/-- The moves that `run` makes before it ends, each with the operator undone and the other side
after it. -/
def moves (name : String) (limit done : Nat) (u : Unwinding) : Path → List (Op × Expr)
  | [] => []
  | side :: path =>
      if limit ≤ done then []
      else
        match u.current.op?, u.step name side with
        | some op, .ok next => (op, next.opposite) :: moves name limit (done + 1) next path
        | _, _ => []

end Unwinding

/-- Where the isolation of a variable starts: the side of the equation that holds it, the equation
as seen from there, and the path to the variable on that side. -/
structure Approach where
  side : Side
  start : Unwinding
  path : Path
deriving DecidableEq

namespace Expr

/-- The approach to the first occurrence of a variable. -/
def approach (e : Expr) (name : String) : Except SolveError Approach :=
  match e.sides? with
  | none => .error .notAnEquation
  | some (l, r) =>
      match e.pathOf? name with
      | some (.left :: path) => .ok ⟨.left, ⟨l, r⟩, path⟩
      | some (.right :: path) => .ok ⟨.right, ⟨r, l⟩, path⟩
      | _ => .error (.variableNotFound name)

/-- The approach to a variable and the equation after all moves. -/
def unwind (limit : Nat) (e : Expr) (name : String) : Except SolveError (Side × Unwinding) :=
  match e.approach name with
  | .error error => .error error
  | .ok a => (a.start.run name limit 0 a.path).map fun u => (a.side, u)

/-- What a variable equals, found in at most `limit` moves. -/
def solve (limit : Nat) (e : Expr) (name : String) : Except SolveError Expr :=
  (e.unwind limit name).map fun (_, u) => u.opposite

/-- The equation with a variable alone on the side where it was. -/
def isolate (limit : Nat) (e : Expr) (name : String) : Except SolveError Expr :=
  (e.unwind limit name).map fun (side, u) =>
    match side with
    | .left => .binary .equals e.token u.current u.opposite
    | .right => .binary .equals e.token u.opposite u.current

/-- The moves made in solving for a variable. -/
def solveMoves (limit : Nat) (e : Expr) (name : String) : List (Op × Expr) :=
  match e.approach name with
  | .error _ => []
  | .ok a => a.start.moves name limit 0 a.path

end Expr

end EquationNetwork
