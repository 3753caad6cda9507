import EquationNetwork.Expr.Evaluation
import EquationNetwork.Expr.Isolation
import EquationNetwork.Log.Severity
import EquationNetwork.Text.Quoted
import EquationNetwork.Token.Scanner

/-!
# Events

What the library does on the way to an answer is told as a list of events. An event holds what
happened; its severity and its wording are functions of it.

`Expr.readEvents` and `Expr.solveEvents` are the events of reading and of solving an expression.
-/

namespace EquationNetwork

/-- Something worth telling. -/
inductive Event where
  /-- A token was read. -/
  | scanned (token : Token)
  /-- A move of an isolation was made, the one with this number. -/
  | moved (name : String) (number : Nat) (op : Op) (opposite : Expr)
  /-- An equation was linked to quantities. -/
  | linked (equation : String) (quantities : List String)
  /-- Quantities were found that no equation mentions. -/
  | unlinked (quantities : List String)
  /-- A name was asked for that is no quantity. -/
  | notAQuantity (name : String)
  /-- A quantity was not tried, because it lies too deep in the search. -/
  | tooDeep (limit : Nat) (quantity : String)
  /-- An equation is tried for a quantity. -/
  | trying (equation quantity : String)
  /-- An equation could not be solved for a quantity. -/
  | unsolvable (equation quantity : String) (error : SolveError)
  /-- An equation needs a quantity that has no number. -/
  | stalled (equation quantity : String)
  /-- The number found is infinite or no number. -/
  | nonFinite (equation quantity : String) (number : Float)
  /-- A solved equation could not be evaluated. -/
  | unevaluable (equation : String) (error : EvalError)
  /-- An equation gave the number of a quantity. -/
  | found (quantity : String) (number : Float) (equation : String)
  /-- The request for a quantity ended without a number. -/
  | unresolved (quantity : String)
  /-- A problem was run. -/
  | ran (resolved total : Nat)
  /-- A problem was loaded. -/
  | loaded (source : String) (equations : Nat)
  /-- The results were written. -/
  | saved (path : String)
  /-- The results could not be written. -/
  | notSaved (path reason : String)

namespace Event

def severity : Event → Severity
  | scanned .. | moved .. | linked .. | trying .. | unsolvable .. => .debug
  | stalled .. | nonFinite .. | unevaluable .. => .debug
  | unlinked .. | notAQuantity .. | tooDeep .. => .warn
  | found .. | unresolved .. | ran .. | loaded .. | saved .. => .info
  | notSaved .. => .error

def message : Event → String
  | scanned t => s!"token {t.text} at {t.span.text}"
  | moved name number op opposite =>
      s!"solve {name}: step {number} undid '{op.symbol}', other side is now {opposite.text}"
  | linked equation quantities => s!"equation '{equation}' links {Text.quotedList quantities}"
  | unlinked quantities => s!"value nodes with no equation: {Text.quotedList quantities}"
  | notAQuantity name => s!"'{name}' is not a value node"
  | tooDeep limit quantity =>
      s!"recursion depth {limit} reached at '{quantity}', giving up on this branch"
  | trying equation quantity => s!"trying '{equation}' for '{quantity}'"
  | unsolvable equation quantity error =>
      s!"'{equation}' cannot give '{quantity}': {error.message}"
  | stalled equation quantity => s!"'{equation}' stalls on unknown '{quantity}'"
  | nonFinite equation quantity number =>
      s!"'{equation}' gives non-finite {quantity} = {Decimal.shortestText number}"
  | unevaluable equation error => s!"'{equation}' failed to evaluate: {error.message}"
  | found quantity number equation =>
      s!"{quantity} = {Decimal.shortestText number} (from '{equation}')"
  | unresolved quantity => s!"'{quantity}' could not be resolved"
  | ran resolved total => s!"resolved {resolved} of {total} quantities"
  | loaded source equations => s!"task {source} with {equations} equations"
  | saved path => s!"results saved to {path}"
  | notSaved path reason => s!"cannot write {path}: {reason}"

end Event

/-- The events that a threshold lets through. -/
def Threshold.select (threshold : Threshold) (events : List Event) : List Event :=
  events.filter fun e => threshold.admits e.severity

namespace Expr

/-- The events of reading a text: its tokens, up to the first illegal character. -/
def readEvents (text : String) : List Event := (Scanner.scan text).tokens.map .scanned

/-- The events of a list of moves, the first of which has a given number. -/
def moveEvents (name : String) (number : Nat) : List (Op × Expr) → List Event
  | [] => []
  | (op, opposite) :: moves =>
      .moved name number op opposite :: moveEvents name (number + 1) moves

/-- The events of solving for a variable. -/
def solveEvents (limit : Nat) (e : Expr) (name : String) : List Event :=
  moveEvents name 1 (e.solveMoves limit name)

end Expr

end EquationNetwork
