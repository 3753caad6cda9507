import EquationNetwork.Expr.Basic

/-!
# Walks through an expression

A walk lists the nodes of an expression, each as the subexpression it is the root of, with its
depth.

* `walk` goes depth first and reports a node before, between or after its operands; it counts the
  root's depth as 1.
* `levelOrder` goes level by level from left to right and counts the root's depth as 0. It keeps the
  nodes still to come in a queue.
* `outline` is a text form of the tree, one line a node.
-/

namespace EquationNetwork.Expr

/-- A node reported by a walk. -/
abbrev Visit := Expr × Nat

/-! ## Depth first -/

/-- When a node is reported: before, between or after its operands. -/
inductive Order where
  | before
  | between
  | after
deriving DecidableEq, Repr

/-- The depth-first walk from a node at a given depth. -/
def walkFrom (order : Order) (e : Expr) (depth : Nat) : List Visit :=
  match e with
  | leaf _ => [(e, depth)]
  | binary _ _ l r =>
      let left := l.walkFrom order (depth + 1)
      let right := r.walkFrom order (depth + 1)
      match order with
      | .before => (e, depth) :: (left ++ right)
      | .between => left ++ (e, depth) :: right
      | .after => left ++ right ++ [(e, depth)]

/-- The depth-first walk through an expression. -/
def walk (order : Order) (e : Expr) : List Visit := e.walkFrom order 1

/-! ## Level by level -/

/-- The operands of a node, one level below it. -/
def operands : Visit → List Visit
  | (leaf _, _) => []
  | (binary _ _ l r, depth) => [(l, depth + 1), (r, depth + 1)]

/-- The number of nodes that a queue stands for. -/
def queueSize : List Visit → Nat
  | [] => 0
  | v :: queue => v.1.size + queueSize queue

theorem queueSize_append (queue more : List Visit) :
    queueSize (queue ++ more) = queueSize queue + queueSize more := by
  induction queue with
  | nil => simp [queueSize]
  | cons v queue ih =>
    simp only [List.cons_append, queueSize, ih]
    omega

theorem queueSize_append_operands (queue : List Visit) (v : Visit) :
    queueSize (queue ++ operands v) < queueSize (v :: queue) := by
  obtain ⟨e, depth⟩ := v
  rw [queueSize_append]
  cases e with
  | leaf t => simp [queueSize, operands, size]
  | binary op t l r =>
    simp only [queueSize, operands, size]
    omega

/-- Reports the first node of the queue and puts its operands at the end. -/
def levelOrderFrom : List Visit → List Visit
  | [] => []
  | v :: queue => v :: levelOrderFrom (queue ++ operands v)
termination_by queue => queueSize queue
decreasing_by exact queueSize_append_operands queue v

/-- The walk level by level. -/
def levelOrder (e : Expr) : List Visit := levelOrderFrom [(e, 0)]

/-! ## The outline -/

/-- The line of a node: as many `#` as its depth, then its lexeme. -/
def outlineLine (v : Visit) : String := String.ofList (List.replicate v.2 '#') ++ v.1.lexeme

/-- One line a node, the root first and right operands before left ones. -/
def outline (e : Expr) : List String := ((e.walk .after).map outlineLine).reverse

end EquationNetwork.Expr
