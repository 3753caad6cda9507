import EquationNetwork.Token.Basic

/-!
# Expressions

An expression is a binary tree: its leaves are tokens, numbers and names, and its inner nodes are
operators. An equation is an expression with `=` at its root.

* `Side` and `Path` say where a node is: the turns taken from the root.
* `firstPath?` is the path to the first node, in pre-order, with a given property; looking for a
  lexeme and looking for a variable are two uses of it.
* `variableNames` are the names that need a value, in order of first occurrence.
-/

namespace EquationNetwork

/-- A tree of operators over tokens. An operator node keeps the token that it was read from. -/
inductive Expr where
  | leaf (token : Token)
  | binary (op : Op) (token : Token) (left right : Expr)
deriving DecidableEq, Repr

/-- Which operand of an operator. -/
inductive Side where
  | left
  | right
deriving DecidableEq, Repr

def Side.opposite : Side → Side
  | left => right
  | right => left

/-- The turns taken from the root to reach a node; the empty path is the root. -/
abbrev Path := List Side

namespace Expr

/-! ## Nodes -/

/-- The token at the root. -/
def token : Expr → Token
  | leaf t => t
  | binary _ t _ _ => t

def lexeme (e : Expr) : String := e.token.lexeme

/-- The operator at the root. -/
def op? : Expr → Option Op
  | leaf _ => none
  | binary op _ _ _ => some op

def isLeaf : Expr → Bool
  | leaf _ => true
  | binary .. => false

/-- The operand on a side of the root. -/
def child? : Expr → Side → Option Expr
  | leaf _, _ => none
  | binary _ _ l _, .left => some l
  | binary _ _ _ r, .right => some r

/-- The subexpression at the end of a path. -/
def at? : Expr → Path → Option Expr
  | e, [] => some e
  | e, side :: path => (e.child? side).bind (·.at? path)

/-- The number of nodes on the longest path down; a leaf has depth 1. -/
def depth : Expr → Nat
  | leaf _ => 1
  | binary _ _ l r => 1 + max l.depth r.depth

/-- The number of nodes. -/
def size : Expr → Nat
  | leaf _ => 1
  | binary _ _ l r => 1 + l.size + r.size

/-- The leaves from left to right. -/
def leaves : Expr → List Token
  | leaf t => [t]
  | binary _ _ l r => l.leaves ++ r.leaves

/-- The lexemes of the leaves, each once, in order of first occurrence. -/
def leafNames (e : Expr) : List String := (e.leaves.map Token.lexeme).eraseDups

/-! ## Equations -/

/-- The two sides of an equation. -/
def sides? : Expr → Option (Expr × Expr)
  | binary .equals _ l r => some (l, r)
  | _ => none

def isEquation (e : Expr) : Bool := e.op? == some .equals

/-- The token of the first `=` in pre-order. -/
def firstEquals? : Expr → Option Token
  | leaf _ => none
  | binary .equals t _ _ => some t
  | binary _ _ l r => l.firstEquals?.or r.firstEquals?

/-- The token of the first `=` below the root. -/
def misplacedEquals? : Expr → Option Token
  | leaf _ => none
  | binary _ _ l r => l.firstEquals?.or r.firstEquals?

/-! ## Looking for a node -/

/-- The path to the first subexpression, in pre-order, that has a property. -/
def firstPath? (p : Expr → Bool) (e : Expr) : Option Path :=
  if p e then some []
  else
    match e with
    | leaf _ => none
    | binary _ _ l r =>
        ((l.firstPath? p).map (Side.left :: ·)).or ((r.firstPath? p).map (Side.right :: ·))

/-- The path to the first node with a lexeme, be it a leaf or an operator. -/
def find? (e : Expr) (lexeme : String) : Option Path := e.firstPath? (·.lexeme == lexeme)

/-- Is the expression the variable of this name? -/
def isVariable (name : String) : Expr → Bool
  | leaf t => t.isVariable && t.lexeme == name
  | binary .. => false

/-- The names that need a value, each once, in order of first occurrence. -/
def variableNames (e : Expr) : List String :=
  ((e.leaves.filter Token.isVariable).map Token.lexeme).eraseDups

/-- The path to the first occurrence of a variable. -/
def pathOf? (e : Expr) (name : String) : Option Path := e.firstPath? (isVariable name)

/-- Is this the name of a variable of the expression? -/
def mentions (e : Expr) (name : String) : Bool := (e.pathOf? name).isSome

/-- The node at the first occurrence of a variable. -/
def node? (e : Expr) (name : String) : Option Expr := (e.pathOf? name).bind e.at?

/-! ## Looking up from a node -/

/-- The nodes passed on a path, the root first, each with the turn taken there. -/
def passed : Expr → Path → List (Expr × Side)
  | _, [] => []
  | e, side :: path =>
      (e, side) ::
        match e.child? side with
        | some child => child.passed path
        | none => []

/-- The ancestors of the node at a path, the nearest first, each with the side on which the node
lies. Where a path leads out of the tree, the ancestors are those on the part of it inside. -/
def ancestors (e : Expr) (path : Path) : List (Expr × Side) := (e.passed path).reverse

/-! ## Nodes that no text holds -/

/-- An operator applied to two expressions, at a place of the text. -/
def combine (op : Op) (left right : Expr) (span : Span) : Expr :=
  .binary op (.ofOp op span) left right

/-- A number, at a place of the text. -/
def ofNumber (x : Float) (span : Span) : Expr := .leaf (.ofNumber x span)

end Expr

end EquationNetwork
