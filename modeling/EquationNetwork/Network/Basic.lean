import EquationNetwork.Expr.Parser
import EquationNetwork.Log.Event
import EquationNetwork.Settings

/-!
# Networks

A network has two sorts of nodes: quantities, which have a number or none yet, and equations. A
link joins an equation to every quantity that is a leaf of it; a number in an equation is a
quantity, too, named by its lexeme and known from the start.

Nodes are numbered in the order in which they were added, and the links of a node are in the order
in which they were made. For a quantity this is the order in which its equations are tried.

* `addQuantity`, `setQuantity` and `addEquation` build a network.
* `quantityId?` and `equationId?` find a node by its name; the two sorts do not share names.

Here a node stands with its links and is found by search. How nodes, links and names are kept apart
is told of `Store`.
-/

namespace EquationNetwork

/-- A node of a network, with the numbers of the nodes it is linked to. -/
inductive Node where
  | quantity (name : String) (number : Option Float) (links : List Nat)
  | equation (name : String) (body : Expr) (links : List Nat)

namespace Node

def name : Node → String
  | quantity name _ _ => name
  | equation name _ _ => name

def links : Node → List Nat
  | quantity _ _ links => links
  | equation _ _ links => links

def isQuantity : Node → Bool
  | quantity .. => true
  | equation .. => false

/-- Is this the quantity of the given name? -/
def isQuantityNamed (name : String) (node : Node) : Bool := node.isQuantity && node.name == name

/-- Is this the equation of the given name? -/
def isEquationNamed (name : String) (node : Node) : Bool := !node.isQuantity && node.name == name

/-- The number of a quantity, if it has one. -/
def number? : Node → Option Float
  | quantity _ number _ => number
  | equation .. => none

/-- The expression of an equation. -/
def body? : Node → Option Expr
  | quantity .. => none
  | equation _ body _ => some body

/-- The node with one more link, after those it has. -/
def addLink (id : Nat) : Node → Node
  | quantity name number links => quantity name number (links ++ [id])
  | equation name body links => equation name body (links ++ [id])

/-- The quantity with a number, in place of the one it may have. -/
def setNumber (x : Float) : Node → Node
  | quantity name _ links => quantity name (some x) links
  | node => node

end Node

/-- A network of quantities and equations, and the settings of its solver. -/
structure Network where
  nodes : List Node
  settings : Settings

/-- What can go wrong in adding an equation. -/
inductive NetworkError where
  | notAnEquation (name : String)
  /-- An equation has to link at least two quantities. -/
  | degenerate (name : String) (quantities : Nat)
  | duplicate (name : String)
deriving DecidableEq

def NetworkError.message : NetworkError → String
  | notAnEquation name => s!"equation '{name}' has no top-level '='"
  | degenerate name quantities =>
      s!"equation '{name}' links {quantities} value node(s), at least 2 are required"
  | duplicate name => s!"equation '{name}' already exists"

namespace Network

/-- The network without nodes. -/
def empty (settings : Settings) : Network := ⟨[], settings⟩

/-! ## Looking up -/

def size (net : Network) : Nat := net.nodes.length

def node? (net : Network) (id : Nat) : Option Node := net.nodes[id]?

/-- The number of the quantity of this name. -/
def quantityId? (net : Network) (name : String) : Option Nat :=
  net.nodes.findIdx? (Node.isQuantityNamed name)

/-- The number of the equation of this name. -/
def equationId? (net : Network) (name : String) : Option Nat :=
  net.nodes.findIdx? (Node.isEquationNamed name)

/-- The name of a node; where there is no node, the name is empty. -/
def nameOf (net : Network) (id : Nat) : String := ((net.node? id).map Node.name).getD ""

/-- The stored number of a quantity, by the quantity's place in the network. -/
def numberOf? (net : Network) (id : Nat) : Option Float := (net.node? id).bind Node.number?

/-- The expression of an equation. -/
def bodyOf? (net : Network) (id : Nat) : Option Expr := (net.node? id).bind Node.body?

/-- The nodes that a node is linked to. -/
def linksOf (net : Network) (id : Nat) : List Nat := ((net.node? id).map Node.links).getD []

/-- The names of the nodes that a node is linked to. -/
def linkNames (net : Network) (id : Nat) : List String := (net.linksOf id).map net.nameOf

/-- The stored number of the quantity of this name. -/
def value? (net : Network) (name : String) : Option Float :=
  (net.quantityId? name).bind net.numberOf?

/-! ## Listing -/

def quantityNames (net : Network) : List String :=
  (net.nodes.filter Node.isQuantity).map Node.name

def equationNames (net : Network) : List String :=
  (net.nodes.filter fun node => !node.isQuantity).map Node.name

/-- The quantities without a number, in order. -/
def unknowns (net : Network) : List String :=
  (net.nodes.filter fun node => node.isQuantity && node.number?.isNone).map Node.name

/-- The quantities that no equation mentions, in order. Nothing but their stored number can be known
of them. -/
def unlinked (net : Network) : List String :=
  (net.nodes.filter fun node => node.isQuantity && node.links.isEmpty).map Node.name

/-- The event of listing the quantities that no equation mentions, if there are any. -/
def unlinkedEvents (net : Network) : List Event :=
  if net.unlinked.isEmpty then [] else [.unlinked net.unlinked]

/-! ## Building -/

/-- The network with one more node, and the number of that node. -/
def push (net : Network) (node : Node) : Network × Nat :=
  ({ net with nodes := net.nodes ++ [node] }, net.size)

/-- The network with one node changed. -/
def modify (net : Network) (id : Nat) (f : Node → Node) : Network :=
  { net with nodes := net.nodes.modify id f }

/-- The network with a quantity of this name, and the place of the quantity. If it was there
before, it takes the number given, if one is given. -/
def addQuantity (net : Network) (name : String) (number : Option Float) : Network × Nat :=
  match net.quantityId? name with
  | none => net.push (.quantity name number [])
  | some id =>
      match number with
      | some x => (net.modify id (Node.setNumber x), id)
      | none => (net, id)

/-- The network in which the quantity of this name has a number. -/
def setQuantity (net : Network) (name : String) (x : Float) : Network × Nat :=
  net.addQuantity name (some x)

/-- Links an equation to the quantity of this name. A name that is a numeral brings its number. -/
def attach (equation : Nat) (net : Network) (name : String) : Network :=
  let (net, quantity) := net.addQuantity name (Decimal.numeral? name)
  (net.modify equation (Node.addLink quantity)).modify quantity (Node.addLink equation)

/-- The network with one more equation, linked to the quantities that are leaves of it, and the
place of the equation. -/
def addEquation (net : Network) (name : String) (body : Expr) :
    Except NetworkError (Network × Nat) :=
  let leaves := body.leafNames
  if (net.equationId? name).isSome then .error (.duplicate name)
  else if !body.isEquation then .error (.notAnEquation name)
  else if leaves.length < 2 then .error (.degenerate name leaves.length)
  else
    let (grown, id) := net.push (.equation name body [])
    .ok (leaves.foldl (attach id) grown, id)

/-- The event of adding an equation, told of the network that holds it. -/
def linkedEvent (net : Network) (id : Nat) : Event := .linked (net.nameOf id) (net.linkNames id)

end Network

end EquationNetwork
