import Std.Data.TreeMap
import EquationNetwork.Network.Resolution

/-!
# Stores

How a network is kept. A node is numbered by its place, and what there is to know of it is spread
over four containers: its cell and its links are at its place in two lists, and its number is found
by its name in one of two tables, one for quantities and one for equations. Every operation writes
the containers that it changes one by one; that they agree afterwards is nowhere checked.

* `Cell` is a node without its links, and `Store` the four containers with the settings.
* `push`, `addQuantity`, `addEquation` and `record` write the containers.
* `network` is the network that a store keeps. It reads the lists alone, and not the tables.
-/

namespace EquationNetwork

/-- What is kept of a node at its place, besides its links. -/
inductive Cell where
  | quantity (name : String) (number : Option Float)
  | equation (name : String) (body : Expr)

namespace Cell

def name : Cell → String
  | quantity name _ => name
  | equation name _ => name

def isQuantity : Cell → Bool
  | quantity .. => true
  | equation .. => false

/-- The number of a quantity, if it has one. -/
def number? : Cell → Option Float
  | quantity _ number => number
  | equation .. => none

/-- The expression of an equation. -/
def body? : Cell → Option Expr
  | quantity .. => none
  | equation _ body => some body

/-- The quantity with a number, in place of the one it may have. -/
def setNumber (x : Float) : Cell → Cell
  | quantity name _ => quantity name (some x)
  | equation name body => equation name body

/-- The node of a cell with these links. -/
def node (links : List Nat) : Cell → Node
  | quantity name number => .quantity name number links
  | equation name body => .equation name body links

end Cell

/-- The leaves of an expression with their numbers. Of leaves with one lexeme the first counts. -/
def Expr.numberedLeaves (e : Expr) : List (String × Option Float) :=
  (e.leaves.map fun t => (t.lexeme, t.value?)).eraseDupsBy fun a b => a.1 == b.1

/-- The containers of a network, and the settings of its solver. -/
structure Store where
  /-- What the nodes are, by their numbers. -/
  cells : List Cell
  /-- What the nodes are linked to, by their numbers. -/
  adjacency : List (List Nat)
  /-- The numbers of the quantities, by their names. -/
  quantityIds : Std.TreeMap String Nat
  /-- The numbers of the equations, by their names. -/
  equationIds : Std.TreeMap String Nat
  settings : Settings

namespace Store

/-- The store without nodes. -/
def empty (settings : Settings) : Store := ⟨[], [], ∅, ∅, settings⟩

/-! ## Looking up -/

def size (store : Store) : Nat := store.cells.length

def cell? (store : Store) (id : Nat) : Option Cell := store.cells[id]?

/-- The number of the quantity of this name. -/
def quantityId? (store : Store) (name : String) : Option Nat := store.quantityIds[name]?

/-- The number of the equation of this name. -/
def equationId? (store : Store) (name : String) : Option Nat := store.equationIds[name]?

/-- The name of a node; where there is no node, the name is empty. -/
def nameOf (store : Store) (id : Nat) : String := ((store.cell? id).map Cell.name).getD ""

/-- The stored number of a quantity, by the quantity's place. -/
def numberOf? (store : Store) (id : Nat) : Option Float := (store.cell? id).bind Cell.number?

/-- The expression of an equation. -/
def bodyOf? (store : Store) (id : Nat) : Option Expr := (store.cell? id).bind Cell.body?

/-- The nodes that a node is linked to. -/
def linksOf (store : Store) (id : Nat) : List Nat := store.adjacency[id]?.getD []

/-- The names of the nodes that a node is linked to. -/
def linkNames (store : Store) (id : Nat) : List String := (store.linksOf id).map store.nameOf

/-- The stored number of the quantity of this name. -/
def value? (store : Store) (name : String) : Option Float :=
  (store.quantityId? name).bind store.numberOf?

/-- The quantities that no equation mentions, from the table of the quantities. The table has them
in the order of their names, so their numbers are sorted first. -/
def unlinked (store : Store) : List String :=
  let ids := store.quantityIds.toList.map Prod.snd
  (ids.filter fun id => (store.linksOf id).isEmpty).mergeSort.map store.nameOf

/-! ## Building -/

/-- The store with one more node, not linked and not found by its name yet, and the number of that
node. -/
def push (store : Store) (cell : Cell) : Store × Nat :=
  ({ store with cells := store.cells ++ [cell], adjacency := store.adjacency ++ [[]] }, store.size)

/-- The store with a quantity of this name, and the place of the quantity. If it was there before,
it takes the number given, if one is given. -/
def addQuantity (store : Store) (name : String) (number : Option Float) : Store × Nat :=
  match store.quantityIds[name]? with
  | some id =>
      match number with
      | some x => ({ store with cells := store.cells.modify id (Cell.setNumber x) }, id)
      | none => (store, id)
  | none =>
      let (grown, id) := store.push (.quantity name number)
      ({ grown with quantityIds := grown.quantityIds.insert name id }, id)

/-- The store in which the quantity of this name has a number. -/
def setQuantity (store : Store) (name : String) (x : Float) : Store × Nat :=
  store.addQuantity name (some x)

/-- The store in which a node has one more link, after those it has. The other end is not
written. -/
def addLink (store : Store) (id other : Nat) : Store :=
  { store with adjacency := store.adjacency.modify id (· ++ [other]) }

/-- Links an equation to the quantity of a leaf. -/
def attach (equation : Nat) (store : Store) (leaf : String × Option Float) : Store :=
  let (store, quantity) := store.addQuantity leaf.1 leaf.2
  (store.addLink equation quantity).addLink quantity equation

/-- The store with one more equation, linked to the quantities that are leaves of it, and the place
of the equation. -/
def addEquation (store : Store) (name : String) (body : Expr) :
    Except NetworkError (Store × Nat) :=
  let leaves := body.numberedLeaves
  if store.equationIds.contains name then .error (.duplicate name)
  else if !body.isEquation then .error (.notAnEquation name)
  else if leaves.length < 2 then .error (.degenerate name leaves.length)
  else
    let (grown, id) := store.push (.equation name body)
    let named := { grown with equationIds := grown.equationIds.insert name id }
    .ok (leaves.foldl (attach id) named, id)

/-- The store in which every number that was found is stored. -/
def record (store : Store) (resolutions : Resolutions) : Store :=
  resolutions.foldl
    (fun store (name, resolution) =>
      match resolution with
      | .resolved x => (store.setQuantity name x).1
      | .unresolved => store)
    store

/-! ## The network -/

/-- The network that a store keeps. -/
def network (store : Store) : Network :=
  ⟨List.zipWith (fun cell links => cell.node links) store.cells store.adjacency, store.settings⟩

end Store

end EquationNetwork
