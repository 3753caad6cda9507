import EquationNetwork.Network.Basic

/-!
# Resolution

A request for a quantity searches the network for a chain of equations that gives its number.

* A quantity that has a number, stored or found during the request, needs no search. Otherwise its
  equations are tried in order, and the first that gives a number decides.
* An equation is solved for the quantity that asks. Every other quantity linked to it is then looked
  for in turn, and the solution is evaluated with their numbers. A number that is not finite is
  refused.
* A node is tried at most once in a request, so that circles come to an end. That an equation does
  not help is no error: the request goes on with the next.

`Search` is what a request has found so far. Its functions take it and hand it on, and `request`
runs them with enough fuel for the network: every quantity on the way down is tried for the first
time.
-/

namespace EquationNetwork

/-- The answer to a request. Not to find a number is an answer, too. -/
inductive Resolution where
  | resolved (number : Float)
  | unresolved

namespace Resolution

def ofOption : Option Float → Resolution
  | some x => resolved x
  | none => unresolved

def number? : Resolution → Option Float
  | resolved x => some x
  | unresolved => none

def isResolved (r : Resolution) : Bool := r.number?.isSome

/-- The text of an answer. -/
def text : Resolution → String
  | resolved x => Decimal.shortestText x
  | unresolved => "unresolved"

end Resolution

/-- Names with the answers for them, in the order asked. -/
abbrev Resolutions := List (String × Resolution)

/-- What a request has found so far: the nodes tried, the numbers derived and the events. -/
structure Search where
  visited : List Nat
  derived : List (Nat × Float)
  events : List Event

namespace Search

/-- Nothing tried yet. -/
def start : Search := ⟨[], [], []⟩

def hasVisited (s : Search) (id : Nat) : Bool := s.visited.contains id

def visit (s : Search) (id : Nat) : Search := { s with visited := id :: s.visited }

def derive (s : Search) (id : Nat) (x : Float) : Search :=
  { s with derived := (id, x) :: s.derived }

def tell (s : Search) (event : Event) : Search := { s with events := s.events ++ [event] }

def tellAll (s : Search) (events : List Event) : Search := { s with events := s.events ++ events }

end Search

/-- A step of a search that may find something. -/
abbrev Seek (α : Type) := Search → Option α × Search

namespace Network

/-- The number of a quantity that is stored or was derived. -/
def known? (net : Network) (s : Search) (id : Nat) : Option Float :=
  (net.numberOf? id).or (s.derived.lookup id)

/-! ## Equations -/

/-- The numbers of quantities, paired with their names. A quantity without a number is looked for
with `seek`, unless it was tried before; if one stays without, the search stalls. -/
def gather (net : Network) (seek : Nat → Seek Float) (equation : String) :
    List Nat → Seek (List (String × Float))
  | [], s => (some [], s)
  | id :: ids, s =>
      let found : Option Float × Search :=
        match net.known? s id with
        | some x => (some x, s)
        | none => if s.hasVisited id then (none, s) else seek id s
      match found with
      | (none, s) => (none, s.tell (.stalled equation (net.nameOf id)))
      | (some x, s) =>
          match gather net seek equation ids s with
          | (none, s) => (none, s)
          | (some pairs, s) => (some ((net.nameOf id, x) :: pairs), s)

/-- The value of a solution under the numbers gathered, if it is finite. -/
def conclude (equation quantity : String) (solution : Expr) (pairs : List (String × Float)) :
    Seek Float := fun s =>
  match solution.evaluate (.ofList pairs) with
  | .error error => (none, s.tell (.unevaluable equation error))
  | .ok x =>
      if x.isFinite then (some x, s) else (none, s.tell (.nonFinite equation quantity x))

/-- Tries an equation for a quantity, looking for the other quantities with `seek`. -/
def tryEquation (net : Network) (seek : Nat → Seek Float) (equation target : Nat) : Seek Float :=
  fun s =>
    let s := s.visit equation
    let equationName := net.nameOf equation
    let name := net.nameOf target
    let limit := net.settings.maxRewriteSteps
    match net.bodyOf? equation with
    | none => (none, s)
    | some body =>
        let s := (s.tell (.trying equationName name)).tellAll (body.solveEvents limit name)
        match body.solve limit name with
        | .error error => (none, s.tell (.unsolvable equationName name error))
        | .ok solution =>
            let others := (net.linksOf equation).filter (· != target)
            match gather net seek equationName others s with
            | (none, s) => (none, s)
            | (some pairs, s) => conclude equationName name solution pairs s

/-! ## Quantities -/

/-- The first number that one of the equations gives, with the equation. Equations tried before are
passed over. -/
def tryEquations (attempt : Nat → Seek Float) : List Nat → Seek (Float × Nat)
  | [], s => (none, s)
  | equation :: rest, s =>
      if s.hasVisited equation then tryEquations attempt rest s
      else
        match attempt equation s with
        | (some x, s) => (some (x, equation), s)
        | (none, s) => tryEquations attempt rest s

/-- Looks for the number of a quantity, at a given depth of the search. -/
def seek (net : Network) : (fuel depth : Nat) → (id : Nat) → Seek Float
  | 0, _, _, s => (none, s)
  | fuel + 1, depth, id, s =>
      match net.known? s id with
      | some x => (some x, s)
      | none =>
          if s.hasVisited id then (none, s)
          else if net.settings.maxRecursionDepth < depth then
            (none, s.tell (.tooDeep net.settings.maxRecursionDepth (net.nameOf id)))
          else
            let attempt := fun equation => tryEquation net (net.seek fuel (depth + 2)) equation id
            match tryEquations attempt (net.linksOf id) (s.visit id) with
            | (none, s) => (none, s)
            | (some (x, equation), s) =>
                (some x, (s.tell (.found (net.nameOf id) x (net.nameOf equation))).derive id x)

/-! ## Requests -/

/-- The fuel of a request: one for each quantity on the way down, and one for a visited one. -/
def requestFuel (net : Network) : Nat := net.size + 1

/-- The answer to a request for the quantity of this name, and the events on the way. -/
def request (net : Network) (name : String) : Resolution × List Event :=
  match net.quantityId? name with
  | none => (.unresolved, [.notAQuantity name])
  | some id =>
      match net.seek net.requestFuel 0 id .start with
      | (some x, s) => (.resolved x, s.events)
      | (none, s) => (.unresolved, s.events ++ [.unresolved name])

/-- The answer to a request for the quantity of this name. -/
def resolve (net : Network) (name : String) : Resolution := (net.request name).1

/-- The answers to several requests, each made on its own. -/
def resolveAll (net : Network) (names : List String) : Resolutions :=
  names.map fun name => (name, net.resolve name)

/-- The events of several requests. -/
def resolveAllEvents (net : Network) (names : List String) : List Event :=
  names.flatMap fun name => (net.request name).2

/-- The network in which every number that was found is stored. -/
def record (net : Network) (resolutions : Resolutions) : Network :=
  resolutions.foldl
    (fun net (name, resolution) =>
      match resolution with
      | .resolved x => (net.setQuantity name x).1
      | .unresolved => net)
    net

end Network

end EquationNetwork
