import EquationNetwork.Document.Sections
import EquationNetwork.Network.Store

/-!
# Problems

A problem is a network with the quantities that are asked for. It is written as a document with the
sections `equations` and `values`, and possibly `settings` and `unknowns`, in any order. An entry of
`equations` names an equation, one of `values` gives the number of a quantity, and the entries of
`unknowns`, all with the key `targets`, list the names asked for, separated by commas. Without any,
every quantity that has no number is asked for.

* `Plan` is a document taken apart: the settings and the entries of each section. `Plan.store` is
  the store that is built of it, and `Plan.network` is the network built in the same steps, of which
  the events tell.
* `Problem.ofText` builds the problem of a document and `Problem.run` answers it.
* `Problem.loadEvents` and `Problem.runEvents` are the events on the way.
-/

namespace EquationNetwork

open Document (Entry)

/-! ## Errors -/

/-- Why a file cannot be read as text. -/
inductive Unreadable where
  | missing
  /-- The bytes are no text. -/
  | notText
  | other (reason : String)
deriving DecidableEq

def Unreadable.message : Unreadable → String
  | missing => "No such file or directory (os error 2)"
  | notText => "stream did not contain valid UTF-8"
  | other reason => reason

/-- What can go wrong in loading a problem. -/
inductive ProblemError where
  | form (error : Document.FormError)
  | missingSection (title : String)
  | invalidValue (error : InvalidValue)
  | unreadable (reason : Unreadable)
  | expression (error : ReadError)
  | network (error : NetworkError)
deriving DecidableEq

def ProblemError.message : ProblemError → String
  | form error => s!"syntax error in task document: {error.message}"
  | missingSection title => s!"task document has no '{title}' section"
  | invalidValue error => error.message
  | unreadable reason => s!"cannot read task: {reason.message}"
  | expression error => error.message
  | network error => error.message

/-! ## Plans -/

/-- The titles that sections may have. -/
def sectionTitles : List String := ["equations", "values", "settings", "unknowns"]

/-- A document taken apart. -/
structure Plan where
  settings : Settings
  equations : List Entry
  values : List Entry
  unknowns : List Entry

/-- The plan of a document's sections. -/
def Plan.ofSections (sections : List Document.Section) : Except ProblemError Plan :=
  match sections.find? fun found => !sectionTitles.contains found.1 with
  | some (title, _) => .error (.form (.unknownSection title))
  | none =>
      let optional := fun title => (Document.entries? sections title).getD []
      match Settings.default.setAll (optional "settings") with
      | .error error => .error (.invalidValue error)
      | .ok settings =>
          match Document.entries? sections "equations", Document.entries? sections "values" with
          | none, _ => .error (.missingSection "equations")
          | some _, none => .error (.missingSection "values")
          | some equations, some values =>
              .ok ⟨settings, equations, values, optional "unknowns"⟩

/-- The plan of a document. -/
def Plan.ofText (text : String) : Except ProblemError Plan :=
  match Document.sections text with
  | .error error => .error (.form error)
  | .ok sections => Plan.ofSections sections

/-! ## From plan to network -/

namespace Network

/-- The network with the equation of an entry. -/
def addEntry (net : Network) (entry : Entry) : Except ProblemError (Network × Nat) :=
  match Expr.read net.settings.maxNestingDepth entry.2 with
  | .error error => .error (.expression error)
  | .ok body => (net.addEquation entry.1 body).mapError .network

/-- The network with the equations of several entries, added in order. -/
def addEntries (net : Network) (entries : List Entry) : Except ProblemError Network :=
  entries.foldlM (fun net entry => (net.addEntry entry).map Prod.fst) net

/-- The events of adding the equations of several entries, up to the first that fails. -/
def addEntriesEvents (net : Network) : List Entry → List Event
  | [] => []
  | entry :: entries =>
      Expr.readEvents entry.2 ++
        match net.addEntry entry with
        | .error _ => []
        | .ok (grown, id) => grown.linkedEvent id :: addEntriesEvents grown entries

/-- The network with the number of an entry. -/
def setEntry (net : Network) (entry : Entry) : Except ProblemError Network :=
  match Decimal.readNumber entry.2.toList with
  | some x => .ok (net.setQuantity entry.1 x).1
  | none => .error (.invalidValue ⟨entry.1, entry.2⟩)

/-- The network with the numbers of several entries, set in order. -/
def setEntries (net : Network) (entries : List Entry) : Except ProblemError Network :=
  entries.foldlM setEntry net

end Network

namespace Store

/-- The store with the equation of an entry. -/
def addEntry (store : Store) (entry : Entry) : Except ProblemError (Store × Nat) :=
  match Expr.read store.settings.maxNestingDepth entry.2 with
  | .error error => .error (.expression error)
  | .ok body => (store.addEquation entry.1 body).mapError .network

/-- The store with the equations of several entries, added in order. -/
def addEntries (store : Store) (entries : List Entry) : Except ProblemError Store :=
  entries.foldlM (fun store entry => (store.addEntry entry).map Prod.fst) store

/-- The store with the number of an entry. -/
def setEntry (store : Store) (entry : Entry) : Except ProblemError Store :=
  match Decimal.readNumber entry.2.toList with
  | some x => .ok (store.setQuantity entry.1 x).1
  | none => .error (.invalidValue ⟨entry.1, entry.2⟩)

/-- The store with the numbers of several entries, set in order. -/
def setEntries (store : Store) (entries : List Entry) : Except ProblemError Store :=
  entries.foldlM setEntry store

end Store

namespace Plan

/-- The store of a plan: its equations first, then its values. -/
def store (plan : Plan) : Except ProblemError Store := do
  let store ← (Store.empty plan.settings).addEntries plan.equations
  store.setEntries plan.values

/-- The network of a plan: its equations first, then its values. -/
def network (plan : Plan) : Except ProblemError Network := do
  let net ← (Network.empty plan.settings).addEntries plan.equations
  net.setEntries plan.values

/-- The events of building the network of a plan. -/
def networkEvents (plan : Plan) : List Event :=
  (Network.empty plan.settings).addEntriesEvents plan.equations ++
    match plan.network with
    | .ok net => net.unlinkedEvents
    | .error _ => []

/-- The names in a list that commas separate, without blanks around them. -/
def splitNames (list : String) : List String :=
  (((Text.pieces ',' list.toList).map Text.trim).filter (!·.isEmpty)).map String.ofList

/-- The names that an entry asks for. -/
def entryTargets (entry : Entry) : Except ProblemError (List String) :=
  if entry.1 = "targets" then .ok (splitNames entry.2)
  else .error (.invalidValue ⟨entry.1, entry.2⟩)

/-- The names that a plan asks for. -/
def targets (plan : Plan) : Except ProblemError (List String) :=
  (plan.unknowns.mapM entryTargets).map List.flatten

end Plan

/-! ## Problems -/

/-- A network and the names asked for; with none, all quantities without a number are. -/
structure Problem where
  network : Network
  targets : List String

namespace Problem

def settings (problem : Problem) : Settings := problem.network.settings

/-- The problem of a plan. -/
def ofPlan (plan : Plan) : Except ProblemError Problem := do
  let store ← plan.store
  let targets ← plan.targets
  return ⟨store.network, targets⟩

/-- The problem of a document. -/
def ofText (text : String) : Except ProblemError Problem := do ofPlan (← Plan.ofText text)

/-- The events of loading a document. -/
def loadEvents (text : String) : List Event :=
  match Plan.ofText text with
  | .ok plan => plan.networkEvents
  | .error _ => []

/-- The text that bytes stand for. -/
def decode (bytes : ByteArray) : Except ProblemError String :=
  match String.fromUTF8? bytes with
  | some text => .ok text
  | none => .error (.unreadable .notText)

/-- The names that a run answers, in order. -/
def asked (problem : Problem) : List String :=
  if problem.targets.isEmpty then problem.network.unknowns else problem.targets

/-- The answers of a problem, and the problem with the numbers found stored. -/
def run (problem : Problem) : Resolutions × Problem :=
  let resolutions := problem.network.resolveAll problem.asked
  (resolutions, { problem with network := problem.network.record resolutions })

/-- The events of a run. -/
def runEvents (problem : Problem) : List Event :=
  let resolutions := problem.run.1
  problem.network.resolveAllEvents problem.asked ++
    [.ran (resolutions.filter fun r => r.2.isResolved).length resolutions.length]

end Problem

end EquationNetwork
