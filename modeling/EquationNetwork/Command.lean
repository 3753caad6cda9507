import EquationNetwork.Problem
import EquationNetwork.Report.Results

/-!
# The command line

The command loads a problem, runs it, shows the answers and the network as tables, and may save the
answers to a file. Events go with the tables, each with its severity in brackets, if the settings of
the problem want them. Nothing is told before a problem is loaded.

What the command shows is a list of `Line`s, so that only printing them is left to do.

* `Command.refuse` is what is shown when no problem can be loaded.
* `Command.answer` is what is shown for a problem, with its answers.
* `Command.afterSaving` is what is shown after the answers are saved, or after that failed.
-/

namespace EquationNetwork

/-- Where a line is shown. -/
inductive Outlet where
  | output
  | error
deriving DecidableEq

/-- A line that the command shows. -/
structure Line where
  outlet : Outlet
  text : String
deriving DecidableEq

namespace Command

/-- The name of the problem that is built in. -/
def demoName : String := "<isentropic compression demo>"

/-- The problem that is run when none is given: air is compressed without loss of entropy. -/
def demo : String :=
  String.intercalate "\n"
    ["# Isentropic compression of air from 100 kPa, 300 K to 800 kPa.",
     "# Units: kPa, m^3/kg, kJ/(kg K), K.",
     "equations",
     "isentropic: T2 / T1 = (P2 / P1) ^ ((k - 1) / k)",
     "state_1: P1 * v1 = R * T1",
     "state_2: P2 * v2 = R * T2",
     "volume_ratio: r = v1 / v2",
     "values",
     "P1: 100",
     "v1: 0.861",
     "R: 0.287",
     "P2: 800",
     "k: 1.4",
     "settings",
     "max_rewrite_steps: 20",
     "max_nesting_depth: 256",
     "loglevel: info",
     "unknowns",
     "targets: T1, T2, v2, r",
     ""]

/-- The line of an event. Errors are shown apart from all else. -/
def eventLine (event : Event) : Line :=
  ⟨if event.severity = .error then .error else .output,
    s!"[{event.severity.label}] {event.message}"⟩

/-- The lines of the events that are wanted. -/
def eventLines (threshold : Threshold) (events : List Event) : List Line :=
  (threshold.select events).map eventLine

/-- What is shown when no problem can be loaded. -/
def refuse (error : ProblemError) : List Line := [⟨.error, error.message⟩]

/-- Is the log written to a file? -/
def keepsLog (settings : Settings) : Bool := settings.logToFile && settings.threshold.isSome

/-- A drawing as lines of the output. -/
def tableLines (drawing : String) : List Line :=
  (Text.pieces '\n' drawing.toList).map fun line => ⟨.output, String.ofList line⟩

/-- The events of answering a problem. -/
def answerEvents (source : String) (problem : Problem) : List Event :=
  .loaded source problem.network.equationNames.length :: problem.runEvents

/-- The log of events, one line each, as far as they are wanted. -/
def logText (settings : Settings) (events : List Event) : String :=
  String.join ((eventLines settings.threshold events).map fun line => line.text ++ "\n")

/-- What is shown for a problem, and its answers. -/
def answer (source : String) (problem : Problem) : List Line × Resolutions :=
  let (resolutions, after) := problem.run
  (eventLines problem.settings.threshold (answerEvents source problem) ++
      tableLines (Report.resolutionTable resolutions) ++
      tableLines (Report.networkTable after.network),
    resolutions)

/-- The event of saving the answers; `fault` says why that failed, if it did. -/
def savingEvent (path : String) (fault : Option String) : Event :=
  match fault with
  | none => .saved path
  | some reason => .notSaved path reason

/-- What is shown after saving. -/
def afterSaving (settings : Settings) (path : String) (fault : Option String) : List Line :=
  eventLines settings.threshold [savingEvent path fault]

end Command

end EquationNetwork
