/-!
# Severities

Every message has a severity, and a reader sets a threshold for the messages wanted.
-/

namespace EquationNetwork

/-- How much a message matters. -/
inductive Severity where
  | error
  | warn
  | info
  | debug
deriving DecidableEq, Repr

/-- The word for a severity. -/
def Severity.label : Severity → String
  | error => "ERROR"
  | warn => "WARN"
  | info => "INFO"
  | debug => "DEBUG"

/-- How many severities matter at least as much. -/
def Severity.rank : Severity → Nat
  | error => 1
  | warn => 2
  | info => 3
  | debug => 4

/-- The least severity that is wanted; with none, no message is. -/
abbrev Threshold := Option Severity

namespace Threshold

/-- Is a message of this severity wanted? -/
def admits (threshold : Threshold) (severity : Severity) : Bool :=
  match threshold with
  | none => false
  | some least => severity.rank ≤ least.rank

/-- The word for a threshold. -/
def label : Threshold → String
  | none => "OFF"
  | some severity => severity.label

/-- The threshold that a word stands for, in any case of its letters. -/
def ofWord? (word : String) : Option Threshold :=
  match String.ofList (word.toList.map Char.toLower) with
  | "debug" => some (some .debug)
  | "info" => some (some .info)
  | "warn" => some (some .warn)
  | "error" => some (some .error)
  | "off" | "none" => some none
  | _ => none

end Threshold

end EquationNetwork
