import EquationNetwork.Decimal.Numeral
import EquationNetwork.Log.Severity

/-!
# Settings

The limits of the solver and what it tells about its work. A setting is changed by a key and a value
in text form; a value that does not fit its key changes nothing.
-/

namespace EquationNetwork

/-- The greatest limit that can be set: that of a machine word. -/
def greatestLimit : Nat := Nat.pow 2 64 - 1

structure Settings where
  /-- The moves allowed in solving an equation once. -/
  maxRewriteSteps : Nat
  /-- How deep the search for a quantity may go; quantities and equations on the way count. -/
  maxRecursionDepth : Nat
  /-- How deep an expression may be nested. -/
  maxNestingDepth : Nat
  /-- The least severity of the messages shown. -/
  threshold : Threshold
  /-- Are the messages written to a file, too? -/
  logToFile : Bool
deriving DecidableEq

/-- The nesting that is allowed where nothing else is set. -/
def defaultNestingDepth : Nat := 256

/-- The moves that are allowed where nothing else is set. -/
def defaultRewriteSteps : Nat := 20

/-- The settings before any is changed. The search needs no limit, since it visits each node at most
once. -/
def Settings.default : Settings where
  maxRewriteSteps := defaultRewriteSteps
  maxRecursionDepth := greatestLimit
  maxNestingDepth := defaultNestingDepth
  threshold := some .info
  logToFile := false

/-- A value that does not fit its key, or a key that is not known. -/
structure InvalidValue where
  key : String
  value : String
deriving DecidableEq

def InvalidValue.message (invalid : InvalidValue) : String :=
  s!"invalid value '{invalid.value}' for key '{invalid.key}'"

/-- The limit that a text stands for: digits after an optional plus sign, within a machine word. -/
def readLimit (cs : List Char) : Option Nat :=
  let digits :=
    match cs with
    | '+' :: rest => rest
    | cs => cs
  let n := Decimal.digitsValue digits
  if Decimal.isDigits digits && n ≤ greatestLimit then some n else none

/-- The truth value that a word stands for. -/
def readSwitch : String → Option Bool
  | "true" => some true
  | "false" => some false
  | _ => none

namespace Settings

/-- The settings after one of them is changed, if the value fits. -/
def set? (settings : Settings) (key value : String) : Option Settings :=
  match key with
  | "max_rewrite_steps" =>
      (readLimit value.toList).map fun n => { settings with maxRewriteSteps := n }
  | "max_recursion_depth" =>
      (readLimit value.toList).map fun n => { settings with maxRecursionDepth := n }
  | "max_nesting_depth" =>
      (readLimit value.toList).map fun n => { settings with maxNestingDepth := n }
  | "loglevel" => (Threshold.ofWord? value).map fun t => { settings with threshold := t }
  | "log_to_file" => (readSwitch value).map fun b => { settings with logToFile := b }
  | _ => none

/-- The settings after one of them is changed. -/
def set (settings : Settings) (key value : String) : Except InvalidValue Settings :=
  match settings.set? key value with
  | some changed => .ok changed
  | none => .error ⟨key, value⟩

/-- The settings after several changes, made in order. -/
def setAll (settings : Settings) (changes : List (String × String)) :
    Except InvalidValue Settings :=
  changes.foldlM (fun settings change => settings.set change.1 change.2) settings

end Settings

end EquationNetwork
