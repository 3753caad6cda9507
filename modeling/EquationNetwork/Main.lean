import EquationNetwork.Command

/-!
# The program

`main [problem file] [results file]` loads the problem, or the one that is built in, shows what
there is to show and writes the answers to the results file, if one is named. It fails if the
problem cannot be loaded or the answers cannot be written.
-/

open EquationNetwork

/-- Prints lines, each where it is shown. -/
def printLines (lines : List Line) : IO Unit :=
  lines.forM fun line =>
    match line.outlet with
    | .output => IO.println line.text
    | .error => IO.eprintln line.text

/-- The words for an error of the file system. -/
def faultText : IO.Error → String
  | .noFileOrDirectory .. => Unreadable.missing.message
  | error => toString error

/-- The text of a file. -/
def loadText (path : String) : IO (Except ProblemError String) := do
  try
    return Problem.decode (← IO.FS.readBinFile path)
  catch error => return .error (.unreadable (.other (faultText error)))

/-- Writes a file, and says what prevented it, if anything did. -/
def saveText (path text : String) : IO (Option String) := do
  try
    IO.FS.writeFile path text
    return none
  catch error => return some (faultText error)

/-- Writes the log of events to a file of its own, if the settings want one. -/
def keepLog (settings : Settings) (events : List Event) : IO Unit := do
  if Command.keepsLog settings then
    let fault ← saveText s!"log_{← IO.monoMsNow}.txt" (Command.logText settings events)
    if let some reason := fault then IO.eprintln s!"log file not created: {reason}"

/-- Runs a problem and gives the exit code. -/
def runProblem (source : String) (problem : Problem) (results : Option String) : IO UInt32 := do
  let (lines, resolutions) := Command.answer source problem
  let events := Command.answerEvents source problem
  printLines lines
  match results with
  | none =>
      keepLog problem.settings events
      return 0
  | some path =>
      let fault ← saveText path (Report.resolutionFile resolutions)
      printLines (Command.afterSaving problem.settings path fault)
      keepLog problem.settings (events ++ [Command.savingEvent path fault])
      return if fault.isSome then 1 else 0

def main (args : List String) : IO UInt32 := do
  let text ←
    match args.head? with
    | some path => loadText path
    | none => pure (.ok Command.demo)
  match text >>= Problem.ofText with
  | .error error =>
      printLines (Command.refuse error)
      return 1
  | .ok problem => runProblem (args.head?.getD Command.demoName) problem args[1]?
