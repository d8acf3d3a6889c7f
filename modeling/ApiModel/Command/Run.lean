import ApiModel.Command.Arguments
import ApiModel.Model.Printer
import ApiModel.Request
import ApiModel.Settings.File

/-! # Running commands

A command ends with an exit code and with what it prints. Defects of the document are the result
of a run, whereas a document or settings that cannot be read are errors.
-/

namespace ApiModel

namespace Command

/-- How a command ended; `error` is the line about what kept it from its result. -/
structure Outcome where
  exitCode : Nat
  output : String := ""
  error : Option String := none
  log : List LogEntry := []

def success (output : String) : Outcome := { exitCode := 0, output }

def failure (output : String) : Outcome := { exitCode := 1, output }

def aborted (message : String) : Outcome := { exitCode := 1, error := some ("Error: " ++ message) }

def misused : Outcome := { exitCode := 2 }

def defectLines (found : List Defect) : String :=
  String.join (found.map fun d => d.message ++ "\n") ++ s!"{found.length} error(s)\n"

variable {m : Type → Type} [Monad m]

def settings (host : Host m) (c : Command) : m (Except Outcome Settings) := do
  match c.settingsFile with
  | none => return .ok {}
  | some path =>
    match ← Settings.load host path with
    | .ok settings => return .ok settings
    | .error _ => return .error (aborted ("Failed to load configuration from " ++ path))

def deliver (host : Host m) (output : Option String) (model : ClientModel) : m Outcome := do
  match output with
  | none => return success model.fileText
  | some path =>
    match ← host.writeFile path model.fileText with
    | .ok () => return success ""
    | .error _ => return aborted "Failed to write client model"

def conclude (host : Host m) (c : Command) (result : Except BuildRequest.Failure BuildReport) :
    m Outcome := do
  match c.action, result with
  | .resolve output, .ok report => deliver host output report.model
  | .check, .ok report => return success ("OK " ++ report.summary.text ++ "\n")
  | .resolve _, .error (.build _) => return failure ""
  | .check, .error (.build (.defects found)) => return failure (defectLines found)
  | .check, .error (.build .unfinished) => return failure ""
  | .resolve _, .error _ => return aborted ("Failed to build model from " ++ c.source)
  | .check, .error _ => return aborted ("Failed to check " ++ c.source)

def run (host : Host m) (c : Command) : m Outcome := do
  match ← settings host c with
  | .error outcome => return outcome
  | .ok settings =>
    let built ← BuildRequest.run host { source := c.source, settings }
    let outcome ← conclude host c built.result
    return { outcome with log := built.log }

def runLine (host : Host m) (arguments : List String) : m Outcome :=
  match ofArguments? false arguments with
  | none => pure misused
  | some command => run host command

end Command

end ApiModel
