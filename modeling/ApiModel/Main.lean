import ApiModel.Command.Run

/-! # The program

Runs a command line on the files of the machine. The log goes to the error stream, so that the
model on the output stream can be passed on.
-/

namespace ApiModel

namespace Program

def faultOf : IO.Error → FileFault
  | .noFileOrDirectory .. => .notFound
  | .inappropriateType .. => .isDirectory
  | e => .other (toString e)

def attempt {α : Type} (action : IO α) : IO (Except FileFault α) := do
  match ← action.toBaseIO with
  | .ok value => return .ok value
  | .error e => return .error (faultOf e)

def directoryOf (path : String) : Option String :=
  match (path.splitOn "/").dropLast with
  | [] => none
  | [""] => none
  | names => some ("/".intercalate names)

def write (path text : String) : IO Unit := do
  match directoryOf path with
  | some directory => IO.FS.createDirAll directory
  | none => pure ()
  IO.FS.writeFile path text

/-- The machine that the program runs on; it has no way to the web. -/
def host : Host IO where
  readFile path := attempt (IO.FS.readFile path)
  writeFile path text := attempt (write path text)
  fetch _ := return .error "no network"

def levelText : LogLevel → String
  | .info => " INFO "
  | .warning => " WARN "

def run (arguments : List String) : IO UInt32 := do
  let outcome ← Command.runLine host arguments
  for entry in outcome.log do
    IO.eprintln (levelText entry.level ++ entry.message)
  if outcome.exitCode = 2 then IO.eprint Command.usage
  if let some line := outcome.error then IO.eprintln line
  IO.print outcome.output
  return outcome.exitCode.toUInt32

end Program

end ApiModel

def main (arguments : List String) : IO UInt32 := ApiModel.Program.run arguments
