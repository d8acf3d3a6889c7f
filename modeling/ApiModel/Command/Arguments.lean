/-! # Command lines

A command line names an action and a document, and may name a settings file and, for a model that
is written out, an output file. Options may stand anywhere, but each of them only once; after two
dashes nothing is an option any more.
-/

namespace ApiModel

/-- What to do with the model: write it out, or only tell whether there is one. -/
inductive Action where
  | resolve (output : Option String)
  | check
  deriving DecidableEq, Repr

structure Command where
  action : Action
  source : String
  settingsFile : Option String
  verbose : Bool
  deriving DecidableEq, Repr

namespace Command

structure Given where
  source : Option String := none
  settingsFile : Option String := none
  output : Option String := none
  verbose : Bool := false

namespace Given

def addSource? (g : Given) (source : String) : Option Given :=
  if g.source.isSome then none else some { g with source := some source }

def addSettings? (g : Given) (path : String) : Option Given :=
  if g.settingsFile.isSome || path.isEmpty then none else some { g with settingsFile := some path }

def addOutput? (g : Given) (path : String) : Option Given :=
  if g.output.isSome || path.isEmpty then none else some { g with output := some path }

def addVerbose? (g : Given) : Option Given :=
  if g.verbose then none else some { g with verbose := true }

end Given

/-- Whether an argument is an option; a single dash is none. -/
def isOption (argument : String) : Bool := argument.startsWith "-" && argument ≠ "-"

def isVerbose (argument : String) : Bool := argument = "-v" || argument = "--verbose"

def attached? (option argument : String) : Option String :=
  let start := (option ++ "=").toList
  if start.isPrefixOf argument.toList then some (String.ofList (argument.toList.drop start.length))
  else none

/-- Reads the arguments of an action; only some actions have an output. -/
def readArguments? (hasOutput : Bool) (g : Given) : List String → Option Given
  | [] => some g
  | argument :: rest =>
    if argument = "--" then rest.foldlM Given.addSource? g
    else if argument = "--config" || (hasOutput && argument = "--output") then
      match rest with
      | [] => none
      | value :: rest =>
        if isOption value then none
        else
          (if argument = "--config" then g.addSettings? value else g.addOutput? value).bind
            fun g => readArguments? hasOutput g rest
    else if isVerbose argument then g.addVerbose?.bind fun g => readArguments? hasOutput g rest
    else
      match attached? "--config" argument, attached? "--output" argument with
      | some value, _ => (g.addSettings? value).bind fun g => readArguments? hasOutput g rest
      | none, some value =>
        if hasOutput then (g.addOutput? value).bind fun g => readArguments? hasOutput g rest
        else none
      | none, none =>
        if isOption argument then none
        else (g.addSource? argument).bind fun g => readArguments? hasOutput g rest

def ofGiven? (verbose isCheck : Bool) (g : Given) : Option Command :=
  g.source.map fun source =>
    { action := if isCheck then .check else .resolve g.output
      source
      settingsFile := g.settingsFile
      verbose := verbose || g.verbose }

/-- Reads a command line; `verbose` tells whether the option came before the action. -/
def ofArguments? (verbose : Bool) : List String → Option Command
  | "resolve" :: rest => (readArguments? true {} rest).bind (ofGiven? verbose false)
  | "check" :: rest => (readArguments? false {} rest).bind (ofGiven? verbose true)
  | argument :: rest =>
    if isVerbose argument && !verbose then ofArguments? true rest else none
  | [] => none

def usage : String :=
  "Usage: swagger-modeler [--verbose] resolve <source> [--config <file>] [--output <file>]\n" ++
  "       swagger-modeler [--verbose] check <source> [--config <file>]\n"

end Command

end ApiModel
