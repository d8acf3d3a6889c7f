import ApiModel.Host
import ApiModel.Settings.Reader
import ApiModel.Text.Quoted

/-! # Settings files

The extension of a file's name tells the format of the settings in it. Settings are checked when
they are read.
-/

namespace ApiModel.Settings

inductive FileFormat where
  | toml
  | yaml
  deriving DecidableEq, Repr

inductive Fault where
  | file (reason : FileFault)
  | malformed (format : FileFormat)
  | badExtension (reason : BadExtension)
  | unknownFormat (extension path : String)
  deriving DecidableEq, Repr

def Fault.message : Fault → String
  | file reason => "I/O error: " ++ reason.message
  | malformed .toml => "TOML parsing error"
  | malformed .yaml => "YAML parsing error"
  | badExtension reason => "Configuration error: " ++ reason.message
  | unknownFormat extension path =>
    let quoted := Text.quoted extension
    s!"Configuration error: Unsupported configuration format {quoted} for {path}"

def parse (format : FileFormat) (text : String) : Except Fault Settings := do
  let settings? := match format with
    | .toml => ofToml? text
    | .yaml => ofYaml? text
  match settings? with
  | some settings => settings.check.mapError .badExtension
  | none => throw (.malformed format)

/-- What follows the last dot in the last name of a path; a dot at its beginning does not count. -/
def extension (path : String) : String :=
  match ((path.splitOn "/").filter fun name => !name.isEmpty && name ≠ ".").getLast? with
  | none | some ".." => ""
  | some name =>
    match name.splitOn "." with
    | [] | [_] | ["", _] => ""
    | parts => parts.getLastD ""

def ofFile (path text : String) : Except Fault Settings :=
  match extension path with
  | "toml" => parse .toml text
  | "yaml" | "yml" => parse .yaml text
  | other => throw (.unknownFormat other path)

def load {m : Type → Type} [Monad m] (host : Host m) (path : String) : m (Except Fault Settings) := do
  match ← host.readFile path with
  | .error reason => return .error (.file reason)
  | .ok text => return ofFile path text

end ApiModel.Settings
