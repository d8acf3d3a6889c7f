import ApiModel.Fields
import ApiModel.Settings.Basic
import ApiModel.Toml.Reader
import ApiModel.Yaml.CoreSchema

/-! # Reading settings

Settings are read from the fields of a TOML or YAML document. Every field is optional, none may
occur twice, and no other fields are known.
-/

namespace ApiModel.Settings

/-- How a format writes the kinds of values that settings have. -/
structure Format (α : Type) where
  text? : α → Option String
  optionalText? : α → Option (Option String)
  flag? : α → Option Bool
  texts? : α → Option (List String)

def set? {α : Type} (f : Format α) (s : Settings) (field : String × α) : Option Settings :=
  match field.1 with
  | "client_name" => (f.optionalText? field.2).map fun v => { s with clientName := v }
  | "enum_extension" => (f.text? field.2).map fun v => { s with enumExtension := v }
  | "discriminator_value_extension" =>
    (f.text? field.2).map fun v => { s with discriminatorValueExtension := v }
  | "allow_unknown_formats" => (f.flag? field.2).map fun v => { s with allowUnknownFormats := v }
  | "include_operations" => (f.texts? field.2).map fun v => { s with includeOperations := v }
  | "exclude_operations" => (f.texts? field.2).map fun v => { s with excludeOperations := v }
  | _ => none

/-- The default settings with some fields set, each at most once. -/
def ofFields? {α : Type} (f : Format α) (fields : List (String × α)) : Option Settings :=
  if (Fields.keys fields).Nodup then fields.foldlM (set? f) {} else none

def toml : Format Toml.Value where
  text?
    | .text s => some s
    | _ => none
  optionalText?
    | .text s => some (some s)
    | _ => none
  flag?
    | .flag b => some b
    | _ => none
  texts?
    | .texts items => some items
    | _ => none

def ofToml? (text : String) : Option Settings :=
  (Toml.parse? text).bind (ofFields? toml)

/-- Whether nothing is written; that stands for an empty collection. -/
def isBlank : Yaml.Value → Bool
  | .scalar s => s.text.isEmpty && s.style = .plain
  | _ => false

/-- A text of its own or the absence of one. Plain scalars spell absence as null. -/
def optionalText? : Yaml.Value → Option (Option String)
  | .scalar s =>
    if s.style ≠ .plain then some (some s.text)
    else if s.tag = some (Yaml.coreTag "null") then
      if Yaml.isNull s.text then some none else none
    else if s.tag.isNone && (s.text.isEmpty || Yaml.isNull s.text) then some none
    else some (some s.text)
  | _ => none

/-- A plain flag, or a literal block that is tagged as one. -/
def flag? : Yaml.Value → Option Bool
  | .scalar s =>
    if s.style = .plain || (s.style = .literal && s.tag = some (Yaml.coreTag "bool")) then
      Yaml.flag? s.text
    else none
  | _ => none

def texts? : Yaml.Value → Option (List String)
  | .sequence _ items => items.mapM Yaml.Value.text?
  | value => if isBlank value then some [] else none

def yaml : Format Yaml.Value where
  text? := Yaml.Value.text?
  optionalText? := optionalText?
  flag? := flag?
  texts? := texts?

def field? (member : Yaml.Value × Yaml.Value) : Option (String × Yaml.Value) :=
  member.1.text?.map fun key => (key, member.2)

def ofYaml? (text : String) : Option Settings :=
  (Yaml.Value.parse? text).bind fun value =>
    match value with
    | .mapping _ members => (members.mapM field?).bind (ofFields? yaml)
    | value => if isBlank value then some {} else none

end ApiModel.Settings
