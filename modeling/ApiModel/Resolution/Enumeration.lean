import ApiModel.Text.Naming
import ApiModel.Resolution.Route
import ApiModel.Resolution.State

/-! # Enumerations

A string enumeration becomes an enum. Each value gets a symbol of its own: the proper-cased value,
else the value itself, else the value with a number from two up, whichever is the first that no
earlier value uses.
-/

namespace ApiModel.Resolution

namespace Enumeration

/-- Symbols to try for a value after the proper-cased one. One more than the symbols in use is
always enough. -/
def fallbacks (wire : String) (used : Nat) : List String :=
  wire :: (List.range (used + 1)).map fun k => wire ++ toString (k + 2)

def symbolFor (used : List String) (wire : String) : String :=
  let proper := Naming.properCase wire
  let candidates := if proper.isEmpty then [] else [proper]
  ((candidates ++ fallbacks wire used.length).find? fun s => !used.contains s).getD wire

def addValue (values : List EnumValue) (wire : String) : List EnumValue :=
  values ++ [⟨symbolFor (values.map (·.symbol)) wire, wire⟩]

def valuesFrom (pointer : Pointer) (values : List EnumValue) :
    List Json → Except SchemaFault (List EnumValue)
  | [] => .ok values
  | .str wire :: rest =>
    if values.any (·.wire == wire) then .error (.enumValueRepeated wire pointer)
    else valuesFrom pointer (addValue values wire) rest
  | value :: _ => .error (.enumValueNotText value pointer)

/-- The name that an enum extension gives: its text, or its member `name`. -/
def nameOf : Json → String
  | .str name => name
  | .obj members =>
    match Fields.get? members "name" with
    | some (.str name) => name
    | _ => ""
  | _ => ""

end Enumeration

open Enumeration

def addAnonymousEnum (e : EnumType) : Step EnumId :=
  modifyGet fun s =>
    let (id, catalog) := s.catalog.addAnonymousEnum e
    (id, { s with catalog := catalog })

def internEnum (e : EnumType) : Step (Option EnumId) := fun s =>
  match s.catalog.internEnum e with
  | .ok (interned, catalog) => (some interned.id, { s with catalog := catalog })
  | .error c => fail (.enumConflict c.name c.existingOrigin c.conflictingOrigin) s

def buildEnum (settings : Settings) (site : Site) (listed : List Json) :
    Step (Option ModelType) := do
  match valuesFrom site.pointer [] listed with
  | .error fault => fail (.schema site.owner fault)
  | .ok values =>
    let origin := site.pointer.text
    match site.schema.extension? settings.enumExtension with
    | none =>
      let id ← addAnonymousEnum ⟨none, values, true, origin⟩
      return some (.enum id)
    | some extension =>
      let name := nameOf extension
      if Text.isBlankText name then
        fail (.schema site.owner (.enumWithoutName settings.enumExtension site.pointer))
      else
        let id ← internEnum ⟨some name, values, false, origin⟩
        return id.map .enum

end ApiModel.Resolution
