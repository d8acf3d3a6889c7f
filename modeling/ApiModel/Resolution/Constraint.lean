import ApiModel.Resolution.State

/-! # Constraints of a declaration

The facets of a schema become constraints. A pattern that is no regular expression is a defect.
-/

namespace ApiModel.Resolution

def constraintsOf (grammars : Grammars) (facets : Facets) (pointer : Pointer) :
    Except SchemaFault Constraints :=
  match facets.pattern with
  | some pattern =>
    if grammars.isPattern pattern then .ok (.ofFacets facets)
    else .error (.invalidPattern pattern pointer)
  | none => .ok (.ofFacets facets)

def constraints (grammars : Grammars) (facets : Facets) (pointer : Pointer) (owner : String) :
    Step (Option Constraints) :=
  match constraintsOf grammars facets pointer with
  | .ok c => return some c
  | .error fault => fail (.schema owner fault)

end ApiModel.Resolution
