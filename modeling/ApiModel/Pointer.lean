/-! # Pointers

A pointer locates a node in a document by the member names and indices on the way to it. In its
text a tilde in a name becomes `~0` and a slash `~1`, so different pointers have different texts.
-/

namespace ApiModel

structure Pointer where
  segments : List String
  deriving DecidableEq, Repr

namespace Pointer

def child (p : Pointer) (name : String) : Pointer := ⟨p.segments ++ [name]⟩

def item (p : Pointer) (index : Nat) : Pointer := p.child (toString index)

def definition (name : String) : Pointer := ⟨["definitions", name]⟩

def path (name : String) : Pointer := ⟨["paths", name]⟩

def escapedChar (c : Char) : List Char :=
  if c = '~' then ['~', '0'] else if c = '/' then ['~', '1'] else [c]

def escaped (segment : String) : String :=
  String.ofList (segment.toList.flatMap escapedChar)

def text (p : Pointer) : String :=
  "#" ++ String.join (p.segments.map fun s => "/" ++ escaped s)

instance : ToString Pointer := ⟨text⟩

@[simp] theorem segments_child (p : Pointer) (name : String) :
    (p.child name).segments = p.segments ++ [name] := rfl

end Pointer

end ApiModel
