import ApiModel.Log
import ApiModel.Settings.Basic
import ApiModel.Model.Catalog
import ApiModel.Resolution.Defect

/-! # Resolution state

What a resolution run remembers: the catalog under construction, the types of the definitions
resolved so far, the definitions that failed, the stack of what is being resolved, and the defects
found. A defect never stops a run; the branch it concerns yields no type and the rest goes on.
-/

namespace ApiModel.Resolution

/-- What is being resolved: a definition that is no object type, or the members of a composite. -/
inductive Frame where
  | definition (key : String)
  | composite
  deriving DecidableEq, Repr

structure State where
  catalog : Catalog := {}
  /-- Types of resolved definitions by case key. -/
  resolved : List (String × ModelType) := []
  /-- Case keys of definitions that have no type. -/
  failed : List String := []
  /-- The definition that first claimed each case key. -/
  claimed : List (String × String) := []
  /-- The innermost frame comes first. -/
  frames : List Frame := []
  defects : List Defect := []
  log : List LogEntry := []

/-- The grammars of texts that a document only carries. -/
class Grammars where
  isPattern : String → Bool
  /-- What is wrong with a text as a URL. -/
  urlFault? : String → Option String

structure Context where
  document : Document
  settings : Settings
  [grammars : Grammars]

abbrev Step := StateM State

/-- A part of a run. It has no result when its fuel runs out. -/
abbrev Run := StateT State Option

instance : MonadLift Step Run := ⟨fun step s => some (step s)⟩

def report (d : Defect) : Step Unit :=
  modify fun s => { s with defects := s.defects ++ [d] }

def fail {α : Type} (d : Defect) : Step (Option α) := do
  report d
  return none

def warn (message : String) : Step Unit :=
  modify fun s => { s with log := s.log ++ [⟨.warning, message⟩] }

def push (f : Frame) : Step Unit := modify fun s => { s with frames := f :: s.frames }

def pop : Step Unit := modify fun s => { s with frames := s.frames.tail }

def remember (key : String) (type : ModelType) : Step Unit :=
  modify fun s => { s with resolved := Fields.set s.resolved key type }

def markFailed (key : String) : Step Unit :=
  modify fun s => { s with failed := key :: s.failed }

def claim (key name : String) : Step Unit :=
  modify fun s => { s with claimed := Fields.set s.claimed key name }

end ApiModel.Resolution
