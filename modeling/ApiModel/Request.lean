import ApiModel.Grammars
import ApiModel.Loading
import ApiModel.Model.Summary
import ApiModel.Resolution.Build
import ApiModel.Text.Letter

/-! # Build requests

A whole run: the document is loaded from its source and resolved to a model. Nothing is read from
outside once the document is there.
-/

namespace ApiModel

structure BuildRequest where
  source : String
  settings : Settings := {}
  deriving Repr

/-- A finished model, and the summary of it that is reported. -/
structure BuildReport where
  model : ClientModel
  summary : Summary

namespace BuildRequest

inductive Failure where
  | emptySource
  | loading (reason : Loading.Fault)
  | build (reason : Build.Failure)

def Failure.message : Failure → String
  | emptySource => "Validation error: Document source cannot be empty"
  | loading reason => "Failed to load document: " ++ reason.message
  | build (.defects found) => Defect.report found
  | build .unfinished => "resolution did not finish"

structure Outcome where
  result : Except Failure BuildReport
  log : List LogEntry

def isBlank (r : BuildRequest) : Bool := r.source.toList.all Text.isBlank

private def info (message : String) : LogEntry := ⟨.info, message⟩

def resolve (r : BuildRequest) (document : Document) : Outcome :=
  let built := Build.run ⟨document, r.settings⟩
  match built.result with
  | .error reason => ⟨.error (.build reason), document.log ++ built.log⟩
  | .ok model =>
    let summary := Summary.ofModel model
    ⟨.ok ⟨model, summary⟩,
      document.log ++ built.log ++ [info ("Built client model " ++ summary.text)]⟩

def run {m : Type → Type} [Monad m] (host : Host m) (r : BuildRequest) : m Outcome := do
  if r.isBlank then return ⟨.error .emptySource, []⟩
  else
    let start := info ("Loading Swagger document from " ++ r.source)
    match ← Loading.load host r.source with
    | .error reason => return ⟨.error (.loading reason), [start]⟩
    | .ok document =>
      let outcome := r.resolve document
      return { outcome with log := start :: outcome.log }

end BuildRequest

end ApiModel
