import Flowchart.Declaration.Flaw
import Flowchart.Chart

/-!
What can go wrong in an operation of an engine, and how it is worded.
-/
namespace Flowchart

/-- Why a handler did not do its work. -/
inductive ActionFailure where
  | failed (reason : String)
  | rejected (node reason : String)
  deriving DecidableEq, Repr

def ActionFailure.message : ActionFailure → String
  | .failed reason => reason
  | .rejected node reason => s!"node '{node}' rejected the current facts: {reason}"

/-- The loops whose length a configuration can limit. -/
inductive Loop where
  | rounds
  | flowSteps
  deriving DecidableEq, Repr

def Loop.name : Loop → String
  | .rounds => "propagation rounds"
  | .flowSteps => "flow steps"

/-- `unfinished` says that a loop without a limit was cut off. -/
inductive Fault where
  | invalid (flaw : Flaw)
  | action (label : String) (failure : ActionFailure)
  | unknownNode (node : NodeRef)
  | unknownFlow (flow : String)
  | unknownStart (flow start : String)
  | unknownAction (handler : String)
  | notAnOrigin (label : String)
  | notComposed (label : String)
  | limit (loop : Loop) (bound : UInt64)
  | unfinished (loop : Loop)
  deriving DecidableEq, Repr

def Fault.message : Fault → String
  | .invalid flaw => s!"invalid flow definitions: {flaw.message}"
  | .action label failure => s!"action of node '{label}' failed: {failure.message}"
  | .unknownNode node => s!"{node} is not part of this flow set"
  | .unknownFlow flow => s!"flow '{flow}' not found"
  | .unknownStart flow start => s!"flow '{flow}' has no start node '{start}'"
  | .unknownAction handler => s!"no action registered under '{handler}'"
  | .notAnOrigin label => s!"node '{label}' cannot anchor a path"
  | .notComposed label => s!"node '{label}' is not a composed node"
  | .limit loop bound => s!"{loop.name} exceeded the limit of {bound.toNat}"
  | .unfinished loop => s!"{loop.name} did not come to an end"

end Flowchart
