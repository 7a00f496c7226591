import Flowchart.Config
import Flowchart.Fault
import Flowchart.Strand

/-!
Engines: a chart with the handlers its nodes invoke, the source that answers changes of facts, and
the limits of a run. Handlers and sources may keep state of their own, the host state.
-/
namespace Flowchart

/-- What a handler left behind: facts and host state stay changed even when it failed. -/
structure Reaction (σ : Type) where
  facts : Facts
  host : σ
  failure : Option ActionFailure

/-- `perform` runs when a node that invokes the handler joins a strand, `revert` when it leaves. -/
structure Handler (σ : Type) where
  perform : Node → Facts → σ → Reaction σ
  revert : Node → Facts → σ → Reaction σ

abbrev Handlers (σ : Type) := Listing String (Handler σ)

/-- A request to support a node from outside, or on behalf of a composed node. -/
inductive Indication where
  | start (node : NodeRef) (basis : Basis)
  | subflow (composed node : NodeRef) (basis : Basis)

/-- Answers the change of one fact with indications. -/
abbrev IndicationSource (σ : Type) := Chart → Facts → Activation → String → σ → List Indication × σ

namespace IndicationSource

variable {σ : Type}

/-- Flows are started by the host alone. -/
def silent : IndicationSource σ := fun _ _ _ _ host => ([], host)

/-- The indication of a trigger whose condition holds, unless its start node has it already. -/
def indicate? (chart : Chart) (facts : Facts) (table : Activation) (ref : TriggerRef) :
    Option Indication := do
  let trigger ← chart.trigger? ref
  if trigger.condition.holds facts && !table.holdsTrigger trigger.start ref then
    some (.start trigger.start (.external (some ref) trigger.condition))
  else none

/-- The triggers of the chart that read the fact. -/
def triggers : IndicationSource σ := fun chart facts table fact host =>
  ((chart.triggersReading fact).filterMap (indicate? chart facts table), host)

end IndicationSource

structure Engine (σ : Type) where
  chart : Chart
  handlers : Handlers σ
  source : IndicationSource σ
  config : Config

/-- An engine that runs the triggers of its chart under the standard limits. -/
def Engine.standard {σ : Type} (chart : Chart) : Engine σ := ⟨chart, ∅, .triggers, .standard⟩

/-- The start node of that name, or the fault of asking for it. -/
def Engine.findStart {σ : Type} (engine : Engine σ) (flow start : String) :
    Except Fault NodeRef :=
  if (engine.chart.findFlow flow).isNone then .error (.unknownFlow flow)
  else
    match engine.chart.findStart flow start with
    | some ref => .ok ref
    | none => .error (.unknownStart flow start)

end Flowchart
