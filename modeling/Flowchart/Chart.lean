import Flowchart.Declaration
import Flowchart.Roster

/-!
Charts: declarations whose names have been replaced by references. Nodes, edges and triggers are
numbered from 0 over the whole chart, in declaration order.
-/
namespace Flowchart

structure FlowRef where
  index : Nat
  deriving DecidableEq, Repr

structure NodeRef where
  index : Nat
  deriving DecidableEq, Repr

structure EdgeRef where
  index : Nat
  deriving DecidableEq, Repr

structure TriggerRef where
  index : Nat
  deriving DecidableEq, Repr

instance : ToString FlowRef := ⟨fun ref => s!"flow#{ref.index}"⟩

instance : ToString NodeRef := ⟨fun ref => s!"node#{ref.index}"⟩

instance : ToString EdgeRef := ⟨fun ref => s!"edge#{ref.index}"⟩

instance : ToString TriggerRef := ⟨fun ref => s!"trigger#{ref.index}"⟩

inductive NodeKind where
  | start
  | action (action : Action)
  | composed (called : NodeRef)
  | snapshot
  deriving DecidableEq, Repr

namespace NodeKind

/-- Strands begin at start nodes and at snapshots. -/
def isOrigin : NodeKind → Bool
  | .start => true
  | .snapshot => true
  | _ => false

def isComposed : NodeKind → Bool
  | .composed _ => true
  | _ => false

end NodeKind

structure Node where
  flow : FlowRef
  name : String
  kind : NodeKind
  outgoing : List EdgeRef
  incoming : List EdgeRef
  deriving DecidableEq, Repr

structure Edge where
  source : NodeRef
  target : NodeRef
  condition : Option Condition

structure Flow where
  name : String
  autostart : Bool
  nodes : List NodeRef
  edges : List EdgeRef
  deriving DecidableEq, Repr

structure Trigger where
  name : String
  start : NodeRef
  condition : Condition

/-- `readers` lists under each fact the triggers whose condition reads it. -/
structure Chart where
  flows : List Flow
  nodes : List Node
  edges : List Edge
  triggers : List Trigger
  readers : Listing String (List TriggerRef)

namespace Chart

/-- A chart without flows, which does nothing. -/
def empty : Chart := ⟨[], [], [], [], ∅⟩

def isEmpty (chart : Chart) : Bool := chart.flows.isEmpty

def flow? (chart : Chart) (ref : FlowRef) : Option Flow := chart.flows[ref.index]?

def node? (chart : Chart) (ref : NodeRef) : Option Node := chart.nodes[ref.index]?

def edge? (chart : Chart) (ref : EdgeRef) : Option Edge := chart.edges[ref.index]?

def trigger? (chart : Chart) (ref : TriggerRef) : Option Trigger := chart.triggers[ref.index]?

def kind? (chart : Chart) (ref : NodeRef) : Option NodeKind := (chart.node? ref).map Node.kind

def flowRefs (chart : Chart) : List FlowRef := (List.range chart.flows.length).map FlowRef.mk

def nodeRefs (chart : Chart) : List NodeRef := (List.range chart.nodes.length).map NodeRef.mk

def edgeRefs (chart : Chart) : List EdgeRef := (List.range chart.edges.length).map EdgeRef.mk

def triggerRefs (chart : Chart) : List TriggerRef :=
  (List.range chart.triggers.length).map TriggerRef.mk

def outgoing (chart : Chart) (ref : NodeRef) : List EdgeRef :=
  ((chart.node? ref).map Node.outgoing).getD []

def findFlow (chart : Chart) (name : String) : Option FlowRef :=
  (chart.flows.findIdx? fun flow => flow.name = name).map FlowRef.mk

/-- The node of that name in the flow of that name. -/
def findNode (chart : Chart) (flow node : String) : Option NodeRef := do
  let owner ← chart.findFlow flow
  let index ← chart.nodes.findIdx? fun candidate =>
    candidate.flow = owner && candidate.name = node
  return ⟨index⟩

def isStart (chart : Chart) (ref : NodeRef) : Bool := chart.kind? ref == some .start

def findStart (chart : Chart) (flow node : String) : Option NodeRef :=
  (chart.findNode flow node).filter chart.isStart

/-- The start nodes of a flow in declaration order. -/
def startsOf (chart : Chart) (flow : Flow) : List NodeRef := flow.nodes.filter chart.isStart

/-- The start nodes of every flow that starts by itself. -/
def autostarts (chart : Chart) : List NodeRef :=
  (chart.flows.filter Flow.autostart).flatMap chart.startsOf

def triggersReading (chart : Chart) (fact : String) : List TriggerRef :=
  (chart.readers.at? fact).getD []

/-- A node as messages name it: its flow and its own name. -/
def label (chart : Chart) (ref : NodeRef) : String :=
  match chart.node? ref with
  | some node =>
    let flow := ((chart.flow? node.flow).map Flow.name).getD ""
    s!"{flow}/{node.name}"
  | none => toString ref

end Chart

end Flowchart
