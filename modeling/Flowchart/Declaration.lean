import Flowchart.Condition

/-!
Declarations: flows of named nodes and edges, and the triggers that start them, as they are written
down. Nodes are referred to by name; nothing is checked here.
-/
namespace Flowchart

/-- What an action node does while it is active. -/
inductive Action where
  | noop
  | assign (fact : String) (value : Value)
  | invoke (handler : String)
  deriving DecidableEq, Repr

/-- A composed node runs the flow named by it, from the start node named by it. -/
inductive KindDecl where
  | start
  | action (action : Action)
  | composed (flow start : String)
  | snapshot
  deriving DecidableEq, Repr

structure NodeDecl where
  name : String
  kind : KindDecl
  deriving DecidableEq, Repr

/-- An edge without a condition is always open. -/
structure EdgeDecl where
  source : String
  target : String
  condition : Option Condition

structure FlowDecl where
  name : String
  autostart : Bool
  nodes : List NodeDecl
  edges : List EdgeDecl

/-- Starts `flow` at `start` while the condition holds. -/
structure TriggerDecl where
  name : String
  flow : String
  start : String
  condition : Condition

structure ChartDecl where
  flows : List FlowDecl
  triggers : List TriggerDecl

namespace FlowDecl

/-- A flow under construction has no nodes and does not start by itself. -/
def named (name : String) : FlowDecl := ⟨name, false, [], []⟩

def autostarting (flow : FlowDecl) : FlowDecl := { flow with autostart := true }

def addNode (flow : FlowDecl) (name : String) (kind : KindDecl) : FlowDecl :=
  { flow with nodes := flow.nodes ++ [⟨name, kind⟩] }

def addStart (flow : FlowDecl) (name : String) : FlowDecl := flow.addNode name .start

def addSnapshot (flow : FlowDecl) (name : String) : FlowDecl := flow.addNode name .snapshot

def addAction (flow : FlowDecl) (name : String) (action : Action) : FlowDecl :=
  flow.addNode name (.action action)

def addComposed (flow : FlowDecl) (name called start : String) : FlowDecl :=
  flow.addNode name (.composed called start)

def addEdge (flow : FlowDecl) (source target : String) (condition : Option Condition) : FlowDecl :=
  { flow with edges := flow.edges ++ [⟨source, target, condition⟩] }

/-- The names of the start nodes in declaration order. -/
def starts (flow : FlowDecl) : List String :=
  (flow.nodes.filter fun node => node.kind == .start).map NodeDecl.name

end FlowDecl

end Flowchart
