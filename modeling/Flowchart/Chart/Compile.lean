import Flowchart.Chart
import Flowchart.Declaration.Flaw

/-!
Compilation of declarations into a chart. The flows are laid out one after the other; names are then
looked up in that layout.
-/
namespace Flowchart

/-- A flow with the numbers of its first node and first edge in the chart. -/
structure Placement where
  flow : FlowDecl
  ref : FlowRef
  firstNode : Nat
  firstEdge : Nat

namespace Placement

def nodeRefs (p : Placement) : List NodeRef :=
  (List.range' p.firstNode p.flow.nodes.length).map NodeRef.mk

def edgeRefs (p : Placement) : List EdgeRef :=
  (List.range' p.firstEdge p.flow.edges.length).map EdgeRef.mk

def node? (p : Placement) (name : String) : Option NodeRef :=
  (p.flow.nodes.findIdx? fun node => node.name = name).map fun i => ⟨p.firstNode + i⟩

def endpoint (p : Placement) (name : String) : Except Flaw NodeRef :=
  match p.node? name with
  | some ref => .ok ref
  | none => .error (.unknownEndpoint p.flow.name name)

def edge (p : Placement) (decl : EdgeDecl) : Except Flaw Edge := do
  let source ← p.endpoint decl.source
  let target ← p.endpoint decl.target
  return ⟨source, target, decl.condition⟩

def toFlow (p : Placement) : Flow := ⟨p.flow.name, p.flow.autostart, p.nodeRefs, p.edgeRefs⟩

/-- Lays out flows one after the other, from the given numbers on. -/
def layout (flow node edge : Nat) : List FlowDecl → List Placement
  | [] => []
  | decl :: rest =>
    ⟨decl, ⟨flow⟩, node, edge⟩
      :: layout (flow + 1) (node + decl.nodes.length) (edge + decl.edges.length) rest

def startOf? (placements : List Placement) (flow start : String) : Option NodeRef := do
  let p ← placements.find? fun p => p.flow.name = flow
  if start ∈ p.flow.starts then p.node? start else none

def kind (placements : List Placement) (p : Placement) (decl : NodeDecl) : Except Flaw NodeKind :=
  match decl.kind with
  | .start => .ok .start
  | .snapshot => .ok .snapshot
  | .action action => .ok (.action action)
  | .composed called start =>
    match startOf? placements called start with
    | some ref => .ok (.composed ref)
    | none => .error (.unknownCalledStart p.flow.name decl.name called start)

def trigger (placements : List Placement) (decl : TriggerDecl) : Except Flaw Trigger :=
  match startOf? placements decl.flow decl.start with
  | some ref => .ok ⟨decl.name, ref, decl.condition⟩
  | none => .error (.unknownTriggerTarget decl.name decl.flow decl.start)

end Placement

/-- The numbers of the edges that pass `test`, ascending. -/
def edgesWhere (edges : List Edge) (test : Edge → Bool) : List EdgeRef :=
  (edges.zipIdx.filter fun entry => test entry.1).map fun entry => ⟨entry.2⟩

/-- Lists a trigger under a fact, after those listed there before. -/
def addReader (readers : Listing String (List TriggerRef)) (fact : String) (ref : TriggerRef) :
    Listing String (List TriggerRef) :=
  readers.set fact ((readers.at? fact).getD [] ++ [ref])

def indexReaders (triggers : List Trigger) : Listing String (List TriggerRef) :=
  triggers.zipIdx.foldl
    (fun readers entry =>
      entry.1.condition.facts.foldl (fun held fact => addReader held fact ⟨entry.2⟩) readers)
    ∅

/-- The nodes of a placed flow, with the edges that leave and enter each. -/
def Placement.nodes (placements : List Placement) (edges : List Edge) (p : Placement) :
    Except Flaw (List Node) :=
  p.flow.nodes.zipIdx.mapM fun entry => do
    let ref : NodeRef := ⟨p.firstNode + entry.2⟩
    let kind ← p.kind placements entry.1
    return {
      flow := p.ref
      name := entry.1.name
      kind := kind
      outgoing := edgesWhere edges fun edge => edge.source = ref
      incoming := edgesWhere edges fun edge => edge.target = ref }

/-- The chart of checked declarations. -/
def ChartDecl.compile (decl : ChartDecl) : Except Flaw Chart := do
  decl.check
  let placements := Placement.layout 0 0 0 decl.flows
  let edges ← placements.mapM fun p => p.flow.edges.mapM p.edge
  let nodes ← placements.mapM (Placement.nodes placements edges.flatten)
  let triggers ← decl.triggers.mapM (Placement.trigger placements)
  return {
    flows := placements.map Placement.toFlow
    nodes := nodes.flatten
    edges := edges.flatten
    triggers := triggers
    readers := indexReaders triggers }

end Flowchart
