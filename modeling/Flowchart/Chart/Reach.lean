import Flowchart.Chart

/-!
Reachability along edges and from composed nodes into the flows they call.
-/
namespace Flowchart.Chart

/-- The nodes one step away: the targets of outgoing edges, then the called start node. -/
def successors (chart : Chart) (ref : NodeRef) : List NodeRef :=
  (chart.outgoing ref).filterMap (fun edge => (chart.edge? edge).map Edge.target)
    ++ match chart.kind? ref with
      | some (.composed called) => [called]
      | _ => []

/-- Depth-first search. Each round visits one node that was not visited before. -/
def explore (chart : Chart) : Nat → List NodeRef → List NodeRef → List NodeRef
  | 0, _, visited => visited
  | rounds + 1, stack, visited =>
    match stack.dropWhile fun ref => ref ∈ visited with
    | [] => visited
    | ref :: rest => explore chart rounds (chart.successors ref ++ rest) (ref :: visited)

/-- The nodes that can be reached from a node of the chart, itself included, ascending. -/
def reachable (chart : Chart) (origin : NodeRef) : List NodeRef :=
  if (chart.node? origin).isSome then
    let visited := chart.explore chart.nodes.length [origin] []
    chart.nodeRefs.filter fun ref => ref ∈ visited
  else []

end Flowchart.Chart
