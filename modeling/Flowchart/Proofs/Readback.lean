import Flowchart.Proofs.Reading
import Flowchart.Proofs.Resolution

/-!
Reading a chart back. Compilation replaces names by references and loses nothing: with the names put
back in the place of the references a chart is the declaration that it was compiled from. Its nodes,
edges and triggers are numbered in the order of their declaration, and every reference that it holds
refers to what the declaration named.
-/
namespace Flowchart

namespace Chart

/-- The names of the flow and of the node that a reference refers to. -/
def names? (chart : Chart) (ref : NodeRef) : Option (String × String) := do
  let node ← chart.node? ref
  let flow ← chart.flow? node.flow
  return (flow.name, node.name)

/-- A kind as it is declared, with the names of the node that it calls. -/
def kindDecl? (chart : Chart) : NodeKind → Option KindDecl
  | .start => some .start
  | .action action => some (.action action)
  | .composed called => (chart.names? called).map fun names => .composed names.1 names.2
  | .snapshot => some .snapshot

def nodeDecl? (chart : Chart) (ref : NodeRef) : Option NodeDecl := do
  let node ← chart.node? ref
  let kind ← chart.kindDecl? node.kind
  return ⟨node.name, kind⟩

def edgeDecl? (chart : Chart) (ref : EdgeRef) : Option EdgeDecl := do
  let edge ← chart.edge? ref
  let source ← chart.node? edge.source
  let target ← chart.node? edge.target
  return ⟨source.name, target.name, edge.condition⟩

def flowDecl? (chart : Chart) (ref : FlowRef) : Option FlowDecl := do
  let flow ← chart.flow? ref
  let nodes ← flow.nodes.mapM chart.nodeDecl?
  let edges ← flow.edges.mapM chart.edgeDecl?
  return ⟨flow.name, flow.autostart, nodes, edges⟩

def triggerDecl? (chart : Chart) (ref : TriggerRef) : Option TriggerDecl := do
  let trigger ← chart.trigger? ref
  let names ← chart.names? trigger.start
  return ⟨trigger.name, names.1, names.2, trigger.condition⟩

/-- The declaration that a chart spells out; none if a reference in it refers to nothing. -/
def decl? (chart : Chart) : Option ChartDecl := do
  let flows ← chart.flowRefs.mapM chart.flowDecl?
  let triggers ← chart.triggerRefs.mapM chart.triggerDecl?
  return ⟨flows, triggers⟩

/-- How the parts of a chart refer to each other. The nodes of the flows are all nodes of the chart, each
once and in order, and so are their edges. -/
structure Linked (chart : Chart) : Prop where
  nodes : chart.flows.flatMap Flow.nodes = chart.nodeRefs
  edges : chart.flows.flatMap Flow.edges = chart.edgeRefs
  owned : ∀ ref node, chart.node? ref = some node →
    ∃ flow, chart.flow? node.flow = some flow ∧ ref ∈ flow.nodes
  ends : ∀ flow ∈ chart.flows, ∀ ref ∈ flow.edges,
    ∃ edge, chart.edge? ref = some edge ∧ edge.source ∈ flow.nodes ∧ edge.target ∈ flow.nodes
  outgoing : ∀ ref node, chart.node? ref = some node →
    node.outgoing = chart.edgeRefs.filter fun other =>
      (chart.edge? other).any fun edge => edge.source = ref
  incoming : ∀ ref node, chart.node? ref = some node →
    node.incoming = chart.edgeRefs.filter fun other =>
      (chart.edge? other).any fun edge => edge.target = ref
  called : ∀ ref called, chart.kind? ref = some (.composed called) → called ∈ chart.nodeRefs
  begun : ∀ trigger ∈ chart.triggers, trigger.start ∈ chart.nodeRefs
  readers : ∀ row ∈ chart.readers.items, ∀ ref ∈ row.2, ref ∈ chart.triggerRefs

theorem names?_eq_some_iff {chart : Chart} {ref : NodeRef} {flow name : String} :
    chart.names? ref = some (flow, name) ↔
      ∃ node owner, chart.node? ref = some node ∧ chart.flow? node.flow = some owner ∧
        owner.name = flow ∧ node.name = name := by
  simp only [names?, Option.bind_eq_bind, Option.bind_eq_some_iff]
  constructor
  · rintro ⟨node, known, owner, owned, same⟩
    cases same
    exact ⟨node, owner, known, owned, rfl, rfl⟩
  · rintro ⟨node, owner, known, owned, rfl, rfl⟩
    exact ⟨node, known, owner, owned, rfl⟩

theorem mem_nodeRefs_of_kind? {chart : Chart} {ref : NodeRef} {kind : NodeKind}
    (known : chart.kind? ref = some kind) : ref ∈ chart.nodeRefs := by
  obtain ⟨node, listed, -⟩ := Option.map_eq_some_iff.1 known
  have bound := (List.getElem?_eq_some_iff.1 listed).1
  exact List.mem_map.2 ⟨ref.index, List.mem_range.2 bound, rfl⟩

end Chart

/-- References that are numbered on from a first one are read one after the other. -/
theorem mapM_range'_eq_some {ρ α : Type} {make : Nat → ρ} {read : ρ → Option α} {first : Nat}
    {items : List α}
    (each : ∀ {index a}, items[index]? = some a → read (make (first + index)) = some a) :
    ((List.range' first items.length).map make).mapM read = some items := by
  induction items generalizing first with
  | nil => rfl
  | cons a rest ih =>
      have here : read (make first) = some a := @each 0 a rfl
      have later := @ih (first + 1) fun {index b} listed => by
        rw [Nat.add_assoc, Nat.add_comm 1]
        exact @each (index + 1) b listed
      rw [List.length_cons, List.range'_succ, List.map_cons, List.mapM_cons, here, later]
      rfl

/-- What each of some lists is read as, all of them together are read as. -/
theorem mapM_flatMap_eq_some {α β γ : Type} {lists : α → List β} {read : β → Option γ}
    {made : α → List γ} {owners : List α}
    (each : ∀ owner ∈ owners, (lists owner).mapM read = some (made owner)) :
    (owners.flatMap lists).mapM read = some (owners.flatMap made) := by
  induction owners with
  | nil => rfl
  | cons head rest ih =>
      rw [List.forall_mem_cons] at each
      rw [List.flatMap_cons, List.mapM_append, each.1, ih each.2]
      rfl

/-- The numbers of the rows, one row after the other, are all numbers in order. -/
theorem Consecutive.flatMap_range' {ε α β : Type} {first size : α → Nat} {start : Nat} {owners : List α}
    (consecutive : Consecutive first size start owners) {f : α → Except ε (List β)}
    {rows : List (List β)} (made : owners.mapM f = .ok rows)
    (sized : ∀ owner row, f owner = .ok row → row.length = size owner) :
    owners.flatMap (fun owner => List.range' (first owner) (size owner)) =
      List.range' start rows.flatten.length := by
  induction owners generalizing start rows with
  | nil =>
      cases made
      rfl
  | cons head rest ih =>
      rw [List.mapM_cons] at made
      obtain ⟨row, here, made⟩ := exists_of_bind_eq_ok made
      obtain ⟨later, others, made⟩ := exists_of_bind_eq_ok made
      cases made
      rw [List.flatMap_cons, ih consecutive.2 others, consecutive.1, List.flatten_cons,
        List.length_append, sized head row here, List.range'_append_1]

/-- The edges that pass a test, by their numbers. -/
theorem edgesWhere_eq_filter (edges : List Edge) (test : Edge → Bool) :
    edgesWhere edges test =
      ((List.range edges.length).map EdgeRef.mk).filter fun ref => (edges[ref.index]?).any test := by
  have numbers : (List.range edges.length).map EdgeRef.mk =
      edges.zipIdx.map fun entry => EdgeRef.mk entry.2 := by
    rw [List.range_eq_range', ← List.zipIdx_map_snd 0 edges, List.map_map]
    rfl
  rw [numbers, List.filter_map, edgesWhere]
  congr 1
  refine List.filter_congr fun entry mem => ?_
  have listed : edges[entry.2]? = some entry.1 := List.mem_zipIdx_iff_getElem?.1 mem
  simp only [Function.comp_apply, listed, Option.any_some]

namespace Placement

theorem ref_of_getElem?_layout {flows : List FlowDecl} {flow node edge index : Nat} {p : Placement}
    (listed : (layout flow node edge flows)[index]? = some p) : p.ref = ⟨flow + index⟩ := by
  induction flows generalizing flow node edge index with
  | nil => cases listed
  | cons decl rest ih =>
      cases index with
      | zero =>
          cases listed
          rfl
      | succ index => rw [ih listed, Nat.add_assoc, Nat.add_comm 1]

/-- A flow is placed by its number. -/
theorem getElem?_ref {flows : List FlowDecl} {p : Placement} (placed : p ∈ layout 0 0 0 flows) :
    (layout 0 0 0 flows)[p.ref.index]? = some p := by
  obtain ⟨index, listed⟩ := List.mem_iff_getElem?.1 placed
  rw [ref_of_getElem?_layout listed, Nat.zero_add]
  exact listed

theorem exists_of_startOf? {placements : List Placement} {flow start : String} {ref : NodeRef}
    (found : startOf? placements flow start = some ref) :
    ∃ p ∈ placements, p.flow.name = flow ∧ p.node? start = some ref := by
  obtain ⟨p, first, found⟩ := Option.bind_eq_some_iff.1 found
  have named : p.flow.name = flow := by simpa using List.find?_some first
  split at found
  · exact ⟨p, List.mem_of_find?_eq_some first, named, found⟩
  · cases found

theorem length_edges {p : Placement} {edges : List Edge} (made : p.flow.edges.mapM p.edge = .ok edges) :
    edges.length = p.flow.edges.length := (forall₂_of_mapM_eq_ok made).length_eq.symm

theorem mem_nodeRefs_of_node? {p : Placement} {name : String} {ref : NodeRef}
    (found : p.node? name = some ref) : ref ∈ p.nodeRefs := by
  obtain ⟨index, node, listed, -, rfl⟩ := exists_of_node? found
  have bound := (List.getElem?_eq_some_iff.1 listed).1
  exact List.mem_map_of_mem (List.mem_range'_1.2 ⟨Nat.le_add_right _ _, by omega⟩)

end Placement

namespace ChartDecl

variable {decl : ChartDecl} {chart : Chart} {p : Placement}

section Placed

variable (compiled : decl.compile = .ok chart) (placed : p ∈ Placement.layout 0 0 0 decl.flows)

include compiled placed

theorem flow?_of_placed : chart.flow? p.ref = some p.toFlow := by
  obtain ⟨edges, nodes, triggers, -, -, -, -, rfl⟩ := exists_parts_of_compile compiled
  rw [Chart.flow?, List.getElem?_map, Placement.getElem?_ref placed, Option.map_some]

theorem exists_node?_of_placed {index : Nat} {node : NodeDecl}
    (listed : p.flow.nodes[index]? = some node) :
    ∃ record, chart.node? ⟨p.firstNode + index⟩ = some record ∧ record.flow = p.ref ∧
      record.name = node.name ∧
      p.kind (Placement.layout 0 0 0 decl.flows) node = .ok record.kind := by
  obtain ⟨edges, nodes, triggers, -, -, laid, -, rfl⟩ := exists_parts_of_compile compiled
  exact exists_getElem?_layout laid placed listed

theorem exists_edge?_of_placed {index : Nat} {line : EdgeDecl}
    (listed : p.flow.edges[index]? = some line) :
    ∃ edge, chart.edge? ⟨p.firstEdge + index⟩ = some edge ∧ p.edge line = .ok edge := by
  obtain ⟨edges, nodes, triggers, -, drawn, -, -, rfl⟩ := exists_parts_of_compile compiled
  obtain ⟨row, made⟩ := exists_of_mem_of_mapM_eq_ok drawn placed
  obtain ⟨edge, joined⟩ := exists_of_mem_of_mapM_eq_ok made (List.mem_of_getElem? listed)
  refine ⟨edge, ?_, joined⟩
  refine ((Placement.consecutive_edges 0 0 0 decl.flows).getElem?_flatten_iff drawn
    fun _ _ => Placement.length_edges).2 ?_
  exact ⟨p, placed, row, index, made, (getElem?_mapM_iff made).2 ⟨line, listed, joined⟩, Nat.zero_add _⟩

/-- A name that is looked up in a flow refers to the node that carries it. -/
theorem names?_of_node? {name : String} {ref : NodeRef} (found : p.node? name = some ref) :
    chart.names? ref = some (p.flow.name, name) := by
  obtain ⟨index, node, listed, rfl, rfl⟩ := Placement.exists_of_node? found
  obtain ⟨record, known, owner, named, -⟩ := exists_node?_of_placed compiled placed listed
  exact Chart.names?_eq_some_iff.2
    ⟨record, p.toFlow, known, owner ▸ flow?_of_placed compiled placed, rfl, named⟩

end Placed

section Compiled

variable (compiled : decl.compile = .ok chart)

include compiled

theorem names?_of_startOf? {flow start : String} {ref : NodeRef}
    (found : Placement.startOf? (Placement.layout 0 0 0 decl.flows) flow start = some ref) :
    chart.names? ref = some (flow, start) := by
  obtain ⟨p, placed, rfl, named⟩ := Placement.exists_of_startOf? found
  exact names?_of_node? compiled placed named

/-- The kind that a node is given spells out the kind that was declared. -/
theorem kindDecl?_of_kind {node : NodeDecl} {kind : NodeKind}
    (resolved : p.kind (Placement.layout 0 0 0 decl.flows) node = .ok kind) :
    chart.kindDecl? kind = some node.kind := by
  unfold Placement.kind at resolved
  split at resolved
  · cases resolved
    simp only [Chart.kindDecl?, *]
  · cases resolved
    simp only [Chart.kindDecl?, *]
  · cases resolved
    simp only [Chart.kindDecl?, *]
  · split at resolved
    · rename_i found
      cases resolved
      simp only [Chart.kindDecl?, names?_of_startOf? compiled found, Option.map_some, *]
    · cases resolved

theorem nodeDecl?_of_placed (placed : p ∈ Placement.layout 0 0 0 decl.flows) {index : Nat}
    {node : NodeDecl} (listed : p.flow.nodes[index]? = some node) :
    chart.nodeDecl? ⟨p.firstNode + index⟩ = some node := by
  obtain ⟨record, known, -, named, resolved⟩ := exists_node?_of_placed compiled placed listed
  simp only [Chart.nodeDecl?, known, kindDecl?_of_kind compiled resolved, named, Option.bind_eq_bind,
    Option.bind_some]
  rfl

theorem edgeDecl?_of_placed (placed : p ∈ Placement.layout 0 0 0 decl.flows) {index : Nat}
    {line : EdgeDecl} (listed : p.flow.edges[index]? = some line) :
    chart.edgeDecl? ⟨p.firstEdge + index⟩ = some line := by
  obtain ⟨edge, known, joined⟩ := exists_edge?_of_placed compiled placed listed
  obtain ⟨source, leaves, joined⟩ := exists_of_bind_eq_ok joined
  obtain ⟨target, enters, joined⟩ := exists_of_bind_eq_ok joined
  cases joined
  obtain ⟨first, -, begins, -, -, named⟩ := Chart.names?_eq_some_iff.1
    (names?_of_node? compiled placed (Placement.exists_of_endpoint leaves))
  obtain ⟨last, -, ends, -, -, called⟩ := Chart.names?_eq_some_iff.1
    (names?_of_node? compiled placed (Placement.exists_of_endpoint enters))
  simp only [Chart.edgeDecl?, known, begins, ends, named, called, Option.bind_eq_bind, Option.bind_some]
  rfl

theorem flowDecl?_of_placed (placed : p ∈ Placement.layout 0 0 0 decl.flows) :
    chart.flowDecl? p.ref = some p.flow := by
  have nodes : p.nodeRefs.mapM chart.nodeDecl? = some p.flow.nodes :=
    mapM_range'_eq_some (nodeDecl?_of_placed compiled placed)
  have edges : p.edgeRefs.mapM chart.edgeDecl? = some p.flow.edges :=
    mapM_range'_eq_some (edgeDecl?_of_placed compiled placed)
  simp only [Chart.flowDecl?, flow?_of_placed compiled placed, Placement.toFlow, nodes, edges,
    Option.bind_eq_bind, Option.bind_some]
  rfl

theorem triggerDecl?_of_listed {index : Nat} {line : TriggerDecl}
    (listed : decl.triggers[index]? = some line) : chart.triggerDecl? ⟨index⟩ = some line := by
  obtain ⟨edges, nodes, triggers, -, -, -, aimed, made⟩ := exists_parts_of_compile compiled
  obtain ⟨trigger, found⟩ := exists_of_mem_of_mapM_eq_ok aimed (List.mem_of_getElem? listed)
  have known : chart.trigger? ⟨index⟩ = some trigger := by
    rw [made]
    exact (getElem?_mapM_iff aimed).2 ⟨line, listed, found⟩
  unfold Placement.trigger at found
  split at found
  · rename_i start
    cases found
    simp only [Chart.triggerDecl?, known, names?_of_startOf? compiled start, Option.bind_eq_bind,
      Option.bind_some]
    rfl
  · cases found

theorem flows_of_compile :
    chart.flows = (Placement.layout 0 0 0 decl.flows).map Placement.toFlow := by
  obtain ⟨edges, nodes, triggers, -, -, -, -, rfl⟩ := exists_parts_of_compile compiled
  rfl

theorem mapM_flowDecl?_of_compile : chart.flowRefs.mapM chart.flowDecl? = some decl.flows := by
  have numbered : chart.flows.length = decl.flows.length := by
    rw [flows_of_compile compiled, List.length_map, ← List.length_map Placement.flow,
      Placement.map_flow_layout]
  rw [Chart.flowRefs, numbered, List.range_eq_range']
  refine mapM_range'_eq_some fun listed => ?_
  rw [← Placement.map_flow_layout decl.flows 0 0 0, List.getElem?_map, Option.map_eq_some_iff] at listed
  obtain ⟨p, placed, rfl⟩ := listed
  rw [← Placement.ref_of_getElem?_layout placed]
  exact flowDecl?_of_placed compiled (List.mem_of_getElem? placed)

theorem mapM_triggerDecl?_of_compile :
    chart.triggerRefs.mapM chart.triggerDecl? = some decl.triggers := by
  have numbered : chart.triggers.length = decl.triggers.length := by
    obtain ⟨edges, nodes, triggers, -, -, -, aimed, rfl⟩ := exists_parts_of_compile compiled
    exact (forall₂_of_mapM_eq_ok aimed).length_eq.symm
  rw [Chart.triggerRefs, numbered, List.range_eq_range']
  refine mapM_range'_eq_some fun listed => ?_
  rw [Nat.zero_add]
  exact triggerDecl?_of_listed compiled listed

/-- The nodes of the flows, one flow after the other, are numbered without a gap. -/
theorem flatMap_nodes_of_compile : chart.flows.flatMap Flow.nodes = chart.nodeRefs := by
  obtain ⟨edges, nodes, triggers, -, -, laid, -, rfl⟩ := exists_parts_of_compile compiled
  have numbers := (Placement.consecutive_nodes 0 0 0 decl.flows).flatMap_range' laid
    fun _ _ => Placement.length_nodes
  rw [Chart.nodeRefs, List.range_eq_range', ← numbers, List.map_flatMap, List.flatMap_map]
  rfl

theorem flatMap_edges_of_compile : chart.flows.flatMap Flow.edges = chart.edgeRefs := by
  obtain ⟨edges, nodes, triggers, -, drawn, -, -, rfl⟩ := exists_parts_of_compile compiled
  have numbers := (Placement.consecutive_edges 0 0 0 decl.flows).flatMap_range' drawn
    fun _ _ => Placement.length_edges
  rw [Chart.edgeRefs, List.range_eq_range', ← numbers, List.map_flatMap, List.flatMap_map]
  rfl

theorem mapM_nodeDecl?_of_compile :
    chart.nodeRefs.mapM chart.nodeDecl? = some (decl.flows.flatMap FlowDecl.nodes) := by
  rw [← flatMap_nodes_of_compile compiled, flows_of_compile compiled, List.flatMap_map]
  conv_rhs => rw [← Placement.map_flow_layout decl.flows 0 0 0, List.flatMap_map]
  exact mapM_flatMap_eq_some fun p placed => mapM_range'_eq_some (nodeDecl?_of_placed compiled placed)

theorem mapM_edgeDecl?_of_compile :
    chart.edgeRefs.mapM chart.edgeDecl? = some (decl.flows.flatMap FlowDecl.edges) := by
  rw [← flatMap_edges_of_compile compiled, flows_of_compile compiled, List.flatMap_map]
  conv_rhs => rw [← Placement.map_flow_layout decl.flows 0 0 0, List.flatMap_map]
  exact mapM_flatMap_eq_some fun p placed => mapM_range'_eq_some (edgeDecl?_of_placed compiled placed)

theorem decl?_of_compile : chart.decl? = some decl := by
  simp only [Chart.decl?, mapM_flowDecl?_of_compile compiled, mapM_triggerDecl?_of_compile compiled,
    Option.bind_eq_bind, Option.bind_some]
  rfl

/-- Each node of the chart is a node of a placed flow. -/
theorem exists_placed_of_node? {ref : NodeRef} {record : Node} (known : chart.node? ref = some record) :
    ∃ p ∈ Placement.layout 0 0 0 decl.flows, ∃ index node, ref = ⟨p.firstNode + index⟩ ∧
      p.flow.nodes[index]? = some node ∧ record.flow = p.ref ∧ record.name = node.name := by
  obtain ⟨edges, nodes, triggers, -, -, laid, -, rfl⟩ := exists_parts_of_compile compiled
  obtain ⟨p, placed, index, node, kind, numbered, listed, -, rfl⟩ :=
    (Placement.getElem?_layout_iff laid).1 known
  exact ⟨p, placed, index, node, congrArg NodeRef.mk ((Nat.zero_add _).symm.trans numbered), listed, rfl,
    rfl⟩

/-- A flow and a name in it belong to one node. -/
theorem ref_eq_of_compile {first second : NodeRef} {a b : Node} (here : chart.node? first = some a)
    (there : chart.node? second = some b) (flow : a.flow = b.flow) (name : a.name = b.name) :
    first = second := by
  obtain ⟨edges, nodes, triggers, checked, -⟩ := exists_parts_of_compile compiled
  obtain ⟨p, placed, i, node, rfl, listed, owner, named⟩ := exists_placed_of_node? compiled here
  obtain ⟨q, other, j, twin, rfl, also, shared, called⟩ := exists_placed_of_node? compiled there
  have refs : p.ref = q.ref := owner.symm.trans (flow.trans shared)
  have one : p = q := by
    have found := Placement.getElem?_ref placed
    rw [refs, Placement.getElem?_ref other] at found
    exact (Option.some.inj found).symm
  subst one
  have distinct := nodup_names_of_check checked (Placement.mem_flows_of_mem_layout placed)
  rw [index_eq_of_nodup distinct listed also (named.symm.trans (name.trans called))]

theorem findFlow_of_compile {name : String} {ref : FlowRef} :
    chart.findFlow name = some ref ↔ ∃ flow, chart.flow? ref = some flow ∧ flow.name = name := by
  have distinct : (chart.flows.map Flow.name).Nodup := by
    obtain ⟨edges, nodes, triggers, checked, -⟩ := exists_parts_of_compile compiled
    have names := (check_eq_ok_iff.1 checked).distinct
    rw [← Placement.map_flow_layout decl.flows 0 0 0, List.map_map] at names
    rw [flows_of_compile compiled, List.map_map]
    exact names
  have unique {first second : Nat} {a b : Flow} (here : chart.flows[first]? = some a)
      (there : chart.flows[second]? = some b) (one : decide (a.name = name) = true)
      (other : decide (b.name = name) = true) : first = second := by
    rw [decide_eq_true_eq] at one other
    exact index_eq_of_nodup distinct here there (one.trans other.symm)
  rw [Chart.findFlow, Option.map_eq_some_iff]
  simp only [findIdx?_eq_some_iff_of_unique unique, decide_eq_true_eq]
  constructor
  · rintro ⟨index, found, rfl⟩
    exact found
  · intro found
    exact ⟨ref.index, found, rfl⟩

/-- A node is found by its names, and by no others. -/
theorem findNode_of_compile {flow name : String} {ref : NodeRef} :
    chart.findNode flow name = some ref ↔ chart.names? ref = some (flow, name) := by
  have unique {owner : FlowRef} {first second : Nat} {a b : Node} (here : chart.nodes[first]? = some a)
      (there : chart.nodes[second]? = some b) (one : (a.flow = owner && a.name = name : Bool) = true)
      (other : (b.flow = owner && b.name = name : Bool) = true) : first = second := by
    rw [Bool.and_eq_true, decide_eq_true_eq, decide_eq_true_eq] at one other
    have same : (⟨first⟩ : NodeRef) = ⟨second⟩ := ref_eq_of_compile compiled here there
      (one.1.trans other.1.symm) (one.2.trans other.2.symm)
    exact congrArg NodeRef.index same
  simp only [Chart.findNode, Chart.names?_eq_some_iff, Option.bind_eq_bind, Option.bind_eq_some_iff,
    findFlow_of_compile compiled, findIdx?_eq_some_iff_of_unique unique, Bool.and_eq_true,
    decide_eq_true_eq]
  constructor
  · rintro ⟨owner, ⟨held, known, rfl⟩, index, ⟨node, listed, rfl, rfl⟩, same⟩
    cases same
    exact ⟨node, held, listed, known, rfl, rfl⟩
  · rintro ⟨node, held, listed, known, rfl, rfl⟩
    exact ⟨node.flow, ⟨held, known, rfl⟩, ref.index, ⟨node, listed, rfl, rfl⟩, rfl⟩

theorem linked_of_compile : chart.Linked where
  nodes := flatMap_nodes_of_compile compiled
  edges := flatMap_edges_of_compile compiled
  owned ref node known := by
    obtain ⟨p, placed, index, line, rfl, listed, owner, -⟩ := exists_placed_of_node? compiled known
    have bound := (List.getElem?_eq_some_iff.1 listed).1
    refine ⟨p.toFlow, owner ▸ flow?_of_placed compiled placed, ?_⟩
    exact List.mem_map_of_mem (List.mem_range'_1.2 ⟨Nat.le_add_right _ _, by omega⟩)
  ends flow mem ref listed := by
    rw [flows_of_compile compiled] at mem
    obtain ⟨p, placed, rfl⟩ := List.mem_map.1 mem
    obtain ⟨number, between, rfl⟩ := List.mem_map.1 listed
    obtain ⟨index, bound, rfl⟩ := List.mem_range'.1 between
    obtain ⟨edge, known, joined⟩ := exists_edge?_of_placed compiled placed (List.getElem?_eq_getElem bound)
    obtain ⟨source, leaves, joined⟩ := exists_of_bind_eq_ok joined
    obtain ⟨target, enters, joined⟩ := exists_of_bind_eq_ok joined
    cases joined
    rw [Nat.one_mul]
    exact ⟨_, known, Placement.mem_nodeRefs_of_node? (Placement.exists_of_endpoint leaves),
      Placement.mem_nodeRefs_of_node? (Placement.exists_of_endpoint enters)⟩
  outgoing ref node known := (edges_of_compile compiled known).1.trans (edgesWhere_eq_filter _ _)
  incoming ref node known := (edges_of_compile compiled known).2.trans (edgesWhere_eq_filter _ _)
  called ref called calls := Chart.mem_nodeRefs_of_kind? (called_of_compile compiled calls)
  begun trigger mem := by
    obtain ⟨index, listed⟩ := List.mem_iff_getElem?.1 mem
    have known : chart.trigger? ⟨index⟩ = some trigger := listed
    exact Chart.mem_nodeRefs_of_kind? (start_of_compile compiled known)
  readers row listed ref mem := by
    have read : ref ∈ chart.triggersReading row.1 := by
      rw [Chart.triggersReading, Listing.at?_eq_some_iff.2 listed]
      exact mem
    obtain ⟨trigger, known, -⟩ := (mem_triggersReading_of_compile compiled).1 read
    have bound := (List.getElem?_eq_some_iff.1 known).1
    exact List.mem_map.2 ⟨ref.index, List.mem_range.2 bound, rfl⟩

/-- Compilation loses and misplaces nothing. The declaration can be read back from the chart, its nodes,
edges and triggers in the order of their numbers; the references in the chart fit together; and a node is
found by the names that it carries. -/
theorem readBack_of_compile :
    chart.decl? = some decl ∧
      chart.nodeRefs.mapM chart.nodeDecl? = some (decl.flows.flatMap FlowDecl.nodes) ∧
      chart.edgeRefs.mapM chart.edgeDecl? = some (decl.flows.flatMap FlowDecl.edges) ∧
      chart.triggerRefs.mapM chart.triggerDecl? = some decl.triggers ∧
      chart.Linked ∧
      ∀ flow name ref, chart.findNode flow name = some ref ↔ chart.names? ref = some (flow, name) :=
  ⟨decl?_of_compile compiled, mapM_nodeDecl?_of_compile compiled, mapM_edgeDecl?_of_compile compiled,
    mapM_triggerDecl?_of_compile compiled, linked_of_compile compiled,
    fun _ _ _ => findNode_of_compile compiled⟩

end Compiled

/-- Two flows with the same names of nodes that call each other and themselves, with a loop at a node
and two edges between the same nodes. -/
def twinDecl : ChartDecl :=
  ⟨[(((((FlowDecl.named "Main").addStart "S").addComposed "C" "Sub" "S").addAction "A" (.invoke "ring")).addEdge
      "S" "C" none).addEdge "C" "C" none |>.addEdge "C" "A" (some (.not (.known "p"))) |>.addEdge "C" "A" none,
    ((((FlowDecl.named "Sub").addStart "S").addComposed "A" "Sub" "S").addComposed "C" "Main" "S").autostarting
      |>.addEdge "S" "A" none |>.addEdge "A" "S" (some (.minOf 1 none [.known "p", .known "q"]))],
    [⟨"go", "Sub", "S", .known "p"⟩, ⟨"go", "Main", "S", .all [.known "q", .known "p"]⟩]⟩

theorem readBack_twin :
    twinDecl.compile = .ok twinDecl.chart ∧ twinDecl.chart.decl? = some twinDecl ∧
      twinDecl.chart.Linked ∧ twinDecl.chart.findNode "Sub" "A" = some ⟨4⟩ ∧
      (twinDecl.chart.node? ⟨1⟩).map Node.outgoing = some [⟨1⟩, ⟨2⟩, ⟨3⟩] ∧
      (twinDecl.chart.node? ⟨1⟩).map Node.incoming = some [⟨0⟩, ⟨1⟩] := by
  have compiled : twinDecl.compile = .ok twinDecl.chart := twinDecl.compile_of_isOk (by decide +kernel)
  obtain ⟨back, -, -, -, linked, found⟩ := readBack_of_compile compiled
  exact ⟨compiled, back, linked, (found "Sub" "A" ⟨4⟩).2 (by decide +kernel), by decide +kernel,
    by decide +kernel⟩

end ChartDecl

end Flowchart
