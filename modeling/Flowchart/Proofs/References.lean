import Flowchart.Proofs.Compile
import Flowchart.Proofs.WellFormed

/-!
What the references of a compiled chart refer to: the ends of its edges are nodes of the chart, and the
nodes that composed nodes call and triggers start are start nodes.
-/
namespace Flowchart

theorem exists_of_mapM_eq_ok {ε α β : Type} {f : α → Except ε β} {given : List α} {made : List β}
    (h : given.mapM f = .ok made) {b : β} (mem : b ∈ made) : ∃ a ∈ given, f a = .ok b := by
  have pairs := forall₂_of_mapM_eq_ok h
  clear h
  induction pairs with
  | nil => cases mem
  | cons first _ ih =>
      rcases List.mem_cons.1 mem with rfl | later
      · exact ⟨_, List.mem_cons_self .., first⟩
      · obtain ⟨a, held, built⟩ := ih later
        exact ⟨a, List.mem_cons_of_mem _ held, built⟩

namespace Placement

/-- A name refers to a node of its flow, by the place of the node in the layout. -/
theorem exists_of_node? {p : Placement} {name : String} {ref : NodeRef}
    (found : p.node? name = some ref) :
    ∃ index node, p.flow.nodes[index]? = some node ∧ node.name = name ∧
      ref = ⟨p.firstNode + index⟩ := by
  obtain ⟨index, here, rfl⟩ := Option.map_eq_some_iff.1 found
  obtain ⟨bound, named, -⟩ := List.findIdx?_eq_some_iff_getElem.1 here
  exact ⟨index, _, List.getElem?_eq_getElem bound, of_decide_eq_true named, rfl⟩

theorem exists_of_endpoint {p : Placement} {name : String} {ref : NodeRef}
    (resolved : p.endpoint name = .ok ref) : p.node? name = some ref := by
  unfold endpoint at resolved
  split at resolved
  · cases resolved
    assumption
  · cases resolved

theorem mem_flows_of_mem_layout {flows : List FlowDecl} {flow node edge : Nat} {p : Placement}
    (placed : p ∈ layout flow node edge flows) : p.flow ∈ flows := by
  induction flows generalizing flow node edge with
  | nil => cases placed
  | cons decl rest ih =>
      rcases List.mem_cons.1 placed with rfl | later
      · exact List.mem_cons_self ..
      · exact List.mem_cons_of_mem _ (ih later)

theorem exists_kind_of_nodes {placements : List Placement} {edges : List Edge} {p : Placement}
    {nodes : List Node} (made : p.nodes placements edges = .ok nodes) {decl : NodeDecl}
    (mem : decl ∈ p.flow.nodes) : ∃ kind, p.kind placements decl = .ok kind := by
  obtain ⟨index, listed⟩ := List.mem_iff_getElem?.1 mem
  have numbered : (decl, index) ∈ p.flow.nodes.zipIdx := List.mk_mem_zipIdx_iff_getElem?.2 listed
  obtain ⟨record, built⟩ := exists_of_mem_of_mapM_eq_ok made numbered
  obtain ⟨kind, resolved, -⟩ := exists_of_bind_eq_ok built
  exact ⟨kind, resolved⟩

end Placement

namespace ChartDecl

variable {decl : ChartDecl} {chart : Chart}

/-- No two nodes of a checked flow share their name. -/
theorem nodup_names_of_check (checked : decl.check = .ok ()) {flow : FlowDecl}
    (mem : flow ∈ decl.flows) : (flow.nodes.map NodeDecl.name).Nodup :=
  ((check_eq_ok_iff.1 checked).flows flow mem).distinct

/-- Each node of a placed flow becomes the node of the chart with its number. -/
theorem exists_getElem?_layout {placements : List Placement} {edges : List Edge}
    {made : List (List Node)}
    (built : (Placement.layout 0 0 0 decl.flows).mapM (Placement.nodes placements edges) = .ok made)
    {p : Placement} (placed : p ∈ Placement.layout 0 0 0 decl.flows) {index : Nat} {node : NodeDecl}
    (listed : p.flow.nodes[index]? = some node) :
    ∃ record, made.flatten[p.firstNode + index]? = some record ∧ record.flow = p.ref ∧
      record.name = node.name ∧ p.kind placements node = .ok record.kind := by
  obtain ⟨nodes, row⟩ := exists_of_mem_of_mapM_eq_ok built placed
  obtain ⟨kind, resolved⟩ := Placement.exists_kind_of_nodes row (List.mem_of_getElem? listed)
  exact ⟨_, (Placement.getElem?_layout_iff built).2
    ⟨p, placed, index, node, kind, Nat.zero_add _, listed, resolved, rfl⟩, rfl, rfl, resolved⟩

/-- A name that is looked up in the layout refers to a node of the chart. -/
theorem exists_kind?_of_node? {placements : List Placement} {edges : List Edge}
    {made : List (List Node)}
    (built : (Placement.layout 0 0 0 decl.flows).mapM (Placement.nodes placements edges) = .ok made)
    {p : Placement} (placed : p ∈ Placement.layout 0 0 0 decl.flows) {name : String} {ref : NodeRef}
    (found : p.node? name = some ref) :
    ∃ node ∈ p.flow.nodes, node.name = name ∧ ∃ record, made.flatten[ref.index]? = some record ∧
      record.flow = p.ref ∧ record.name = name ∧ p.kind placements node = .ok record.kind := by
  obtain ⟨index, node, listed, rfl, rfl⟩ := Placement.exists_of_node? found
  obtain ⟨record, held, record_of⟩ := exists_getElem?_layout built placed listed
  exact ⟨node, List.mem_of_getElem? listed, rfl, record, held, record_of⟩

/-- The start node of a name is a start node of the chart. -/
theorem kind_of_startOf? (checked : decl.check = .ok ()) {edges : List Edge} {made : List (List Node)}
    (built : (Placement.layout 0 0 0 decl.flows).mapM
      (Placement.nodes (Placement.layout 0 0 0 decl.flows) edges) = .ok made)
    {flow start : String} {ref : NodeRef}
    (found : Placement.startOf? (Placement.layout 0 0 0 decl.flows) flow start = some ref) :
    ∃ record, made.flatten[ref.index]? = some record ∧ record.kind = .start := by
  obtain ⟨p, first, found⟩ := Option.bind_eq_some_iff.1 found
  have placed := List.mem_of_find?_eq_some first
  split at found
  · rename_i starts
    obtain ⟨node, mem, named, record, held, -, -, resolved⟩ := exists_kind?_of_node? built placed found
    obtain ⟨other, begins, same⟩ := List.mem_map.1 starts
    rw [List.mem_filter, beq_iff_eq] at begins
    have distinct := nodup_names_of_check checked (Placement.mem_flows_of_mem_layout placed)
    have one : node = other := List.inj_on_of_nodup_map distinct mem begins.1 (named.trans same.symm)
    refine ⟨record, held, ?_⟩
    rw [Placement.kind, one, begins.2] at resolved
    exact (Except.ok.inj resolved).symm
  · cases found

/-- Both ends of an edge are nodes of one flow. -/
theorem flow_of_compile (compiled : decl.compile = .ok chart) {ref : EdgeRef} {edge : Edge}
    (known : chart.edge? ref = some edge) :
    ∃ source target, chart.node? edge.source = some source ∧ chart.node? edge.target = some target ∧
      source.flow = target.flow := by
  obtain ⟨edges, nodes, triggers, -, drawn, laid, -, rfl⟩ :=
    exists_parts_of_compile compiled
  obtain ⟨row, listed, mem⟩ := List.mem_flatten.1 (List.mem_of_getElem? known)
  obtain ⟨p, placed, row⟩ := exists_of_mapM_eq_ok drawn listed
  obtain ⟨line, -, made⟩ := exists_of_mapM_eq_ok row mem
  obtain ⟨source, leaves, made⟩ := exists_of_bind_eq_ok made
  obtain ⟨target, enters, made⟩ := exists_of_bind_eq_ok made
  cases made
  obtain ⟨-, -, -, first, begins, owned, -⟩ :=
    exists_kind?_of_node? laid placed (Placement.exists_of_endpoint leaves)
  obtain ⟨-, -, -, second, ends, same, -⟩ :=
    exists_kind?_of_node? laid placed (Placement.exists_of_endpoint enters)
  exact ⟨first, second, begins, ends, owned.trans same.symm⟩

theorem ends_of_compile (compiled : decl.compile = .ok chart) {ref : EdgeRef} {edge : Edge}
    (known : chart.edge? ref = some edge) :
    (chart.kind? edge.source).isSome = true ∧ (chart.kind? edge.target).isSome = true := by
  obtain ⟨source, target, leaves, enters, -⟩ := flow_of_compile compiled known
  rw [Chart.kind?, Chart.kind?, leaves, enters]
  exact ⟨rfl, rfl⟩

/-- A composed node calls a start node. -/
theorem called_of_compile (compiled : decl.compile = .ok chart) {composed called : NodeRef}
    (calls : chart.kind? composed = some (.composed called)) : chart.kind? called = some .start := by
  obtain ⟨edges, nodes, triggers, checked, -, laid, -, rfl⟩ :=
    exists_parts_of_compile compiled
  obtain ⟨record, listed, kind⟩ := Option.map_eq_some_iff.1 calls
  obtain ⟨row, held, mem⟩ := List.mem_flatten.1 (List.mem_of_getElem? listed)
  obtain ⟨p, -, row⟩ := exists_of_mapM_eq_ok laid held
  obtain ⟨entry, -, made⟩ := exists_of_mapM_eq_ok row mem
  obtain ⟨resolved, found, made⟩ := exists_of_bind_eq_ok made
  cases made
  cases kind
  unfold Placement.kind at found
  split at found
  · cases found
  · cases found
  · cases found
  · split at found
    · rename_i start
      cases found
      obtain ⟨target, there, begins⟩ := kind_of_startOf? checked laid start
      exact Option.map_eq_some_iff.2 ⟨target, there, begins⟩
    · cases found

/-- A trigger starts a start node. -/
theorem start_of_compile (compiled : decl.compile = .ok chart) {ref : TriggerRef} {trigger : Trigger}
    (known : chart.trigger? ref = some trigger) : chart.kind? trigger.start = some .start := by
  obtain ⟨edges, nodes, triggers, checked, -, laid, aimed, rfl⟩ :=
    exists_parts_of_compile compiled
  obtain ⟨line, -, made⟩ := exists_of_mapM_eq_ok aimed (List.mem_of_getElem? known)
  unfold Placement.trigger at made
  split at made
  · rename_i start
    cases made
    obtain ⟨target, there, begins⟩ := kind_of_startOf? checked laid start
    exact Option.map_eq_some_iff.2 ⟨target, there, begins⟩
  · cases made

end ChartDecl

end Flowchart
