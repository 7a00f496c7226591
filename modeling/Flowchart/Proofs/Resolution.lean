import Flowchart.Proofs.References

/-!
Compilation of well-formed declarations. It looks names up on its own, after the check, and finds each
of them; so it fails only where the check does, and with the same flaw.
-/
namespace Flowchart

/-- A traversal succeeds if it does so at every element. -/
theorem exists_mapM_eq_ok {ε α β : Type} {f : α → Except ε β} {given : List α}
    (each : ∀ a ∈ given, ∃ b, f a = .ok b) : ∃ made, given.mapM f = .ok made := by
  induction given with
  | nil => exact ⟨[], rfl⟩
  | cons a rest ih =>
      rw [List.forall_mem_cons] at each
      obtain ⟨⟨b, first⟩, others⟩ := each
      obtain ⟨made, later⟩ := ih others
      refine ⟨b :: made, ?_⟩
      rw [List.mapM_cons, first, later]
      rfl

/-- Where no two places pass a test, it does not matter from which end one is looked for. -/
theorem findIdx?_eq_some_iff_of_unique {α : Type} {items : List α} {test : α → Bool}
    (unique : ∀ {first second : Nat} {a b : α}, items[first]? = some a → items[second]? = some b →
      test a = true → test b = true → first = second) {index : Nat} :
    items.findIdx? test = some index ↔ ∃ a, items[index]? = some a ∧ test a = true := by
  constructor
  · intro found
    obtain ⟨bound, passes, -⟩ := List.findIdx?_eq_some_iff_getElem.1 found
    exact ⟨_, List.getElem?_eq_getElem bound, passes⟩
  · rintro ⟨a, listed, passes⟩
    cases found : items.findIdx? test with
    | none =>
        have nowhere := List.findIdx?_eq_none_iff.1 found a (List.mem_of_getElem? listed)
        cases nowhere.symm.trans passes
    | some other =>
        obtain ⟨bound, also, -⟩ := List.findIdx?_eq_some_iff_getElem.1 found
        rw [unique (List.getElem?_eq_getElem bound) listed also passes]

/-- Where the names of items are distinct, a name stands at one place. -/
theorem index_eq_of_nodup {α κ : Type} {key : α → κ} {items : List α} (distinct : (items.map key).Nodup)
    {first second : Nat} {a b : α} (here : items[first]? = some a) (there : items[second]? = some b)
    (same : key a = key b) : first = second := by
  have bound := (List.getElem?_eq_some_iff.1 here).1
  refine (List.getElem?_inj (by rwa [List.length_map]) distinct).1 ?_
  rw [List.getElem?_map, List.getElem?_map, here, there, Option.map_some, Option.map_some, same]

namespace Placement

variable {p : Placement} {decl : ChartDecl}

/-- Where no two nodes share their name, a name refers to the node that has it. -/
theorem node?_eq_some_iff (distinct : (p.flow.nodes.map NodeDecl.name).Nodup) {name : String}
    {ref : NodeRef} :
    p.node? name = some ref ↔
      ∃ index node, p.flow.nodes[index]? = some node ∧ node.name = name ∧
        ref = ⟨p.firstNode + index⟩ := by
  constructor
  · exact exists_of_node?
  · rintro ⟨index, node, listed, named, rfl⟩
    refine Option.map_eq_some_iff.2 ⟨index, (findIdx?_eq_some_iff_of_unique ?_).2 ⟨node, listed, ?_⟩, rfl⟩
    · intro first second a b here there one other
      rw [decide_eq_true_eq] at one other
      exact index_eq_of_nodup distinct here there (one.trans other.symm)
    · exact decide_eq_true named

theorem exists_node?_of_mem (distinct : (p.flow.nodes.map NodeDecl.name).Nodup) {node : NodeDecl}
    (mem : node ∈ p.flow.nodes) : ∃ ref, p.node? node.name = some ref := by
  obtain ⟨index, listed⟩ := List.mem_iff_getElem?.1 mem
  exact ⟨_, (node?_eq_some_iff distinct).2 ⟨index, node, listed, rfl, rfl⟩⟩

theorem exists_edge_eq_ok (formed : p.flow.WellFormed) {edge : EdgeDecl} (mem : edge ∈ p.flow.edges) :
    ∃ made, p.edge edge = .ok made := by
  have resolved : ∀ name ∈ [edge.source, edge.target], ∃ ref, p.endpoint name = .ok ref := by
    intro name one
    obtain ⟨node, here, rfl⟩ := formed.joined edge mem name one
    obtain ⟨ref, found⟩ := exists_node?_of_mem formed.distinct here
    exact ⟨ref, by rw [endpoint, found]⟩
  obtain ⟨source, leaves⟩ := resolved edge.source (by simp)
  obtain ⟨target, enters⟩ := resolved edge.target (by simp)
  refine ⟨⟨source, target, edge.condition⟩, ?_⟩
  rw [Placement.edge, leaves, enters]
  rfl

theorem map_flow_layout (flows : List FlowDecl) (flow node edge : Nat) :
    (layout flow node edge flows).map Placement.flow = flows := by
  induction flows generalizing flow node edge with
  | nil => rfl
  | cons decl rest ih => rw [layout, List.map_cons, ih]

/-- The layout finds the flows that the check finds. -/
theorem flow?_eq_map_find? (decl : ChartDecl) (name : String) :
    decl.flow? name =
      ((layout 0 0 0 decl.flows).find? fun p => p.flow.name = name).map Placement.flow := by
  conv_lhs => rw [ChartDecl.flow?, ← map_flow_layout decl.flows 0 0 0]
  exact List.find?_map ..

/-- A start node that the check knows can be looked up in the layout. -/
theorem exists_startOf?_eq_some (formed : decl.WellFormed) {flow start : String}
    (begins : decl.HasStart flow start) :
    ∃ ref, startOf? (layout 0 0 0 decl.flows) flow start = some ref := by
  obtain ⟨target, known, starts⟩ := (ChartDecl.hasStart_iff formed.distinct).1 begins
  rw [flow?_eq_map_find?] at known
  obtain ⟨p, found, rfl⟩ := Option.map_eq_some_iff.1 known
  have owned := mem_flows_of_mem_layout (List.mem_of_find?_eq_some found)
  obtain ⟨node, mem, rfl, -⟩ := FlowDecl.mem_starts.1 starts
  obtain ⟨ref, named⟩ := exists_node?_of_mem (formed.flows p.flow owned).distinct mem
  refine ⟨ref, ?_⟩
  rw [startOf?, found]
  exact (if_pos starts).trans named

theorem exists_kind_eq_ok (formed : decl.WellFormed) (owned : p.flow ∈ decl.flows) {node : NodeDecl}
    (mem : node ∈ p.flow.nodes) : ∃ kind, p.kind (layout 0 0 0 decl.flows) node = .ok kind := by
  cases kind : node.kind with
  | start | snapshot | action => simp [Placement.kind, kind]
  | composed called start =>
      obtain ⟨ref, found⟩ := exists_startOf?_eq_some formed
        (formed.called p.flow owned node mem called start kind)
      exact ⟨.composed ref, by simp only [Placement.kind, kind, found]⟩

theorem exists_nodes_eq_ok (formed : decl.WellFormed) (owned : p.flow ∈ decl.flows)
    (edges : List Edge) : ∃ nodes, p.nodes (layout 0 0 0 decl.flows) edges = .ok nodes := by
  refine exists_mapM_eq_ok fun entry listed => ?_
  obtain ⟨kind, resolved⟩ := exists_kind_eq_ok formed owned (List.fst_mem_of_mem_zipIdx listed)
  rw [resolved]
  exact ⟨_, rfl⟩

theorem exists_trigger_eq_ok (formed : decl.WellFormed) {trigger : TriggerDecl}
    (mem : trigger ∈ decl.triggers) :
    ∃ made, Placement.trigger (layout 0 0 0 decl.flows) trigger = .ok made := by
  obtain ⟨ref, found⟩ := exists_startOf?_eq_some formed (formed.aimed trigger mem)
  exact ⟨⟨trigger.name, ref, trigger.condition⟩, by rw [Placement.trigger, found]⟩

end Placement

namespace ChartDecl

variable {decl : ChartDecl}

/-- Compilation of declarations that pass the check never fails. -/
theorem exists_compile_eq_ok (checked : decl.check = .ok ()) : ∃ chart, decl.compile = .ok chart := by
  have formed := check_eq_ok_iff.1 checked
  have owned {p : Placement} (placed : p ∈ Placement.layout 0 0 0 decl.flows) : p.flow ∈ decl.flows :=
    Placement.mem_flows_of_mem_layout placed
  have joined : ∀ p ∈ Placement.layout 0 0 0 decl.flows, ∃ edges, p.flow.edges.mapM p.edge = .ok edges :=
    fun p placed => exists_mapM_eq_ok fun _ mem =>
      Placement.exists_edge_eq_ok (formed.flows p.flow (owned placed)) mem
  obtain ⟨edges, drawn⟩ := exists_mapM_eq_ok joined
  obtain ⟨nodes, laid⟩ := exists_mapM_eq_ok fun p placed =>
    Placement.exists_nodes_eq_ok formed (owned (p := p) placed) edges.flatten
  obtain ⟨triggers, aimed⟩ := exists_mapM_eq_ok fun _ mem =>
    Placement.exists_trigger_eq_ok formed mem
  refine ⟨⟨(Placement.layout 0 0 0 decl.flows).map Placement.toFlow, nodes.flatten, edges.flatten,
    triggers, indexReaders triggers⟩, ?_⟩
  simp only [compile, checked, drawn, laid, aimed, bind, Except.bind]
  rfl

theorem compile_of_check_error {flaw : Flaw} (refused : decl.check = .error flaw) :
    decl.compile = .error flaw := by
  rw [compile, refused]
  rfl

/-- The check accepts the well-formed declarations and no others. Compilation succeeds after it, and
fails with the flaw that it found. -/
theorem check_and_compile (decl : ChartDecl) :
    (decl.check = .ok () ↔ decl.WellFormed) ∧
      ((∃ chart, decl.compile = .ok chart) ↔ decl.check = .ok ()) ∧
      ∀ flaw, decl.compile = .error flaw ↔ decl.check = .error flaw := by
  refine ⟨check_eq_ok_iff, ⟨?_, exists_compile_eq_ok⟩, fun flaw => ⟨fun refused => ?_, compile_of_check_error⟩⟩
  · rintro ⟨chart, compiled⟩
    obtain ⟨edges, nodes, triggers, checked, -⟩ := exists_parts_of_compile compiled
    exact checked
  · cases outcome : decl.check with
    | ok u =>
        obtain ⟨chart, compiled⟩ := exists_compile_eq_ok outcome
        cases compiled.symm.trans refused
    | error other =>
        cases (compile_of_check_error outcome).symm.trans refused
        rfl

end ChartDecl

end Flowchart
