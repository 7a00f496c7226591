import Flowchart.Chart.Compile
import Mathlib.Data.List.Forall2

/-!
What compilation guarantees about the graph of a chart: the edges listed at a node are the ones that
leave and enter it.
-/
namespace Flowchart

theorem exists_of_bind_eq_ok {ε α β : Type} {x : Except ε α} {f : α → Except ε β} {b : β}
    (h : x >>= f = .ok b) : ∃ a, x = .ok a ∧ f a = .ok b := by
  cases x with
  | error e => cases h
  | ok a => exact ⟨a, rfl, h⟩

theorem forall₂_of_mapM_eq_ok {ε α β : Type} {f : α → Except ε β} {given : List α} {made : List β}
    (h : given.mapM f = .ok made) : List.Forall₂ (fun a b => f a = .ok b) given made := by
  induction given generalizing made with
  | nil =>
      cases h
      exact .nil
  | cons a rest ih =>
      rw [List.mapM_cons] at h
      obtain ⟨b, first, h⟩ := exists_of_bind_eq_ok h
      obtain ⟨later, others, h⟩ := exists_of_bind_eq_ok h
      cases h
      exact .cons first (ih others)

theorem mem_edgesWhere {edges : List Edge} {test : Edge → Bool} {ref : EdgeRef} :
    ref ∈ edgesWhere edges test ↔ ∃ edge, edges[ref.index]? = some edge ∧ test edge = true := by
  simp only [edgesWhere, List.mem_map, List.mem_filter, List.mem_zipIdx_iff_getElem?]
  constructor
  · rintro ⟨⟨edge, index⟩, ⟨listed, passes⟩, rfl⟩
    exact ⟨edge, listed, passes⟩
  · rintro ⟨edge, listed, passes⟩
    exact ⟨(edge, ref.index), ⟨listed, passes⟩, rfl⟩

/-- A traversal that succeeds does so at every element. -/
theorem exists_of_mem_of_mapM_eq_ok {ε α β : Type} {f : α → Except ε β} {given : List α} {made : List β}
    (h : given.mapM f = .ok made) {a : α} (mem : a ∈ given) : ∃ b, f a = .ok b := by
  have pairs := forall₂_of_mapM_eq_ok h
  clear h
  induction pairs with
  | nil => cases mem
  | cons first _ ih =>
      rcases List.mem_cons.1 mem with rfl | later
      · exact ⟨_, first⟩
      · exact ih later

/-- A traversal that succeeds keeps the places of the elements. -/
theorem getElem?_mapM_iff {ε α β : Type} {f : α → Except ε β} {given : List α} {made : List β}
    (h : given.mapM f = .ok made) {index : Nat} {b : β} :
    made[index]? = some b ↔ ∃ a, given[index]? = some a ∧ f a = .ok b := by
  have pairs := forall₂_of_mapM_eq_ok h
  clear h
  induction pairs generalizing index with
  | nil => simp
  | @cons a c _ _ first _ ih =>
      cases index with
      | zero => simp [first]
      | succ index => exact ih

/-- The rows of the owners stand one after the other: each begins where the one before it ends. -/
def Consecutive {α : Type} (first size : α → Nat) : Nat → List α → Prop
  | _, [] => True
  | start, owner :: rest => first owner = start ∧ Consecutive first size (start + size owner) rest

section Consecutive

variable {ε α β : Type} {first size : α → Nat} {start : Nat} {owners : List α}

theorem Consecutive.le_first (consecutive : Consecutive first size start owners) {owner : α}
    (mem : owner ∈ owners) : start ≤ first owner := by
  induction owners generalizing start with
  | nil => cases mem
  | cons head rest ih =>
      rcases List.mem_cons.1 mem with rfl | later
      · exact Nat.le_of_eq consecutive.1.symm
      · exact Nat.le_trans (Nat.le_add_right _ _) (ih consecutive.2 later)

/-- Where rows stand one after the other, an element is found by the number of its row and its place in
the row. -/
theorem Consecutive.getElem?_flatten_iff (consecutive : Consecutive first size start owners)
    {f : α → Except ε (List β)} {rows : List (List β)} (made : owners.mapM f = .ok rows)
    (sized : ∀ owner row, f owner = .ok row → row.length = size owner) {place : Nat} {b : β} :
    rows.flatten[place]? = some b ↔
      ∃ owner ∈ owners, ∃ row index, f owner = .ok row ∧ row[index]? = some b ∧
        start + place = first owner + index := by
  induction owners generalizing start rows place with
  | nil =>
      cases made
      simp
  | cons head rest ih =>
      rw [List.mapM_cons] at made
      obtain ⟨row, here, made⟩ := exists_of_bind_eq_ok made
      obtain ⟨later, others, made⟩ := exists_of_bind_eq_ok made
      cases made
      have length := sized head row here
      obtain ⟨begins, consecutive⟩ := consecutive
      rw [List.flatten_cons, List.getElem?_append]
      by_cases early : place < row.length
      · rw [if_pos early]
        constructor
        · intro listed
          exact ⟨head, List.mem_cons_self .., row, place, here, listed, by rw [begins]⟩
        · rintro ⟨owner, mem, other, index, found, listed, same⟩
          rcases List.mem_cons.1 mem with rfl | mem
          · cases here.symm.trans found
            have moved : place = index := by omega
            rwa [moved]
          · have beyond := consecutive.le_first mem
            omega
      · rw [if_neg early, ih consecutive others]
        constructor
        · rintro ⟨owner, mem, other, index, found, listed, same⟩
          exact ⟨owner, List.mem_cons_of_mem _ mem, other, index, found, listed, by omega⟩
        · rintro ⟨owner, mem, other, index, found, listed, same⟩
          rcases List.mem_cons.1 mem with rfl | mem
          · cases here.symm.trans found
            have bound := (List.getElem?_eq_some_iff.1 listed).1
            omega
          · exact ⟨owner, mem, other, index, found, listed, by omega⟩

end Consecutive

namespace Placement

theorem consecutive_nodes (flow node edge : Nat) (flows : List FlowDecl) :
    Consecutive firstNode (fun p => p.flow.nodes.length) node (layout flow node edge flows) := by
  induction flows generalizing flow node edge with
  | nil => trivial
  | cons decl rest ih => exact ⟨rfl, ih _ _ _⟩

theorem consecutive_edges (flow node edge : Nat) (flows : List FlowDecl) :
    Consecutive firstEdge (fun p => p.flow.edges.length) edge (layout flow node edge flows) := by
  induction flows generalizing flow node edge with
  | nil => trivial
  | cons decl rest ih => exact ⟨rfl, ih _ _ _⟩

/-- The node that a declaration becomes at its place in a flow. -/
theorem getElem?_nodes_iff {placements : List Placement} {edges : List Edge} {p : Placement}
    {nodes : List Node} (made : p.nodes placements edges = .ok nodes) {index : Nat} {node : Node} :
    nodes[index]? = some node ↔
      ∃ decl kind, p.flow.nodes[index]? = some decl ∧ p.kind placements decl = .ok kind ∧
        node = ⟨p.ref, decl.name, kind,
          edgesWhere edges fun edge => edge.source = ⟨p.firstNode + index⟩,
          edgesWhere edges fun edge => edge.target = ⟨p.firstNode + index⟩⟩ := by
  rw [getElem?_mapM_iff made]
  constructor
  · rintro ⟨⟨decl, place⟩, listed, built⟩
    rw [List.getElem?_zipIdx, Option.map_eq_some_iff] at listed
    obtain ⟨_, listed, same⟩ := listed
    cases same
    obtain ⟨kind, resolved, built⟩ := exists_of_bind_eq_ok built
    refine ⟨decl, kind, listed, resolved, ?_⟩
    rw [Nat.zero_add] at built
    exact (Except.ok.inj built).symm
  · rintro ⟨decl, kind, listed, resolved, rfl⟩
    refine ⟨(decl, index), by simp [List.getElem?_zipIdx, listed], ?_⟩
    rw [resolved]
    rfl

theorem length_nodes {placements : List Placement} {edges : List Edge} {p : Placement}
    {nodes : List Node} (made : p.nodes placements edges = .ok nodes) :
    nodes.length = p.flow.nodes.length := by
  rw [← (forall₂_of_mapM_eq_ok made).length_eq, List.length_zipIdx]

/-- Which node of the chart each node of a placed flow becomes, and that the chart has no others. -/
theorem getElem?_layout_iff {placements : List Placement} {edges : List Edge} {flows : List FlowDecl}
    {flow node edge : Nat} {made : List (List Node)}
    (built : (layout flow node edge flows).mapM (Placement.nodes placements edges) = .ok made)
    {place : Nat} {found : Node} :
    made.flatten[place]? = some found ↔
      ∃ p ∈ layout flow node edge flows, ∃ index decl kind, node + place = p.firstNode + index ∧
        p.flow.nodes[index]? = some decl ∧ p.kind placements decl = .ok kind ∧
        found = ⟨p.ref, decl.name, kind,
          edgesWhere edges fun edge => edge.source = ⟨p.firstNode + index⟩,
          edgesWhere edges fun edge => edge.target = ⟨p.firstNode + index⟩⟩ := by
  rw [(consecutive_nodes flow node edge flows).getElem?_flatten_iff built fun _ _ => length_nodes]
  constructor
  · rintro ⟨p, mem, nodes, index, row, listed, numbered⟩
    obtain ⟨decl, kind, here, resolved, rfl⟩ := (getElem?_nodes_iff row).1 listed
    exact ⟨p, mem, index, decl, kind, numbered, here, resolved, rfl⟩
  · rintro ⟨p, mem, index, decl, kind, numbered, here, resolved, rfl⟩
    obtain ⟨nodes, row⟩ := exists_of_mem_of_mapM_eq_ok built mem
    exact ⟨p, mem, nodes, index, row,
      (getElem?_nodes_iff row).2 ⟨decl, kind, here, resolved, rfl⟩, numbered⟩

end Placement

namespace ChartDecl

/-- The chart of declarations that compile. -/
def chart (decl : ChartDecl) : Chart :=
  match decl.compile with
  | .ok chart => chart
  | .error _ => .empty

theorem compile_of_isOk (decl : ChartDecl) (fine : decl.compile.isOk = true) :
    decl.compile = .ok decl.chart := by
  unfold chart
  cases compiled : decl.compile with
  | ok chart => rfl
  | error flaw =>
      rw [compiled] at fine
      cases fine

variable {decl : ChartDecl} {chart : Chart}

/-- What a compilation that succeeds has gone through, and the chart that it has come to. -/
theorem exists_parts_of_compile (compiled : decl.compile = .ok chart) :
    ∃ edges nodes triggers, decl.check = .ok () ∧
      ((Placement.layout 0 0 0 decl.flows).mapM fun p => p.flow.edges.mapM p.edge) = .ok edges ∧
      (Placement.layout 0 0 0 decl.flows).mapM
        (Placement.nodes (Placement.layout 0 0 0 decl.flows) edges.flatten) = .ok nodes ∧
      decl.triggers.mapM (Placement.trigger (Placement.layout 0 0 0 decl.flows)) = .ok triggers ∧
      chart =
        ⟨(Placement.layout 0 0 0 decl.flows).map Placement.toFlow, nodes.flatten, edges.flatten,
          triggers, indexReaders triggers⟩ := by
  obtain ⟨u, checked, compiled⟩ := exists_of_bind_eq_ok compiled
  obtain ⟨edges, drawn, compiled⟩ := exists_of_bind_eq_ok compiled
  obtain ⟨nodes, laid, compiled⟩ := exists_of_bind_eq_ok compiled
  obtain ⟨triggers, aimed, compiled⟩ := exists_of_bind_eq_ok compiled
  cases compiled
  exact ⟨edges, nodes, triggers, checked, drawn, laid, aimed, rfl⟩

/-- The edges listed at a node are the ones that leave it, and those that enter it. -/
theorem edges_of_compile (compiled : decl.compile = .ok chart) {ref : NodeRef} {node : Node}
    (known : chart.node? ref = some node) :
    node.outgoing = edgesWhere chart.edges (fun edge => edge.source = ref) ∧
      node.incoming = edgesWhere chart.edges (fun edge => edge.target = ref) := by
  obtain ⟨edges, nodes, triggers, -, -, laid, -, rfl⟩ :=
    exists_parts_of_compile compiled
  obtain ⟨p, -, index, decl, kind, numbered, -, -, rfl⟩ := (Placement.getElem?_layout_iff laid).1 known
  have same : ref = ⟨p.firstNode + index⟩ := congrArg NodeRef.mk ((Nat.zero_add _).symm.trans numbered)
  rw [same]
  exact ⟨rfl, rfl⟩

theorem source_of_compile (compiled : decl.compile = .ok chart) {node : NodeRef} {ref : EdgeRef}
    {edge : Edge} (listed : ref ∈ chart.outgoing node) (known : chart.edge? ref = some edge) :
    edge.source = node := by
  cases found : chart.node? node with
  | none => simp [Chart.outgoing, found] at listed
  | some record =>
      rw [Chart.outgoing, found] at listed
      change ref ∈ record.outgoing at listed
      rw [(edges_of_compile compiled found).1, mem_edgesWhere] at listed
      obtain ⟨other, same, leaves⟩ := listed
      cases known.symm.trans same
      exact of_decide_eq_true leaves

/-- A chart without flows has no nodes. -/
theorem kind?_of_compile_of_isEmpty (compiled : decl.compile = .ok chart) (empty : chart.isEmpty = true)
    (node : NodeRef) : chart.kind? node = none := by
  obtain ⟨edges, nodes, triggers, -, -, laid, -, rfl⟩ :=
    exists_parts_of_compile compiled
  have bare : Placement.layout 0 0 0 decl.flows = [] := by
    simpa [Chart.isEmpty] using empty
  rw [bare] at laid
  cases laid
  rfl

end ChartDecl

end Flowchart
