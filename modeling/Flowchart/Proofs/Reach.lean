import Flowchart.Chart.Reach
import Flowchart.Proofs.Justification
import Flowchart.Proofs.Unrefused
import Mathlib.Data.List.TakeWhile

/-!
The search for reachable nodes. It finds nothing that the chart does not lead to, and since each round
visits one node more, it has no round too few to find all of that. The reachable nodes are listed in the
order of their numbers, so no other search of the graph comes to another list.
-/
namespace Flowchart

namespace Chart

variable {chart : Chart} {decl : ChartDecl} {source node origin : NodeRef}

theorem mem_members_iff : node ∈ chart.members ↔ (chart.node? node).isSome = true := by
  rw [members, Set.mem_ofPred_eq, kind?, Option.isSome_map]

theorem mem_successors_iff (compiled : decl.compile = .ok chart) :
    node ∈ chart.successors source ↔ chart.Leads source node := by
  rw [successors, List.mem_append, List.mem_filterMap]
  constructor
  · rintro (⟨ref, listed, found⟩ | called)
    · obtain ⟨edge, known, rfl⟩ := Option.map_eq_some_iff.1 found
      exact .edge known (ChartDecl.source_of_compile compiled listed known) rfl
    · split at called
      · rename_i calls
        rw [List.mem_singleton.1 called]
        exact .call calls
      · cases called
  · rintro (⟨known, rfl, rfl⟩ | calls)
    · rename_i ref edge
      have ends := (ChartDecl.ends_of_compile compiled known).1
      obtain ⟨record, found⟩ := Option.isSome_iff_exists.1 (mem_members_iff.1 ends)
      refine .inl ⟨ref, ?_, by rw [known, Option.map_some]⟩
      rw [outgoing, found, Option.map_some, Option.getD_some,
        (ChartDecl.edges_of_compile compiled found).1, mem_edgesWhere]
      exact ⟨edge, known, decide_eq_true rfl⟩
    · rw [calls]
      exact .inr (List.mem_singleton_self node)

/-- The chart leads to nodes of the chart alone. -/
theorem Leads.mem_members (compiled : decl.compile = .ok chart) (leads : chart.Leads source node) :
    node ∈ chart.members := by
  cases leads with
  | edge known leaves enters => exact enters ▸ (ChartDecl.ends_of_compile compiled known).2
  | call calls => exact mem_members_of_kind? (ChartDecl.called_of_compile compiled calls)

theorem mem_nodeRefs_iff : node ∈ chart.nodeRefs ↔ node ∈ chart.members := by
  rw [mem_members_iff, node?, nodeRefs, List.mem_map]
  constructor
  · rintro ⟨index, mem, rfl⟩
    rw [List.getElem?_eq_getElem (List.mem_range.1 mem)]
    rfl
  · intro known
    have bound : node.index < chart.nodes.length := by
      by_contra beyond
      rw [List.getElem?_eq_none (Nat.le_of_not_lt beyond)] at known
      cases known
    exact ⟨node.index, List.mem_range.2 bound, rfl⟩

/-- The nodes of the chart that a search has not visited yet. -/
def unvisited (chart : Chart) (visited : List NodeRef) : Set NodeRef :=
  {node | node ∈ chart.members ∧ node ∉ visited}

theorem finite_unvisited (chart : Chart) (visited : List NodeRef) : (chart.unvisited visited).Finite :=
  (ncard_le_of_members fun _ mem => mem.1).1

theorem ncard_unvisited_lt {visited : List NodeRef} (known : node ∈ chart.members)
    (new : node ∉ visited) :
    (chart.unvisited (node :: visited)).ncard < (chart.unvisited visited).ncard := by
  refine Set.ncard_lt_ncard ⟨fun other mem => ?_, fun all => ?_⟩ (chart.finite_unvisited visited)
  · exact ⟨mem.1, fun old => mem.2 (List.mem_cons_of_mem node old)⟩
  · exact (all ⟨known, new⟩).2 (List.mem_cons_self ..)

/-- The next node to be visited is the first on the stack that was not visited before. -/
theorem exists_of_dropWhile {stack visited : List NodeRef} {ref : NodeRef} {rest : List NodeRef}
    (next : (stack.dropWhile fun ref => ref ∈ visited) = ref :: rest) :
    ref ∉ visited ∧ ref ∈ stack ∧ (∀ other ∈ rest, other ∈ stack) ∧
      ∀ other ∈ stack, other ∈ visited ∨ other = ref ∨ other ∈ rest := by
  have split := List.takeWhile_append_dropWhile (p := fun ref => decide (ref ∈ visited)) (l := stack)
  rw [next] at split
  have within : ∀ other ∈ ref :: rest, other ∈ stack :=
    fun other mem => split ▸ List.mem_append_right _ mem
  refine ⟨?_, within ref (List.mem_cons_self ..),
    fun other mem => within other (List.mem_cons_of_mem ref mem), fun other mem => ?_⟩
  · have new := List.head_dropWhile_not (fun ref => decide (ref ∈ visited)) (by rw [next]; simp)
    simpa [next] using new
  · rw [← split, List.mem_append, List.mem_cons] at mem
    rcases mem with early | late
    · have old := List.mem_takeWhile_imp early
      exact .inl (of_decide_eq_true old)
    · exact .inr late

/-- A search visits nothing but what the stack leads to. -/
theorem leads_of_mem_explore (compiled : decl.compile = .ok chart) {rounds : Nat}
    {stack visited : List NodeRef} (found : node ∈ chart.explore rounds stack visited) :
    node ∈ visited ∨ ∃ start ∈ stack, Relation.ReflTransGen chart.Leads start node := by
  induction rounds generalizing stack visited with
  | zero => exact .inl found
  | succ rounds ih =>
      rw [explore] at found
      split at found
      · exact .inl found
      · rename_i ref rest next
        obtain ⟨-, here, within, -⟩ := exists_of_dropWhile next
        rcases ih found with old | ⟨start, mem, path⟩
        · rcases List.mem_cons.1 old with rfl | old
          · exact .inr ⟨node, here, .refl⟩
          · exact .inl old
        · rcases List.mem_append.1 mem with ahead | later
          · exact .inr ⟨ref, here, .head ((mem_successors_iff compiled).1 ahead) path⟩
          · exact .inr ⟨start, within start later, path⟩

/-- What a search has met, visited or on the stack, it has met after its next visit. -/
theorem covered_of_dropWhile {stack visited : List NodeRef} {ref : NodeRef} {rest : List NodeRef}
    (next : (stack.dropWhile fun ref => ref ∈ visited) = ref :: rest) (found : List NodeRef)
    {other : NodeRef} (met : other ∈ visited ∨ other ∈ stack) :
    other ∈ ref :: visited ∨ other ∈ found ++ rest := by
  obtain ⟨-, -, -, split⟩ := exists_of_dropWhile next
  rcases met with old | stacked
  · exact .inl (List.mem_cons_of_mem ref old)
  · rcases split other stacked with old | rfl | later
    · exact .inl (List.mem_cons_of_mem ref old)
    · exact .inl (List.mem_cons_self ..)
    · exact .inr (List.mem_append_right found later)

/-- A search under way: the stack is of the chart, and whatever a visited node leads to was met. -/
structure Searching (chart : Chart) (stack visited : List NodeRef) : Prop where
  known : ∀ ref ∈ stack, ref ∈ chart.members
  met : ∀ ref ∈ visited, ∀ next, chart.Leads ref next → next ∈ visited ∨ next ∈ stack

theorem Searching.visit {stack visited : List NodeRef} {ref : NodeRef} {rest : List NodeRef}
    (searching : chart.Searching stack visited) (compiled : decl.compile = .ok chart)
    (next : (stack.dropWhile fun ref => ref ∈ visited) = ref :: rest) :
    chart.Searching (chart.successors ref ++ rest) (ref :: visited) := by
  obtain ⟨-, -, within, -⟩ := exists_of_dropWhile next
  constructor
  · intro other mem
    rcases List.mem_append.1 mem with one | later
    · exact ((mem_successors_iff compiled).1 one).mem_members compiled
    · exact searching.known other (within other later)
  · intro other mem onward leads
    rcases List.mem_cons.1 mem with rfl | old
    · exact .inr (List.mem_append_left _ ((mem_successors_iff compiled).2 leads))
    · exact covered_of_dropWhile next _ (searching.met other old onward leads)

/-- With as many rounds as there are nodes left, a search ends with the stack visited and all that it
leads to. -/
theorem explore_closed (compiled : decl.compile = .ok chart) {rounds : Nat}
    {stack visited : List NodeRef} (searching : chart.Searching stack visited)
    (enough : (chart.unvisited visited).ncard ≤ rounds) :
    (∀ ref, ref ∈ visited ∨ ref ∈ stack → ref ∈ chart.explore rounds stack visited) ∧
      ∀ ref ∈ chart.explore rounds stack visited, ∀ next, chart.Leads ref next →
        next ∈ chart.explore rounds stack visited := by
  induction rounds generalizing stack visited with
  | zero =>
      have none : chart.unvisited visited = ∅ :=
        (Set.ncard_eq_zero (chart.finite_unvisited visited)).1 (Nat.le_zero.1 enough)
      have whole : ∀ ref ∈ chart.members, ref ∈ visited := by
        intro ref mem
        by_contra new
        exact Set.notMem_empty ref (none ▸ ⟨mem, new⟩)
      refine ⟨fun ref mem => mem.elim id fun stacked => whole ref (searching.known ref stacked), ?_⟩
      exact fun ref _ next leads => whole next (leads.mem_members compiled)
  | succ rounds ih =>
      rw [explore]
      split
      · rename_i empty
        have done : ∀ ref ∈ stack, ref ∈ visited := by simpa using List.dropWhile_eq_nil_iff.1 empty
        refine ⟨fun ref mem => mem.elim id (done ref), fun ref mem next leads => ?_⟩
        exact (searching.met ref mem next leads).elim id (done next)
      · rename_i ref rest next
        obtain ⟨new, here, -, -⟩ := exists_of_dropWhile next
        have fewer := ncard_unvisited_lt (searching.known ref here) new
        obtain ⟨found, closed⟩ := ih (searching.visit compiled next) (by omega)
        exact ⟨fun other mem => found other (covered_of_dropWhile next _ mem), closed⟩

/-- A search from a node of the chart visits the nodes that the chart leads to from there, in any number
of steps. -/
theorem mem_explore_iff (compiled : decl.compile = .ok chart) (known : origin ∈ chart.members) :
    node ∈ chart.explore chart.nodes.length [origin] [] ↔
      Relation.ReflTransGen chart.Leads origin node := by
  have enough : (chart.unvisited []).ncard ≤ chart.nodes.length :=
    (ncard_le_of_members fun _ mem => mem.1).2
  have searching : chart.Searching [origin] [] := by
    refine ⟨?_, fun _ old => absurd old List.not_mem_nil⟩
    simpa using known
  obtain ⟨found, closed⟩ := explore_closed compiled searching enough
  constructor
  · intro visited
    rcases leads_of_mem_explore compiled visited with old | ⟨start, mem, path⟩
    · cases old
    · exact List.mem_singleton.1 mem ▸ path
  · intro path
    induction path with
    | refl => exact found origin (.inr (List.mem_singleton_self _))
    | tail _ leads ih => exact closed _ ih _ leads

theorem reachable_of_not_mem (unknown : origin ∉ chart.members) : chart.reachable origin = [] :=
  if_neg fun known => unknown (mem_members_iff.2 known)

/-- The reachable nodes are those that the chart leads to from the origin, in any number of steps. -/
theorem mem_reachable_iff (compiled : decl.compile = .ok chart) :
    node ∈ chart.reachable origin ↔
      origin ∈ chart.members ∧ Relation.ReflTransGen chart.Leads origin node := by
  by_cases known : origin ∈ chart.members
  · rw [reachable, if_pos (mem_members_iff.1 known), List.mem_filter, decide_eq_true_eq,
      mem_explore_iff compiled known, mem_nodeRefs_iff, and_congr_left_iff]
    intro path
    refine iff_of_true ?_ known
    cases path with
    | refl => exact known
    | tail _ leads => exact leads.mem_members compiled
  · rw [reachable_of_not_mem known]
    exact ⟨fun mem => (nomatch mem), fun path => absurd path.1 known⟩

theorem pairwise_nodeRefs (chart : Chart) :
    chart.nodeRefs.Pairwise fun first second => first.index < second.index :=
  List.pairwise_map.2 List.pairwise_lt_range

theorem pairwise_reachable (chart : Chart) (origin : NodeRef) :
    (chart.reachable origin).Pairwise fun first second => first.index < second.index := by
  rw [reachable]
  split
  · exact chart.pairwise_nodeRefs.filter _
  · exact .nil

/-- Nodes that were met in any order, each once, are listed as reachable if they are sorted. -/
theorem mergeSort_eq_reachable {visits : List NodeRef} (once : visits.Nodup)
    (same : ∀ node, node ∈ visits ↔ node ∈ chart.reachable origin) :
    (visits.mergeSort fun first second => first.index ≤ second.index) = chart.reachable origin := by
  have ascends := chart.pairwise_reachable origin
  have distinct : (chart.reachable origin).Nodup := by
    apply ascends.imp
    intro first second below equal
    exact Nat.ne_of_lt below (congrArg NodeRef.index equal)
  have sorted : (visits.mergeSort fun first second => decide (first.index ≤ second.index)).Pairwise
      fun first second => first.index ≤ second.index := by
    have sorts := @List.pairwise_mergeSort _
      (fun first second : NodeRef => decide (first.index ≤ second.index))
      (fun _ _ _ => by simpa using Nat.le_trans) (fun _ _ => by simpa using Nat.le_total _ _) visits
    simpa using sorts
  apply List.Perm.eq_of_pairwise _ sorted (ascends.imp Nat.le_of_lt)
  · apply (List.mergeSort_perm visits _).trans
    exact (List.perm_ext_iff_of_nodup once distinct).2 same
  · rintro ⟨first⟩ ⟨second⟩ - - below above
    exact congrArg NodeRef.mk (Nat.le_antisymm below above)

/-- The graph of a chart, told without the edges listed at its nodes: an arc for every edge, then one for
every call. -/
def arcs (chart : Chart) : List (NodeRef × NodeRef) :=
  chart.edges.map (fun edge => (edge.source, edge.target)) ++
    chart.nodeRefs.filterMap fun ref =>
      match chart.kind? ref with
      | some (.composed called) => some (ref, called)
      | _ => none

theorem mem_arcs_iff : (source, node) ∈ chart.arcs ↔ chart.Leads source node := by
  rw [arcs, List.mem_append, List.mem_map, List.mem_filterMap]
  constructor
  · rintro (⟨edge, listed, ends⟩ | ⟨ref, listed, called⟩)
    · obtain ⟨index, numbered⟩ := List.mem_iff_getElem?.1 listed
      have known : chart.edge? ⟨index⟩ = some edge := numbered
      obtain ⟨leaves, enters⟩ := Prod.mk.injEq .. ▸ ends
      exact .edge known leaves enters
    · split at called
      · rename_i calls
        cases called
        exact .call calls
      · cases called
  · rintro (⟨known, rfl, rfl⟩ | calls)
    · exact .inl ⟨_, List.mem_of_getElem? known, rfl⟩
    · exact .inr ⟨source, mem_nodeRefs_iff.2 (mem_members_of_kind? calls), by rw [calls]⟩

/-- The reachable nodes are listed in ascending order, and they are those that a path of edges and calls
leads to from the origin, be it empty; from what is not a node of the chart nothing is reachable. A search
of the graph that meets just these nodes, each once, comes to the same list in whatever order it meets
them. -/
theorem reachable_closure (compiled : decl.compile = .ok chart) (origin : NodeRef) :
    (chart.node? origin = none → chart.reachable origin = []) ∧
    ((chart.node? origin).isSome = true →
      ((chart.reachable origin).Pairwise fun first second => first.index < second.index) ∧
      (∀ node, node ∈ chart.reachable origin ↔ Relation.ReflTransGen chart.Leads origin node) ∧
      ∀ visits : List NodeRef, visits.Nodup →
        (∀ node, node ∈ visits ↔
          Relation.ReflTransGen (fun source target => (source, target) ∈ chart.arcs) origin node) →
        (visits.mergeSort fun first second => first.index ≤ second.index) = chart.reachable origin) := by
  constructor
  · intro unknown
    apply reachable_of_not_mem
    simp [mem_members_iff, unknown]
  · intro known
    have mem : origin ∈ chart.members := mem_members_iff.2 known
    have exact (node : NodeRef) :
        node ∈ chart.reachable origin ↔ Relation.ReflTransGen chart.Leads origin node := by
      rw [mem_reachable_iff compiled, and_iff_right mem]
    refine ⟨chart.pairwise_reachable origin, exact, fun visits once met => ?_⟩
    apply mergeSort_eq_reachable once
    intro node
    simp only [met, mem_arcs_iff, exact]

end Chart

/-- Two edges side by side, a loop, a way back, and two flows that call each other; one node is left
aside. -/
def mazeDecl : ChartDecl :=
  ⟨[((FlowDecl.named "Main").addStart "S" |>.addAction "A" .noop |>.addComposed "C" "Sub" "T"
        |>.addSnapshot "Aside")
      |>.addEdge "S" "A" none |>.addEdge "S" "A" (some (.known "p")) |>.addEdge "A" "A" none
      |>.addEdge "A" "S" none |>.addEdge "A" "C" none |>.addEdge "Aside" "A" none,
    ((FlowDecl.named "Sub").addStart "T" |>.addComposed "D" "Main" "S") |>.addEdge "T" "D" none], []⟩

theorem reachable_closure_maze :
    mazeDecl.chart.reachable ⟨4⟩ = [⟨0⟩, ⟨1⟩, ⟨2⟩, ⟨4⟩, ⟨5⟩] ∧
      (∀ node, node ∈ mazeDecl.chart.reachable ⟨4⟩ ↔
        Relation.ReflTransGen mazeDecl.chart.Leads ⟨4⟩ node) ∧
      ([⟨4⟩, ⟨5⟩, ⟨0⟩, ⟨1⟩, ⟨2⟩] : List NodeRef).mergeSort (fun first second =>
        first.index ≤ second.index) = mazeDecl.chart.reachable ⟨4⟩ ∧
      mazeDecl.chart.reachable ⟨6⟩ = [] := by
  have compiled : mazeDecl.compile = .ok mazeDecl.chart := mazeDecl.compile_of_isOk (by decide +kernel)
  have listed : mazeDecl.chart.reachable ⟨4⟩ = [⟨0⟩, ⟨1⟩, ⟨2⟩, ⟨4⟩, ⟨5⟩] := by decide +kernel
  obtain ⟨-, exact, sorts⟩ := (Chart.reachable_closure compiled ⟨4⟩).2 (by decide +kernel)
  refine ⟨listed, exact, sorts _ (by decide) fun node => ?_,
    (Chart.reachable_closure compiled ⟨6⟩).1 (by decide +kernel)⟩
  simp only [Chart.mem_arcs_iff]
  rw [← exact node, listed]
  simp only [List.mem_cons, List.not_mem_nil, or_false]
  tauto

end Flowchart
