import Flowchart.Session
import Flowchart.Proofs.Activation

/-!
The strands of a session after a write, told by the entries of each strand and by the nodes of all
entries together; and all its supports in one list.
-/
namespace Flowchart.Session

variable {σ : Type}

/-- The nodes of all entries, strand by strand. -/
def nodes (session : Session σ) : List NodeRef := session.strands.items.flatMap Strand.nodes

theorem mem_nodes {session : Session σ} {node : NodeRef} :
    node ∈ session.nodes ↔ ∃ strand ∈ session.strands.items, node ∈ strand.nodes := List.mem_flatMap

theorem entries_eq_iff_of_mem {session : Session σ} {strand : Strand}
    (live : strand ∈ session.strands.items) : session.entries strand.id = strand.entries := by
  have found : session.strands.get? strand.id = some strand := Roster.get?_eq_some_iff.2 ⟨live, rfl⟩
  simp [entries, found]

theorem exists_strand_of_mem_entries {session : Session σ} {id : StrandId} {entry : Entry}
    (entered : entry ∈ session.entries id) :
    ∃ strand ∈ session.strands.items, strand.id = id ∧ entry ∈ strand.entries := by
  unfold entries at entered
  cases found : session.strands.get? id with
  | none => simp [found] at entered
  | some strand =>
      rw [found] at entered
      obtain ⟨listed, same⟩ := Roster.get?_eq_some found
      exact ⟨strand, listed, same, entered⟩

theorem mem_nodes_of_mem_entries {session : Session σ} {id : StrandId} {entry : Entry}
    (entered : entry ∈ session.entries id) : entry.node ∈ session.nodes := by
  obtain ⟨strand, listed, -, here⟩ := exists_strand_of_mem_entries entered
  exact mem_nodes.2 ⟨strand, listed, List.mem_map_of_mem here⟩

theorem entries_putStrand (session : Session σ) (strand : Strand) (id : StrandId) :
    (session.putStrand strand).entries id =
      if strand.id = id then strand.entries else session.entries id := by
  by_cases same : strand.id = id
  · subst same
    simp [entries, putStrand]
  · simp [entries, putStrand, Roster.get?_insert_of_ne same, same]

/-- The nodes of all entries, with those of a strand exchanged. -/
theorem count_nodes_putStrand (session : Session σ) (strand : Strand) (node : NodeRef) :
    (session.putStrand strand).nodes.count node + ((session.entries strand.id).map Entry.node).count node =
      session.nodes.count node + strand.nodes.count node := by
  cases found : session.strands.get? strand.id with
  | none =>
      have after := Roster.items_insert_of_fresh found
      simp [entries, found, nodes, putStrand, after]
  | some old =>
      obtain ⟨before, rest, was, now⟩ := Roster.items_insert_of_get? found
      simp only [entries, found, nodes, putStrand, was, now, List.flatMap_append, List.flatMap_cons,
        List.count_append, Option.map_some, Option.getD_some]
      simp only [Strand.nodes]
      omega

theorem count_nodes_dropStrand (session : Session σ) (id : StrandId) (node : NodeRef) :
    (session.dropStrand id).nodes.count node + ((session.entries id).map Entry.node).count node =
      session.nodes.count node := by
  cases found : session.strands.get? id with
  | none =>
      have absent := Roster.get?_eq_none_iff.1 found
      have same : (session.strands.erase id).items = session.strands.items := by
        refine List.filter_eq_self.2 fun strand live => ?_
        simpa using fun hit => absent (List.mem_map.2 ⟨strand, live, hit⟩)
      simp [entries, found, nodes, dropStrand, same]
  | some old =>
      obtain ⟨before, rest, was, now⟩ := Roster.items_erase_of_get? found
      simp only [entries, found, nodes, dropStrand, was, now, List.flatMap_append, List.flatMap_cons,
        List.count_append, Option.map_some, Option.getD_some]
      simp only [Strand.nodes]
      omega

theorem keys_putStrand_of_live {session : Session σ} {strand : Strand}
    (live : session.strands.contains strand.id = true) :
    (session.putStrand strand).strands.keys = session.strands.keys := by
  rw [putStrand, Roster.keys_insert, if_pos (Roster.contains_iff.1 live)]

/-- The supports in the session, each with its node. -/
def holdings (session : Session σ) : List (NodeRef × Support) :=
  session.activation.items.flatMap fun row => row.2.items.map (Prod.mk row.1)

theorem mem_holdings {session : Session σ} {node : NodeRef} {support : Support}
    (mem : support ∈ (session.activation.supports node).items) : (node, support) ∈ session.holdings := by
  obtain ⟨held, listed, here⟩ := Activation.exists_listed_of_mem mem
  exact List.mem_flatMap.2 ⟨(node, held), listed, List.mem_map_of_mem here⟩

theorem mem_of_mem_holdings {session : Session σ} {held : NodeRef × Support}
    (mem : held ∈ session.holdings) : held.2 ∈ (session.activation.supports held.1).items := by
  obtain ⟨⟨node, supports⟩, listed, mem⟩ := List.mem_flatMap.1 mem
  obtain ⟨support, here, rfl⟩ := List.mem_map.1 mem
  have known : session.activation.supports node = supports := by
    rw [Activation.supports, Listing.at?_eq_some_iff.2 listed, Option.getD_some]
  exact known ▸ here

/-- No support is listed twice at one node. -/
theorem nodup_holdings (session : Session σ) : session.holdings.Nodup := by
  refine List.nodup_flatMap.2 ⟨fun row _ => ?_, ?_⟩
  · exact row.2.distinct.of_map.map fun _ _ same => (Prod.mk.inj same).2
  · refine (List.pairwise_map.1 session.activation.distinct).imp ?_
    intro row later apart held here there
    obtain ⟨first, -, rfl⟩ := List.mem_map.1 here
    obtain ⟨second, -, same⟩ := List.mem_map.1 there
    exact apart (Prod.mk.inj same).1.symm

end Flowchart.Session
