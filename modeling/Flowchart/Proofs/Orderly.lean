import Flowchart.Proofs.Run

/-!
The order that every run keeps among the strands of a session: their numbers ascend and were given
out, no strand is empty, the engine has what their nodes take, and every active node has an entry. The
last of these is what makes a sweep of the strands a sweep of the whole table.
-/
namespace Flowchart

variable {σ : Type} {engine : Engine σ} {grants : Grants σ}

namespace Session

variable {session : Session σ}

/-- A strand with a new number is listed last. -/
theorem items_openStrand (new : session.strands.get? ⟨session.strandCount + 1⟩ = none)
    (node : NodeRef) (kind : NodeKind) (support : Support) :
    (session.openStrand node kind support).strands.items =
      session.strands.items ++ [⟨⟨session.strandCount + 1⟩, [⟨node, support⟩]⟩] := by
  obtain ⟨snapshots, opened⟩ := session.openStrand_eq node kind support
  rw [opened]
  exact Roster.items_insert_of_fresh new

theorem keys_openStrand (new : session.strands.get? ⟨session.strandCount + 1⟩ = none)
    (node : NodeRef) (kind : NodeKind) (support : Support) :
    (session.openStrand node kind support).strands.keys =
      session.strands.keys ++ [⟨session.strandCount + 1⟩] := by
  rw [Roster.keys, items_openStrand new, List.map_append]
  rfl

theorem nodes_openStrand (new : session.strands.get? ⟨session.strandCount + 1⟩ = none)
    (node : NodeRef) (kind : NodeKind) (support : Support) :
    (session.openStrand node kind support).nodes = session.nodes ++ [node] := by
  rw [Session.nodes, items_openStrand new, List.flatMap_append]
  rfl

theorem strandCount_openStrand (session : Session σ) (node : NodeRef) (kind : NodeKind)
    (support : Support) :
    (session.openStrand node kind support).strandCount = session.strandCount + 1 := by
  obtain ⟨snapshots, opened⟩ := session.openStrand_eq node kind support
  rw [opened]

theorem activation_openStrand (session : Session σ) (node : NodeRef) (kind : NodeKind)
    (support : Support) :
    (session.openStrand node kind support).activation = session.activation := by
  obtain ⟨snapshots, opened⟩ := session.openStrand_eq node kind support
  rw [opened]

theorem isActive_addSupport (session : Session σ) (node other : NodeRef) (support : Support) :
    (session.addSupport node support).isActive other =
      (decide (node = other) || session.isActive other) :=
  Activation.isActive_add session.activation node other support

end Session

/-- Nothing was opened, and nothing was supported. -/
structure Session.Fades (session after : Session σ) : Prop where
  strands : after.strands = session.strands
  count : after.strandCount = session.strandCount
  below : after.activation.Below session.activation

namespace Session.Fades

variable {session between after : Session σ}

theorem refl (session : Session σ) : session.Fades session := ⟨rfl, rfl, fun _ _ mem => mem⟩

theorem trans (first : session.Fades between) (second : between.Fades after) : session.Fades after :=
  ⟨second.strands.trans first.strands, second.count.trans first.count,
    fun node support mem => first.below node support (second.below node support mem)⟩

theorem active (fades : session.Fades after) (node : NodeRef) (active : after.isActive node = true) :
    session.isActive node = true := Activation.isActive_mono (fades.below node) active

theorem leaveFootprint (fades : session.Fades after) (footprint : Footprint) :
    session.Fades (after.leaveFootprint footprint) := ⟨fades.strands, fades.count, fades.below⟩

theorem swept (session : Session σ) (chart : Chart) (id : StrandId) :
    session.Fades (session.swept chart id) :=
  ⟨rfl, rfl, fun _ _ mem => mem_of_mem_sweepEntries mem⟩

theorem removeSupport (session : Session σ) (node : NodeRef) (id : SupportId) :
    session.Fades (session.removeSupport node id) :=
  ⟨rfl, rfl, fun _ _ mem => (Activation.mem_remove.1 mem).1⟩

theorem endCall (session : Session σ) (composed : NodeRef) : session.Fades (session.endCall composed) := by
  unfold Session.endCall
  split
  · exact .refl session
  · exact ⟨rfl, rfl, fun _ _ mem => (Activation.mem_remove.1 mem).1⟩

theorem unassign (session : Session σ) (node : NodeRef) (fact : String) :
    session.Fades (session.unassign node fact) := by
  unfold Session.unassign
  split
  · exact .refl session
  · exact ⟨rfl, rfl, fun _ _ mem => mem⟩

theorem nodes (fades : session.Fades after) : after.nodes = session.nodes := by
  rw [Session.nodes, Session.nodes, fades.strands]

theorem entries (fades : session.Fades after) (id : StrandId) : after.entries id = session.entries id := by
  rw [Session.entries, Session.entries, fades.strands]

end Session.Fades

theorem Reverts.fades {node : NodeRef} {session after : Session σ}
    (reverts : Reverts engine node session after) : session.Fades after := by
  cases reverts with
  | started | idled => exact .refl session
  | reached => exact ⟨rfl, rfl, fun _ _ mem => mem⟩
  | assigned => exact .unassign session node _
  | invoked reacts =>
      obtain ⟨facts, host, rfl⟩ := reacts.exists_eq
      exact ⟨rfl, rfl, fun _ _ mem => mem⟩
  | called => exact .endCall session node

/-- Reverting a node neither adds to the trail nor counts a support. -/
theorem Reverts.leaves {node : NodeRef} {session after : Session σ}
    (reverts : Reverts engine node session after) :
    after.trail = session.trail ∧ after.supportCount = session.supportCount := by
  cases reverts with
  | started | idled | reached => exact ⟨rfl, rfl⟩
  | assigned =>
      unfold Session.unassign
      split <;> exact ⟨rfl, rfl⟩
  | invoked reacts =>
      obtain ⟨facts, host, rfl⟩ := reacts.exists_eq
      exact ⟨rfl, rfl⟩
  | called =>
      unfold Session.endCall
      split <;> exact ⟨rfl, rfl⟩

/-- A refused deed leaves at most changes of the facts, of the host state and of the support count. -/
theorem Refuses.exists_eq {node : NodeRef} {deed : Deed} {session after : Session σ}
    (refuses : Refuses engine node deed session after) :
    ∃ facts host count, after = { session with facts := facts, host := host, supportCount := count } := by
  cases refuses with
  | unserved => exact ⟨_, _, _, rfl⟩
  | uncalled => exact ⟨_, _, _, rfl⟩
  | failed reacts =>
      obtain ⟨facts, host, rfl⟩ := reacts.exists_eq
      exact ⟨facts, host, _, rfl⟩

theorem Refuses.fades {node : NodeRef} {deed : Deed} {session after : Session σ}
    (refuses : Refuses engine node deed session after) : session.Fades after := by
  obtain ⟨facts, host, count, rfl⟩ := refuses.exists_eq
  exact ⟨rfl, rfl, fun _ _ mem => mem⟩

theorem Engine.serves_of_isOrigin {node : NodeRef} {kind : NodeKind}
    (known : engine.chart.kind? node = some kind) (fit : kind.isOrigin = true) :
    engine.serves node = true := by
  cases kind <;> simp_all [serves, NodeKind.isOrigin]

theorem Performs.serves {node : NodeRef} {session after : Session σ}
    (performs : Performs engine node session after) : engine.serves node = true := by
  cases performs with
  | started kind | idled kind | reached kind | assigned kind => simp [Engine.serves, kind]
  | invoked reacts =>
      generalize (none : Option ActionFailure) = failure at reacts
      cases reacts with
      | handled invokes registered known => simp [Engine.serves, invokes, registered]
  | called kind known fit => simp [Engine.serves, kind, known, fit]

/-- The order among strands that also holds while one of them is being collapsed. -/
structure Session.Tracked (engine : Engine σ) (session : Session σ) : Prop where
  ascending : session.strands.keys.Pairwise fun a b => a.number < b.number
  numbered : ∀ id ∈ session.strands.keys, id.number ≤ session.strandCount
  served : ∀ node ∈ session.nodes, engine.serves node = true
  covered : ∀ node, session.isActive node = true → node ∈ session.nodes

/-- The order among the strands of a session. -/
structure Session.Orderly (engine : Engine σ) (session : Session σ) : Prop
    extends session.Tracked engine where
  filled : ∀ strand ∈ session.strands.items, strand.entries ≠ []

namespace Session.Tracked

variable {session after : Session σ}

theorem fade (inv : session.Tracked engine) (fades : session.Fades after) : after.Tracked engine where
  ascending := fades.strands ▸ inv.ascending
  numbered id live := by
    rw [fades.count]
    exact inv.numbered id (fades.strands ▸ live)
  served node mem := inv.served node (fades.nodes ▸ mem)
  covered node active := by
    rw [fades.nodes]
    exact inv.covered node (fades.active node active)

/-- The number of the next strand is new. -/
theorem fresh (inv : session.Tracked engine) :
    session.strands.get? ⟨session.strandCount + 1⟩ = none := by
  refine Roster.get?_eq_none_iff.2 fun live => ?_
  have bound := inv.numbered _ live
  exact Nat.not_succ_le_self _ bound

theorem addSupport (inv : session.Tracked engine) {node : NodeRef} (mem : node ∈ session.nodes)
    (support : Support) : (session.addSupport node support).Tracked engine where
  ascending := inv.ascending
  numbered := inv.numbered
  served := inv.served
  covered other active := by
    rw [Session.isActive_addSupport, Bool.or_eq_true, decide_eq_true_eq] at active
    rcases active with rfl | old
    · exact mem
    · exact inv.covered other old

end Session.Tracked

theorem Engine.live_of_nextEdge? {id : StrandId} {session : Session σ} {ref : EdgeRef} {edge : Edge}
    (next : engine.nextEdge? session id = some (ref, edge)) : session.strands.contains id = true := by
  obtain ⟨strand, -, found, -⟩ := engine.nextEdge?_eq_some next
  rw [Roster.contains_eq_isSome, found, Option.isSome_some]

theorem Session.count_nodes_joining (session : Session σ) (id : StrandId) (ref : EdgeRef)
    (target node : NodeRef) :
    (session.joining id ref target).nodes.count node =
      session.nodes.count node + if target = node then 1 else 0 := by
  have exchanged := Session.count_nodes_putStrand
    (session.countSupport.addSupport target (session.nextSupport (.edge ref)))
    ⟨id, session.entries id ++ [⟨target, session.nextSupport (.edge ref)⟩]⟩ node
  have listed : Strand.nodes ⟨id, session.entries id ++ [⟨target, session.nextSupport (.edge ref)⟩]⟩ =
      (session.entries id).map Entry.node ++ [target] := by simp [Strand.nodes]
  rw [listed, List.count_append, List.count_singleton] at exchanged
  change (session.joining id ref target).nodes.count node +
    ((session.entries id).map Entry.node).count node = session.nodes.count node + _ at exchanged
  simp only [beq_iff_eq] at exchanged
  omega

theorem Session.mem_nodes_joining {session : Session σ} {id : StrandId} {ref : EdgeRef}
    {target node : NodeRef} :
    node ∈ (session.joining id ref target).nodes ↔ node ∈ session.nodes ∨ target = node := by
  have counted := session.count_nodes_joining id ref target node
  rw [← List.count_pos_iff, ← List.count_pos_iff, counted]
  split <;> simp_all

theorem Session.isActive_joining (session : Session σ) (id : StrandId) (ref : EdgeRef)
    (target node : NodeRef) :
    (session.joining id ref target).isActive node =
      (decide (target = node) || session.isActive node) :=
  Activation.isActive_add session.activation target node (session.nextSupport (.edge ref))

namespace Session.Orderly

variable {session : Session σ}

theorem fade {after : Session σ} (inv : session.Orderly engine) (fades : session.Fades after) :
    after.Orderly engine :=
  { inv.toTracked.fade fades with
    filled := fun strand live => inv.filled strand (fades.strands ▸ live) }

theorem fresh (engine : Engine σ) (facts : Facts) (host : σ) :
    (Session.fresh facts host).Orderly engine where
  ascending := .nil
  numbered _ live := nomatch live
  served _ mem := nomatch mem
  covered _ active := nomatch active
  filled _ live := nomatch live

theorem addSupport (inv : session.Orderly engine) {node : NodeRef} (mem : node ∈ session.nodes)
    (support : Support) : (session.addSupport node support).Orderly engine :=
  { inv.toTracked.addSupport mem support with filled := inv.filled }

/-- A strand opened at an origin covers the support that the origin got with it. -/
theorem openStrand (inv : session.Orderly engine) {node : NodeRef} {kind : NodeKind}
    (known : engine.chart.kind? node = some kind) (fit : kind.isOrigin = true) (support : Support) :
    ((session.addSupport node support).openStrand node kind support).Orderly engine := by
  have new : (session.addSupport node support).strands.get?
      ⟨(session.addSupport node support).strandCount + 1⟩ = none := inv.toTracked.fresh
  constructor
  · constructor
    · rw [Session.keys_openStrand new, List.pairwise_append]
      refine ⟨inv.ascending, List.pairwise_singleton _ _, fun id live last here => ?_⟩
      rw [List.mem_singleton.1 here]
      exact Nat.lt_succ_of_le (inv.numbered id live)
    · rw [Session.keys_openStrand new, Session.strandCount_openStrand]
      intro id live
      rcases List.mem_append.1 live with old | here
      · exact Nat.le_succ_of_le (inv.numbered id old)
      · exact (List.mem_singleton.1 here) ▸ Nat.le_refl _
    · rw [Session.nodes_openStrand new]
      intro other mem
      rcases List.mem_append.1 mem with old | here
      · exact inv.served other old
      · exact (List.mem_singleton.1 here) ▸ engine.serves_of_isOrigin known fit
    · intro other active
      rw [Session.nodes_openStrand new, List.mem_append, List.mem_singleton]
      rw [Session.isActive, Session.activation_openStrand] at active
      change (session.addSupport node support).isActive other = true at active
      rw [Session.isActive_addSupport, Bool.or_eq_true, decide_eq_true_eq] at active
      rcases active with same | old
      · exact .inr same.symm
      · exact .inl (inv.covered other old)
  · rw [Session.items_openStrand new]
    intro strand live
    rcases List.mem_append.1 live with old | here
    · exact inv.filled strand old
    · rw [List.mem_singleton.1 here]
      exact List.cons_ne_nil _ _

theorem joining (inv : session.Orderly engine) {id : StrandId} {target : NodeRef}
    (live : session.strands.contains id = true) (serves : engine.serves target = true) (ref : EdgeRef) :
    (session.joining id ref target).Orderly engine := by
  have keys : (session.joining id ref target).strands.keys = session.strands.keys :=
    Session.keys_putStrand_of_live live
  constructor
  · constructor
    · rw [keys]
      exact inv.ascending
    · rw [keys]
      exact inv.numbered
    · intro node listed
      rcases Session.mem_nodes_joining.1 listed with old | rfl
      · exact inv.served node old
      · exact serves
    · intro node active
      rw [Session.isActive_joining, Bool.or_eq_true, decide_eq_true_eq] at active
      refine Session.mem_nodes_joining.2 ?_
      rcases active with same | old
      · exact .inr same
      · exact .inl (inv.covered node old)
  · intro strand listed
    rcases Roster.mem_insert.1 listed with rfl | ⟨old, -⟩
    · exact List.append_ne_nil_of_right_ne_nil _ (List.cons_ne_nil _ _)
    · exact inv.filled strand old

theorem perform {node : NodeRef} {after : Session σ} (inv : session.Orderly engine)
    (performs : Performs engine node session after) : after.Orderly engine := by
  cases performs with
  | started | idled => exact inv
  | reached | assigned => exact inv.fade ⟨rfl, rfl, fun _ _ mem => mem⟩
  | invoked reacts =>
      obtain ⟨facts, host, rfl⟩ := reacts.exists_eq
      exact inv.fade ⟨rfl, rfl, fun _ _ mem => mem⟩
  | called _ known fit =>
      have counted : session.countSupport.Orderly engine := inv.fade ⟨rfl, rfl, fun _ _ mem => mem⟩
      exact (counted.openStrand known fit _).fade ⟨rfl, rfl, fun _ _ mem => mem⟩

end Session.Orderly

/-- The order while a strand is being collapsed: it may become empty, its entries are the ones still
marked, and the nodes marked inactive are inactive. -/
structure Session.Underway (engine : Engine σ) (id : StrandId) (marks : List (Entry × Bool))
    (session : Session σ) : Prop extends session.Tracked engine where
  live : session.strands.contains id = true
  listed : session.entries id = marks.map Prod.fst
  idle : ∀ entry, (entry, false) ∈ marks → session.isActive entry.node = false
  filled : ∀ strand ∈ session.strands.items, strand.id ≠ id → strand.entries ≠ []

namespace Session.Underway

variable {session : Session σ} {id : StrandId} {marks : List (Entry × Bool)}

theorem of_sweep (inv : session.Orderly engine) (live : session.strands.contains id = true) :
    (session.swept engine.chart id).Underway engine id (session.verdicts engine.chart id) where
  toTracked := inv.toTracked.fade (.swept session engine.chart id)
  live := live
  listed := (map_fst_sweepEntries engine.chart session.facts session.activation _).symm
  idle _ mem := isActive_of_mem_false mem
  filled strand listed _ := inv.filled strand listed

/-- An entry that is undone takes one occurrence of its node with it. -/
theorem count_nodes_undo {before after : List (Entry × Bool)} {entry : Entry} {reverted : Session σ}
    (inv : session.Underway engine id (before ++ (entry, false) :: after))
    (reverts : Reverts engine entry.node (session.removeSupport entry.node entry.support.id) reverted)
    (node : NodeRef) :
    ((reverted.leaveFootprint (.acted entry.node .revert true)).putStrand
        ⟨id, (before ++ after).map Prod.fst⟩).nodes.count node + (if entry.node = node then 1 else 0) =
      session.nodes.count node := by
  have fades : session.Fades (reverted.leaveFootprint (.acted entry.node .revert true)) :=
    ((Session.Fades.removeSupport session _ _).trans reverts.fades).leaveFootprint _
  have exchanged := Session.count_nodes_putStrand (reverted.leaveFootprint (.acted entry.node .revert true))
    ⟨id, (before ++ after).map Prod.fst⟩ node
  rw [fades.entries, inv.listed, fades.nodes] at exchanged
  simp only [Strand.nodes, List.map_append, List.map_cons, List.count_append, List.count_cons,
    beq_iff_eq] at exchanged
  simp only [List.map_append]
  omega

theorem undo {before after : List (Entry × Bool)} {entry : Entry} {reverted : Session σ}
    (inv : session.Underway engine id (before ++ (entry, false) :: after))
    (reverts : Reverts engine entry.node (session.removeSupport entry.node entry.support.id) reverted) :
    Session.Underway engine id (before ++ after)
      ((reverted.leaveFootprint (.acted entry.node .revert true)).putStrand
        ⟨id, (before ++ after).map Prod.fst⟩) := by
  have counted := inv.count_nodes_undo reverts
  have fades : session.Fades (reverted.leaveFootprint (.acted entry.node .revert true)) :=
    ((Session.Fades.removeSupport session _ _).trans reverts.fades).leaveFootprint _
  have live : (reverted.leaveFootprint (.acted entry.node .revert true)).strands.contains id = true := by
    rw [fades.strands]
    exact inv.live
  have keys : ((reverted.leaveFootprint (.acted entry.node .revert true)).putStrand
      ⟨id, (before ++ after).map Prod.fst⟩).strands.keys = session.strands.keys := by
    rw [Session.keys_putStrand_of_live live, fades.strands]
  have active : ∀ node, ((reverted.leaveFootprint (.acted entry.node .revert true)).putStrand
      ⟨id, (before ++ after).map Prod.fst⟩).isActive node = true → session.isActive node = true :=
    fades.active
  constructor
  · constructor
    · rw [keys]
      exact inv.ascending
    · rw [keys]
      intro other listed
      exact (inv.numbered other listed).trans_eq fades.count.symm
    · intro node mem
      refine inv.served node (List.count_pos_iff.1 ?_)
      rw [← counted node]
      exact Nat.add_pos_left (List.count_pos_iff.2 mem) _
    · intro node now
      have apart : entry.node ≠ node := by
        rintro rfl
        have idle := inv.idle entry (List.mem_append_right _ (List.mem_cons_self ..))
        rw [active _ now] at idle
        cases idle
      have held := List.count_pos_iff.2 (inv.covered node (active node now))
      rw [← counted node, if_neg apart] at held
      exact List.count_pos_iff.1 held
  · rw [Roster.contains_iff, keys]
    exact Roster.contains_iff.1 inv.live
  · rw [Session.entries_putStrand, if_pos rfl]
  · intro other mem
    refine Bool.eq_false_iff.2 fun now => ?_
    have marked : (other, false) ∈ before ++ (entry, false) :: after := by
      rcases List.mem_append.1 mem with early | late
      · exact List.mem_append_left _ early
      · exact List.mem_append_right _ (List.mem_cons_of_mem _ late)
    exact absurd (active _ now) (Bool.eq_false_iff.1 (inv.idle other marked))
  · intro strand listed apart
    rcases Roster.mem_insert.1 listed with rfl | ⟨old, -⟩
    · exact absurd rfl apart
    · exact inv.filled strand (fades.strands ▸ old) apart

theorem collapsing (inv : session.Orderly engine) (live : session.strands.contains id = true)
    {now : List (Entry × Bool) × Session σ} (collapsing : Collapsing engine id session now) :
    now.2.Underway engine id now.1 := by
  induction collapsing with
  | refl => exact of_sweep inv live
  | tail _ step ih =>
      cases step with
      | entry reverts => exact ih.undo reverts

/-- As long as an entry is marked, the strand is not empty. -/
theorem orderly (inv : session.Underway engine id marks) (marked : marks ≠ []) :
    session.Orderly engine :=
  { inv.toTracked with
    filled := fun strand listed => by
      by_cases same : strand.id = id
      · rw [← Session.entries_eq_iff_of_mem listed, same, inv.listed]
        simpa using marked
      · exact inv.filled strand listed same }

/-- A strand that has been collapsed is empty or not, and if it is, it is dropped. -/
theorem tidy (inv : session.Underway engine id marks) : (session.tidy id).Orderly engine := by
  by_cases marked : marks = []
  · have empty : session.entries id = [] := by rw [inv.listed, marked, List.map_nil]
    have counted : ∀ node, (session.dropStrand id).nodes.count node = session.nodes.count node := by
      intro node
      have dropped := session.count_nodes_dropStrand id node
      rwa [empty] at dropped
    have keys : (session.dropStrand id).strands.keys =
        session.strands.keys.filter fun other => !decide (other = id) := Roster.keys_erase session.strands id
    rw [Session.tidy, empty, List.isEmpty_nil, if_pos rfl]
    constructor
    · constructor
      · rw [keys]
        exact inv.ascending.filter _
      · rw [keys]
        exact fun other live => inv.numbered other (List.mem_filter.1 live).1
      · intro node mem
        rw [← List.count_pos_iff, counted] at mem
        exact inv.served node (List.count_pos_iff.1 mem)
      · intro node active
        rw [← List.count_pos_iff, counted]
        exact List.count_pos_iff.2 (inv.covered node active)
    · intro strand listed
      obtain ⟨old, apart⟩ := Roster.mem_erase.1 listed
      exact inv.filled strand old apart
  · have filled : session.entries id ≠ [] := by
      rw [inv.listed]
      simpa using marked
    rw [Session.tidy_of_ne_nil filled]
    exact inv.orderly marked

end Session.Underway

/-- A collapse leaves entries that the sweep has judged, and other strands alone. -/
theorem Collapsing.leaves {session : Session σ} {id : StrandId} {now : List (Entry × Bool) × Session σ}
    (collapsing : Collapsing engine id session now) :
    (∀ mark ∈ now.1, mark ∈ session.verdicts engine.chart id) ∧
      ∀ strand ∈ now.2.strands.items, strand.id ≠ id → strand ∈ session.strands.items := by
  induction collapsing with
  | refl => exact ⟨fun _ mem => mem, fun _ listed _ => listed⟩
  | tail _ step ih =>
      cases step with
      | @entry before rest entry now reverted reverts =>
          have fades := (Session.Fades.removeSupport now entry.node entry.support.id).trans reverts.fades
          refine ⟨fun mark mem => ih.1 mark ?_, fun strand listed apart => ?_⟩
          · rcases List.mem_append.1 mem with early | late
            · exact List.mem_append_left _ early
            · exact List.mem_append_right _ (List.mem_cons_of_mem _ late)
          · rcases Roster.mem_insert.1 listed with rfl | ⟨old, -⟩
            · exact absurd rfl apart
            · exact ih.2 strand (fades.strands ▸ old) apart

theorem Session.mem_strands_of_tidy {session : Session σ} {id : StrandId} {strand : Strand}
    (listed : strand ∈ (session.tidy id).strands.items) : strand ∈ session.strands.items := by
  unfold Session.tidy at listed
  split at listed
  · exact (Roster.mem_erase.1 listed).1
  · exact listed

/-- A node that could not act leaves its strand as if it had never joined. -/
theorem Session.parting_fades {session after : Session σ} {id : StrandId} {ref : EdgeRef}
    {target : NodeRef} (live : session.strands.contains id = true)
    (refuses : Refuses engine target .perform (session.joining id ref target) after)
    (footprint : Footprint) :
    session.Fades ((after.leaveFootprint footprint).parting session id target) := by
  obtain ⟨facts, host, count, rfl⟩ := refuses.exists_eq
  rw [Roster.contains_eq_isSome] at live
  obtain ⟨strand, found⟩ := Option.isSome_iff_exists.1 live
  have same : strand.id = id := (Roster.get?_eq_some found).2
  have restored : (⟨id, session.entries id⟩ : Strand) = strand := by
    rw [← same, Session.entries_eq_iff_of_mem (Roster.get?_eq_some found).1]
  constructor
  · have written : (session.strands.insert ⟨id, session.entries id ++
        [⟨target, session.nextSupport (.edge ref)⟩]⟩).insert ⟨id, session.entries id⟩ =
        session.strands.insert ⟨id, session.entries id⟩ :=
      Roster.insert_insert session.strands rfl
    refine Eq.trans written ?_
    rw [restored]
    exact Roster.insert_of_get? (same ▸ found)
  · rfl
  · intro node support mem
    obtain ⟨joined, apart⟩ := Activation.mem_remove.1 mem
    rcases Activation.mem_add.1 joined with old | ⟨here, rfl, -⟩
    · exact old
    · exact absurd ⟨here, rfl⟩ apart

theorem Move.orderly {session after : Session σ} (move : Move engine session after)
    (inv : session.Orderly engine) : after.Orderly engine := by
  cases move with
  | collapsed live collapsing => exact (Session.Underway.collapsing inv live collapsing).tidy
  | merged next active =>
      have counted : session.countSupport.Orderly engine := inv.fade ⟨rfl, rfl, fun _ _ mem => mem⟩
      exact counted.addSupport (inv.covered _ active) _
  | @joined _ _ ref _ next idle performs =>
      have joined := inv.joining (engine.live_of_nextEdge? next) performs.serves ref
      exact (joined.perform performs).fade ((Session.Fades.refl _).leaveFootprint _)

theorem Offer.orderly {session after : Session σ} (offer : Offer engine grants session after)
    (inv : session.Orderly engine) : after.Orderly engine := by
  cases offer with
  | counted | asked => exact inv.fade ⟨rfl, rfl, fun _ _ mem => mem⟩
  | @supported node kind support count _ _ _ active =>
      have counted : (session.recount count).Orderly engine := inv.fade ⟨rfl, rfl, fun _ _ mem => mem⟩
      exact (counted.addSupport (inv.covered node active) support).fade
        ((Session.Fades.refl _).leaveFootprint _)
  | @opened node kind support count known fit =>
      have counted : (session.recount count).Orderly engine := inv.fade ⟨rfl, rfl, fun _ _ mem => mem⟩
      exact (counted.openStrand known fit support).fade ((Session.Fades.refl _).leaveFootprint _)

theorem Change.orderly {session after : Session σ} (change : Change engine grants session after)
    (inv : session.Orderly engine) : after.Orderly engine := by
  cases change with
  | moved move => exact move.orderly inv
  | offered offer => exact offer.orderly inv
  | heard => exact inv.fade ⟨rfl, rfl, fun _ _ mem => mem⟩

theorem Break.orderly {session after : Session σ} (broke : Break engine session after)
    (inv : session.Orderly engine) : after.Orderly engine := by
  cases broke with
  | collapse live collapsing refuses =>
      have underway := (Session.Underway.collapsing inv live collapsing).orderly
        (List.append_ne_nil_of_right_ne_nil _ (List.cons_ne_nil _ _))
      exact underway.fade (((Session.Fades.removeSupport _ _ _).trans refuses.fades).leaveFootprint _)
  | join next idle refuses =>
      exact inv.fade (Session.parting_fades (engine.live_of_nextEdge? next) refuses _)

theorem Session.Orderly.changes {session after : Session σ} (inv : session.Orderly engine)
    (steps : Changes engine grants session after) : after.Orderly engine :=
  steps.keep (fun inv change => change.orderly inv) inv

theorem Engine.sourceGrants_all (engine : Engine σ) :
    engine.SourceGrants (Grants.all : Grants σ).mints := by
  intro facts table fact host indication _
  cases indication <;> trivial

/-- What every change keeps, whatever supports it gives, holds wherever a run leads. -/
theorem Engine.Reaches.invariant_all {permits : Session σ → Operation σ → Prop} {facts : Facts}
    {motive : Session σ → Prop} (fresh : ∀ host, motive (.fresh facts host))
    (change : ∀ {session after}, motive session → Change engine .all session after → motive after)
    (broken : ∀ {operation session fault between after}, permits session operation →
      operation.run engine session = .error fault after → motive between → Break engine between after →
      motive after)
    (withdrawn : ∀ {session node id}, permits session (.withdraw node id) → motive session →
      motive (session.removeSupport node id))
    (rewritten : ∀ {session facts host}, permits session (.rewrite facts host) → motive session →
      motive { session with facts := facts, host := host })
    {session : Session σ} (reached : engine.Reaches permits facts session) : motive session :=
  reached.invariant engine.sourceGrants_all (fun _ => trivial) (fun _ => Operation.offers_all _) fresh
    change broken withdrawn rewritten

theorem Session.Orderly.settle {session after : Session σ} (inv : session.Orderly engine)
    {changed : List String} {report : Report}
    (settled : engine.settle changed session = .ok report after) : after.Orderly engine :=
  inv.changes ((Engine.settle_follows engine.sourceGrants_all changed session).steps settled)

/-- Every session that the engine reaches is orderly, whatever the host does with it. -/
theorem Engine.Reaches.orderly {permits : Session σ → Operation σ → Prop} {facts : Facts}
    {session : Session σ} (reached : engine.Reaches permits facts session) : session.Orderly engine := by
  refine Engine.Reaches.invariant_all ?_ ?_ ?_ ?_ ?_ reached
  · exact .fresh engine facts
  · exact fun inv change => change.orderly inv
  · exact fun _ _ inv broke => broke.orderly inv
  · exact fun _ inv => inv.fade (.removeSupport _ _ _)
  · exact fun _ inv => inv.fade ⟨rfl, rfl, fun _ _ mem => mem⟩

end Flowchart
