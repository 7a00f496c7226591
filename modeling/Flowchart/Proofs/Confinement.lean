import Flowchart.Proofs.Assignment
import Flowchart.Proofs.Reach
import Flowchart.Proofs.Triggers

/-!
Runs stay where they can get. From the origins that were started, strands get on along edges and calls
alone, so whatever joins a strand, is active, is reached as a snapshot or acts is reachable from one of
them; and what none of these nodes writes stays as it was, unless the host changes it.
-/
namespace Flowchart

variable {σ : Type} {engine : Engine σ} {grants : Grants σ} {chart : Chart} {decl : ChartDecl}

/-- A node that invokes a handler may write any fact. -/
def NodeKind.writes (fact : String) : NodeKind → Bool
  | .action (.assign written _) => written == fact
  | .action (.invoke _) => true
  | _ => false

/-- A part of the chart that nothing leads out of, and facts that none of its nodes writes. -/
structure Region (chart : Chart) where
  inside : NodeRef → Prop
  spared : String → Prop
  closed : ∀ {source node}, chart.Leads source node → inside source → inside node
  harmless : ∀ {node kind fact}, inside node → chart.kind? node = some kind → spared fact →
    kind.writes fact = false

/-- The whole chart, of which nothing is known about the facts. -/
def Region.whole (chart : Chart) : Region chart :=
  ⟨fun _ => True, fun _ => False, fun _ _ => trivial, fun _ _ none => none.elim⟩

def Footprint.node : Footprint → NodeRef
  | .started node => node
  | .acted node _ _ => node

/-- All that the session has come through so far: the nodes of its strands, the snapshots, the nodes
that have left a footprint. -/
structure Session.Confined (inside : NodeRef → Prop) (session : Session σ) : Prop where
  nodes : ∀ node ∈ session.nodes, inside node
  snapshots : ∀ node ∈ session.snapshots, inside node
  trail : ∀ footprint ∈ session.trail, inside footprint.node

/-- Between the two sessions nothing has happened outside of the region. -/
structure Session.Treads (region : Region chart) (session after : Session σ) : Prop where
  nodes : ∀ node ∈ after.nodes, node ∈ session.nodes ∨ region.inside node
  snapshots : ∀ node ∈ after.snapshots, node ∈ session.snapshots ∨ region.inside node
  left : ∀ footprint ∈ after.trail, footprint ∈ session.trail ∨ region.inside footprint.node
  kept : ∀ footprint ∈ session.trail, footprint ∈ after.trail
  facts : ∀ fact, region.spared fact → after.facts.state fact = session.facts.state fact

section Treads

variable {region : Region chart} {session between after : Session σ} {node : NodeRef}

namespace Session.Treads

theorem of_facts (strands : after.strands = session.strands)
    (snapshots : after.snapshots = session.snapshots) (trail : after.trail = session.trail)
    (facts : ∀ fact, region.spared fact → after.facts.state fact = session.facts.state fact) :
    session.Treads region after where
  nodes node mem := by
    rw [Session.nodes, strands] at mem
    exact .inl mem
  snapshots node mem := .inl (snapshots ▸ mem)
  left footprint mem := .inl (trail ▸ mem)
  kept footprint mem := trail ▸ mem
  facts := facts

theorem refl (session : Session σ) : session.Treads region session :=
  .of_facts rfl rfl rfl fun _ _ => rfl

theorem trans (first : session.Treads region between) (second : between.Treads region after) :
    session.Treads region after where
  nodes node mem := (second.nodes node mem).elim (first.nodes node) .inr
  snapshots node mem := (second.snapshots node mem).elim (first.snapshots node) .inr
  left footprint mem := (second.left footprint mem).elim (first.left footprint) .inr
  kept footprint mem := second.kept footprint (first.kept footprint mem)
  facts fact spared := (second.facts fact spared).trans (first.facts fact spared)

theorem leaveFootprint (treads : session.Treads region after) (footprint : Footprint)
    (inside : region.inside footprint.node) :
    session.Treads region (after.leaveFootprint footprint) where
  nodes := treads.nodes
  snapshots := treads.snapshots
  left other mem := by
    rcases List.mem_cons.1 mem with rfl | old
    · exact .inr inside
    · exact treads.left other old
  kept other mem := List.mem_cons_of_mem _ (treads.kept other mem)
  facts := treads.facts

theorem putStrand (treads : session.Treads region after) {strand : Strand}
    (inside : ∀ entry ∈ strand.entries, region.inside entry.node) :
    session.Treads region (after.putStrand strand) where
  nodes node mem := by
    obtain ⟨other, listed, here⟩ := Session.mem_nodes.1 mem
    rcases Roster.mem_insert.1 listed with rfl | ⟨old, -⟩
    · obtain ⟨entry, entered, rfl⟩ := List.mem_map.1 here
      exact .inr (inside entry entered)
    · exact treads.nodes node (Session.mem_nodes.2 ⟨other, old, here⟩)
  snapshots := treads.snapshots
  left := treads.left
  kept := treads.kept
  facts := treads.facts

theorem tidy (session : Session σ) (id : StrandId) : session.Treads region (session.tidy id) := by
  unfold Session.tidy
  split
  · refine { Treads.refl session with nodes := fun node mem => .inl ?_ }
    obtain ⟨strand, listed, here⟩ := Session.mem_nodes.1 mem
    exact Session.mem_nodes.2 ⟨strand, (Roster.mem_erase.1 listed).1, here⟩
  · exact .refl session

theorem reachSnapshot (inside : region.inside node) (session : Session σ) :
    session.Treads region (session.reachSnapshot node) := by
  refine { Treads.refl session with snapshots := fun other mem => ?_ }
  change other ∈ (if node ∈ session.snapshots then session.snapshots
    else session.snapshots ++ [node]) at mem
  split at mem
  · exact .inl mem
  · rcases List.mem_append.1 mem with old | here
    · exact .inl old
    · exact .inr (List.mem_singleton.1 here ▸ inside)

theorem leaveSnapshot (session : Session σ) (node : NodeRef) :
    session.Treads region (session.leaveSnapshot node) :=
  { Treads.refl session with snapshots := fun _ mem => .inl (List.mem_of_mem_erase mem) }

/-- A fact that is not spared is written. -/
theorem put {fact : String} {state : FactState} (written : ¬region.spared fact)
    (strands : after.strands = session.strands) (snapshots : after.snapshots = session.snapshots)
    (trail : after.trail = session.trail) (facts : after.facts = session.facts.put fact state) :
    session.Treads region after := by
  refine .of_facts strands snapshots trail fun other spared => ?_
  have apart : fact ≠ other := by
    rintro rfl
    exact written spared
  rw [facts, Facts.state_put_of_ne state apart]

theorem openStrand (treads : session.Treads region after) (inside : region.inside node)
    (kind : NodeKind) (support : Support) :
    session.Treads region (after.openStrand node kind support) := by
  have counted : session.Treads region { after with strandCount := after.strandCount + 1 } :=
    treads.trans (.of_facts rfl rfl rfl fun _ _ => rfl)
  unfold Session.openStrand Session.arriveAt
  refine putStrand (leaveFootprint ?_ (.acted node .perform true) inside) ?_
  · split
    · exact counted.trans (.reachSnapshot inside _)
    · exact counted
  · intro entry mem
    rw [List.mem_singleton.1 mem]
    exact inside

end Session.Treads

theorem Region.not_spared {fact : String} {kind : NodeKind} (inside : region.inside node)
    (known : chart.kind? node = some kind) (writes : kind.writes fact = true) :
    ¬region.spared fact := by
  intro spared
  rw [region.harmless inside known spared] at writes
  cases writes

end Treads

section Steps

variable {region : Region engine.chart} {session after : Session σ} {node : NodeRef} {deed : Deed}

theorem Reacts.treads {failure : Option ActionFailure}
    (reacts : Reacts engine node deed failure session after) (inside : region.inside node) :
    session.Treads region after := by
  obtain ⟨name, invokes⟩ := reacts.exists_kind
  obtain ⟨facts, host, rfl⟩ := reacts.exists_eq
  exact .of_facts rfl rfl rfl fun fact spared => absurd spared (region.not_spared inside invokes rfl)

/-- A node that joins a strand has the start node join that it calls, if it does. -/
theorem Performs.treads (performs : Performs engine node session after) (inside : region.inside node) :
    session.Treads region after := by
  cases performs with
  | started | idled => exact .refl session
  | reached => exact .reachSnapshot inside session
  | @assigned fact value kind =>
      have written : (session.assign node fact value).facts =
          session.facts.put fact (some (.value value)) := rfl
      exact .put (region.not_spared inside kind (beq_self_eq_true fact)) rfl rfl rfl written
  | invoked reacts => exact reacts.treads inside
  | @called called origin kind =>
      have supported : session.Treads region
          (session.countSupport.addSupport called (session.nextSupport (.caller node))) :=
        .of_facts rfl rfl rfl fun _ _ => rfl
      have opened := supported.openStrand (region.closed (.call kind) inside) origin
        (session.nextSupport (.caller node))
      exact opened.trans (.of_facts rfl rfl rfl fun _ _ => rfl)

theorem Reverts.treads (reverts : Reverts engine node session after) (inside : region.inside node) :
    session.Treads region after := by
  cases reverts with
  | started | idled => exact .refl session
  | reached => exact .leaveSnapshot session node
  | @assigned fact value kind =>
      unfold Session.unassign
      split
      · exact .refl session
      · exact .put (region.not_spared inside kind (beq_self_eq_true fact)) rfl rfl rfl rfl
  | invoked reacts => exact reacts.treads inside
  | called =>
      unfold Session.endCall
      split <;> exact .of_facts rfl rfl rfl fun _ _ => rfl

theorem Refuses.treads (refuses : Refuses engine node deed session after)
    (inside : region.inside node) : session.Treads region after := by
  cases refuses with
  | unserved => exact .refl session
  | uncalled => exact .of_facts rfl rfl rfl fun _ _ => rfl
  | failed reacts => exact reacts.treads inside

namespace Session.Confined

variable {inside : NodeRef → Prop} {id : StrandId}

theorem follow (confined : session.Confined region.inside) (treads : session.Treads region after) :
    after.Confined region.inside where
  nodes node mem := (treads.nodes node mem).elim (confined.nodes node) id
  snapshots node mem := (treads.snapshots node mem).elim (confined.snapshots node) id
  trail footprint mem := (treads.left footprint mem).elim (confined.trail footprint) id

theorem entries (confined : session.Confined inside) (id : StrandId) :
    ∀ entry ∈ session.entries id, inside entry.node :=
  fun _ mem => confined.nodes _ (Session.mem_nodes_of_mem_entries mem)

theorem verdicts (confined : session.Confined inside) :
    ∀ mark ∈ session.verdicts engine.chart id, inside mark.1.node := by
  intro mark mem
  refine confined.entries id mark.1 ?_
  have listed := List.mem_map_of_mem (f := Prod.fst) mem
  rwa [Session.verdicts, map_fst_sweepEntries] at listed

/-- The edge that a strand follows next does not lead out of the region. -/
theorem target (compiled : decl.compile = .ok engine.chart) (confined : session.Confined region.inside)
    {ref : EdgeRef} {edge : Edge} (next : engine.nextEdge? session id = some (ref, edge)) :
    region.inside edge.target := by
  obtain ⟨strand, frontier, -, -, -, known, -⟩ := engine.nextEdge?_eq_some next
  obtain ⟨entry, mem, source⟩ := engine.exists_source_of_nextEdge? compiled next
  exact region.closed (.edge known source.symm rfl) (confined.entries id entry mem)

end Session.Confined

theorem Collapsing.treads {id : StrandId} {now : List (Entry × Bool) × Session σ}
    (collapsing : Collapsing engine id session now) (confined : session.Confined region.inside) :
    session.Treads region now.2 := by
  induction collapsing with
  | refl => exact .of_facts rfl rfl rfl fun _ _ => rfl
  | tail first step ih =>
      have first : Collapsing engine id session _ := first
      cases step with
      | @entry before rest entry now reverted reverts =>
          have marked : ∀ mark ∈ before ++ (entry, false) :: rest, region.inside mark.1.node :=
            fun mark mem => confined.verdicts mark (first.leaves.1 mark mem)
          have inside := marked (entry, false) (List.mem_append_right _ (List.mem_cons_self ..))
          have removed : session.Treads region (now.removeSupport entry.node entry.support.id) :=
            ih.trans (.of_facts rfl rfl rfl fun _ _ => rfl)
          have undone := (removed.trans (reverts.treads inside)).leaveFootprint
            (.acted entry.node .revert true) inside
          refine undone.putStrand ?_
          intro other mem
          obtain ⟨mark, held, rfl⟩ := List.mem_map.1 mem
          refine marked mark ?_
          rcases List.mem_append.1 held with early | late
          · exact List.mem_append_left _ early
          · exact List.mem_append_right _ (List.mem_cons_of_mem _ late)

theorem Session.Confined.joining (confined : session.Confined region.inside) {target : NodeRef}
    (inside : region.inside target) (id : StrandId) (ref : EdgeRef) :
    session.Treads region (session.joining id ref target) := by
  have supported : session.Treads region
      (session.countSupport.addSupport target (session.nextSupport (.edge ref))) :=
    .of_facts rfl rfl rfl fun _ _ => rfl
  refine supported.putStrand fun entry mem => ?_
  rcases List.mem_append.1 mem with old | here
  · exact confined.entries id entry old
  · rw [List.mem_singleton.1 here]
    exact inside

theorem Move.treads (compiled : decl.compile = .ok engine.chart) (move : Move engine session after)
    (confined : session.Confined region.inside) : session.Treads region after := by
  cases move with
  | collapsed live collapsing => exact (collapsing.treads confined).trans (.tidy _ _)
  | merged => exact .of_facts rfl rfl rfl fun _ _ => rfl
  | joined next idle performs =>
      have inside := confined.target compiled next
      exact ((confined.joining inside _ _).trans (performs.treads inside)).leaveFootprint _ inside

/-- The origins that were started are in the region. -/
def Session.Begins (region : Region chart) (session : Session σ) : Prop :=
  ∀ origin, .started origin ∈ session.trail → origin ∈ chart.members → region.inside origin

theorem Offer.treads (offer : Offer engine grants session after) (begins : after.Begins region) :
    session.Treads region after := by
  have begun {origin : NodeRef} {kind : NodeKind} {before : Session σ}
      (known : engine.chart.kind? origin = some kind)
      (same : after = before.leaveFootprint (.started origin)) : region.inside origin := by
    apply begins origin _ (Chart.mem_members_of_kind? known)
    rw [same]
    exact List.mem_cons_self ..
  cases offer with
  | counted | asked => exact .of_facts rfl rfl rfl fun _ _ => rfl
  | @supported node kind support count known =>
      have inside := begun known rfl
      have supplied : session.Treads region (session.supply node support count) :=
        .of_facts rfl rfl rfl fun _ _ => rfl
      exact supplied.leaveFootprint (.started node) inside
  | @opened node kind support count known =>
      have inside := begun known rfl
      have supplied : session.Treads region (session.supply node support count) :=
        .of_facts rfl rfl rfl fun _ _ => rfl
      exact (supplied.openStrand inside kind support).leaveFootprint (.started node) inside

theorem Change.treads (compiled : decl.compile = .ok engine.chart)
    (change : Change engine grants session after) (confined : session.Confined region.inside)
    (begins : after.Begins region) : session.Treads region after := by
  cases change with
  | moved move => exact move.treads compiled confined
  | offered offer => exact offer.treads begins
  | heard => exact .of_facts rfl rfl rfl fun _ _ => rfl

theorem Break.treads (compiled : decl.compile = .ok engine.chart) (broke : Break engine session after)
    (confined : session.Confined region.inside) : session.Treads region after := by
  cases broke with
  | @collapse now left id before rest entry live collapsing refuses =>
      have inside : region.inside entry.node :=
        confined.verdicts _ (collapsing.leaves.1 _ (List.mem_append_right _ (List.mem_cons_self ..)))
      have removed : session.Treads region (now.removeSupport entry.node entry.support.id) :=
        (collapsing.treads confined).trans (.of_facts rfl rfl rfl fun _ _ => rfl)
      exact (removed.trans (refuses.treads inside)).leaveFootprint (.acted entry.node .revert false) inside
  | @join left id ref edge next idle refuses =>
      have inside := confined.target compiled next
      have refused : session.Treads region (left.leaveFootprint (.acted edge.target .perform false)) :=
        ((confined.joining inside id ref).trans (refuses.treads inside)).leaveFootprint _ inside
      exact (refused.putStrand (confined.entries id)).trans (.of_facts rfl rfl rfl fun _ _ => rfl)

/-- What is on the trail stays there. -/
theorem Change.kept (compiled : decl.compile = .ok engine.chart)
    (change : Change engine grants session after) :
    ∀ footprint ∈ session.trail, footprint ∈ after.trail := by
  have treads : session.Treads (.whole engine.chart) after :=
    change.treads compiled ⟨fun _ _ => trivial, fun _ _ => trivial, fun _ _ => trivial⟩
      fun _ _ _ => trivial
  exact treads.kept

theorem Break.kept (compiled : decl.compile = .ok engine.chart) (broke : Break engine session after) :
    ∀ footprint ∈ session.trail, footprint ∈ after.trail := by
  have treads : session.Treads (.whole engine.chart) after :=
    broke.treads compiled ⟨fun _ _ => trivial, fun _ _ => trivial, fun _ _ => trivial⟩
  exact treads.kept

end Steps

/-- Of the facts the host itself changes at most those given. -/
def Operation.Alters (changed : String → Prop) (session : Session σ) : Operation σ → Prop
  | .rewrite facts _ => ∀ fact, ¬changed fact → facts.state fact = session.facts.state fact
  | _ => True

/-- The node is reachable from an origin that was started. -/
def Session.InReach (chart : Chart) (session : Session σ) (node : NodeRef) : Prop :=
  ∃ origin, .started origin ∈ session.trail ∧ node ∈ chart.reachable origin

/-- The reachable part of the chart, and the facts that none of its nodes writes. -/
def Session.region (compiled : decl.compile = .ok chart) (session : Session σ) : Region chart where
  inside := session.InReach chart
  spared fact := ∀ node kind, session.InReach chart node → chart.kind? node = some kind →
    kind.writes fact = false
  closed leads inside := by
    obtain ⟨origin, started, reachable⟩ := inside
    obtain ⟨known, path⟩ := (Chart.mem_reachable_iff compiled).1 reachable
    exact ⟨origin, started, (Chart.mem_reachable_iff compiled).2 ⟨known, path.tail leads⟩⟩
  harmless inside known spared := spared _ _ inside known

namespace Engine.Reaches

variable {changed : String → Prop} {facts : Facts} {session : Session σ}

/-- If what was started is in the region, all that happened is. -/
theorem within (compiled : decl.compile = .ok engine.chart) (region : Region engine.chart)
    (reached : engine.Reaches (fun session operation => operation.Alters changed session) facts session) :
    session.Begins region → session.Confined region.inside ∧
      ∀ fact, region.spared fact → ¬changed fact → session.facts.state fact = facts.state fact := by
  refine Engine.Reaches.invariant_all (motive := fun session => session.Begins region →
    session.Confined region.inside ∧
      ∀ fact, region.spared fact → ¬changed fact → session.facts.state fact = facts.state fact)
    ?_ ?_ ?_ ?_ ?_ reached
  · exact fun host _ => ⟨⟨fun _ none => (nomatch none), fun _ none => (nomatch none),
      fun _ none => (nomatch none)⟩, fun _ _ _ => rfl⟩
  · intro session after ih change begins
    obtain ⟨confined, same⟩ := ih fun origin mem => begins origin (change.kept compiled _ mem)
    have treads := change.treads compiled confined begins
    exact ⟨confined.follow treads, fun fact spared fixed =>
      (treads.facts fact spared).trans (same fact spared fixed)⟩
  · intro operation session fault between after _ _ ih broke begins
    obtain ⟨confined, same⟩ := ih fun origin mem => begins origin (broke.kept compiled _ mem)
    have treads := broke.treads compiled confined
    exact ⟨confined.follow treads, fun fact spared fixed =>
      (treads.facts fact spared).trans (same fact spared fixed)⟩
  · intro session node id _ ih begins
    obtain ⟨confined, same⟩ := ih begins
    exact ⟨⟨confined.nodes, confined.snapshots, confined.trail⟩, same⟩
  · intro session now host alters ih begins
    obtain ⟨confined, same⟩ := ih begins
    exact ⟨⟨confined.nodes, confined.snapshots, confined.trail⟩, fun fact spared fixed =>
      (alters fact fixed).trans (same fact spared fixed)⟩

/-- Wherever a run has led, also one with operations that failed, the nodes of all strands, the active
nodes, the snapshots that are reached and the nodes that ever acted are reachable from origins that were
started. If none of the nodes reachable from these invokes a handler, each fact that none of them
assigns and that the host has not changed is as it was at the launch. -/
theorem confined (compiled : decl.compile = .ok engine.chart)
    (reached : engine.Reaches (fun session operation => operation.Alters changed session) facts session) :
    session.Confined (session.InReach engine.chart) ∧
      (∀ node, session.isActive node = true → session.InReach engine.chart node) ∧
      ((∀ node kind, session.InReach engine.chart node → engine.chart.kind? node = some kind →
          kind.isInvoke = false) →
        ∀ fact, ¬changed fact →
          (∀ node, session.InReach engine.chart node → engine.chart.assigns fact node = false) →
          session.facts.state fact = facts.state fact) := by
  have begins : session.Begins (session.region compiled) := fun origin started known =>
    ⟨origin, started, (Chart.mem_reachable_iff compiled).2 ⟨known, .refl⟩⟩
  obtain ⟨stays, same⟩ := reached.within compiled (session.region compiled) begins
  refine ⟨stays, fun node active => stays.nodes node (reached.orderly.covered node active), ?_⟩
  intro quiet fact fixed unwritten
  refine same fact (fun node kind inside known => ?_) fixed
  have plain := quiet node kind inside known
  have other := unwritten node inside
  rw [Chart.assigns, known] at other
  cases kind with
  | start | composed | snapshot => rfl
  | action action =>
      cases action with
      | noop => rfl
      | assign => exact other
      | invoke => cases plain

end Engine.Reaches

/-- Two flows that have nothing to do with each other. -/
def annexDecl : ChartDecl :=
  ⟨[((FlowDecl.named "Main").addStart "S").addAction "A" (.assign "f" (.bool true))
      |>.addEdge "S" "A" (some (.known "p")),
    ((FlowDecl.named "Annex").addStart "T").addAction "B" (.assign "g" (.bool true))
      |>.addEdge "T" "B" none], []⟩

def annexEngine : Engine Unit := .standard annexDecl.chart

/-- The first flow has been started and its fact made known; the host has asked in vain for an origin
that is none. -/
def annexSession : Session Unit :=
  Operation.afterAll annexEngine
    [.begin ⟨0⟩ ⟨⟨1⟩, .unconditional⟩, .rewrite (Facts.put ∅ "p" (some .unknown)) (), .settle ["p"],
      .begin ⟨3⟩ ⟨⟨1⟩, .unconditional⟩]
    (annexEngine.opened ∅ ())

theorem confined_annex :
    annexSession.isActive ⟨1⟩ = true ∧ annexSession.facts.state "f" = some (.value (.bool true)) ∧
      annexSession.Confined (annexSession.InReach annexEngine.chart) ∧
      (∀ node, annexSession.isActive node = true → annexSession.InReach annexEngine.chart node) ∧
      annexSession.facts.state "g" = none := by
  have compiled : annexDecl.compile = .ok annexDecl.chart := annexDecl.compile_of_isOk (by decide +kernel)
  have opened : annexEngine.Reaches (fun session operation => operation.Alters (· = "p") session) ∅
      (annexEngine.opened ∅ ()) := .opened (by decide +kernel)
  have alters : ∀ session : Session Unit, session.facts = ∅ →
      (Operation.rewrite (Facts.put ∅ "p" (some .unknown)) ()).Alters (· = "p") session := by
    intro session unanswered fact other
    rw [unanswered, Facts.state_put_of_ne _ (Ne.symm other)]
  have reached : annexEngine.Reaches (fun session operation => operation.Alters (· = "p") session) ∅
      annexSession :=
    opened.afterAll ⟨trivial, alters _ (by decide +kernel), trivial, trivial, trivial⟩
  have within : ∀ footprint ∈ annexSession.trail, ∀ node ∈ annexEngine.chart.reachable footprint.node,
      annexEngine.chart.assigns "g" node = false ∧
        (annexEngine.chart.kind? node).any NodeKind.isInvoke = false := by decide +kernel
  obtain ⟨stays, active, same⟩ := Engine.Reaches.confined compiled reached
  refine ⟨by decide +kernel, by decide +kernel, stays, active, same ?_ "g" (by decide) ?_⟩
  · rintro node kind ⟨origin, started, reachable⟩ known
    have plain := (within _ started node reachable).2
    rwa [known, Option.any_some] at plain
  · rintro node ⟨origin, started, reachable⟩
    exact (within _ started node reachable).1

end Flowchart
