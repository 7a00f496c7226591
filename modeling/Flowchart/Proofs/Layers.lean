import Flowchart.Proofs.Justification
import Flowchart.Proofs.Unrefused

/-!
Layers. Once the rounds of a settling have begun, new supports come over open edges and by calls alone.
Take those that were there at the beginning as the roots: as long as none of them is lost, what rests on
them stays, and whatever does not rest on them is a layer further down in the chart after each round,
since at its turn every strand loses the entries whose reasons have lost theirs.
-/
namespace Flowchart

variable {σ : Type} {engine : Engine σ} {chart : Chart} {decl : ChartDecl}

/-- An open edge leads from the one node to the other, or the one calls the other. -/
inductive Basis.Drawn (chart : Chart) (facts : Facts) (source node : NodeRef) : Basis → Prop
  | edge {ref : EdgeRef} {edge : Edge} (known : chart.edge? ref = some edge)
      (leaves : edge.source = source) (enters : edge.target = node)
      (opened : chart.opens facts ref = true) : Drawn chart facts source node (.edge ref)
  | call (calls : chart.kind? source = some (.composed node)) :
      Drawn chart facts source node (.caller source)

namespace Basis.Drawn

variable {facts : Facts} {source node : NodeRef} {basis : Basis}

theorem leads (drawn : basis.Drawn chart facts source node) : chart.Leads source node := by
  cases drawn with
  | edge known leaves enters => exact .edge known leaves enters
  | call calls => exact .call calls

theorem mem_members (drawn : basis.Drawn chart facts source node)
    (compiled : decl.compile = .ok chart) : source ∈ chart.members := by
  cases drawn with
  | edge known leaves =>
      rw [← leaves]
      exact (ChartDecl.ends_of_compile compiled known).1
  | call calls => exact Option.isSome_iff_exists.2 ⟨_, calls⟩

/-- What it is drawn from is active if it holds. -/
theorem active (drawn : basis.Drawn chart facts source node) {table : Activation}
    (holds : basis.holds chart facts table = true) : table.isActive source = true := by
  cases drawn with
  | edge known leaves =>
      rw [Basis.holds, known, Option.any_some, Bool.and_eq_true, leaves] at holds
      exact holds.1
  | call => exact holds

theorem bears {firm : Support → Prop} {session : Session σ} {under support : Support}
    (drawn : support.basis.Drawn chart session.facts source node)
    (bears : session.Bears chart firm source under)
    (held : support ∈ (session.activation.supports node).items) :
    session.Bears chart firm node support := by
  generalize basis : support.basis = told at drawn
  cases drawn with
  | edge known leaves _ opened => exact .edge bears held basis known leaves opened
  | call => exact .caller bears held basis

end Basis.Drawn

/-- Of the supports in the session, those with a number above the mark came over open edges and by
calls. -/
structure Session.Amid (engine : Engine σ) (mark : Nat) (session : Session σ) : Prop
    extends session.Orderly engine where
  accounted : session.Accounted
  counted : mark ≤ session.supportCount
  drawn : ∀ node, ∀ support ∈ (session.activation.supports node).items,
    mark < support.id.number → ∃ source, support.basis.Drawn engine.chart session.facts source node

/-- The supports up to the mark are still held. -/
def Session.Keeps (mark : Nat) (session after : Session σ) : Prop :=
  ∀ node, ∀ support ∈ (session.activation.supports node).items, support.id.number ≤ mark →
    support ∈ (after.activation.supports node).items

/-- The node holds the support, which rests on supports up to the mark. -/
def Session.Rooted (chart : Chart) (mark : Nat) (session : Session σ) : NodeRef → Support → Prop :=
  session.Bears chart fun support => support.id.number ≤ mark

section Moves

variable {session between after : Session σ} {mark : Nat}

theorem Engine.opens_of_nextEdge? {id : StrandId} {ref : EdgeRef} {edge : Edge}
    (next : engine.nextEdge? session id = some (ref, edge)) :
    engine.chart.opens session.facts ref = true := by
  obtain ⟨strand, frontier, -, -, -, known, satisfied⟩ := engine.nextEdge?_eq_some next
  rw [Chart.opens, known, Option.any_some]
  exact satisfied

/-- What a move brings into the table was drawn over an open edge or by a call. -/
theorem Move.drawn (move : Move engine session after) {node : NodeRef} {support : Support}
    (mem : support ∈ (after.activation.supports node).items) :
    support ∈ (session.activation.supports node).items ∨
      ∃ source, support.basis.Drawn engine.chart session.facts source node := by
  cases move with
  | collapsed live collapsing =>
      rw [Session.activation_tidy] at mem
      exact .inl (collapsing.below node support mem)
  | @merged id ref edge next =>
      obtain ⟨strand, frontier, -, -, -, known, -⟩ := engine.nextEdge?_eq_some next
      rcases Activation.mem_add.1 mem with old | ⟨rfl, rfl, -⟩
      · exact .inl old
      · exact .inr ⟨edge.source, .edge known rfl rfl (engine.opens_of_nextEdge? next)⟩
  | @joined acted id ref edge next idle performs =>
      obtain ⟨strand, frontier, -, -, -, known, -⟩ := engine.nextEdge?_eq_some next
      have joined : ∀ {support}, support ∈ ((session.joining id ref edge.target).activation.supports
          node).items → support ∈ (session.activation.supports node).items ∨
            ∃ source, support.basis.Drawn engine.chart session.facts source node := by
        intro support mem
        rcases Activation.mem_add.1 mem with old | ⟨rfl, rfl, -⟩
        · exact .inl old
        · exact .inr ⟨edge.source, .edge known rfl rfl (engine.opens_of_nextEdge? next)⟩
      change support ∈ (acted.activation.supports node).items at mem
      rcases performs.eq_calling_or with ⟨called, origin, kind, -, -, rfl⟩ | ⟨-, -, activation, -⟩
      · rw [Session.activation_calling] at mem
        rcases Activation.mem_add.1 mem with old | ⟨rfl, rfl, -⟩
        · exact joined old
        · exact .inr ⟨edge.target, .call kind⟩
      · rw [activation] at mem
        exact joined mem

theorem Session.Amid.move (amid : session.Amid engine mark) (inert : engine.chart.Inert)
    (move : Move engine session after) : after.Amid engine mark where
  toOrderly := move.orderly amid.toOrderly
  accounted := Change.accounted (.moved move) amid.accounted
  counted :=
    have change : Change engine .native session after := .moved move
    amid.counted.trans change.le_supportCount
  drawn node support mem above := by
    rw [(move.stays inert).facts]
    rcases move.drawn mem with old | drawn
    · exact amid.drawn node support old above
    · exact drawn

/-- A move brings no support up to the mark. -/
theorem Move.keeps (move : Move engine session after) (counted : mark ≤ session.supportCount) :
    after.Keeps mark session := by
  intro node support mem below
  rcases move.gains mem with old | minted
  · exact old
  · exact absurd minted.new (Nat.not_lt.2 (below.trans counted))

theorem Session.Keeps.trans (first : session.Keeps mark between) (second : between.Keeps mark after) :
    session.Keeps mark after :=
  fun node support mem below => second node support (first node support mem below) below

theorem Session.Amid.moves (amid : session.Amid engine mark) (inert : engine.chart.Inert)
    (moves : Relation.ReflTransGen (Move engine) session after) :
    after.Amid engine mark ∧ after.Keeps mark session := by
  induction moves with
  | refl => exact ⟨amid, fun _ _ mem _ => mem⟩
  | tail _ move ih => exact ⟨ih.1.move inert move, (move.keeps ih.1.counted).trans ih.2⟩

/-- What is rooted stays so unless a root is lost. -/
theorem Session.Rooted.move {node : NodeRef} {support : Support}
    (rooted : session.Rooted engine.chart mark node support) (amid : session.Amid engine mark)
    (inert : engine.chart.Inert) (move : Move engine session after)
    (keeps : session.Keeps mark after) : after.Rooted engine.chart mark node support :=
  rooted.keep (move.stays inert).facts (move.prunes amid.toOrderly amid.accounted.owned) keeps

/-- If no root is lost in the end, none is lost on the way. -/
theorem Session.Rooted.moves {node : NodeRef} {support : Support}
    (rooted : session.Rooted engine.chart mark node support) (amid : session.Amid engine mark)
    (inert : engine.chart.Inert) (moves : Relation.ReflTransGen (Move engine) session after)
    (keeps : session.Keeps mark after) : after.Rooted engine.chart mark node support := by
  induction moves using Relation.ReflTransGen.head_induction_on with
  | refl => exact rooted
  | @head session next move rest ih =>
      have later := (amid.move inert move).moves inert rest
      exact ih (rooted.move amid inert move (keeps.trans later.2)) (amid.move inert move)
        ((move.keeps amid.counted).trans keeps)

end Moves

/-- How many nodes of the chart lead to the node. -/
noncomputable def Chart.depth (chart : Chart) (node : NodeRef) : Nat :=
  {source | source ∈ chart.members ∧ Relation.TransGen chart.Leads source node}.ncard

theorem Chart.depth_le (chart : Chart) (node : NodeRef) : chart.depth node ≤ chart.nodes.length :=
  (Chart.ncard_le_of_members fun _ mem => mem.1).2

/-- Without circles it is further down wherever one is led. -/
theorem Chart.Acyclic.depth_lt (acyclic : chart.Acyclic) {source node : NodeRef}
    (leads : chart.Leads source node) (known : source ∈ chart.members) :
    chart.depth source < chart.depth node := by
  refine Set.ncard_lt_ncard ⟨fun other mem => ⟨mem.1, mem.2.tail leads⟩, fun all => ?_⟩
    (Chart.ncard_le_of_members fun _ mem => mem.1).1
  exact acyclic source (all ⟨known, .single leads⟩).2

/-- The node of each entry is rooted, or it is further down than the layer, or in it and the strand is
still due to be collapsed. -/
def Session.Cleared (chart : Chart) (mark layer : Nat) (due : StrandId → Prop) (session : Session σ) :
    Prop :=
  ∀ strand ∈ session.strands.items, ∀ entry ∈ strand.entries,
    (∃ support, session.Rooted chart mark entry.node support) ∨ layer < chart.depth entry.node ∨
      due strand.id ∧ layer ≤ chart.depth entry.node

namespace Session.Cleared

variable {session after : Session σ} {mark layer : Nat} {due : StrandId → Prop}

theorem mono (cleared : session.Cleared chart mark layer due) {wider : StrandId → Prop}
    (within : ∀ strand ∈ session.strands.items, due strand.id → wider strand.id) :
    session.Cleared chart mark layer wider := by
  intro strand listed entry mem
  rcases cleared strand listed entry mem with rooted | deeper | ⟨waits, deep⟩
  · exact .inl rooted
  · exact .inr (.inl deeper)
  · exact .inr (.inr ⟨within strand listed waits, deep⟩)

theorem of_mem_nodes (cleared : session.Cleared chart mark layer due) {node : NodeRef}
    (mem : node ∈ session.nodes) :
    (∃ support, session.Rooted chart mark node support) ∨ layer ≤ chart.depth node := by
  obtain ⟨strand, listed, here⟩ := Session.mem_nodes.1 mem
  obtain ⟨entry, entered, rfl⟩ := List.mem_map.1 here
  rcases cleared strand listed entry entered with rooted | deeper | ⟨-, deep⟩
  · exact .inl rooted
  · exact .inr (Nat.le_of_lt deeper)
  · exact .inr deep

end Session.Cleared

/-- A node with a support drawn from another is rooted with it, or further down than it. -/
theorem Basis.Drawn.deepen {session : Session σ} {mark layer : Nat} {source node : NodeRef}
    {support : Support} (drawn : support.basis.Drawn chart session.facts source node)
    (compiled : decl.compile = .ok chart) (acyclic : chart.Acyclic)
    (held : support ∈ (session.activation.supports node).items)
    (fate : (∃ support, session.Rooted chart mark source support) ∨ layer ≤ chart.depth source) :
    (∃ support, session.Rooted chart mark node support) ∨ layer < chart.depth node := by
  rcases fate with ⟨under, rooted⟩ | deep
  · exact .inl ⟨support, drawn.bears rooted held⟩
  · exact .inr (Nat.lt_of_le_of_lt deep (acyclic.depth_lt drawn.leads (drawn.mem_members compiled)))

section Strands

variable {session after : Session σ} {id : StrandId}

/-- A strand that is there after a deed was there before, or has been opened by a call. -/
theorem Performs.mem_strands {node : NodeRef} (performs : Performs engine node session after)
    (numbered : session.Numbered) (new : session.strands.get? ⟨session.strandCount + 1⟩ = none)
    {strand : Strand} (listed : strand ∈ after.strands.items) :
    strand ∈ session.strands.items ∨
      ∃ called support, engine.chart.kind? node = some (.composed called) ∧
        strand.entries = [⟨called, support⟩] ∧ support.basis = .caller node ∧
        support ∈ (after.activation.supports called).items := by
  rcases performs.eq_calling_or with ⟨called, origin, kind, -, -, rfl⟩ | ⟨-, -, -, strands⟩
  · have items := @Session.items_openStrand _
      (session.countSupport.addSupport called (session.nextSupport (.caller node))) new called origin
      (session.nextSupport (.caller node))
    rcases List.mem_append.1 (items ▸ listed) with old | opened
    · exact .inl old
    · refine .inr ⟨called, session.nextSupport (.caller node), kind, ?_, rfl, ?_⟩
      · rw [List.mem_singleton.1 opened]
      · rw [Session.activation_calling]
        exact numbered.mem_add_nextSupport called (.caller node)
  · exact .inl (strands ▸ listed)

end Strands

section Clears

variable {session after : Session σ} {id : StrandId} {mark layer : Nat} {due : StrandId → Prop}

/-- A collapsed strand has no entry left in the layer that is not rooted: the support that an entry was
found active by is a root, or was drawn from a node that is active and so has an entry itself. -/
theorem Collapsing.clears {kept : List (Entry × Bool)} (compiled : decl.compile = .ok engine.chart)
    (inert : engine.chart.Inert) (acyclic : engine.chart.Acyclic) (amid : session.Amid engine mark)
    (live : session.strands.contains id = true)
    (collapsing : Collapsing engine id session (kept, after))
    (settled : ∀ mark ∈ kept, mark.2 = true) (keeps : session.Keeps mark (after.tidy id))
    (cleared : session.Cleared engine.chart mark layer due) :
    (after.tidy id).Cleared engine.chart mark layer fun other => due other ∧ other ≠ id := by
  have move : Move engine session (after.tidy id) := .collapsed live collapsing settled
  have underway := Session.Underway.collapsing amid.toOrderly live collapsing
  intro strand listed entry mem
  have held := Session.mem_strands_of_tidy listed
  by_cases same : strand.id = id
  · have entries : strand.entries = kept.map Prod.fst := by
      rw [← Session.entries_eq_iff_of_mem held, same]
      exact underway.listed
    rw [entries] at mem
    obtain ⟨⟨other, verdict⟩, marked, rfl⟩ := List.mem_map.1 mem
    cases settled _ marked
    obtain ⟨support, was, holds⟩ := exists_holds_of_mem_true (collapsing.leaves.1 _ marked)
    by_cases old : support.id.number ≤ mark
    · exact .inl ⟨support, .ground (keeps _ support was old) old⟩
    · -- The support was drawn from a node that was active when it was judged, and so had an entry.
      obtain ⟨source, drawn⟩ := amid.drawn _ support was (Nat.lt_of_not_le old)
      have fate := cleared.of_mem_nodes (amid.covered source (drawn.active holds))
      rcases drawn.deepen compiled acyclic was fate with ⟨found, rooted⟩ | deeper
      · exact .inl ⟨found, rooted.move amid inert move keeps⟩
      · exact .inr (.inl deeper)
  · rcases cleared strand (collapsing.leaves.2 strand held same) entry mem with
      ⟨support, rooted⟩ | deeper | ⟨waits, deep⟩
    · exact .inl ⟨support, rooted.move amid inert move keeps⟩
    · exact .inr (.inl deeper)
    · exact .inr (.inr ⟨⟨waits, same⟩, deep⟩)

/-- A node that joins is rooted or below the layer, as its support is drawn from an entry. -/
theorem Session.Cleared.joined {acted : Session σ} {ref : EdgeRef} {edge : Edge}
    (cleared : session.Cleared engine.chart mark layer due) (compiled : decl.compile = .ok engine.chart)
    (inert : engine.chart.Inert) (acyclic : engine.chart.Acyclic) (amid : session.Amid engine mark)
    (next : engine.nextEdge? session id = some (ref, edge))
    (performs : Performs engine edge.target (session.joining id ref edge.target) acted)
    (move : Move engine session (acted.leaveFootprint (.acted edge.target .perform true)))
    (keeps : session.Keeps mark (acted.leaveFootprint (.acted edge.target .perform true))) :
    (∃ support, (acted.leaveFootprint (.acted edge.target .perform true)).Rooted engine.chart mark
      edge.target support) ∨ layer < engine.chart.depth edge.target := by
  obtain ⟨strand, frontier, -, -, -, known, -⟩ := engine.nextEdge?_eq_some next
  obtain ⟨entry, mem, source⟩ := engine.exists_source_of_nextEdge? compiled next
  have given : session.nextSupport (.edge ref) ∈ (acted.activation.supports edge.target).items :=
    performs.above _ _ (amid.accounted.numbered.mem_add_nextSupport edge.target (.edge ref))
  have drawn : (session.nextSupport (.edge ref)).basis.Drawn engine.chart
      (acted.leaveFootprint (.acted edge.target .perform true)).facts edge.source edge.target := by
    rw [(move.stays inert).facts]
    exact .edge known rfl rfl (engine.opens_of_nextEdge? next)
  refine drawn.deepen compiled acyclic given ?_
  refine (cleared.of_mem_nodes (source ▸ Session.mem_nodes_of_mem_entries mem)).imp_left ?_
  exact fun ⟨support, rooted⟩ => ⟨support, rooted.move amid inert move keeps⟩

/-- A node that joins, and the node that it calls, are rooted or below the layer. -/
theorem Move.clears (move : Move engine session after) (compiled : decl.compile = .ok engine.chart)
    (inert : engine.chart.Inert) (acyclic : engine.chart.Acyclic) (amid : session.Amid engine mark)
    (keeps : session.Keeps mark after) (cleared : session.Cleared engine.chart mark layer due) :
    after.Cleared engine.chart mark layer due := by
  have still : ∀ strand ∈ session.strands.items, ∀ entry ∈ strand.entries,
      (∃ support, after.Rooted engine.chart mark entry.node support) ∨
        layer < engine.chart.depth entry.node ∨ due strand.id ∧ layer ≤ engine.chart.depth entry.node := by
    intro strand listed entry mem
    refine (cleared strand listed entry mem).imp_left fun ⟨support, rooted⟩ => ⟨support, ?_⟩
    exact rooted.move amid inert move keeps
  cases move with
  | collapsed live collapsing settled =>
      exact (collapsing.clears compiled inert acyclic amid live settled keeps cleared).mono
        fun _ _ waits => waits.1
  | merged => exact still
  | @joined acted id ref edge next idle performs =>
      have joined := amid.toOrderly.joining (engine.live_of_nextEdge? next) performs.serves ref
      have fate := cleared.joined compiled inert acyclic amid next performs (.joined next idle performs)
        keeps
      intro other there entry mem
      rcases performs.mem_strands (amid.accounted.numbered.joining id ref edge.target)
        joined.toTracked.fresh there with old | ⟨called, support, calls, entries, basis, held⟩
      · rcases Roster.mem_insert.1 old with rfl | ⟨old, -⟩
        · rcases List.mem_append.1 mem with early | here
          · obtain ⟨strand, listed, rfl, entered⟩ := Session.exists_strand_of_mem_entries early
            exact still strand listed entry entered
          · rw [List.mem_singleton.1 here]
            exact fate.imp_right .inl
        · exact still other old entry mem
      · rw [entries] at mem
        have call : support.basis.Drawn engine.chart
            (acted.leaveFootprint (.acted edge.target .perform true)).facts edge.target called := by
          rw [basis]
          exact .call calls
        rw [List.mem_singleton.1 mem]
        exact (call.deepen compiled acyclic held (fate.imp_right Nat.le_of_lt)).imp_right .inl

theorem Session.Cleared.moves (cleared : session.Cleared engine.chart mark layer due)
    (compiled : decl.compile = .ok engine.chart) (inert : engine.chart.Inert)
    (acyclic : engine.chart.Acyclic) (amid : session.Amid engine mark)
    (moves : Relation.ReflTransGen (Move engine) session after) (keeps : session.Keeps mark after) :
    after.Cleared engine.chart mark layer due := by
  induction moves using Relation.ReflTransGen.head_induction_on with
  | refl => exact cleared
  | @head session next move rest ih =>
      have later := (amid.move inert move).moves inert rest
      exact ih (move.clears compiled inert acyclic amid (keeps.trans later.2) cleared)
        (amid.move inert move) ((move.keeps amid.counted).trans keeps)

end Clears

end Flowchart
