import Flowchart.Proofs.Grounded
import Flowchart.Proofs.Layers
import Mathlib.Order.CompletePartialOrder

/-!
Settling comes to an end. Where no node writes a fact and neither edges nor calls form a circle, each
round that changes anything lowers a measure. Either one of the supports is lost that were there when
the rounds began, of which there are so and so many and no new ones. Or what does not rest on them is
pushed one layer down in the chart, which has only so many layers. Or everything rests on them, nothing
is collapsed any more, and an edge is followed for good that was not followed before.
-/
namespace Flowchart

variable {σ : Type} {engine : Engine σ} {chart : Chart} {decl : ChartDecl}

/-- The supports in the session up to the mark, each with its node. -/
def Session.roots (mark : Nat) (session : Session σ) : Set (NodeRef × Support) :=
  {held | held.2 ∈ (session.activation.supports held.1).items ∧ held.2.id.number ≤ mark}

/-- The edges along which their target has got a support that is rooted. -/
def Session.followed (chart : Chart) (mark : Nat) (session : Session σ) : Set EdgeRef :=
  {ref | ∃ edge support, chart.edge? ref = some edge ∧
    session.Rooted chart mark edge.target support ∧ support.basis = .edge ref}

section Counts

variable {session after : Session σ} {mark : Nat}

/-- There are no more roots than supports. -/
theorem Session.ncard_roots_le (mark : Nat) (session : Session σ) :
    (session.roots mark).Finite ∧ (session.roots mark).ncard ≤ session.holdings.length := by
  classical
  have within : session.roots mark ⊆ session.holdings.toFinset :=
    fun held mem => List.mem_toFinset.2 (Session.mem_holdings mem.1)
  refine ⟨Set.Finite.subset (Finset.finite_toSet _) within, ?_⟩
  have counted := Set.ncard_le_ncard within (Finset.finite_toSet _)
  rw [Set.ncard_coe_finset] at counted
  exact counted.trans (List.toFinset_card_le _)

theorem Session.Keeps.roots_subset (keeps : session.Keeps mark after) :
    session.roots mark ⊆ after.roots mark :=
  fun held mem => ⟨keeps held.1 held.2 mem.1 mem.2, mem.2⟩

/-- Either all roots are kept or there are fewer of them. -/
theorem Session.keeps_or_roots_lt (narrower : after.Keeps mark session) :
    session.Keeps mark after ∨ (after.roots mark).ncard < (session.roots mark).ncard := by
  by_cases keeps : session.Keeps mark after
  · exact .inl keeps
  · refine .inr (Set.ncard_lt_ncard ⟨narrower.roots_subset, fun all => keeps ?_⟩
      (session.ncard_roots_le mark).1)
    exact fun node support mem below => (all (a := (node, support)) ⟨mem, below⟩).1

theorem Session.ncard_followed_le (chart : Chart) (mark : Nat) (session : Session σ) :
    (session.followed chart mark).Finite ∧
      (session.followed chart mark).ncard ≤ chart.edges.length := by
  have injective : Function.Injective EdgeRef.index := by
    rintro ⟨first⟩ ⟨second⟩ rfl
    rfl
  refine ncard_le_of_index_lt injective ?_
  rintro ref ⟨edge, support, known, -⟩
  exact (List.getElem?_eq_some_iff.1 known).1

theorem Session.followed_subset (rooted : ∀ {node support},
      session.Rooted chart mark node support → after.Rooted chart mark node support) :
    session.followed chart mark ⊆ after.followed chart mark := by
  rintro ref ⟨edge, support, known, old, basis⟩
  exact ⟨edge, support, known, rooted old, basis⟩

end Counts

namespace Engine

variable {session after : Session σ} {id : StrandId} {mark layer : Nat}

/-- An edge that is followed from a rooted frontier has not been followed before. -/
theorem followed_ssubset_of_move {ref : EdgeRef} {edge : Edge}
    (compiled : decl.compile = .ok engine.chart) (inert : engine.chart.Inert)
    (amid : session.Amid engine mark) (move : Move engine session after)
    (keeps : session.Keeps mark after)
    (upheld : ∀ node ∈ session.nodes, ∃ support, session.Rooted engine.chart mark node support)
    (next : engine.nextEdge? session id = some (ref, edge))
    (lacks : session.activation.holdsEdge edge.target ref = false)
    (given : session.nextSupport (.edge ref) ∈ (after.activation.supports edge.target).items) :
    session.followed engine.chart mark ⊂ after.followed engine.chart mark := by
  obtain ⟨strand, frontier, -, -, -, known, -⟩ := engine.nextEdge?_eq_some next
  obtain ⟨entry, mem, source⟩ := engine.exists_source_of_nextEdge? compiled next
  obtain ⟨under, rooted⟩ := upheld edge.source (source ▸ Session.mem_nodes_of_mem_entries mem)
  have opened : engine.chart.opens after.facts ref = true := by
    rw [(move.stays inert).facts]
    exact engine.opens_of_nextEdge? next
  refine ⟨Session.followed_subset fun rooted => rooted.move amid inert move keeps, fun all => ?_⟩
  have now : ref ∈ after.followed engine.chart mark :=
    ⟨edge, _, known, .edge (rooted.move amid inert move keeps) given rfl known rfl opened, rfl⟩
  obtain ⟨other, support, same, held, basis⟩ := all now
  cases known.symm.trans same
  have holds := Activation.holdsEdge_iff.2 ⟨support, held.held, Support.edge?_eq_some_iff.2 basis⟩
  exact Bool.false_ne_true (lacks.symm.trans holds)

/-- An extension that reports a change has followed an edge. -/
theorem followed_ssubset_of_extend (compiled : decl.compile = .ok engine.chart)
    (inert : engine.chart.Inert) (amid : session.Amid engine mark) {fuel steps : Nat}
    (run : engine.extend id (fuel + 1) steps session = .ok true after)
    (keeps : session.Keeps mark after)
    (upheld : ∀ node ∈ session.nodes, ∃ support, session.Rooted engine.chart mark node support) :
    session.followed engine.chart mark ⊂ after.followed engine.chart mark := by
  have numbered := amid.accounted.numbered
  rcases extend_cases engine id fuel steps session with
    ⟨-, ran⟩ | ⟨fault, ran⟩ | ⟨ref, edge, next, ⟨-, -, ran⟩ | ⟨active, lacks, ran⟩ |
      ⟨idle, acted, performs, ran⟩ | ⟨-, acted, fault, -, ran⟩⟩
  · cases ran.symm.trans run
  · cases ran.symm.trans run
  · cases ran.symm.trans run
  · cases ran.symm.trans run
    exact followed_ssubset_of_move compiled inert amid (.merged next active lacks) keeps upheld next
      lacks (numbered.mem_add_nextSupport edge.target (.edge ref))
  · obtain ⟨later, last, extended, rest⟩ := SessionM.bind_eq_ok.1 (ran.symm.trans run)
    cases rest
    have move : Move engine session (acted.leaveFootprint (.acted edge.target .perform true)) :=
      .joined next idle performs
    have moves := (extend_follows engine id fuel (steps + 1)
      (acted.leaveFootprint (.acted edge.target .perform true))).steps extended
    have amidst := amid.move inert move
    have narrower := (amidst.moves inert moves).2
    have lacks : session.activation.holdsEdge edge.target ref = false := by
      refine Bool.eq_false_iff.2 fun holds => ?_
      obtain ⟨support, held, -⟩ := Activation.holdsEdge_iff.1 holds
      exact Activation.isActive_eq_false_iff.1 idle support held
    have first := followed_ssubset_of_move compiled inert amid move (keeps.trans narrower) upheld next
      lacks (performs.above _ _ (numbered.mem_add_nextSupport edge.target (.edge ref)))
    exact first.trans_subset (Session.followed_subset fun rooted =>
      rooted.moves amidst inert moves ((move.keeps amid.counted).trans keeps))
  · cases ran.symm.trans run

/-- A turn that succeeds is a collapse and, if the strand is still there, an extension. -/
theorem exists_parts_of_advance {changed : Bool} (inert : engine.chart.Inert)
    (inv : session.Orderly engine) (live : session.strands.contains id = true)
    (run : engine.advance id session = .ok changed after) :
    ∃ kept between extended, Collapsing engine id session (kept, between) ∧
      (∀ mark ∈ kept, mark.2 = true) ∧
      engine.extend id (engine.chart.nodes.length + 1) 0 between = .ok extended after ∧
      changed = (((session.verdicts engine.chart id).any fun mark => !mark.2) || extended) ∧
      Relation.ReflTransGen (Move engine) (between.tidy id) (after.tidy id) := by
  obtain ⟨kept, between, collapsing, settled, ran⟩ := exists_collapse inert inv live
  unfold advance at run
  rw [SessionM.bind_of_ok ran] at run
  obtain ⟨extended, last, extension, done⟩ := SessionM.bind_eq_ok.1 run
  cases done
  refine ⟨kept, between, extended, collapsing, settled, extension, rfl, ?_⟩
  by_cases empty : between.entries id = []
  · cases (extend_of_empty empty _ 0).symm.trans extension
    exact .refl
  · rw [Session.tidy_of_ne_nil empty, Session.tidy_of_ne_nil (entries_ne_nil_of_extend empty extension)]
    exact (extend_follows engine id (engine.chart.nodes.length + 1) 0 between).steps extension

/-- Where everything is rooted a turn that changes anything follows an edge. -/
theorem followed_ssubset_of_advance (compiled : decl.compile = .ok engine.chart)
    (inert : engine.chart.Inert) (amid : session.Amid engine mark)
    (live : session.strands.contains id = true) (run : engine.advance id session = .ok true after)
    (keeps : session.Keeps mark (after.tidy id))
    (upheld : ∀ node ∈ session.nodes, ∃ support, session.Rooted engine.chart mark node support) :
    session.followed engine.chart mark ⊂ (after.tidy id).followed engine.chart mark := by
  obtain ⟨kept, between, extended, collapsing, settled, extension, changed, moves⟩ :=
    exists_parts_of_advance inert amid.toOrderly live run
  have move : Move engine session (between.tidy id) := .collapsed live collapsing settled
  have amidst := amid.move inert move
  have held := keeps.trans (amidst.moves inert moves).2
  have quiet : ∀ mark ∈ session.verdicts engine.chart id, mark.2 = true := by
    intro verdict mem
    refine Bool.eq_true_of_not_eq_false fun refuted => ?_
    obtain ⟨entry, found⟩ := verdict
    cases refuted
    have entered : entry ∈ session.entries id := by
      rw [← map_fst_sweepEntries engine.chart session.facts session.activation (session.entries id)]
      exact List.mem_map_of_mem mem
    obtain ⟨support, rooted⟩ := upheld entry.node (Session.mem_nodes_of_mem_entries entered)
    have active := (rooted.move amid inert move held).active
    rw [Session.isActive, Session.activation_tidy] at active
    have found := Activation.isActive_mono (collapsing.below_swept entry.node) active
    exact Bool.false_ne_true ((isActive_of_mem_false mem).symm.trans found)
  -- Nothing is undone, so the turn comes to a sweep and an extension.
  have none : ((session.verdicts engine.chart id).any fun mark => !mark.2) = false := by
    simpa using quiet
  rw [none, Bool.false_or] at changed
  cases changed
  cases collapsing.eq_swept quiet
  have filled : (session.swept engine.chart id).entries id ≠ [] := entries_ne_nil_of_live amid.filled live
  rw [Session.tidy_of_ne_nil filled] at move amidst held
  rw [Session.tidy_of_ne_nil (entries_ne_nil_of_extend filled extension)] at keeps ⊢
  have wider : session.followed engine.chart mark ⊆
      (session.swept engine.chart id).followed engine.chart mark :=
    Session.followed_subset fun rooted => rooted.move amid inert move held
  refine wider.trans_ssubset (followed_ssubset_of_extend compiled inert amidst extension
    ((move.keeps amid.counted).trans keeps) fun node mem => ?_)
  obtain ⟨support, rooted⟩ := upheld node mem
  exact ⟨support, rooted.move amid inert move held⟩

end Engine

/-- All entries are in the layer or below, or rooted, exactly if they are cleared of the one above. -/
theorem Session.cleared_succ_iff {session : Session σ} {mark layer : Nat} :
    session.Cleared chart mark (layer + 1) (fun _ => True) ↔
      session.Cleared chart mark layer fun _ => False := by
  refine forall₂_congr fun strand _ => forall₂_congr fun entry _ => or_congr_right ?_
  rw [true_and, false_and, or_false]
  constructor
  · rintro (deeper | deep)
    · exact (Nat.lt_succ_self layer).trans deeper
    · exact deep
  · exact .inr

/-- No node is further down than there are nodes. -/
theorem Session.Cleared.upheld {session : Session σ} {mark : Nat}
    (cleared : session.Cleared chart mark chart.nodes.length fun _ => False) :
    ∀ node ∈ session.nodes, ∃ support, session.Rooted chart mark node support := by
  intro node mem
  obtain ⟨strand, listed, here⟩ := Session.mem_nodes.1 mem
  obtain ⟨entry, entered, rfl⟩ := List.mem_map.1 here
  rcases cleared strand listed entry entered with rooted | deeper | ⟨never, -⟩
  · exact rooted
  · exact absurd (chart.depth_le entry.node) (Nat.not_le.2 deeper)
  · exact never.elim

namespace Engine

variable {session after : Session σ} {mark layer : Nat}

/-- After the turns of all strands that are due, no entry is left in the layer. -/
theorem cleared_of_turns (compiled : decl.compile = .ok engine.chart) (inert : engine.chart.Inert)
    (acyclic : engine.chart.Acyclic) {ids finished : List StrandId} {changed : Bool}
    {due : StrandId → Prop} (amid : session.Amid engine mark)
    (run : engine.turns ids session = .ok (changed, finished) after) (keeps : session.Keeps mark after)
    (listed : ∀ id, due id → id ∈ ids) (cleared : session.Cleared engine.chart mark layer due) :
    after.Cleared engine.chart mark layer fun _ => False := by
  induction ids generalizing session due changed finished with
  | nil =>
      cases run
      exact cleared.mono fun strand _ waits => nomatch listed strand.id waits
  | cons id rest ih =>
      have others : ∀ other, due other ∧ other ≠ id → other ∈ rest := by
        rintro other ⟨waits, apart⟩
        exact (List.mem_cons.1 (listed other waits)).resolve_left apart
      cases live : session.strands.contains id with
      | true =>
          obtain ⟨advanced, between, later, ended, turn, turned, -, -⟩ := exists_parts_of_turns live run
          obtain ⟨kept, swept, extended, collapsing, settled, -, -, moves⟩ :=
            exists_parts_of_advance inert amid.toOrderly live turn
          have move : Move engine session (swept.tidy id) := .collapsed live collapsing settled
          have following := (engine.turns_follows rest (between.tidy id)).steps turned
          have amidst := amid.move inert move
          have first := amidst.moves inert moves
          have second := first.1.moves inert following
          have held := keeps.trans second.2
          have cut := collapsing.clears compiled inert acyclic amid live settled (held.trans first.2)
            cleared
          have now := cut.moves compiled inert acyclic amidst moves
            ((move.keeps amid.counted).trans held)
          exact ih first.1 turned (((first.2.trans (move.keeps amid.counted))).trans keeps) others now
      | false =>
          rw [turns_cons_of_dead rest live] at run
          refine ih amid run keeps others (cleared.mono fun strand here waits => ⟨waits, ?_⟩)
          rintro rfl
          exact Bool.eq_false_iff.1 live (Roster.contains_iff.2 (List.mem_map_of_mem here))

/-- Where everything is rooted, turns that change anything follow an edge. -/
theorem followed_ssubset_of_turns (compiled : decl.compile = .ok engine.chart)
    (inert : engine.chart.Inert) (acyclic : engine.chart.Acyclic) {ids finished : List StrandId}
    (amid : session.Amid engine mark) (run : engine.turns ids session = .ok (true, finished) after)
    (keeps : session.Keeps mark after)
    (cleared : session.Cleared engine.chart mark engine.chart.nodes.length fun _ => False) :
    session.followed engine.chart mark ⊂ after.followed engine.chart mark := by
  induction ids generalizing session finished with
  | nil => cases run
  | cons id rest ih =>
      cases live : session.strands.contains id with
      | true =>
          obtain ⟨advanced, between, later, ended, turn, turned, -, changed⟩ :=
            exists_parts_of_turns live run
          have moves := moves_of_advance live turn
          have following := (engine.turns_follows rest (between.tidy id)).steps turned
          have first := amid.moves inert moves
          have second := first.1.moves inert following
          have held := keeps.trans second.2
          have onward := first.2.trans keeps
          have before := Session.followed_subset fun rooted => rooted.moves amid inert moves held
          have since := Session.followed_subset fun rooted =>
            rooted.moves first.1 inert following onward
          cases advanced with
          | true =>
              exact (followed_ssubset_of_advance compiled inert amid live turn held
                cleared.upheld).trans_subset since
          | false =>
              cases later with
              | true =>
                  exact before.trans_ssubset (ih first.1 turned onward
                    (cleared.moves compiled inert acyclic amid moves held))
              | false => cases changed
      | false =>
          rw [turns_cons_of_dead rest live] at run
          exact ih amid run keeps cleared

end Engine

theorem Session.stays_of_moves {session after : Session σ} (inert : engine.chart.Inert)
    (moves : Relation.ReflTransGen (Move engine) session after) : session.Stays after := by
  induction moves with
  | refl => exact .refl session
  | tail _ move ih => exact ih.trans (move.stays inert)

/-- The roots that are left, the layers that are left, and the edges that are left to follow, come to no
more than the bound; each root has to make up for all layers and edges. -/
structure Session.Measured (engine : Engine σ) (mark bound : Nat) (session : Session σ) : Prop
    extends session.Amid engine mark where
  untouched : session.touched = []
  within : ∃ layer ≤ engine.chart.nodes.length + 1,
    session.Cleared engine.chart mark layer (fun _ => True) ∧
      (session.roots mark).ncard * (engine.chart.nodes.length + engine.chart.edges.length + 2) +
          (engine.chart.nodes.length + 1 - layer) +
          (engine.chart.edges.length - (session.followed engine.chart mark).ncard) ≤ bound

namespace Session.Measured

variable {session after : Session σ} {mark bound : Nat}

/-- Turns that change anything lower the bound. -/
theorem turns (measured : session.Measured engine mark bound)
    (compiled : decl.compile = .ok engine.chart) (inert : engine.chart.Inert)
    (acyclic : engine.chart.Acyclic) {finished : List StrandId}
    (run : engine.turns session.strands.keys session = .ok (true, finished) after) :
    ∃ lower < bound, after.Measured engine mark lower := by
  have amid := measured.toAmid
  have moves := (engine.turns_follows session.strands.keys session).steps run
  obtain ⟨amidst, narrower⟩ := amid.moves inert moves
  have untouched : after.touched = [] :=
    List.eq_nil_of_subset_nil (measured.untouched ▸ (Session.stays_of_moves inert moves).touched)
  have edges := session.ncard_followed_le engine.chart mark
  have left := after.ncard_followed_le engine.chart mark
  obtain ⟨layer, top, cleared, bounded⟩ := measured.within
  rcases session.keeps_or_roots_lt narrower with keeps | fewer
  · have roots := Set.ncard_le_ncard narrower.roots_subset (session.ncard_roots_le mark).1
    have product := Nat.mul_le_mul_right
      (engine.chart.nodes.length + engine.chart.edges.length + 2) roots
    by_cases bottom : layer = engine.chart.nodes.length + 1
    · -- Everything rests on the roots: an edge is followed that had not been followed before.
      rw [bottom] at cleared bounded
      have clear := Session.cleared_succ_iff.1 cleared
      have more := Set.ncard_lt_ncard
        (Engine.followed_ssubset_of_turns compiled inert acyclic amid run keeps clear) left.1
      have still := clear.moves compiled inert acyclic amid moves keeps
      refine ⟨bound - 1, by omega, amidst, untouched, engine.chart.nodes.length + 1, Nat.le_refl _,
        Session.cleared_succ_iff.2 still, by omega⟩
    · -- The roots are all there: the round clears a layer.
      have due : session.Cleared engine.chart mark layer (· ∈ session.strands.keys) :=
        cleared.mono fun strand listed _ => List.mem_map_of_mem listed
      have clear := Engine.cleared_of_turns compiled inert acyclic amid run keeps (fun _ mem => mem) due
      have more := Set.ncard_le_ncard
        (Session.followed_subset fun rooted => rooted.moves amid inert moves keeps) left.1
      refine ⟨bound - 1, by omega, amidst, untouched, layer + 1, by omega,
        Session.cleared_succ_iff.2 clear, by omega⟩
  · -- A root is lost: its share of the bound pays for all layers and edges to begin anew.
    have product := Nat.mul_le_mul_right
      (engine.chart.nodes.length + engine.chart.edges.length + 2) (Nat.succ_le_of_lt fewer)
    rw [Nat.succ_mul] at product
    refine ⟨bound - 1, by omega, amidst, untouched, 0, Nat.zero_le _, ?_, by omega⟩
    exact fun strand listed entry mem => .inr (.inr ⟨trivial, Nat.zero_le _⟩)

/-- A round succeeds, and if it changes anything it lowers the bound. -/
theorem round (measured : session.Measured engine mark bound)
    (compiled : decl.compile = .ok engine.chart) (inert : engine.chart.Inert)
    (acyclic : engine.chart.Acyclic) (unlimited : engine.config.maxFlowSteps = none) :
    ∃ changed latest after, engine.round session = .ok (changed, latest) after ∧ latest.rounds = 1 ∧
      (changed = true → ∃ lower < bound, after.Measured engine mark lower) := by
  obtain ⟨changed, finished, after, turned⟩ :=
    Engine.exists_turns compiled inert unlimited measured.toOrderly session.strands.keys
  have moves := (engine.turns_follows session.strands.keys session).steps turned
  have untouched : after.touched = [] :=
    List.eq_nil_of_subset_nil (measured.untouched ▸ (Session.stays_of_moves inert moves).touched)
  have got : (get : SessionM σ (Session σ)) session = .ok session session := rfl
  have took : SessionM.takeTouched after = .ok [] after := by
    obtain ⟨facts, activation, strands, snapshots, replaced, calls, touched⟩ := after
    cases untouched
    rfl
  have asked : engine.indicate [] after = .ok [] after := rfl
  refine ⟨changed, ⟨1, changed, [], finished⟩, after, ?_, rfl, ?_⟩
  · unfold Engine.round
    rw [SessionM.bind_of_ok got, SessionM.bind_of_ok turned]
    simp only [SessionM.bind_of_ok took, SessionM.bind_of_ok asked, List.isEmpty_nil, Bool.not_true,
      Bool.or_false]
    rfl
  · rintro rfl
    exact measured.turns compiled inert acyclic turned

/-- Rounds come to an end in as many as the bound allows, and one more. -/
theorem settleRounds (measured : session.Measured engine mark bound)
    (compiled : decl.compile = .ok engine.chart) (inert : engine.chart.Inert)
    (acyclic : engine.chart.Acyclic) (unlimited : engine.config.maxFlowSteps = none) (report : Report)
    (allows : SessionM.Allows engine.config.maxRounds (report.rounds + bound + 1)) :
    ∃ done after, ∀ fuel, bound < fuel → engine.settleRounds fuel report session = .ok done after := by
  induction bound using Nat.strong_induction_on generalizing session report with
  | _ bound ih =>
      obtain ⟨changed, latest, next, went, rounds, falls⟩ :=
        measured.round compiled inert acyclic unlimited
      have first : SessionM.Allows engine.config.maxRounds (report.rounds + 1) :=
        fun limit given => (by omega : report.rounds + 1 ≤ _).trans (allows limit given)
      have passed := SessionM.checkLimit_of_allows .rounds first session
      cases changed with
      | false =>
          refine ⟨report.add latest, next, fun fuel enough => ?_⟩
          obtain ⟨fuel, rfl⟩ := Nat.exists_eq_succ_of_ne_zero (Nat.ne_zero_of_lt enough)
          exact Engine.settleRounds_of_still first went fuel
      | true =>
          obtain ⟨lower, less, measures⟩ := falls rfl
          have counted : (report.add latest).rounds = report.rounds + 1 := by
            rw [Report.add, rounds]
          have allowed : SessionM.Allows engine.config.maxRounds
              ((report.add latest).rounds + lower + 1) := by
            intro limit given
            rw [counted]
            exact (by omega : report.rounds + 1 + lower + 1 ≤ _).trans (allows limit given)
          obtain ⟨done, after, settled⟩ := ih lower less measures (report.add latest) allowed
          refine ⟨done, after, fun fuel enough => ?_⟩
          obtain ⟨fuel, rfl⟩ := Nat.exists_eq_succ_of_ne_zero (Nat.ne_zero_of_lt enough)
          rw [Engine.settleRounds, SessionM.bind_of_ok passed, SessionM.bind_of_ok went]
          exact settled fuel (by omega)

end Session.Measured

/-- As many rounds as a settling can take that begins in the session. -/
def Session.roundBound (chart : Chart) (session : Session σ) : Nat :=
  (session.holdings.length + 1) * (chart.nodes.length + chart.edges.length + 2)

/-- The engine under other limits. -/
def Engine.under (engine : Engine σ) (config : Config) : Engine σ := { engine with config := config }

namespace Engine

variable {session : Session σ}

theorem carryOut_under (engine : Engine σ) (config : Config) (indications : List Indication) :
    (engine.under config).carryOut indications = engine.carryOut indications := by
  induction indications with
  | nil => rfl
  | cons indication rest ih =>
      cases indication with
      | start node basis =>
          unfold carryOut
          rw [ih]
          rfl
      | subflow composed node basis =>
          unfold carryOut
          rw [ih]
          rfl

/-- The limits of an engine have no say in what its source makes of changes. -/
theorem indicate_under (engine : Engine σ) (config : Config) (facts : List String) :
    (engine.under config).indicate facts = engine.indicate facts := by
  induction facts with
  | nil => rfl
  | cons fact rest ih =>
      funext session
      rw [indicate_cons, indicate_cons, ih, carryOut_under]
      rfl

/-- Where no node writes a fact none is ever touched. -/
theorem Reaches.untouched {permits : Session σ → Operation σ → Prop} {facts : Facts}
    (inert : engine.chart.Inert) (reached : engine.Reaches permits facts session) :
    session.touched = [] := by
  refine Engine.Reaches.invariant_all (motive := fun session => session.touched = [])
    ?_ ?_ ?_ ?_ ?_ reached
  · exact fun _ => rfl
  · exact fun inv change => List.eq_nil_of_subset_nil (inv ▸ (change.stays inert).touched)
  · exact fun _ _ inv broke => List.eq_nil_of_subset_nil (inv ▸ (broke.stays inert).touched)
  · exact fun _ inv => inv
  · exact fun _ inv => inv

end Engine

theorem Session.Orderly.under {session : Session σ} (inv : session.Orderly engine) (config : Config) :
    session.Orderly (engine.under config) :=
  ⟨⟨inv.ascending, inv.numbered, inv.served, inv.covered⟩, inv.filled⟩

theorem Session.exists_roundBound_eq (chart : Chart) (session : Session σ) :
    ∃ bound, session.roundBound chart = bound + 1 :=
  ⟨session.holdings.length * (chart.nodes.length + chart.edges.length + 2) +
    (chart.nodes.length + chart.edges.length + 1), Nat.succ_mul _ _⟩

/-- With the supports that are there at first as roots, a session is measured from the start. -/
theorem Session.Orderly.measured {session : Session σ} (inv : session.Orderly engine)
    (accounted : session.Accounted) (untouched : session.touched = []) {bound : Nat}
    (total : session.roundBound engine.chart = bound + 1) :
    session.Measured engine session.supportCount bound where
  toOrderly := inv
  accounted := accounted
  counted := Nat.le_refl _
  drawn node support mem above := absurd above (Nat.not_lt.2 (accounted.numbered node support mem))
  untouched := untouched
  within := by
    have roots := Nat.mul_le_mul_right (engine.chart.nodes.length + engine.chart.edges.length + 2)
      (session.ncard_roots_le session.supportCount).2
    rw [Session.roundBound, Nat.succ_mul] at total
    refine ⟨0, Nat.zero_le _, ?_, by omega⟩
    exact fun strand listed entry mem => .inr (.inr ⟨trivial, Nat.zero_le _⟩)

namespace Engine

variable {session asked : Session σ} {changed : List String} {started : List StrandId}

/-- The session in which the source has been asked is measured, whatever the limits. -/
theorem Reaches.measured {facts : Facts} (inert : engine.chart.Inert)
    (reached : engine.Reaches Operation.Native facts session)
    (indicated : engine.indicate changed session = .ok started asked) (config : Config) {bound : Nat}
    (total : asked.roundBound engine.chart = bound + 1) :
    asked.Measured (engine.under config) asked.supportCount bound := by
  have source : engine.SourceGrants (Grants.native : Grants σ).mints := engine.sourceGrants_all
  have changes : Changes engine .native session asked :=
    .of_offers ((engine.indicate_follows source changed session).steps indicated)
  have accounted : asked.Accounted :=
    changes.keep (fun inv change => change.accounted inv) reached.accounted
  have untouched : asked.touched = [] :=
    (engine.indicate_leaves indicated).2.trans (reached.untouched inert)
  exact ((reached.orderly.changes changes).under config).measured accounted untouched total

/-- Fuel for as many rounds as are allowed is fuel enough, unless 64 bits cannot count them. -/
theorem le_roundFuel {bound : Nat} (allows : SessionM.Allows engine.config.maxRounds bound)
    (counted : engine.config.maxRounds ≠ none ∨ bound ≤ UInt64.size) : bound ≤ engine.roundFuel := by
  unfold roundFuel
  split
  · rename_i limit given
    exact (allows limit given).trans (Nat.le_succ _)
  · rename_i given
    exact counted.resolve_left fun limited => limited given

/-- Where no node writes a fact and neither edges nor calls form a circle, settling ends, whatever a host
has done with the supports of the session and whichever facts it says have changed. Without a limit on the
steps of a strand it succeeds, be it without a limit on the rounds or with one that the bound keeps to:
at most one more than the supports that are there at first, times the nodes and edges of the chart and
two. -/
theorem Reaches.settle_succeeds (compiled : decl.compile = .ok engine.chart)
    (inert : engine.chart.Inert) (acyclic : engine.chart.Acyclic)
    (source : engine.source = .triggers ∨ engine.source = .silent) {facts : Facts}
    (reached : engine.Reaches Operation.Native facts session) (changed : List String) :
    ∃ started asked, engine.indicate changed session = .ok started asked ∧
      ∀ config : Config, config.maxFlowSteps = none →
        SessionM.Allows config.maxRounds (asked.roundBound engine.chart) →
        ∃ report after,
          (∀ fuel, asked.roundBound engine.chart ≤ fuel →
            (engine.under config).settleWithin fuel changed session = .ok report after) ∧
          (config.maxRounds ≠ none ∨ asked.roundBound engine.chart ≤ UInt64.size →
            (engine.under config).settle changed session = .ok report after) := by
  obtain ⟨started, asked, indicated⟩ := exists_indicate compiled source changed session
  refine ⟨started, asked, indicated, fun config unlimited allows => ?_⟩
  have settles : ∃ report after, ∀ fuel, asked.roundBound engine.chart ≤ fuel →
      (engine.under config).settleWithin fuel changed session = .ok report after := by
    cases empty : (engine.under config).chart.isEmpty with
    | true => exact ⟨.initial, session, fun fuel _ => settleWithin_of_isEmpty empty fuel changed session⟩
    | false =>
        obtain ⟨bound, total⟩ := asked.exists_roundBound_eq engine.chart
        have measured := reached.measured inert indicated config total
        have asks : (engine.under config).indicate changed session = .ok started asked := by
          rw [indicate_under, indicated]
        obtain ⟨report, after, ran⟩ := measured.settleRounds compiled inert acyclic unlimited
          { Report.initial with started := started } (by rwa [total, ← Nat.zero_add (bound + 1)] at allows)
        refine ⟨report, after, fun fuel enough => ?_⟩
        rw [settleWithin_of_indicate empty asks]
        exact ran fuel (by omega)
  obtain ⟨report, after, settled⟩ := settles
  exact ⟨report, after, settled, fun counted => settled _ (le_roundFuel allows counted)⟩

end Engine

/-- Every edge and every call leads on to a node with a higher number. -/
def Chart.ascends (chart : Chart) : Bool :=
  (chart.edges.all fun edge => decide (edge.source.index < edge.target.index)) &&
    chart.nodes.zipIdx.all fun row =>
      match row.1.kind with
      | .composed called => decide (row.2 < called.index)
      | _ => true

theorem Chart.Leads.index_lt {source node : NodeRef} (leads : chart.Leads source node)
    (ascends : chart.ascends = true) : source.index < node.index := by
  rw [Chart.ascends, Bool.and_eq_true, List.all_eq_true, List.all_eq_true] at ascends
  cases leads with
  | edge known leaves enters =>
      rw [← leaves, ← enters]
      exact of_decide_eq_true (ascends.1 _ (List.mem_of_getElem? known))
  | call calls =>
      obtain ⟨record, listed, kind⟩ := Option.map_eq_some_iff.1 calls
      have passes := ascends.2 (record, source.index) (List.mk_mem_zipIdx_iff_getElem?.2 listed)
      rw [kind] at passes
      exact of_decide_eq_true passes

theorem Chart.acyclic_of_ascends (ascends : chart.ascends = true) : chart.Acyclic := by
  have onward : ∀ {source node}, Relation.TransGen chart.Leads source node →
      source.index < node.index := by
    intro source node path
    induction path with
    | single leads => exact leads.index_lt ascends
    | tail _ leads ih => exact ih.trans (leads.index_lt ascends)
  exact fun node circle => Nat.lt_irrefl _ (onward circle)

/-- Both calls and all that rests on them come to six supports, on five nodes with three edges. -/
theorem settle_succeeds_shared :
    ∃ report after,
      (sharedEngine.under ⟨some 70, none, true⟩).settle ["q"] sharedSession = .ok report after := by
  have compiled : sharedDecl.compile = .ok sharedDecl.chart :=
    sharedDecl.compile_of_isOk (by decide +kernel)
  obtain ⟨started, asked, indicated, settles⟩ := Engine.Reaches.settle_succeeds compiled inert_shared
    (Chart.acyclic_of_ascends (by decide +kernel)) (.inl rfl) reaches_shared ["q"]
  have total : (match sharedEngine.indicate ["q"] sharedSession with
      | .ok _ asked => asked.roundBound sharedEngine.chart
      | .error _ _ => 0) = 70 := by decide +kernel
  rw [indicated] at total
  obtain ⟨report, after, -, settled⟩ := settles ⟨some 70, none, true⟩ rfl (by
    rintro bound ⟨⟩
    exact Nat.le_of_eq total)
  exact ⟨report, after, settled (.inl nofun)⟩

end Flowchart
