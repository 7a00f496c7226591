import Flowchart.Proofs.Rest

/-!
What a report says of strands is what became of them. Strands are opened under new numbers and are
dropped once they have no entries; settling reports the ones that indications opened and the ones that
were dropped. And where it reports no change it has acted at origins alone.
-/
namespace Flowchart

variable {σ : Type} {engine : Engine σ} {grants : Grants σ}

/-- What became of the strands of a session: `opened` are some of those opened in the meantime, `gone` are
those dropped. -/
structure Session.Turnover (session after : Session σ) (opened gone : List StrandId) : Prop where
  counted : session.strandCount ≤ after.strandCount
  kept : ∀ id ∈ session.strands.keys, id ∈ after.strands.keys ∨ id ∈ gone
  arrived : ∀ id ∈ after.strands.keys, id ∈ session.strands.keys ∨ session.strandCount < id.number
  new : ∀ id ∈ opened, session.strandCount < id.number ∧ id.number ≤ after.strandCount ∧
    (id ∈ after.strands.keys ∨ id ∈ gone)
  distinct : opened.Nodup
  left : ∀ id ∈ gone, id.number ≤ after.strandCount ∧ id ∉ after.strands.keys ∧
    (id ∈ session.strands.keys ∨ session.strandCount < id.number)
  once : gone.Nodup

namespace Session.Turnover

variable {session between after : Session σ} {opened gone later ended : List StrandId}

theorem of_keys (keys : after.strands.keys = session.strands.keys)
    (count : after.strandCount = session.strandCount) : session.Turnover after [] [] where
  counted := Nat.le_of_eq count.symm
  kept _ live := .inl (keys ▸ live)
  arrived _ live := .inl (keys ▸ live)
  new _ mem := nomatch mem
  distinct := .nil
  left _ mem := nomatch mem
  once := .nil

theorem refl (session : Session σ) : session.Turnover session [] [] := .of_keys rfl rfl

/-- A number that was given out is not given out again, so a strand that is gone does not come back. -/
theorem trans (first : session.Turnover between opened gone)
    (second : between.Turnover after later ended) :
    session.Turnover after (opened ++ later) (gone ++ ended) where
  counted := first.counted.trans second.counted
  kept id live := by
    rcases first.kept id live with still | dropped
    · exact (second.kept id still).imp_right (List.mem_append_right _)
    · exact .inr (List.mem_append_left _ dropped)
  arrived id live := by
    rcases second.arrived id live with old | new
    · exact first.arrived id old
    · exact .inr (first.counted.trans_lt new)
  new id mem := by
    rcases List.mem_append.1 mem with early | late
    · obtain ⟨above, below, present⟩ := first.new id early
      refine ⟨above, below.trans second.counted, ?_⟩
      rcases present with still | dropped
      · exact (second.kept id still).imp_right (List.mem_append_right _)
      · exact .inr (List.mem_append_left _ dropped)
    · obtain ⟨above, below, present⟩ := second.new id late
      exact ⟨first.counted.trans_lt above, below, present.imp_right (List.mem_append_right _)⟩
  distinct := by
    refine List.nodup_append.2 ⟨first.distinct, second.distinct, fun id early other late same => ?_⟩
    subst same
    exact Nat.not_lt_of_le (first.new id early).2.1 (second.new id late).1
  left id mem := by
    rcases List.mem_append.1 mem with early | late
    · obtain ⟨below, absent, was⟩ := first.left id early
      refine ⟨below.trans second.counted, fun live => ?_, was⟩
      exact (second.arrived id live).elim absent (Nat.not_lt_of_le below)
    · obtain ⟨below, absent, was⟩ := second.left id late
      exact ⟨below, absent, was.elim (first.arrived id) fun new => .inr (first.counted.trans_lt new)⟩
  once := by
    refine List.nodup_append.2 ⟨first.once, second.once, fun id early other late same => ?_⟩
    subst same
    obtain ⟨below, absent, -⟩ := first.left id early
    exact (second.left id late).2.2.elim absent (Nat.not_lt_of_le below)

theorem openStrand (session : Session σ) (node : NodeRef) (kind : NodeKind) (support : Support) :
    session.Turnover (session.openStrand node kind support) [⟨session.strandCount + 1⟩] [] := by
  have keys {id : StrandId} : id ∈ (session.openStrand node kind support).strands.keys ↔
      id ∈ session.strands.keys ∨ id = ⟨session.strandCount + 1⟩ := by
    obtain ⟨snapshots, opened⟩ := session.openStrand_eq node kind support
    rw [opened]
    exact Roster.mem_keys_insert
  have count := session.strandCount_openStrand node kind support
  constructor
  · exact count ▸ Nat.le_succ _
  · exact fun id live => .inl (keys.2 (.inl live))
  · rintro id live
    exact (keys.1 live).imp_right fun same => by
      rw [same]
      exact Nat.lt_succ_self _
  · intro id mem
    rw [List.mem_singleton.1 mem, count]
    exact ⟨Nat.lt_succ_self _, Nat.le_refl _, .inl (keys.2 (.inr rfl))⟩
  · exact List.nodup_singleton _
  · exact fun _ mem => absurd mem List.not_mem_nil
  · exact .nil

/-- A strand that has no entries any more is dropped. -/
theorem tidy {id : StrandId} (live : id ∈ session.strands.keys) (numbered : id.number ≤ session.strandCount) :
    session.Turnover (session.tidy id) [] (if (session.entries id).isEmpty then [id] else []) := by
  unfold Session.tidy
  split
  · have keys {other : StrandId} : other ∈ (session.dropStrand id).strands.keys ↔
        other ∈ session.strands.keys ∧ other ≠ id := Roster.mem_keys_erase
    constructor
    · exact Nat.le_refl _
    · intro other listed
      by_cases same : other = id
      · exact .inr (List.mem_singleton.2 same)
      · exact .inl (keys.2 ⟨listed, same⟩)
    · exact fun other listed => .inl (keys.1 listed).1
    · exact fun _ mem => absurd mem List.not_mem_nil
    · exact .nil
    · intro other mem
      rw [List.mem_singleton.1 mem]
      exact ⟨numbered, fun listed => (keys.1 listed).2 rfl, .inl live⟩
    · exact List.nodup_singleton _
  · exact .refl session

end Session.Turnover

section Turn

variable {session after : Session σ} {id : StrandId}

theorem Performs.turnover {node : NodeRef} (performs : Performs engine node session after) :
    session.Turnover after [] [] := by
  cases performs with
  | started | idled => exact .refl session
  | reached | assigned => exact .of_keys rfl rfl
  | invoked reacts =>
      obtain ⟨facts, host, rfl⟩ := reacts.exists_eq
      exact .of_keys rfl rfl
  | @called called origin =>
      have opened := Session.Turnover.openStrand
        (session.countSupport.addSupport called (session.nextSupport (.caller node))) called origin
        (session.nextSupport (.caller node))
      exact ⟨opened.counted, opened.kept, opened.arrived, nofun, .nil, opened.left, opened.once⟩

/-- No strand is lost while one of them is collapsed. -/
theorem Collapsing.turnover {now : List (Entry × Bool) × Session σ}
    (live : session.strands.contains id = true) (collapsing : Collapsing engine id session now) :
    session.Turnover now.2 [] [] := by
  induction collapsing with
  | refl => exact .of_keys rfl rfl
  | tail _ step ih =>
      cases step with
      | @entry before rest entry now reverted reverts =>
          have fades := (Session.Fades.removeSupport now entry.node entry.support.id).trans reverts.fades
          have still : (reverted.leaveFootprint (.acted entry.node .revert true)).strands.contains id =
              true := by
            have listed := (ih.kept id (Roster.contains_iff.1 live)).resolve_right List.not_mem_nil
            exact Roster.contains_iff.2 (fades.strands ▸ listed)
          refine ih.trans (.of_keys ?_ fades.count)
          rw [Session.keys_putStrand_of_live still]
          exact congrArg Roster.keys fades.strands

theorem Session.turnover_joining {ref : EdgeRef} {target : NodeRef}
    (live : session.strands.contains id = true) : session.Turnover (session.joining id ref target) [] [] :=
  .of_keys (Session.keys_putStrand_of_live live) rfl

namespace Engine

theorem extend_turnover {fuel steps : Nat} {changed : Bool}
    (run : engine.extend id fuel steps session = .ok changed after) : session.Turnover after [] [] := by
  induction fuel generalizing steps session changed with
  | zero => cases run
  | succ fuel ih =>
      rcases extend_cases engine id fuel steps session with
        ⟨-, ran⟩ | ⟨fault, ran⟩ | ⟨ref, edge, next, ⟨-, -, ran⟩ | ⟨-, -, ran⟩ | ⟨-, acted, performs, ran⟩ |
          ⟨-, left, fault, -, ran⟩⟩
      · cases ran.symm.trans run
        exact .refl _
      · cases ran.symm.trans run
      · cases ran.symm.trans run
        exact .refl _
      · cases ran.symm.trans run
        exact .of_keys rfl rfl
      · obtain ⟨later, last, extended, rest⟩ := SessionM.bind_eq_ok.1 (ran.symm.trans run)
        cases rest
        have joined : session.Turnover (session.joining id ref edge.target) [] [] :=
          Session.turnover_joining (engine.live_of_nextEdge? next)
        have left : acted.Turnover (acted.leaveFootprint (.acted edge.target .perform true)) [] [] :=
          .of_keys rfl rfl
        exact ((joined.trans performs.turnover).trans left).trans (ih extended)
      · cases ran.symm.trans run

/-- A turn loses no strand, not even the one whose turn it is. -/
theorem advance_turnover {changed : Bool} (live : session.strands.contains id = true)
    (run : engine.advance id session = .ok changed after) : session.Turnover after [] [] := by
  obtain ⟨collapsed, between, first, run⟩ := SessionM.bind_eq_ok.1 run
  obtain ⟨extended, last, second, run⟩ := SessionM.bind_eq_ok.1 run
  cases run
  rcases collapse_cases engine id session with
    ⟨kept, swept, collapsing, -, ran⟩ | ⟨_, _, _, _, _, fault, -, -, ran⟩
  · cases ran.symm.trans first
    exact (collapsing.turnover live).trans (extend_turnover second)
  · cases ran.symm.trans first

/-- The turns of strands report those that were dropped. -/
theorem turns_turnover {ids finished : List StrandId} {changed : Bool} (inv : session.Orderly engine)
    (run : engine.turns ids session = .ok (changed, finished) after) :
    session.Turnover after [] finished := by
  induction ids generalizing session changed finished with
  | nil =>
      cases run
      exact .refl _
  | cons id rest ih =>
      cases live : session.strands.contains id with
      | true =>
          obtain ⟨advanced, between, later, ended, turn, turned, rfl, -⟩ := exists_parts_of_turns live run
          have turnover := advance_turnover live turn
          have listed := Roster.contains_iff.1 live
          have tidied := Session.Turnover.tidy
            ((turnover.kept id listed).resolve_right List.not_mem_nil)
            ((inv.numbered id listed).trans turnover.counted)
          have all := (turnover.trans tidied).trans (ih (orderly_of_advance inv live turn) turned)
          cases empty : (between.entries id).isEmpty with
          | true | false =>
              rw [empty] at all
              exact all
      | false =>
          rw [turns_cons_of_dead rest live] at run
          exact ih inv run

theorem turnover_opened (session : Session σ) (node : NodeRef) (kind : NodeKind) (support : Support) :
    session.Turnover (((session.addSupport node support).openStrand node kind support).leaveFootprint
      (.started node)) [⟨session.strandCount + 1⟩] [] := by
  have given : session.Turnover (session.addSupport node support) [] [] := .of_keys rfl rfl
  have opened := Session.Turnover.openStrand (session.addSupport node support) node kind support
  exact (given.trans opened).trans (.of_keys rfl rfl)

/-- A strand is opened at an origin that was inactive, and its number is returned. -/
theorem begin_turnover {node : NodeRef} {support : Support} {opened : Option StrandId}
    (run : engine.begin node support session = .ok opened after) :
    session.Turnover after opened.toList [] := by
  rcases begin_cases engine node support session with
    ⟨kind, -, -, -, ran⟩ | ⟨kind, -, -, -, ran⟩ | ⟨-, fault, ran⟩
  · cases ran.symm.trans run
    exact .of_keys rfl rfl
  · cases ran.symm.trans run
    exact turnover_opened session node kind support
  · cases ran.symm.trans run

theorem enter_turnover {composed node : NodeRef} {support : Support} {opened : StrandId}
    (run : engine.enter composed node support session = .ok opened after) :
    session.Turnover after [opened] [] := by
  rcases enter_cases engine composed node support session with ⟨kind, -, -, ran⟩ | ⟨fault, ran⟩
  · cases ran.symm.trans run
    exact turnover_opened session node kind support
  · cases ran.symm.trans run

theorem carryOut_turnover {indications : List Indication} {opened : List StrandId}
    (run : engine.carryOut indications session = .ok opened after) : session.Turnover after opened [] := by
  induction indications generalizing session opened with
  | nil =>
      cases run
      exact .refl _
  | cons indication rest ih =>
      have counted : session.Turnover session.countSupport [] [] := .of_keys rfl rfl
      cases indication with
      | start node basis =>
          rw [carryOut_start] at run
          obtain ⟨first, begun, began, run⟩ := SessionM.bind_eq_ok.1 run
          obtain ⟨later, last, rested, run⟩ := SessionM.bind_eq_ok.1 run
          cases run
          exact (counted.trans (begin_turnover began)).trans (ih rested)
      | subflow composed node basis =>
          rw [carryOut_subflow] at run
          obtain ⟨first, begun, began, run⟩ := SessionM.bind_eq_ok.1 run
          obtain ⟨later, last, rested, run⟩ := SessionM.bind_eq_ok.1 run
          cases run
          exact (counted.trans (enter_turnover began)).trans (ih rested)

/-- Asking the source reports the strands that its indications opened. -/
theorem indicate_turnover {facts : List String} {opened : List StrandId}
    (run : engine.indicate facts session = .ok opened after) : session.Turnover after opened [] := by
  induction facts generalizing session opened with
  | nil =>
      cases run
      exact .refl _
  | cons fact rest ih =>
      rw [indicate_cons] at run
      obtain ⟨first, begun, carried, run⟩ := SessionM.bind_eq_ok.1 run
      obtain ⟨later, last, rested, run⟩ := SessionM.bind_eq_ok.1 run
      cases run
      have asked : session.Turnover { session with
          host := (engine.source engine.chart session.facts session.activation fact session.host).2 }
          [] [] := .of_keys rfl rfl
      exact (asked.trans (carryOut_turnover carried)).trans (ih rested)

theorem round_turnover {changed : Bool} {report : Report} (inv : session.Orderly engine)
    (run : engine.round session = .ok (changed, report) after) :
    session.Turnover after report.started report.finished := by
  obtain ⟨moved, finished, turned, started, first, asked, rfl, -⟩ := exists_parts_of_round run
  have heard : turned.Turnover { turned with touched := [] } [] [] := .of_keys rfl rfl
  have all := ((turns_turnover inv first).trans heard).trans (indicate_turnover asked)
  simpa only [List.nil_append, List.append_nil] using all

/-- Rounds that come to an end report, after what was reported before them, what they did. The only
round of a run that reports no change is one that reports none. -/
theorem settleRounds_turnover {fuel : Nat} {report done : Report} (inv : session.Orderly engine)
    (run : engine.settleRounds fuel report session = .ok done after) :
    ∃ sum, done = report.add sum ∧ session.Turnover after sum.started sum.finished ∧
      (sum.changed = false → engine.round session = .ok (false, sum) after) := by
  induction fuel generalizing report session with
  | zero => cases run
  | succ fuel ih =>
      obtain ⟨changed, latest, next, went, run⟩ := exists_parts_of_settleRounds run
      obtain ⟨moved, finished, turned, started, -, -, rfl, -⟩ := exists_parts_of_round went
      have turnover := round_turnover inv went
      cases changed with
      | false =>
          cases run
          exact ⟨_, rfl, turnover, fun _ => went⟩
      | true =>
          obtain ⟨sum, rfl, later, -⟩ := ih (orderly_of_round inv went) run
          refine ⟨Report.add ⟨1, true, started, finished⟩ sum, ?_, turnover.trans later, nofun⟩
          simp only [Report.add, Nat.add_assoc, Bool.or_assoc, List.append_assoc]

/-- Turns that report no change drop no strand and change nothing but the table of supports. -/
theorem turns_unchanged {ids finished : List StrandId}
    (filled : ∀ strand ∈ session.strands.items, strand.entries ≠ [])
    (run : engine.turns ids session = .ok (false, finished) after) :
    finished = [] ∧ ∃ table, after = { session with activation := table } := by
  induction ids generalizing session with
  | nil =>
      cases run
      exact ⟨rfl, _, rfl⟩
  | cons id rest ih =>
      cases live : session.strands.contains id with
      | true =>
          obtain ⟨advanced, turn, others⟩ := turns_cons_quiet filled live run
          obtain ⟨rfl, -⟩ := advance_eq_swept filled turn
          have still : ∀ strand ∈ (session.swept engine.chart id).strands.items, strand.entries ≠ [] :=
            filled
          obtain ⟨none, table, rfl⟩ := ih still others
          exact ⟨none, table, rfl⟩
      | false =>
          rw [turns_cons_of_dead rest live] at run
          exact ih filled run

end Engine

end Turn

/-- Origins were supported and strands were opened there. Nothing else was done. -/
structure Session.Adds (chart : Chart) (session after : Session σ) : Prop where
  facts : after.facts = session.facts
  strands : ∀ strand ∈ session.strands.items, strand ∈ after.strands.items
  trail : ∃ footprints, after.trail = footprints ++ session.trail ∧
    ∀ node deed completed, Footprint.acted node deed completed ∈ footprints →
      deed = .perform ∧ (chart.kind? node).any NodeKind.isOrigin = true

section Quiet

variable {chart : Chart} {session between after : Session σ}

theorem Session.Adds.of_same (facts : after.facts = session.facts)
    (strands : after.strands = session.strands) (trail : after.trail = session.trail) :
    session.Adds chart after where
  facts := facts
  strands _ listed := strands ▸ listed
  trail := ⟨[], trail, fun _ _ _ mem => nomatch mem⟩

theorem Session.Adds.trans (first : session.Adds chart between) (second : between.Adds chart after) :
    session.Adds chart after where
  facts := second.facts.trans first.facts
  strands strand listed := second.strands strand (first.strands strand listed)
  trail := by
    obtain ⟨early, was, acted⟩ := first.trail
    obtain ⟨late, now, later⟩ := second.trail
    refine ⟨late ++ early, ?_, fun node deed completed mem => ?_⟩
    · rw [now, was, List.append_assoc]
    · exact (List.mem_append.1 mem).elim (later node deed completed) (acted node deed completed)

theorem Offer.adds (offer : Offer engine grants session after) (inv : session.Orderly engine) :
    session.Adds engine.chart after := by
  cases offer with
  | counted | asked => exact .of_same rfl rfl rfl
  | @supported node kind support count =>
      refine ⟨rfl, fun _ listed => listed, [.started node], rfl, fun _ _ _ mem => ?_⟩
      cases List.mem_singleton.1 mem
  | @opened node kind support count known fit =>
      have new : (session.supply node support count).strands.get?
          ⟨(session.supply node support count).strandCount + 1⟩ = none := inv.toTracked.fresh
      have items := Session.items_openStrand new node kind support
      obtain ⟨snapshots, opened⟩ := (session.supply node support count).openStrand_eq node kind support
      refine ⟨?_, fun strand listed => ?_, [.started node, .acted node .perform true], ?_, ?_⟩
      · rw [opened]
        rfl
      · exact items ▸ List.mem_append_left _ listed
      · rw [opened]
        rfl
      · intro acted deed completed mem
        rcases List.mem_cons.1 mem with other | mem
        · cases other
        · cases List.mem_singleton.1 mem
          rw [known]
          exact ⟨rfl, fit⟩

theorem Engine.indicate_adds {facts : List String} {opened : List StrandId}
    (inv : session.Orderly engine) (run : engine.indicate facts session = .ok opened after) :
    after.Orderly engine ∧ session.Adds engine.chart after :=
  keep_of_indicate (fun inv offer adds => adds.trans (offer.adds inv)) inv (.of_same rfl rfl rfl) run

/-- A round that reports no change has dropped no strand and acted at origins alone. -/
theorem Engine.round_adds {report : Report} (inv : session.Orderly engine)
    (run : engine.round session = .ok (false, report) after) :
    report.rounds = 1 ∧ report.finished = [] ∧ session.Adds engine.chart after := by
  obtain ⟨moved, finished, turned, started, first, asked, rfl, still⟩ := exists_parts_of_round run
  obtain ⟨rfl, -⟩ := Bool.or_eq_false_iff.1 still.symm
  have heard : Session.Orderly engine { turned with touched := [] } :=
    (orderly_of_turns inv first).fade ⟨rfl, rfl, fun _ _ mem => mem⟩
  obtain ⟨none, table, rfl⟩ := turns_unchanged inv.filled first
  have turning : session.Adds engine.chart { session with activation := table, touched := [] } :=
    .of_same rfl rfl rfl
  exact ⟨rfl, none, turning.trans (indicate_adds heard asked).2⟩

/-- Wherever a run has led, the report of a settling that succeeds tells what became of the strands. Those
that it calls finished, once each, are not live any more, and no other strand is lost. Those that it calls
started, once each, have numbers that were not given out before, as has every strand that is live now and
was not then; they are live or finished. And if it reports no change, there was one round, no strand is
finished, and all that was done was to support origins and to open strands there: the facts, and the
strands there were, are what they were. -/
theorem Engine.Reaches.settle_reports (filled : engine.chart.isEmpty = false) {facts : Facts}
    (reached : engine.Reaches (fun _ _ => True) facts session) {changed : List String}
    {report : Report} (settled : engine.settle changed session = .ok report after) :
    (report.finished.Nodup ∧ ∀ id ∈ report.finished, id ∉ after.strands.keys) ∧
      (∀ id ∈ session.strands.keys, id ∈ after.strands.keys ∨ id ∈ report.finished) ∧
      (report.started.Nodup ∧ ∀ id ∈ report.started, session.strandCount < id.number ∧
        (id ∈ after.strands.keys ∨ id ∈ report.finished)) ∧
      (∀ id ∈ session.strands.keys, id.number ≤ session.strandCount) ∧
      (∀ id ∈ after.strands.keys, id ∉ session.strands.keys → session.strandCount < id.number) ∧
      (report.changed = false → report.rounds = 1 ∧ report.finished = [] ∧
        after.facts = session.facts ∧
        (∀ strand ∈ session.strands.items, strand ∈ after.strands.items) ∧
        ∃ footprints, after.trail = footprints ++ session.trail ∧
          ∀ node deed completed, Footprint.acted node deed completed ∈ footprints →
            deed = .perform ∧ (engine.chart.kind? node).any NodeKind.isOrigin = true) := by
  obtain ⟨started, asked, indicated, rounds⟩ := exists_rounds_of_settle filled settled
  obtain ⟨orderly, adds⟩ := indicate_adds reached.orderly indicated
  obtain ⟨sum, rfl, turnover, quiet⟩ := settleRounds_turnover orderly rounds
  have all := (indicate_turnover indicated).trans turnover
  refine ⟨⟨all.once, fun id mem => (all.left id mem).2.1⟩, all.kept, ⟨all.distinct, fun id mem => ?_⟩,
    reached.orderly.numbered, fun id live absent => ?_, fun unchanged => ?_⟩
  · obtain ⟨above, -, present⟩ := all.new id mem
    exact ⟨above, present⟩
  · exact (all.arrived id live).resolve_left absent
  · obtain ⟨single, none, later⟩ := round_adds orderly (quiet unchanged)
    have added := adds.trans later
    exact ⟨(Nat.zero_add _).trans single, none, added.facts, added.strands, added.trail⟩

/-- The flag is lowered in the first round, in which its strand ends. -/
theorem settle_reports_flag :
    ∃ report, flagEngine.settle ["q"] flagSession =
        .ok report ((Operation.settle ["q"]).after flagEngine flagSession) ∧
      report.finished.Nodup ∧
      ∀ id ∈ flagSession.strands.keys,
        id ∈ ((Operation.settle ["q"]).after flagEngine flagSession).strands.keys ∨
          id ∈ report.finished := by
  have opened : flagEngine.Reaches (fun _ _ => True) ∅ (flagEngine.opened ∅ ()) :=
    .opened (by decide +kernel)
  have reached : flagEngine.Reaches (fun _ _ => True) ∅ flagSession :=
    opened.afterAll ⟨trivial, trivial, trivial, trivial⟩
  obtain ⟨report, settled⟩ := Operation.exists_report_of_succeeds
    (show (Operation.settle ["q"]).succeeds flagEngine flagSession = true by decide +kernel)
  obtain ⟨⟨once, -⟩, kept, -⟩ := Engine.Reaches.settle_reports (by decide +kernel) reached settled
  exact ⟨report, settled, once, kept⟩

end Quiet

end Flowchart
