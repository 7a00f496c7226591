import Flowchart.Proofs.Triggers

/-!
Triggers in sync with the facts. Each time the source is asked about a fact, every trigger that reads
the fact has its support afterwards if its condition holds. A round ends with the source being asked
about all that was touched, so when settling ends no trigger lacks a support that it should have, and
at rest none has one that it should not have.
-/
namespace Flowchart

variable {σ : Type} {engine : Engine σ} {chart : Chart} {ref : TriggerRef} {trigger : Trigger}
  {session after : Session σ}

/-- Changes keep supports that name triggers apart from those of calls. -/
theorem Session.Traced.changes (traced : session.Traced engine.chart)
    (steps : Changes engine (.ofTriggers engine.chart) session after) : after.Traced engine.chart :=
  steps.keep (fun traced change => change.traced traced) traced

/-- A trigger that is tuned, in a session in which supports can be told apart. -/
structure Session.Watched (engine : Engine σ) (ref : TriggerRef) (trigger : Trigger)
    (changed : List String) (session : Session σ) : Prop
    extends session.Orderly engine, session.Traced engine.chart, session.Tuned ref trigger changed

theorem Session.Watched.follow {changed later : List String}
    (watched : session.Watched engine ref trigger changed)
    (steps : Changes engine (.ofTriggers engine.chart) session after)
    (tuned : after.Tuned ref trigger later) : after.Watched engine ref trigger later :=
  { watched.toOrderly.changes steps, watched.toTraced.changes steps, tuned with }

namespace Engine

theorem granted_of_mem_filterMap {chart : Chart} {facts : Facts} {table : Activation}
    {refs : List TriggerRef} {indication : Indication}
    (mem : indication ∈ refs.filterMap (IndicationSource.indicate? chart facts table)) :
    indication.granted fun _ basis => basis.Named chart := by
  obtain ⟨ref, -, asked⟩ := List.mem_filterMap.1 mem
  obtain ⟨trigger, known, -, -, rfl⟩ := IndicationSource.indicate?_eq_some_iff.1 asked
  exact ⟨trigger, known, rfl⟩

theorem sourceGrants_of_triggers (source : engine.source = .triggers) :
    engine.SourceGrants fun _ basis => basis.Named engine.chart := by
  intro facts table fact host indication mem
  rw [source] at mem
  exact granted_of_mem_filterMap mem

theorem activation_begin {node : NodeRef} {support : Support} {opened : Option StrandId}
    (run : engine.begin node support session = .ok opened after) :
    after.activation = session.activation.add node support := by
  rcases begin_cases engine node support session with
    ⟨kind, -, -, -, ran⟩ | ⟨kind, -, -, -, ran⟩ | ⟨-, fault, ran⟩
  · cases ran.symm.trans run
    rfl
  · cases ran.symm.trans run
    exact Session.activation_openStrand (session.addSupport node support) node kind support
  · cases ran.symm.trans run

/-- For a trigger that is asked for, a support is minted that names it. -/
theorem exists_of_carryOut_request {first : TriggerRef} {asked : Trigger} {rest : List Indication}
    {opened : List StrandId} (listed : engine.chart.trigger? first = some asked)
    (traced : session.Traced engine.chart)
    (run : engine.carryOut (.start asked.start (.external (some first) asked.condition) :: rest)
      session = .ok opened after) :
    ∃ between later support, engine.carryOut rest between = .ok later after ∧
      between.Traced engine.chart ∧ support.trigger? = some first ∧
      support.id ∉ (session.activation.supports asked.start).keys ∧
      between.activation = session.activation.add asked.start support := by
  rw [carryOut_start] at run
  obtain ⟨began, between, begun, run⟩ := SessionM.bind_eq_ok.1 run
  obtain ⟨later, last, carried, run⟩ := SessionM.bind_eq_ok.1 run
  cases run
  have offers : Follows engine (Offer engine (.ofTriggers engine.chart)) session
      (engine.begin asked.start (session.nextSupport (.external (some first) asked.condition))
        session.countSupport) := begin_follows (.minted ⟨asked, listed, rfl⟩)
  rw [begun] at offers
  have fresh : (session.nextSupport (.external (some first) asked.condition)).id ∉
      (session.activation.supports asked.start).keys := by
    intro held
    obtain ⟨support, mem, same⟩ := List.mem_map.1 held
    exact traced.issued.nextSupport_id_ne _ mem same
  have added := activation_begin begun
  exact ⟨between, later, session.nextSupport (.external (some first) asked.condition), carried,
    traced.changes (.of_offers offers), rfl, fresh, added⟩

section Requests

variable {facts : Facts} {table : Activation} {refs : List TriggerRef} {opened : List StrandId}

theorem naming_carryOut_of_not_mem {node : NodeRef} (absent : ref ∉ refs)
    (traced : session.Traced engine.chart)
    (run : engine.carryOut (refs.filterMap (IndicationSource.indicate? engine.chart facts table))
      session = .ok opened after) :
    after.activation.naming node ref = session.activation.naming node ref := by
  induction refs generalizing session opened with
  | nil =>
      cases run
      rfl
  | cons first rest ih =>
      rw [List.mem_cons, not_or] at absent
      cases asked : IndicationSource.indicate? engine.chart facts table first with
      | none =>
          rw [List.filterMap_cons_none asked] at run
          exact ih absent.2 traced run
      | some indication =>
          rw [List.filterMap_cons_some asked] at run
          obtain ⟨other, listed, -, -, rfl⟩ := IndicationSource.indicate?_eq_some_iff.1 asked
          obtain ⟨between, later, support, carried, apart, names, -, added⟩ :=
            exists_of_carryOut_request listed traced run
          rw [ih absent.2 apart carried, added, Activation.naming_add_of_ne]
          exact names ▸ fun named => absent.1 (Option.some.inj named).symm

/-- The answers of the source are carried out one after the other. Each trigger is asked for once, so
that it is judged by the support that it still has when it is its turn. -/
theorem length_naming_carryOut_of_mem (known : engine.chart.trigger? ref = some trigger)
    (distinct : refs.Nodup) (mem : ref ∈ refs) (traced : session.Traced engine.chart)
    (judged : session.activation.naming trigger.start ref = table.naming trigger.start ref)
    (run : engine.carryOut (refs.filterMap (IndicationSource.indicate? engine.chart facts table))
      session = .ok opened after) :
    (after.activation.naming trigger.start ref).length =
      max (session.activation.naming trigger.start ref).length
        (if trigger.condition.holds facts then 1 else 0) := by
  induction refs generalizing session opened with
  | nil => cases mem
  | cons first rest ih =>
      rw [List.nodup_cons] at distinct
      cases asked : IndicationSource.indicate? engine.chart facts table first with
      | none =>
          rw [List.filterMap_cons_none asked] at run
          by_cases same : first = ref
          · subst same
            rw [naming_carryOut_of_not_mem distinct.1 traced run, judged]
            by_cases holds : trigger.condition.holds facts = true
            · -- A trigger whose condition holds is not asked for only if it has its support.
              have held : table.naming trigger.start first ≠ [] := by
                intro lacks
                have unheld := Activation.holdsTrigger_eq_false_iff.2 lacks
                cases asked.symm.trans
                  (IndicationSource.indicate?_eq_some_iff.2 ⟨trigger, known, holds, unheld, rfl⟩)
              rw [if_pos holds]
              exact (Nat.max_eq_left (List.length_pos_iff.2 held)).symm
            · rw [if_neg holds, Nat.max_zero]
          · exact ih distinct.2 ((List.mem_cons.1 mem).resolve_left (Ne.symm same)) traced judged run
      | some indication =>
          rw [List.filterMap_cons_some asked] at run
          obtain ⟨other, listed, holds, unheld, rfl⟩ := IndicationSource.indicate?_eq_some_iff.1 asked
          obtain ⟨between, later, support, carried, apart, names, new, added⟩ :=
            exists_of_carryOut_request listed traced run
          by_cases same : first = ref
          · subst same
            cases known.symm.trans listed
            rw [naming_carryOut_of_not_mem distinct.1 apart carried, added,
              Activation.naming_add_self new names, judged, Activation.holdsTrigger_eq_false_iff.1 unheld,
              if_pos holds]
            rfl
          · have kept : between.activation.naming trigger.start ref =
                session.activation.naming trigger.start ref := by
              rw [added, Activation.naming_add_of_ne]
              exact names ▸ fun named => same (Option.some.inj named)
            rw [← kept] at judged ⊢
            exact ih distinct.2 ((List.mem_cons.1 mem).resolve_left (Ne.symm same)) apart judged carried

end Requests

section Settling

variable {decl : ChartDecl} {changed : List String}

/-- Once the source has been asked about a fact, no trigger that reads it is owed a support for it. -/
theorem tuned_of_carryOut (compiled : decl.compile = .ok engine.chart)
    (known : engine.chart.trigger? ref = some trigger) {fact : String} {opened : List StrandId}
    (traced : session.Traced engine.chart) (tuned : session.Tuned ref trigger (fact :: changed))
    (leaves : after.facts = session.facts ∧ after.touched = session.touched)
    (run : engine.carryOut ((engine.chart.triggersReading fact).filterMap
      (IndicationSource.indicate? engine.chart session.facts session.activation)) session =
        .ok opened after) : after.Tuned ref trigger changed := by
  by_cases reads : fact ∈ trigger.condition.facts
  · have reader : ref ∈ engine.chart.triggersReading fact :=
      (decl.mem_triggersReading_of_compile compiled).2 ⟨trigger, known, reads⟩
    have counted := length_naming_carryOut_of_mem known
      (decl.nodup_triggersReading_of_compile compiled fact) reader traced rfl run
    have alone := tuned.alone
    constructor
    · split at counted <;> omega
    · intro holds
      rw [leaves.1] at holds
      rw [if_pos holds] at counted
      exact .inl (List.length_pos_iff.1 (by omega))
  · have reader : ref ∉ engine.chart.triggersReading fact := by
      intro listed
      obtain ⟨other, same, read⟩ := (decl.mem_triggersReading_of_compile compiled).1 listed
      cases known.symm.trans same
      exact reads read
    have kept : after.activation.naming trigger.start ref = session.activation.naming trigger.start ref :=
      naming_carryOut_of_not_mem reader traced run
    constructor
    · exact kept ▸ tuned.alone
    · intro holds
      rw [leaves.1] at holds
      rw [kept, leaves.2]
      refine (tuned.heeded holds).imp_right ?_
      rintro ⟨read, among, pending | touched⟩
      · refine ⟨read, among, .inl ((List.mem_cons.1 pending).resolve_left ?_)⟩
        rintro rfl
        exact reads among
      · exact ⟨read, among, .inr touched⟩

theorem indicate_watched (compiled : decl.compile = .ok engine.chart)
    (source : engine.source = .triggers) (known : engine.chart.trigger? ref = some trigger)
    {opened : List StrandId} (watched : session.Watched engine ref trigger changed)
    (run : engine.indicate changed session = .ok opened after) :
    after.Watched engine ref trigger [] := by
  induction changed generalizing session opened with
  | nil =>
      cases run
      exact watched
  | cons fact rest ih =>
      rw [indicate_cons] at run
      obtain ⟨began, between, carried, run⟩ := SessionM.bind_eq_ok.1 run
      obtain ⟨later, last, asked, run⟩ := SessionM.bind_eq_ok.1 run
      cases run
      rw [source] at carried
      have offers : Follows engine (Offer engine (.ofTriggers engine.chart)) session
          (engine.carryOut ((engine.chart.triggersReading fact).filterMap
            (IndicationSource.indicate? engine.chart session.facts session.activation)) session) :=
        carryOut_follows (fun _ mem => granted_of_mem_filterMap mem) session
      have ran : engine.carryOut ((engine.chart.triggersReading fact).filterMap
          (IndicationSource.indicate? engine.chart session.facts session.activation)) session =
            .ok began between := carried
      rw [ran] at offers
      have tuned := tuned_of_carryOut compiled known watched.toTraced watched.toTuned
        (leaves_of_offers offers) ran
      exact ih (watched.follow (.of_offers offers) tuned) asked

theorem watched_of_moves (nothing : engine.chart.InvokesNothing)
    (known : engine.chart.trigger? ref = some trigger)
    (watched : session.Watched engine ref trigger changed)
    (moves : Relation.ReflTransGen (Move engine) session after) :
    after.Watched engine ref trigger changed := by
  induction moves with
  | refl => exact watched
  | tail _ move ih =>
      exact ih.follow (.single (.moved move)) (move.tuned nothing ih.toOrderly ih.toTraced known ih.toTuned)

/-- A round leaves nothing touched that the source has not been asked about. -/
theorem round_watched (compiled : decl.compile = .ok engine.chart) (source : engine.source = .triggers)
    (nothing : engine.chart.InvokesNothing) (known : engine.chart.trigger? ref = some trigger)
    (watched : session.Watched engine ref trigger []) {told : Bool × Report}
    (run : engine.round session = .ok told after) :
    after.Watched engine ref trigger [] ∧ after.touched = [] := by
  obtain ⟨moved, finished, turned, started, took, asked, -⟩ := exists_parts_of_round run
  have moves := (turns_follows session.strands.keys session).steps took
  have owed := watched_of_moves nothing known watched moves
  have heard : Session.Tuned ref trigger turned.touched { turned with touched := [] } :=
    ⟨owed.alone, fun holds => (owed.heeded holds).imp_right fun ⟨fact, reads, pending⟩ =>
      ⟨fact, reads, .inl (pending.resolve_left List.not_mem_nil)⟩⟩
  exact ⟨indicate_watched compiled source known (owed.follow (.single .heard) heard) asked,
    (indicate_leaves asked).2⟩

theorem watched_of_rounds (compiled : decl.compile = .ok engine.chart)
    (source : engine.source = .triggers) (nothing : engine.chart.InvokesNothing)
    (known : engine.chart.trigger? ref = some trigger)
    (watched : session.Watched engine ref trigger []) (rounds : engine.Rounds session after) :
    after.Watched engine ref trigger [] := by
  induction rounds with
  | refl => exact watched
  | tail _ round ih =>
      obtain ⟨report, went⟩ := round
      exact (round_watched compiled source nothing known ih went).1

theorem settle_watched (compiled : decl.compile = .ok engine.chart) (source : engine.source = .triggers)
    (nothing : engine.chart.InvokesNothing) (known : engine.chart.trigger? ref = some trigger)
    (watched : session.Watched engine ref trigger changed) {report : Report}
    (settled : engine.settle changed session = .ok report after) :
    after.Watched engine ref trigger [] ∧ after.touched = [] := by
  have filled : engine.chart.isEmpty = false := by
    refine Bool.eq_false_iff.2 fun empty => ?_
    cases known.symm.trans (decl.trigger?_of_compile_of_isEmpty compiled empty ref)
  obtain ⟨started, asked, before, latest, indicated, rounds, last⟩ := exists_parts_of_settle filled settled
  have heeded := indicate_watched compiled source known watched indicated
  have went := watched_of_rounds compiled source nothing known heeded rounds
  exact round_watched compiled source nothing known went last

end Settling

end Engine

/-- The start node of the trigger holds one support that names the trigger if the condition holds, and
none otherwise. -/
def Session.InSync (ref : TriggerRef) (trigger : Trigger) (session : Session σ) : Prop :=
  (session.activation.naming trigger.start ref).length =
    if trigger.condition.holds session.facts then 1 else 0

/-- A trigger that was in sync is owed a support only for the facts that have changed. -/
theorem Session.InSync.tuned (sync : session.InSync ref trigger) {now : Facts} (host : σ)
    {changed : List String}
    (told : ∀ fact ∈ trigger.condition.facts,
      now.state fact ≠ session.facts.state fact → fact ∈ changed) :
    Session.Tuned ref trigger changed { session with facts := now, host := host } where
  alone := by
    have counted : (session.activation.naming trigger.start ref).length = _ := sync
    refine counted.trans_le ?_
    split <;> omega
  heeded holds := by
    by_cases pending : ∃ fact ∈ trigger.condition.facts, fact ∈ changed
    · obtain ⟨fact, reads, listed⟩ := pending
      exact .inr ⟨fact, reads, .inl listed⟩
    · have same : trigger.condition.holds now = trigger.condition.holds session.facts := by
        refine Condition.holds_congr fun fact reads => ?_
        by_contra apart
        exact pending ⟨fact, reads, told fact reads apart⟩
      have counted : (session.activation.naming trigger.start ref).length = _ := sync
      rw [← same, if_pos holds] at counted
      exact .inl (List.ne_nil_of_length_eq_add_one counted)

/-- At rest a trigger that is owed no support is in sync, since no support is left that does not
hold. -/
theorem Session.Tuned.inSync (tuned : session.Tuned ref trigger []) (untouched : session.touched = [])
    (traced : session.Traced chart) (known : chart.trigger? ref = some trigger)
    (rest : session.AtRest chart) : session.InSync ref trigger := by
  unfold Session.InSync
  by_cases holds : trigger.condition.holds session.facts = true
  · have held : session.activation.naming trigger.start ref ≠ [] := by
      refine (tuned.heeded holds).resolve_right ?_
      rintro ⟨fact, -, pending | touched⟩
      · cases pending
      · rw [untouched] at touched
        cases touched
    rw [if_pos holds]
    exact Nat.le_antisymm tuned.alone (List.length_pos_iff.2 held)
  · have none : session.activation.naming trigger.start ref = [] := by
      refine List.eq_nil_iff_forall_not_mem.2 fun support mem => holds ?_
      obtain ⟨mem, names⟩ := Activation.mem_naming.1 mem
      have valid := rest.vouched trigger.start support mem
      rwa [traced.basis_of_trigger? known mem names] at valid
    rw [if_neg holds, none, List.length_nil]

/-- Wherever a run has led in which the host itself names no trigger, a trigger that is in sync is in
sync again after settling that succeeds, if the source is told of each change of a fact that the
trigger reads. -/
theorem Engine.Reaches.inSync_of_settle {decl : ChartDecl} (compiled : decl.compile = .ok engine.chart)
    (source : engine.source = .triggers) (nothing : engine.chart.InvokesNothing) {facts : Facts}
    (reached : engine.Reaches
      (fun session operation => operation.offers
        ((Grants.ofTriggers engine.chart : Grants σ).gives session)) facts session)
    (known : engine.chart.trigger? ref = some trigger) (sync : session.InSync ref trigger)
    {now : Facts} {host : σ} {changed : List String}
    (told : ∀ fact ∈ trigger.condition.facts,
      now.state fact ≠ session.facts.state fact → fact ∈ changed) {report : Report}
    (settled : engine.settle changed { session with facts := now, host := host } = .ok report after) :
    after.InSync ref trigger := by
  have orderly : Session.Orderly engine { session with facts := now, host := host } :=
    reached.orderly.fade ⟨rfl, rfl, fun _ _ mem => mem⟩
  have traced : Session.Traced engine.chart { session with facts := now, host := host } :=
    (reached.traced (engine.sourceGrants_of_triggers source)).narrow (fun _ _ mem => mem)
      (fun _ _ listed => listed) (Nat.le_refl _)
  have watched : Session.Watched engine ref trigger changed { session with facts := now, host := host } :=
    { orderly, traced, sync.tuned host told with }
  obtain ⟨heeded, untouched⟩ := engine.settle_watched compiled source nothing known watched settled
  have rest := engine.rests_of_settle compiled (engine.indicates_of_source (.inl source)) orderly settled
  exact heeded.toTuned.inSync untouched heeded.toTraced known rest

/-- While one fact is known, three nodes write the fact that the trigger reads, one after the other. -/
def flipDecl : ChartDecl :=
  ⟨[(((((((FlowDecl.named "Main").addStart "S").addAction "A" (.assign "q" (.bool true))).addAction "B"
      (.assign "q" (.bool false))).addAction "C" (.assign "q" (.bool true))).addEdge
      "S" "A" (some (.known "p"))).addEdge "A" "B" none).addEdge "B" "C" none,
    (FlowDecl.named "Side").addStart "T"],
    [⟨"go", "Side", "T", .equals "q" (.bool true)⟩]⟩

def flipTrigger : Trigger := ⟨"go", ⟨4⟩, .equals "q" (.bool true)⟩

def flipEngine : Engine Unit := .standard flipDecl.chart

/-- The first flow has been started, and waits. -/
def flipSession : Session Unit :=
  Operation.afterAll flipEngine [.mint .unconditional, .begin ⟨0⟩ ⟨⟨1⟩, .unconditional⟩, .settle []]
    (flipEngine.opened ∅ ())

/-- The host has written the fact for which it waits. -/
def flipKnown : Session Unit :=
  { flipSession with facts := flipSession.facts.put "p" (some .unknown), host := () }

theorem inSync_of_settle_flip :
    flipSession.activation.naming flipTrigger.start ⟨0⟩ = [] ∧
      flipTrigger.condition.holds ((Operation.settle ["p"]).after flipEngine flipKnown).facts = true ∧
      ((Operation.settle ["p"]).after flipEngine flipKnown).InSync ⟨0⟩ flipTrigger := by
  have compiled : flipDecl.compile = .ok flipDecl.chart := flipDecl.compile_of_isOk (by decide +kernel)
  have opened : flipEngine.Reaches (fun session operation => operation.offers
      ((Grants.ofTriggers flipEngine.chart : Grants Unit).gives session)) ∅ (flipEngine.opened ∅ ()) :=
    .opened (by decide +kernel)
  have reached : flipEngine.Reaches (fun session operation => operation.offers
      ((Grants.ofTriggers flipEngine.chart : Grants Unit).gives session)) ∅ flipSession :=
    opened.afterAll ⟨trivial, ⟨trivial, by decide +kernel⟩, trivial, trivial⟩
  have known : flipEngine.chart.trigger? ⟨0⟩ = some flipTrigger := rfl
  have nothing : flipEngine.chart.InvokesNothing := by
    unfold Chart.InvokesNothing
    decide +kernel
  have sync : flipSession.InSync ⟨0⟩ flipTrigger := by
    unfold Session.InSync
    decide +kernel
  obtain ⟨report, settled⟩ := Operation.exists_report_of_succeeds
    (show (Operation.settle ["p"]).succeeds flipEngine flipKnown = true by decide +kernel)
  refine ⟨List.length_eq_zero_iff.1 (by decide +kernel), by decide +kernel, ?_⟩
  exact Engine.Reaches.inSync_of_settle compiled rfl nothing reached known sync (by decide +kernel)
    settled

end Flowchart
