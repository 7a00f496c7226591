import Flowchart.Proofs.Rest
import Flowchart.Proofs.Sweep

/-!
Settling a session that has just settled changes nothing at all. At rest every support holds, so a
sweep leaves the table as it is, and every strand has to wait; the last round has also shown that the
limits allow as much as one more round takes, and it has left no fact to ask the source about.
-/
namespace Flowchart

variable {σ : Type} {engine : Engine σ} {session after : Session σ}

/-- A sweep along entries whose nodes are active, by supports that all hold, finds them active and
changes nothing. -/
theorem sweepEntries_of_holds {chart : Chart} {facts : Facts} {table : Activation}
    {entries : List Entry}
    (active : ∀ entry ∈ entries, table.isActive entry.node = true)
    (holds : ∀ entry ∈ entries, ∀ support ∈ (table.supports entry.node).items,
      support.basis.holds chart facts table = true) :
    sweepEntries chart facts table entries = (entries.map (·, true), table) := by
  induction entries with
  | nil => rfl
  | cons entry rest ih =>
      rw [List.forall_mem_cons] at active holds
      have same : table.sweep chart facts entry.node = table := Activation.retain_of_all holds.1
      rw [sweepEntries_cons, same, ih active.2 holds.2, active.1, List.map_cons]

/-- How a strand that is stuck waits: there is no edge to follow, or one that supports its target
already. -/
theorem Engine.waits_of_stuck {strand : Strand} (listed : strand ∈ session.strands.items)
    (stuck : strand.Stuck engine.chart session) :
    engine.nextEdge? session strand.id = none ∨
      ∃ ref edge, engine.nextEdge? session strand.id = some (ref, edge) ∧
        session.isActive edge.target = true ∧ session.activation.holdsEdge edge.target ref = true := by
  have found : session.strands.get? strand.id = some strand := Roster.get?_eq_some_iff.2 ⟨listed, rfl⟩
  have shut : ∀ {ref : EdgeRef}, engine.chart.opens session.facts ref = false →
      ((engine.chart.edge? ref).bind fun edge =>
        if (Condition.evalGuard session.facts edge.condition).isSatisfied then some (ref, edge)
        else none) = none := by
    intro ref closed
    rw [Chart.opens] at closed
    cases known : engine.chart.edge? ref with
    | none => rfl
    | some edge => simpa [known] using closed
  unfold nextEdge?
  simp only [found, Option.bind_eq_bind, Option.bind_some]
  cases stuck with
  | ended last kind past => exact .inl (by simp [last, kind, past])
  | closed last none =>
      refine .inl ?_
      rw [last, Option.bind_some]
      split
      · rfl
      · exact List.findSome?_eq_none_iff.2 fun ref leaves => shut (none ref leaves)
  | @merged frontier before rest ref edge last split none opened known active held =>
      rw [last, Option.bind_some]
      split
      · exact .inl rfl
      · refine .inr ⟨ref, edge, ?_, active, held⟩
        refine List.findSome?_eq_some_iff.2 ⟨before, ref, rest, split, ?_, fun earlier early => ?_⟩
        · rw [Chart.opens, known] at opened
          rw [known]
          exact if_pos opened
        · exact shut (none earlier early)

namespace SessionM

/-- A limit allows a loop so many turns. -/
def Allows (limit : Option UInt64) (turns : Nat) : Prop := ∀ bound ∈ limit, turns ≤ bound.toNat

theorem checkLimit_of_allows (loop : Loop) {limit : Option UInt64} {wanted : Nat}
    (allows : Allows limit wanted) (session : Session σ) :
    checkLimit loop limit wanted session = .ok () session := by
  cases limit with
  | none => rfl
  | some bound =>
      simp only [checkLimit, if_neg (Nat.not_lt_of_le (allows bound rfl))]
      rfl

theorem allows_of_checkLimit {loop : Loop} {limit : Option UInt64} {wanted : Nat}
    (passed : checkLimit loop limit wanted session = .ok () after) : Allows limit wanted := by
  rintro bound rfl
  by_contra beyond
  simp only [checkLimit, if_pos (Nat.lt_of_not_le beyond)] at passed
  cases passed

end SessionM

namespace Engine

theorem allows_of_extend {id : StrandId} {fuel : Nat} {changed : Bool} {selected : EdgeRef × Edge}
    (next : engine.nextEdge? session id = some selected)
    (run : engine.extend id (fuel + 1) 0 session = .ok changed after) :
    SessionM.Allows engine.config.maxFlowSteps 1 := by
  have got : (get : SessionM σ (Session σ)) session = .ok session session := rfl
  rw [extend, SessionM.bind_of_ok got, next] at run
  obtain ⟨u, checked, passed, -⟩ := SessionM.bind_eq_ok.1 run
  exact SessionM.allows_of_checkLimit passed

/-- Turns that report no change have shown that the limits let every strand follow the edge that it
has to follow, if there is one. -/
theorem allows_of_turns {ids finished : List StrandId} {id : StrandId} {selected : EdgeRef × Edge}
    (filled : ∀ strand ∈ session.strands.items, strand.entries ≠ [])
    (run : engine.turns ids session = .ok (false, finished) after) (listed : id ∈ ids)
    (next : engine.nextEdge? session id = some selected) :
    SessionM.Allows engine.config.maxFlowSteps 1 := by
  induction ids generalizing session finished with
  | nil => cases listed
  | cons first rest ih =>
      cases live : session.strands.contains first with
      | true =>
          obtain ⟨advanced, turn, others⟩ := turns_cons_quiet filled live run
          obtain ⟨calms, -⟩ := advance_quiet filled turn
          rcases List.mem_cons.1 listed with rfl | later
          · obtain ⟨collapsed, swept, swept_eq, turn⟩ := SessionM.bind_eq_ok.1 turn
            obtain ⟨extended, last, extended_eq, turn⟩ := SessionM.bind_eq_ok.1 turn
            cases collapsed with
            | true => cases turn
            | false =>
            obtain ⟨rfl, -⟩ := collapse_quiet swept_eq
            have still : engine.nextEdge? (session.swept engine.chart id) id = some selected := next
            exact allows_of_extend still extended_eq
          · have still : engine.nextEdge? advanced id = engine.nextEdge? session id := by
              unfold nextEdge?
              rw [calms.facts, calms.strands]
            exact ih (calms.strands ▸ filled) others later (still.trans next)
      | false =>
          rw [turns_cons_of_dead rest live] at run
          rcases List.mem_cons.1 listed with rfl | later
          · rw [live_of_nextEdge? next] at live
            cases live
          · exact ih filled run later next

/-- Undoing leaves entries alone that were found active. -/
theorem undoRuns_of_all (id : StrandId) (before : List Entry) {runs : List (List (Entry × Bool))}
    (kept : ∀ run ∈ runs, ∀ mark ∈ run, mark.2 = true) (session : Session σ) :
    engine.undoRuns id before runs session = .ok () session := by
  induction runs generalizing before with
  | nil => rfl
  | cons run rest ih =>
      rw [List.forall_mem_cons] at kept
      rw [undoRuns, if_pos (List.all_eq_true.2 kept.1)]
      exact ih _ kept.2

theorem collapse_of_rest (rest : session.AtRest engine.chart) {strand : Strand}
    (listed : strand ∈ session.strands.items) :
    engine.collapse strand.id session = .ok false session := by
  have swept : sweepEntries engine.chart session.facts session.activation (session.entries strand.id) =
      (strand.entries.map (·, true), session.activation) := by
    rw [Session.entries_eq_iff_of_mem listed]
    exact sweepEntries_of_holds (rest.active strand listed) fun entry _ => rest.vouched entry.node
  have read : engine.collapse strand.id session =
      (engine.undoRuns strand.id []
          ((session.verdicts engine.chart strand.id).splitBy fun a b => a.2 == b.2) >>=
        fun _ => pure ((session.verdicts engine.chart strand.id).any fun mark => !mark.2))
        (session.swept engine.chart strand.id) := rfl
  have marks : session.verdicts engine.chart strand.id = strand.entries.map (·, true) :=
    congrArg Prod.fst swept
  have same : session.swept engine.chart strand.id = session := by
    rw [Session.swept, swept]
  have kept : ∀ run ∈ (strand.entries.map (·, true)).splitBy (fun a b => a.2 == b.2),
      ∀ mark ∈ run, mark.2 = true := by
    intro run cut mark mem
    have marked := List.mem_flatten.2 ⟨run, cut, mem⟩
    rw [List.flatten_splitBy] at marked
    obtain ⟨entry, -, rfl⟩ := List.mem_map.1 marked
    rfl
  have none : ((strand.entries.map (·, true)).any fun mark => !mark.2) = false := by
    simp
  rw [read, marks, same, SessionM.bind_of_ok (undoRuns_of_all strand.id [] kept session), none]
  rfl

theorem extend_of_rest (rest : session.AtRest engine.chart) {strand : Strand}
    (listed : strand ∈ session.strands.items)
    (steps : ∀ selected, engine.nextEdge? session strand.id = some selected →
      SessionM.Allows engine.config.maxFlowSteps 1) (fuel : Nat) :
    engine.extend strand.id (fuel + 1) 0 session = .ok false session := by
  have got : (get : SessionM σ (Session σ)) session = .ok session session := rfl
  rw [extend, SessionM.bind_of_ok got]
  rcases waits_of_stuck listed (rest.stuck strand listed) with
    none | ⟨ref, edge, next, active, held⟩
  · rw [none]
    rfl
  · have passed := SessionM.checkLimit_of_allows .flowSteps (steps _ next) session
    have followed : engine.follow strand.id ref edge session = .ok (.merged false) session := by
      rcases follow_cases engine strand.id ref edge session with
        ⟨-, -, ran⟩ | ⟨-, lacks, -⟩ | ⟨idle, -⟩ | ⟨idle, -⟩
      · exact ran
      · exact absurd held (Bool.eq_false_iff.1 lacks)
      · exact absurd active (Bool.eq_false_iff.1 idle)
      · exact absurd active (Bool.eq_false_iff.1 idle)
    rw [next]
    simp only [SessionM.bind_of_ok passed, SessionM.bind_of_ok followed]
    rfl

/-- A strand at rest is neither collapsed nor extended. -/
theorem advance_of_rest (rest : session.AtRest engine.chart) {strand : Strand}
    (listed : strand ∈ session.strands.items)
    (steps : ∀ selected, engine.nextEdge? session strand.id = some selected →
      SessionM.Allows engine.config.maxFlowSteps 1) :
    engine.advance strand.id session = .ok false session := by
  unfold advance
  rw [SessionM.bind_of_ok (collapse_of_rest rest listed),
    SessionM.bind_of_ok (extend_of_rest rest listed steps _)]
  rfl

/-- Turns of strands that are neither collapsed nor extended change nothing. -/
theorem turns_of_still (ids : List StrandId)
    (filled : ∀ strand ∈ session.strands.items, strand.entries ≠ [])
    (still : ∀ strand ∈ session.strands.items, engine.advance strand.id session = .ok false session) :
    engine.turns ids session = .ok (false, []) session := by
  induction ids with
  | nil => rfl
  | cons id rest ih =>
      cases live : session.strands.contains id with
      | true =>
          obtain ⟨strand, found⟩ :=
            Option.isSome_iff_exists.1 ((Roster.contains_eq_isSome _ _).symm.trans live)
          obtain ⟨listed, rfl⟩ := Roster.get?_eq_some found
          have kept := entries_ne_nil_of_live filled live
          have dropped : SessionM.dropIfEmpty strand.id session = .ok false session := by
            rw [dropIfEmpty_eq, Session.tidy_of_ne_nil kept, List.isEmpty_eq_false_iff.2 kept]
          rw [turns_cons_of_live rest live, SessionM.bind_of_ok (still strand listed),
            SessionM.bind_of_ok dropped, SessionM.bind_of_ok ih]
          rfl
      | false =>
          rw [turns_cons_of_dead rest live]
          exact ih

/-- What a round leaves that reports no change: no fact that was touched, and limits under which each
strand may follow the edge that it has to follow. -/
theorem round_quiet_leaves {decl : ChartDecl} (compiled : decl.compile = .ok engine.chart)
    (indicates : engine.Indicates) (inv : session.Orderly engine) {report : Report}
    (run : engine.round session = .ok (false, report) after) :
    after.touched = [] ∧ ∀ strand ∈ after.strands.items, ∀ selected,
      engine.nextEdge? after strand.id = some selected →
        SessionM.Allows engine.config.maxFlowSteps 1 := by
  obtain ⟨moved, finished, turned, started, first, asked, -, still⟩ := exists_parts_of_round run
  cases moved with
  | true => cases still
  | false =>
  cases started with
  | cons => cases still
  | nil =>
  obtain ⟨calms, -⟩ := turns_quiet compiled inv.filled first
  have later := indicate_quiet indicates asked
  refine ⟨(indicate_leaves asked).2, ?_⟩
  intro strand listed selected next
  have strands : after.strands = session.strands := later.strands.trans calms.strands
  have facts : after.facts = session.facts := later.facts.trans calms.facts
  have before : engine.nextEdge? session strand.id = some selected := by
    unfold nextEdge? at next ⊢
    rwa [strands, facts] at next
  rw [strands] at listed
  exact allows_of_turns inv.filled first (List.mem_map_of_mem listed) before

/-- A session at rest in which nothing was touched stays as it is in a round. -/
theorem round_of_rest (inv : session.Orderly engine) (rest : session.AtRest engine.chart)
    (untouched : session.touched = [])
    (steps : ∀ strand ∈ session.strands.items, ∀ selected,
      engine.nextEdge? session strand.id = some selected →
        SessionM.Allows engine.config.maxFlowSteps 1) :
    engine.round session = .ok (false, ⟨1, false, [], []⟩) session := by
  have got : (get : SessionM σ (Session σ)) session = .ok session session := rfl
  have turned := turns_of_still session.strands.keys inv.filled fun strand listed =>
    advance_of_rest rest listed (steps strand listed)
  have took : SessionM.takeTouched session = .ok [] session := by
    obtain ⟨facts, activation, strands, snapshots, replaced, calls, touched⟩ := session
    cases untouched
    rfl
  have asked : engine.indicate [] session = .ok [] session := rfl
  unfold round
  rw [SessionM.bind_of_ok got, SessionM.bind_of_ok turned]
  simp only [SessionM.bind_of_ok took, SessionM.bind_of_ok asked]
  rfl

/-- Rounds end with one that reports no change. -/
theorem settleRounds_of_still {report latest : Report}
    (allows : SessionM.Allows engine.config.maxRounds (report.rounds + 1))
    (still : engine.round session = .ok (false, latest) after) (fuel : Nat) :
    engine.settleRounds (fuel + 1) report session = .ok (report.add latest) after := by
  rw [settleRounds, SessionM.bind_of_ok (SessionM.checkLimit_of_allows .rounds allows session),
    SessionM.bind_of_ok still]
  rfl

theorem exists_roundFuel_eq (engine : Engine σ) : ∃ fuel, engine.roundFuel = fuel + 1 := by
  unfold roundFuel
  split
  · exact ⟨_, rfl⟩
  · exact ⟨UInt64.size - 1, rfl⟩

theorem allows_of_settle {changed : List String} {report : Report}
    (filled : engine.chart.isEmpty = false)
    (settled : engine.settle changed session = .ok report after) :
    SessionM.Allows engine.config.maxRounds 1 := by
  unfold settle settleWithin at settled
  rw [if_neg (Bool.eq_false_iff.1 filled)] at settled
  obtain ⟨started, indicated, asked, settled⟩ := SessionM.bind_eq_ok.1 settled
  obtain ⟨fuel, same⟩ := engine.exists_roundFuel_eq
  rw [same, settleRounds] at settled
  obtain ⟨u, checked, passed, -⟩ := SessionM.bind_eq_ok.1 settled
  exact SessionM.allows_of_checkLimit passed

end Engine

/-- Wherever a run has led, settling that succeeded may be repeated at once: it succeeds again in a
single round that reports nothing, and leaves the session exactly as it was. -/
theorem Engine.Reaches.settle_again {decl : ChartDecl} (compiled : decl.compile = .ok engine.chart)
    (filled : engine.chart.isEmpty = false)
    (source : engine.source = .triggers ∨ engine.source = .silent) {facts : Facts}
    (reached : engine.Reaches (fun _ _ => True) facts session) {changed : List String}
    {report : Report} (settled : engine.settle changed session = .ok report after) :
    engine.settle [] after = .ok ⟨1, false, [], []⟩ after := by
  have indicates := engine.indicates_of_source source
  have rest := engine.rests_of_settle compiled indicates reached.orderly settled
  obtain ⟨before, latest, orderly, last⟩ := engine.exists_quiet_round filled reached.orderly settled
  obtain ⟨untouched, steps⟩ := engine.round_quiet_leaves compiled indicates orderly last
  have ended : after.Orderly engine := by
    have led : engine.Reaches (fun _ _ => True) facts
        ((Operation.settle changed).after engine session) := .after reached trivial
    rw [Operation.after_settle_of_ok settled] at led
    exact led.orderly
  have again := engine.round_of_rest ended rest untouched steps
  have asked : engine.indicate [] after = .ok [] after := rfl
  obtain ⟨fuel, same⟩ := engine.exists_roundFuel_eq
  unfold Engine.settle Engine.settleWithin
  rw [if_neg (Bool.eq_false_iff.1 filled), SessionM.bind_of_ok asked, same]
  exact Engine.settleRounds_of_still (engine.allows_of_settle filled settled) again fuel

/-- The fact is known, and the flag is to be raised. -/
def raisedSession : Session Unit :=
  Operation.afterAll flagEngine [.rewrite (Facts.put ∅ "q" (some .unknown)) ()]
    (flagEngine.opened ∅ ())

theorem settle_again_raised :
    ((Operation.settle ["q"]).after flagEngine raisedSession).isActive ⟨1⟩ = true ∧
      flagEngine.settle [] ((Operation.settle ["q"]).after flagEngine raisedSession) =
        .ok ⟨1, false, [], []⟩ ((Operation.settle ["q"]).after flagEngine raisedSession) := by
  have compiled : flagDecl.compile = .ok flagDecl.chart := flagDecl.compile_of_isOk (by decide +kernel)
  have opened : flagEngine.Reaches (fun _ _ => True) ∅ (flagEngine.opened ∅ ()) :=
    .opened (by decide +kernel)
  have reached : flagEngine.Reaches (fun _ _ => True) ∅ raisedSession :=
    opened.afterAll ⟨trivial, trivial⟩
  obtain ⟨report, settled⟩ := Operation.exists_report_of_succeeds
    (show (Operation.settle ["q"]).succeeds flagEngine raisedSession = true by decide +kernel)
  exact ⟨by decide +kernel,
    Engine.Reaches.settle_again compiled (by decide +kernel) (.inl rfl) reached settled⟩

end Flowchart
