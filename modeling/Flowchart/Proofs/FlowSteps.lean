import Flowchart.Proofs.Termination

/-!
Limits on flow steps. No action fails because of a loop, and no extension follows more edges than there
are inactive nodes, but for one; so a limit above the number of nodes is never met, and where there is no
limit an extension is not cut off either.
-/
namespace Flowchart

variable {σ α β : Type}

/-- The loop whose limit was met or whose fuel was used up. -/
def Fault.loop? : Fault → Option Loop
  | .limit loop _ => some loop
  | .unfinished loop => some loop
  | _ => none

namespace SessionM

/-- Where the operation fails, it is not because of that loop. -/
def Spares (loop : Loop) (operation : SessionM σ α) : Prop :=
  ∀ ⦃session fault after⦄, operation session = .error fault after → fault.loop? ≠ some loop

namespace Spares

variable {loop : Loop}

theorem of_total {operation : SessionM σ α}
    (total : ∀ session, ∃ value after, operation session = .ok value after) : operation.Spares loop := by
  intro session fault after failed
  obtain ⟨value, left, ran⟩ := total session
  cases ran.symm.trans failed

theorem pure (value : α) : (Pure.pure value : SessionM σ α).Spares loop :=
  of_total fun session => ⟨value, session, rfl⟩

theorem throw {fault : Fault} (other : fault.loop? ≠ some loop) :
    (MonadExcept.throw fault : SessionM σ α).Spares loop := by
  intro session raised after failed
  cases failed
  exact other

theorem write {change : Session σ → Session σ} : (modify change : SessionM σ PUnit).Spares loop :=
  of_total fun session => ⟨_, change session, rfl⟩

theorem bind {operation : SessionM σ α} {rest : α → SessionM σ β} (first : operation.Spares loop)
    (later : ∀ value, (rest value).Spares loop) : (operation >>= rest).Spares loop := by
  intro session fault after failed
  cases ran : operation session with
  | ok value between =>
      rw [bind_of_ok ran] at failed
      exact later value failed
  | error raised left =>
      rw [bind_of_error ran] at failed
      cases failed
      exact first ran

/-- What is done depends on the session. -/
theorem get {rest : Session σ → SessionM σ α} (later : ∀ session, (rest session).Spares loop) :
    (MonadState.get >>= rest).Spares loop :=
  .bind (of_total fun session => ⟨session, session, rfl⟩) later

theorem ite (test : Bool) {operation other : SessionM σ α} (first : operation.Spares loop)
    (second : other.Spares loop) : (if test then operation else other).Spares loop := by
  cases test with
  | true => exact first
  | false => exact second

theorem attempt {action : SessionM σ Unit} (spares : action.Spares loop) (deed : Deed) (node : NodeRef) :
    (SessionM.attempt deed node action).Spares loop := by
  intro session fault after failed
  cases ran : action session with
  | ok u left =>
      rw [attempt_of_ok ran] at failed
      cases failed
  | error raised left =>
      rw [attempt_of_error ran] at failed
      cases failed
      exact spares ran

theorem onFault {action : SessionM σ Unit} (spares : action.Spares loop)
    (change : Session σ → Session σ) : (action.onFault change).Spares loop := by
  intro session fault after failed
  cases ran : action session with
  | ok u left =>
      rw [onFault_of_ok ran] at failed
      cases failed
  | error raised left =>
      rw [onFault_of_error ran] at failed
      cases failed
      exact spares ran

theorem mint (basis : Basis) : (SessionM.mint basis : SessionM σ Support).Spares loop :=
  of_total fun _ => ⟨_, _, rfl⟩

/-- A limit is met in the loop that it is for. -/
theorem checkLimit {limited : Loop} (apart : limited ≠ loop) (limit : Option UInt64) (wanted : Nat) :
    (SessionM.checkLimit limited limit wanted : SessionM σ Unit).Spares loop := by
  cases limit with
  | none => exact .pure ()
  | some bound =>
      by_cases beyond : bound.toNat < wanted
      · simp only [SessionM.checkLimit, if_pos beyond]
        exact .throw fun same => apart (Option.some.inj same)
      · simp only [SessionM.checkLimit, if_neg beyond]
        exact .pure ()

end Spares

end SessionM

namespace Engine

variable (engine : Engine σ) {loop : Loop}

theorem originKind_spares (node : NodeRef) : (engine.originKind node).Spares loop := by
  unfold originKind
  cases engine.chart.kind? node with
  | none => exact .throw nofun
  | some kind => exact .ite _ (.pure kind) (.throw nofun)

theorem checkComposed_spares (node : NodeRef) : (engine.checkComposed node).Spares loop := by
  unfold checkComposed
  cases engine.chart.kind? node with
  | none => exact .throw nofun
  | some kind => exact .ite _ (.pure ()) (.throw nofun)

theorem arrive_spares (node : NodeRef) (kind : NodeKind) :
    (arrive node kind : SessionM σ Unit).Spares loop := by
  unfold arrive
  split
  · exact .write
  · exact .pure ()

theorem openStrand_spares (node : NodeRef) (kind : NodeKind) (support : Support) :
    (openStrand node kind support : SessionM σ StrandId).Spares loop :=
  .bind (.of_total fun _ => ⟨_, _, rfl⟩) fun id => .bind (.attempt (arrive_spares node kind) _ _) fun _ =>
    .bind .write fun _ => .pure id

theorem openAt_spares (node : NodeRef) (support : Support) : (engine.openAt node support).Spares loop :=
  .bind (engine.originKind_spares node) fun kind => .bind .write fun _ =>
    openStrand_spares node kind support

theorem begin_spares (node : NodeRef) (support : Support) : (engine.begin node support).Spares loop := by
  have noted (opened : Option StrandId) : (do
      modify fun session => session.leaveFootprint (.started node)
      return opened : SessionM σ (Option StrandId)).Spares loop := .bind .write fun _ => .pure opened
  refine .bind (engine.originKind_spares node) fun kind => .get fun session => .bind .write fun _ =>
    .ite _ ?_ ?_
  · exact .bind (.pure none) noted
  · exact .bind (.bind (openStrand_spares node kind support) fun id => .pure (some id)) noted

theorem enter_spares (composed node : NodeRef) (support : Support) :
    (engine.enter composed node support).Spares loop :=
  .bind (engine.checkComposed_spares composed) fun _ => .bind (engine.openAt_spares node support) fun id =>
    .bind .write fun _ => .pure id

/-- A handler can only fail with a fault of its own. -/
theorem react_spares (node : NodeRef) (handler : String)
    (part : Handler σ → Node → Facts → σ → Reaction σ) : (engine.react node handler part).Spares loop := by
  unfold react
  cases engine.handlers.at? handler with
  | none => exact .throw nofun
  | some found =>
      cases engine.chart.node? node with
      | none => exact .throw nofun
      | some record =>
          refine .get fun session => .bind (.of_total fun _ => ⟨_, _, rfl⟩) fun _ => ?_
          cases (part found record session.facts session.host).failure with
          | none => exact .pure ()
          | some failure => exact .throw nofun

theorem call_spares (node called : NodeRef) : (engine.call node called).Spares loop :=
  .bind (.mint _) fun support => .bind (engine.openAt_spares called support) fun _ => .write

theorem perform_spares (node : NodeRef) : (engine.perform node).Spares loop := by
  unfold perform
  refine .attempt ?_ _ _
  cases engine.chart.kind? node with
  | none => exact .throw nofun
  | some kind =>
      cases kind with
      | start => exact arrive_spares node .start
      | snapshot => exact arrive_spares node .snapshot
      | composed called => exact engine.call_spares node called
      | action action =>
          cases action with
          | noop => exact .pure ()
          | assign fact value => exact .write
          | invoke handler => exact engine.react_spares node handler Handler.perform

theorem revert_spares (node : NodeRef) : (engine.revert node).Spares loop := by
  unfold revert
  refine .attempt ?_ _ _
  cases engine.chart.kind? node with
  | none => exact .throw nofun
  | some kind =>
      cases kind with
      | start => exact .pure ()
      | snapshot => exact .write
      | composed called => exact .write
      | action action =>
          cases action with
          | noop => exact .pure ()
          | assign fact value => exact .write
          | invoke handler => exact engine.react_spares node handler Handler.revert

theorem undoRun_spares (id : StrandId) (before after latest : List Entry) :
    (engine.undoRun id before after latest).Spares loop := by
  induction latest with
  | nil => exact .pure ()
  | cons entry earlier ih =>
      exact .bind .write fun _ => .bind (engine.revert_spares entry.node) fun _ => .bind .write fun _ => ih

theorem undoRuns_spares (id : StrandId) (before : List Entry) (runs : List (List (Entry × Bool))) :
    (engine.undoRuns id before runs).Spares loop := by
  induction runs generalizing before with
  | nil => exact .pure ()
  | cons run rest ih =>
      rw [undoRuns]
      exact .ite _ (ih _) (.bind (engine.undoRun_spares id before _ _) fun _ => ih before)

theorem collapse_spares (id : StrandId) : (engine.collapse id).Spares loop :=
  .get fun _ => .bind (.of_total fun _ => ⟨_, _, rfl⟩) fun _ =>
    .bind (engine.undoRuns_spares id [] _) fun _ => .pure _

theorem follow_spares (id : StrandId) (ref : EdgeRef) (edge : Edge) :
    (engine.follow id ref edge).Spares loop := by
  have merges : (merge ref edge.target : SessionM σ Step).Spares loop :=
    .get fun session => .ite _ (.pure _) (.bind (.mint _) fun support => .bind .write fun _ => .pure _)
  have joins : (engine.join id ref edge.target).Spares loop :=
    .get fun session => .bind (.mint _) fun support => .bind .write fun _ =>
      .bind (.onFault (engine.perform_spares edge.target) _) fun _ => .pure _
  exact .get fun session => .ite _ merges joins

theorem carryOut_spares (indications : List Indication) : (engine.carryOut indications).Spares loop := by
  induction indications with
  | nil => exact .pure []
  | cons indication rest ih =>
      cases indication with
      | start node basis =>
          exact .bind (.mint basis) fun support => .bind (engine.begin_spares node support) fun _ =>
            .bind ih fun _ => .pure _
      | subflow composed node basis =>
          exact .bind (.mint basis) fun support => .bind (engine.enter_spares composed node support)
            fun _ => .bind ih fun _ => .pure _

theorem indicate_spares (facts : List String) : (engine.indicate facts).Spares loop := by
  induction facts with
  | nil => exact .pure []
  | cons fact rest ih =>
      exact .get fun session => .bind (.of_total fun _ => ⟨_, _, rfl⟩) fun _ =>
        .bind (engine.carryOut_spares _) fun _ => .bind ih fun _ => .pure _

theorem beginNamed_spares (flow start : String) (support : Support) :
    (engine.beginNamed flow start support).Spares loop := by
  unfold beginNamed findStart
  split
  · next failed =>
      split at failed
      · cases failed
        exact .throw nofun
      · split at failed
        · cases failed
        · cases failed
          exact .throw nofun
  · next node found => exact engine.begin_spares node support

theorem withdraw_spares (node : NodeRef) (id : SupportId) : (engine.withdraw node id).Spares loop := by
  unfold withdraw
  exact .ite _ (.get fun session => .bind .write fun _ => .pure _) (.pure false)

theorem beginAll_spares (nodes : List NodeRef) : (engine.beginAll nodes).Spares loop := by
  induction nodes with
  | nil => exact .pure ()
  | cons node rest ih =>
      exact .bind (.mint _) fun support => .bind (engine.begin_spares node support) fun _ => ih

variable {engine}

/-- An extension fails only where an edge could not be followed. -/
theorem loop?_of_extends {id : StrandId} {session : Session σ} {edges : Nat}
    {result : EStateM.Result Fault (Session σ) Bool} (run : Extends engine id session edges result)
    {fault : Fault} {after : Session σ} (failed : result = .error fault after) :
    fault.loop? ≠ some loop := by
  induction run with
  | waits | merges | joins => cases failed
  | refused next ran =>
      cases failed
      exact engine.follow_spares id _ _ ran
  | breaks next ran later ih =>
      cases failed
      exact ih rfl

/-- The limit is not met, and the fuel is not used up. -/
theorem extend_spares {decl : ChartDecl} (compiled : decl.compile = .ok engine.chart)
    (room : ∀ bound ∈ engine.config.maxFlowSteps, engine.chart.nodes.length < bound.toNat)
    (id : StrandId) :
    (engine.extend id (engine.chart.nodes.length + 1) 0).Spares .flowSteps := by
  intro session fault after failed
  have few : (session.idlers engine.chart).ncard ≤ engine.chart.nodes.length :=
    (Chart.ncard_le_of_members fun _ mem => mem.1).2
  obtain ⟨edges, result, run⟩ := exists_extends compiled id session
  have allows : SessionM.Allows engine.config.maxFlowSteps (0 + edges) := fun bound given => by
    have above := room bound given
    have most := run.edges_le compiled
    omega
  rw [run.extend_eq compiled few allows] at failed
  exact loop?_of_extends run failed

section Operations

variable {decl : ChartDecl} (compiled : decl.compile = .ok engine.chart)
  (room : ∀ bound ∈ engine.config.maxFlowSteps, engine.chart.nodes.length < bound.toNat)

include compiled room

theorem turns_spares (ids : List StrandId) : (engine.turns ids).Spares .flowSteps := by
  induction ids with
  | nil => exact .pure _
  | cons id rest ih =>
      have advances : (engine.advance id).Spares .flowSteps :=
        .bind (engine.collapse_spares id) fun _ => .bind (extend_spares compiled room id) fun _ => .pure _
      refine .get fun _ => .ite _ (.bind advances fun _ => ?_) ih
      exact .bind (.of_total fun after => ⟨_, _, dropIfEmpty_eq id after⟩) fun _ => .bind ih fun _ => .pure _

theorem round_spares : engine.round.Spares .flowSteps :=
  .get fun _ => .bind (turns_spares compiled room _) fun _ =>
    .bind (.of_total fun _ => ⟨_, _, rfl⟩) fun _ => .bind (engine.indicate_spares _) fun _ => .pure _

theorem settleRounds_spares (fuel : Nat) (report : Report) :
    (engine.settleRounds fuel report).Spares .flowSteps := by
  induction fuel generalizing report with
  | zero => exact .throw (by decide)
  | succ fuel ih =>
      rw [settleRounds]
      have apart : Loop.rounds ≠ .flowSteps := by decide
      refine .bind (.checkLimit apart _ _) fun _ => .bind (round_spares compiled room) fun latest => ?_
      exact .ite _ (ih _) (.pure _)

theorem settle_spares (changed : List String) : (engine.settle changed).Spares .flowSteps :=
  .ite _ (.pure _) (.bind (engine.indicate_spares changed) fun _ =>
    settleRounds_spares compiled room _ _)

theorem autostart_spares : engine.autostart.Spares .flowSteps := by
  unfold autostart
  exact .ite _ (.bind (engine.beginAll_spares _) fun _ =>
    .bind (settle_spares compiled room []) fun _ => .pure _) (.pure _)

theorem run_spares (operation : Operation σ) : (operation.run engine).Spares .flowSteps := by
  cases operation with
  | mint basis => exact .bind (.mint basis) fun _ => .pure ()
  | begin node support => exact .bind (engine.begin_spares node support) fun _ => .pure ()
  | beginNamed flow start support =>
      exact .bind (engine.beginNamed_spares flow start support) fun _ => .pure ()
  | enter composed node support =>
      exact .bind (engine.enter_spares composed node support) fun _ => .pure ()
  | withdraw node id => exact .bind (engine.withdraw_spares node id) fun _ => .pure ()
  | settle changed => exact .bind (settle_spares compiled room changed) fun _ => .pure ()
  | rewrite facts host => exact .write

end Operations

/-- In a compiled chart an extension follows at most one edge more than there are inactive nodes when it
begins, and without a limit it is cut off neither by one nor for lack of fuel. Under a limit above the
number of nodes no operation fails because of flow steps, nor does a launch. -/
theorem flowSteps_bounded {decl : ChartDecl} (compiled : decl.compile = .ok engine.chart) :
    (∀ (id : StrandId) (session : Session σ),
      (∃ edges result, Extends engine id session edges result) ∧
      ∀ edges result, Extends engine id session edges result →
        edges ≤ (session.idlers engine.chart).ncard + 1 ∧
        (engine.config.maxFlowSteps = none → ∀ fuel, (session.idlers engine.chart).ncard ≤ fuel →
          engine.extend id (fuel + 1) 0 session = result)) ∧
    ((∀ bound ∈ engine.config.maxFlowSteps, engine.chart.nodes.length < bound.toNat) →
      (∀ (operation : Operation σ) (session after : Session σ) (fault : Fault),
        operation.run engine session = .error fault after → fault.loop? ≠ some .flowSteps) ∧
      ∀ (facts : Facts) (host : σ) (fault : Fault),
        engine.launch facts host = .error fault → fault.loop? ≠ some .flowSteps) := by
  refine ⟨fun id session => ⟨exists_extends compiled id session, fun edges result run => ?_⟩,
    fun room => ⟨fun operation session after fault failed => ?_, fun facts host fault failed => ?_⟩⟩
  · refine ⟨run.edges_le compiled, fun unlimited fuel enough => run.extend_eq compiled enough ?_⟩
    rw [unlimited]
    exact nofun
  · exact run_spares compiled room operation failed
  · unfold launch at failed
    split at failed
    · cases failed
    · next raised after ran =>
        cases failed
        exact autostart_spares compiled room ran

end Engine

/-- The start of the circle has been supported from outside, and nobody has had a turn. -/
def loopBegun : Session Unit :=
  Operation.afterAll loopEngine [.mint .unconditional, .begin ⟨0⟩ ⟨⟨1⟩, .unconditional⟩] (.fresh ∅ ())

/-- A strand goes into the circle and comes to rest there, with no limit and with one of four steps. -/
theorem flowSteps_bounded_loop :
    (∃ edges result, Extends (loopEngine.under ⟨none, none, true⟩) ⟨1⟩ loopBegun edges result ∧ edges ≤ 4 ∧
      (loopEngine.under ⟨none, none, true⟩).extend ⟨1⟩ 4 0 loopBegun = result) ∧
    (∀ fault after, (Operation.settle ["q"]).run (loopEngine.under ⟨none, some 4, true⟩) loopBegun =
      .error fault after → fault.loop? ≠ some .flowSteps) ∧
    ∀ fault, (loopEngine.under ⟨none, some 4, true⟩).launch ∅ () = .error fault →
      fault.loop? ≠ some .flowSteps := by
  have compiled : loopDecl.compile = .ok loopDecl.chart := loopDecl.compile_of_isOk (by decide +kernel)
  have size : loopDecl.chart.nodes.length = 3 := by decide +kernel
  have few : (loopBegun.idlers loopDecl.chart).ncard ≤ loopDecl.chart.nodes.length :=
    (Chart.ncard_le_of_members fun _ mem => mem.1).2
  rw [size] at few
  have free := (@Engine.flowSteps_bounded Unit (loopEngine.under ⟨none, none, true⟩) loopDecl compiled).1
  have limited := (@Engine.flowSteps_bounded Unit (loopEngine.under ⟨none, some 4, true⟩) loopDecl compiled).2
    (by
      rintro bound ⟨⟩
      decide +kernel)
  refine ⟨?_, fun fault after failed => limited.1 _ _ _ fault failed, fun fault => limited.2 ∅ () fault⟩
  obtain ⟨⟨edges, result, run⟩, ends⟩ := free ⟨1⟩ loopBegun
  obtain ⟨most, extended⟩ := ends edges result run
  exact ⟨edges, result, run, most.trans (Nat.succ_le_succ few), extended rfl 3 few⟩

end Flowchart
