import Flowchart.Proofs.Frame
import Flowchart.Proofs.Run

/-!
Sessions whose strands are opened outside of the registry. Whatever opens strands runs without sight of
the registry but for the strand that has its turn; the strands it opens wait, and they are taken into
the registry once it is over, also when it has failed. An engine that puts new strands into the registry
at once comes to the same sessions, and no strand waits between its operations.
-/
namespace Flowchart

variable {σ α : Type}

/-- A session and the strands that were opened and are not in its registry yet. -/
structure Staged (σ : Type) where
  session : Session σ
  waiting : List Strand

/-- An operation on a staged session. -/
abbrev StagedM (σ : Type) := EStateM Fault (Staged σ)

/-- The session where no strand waits. -/
def Session.staged (session : Session σ) : Staged σ := ⟨session, []⟩

/-- The session with none of its strands but the one that has its turn, if there is one. -/
def Session.alone (session : Session σ) (turn : Option StrandId) : Session σ :=
  { session with strands := session.strands.filter fun strand => decide (turn = some strand.id) }

namespace Staged

/-- What a step that was run alone left behind: the strand that had its turn is written back to the
registry, the strands it opened wait. -/
def rejoin (staged : Staged σ) (turn : Option StrandId) (after : Session σ) : Staged σ :=
  ⟨{ after with
      strands := staged.session.strands.overlay
        (after.strands.filter fun strand => decide (turn = some strand.id)) },
    staged.waiting ++ after.strands.items.filter fun strand => !decide (turn = some strand.id)⟩

/-- Takes the strands that wait into the registry, in the order in which they were opened. -/
def adopt (staged : Staged σ) : Staged σ :=
  ⟨{ staged.session with strands := staged.waiting.foldl Roster.insert staged.session.strands }, []⟩

end Staged

namespace StagedM

/-- Runs a step that opens no strand. -/
def plain (step : SessionM σ α) : StagedM σ α := fun staged =>
  match step staged.session with
  | .ok value after => .ok value { staged with session := after }
  | .error fault after => .error fault { staged with session := after }

/-- Runs a step that may open strands, then takes in the strands that wait, also if it failed. -/
def adopting (turn : Option StrandId) (step : SessionM σ α) : StagedM σ α := fun staged =>
  match step (staged.session.alone turn) with
  | .ok value after => .ok value (staged.rejoin turn after).adopt
  | .error fault after => .error fault (staged.rejoin turn after).adopt

end StagedM

/-! The operations of an engine once more. Strands are opened at origins and in turns, which adopt them;
all else is as it was. -/

namespace Engine

def beginStaged (engine : Engine σ) (node : NodeRef) (support : Support) :
    StagedM σ (Option StrandId) := .adopting none (engine.begin node support)

def enterStaged (engine : Engine σ) (composed node : NodeRef) (support : Support) :
    StagedM σ StrandId := .adopting none (engine.enter composed node support)

def carryOutStaged (engine : Engine σ) : List Indication → StagedM σ (List StrandId)
  | [] => return []
  | .start node basis :: rest => do
    let support ← StagedM.plain (SessionM.mint basis)
    let opened ← engine.beginStaged node support
    return opened.toList ++ (← carryOutStaged engine rest)
  | .subflow composed node basis :: rest => do
    let support ← StagedM.plain (SessionM.mint basis)
    let opened ← engine.enterStaged composed node support
    return opened :: (← carryOutStaged engine rest)

def indicateStaged (engine : Engine σ) : List String → StagedM σ (List StrandId)
  | [] => return []
  | fact :: rest => do
    let staged ← get
    let (indications, host) :=
      engine.source engine.chart staged.session.facts staged.session.activation fact staged.session.host
    set { staged with session := { staged.session with host := host } }
    let opened ← engine.carryOutStaged indications
    return opened ++ (← indicateStaged engine rest)

def turnsStaged (engine : Engine σ) : List StrandId → StagedM σ (Bool × List StrandId)
  | [] => return (false, [])
  | id :: rest => do
    if (← get).session.strands.contains id then
      let changed ← StagedM.adopting (some id) (engine.advance id)
      let empty ← StagedM.plain (SessionM.dropIfEmpty id)
      let (changedLater, finished) ← turnsStaged engine rest
      return (changed || changedLater, if empty then id :: finished else finished)
    else turnsStaged engine rest

def roundStaged (engine : Engine σ) : StagedM σ (Bool × Report) := do
  let (changed, finished) ← engine.turnsStaged (← get).session.strands.keys
  let touched ← StagedM.plain SessionM.takeTouched
  let started ← engine.indicateStaged touched
  let changed := changed || !started.isEmpty
  return (changed, ⟨1, changed, started, finished⟩)

def settleRoundsStaged (engine : Engine σ) (fuel : Nat) (report : Report) : StagedM σ Report :=
  match fuel with
  | 0 => throw (.unfinished .rounds)
  | fuel + 1 => do
    StagedM.plain (SessionM.checkLimit .rounds engine.config.maxRounds (report.rounds + 1))
    let (changed, latest) ← engine.roundStaged
    let report := report.add latest
    if changed then settleRoundsStaged engine fuel report else return report

def settleStaged (engine : Engine σ) (changed : List String) : StagedM σ Report := do
  if engine.chart.isEmpty then return .initial
  else
    let started ← engine.indicateStaged changed
    engine.settleRoundsStaged engine.roundFuel { Report.initial with started := started }

def beginNamedStaged (engine : Engine σ) (flow start : String) (support : Support) :
    StagedM σ (Option StrandId) := do
  match engine.findStart flow start with
  | .error fault => throw fault
  | .ok node => engine.beginStaged node support

def beginAllStaged (engine : Engine σ) : List NodeRef → StagedM σ Unit
  | [] => pure ()
  | node :: rest => do
    let support ← StagedM.plain (SessionM.mint .unconditional)
    let _ ← engine.beginStaged node support
    beginAllStaged engine rest

def autostartStaged (engine : Engine σ) : StagedM σ Unit := do
  if engine.config.autostart && !engine.chart.isEmpty then
    engine.beginAllStaged engine.chart.autostarts
    let _ ← engine.settleStaged []

def launchStaged (engine : Engine σ) (facts : Facts) (host : σ) : Except Fault (Staged σ) :=
  match engine.autostartStaged (Session.fresh facts host).staged with
  | .ok _ staged => .ok staged
  | .error fault _ => .error fault

end Engine

namespace Operation

/-- The operation with strands opened outside of the registry. -/
def runStaged (engine : Engine σ) : Operation σ → StagedM σ Unit
  | .begin node support => engine.beginStaged node support >>= fun _ => pure ()
  | .beginNamed flow start support => engine.beginNamedStaged flow start support >>= fun _ => pure ()
  | .enter composed node support => engine.enterStaged composed node support >>= fun _ => pure ()
  | .settle changed => engine.settleStaged changed >>= fun _ => pure ()
  | other => .plain (other.run engine)

/-- The staged session that an operation leaves behind, also when it fails. -/
def afterStaged (engine : Engine σ) (operation : Operation σ) (staged : Staged σ) : Staged σ :=
  match operation.runStaged engine staged with
  | .ok _ after => after
  | .error _ after => after

end Operation

/-- The staged sessions that operations lead to from a launch over the given facts. -/
inductive Engine.ReachesStaged (engine : Engine σ) (facts : Facts) : Staged σ → Prop
  | launched {host : σ} {staged : Staged σ} (launched : engine.launchStaged facts host = .ok staged) :
      ReachesStaged engine facts staged
  | after {staged : Staged σ} (operation : Operation σ) (reached : ReachesStaged engine facts staged) :
      ReachesStaged engine facts (operation.afterStaged engine staged)

namespace Session

variable {turn : Option StrandId}

theorem upon_alone (session : Session σ) (turn : Option StrandId) :
    (session.alone turn).upon session.strands = session := by
  rw [alone, upon, Roster.overlay_filter]

theorem Holds.alone {session : Session σ} (holds : session.Holds turn) :
    (session.alone turn).Holds turn := by
  intro id own
  obtain ⟨strand, listed, same⟩ := List.mem_map.1 (holds id own)
  refine List.mem_map.2 ⟨strand, Roster.mem_filter.2 ⟨listed, ?_⟩, same⟩
  rw [own, same, decide_eq_true_eq]

/-- Once the strands that wait are taken in, it is as if the step had written to the registry itself. -/
theorem Holds.adopt_rejoin {session : Session σ} (holds : session.Holds turn) (after : Session σ) :
    (session.staged.rejoin turn after).adopt = (after.upon session.strands).staged := by
  have present : ∀ strand ∈ after.strands.items, decide (turn = some strand.id) = true →
      strand.id ∈ session.strands.keys := fun strand _ own => holds strand.id (of_decide_eq_true own)
  simp only [Staged.adopt, Staged.rejoin, staged, upon, List.nil_append,
    Roster.foldl_insert_overlay_filter present]

end Session

namespace StagedM

variable {session : Session σ}

/-- Nothing waits before the step and nothing waits after it. -/
abbrev Settles (session : Session σ) (staged : StagedM σ α) (step : SessionM σ α) : Prop :=
  Mirrors Session.staged (fun _ => True) session staged step

theorem plain_settles (step : SessionM σ α) : Settles session (plain step) step := by
  unfold Settles Mirrors
  simp only [plain, Session.staged]
  cases step session with
  | ok value after => exact ⟨rfl, trivial⟩
  | error fault after => rfl

theorem adopting_settles {turn : Option StrandId} {step : SessionM σ α} (framed : step.Framed turn)
    (holds : session.Holds turn) : Settles session (adopting turn step) step := by
  have same := framed session.strands (session.alone turn) holds.alone
  unfold Mirrors at same
  rw [session.upon_alone] at same
  unfold Settles Mirrors
  cases ran : step (session.alone turn) with
  | ok value after =>
      rw [ran] at same
      rw [same.1]
      simp only [adopting, Session.staged, ran]
      exact ⟨congrArg (EStateM.Result.ok value) (holds.adopt_rejoin after), trivial⟩
  | error fault after =>
      rw [ran] at same
      rw [same]
      simp only [adopting, Session.staged, ran]
      exact congrArg (EStateM.Result.error fault) (holds.adopt_rejoin after)

end StagedM

namespace Engine

open StagedM

variable {session : Session σ}

theorem begin_settles (engine : Engine σ) (node : NodeRef) (support : Support) :
    Settles session (engine.beginStaged node support) (engine.begin node support) :=
  adopting_settles (begin_framed engine node support) fun _ absent => nomatch absent

theorem enter_settles (engine : Engine σ) (composed node : NodeRef) (support : Support) :
    Settles session (engine.enterStaged composed node support) (engine.enter composed node support) :=
  adopting_settles (enter_framed engine composed node support) fun _ absent => nomatch absent

theorem carryOut_settles (engine : Engine σ) (indications : List Indication) :
    Settles session (engine.carryOutStaged indications) (engine.carryOut indications) := by
  induction indications generalizing session with
  | nil => exact .pure trivial []
  | cons indication rest ih =>
      cases indication with
      | start node basis =>
          exact .bind (plain_settles _) fun support _ _ => .bind (begin_settles engine node support)
            fun opened _ _ => .bind ih fun later _ _ => .pure trivial _
      | subflow composed node basis =>
          exact .bind (plain_settles _) fun support _ _ => .bind (enter_settles engine composed node support)
            fun opened _ _ => .bind ih fun later _ _ => .pure trivial _

theorem indicate_settles (engine : Engine σ) (facts : List String) :
    Settles session (engine.indicateStaged facts) (engine.indicate facts) := by
  induction facts generalizing session with
  | nil => exact .pure trivial []
  | cons fact rest ih =>
      refine .get (.bind (.set { session with host := _ } trivial) fun _ asked _ => ?_)
      exact .bind (carryOut_settles engine _) fun opened _ _ => .bind ih fun later _ _ => .pure trivial _

theorem turns_settles (engine : Engine σ) (ids : List StrandId) :
    Settles session (engine.turnsStaged ids) (engine.turns ids) := by
  induction ids generalizing session with
  | nil => exact .pure trivial _
  | cons id rest ih =>
      refine .get ?_
      by_cases live : session.strands.contains id = true
      · have holds : session.Holds (some id) := fun own same =>
          Option.some.inj same ▸ Roster.contains_iff.1 live
        rw [if_pos live, if_pos (show session.staged.session.strands.contains id = true from live)]
        exact .bind (adopting_settles (advance_framed engine id) holds) fun _ _ _ =>
          .bind (plain_settles _) fun _ _ _ => .bind ih fun _ _ _ => .pure trivial _
      · rw [if_neg live, if_neg (show ¬session.staged.session.strands.contains id = true from live)]
        exact ih

theorem round_settles (engine : Engine σ) : Settles session engine.roundStaged engine.round :=
  .get <| .bind (turns_settles engine _) fun _ _ _ => .bind (plain_settles _) fun touched _ _ =>
    .bind (indicate_settles engine touched) fun _ _ _ => .pure trivial _

theorem settleRounds_settles (engine : Engine σ) (fuel : Nat) (report : Report) :
    Settles session (engine.settleRoundsStaged fuel report) (engine.settleRounds fuel report) := by
  induction fuel generalizing report session with
  | zero => exact .throw _
  | succ fuel ih =>
      exact .bind (plain_settles _) fun _ _ _ => .bind (round_settles engine) fun turned _ _ =>
        .ite _ (ih (report.add turned.2)) (.pure trivial _)

theorem settle_settles (engine : Engine σ) (changed : List String) :
    Settles session (engine.settleStaged changed) (engine.settle changed) :=
  .ite _ (.pure trivial _) <| .bind (indicate_settles engine changed) fun _ _ _ =>
    settleRounds_settles engine _ _

theorem beginNamed_settles (engine : Engine σ) (flow start : String) (support : Support) :
    Settles session (engine.beginNamedStaged flow start support)
      (engine.beginNamed flow start support) := by
  unfold beginNamedStaged beginNamed
  cases engine.findStart flow start with
  | error fault => exact .throw fault
  | ok node => exact begin_settles engine node support

theorem beginAll_settles (engine : Engine σ) (nodes : List NodeRef) :
    Settles session (engine.beginAllStaged nodes) (engine.beginAll nodes) := by
  induction nodes generalizing session with
  | nil => exact .pure trivial ()
  | cons node rest ih =>
      exact .bind (plain_settles _) fun support _ _ => .bind (begin_settles engine node support)
        fun _ _ _ => ih

theorem autostart_settles (engine : Engine σ) :
    Settles session engine.autostartStaged engine.autostart :=
  .ite _ (.bind (beginAll_settles engine _) fun _ _ _ => .bind (settle_settles engine []) fun _ _ _ =>
    .pure trivial _) (.pure trivial _)

theorem launchStaged_eq (engine : Engine σ) (facts : Facts) (host : σ) :
    engine.launchStaged facts host = (engine.launch facts host).map Session.staged := by
  have settles : Settles (.fresh facts host) engine.autostartStaged engine.autostart :=
    autostart_settles engine
  unfold Settles Mirrors at settles
  unfold launchStaged launch
  cases ran : engine.autostart (.fresh facts host) with
  | ok u after =>
      rw [ran] at settles
      rw [settles.1]
      rfl
  | error fault after =>
      rw [ran] at settles
      rw [settles]
      rfl

end Engine

namespace Operation

open StagedM

theorem run_settles {session : Session σ} (engine : Engine σ) (operation : Operation σ) :
    Settles session (operation.runStaged engine) (operation.run engine) := by
  cases operation with
  | begin node support => exact .bind (Engine.begin_settles engine node support) fun _ _ _ => .pure trivial ()
  | beginNamed flow start support =>
      exact .bind (Engine.beginNamed_settles engine flow start support) fun _ _ _ => .pure trivial ()
  | enter composed node support =>
      exact .bind (Engine.enter_settles engine composed node support) fun _ _ _ => .pure trivial ()
  | settle changed => exact .bind (Engine.settle_settles engine changed) fun _ _ _ => .pure trivial ()
  | mint basis => exact plain_settles ((Operation.mint basis).run engine)
  | withdraw node id => exact plain_settles ((Operation.withdraw node id).run engine)
  | rewrite facts host => exact plain_settles ((Operation.rewrite facts host).run engine)

theorem afterStaged_eq (engine : Engine σ) (operation : Operation σ) (session : Session σ) :
    operation.afterStaged engine session.staged = (operation.after engine session).staged := by
  have settles : Settles session (operation.runStaged engine) (operation.run engine) :=
    run_settles engine operation
  unfold Settles Mirrors at settles
  unfold afterStaged after
  cases ran : operation.run engine session with
  | ok u after =>
      rw [ran] at settles
      rw [settles.1]
  | error fault after =>
      rw [ran] at settles
      rw [settles]

end Operation

/-- Between operations no strand waits, and the sessions are those of the engine that puts new strands
into the registry at once. -/
theorem Engine.reachesStaged_iff {engine : Engine σ} {facts : Facts} {staged : Staged σ} :
    engine.ReachesStaged facts staged ↔
      staged.waiting = [] ∧ engine.Reaches (fun _ _ => True) facts staged.session := by
  constructor
  · intro reached
    induction reached with
    | @launched host staged launched =>
        rw [launchStaged_eq] at launched
        cases ran : engine.launch facts host with
        | ok session =>
            rw [ran] at launched
            cases launched
            exact ⟨rfl, .launched ran⟩
        | error fault =>
            rw [ran] at launched
            cases launched
    | @after staged operation _ ih =>
        obtain ⟨session, waiting⟩ := staged
        obtain ⟨rfl, reached⟩ := ih
        rw [show (⟨session, []⟩ : Staged σ) = session.staged from rfl, operation.afterStaged_eq engine]
        exact ⟨rfl, .after reached trivial⟩
  · obtain ⟨session, waiting⟩ := staged
    rintro ⟨rfl, reached⟩
    change engine.Reaches _ facts session at reached
    change engine.ReachesStaged facts session.staged
    induction reached with
    | @launched host session launched =>
        have ran : engine.launchStaged facts host = .ok session.staged := by
          rw [launchStaged_eq, launched]
          rfl
        exact .launched ran
    | @after session operation _ _ ih =>
        rw [← operation.afterStaged_eq engine]
        exact .after operation ih

end Flowchart
