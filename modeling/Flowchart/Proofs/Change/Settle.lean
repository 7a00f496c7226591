import Flowchart.Proofs.Change.Advance

/-!
Settling as changes, whatever the source answers and wherever it fails; and what a settling that
succeeds ends with, a round in which no strand changed and none was opened by an indication.
-/
namespace Flowchart

variable {σ : Type}

def Indication.granted (grants : NodeRef → Basis → Prop) : Indication → Prop
  | .start node basis => grants node basis
  | .subflow _ node basis => grants node basis

/-- The source indicates only supports that are granted. -/
def Engine.SourceGrants (engine : Engine σ) (grants : NodeRef → Basis → Prop) : Prop :=
  ∀ facts table fact host,
    ∀ indication ∈ (engine.source engine.chart facts table fact host).1, indication.granted grants

namespace Engine

variable {engine : Engine σ} {grants : Grants σ}

/-- The support for an indication is minted, then it is offered to the origin. -/
theorem carryOut_start (engine : Engine σ) (node : NodeRef) (basis : Basis) (rest : List Indication)
    (session : Session σ) :
    engine.carryOut (.start node basis :: rest) session =
      (engine.begin node (session.nextSupport basis) >>= fun opened =>
        engine.carryOut rest >>= fun later => pure (opened.toList ++ later)) session.countSupport := rfl

theorem carryOut_subflow (engine : Engine σ) (composed node : NodeRef) (basis : Basis)
    (rest : List Indication) (session : Session σ) :
    engine.carryOut (.subflow composed node basis :: rest) session =
      (engine.enter composed node (session.nextSupport basis) >>= fun opened =>
        engine.carryOut rest >>= fun later => pure (opened :: later)) session.countSupport := rfl

/-- Indications are carried out in steps, if each of them is that is asked for. -/
theorem carryOut_follows_of {step : Session σ → Session σ → Prop} {indications : List Indication}
    (begun : ∀ {node basis}, .start node basis ∈ indications → ∀ session,
      Follows engine step session
        (engine.begin node (session.nextSupport basis) session.countSupport))
    (entered : ∀ {composed node basis}, .subflow composed node basis ∈ indications → ∀ session,
      Follows engine step session
        (engine.enter composed node (session.nextSupport basis) session.countSupport))
    (session : Session σ) : Follows engine step session (engine.carryOut indications session) := by
  induction indications generalizing session with
  | nil => exact .done []
  | cons indication rest ih =>
      have later (session : Session σ) :=
        ih (fun mem => begun (List.mem_cons_of_mem _ mem))
          (fun mem => entered (List.mem_cons_of_mem _ mem)) session
      cases indication with
      | start node basis =>
          rw [carryOut_start]
          exact (begun (List.mem_cons_self ..) session).bind fun _ after _ =>
            .bind (later after) fun _ _ _ => .done _
      | subflow composed node basis =>
          rw [carryOut_subflow]
          exact (entered (List.mem_cons_self ..) session).bind fun _ after _ =>
            .bind (later after) fun _ _ _ => .done _

theorem carryOut_follows {indications : List Indication}
    (granted : ∀ indication ∈ indications, indication.granted grants.mints) (session : Session σ) :
    Follows engine (Offer engine grants) session (engine.carryOut indications session) :=
  carryOut_follows_of (fun asked _ => begin_follows (.minted (granted _ asked)))
    (fun asked _ => enter_follows (.minted (granted _ asked))) session

/-- The session in which the source has answered the change of a fact. -/
theorem indicate_cons (engine : Engine σ) (fact : String) (rest : List String) (session : Session σ) :
    engine.indicate (fact :: rest) session =
      (engine.carryOut
          (engine.source engine.chart session.facts session.activation fact session.host).1 >>=
        fun opened => engine.indicate rest >>= fun later => pure (opened ++ later))
      { session with
        host := (engine.source engine.chart session.facts session.activation fact session.host).2 } :=
  rfl

/-- The source is asked in steps, if what it answers about a fact is carried out so. -/
theorem indicate_follows_of {step : Session σ → Session σ → Prop}
    (asked : ∀ {session : Session σ} {host : σ}, step session { session with host := host })
    (carried : ∀ fact (session : Session σ) (host : σ),
      Follows engine step { session with host := host }
        (engine.carryOut
          (engine.source engine.chart session.facts session.activation fact session.host).1
          { session with host := host }))
    (facts : List String) (session : Session σ) :
    Follows engine step session (engine.indicate facts session) := by
  induction facts generalizing session with
  | nil => exact .done []
  | cons fact rest ih =>
      rw [indicate_cons]
      exact .trans (.single asked) ((carried fact session _).bind fun _ begun _ =>
        .bind (ih begun) fun _ _ _ => .done _)

theorem indicate_follows (source : engine.SourceGrants grants.mints) (facts : List String)
    (session : Session σ) :
    Follows engine (Offer engine grants) session (engine.indicate facts session) :=
  indicate_follows_of .asked (fun _ _ _ => carryOut_follows (source _ _ _ _) _) facts session

theorem turns_follows (ids : List StrandId) (session : Session σ) :
    Follows engine (Move engine) session (engine.turns ids session) := by
  induction ids generalizing session with
  | nil => exact .done _
  | cons id rest ih =>
      refine .bind (.done session) fun read now got => ?_
      cases got
      by_cases live : session.strands.contains id = true
      · rw [if_pos live]
        have advanced := advance_follows engine live
        cases ran : engine.advance id session with
        | ok changed after =>
            rw [ran] at advanced
            rw [SessionM.bind_of_ok ran, SessionM.bind_of_ok (dropIfEmpty_eq id after)]
            exact .trans advanced (.bind (ih _) fun _ _ _ => .done _)
        | error fault after =>
            rw [ran] at advanced
            rw [SessionM.bind_of_error ran]
            exact advanced
      · rw [if_neg live]
        exact ih session

theorem autostart_of_launch {facts : Facts} {host : σ} {session : Session σ}
    (launched : engine.launch facts host = .ok session) :
    engine.autostart (.fresh facts host) = .ok () session := by
  unfold launch at launched
  cases ran : engine.autostart (.fresh facts host) with
  | ok u after =>
      rw [ran] at launched
      cases launched
      rfl
  | error fault after =>
      rw [ran] at launched
      cases launched

/-- Whatever settling does to a session is done in steps. -/
structure Drives (engine : Engine σ) (step : Session σ → Session σ → Prop) : Prop where
  moved : ∀ {session after : Session σ}, Move engine session after → step session after
  heard : ∀ {session : Session σ}, step session { session with touched := [] }
  indicated : ∀ facts session, Follows engine step session (engine.indicate facts session)

namespace Drives

variable {step : Session σ → Session σ → Prop}

theorem round_follows (drives : engine.Drives step) (session : Session σ) :
    Follows engine step session (engine.round session) := by
  refine .bind (.done session) fun read now got => ?_
  cases got
  refine .bind ((turns_follows _ session).mono drives.moved) fun turned after _ => ?_
  refine .bind (.single drives.heard) fun touched heard took => ?_
  cases took
  exact .bind (drives.indicated after.touched _) fun _ _ _ => .done _

theorem settleRounds_follows (drives : engine.Drives step) (fuel : Nat) (report : Report)
    (session : Session σ) : Follows engine step session (engine.settleRounds fuel report session) := by
  induction fuel generalizing report session with
  | zero => exact .refused (.unfinished .rounds)
  | succ fuel ih =>
      rw [settleRounds]
      rcases checkLimit_cases .rounds engine.config.maxRounds (report.rounds + 1) session with
        passed | ⟨fault, beyond⟩
      · rw [SessionM.bind_of_ok passed]
        refine .bind (drives.round_follows session) fun latest after _ => ?_
        obtain ⟨changed, report⟩ := latest
        cases changed with
        | true => exact ih _ after
        | false => exact .done _
      · rw [SessionM.bind_of_error beyond]
        exact .refused fault

theorem settle_follows (drives : engine.Drives step) (changed : List String) (session : Session σ) :
    Follows engine step session (engine.settle changed session) := by
  unfold settle settleWithin
  split
  · exact .done _
  · exact .bind (drives.indicated changed session) fun _ after _ =>
      drives.settleRounds_follows _ _ after

/-- The session that is launched was reached in steps from one in which nothing is active. -/
theorem steps_of_launch (drives : engine.Drives step)
    (begun : ∀ nodes session, Follows engine step session (engine.beginAll nodes session))
    {facts : Facts} {host : σ} {session : Session σ}
    (launched : engine.launch facts host = .ok session) :
    Relation.ReflTransGen step (.fresh facts host) session := by
  have follows : Follows engine step (Session.fresh facts host)
      (engine.autostart (.fresh facts host)) := by
    unfold autostart
    split
    · refine .bind (begun _ _) fun _ begun _ => ?_
      exact .bind (drives.settle_follows [] begun) fun _ _ _ => .done ()
    · exact .done ()
  exact follows.steps (autostart_of_launch launched)

end Drives

theorem SourceGrants.drives (source : engine.SourceGrants grants.mints) :
    engine.Drives (Change engine grants) where
  moved := .moved
  heard := .heard
  indicated facts session := (indicate_follows source facts session).mono .offered

theorem round_follows (source : engine.SourceGrants grants.mints) (session : Session σ) :
    Follows engine (Change engine grants) session (engine.round session) :=
  source.drives.round_follows session

theorem settle_follows (source : engine.SourceGrants grants.mints) (changed : List String)
    (session : Session σ) :
    Follows engine (Change engine grants) session (engine.settle changed session) :=
  source.drives.settle_follows changed session

theorem beginAll_follows_of {step : Session σ → Session σ → Prop}
    (begun : ∀ node session, Follows engine step session
      (engine.begin node (session.nextSupport .unconditional) session.countSupport))
    (nodes : List NodeRef) (session : Session σ) :
    Follows engine step session (engine.beginAll nodes session) := by
  induction nodes generalizing session with
  | nil => exact .done ()
  | cons node rest ih =>
      have read : engine.beginAll (node :: rest) session =
          (engine.begin node (session.nextSupport .unconditional) >>= fun _ => engine.beginAll rest)
            session.countSupport := rfl
      rw [read]
      exact (begun node session).bind fun _ after _ => ih after

theorem beginAll_follows (granted : ∀ node, grants.mints node .unconditional) (nodes : List NodeRef)
    (session : Session σ) :
    Follows engine (Offer engine grants) session (engine.beginAll nodes session) :=
  beginAll_follows_of (fun node _ => begin_follows (.minted (granted node))) nodes session

/-- The session that is launched was reached by changes from one in which nothing is active. -/
theorem changes_of_launch (source : engine.SourceGrants grants.mints)
    (granted : ∀ node, grants.mints node .unconditional) {facts : Facts} {host : σ}
    {session : Session σ} (launched : engine.launch facts host = .ok session) :
    Changes engine grants (.fresh facts host) session :=
  source.drives.steps_of_launch
    (fun nodes session => (beginAll_follows granted nodes session).mono .offered) launched

/-- Rounds that changed something, one after the other. -/
def Rounds (engine : Engine σ) : Session σ → Session σ → Prop :=
  Relation.ReflTransGen fun session after =>
    ∃ report, engine.round session = .ok (true, report) after

/-- Rounds that succeed are a first round and, if that changed anything, the rounds after it. -/
theorem exists_parts_of_settleRounds {fuel : Nat} {report done : Report} {session after : Session σ}
    (run : engine.settleRounds (fuel + 1) report session = .ok done after) :
    ∃ changed latest next, engine.round session = .ok (changed, latest) next ∧
      (if changed then engine.settleRounds fuel (report.add latest) else pure (report.add latest))
        next = .ok done after := by
  rw [settleRounds] at run
  obtain ⟨u, between, checked, run⟩ := SessionM.bind_eq_ok.1 run
  rcases checkLimit_cases .rounds engine.config.maxRounds (report.rounds + 1) session with
    passed | ⟨fault, beyond⟩
  · cases passed.symm.trans checked
    obtain ⟨⟨changed, latest⟩, next, went, run⟩ := SessionM.bind_eq_ok.1 run
    exact ⟨changed, latest, next, went, run⟩
  · cases beyond.symm.trans checked

/-- Settling succeeds at the end of a round that changed nothing. -/
theorem exists_last_round {fuel : Nat} {report done : Report} {session after : Session σ}
    (run : engine.settleRounds fuel report session = .ok done after) :
    ∃ before latest, engine.Rounds session before ∧
      engine.round before = .ok (false, latest) after := by
  induction fuel generalizing report session with
  | zero => cases run
  | succ fuel ih =>
      obtain ⟨changed, latest, next, went, run⟩ := exists_parts_of_settleRounds run
      cases changed with
      | false =>
          cases run
          exact ⟨session, latest, .refl, went⟩
      | true =>
          obtain ⟨before, last, rounds, ended⟩ := ih run
          exact ⟨before, last, .head ⟨latest, went⟩ rounds, ended⟩

theorem settleWithin_of_isEmpty (empty : engine.chart.isEmpty = true) (fuel : Nat)
    (changed : List String) (session : Session σ) :
    engine.settleWithin fuel changed session = .ok .initial session := by
  unfold settleWithin
  rw [if_pos empty]
  rfl

theorem settleWithin_of_indicate (filled : engine.chart.isEmpty = false) {changed : List String}
    {started : List StrandId} {session asked : Session σ}
    (indicated : engine.indicate changed session = .ok started asked) (fuel : Nat) :
    engine.settleWithin fuel changed session =
      engine.settleRounds fuel { Report.initial with started := started } asked := by
  unfold settleWithin
  rw [if_neg (Bool.eq_false_iff.1 filled), SessionM.bind_of_ok indicated]

/-- Settling that succeeds asks the source about the changes, then it goes through rounds. -/
theorem exists_rounds_of_settle (filled : engine.chart.isEmpty = false) {changed : List String}
    {report : Report} {session after : Session σ}
    (settled : engine.settle changed session = .ok report after) :
    ∃ started asked, engine.indicate changed session = .ok started asked ∧
      engine.settleRounds engine.roundFuel { Report.initial with started := started } asked =
        .ok report after := by
  unfold settle settleWithin at settled
  rw [if_neg (Bool.eq_false_iff.1 filled)] at settled
  obtain ⟨started, asked, indicated, rounds⟩ := SessionM.bind_eq_ok.1 settled
  exact ⟨started, asked, indicated, rounds⟩

/-- Settling that succeeds asks the source about the changes and ends with a round that changed
nothing. -/
theorem exists_parts_of_settle (filled : engine.chart.isEmpty = false) {changed : List String}
    {report : Report} {session after : Session σ}
    (settled : engine.settle changed session = .ok report after) :
    ∃ started asked before latest, engine.indicate changed session = .ok started asked ∧
      engine.Rounds asked before ∧ engine.round before = .ok (false, latest) after := by
  obtain ⟨started, asked, indicated, rounds⟩ := exists_rounds_of_settle filled settled
  obtain ⟨before, latest, changes, last⟩ := exists_last_round rounds
  exact ⟨started, asked, before, latest, indicated, changes, last⟩

theorem Rounds.changes {session after : Session σ} (source : engine.SourceGrants grants.mints)
    (rounds : engine.Rounds session after) : Changes engine grants session after := by
  induction rounds with
  | refl => exact .refl
  | @tail between last _ round ih =>
      obtain ⟨report, went⟩ := round
      exact ih.trans ((round_follows source between).steps went)

end Engine

end Flowchart
