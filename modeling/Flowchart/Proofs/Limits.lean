import Flowchart.Proofs.Termination

/-!
What the limits of a run decide is only whether it succeeds. Wherever a run succeeds, the run under
wider limits takes the very same steps; and the rounds that a limit cut off are the rounds of the next
settling, since whatever is still to be done is kept in the session.
-/
namespace Flowchart

variable {σ α β : Type}

namespace SessionM

/-- Wherever the narrow operation succeeds, the wide one does, with the same result. -/
def Covers (wide narrow : SessionM σ α) : Prop :=
  ∀ ⦃session value after⦄, narrow session = .ok value after → wide session = .ok value after

namespace Covers

theorem refl (operation : SessionM σ α) : operation.Covers operation := fun _ _ _ run => run

theorem of_eq {wide narrow : SessionM σ α} (same : wide = narrow) : wide.Covers narrow :=
  same ▸ refl wide

theorem bind {wide narrow : SessionM σ α} {wideRest narrowRest : α → SessionM σ β}
    (first : wide.Covers narrow) (rest : ∀ value, (wideRest value).Covers (narrowRest value)) :
    (wide >>= wideRest).Covers (narrow >>= narrowRest) := by
  intro session result after run
  obtain ⟨value, between, ran, run⟩ := bind_eq_ok.1 run
  exact bind_eq_ok.2 ⟨value, between, first ran, rest value run⟩

theorem ite (test : Bool) {wide narrow wideElse narrowElse : SessionM σ α} (first : wide.Covers narrow)
    (other : wideElse.Covers narrowElse) :
    SessionM.Covers (if test then wide else wideElse) (if test then narrow else narrowElse) := by
  cases test with
  | true => exact first
  | false => exact other

end Covers

end SessionM

namespace Config

/-- The second limit is at least as large; no limit is the largest. -/
def AtMost : Option UInt64 → Option UInt64 → Prop
  | _, none => True
  | none, some _ => False
  | some bound, some larger => bound ≤ larger

/-- Both limits are at least as large under the wider configuration. -/
structure Within (config wider : Config) : Prop where
  rounds : AtMost config.maxRounds wider.maxRounds
  flowSteps : AtMost config.maxFlowSteps wider.maxFlowSteps

theorem AtMost.refl (limit : Option UInt64) : AtMost limit limit := by
  cases limit with
  | none => trivial
  | some bound => exact UInt64.le_refl bound

theorem AtMost.allows {limit larger : Option UInt64} (most : AtMost limit larger) {turns : Nat}
    (allows : SessionM.Allows limit turns) : SessionM.Allows larger turns := by
  rintro bound rfl
  cases limit with
  | none => exact most.elim
  | some lower => exact (allows lower rfl).trans (UInt64.le_iff_toNat_le.1 most)

end Config

theorem SessionM.checkLimit_covers (loop : Loop) {limit larger : Option UInt64}
    (most : Config.AtMost limit larger) (wanted : Nat) :
    (checkLimit loop larger wanted : SessionM σ Unit).Covers (checkLimit loop limit wanted) := by
  intro session value after passed
  have same := checkLimit_of_allows loop (allows_of_checkLimit passed) session
  rw [same] at passed
  cases passed
  exact checkLimit_of_allows loop (most.allows (allows_of_checkLimit same)) session

namespace Engine

variable {engine : Engine σ} {config : Config}

/-- The undoing of entries knows no limits. -/
theorem undoRun_under (engine : Engine σ) (config : Config) (id : StrandId)
    (before after latest : List Entry) :
    (engine.under config).undoRun id before after latest = engine.undoRun id before after latest := by
  induction latest with
  | nil => rfl
  | cons entry earlier ih =>
      rw [undoRun, undoRun, ih]
      rfl

theorem undoRuns_under (engine : Engine σ) (config : Config) (id : StrandId) (before : List Entry)
    (runs : List (List (Entry × Bool))) :
    (engine.under config).undoRuns id before runs = engine.undoRuns id before runs := by
  induction runs generalizing before with
  | nil => rfl
  | cons run rest ih => rw [undoRuns, undoRuns, undoRun_under, ih, ih]

theorem collapse_under (engine : Engine σ) (config : Config) (id : StrandId) :
    (engine.under config).collapse id = engine.collapse id := by
  unfold collapse
  simp only [undoRuns_under]
  rfl

/-- An extension within the limit on its steps is the same within a larger one. -/
theorem extend_covers (most : Config.AtMost engine.config.maxFlowSteps config.maxFlowSteps)
    (id : StrandId) (fuel steps : Nat) :
    ((engine.under config).extend id fuel steps).Covers (engine.extend id fuel steps) := by
  induction fuel generalizing steps with
  | zero =>
      intro session value after run
      cases run
  | succ fuel ih =>
      rw [extend, extend]
      refine .bind (.refl _) fun session => ?_
      have same : (engine.under config).nextEdge? session id = engine.nextEdge? session id := rfl
      rw [same]
      cases engine.nextEdge? session id with
      | none => exact .refl _
      | some selected =>
          obtain ⟨ref, edge⟩ := selected
          refine .bind (SessionM.checkLimit_covers .flowSteps most (steps + 1)) fun _ => ?_
          refine .bind (.of_eq rfl) fun step => ?_
          cases step with
          | merged supported => exact .refl _
          | joined => exact .bind (ih (steps + 1)) fun _ => .refl _

theorem turns_covers (most : Config.AtMost engine.config.maxFlowSteps config.maxFlowSteps)
    (ids : List StrandId) : ((engine.under config).turns ids).Covers (engine.turns ids) := by
  induction ids with
  | nil => exact .refl _
  | cons id rest ih =>
      rw [turns, turns]
      refine .bind (.refl _) fun session => ?_
      have advances : ((engine.under config).advance id).Covers (engine.advance id) :=
        .bind (.of_eq (collapse_under engine config id)) fun _ =>
          .bind (extend_covers most id _ 0) fun _ => .refl _
      exact .ite _ (.bind advances fun _ => .bind (.refl _) fun _ => .bind ih fun _ => .refl _) ih

/-- The limit on rounds has no say in a single round. -/
theorem round_covers (engine : Engine σ) (config : Config)
    (most : Config.AtMost engine.config.maxFlowSteps config.maxFlowSteps) :
    (engine.under config).round.Covers engine.round := by
  refine .bind (.refl _) fun session => .bind (turns_covers most _) fun turned => ?_
  exact .bind (.refl _) fun touched => .bind (.of_eq (indicate_under engine config touched)) fun _ =>
    .refl _

/-- Rounds that come to an end within the limits come to the same end within larger ones, and if there
is fuel for more of them. -/
theorem settleRounds_covers (within : engine.config.Within config) {fuel more : Nat}
    (enough : fuel ≤ more) (report : Report) :
    ((engine.under config).settleRounds more report).Covers (engine.settleRounds fuel report) := by
  induction fuel generalizing more report with
  | zero =>
      intro session value after run
      cases run
  | succ fuel ih =>
      obtain ⟨more, rfl⟩ := Nat.exists_eq_succ_of_ne_zero (Nat.ne_zero_of_lt enough)
      rw [settleRounds, settleRounds]
      refine .bind (SessionM.checkLimit_covers .rounds within.rounds (report.rounds + 1)) fun _ => ?_
      refine .bind (round_covers engine config within.flowSteps) fun turned => ?_
      exact .ite _ (ih (Nat.le_of_succ_le_succ enough) (report.add turned.2)) (.refl _)

/-- No limit asks for more rounds than 64 bits count. -/
theorem roundFuel_le (most : Config.AtMost engine.config.maxRounds config.maxRounds) :
    engine.roundFuel ≤ (engine.under config).roundFuel := by
  obtain ⟨chart, handlers, source, limits⟩ := engine
  obtain ⟨maxRounds, maxFlowSteps, autostart⟩ := config
  unfold roundFuel under
  cases given : limits.maxRounds with
  | none =>
      cases maxRounds with
      | none => exact Nat.le_refl _
      | some larger =>
          rw [given] at most
          exact most.elim
  | some bound =>
      rw [given] at most
      cases maxRounds with
      | none => exact bound.toNat_lt_size
      | some larger => exact Nat.succ_le_succ (UInt64.le_iff_toNat_le.1 most)

theorem settle_covers (engine : Engine σ) (within : engine.config.Within config) (changed : List String) :
    ((engine.under config).settle changed).Covers (engine.settle changed) := by
  unfold settle settleWithin
  refine .ite _ (.refl _) (.bind (.of_eq (indicate_under engine config changed)) fun started => ?_)
  exact settleRounds_covers within (roundFuel_le within.rounds) _

/-- Without a limit on rounds it does not matter what is on record of the rounds before. -/
theorem settleRounds_of_unlimited (unlimited : engine.config.maxRounds = none) {fuel more : Nat}
    (enough : fuel ≤ more) {report done : Report} {session after : Session σ}
    (run : engine.settleRounds fuel report session = .ok done after) (other : Report) :
    ∃ ended, engine.settleRounds more other session = .ok ended after := by
  induction fuel generalizing more report other session with
  | zero => cases run
  | succ fuel ih =>
      obtain ⟨more, rfl⟩ := Nat.exists_eq_succ_of_ne_zero (Nat.ne_zero_of_lt enough)
      have passed (wanted : Nat) :
          SessionM.checkLimit .rounds engine.config.maxRounds wanted session = .ok () session := by
        rw [unlimited]
        rfl
      rw [settleRounds, SessionM.bind_of_ok (passed _)] at run ⊢
      obtain ⟨⟨changed, latest⟩, next, went, run⟩ := SessionM.bind_eq_ok.1 run
      rw [SessionM.bind_of_ok went]
      cases changed with
      | true => exact ih (Nat.le_of_succ_le_succ enough) run (other.add latest)
      | false =>
          cases run
          exact ⟨_, rfl⟩

/-- Where a limit cut the rounds off, those that were left lead to the end that all of them would have
led to. -/
theorem settleRounds_resumes (engine : Engine σ) {bound : UInt64} {fuel all more : Nat} {report full done : Report}
    {session left after : Session σ}
    (cut : engine.settleRounds fuel report session = .error (.limit .rounds bound) left)
    (run : (engine.under { engine.config with maxRounds := none }).settleRounds all full session =
      .ok done after) (enough : all ≤ more) (other : Report) :
    ∃ ended, (engine.under { engine.config with maxRounds := none }).settleRounds more other left =
      .ok ended after := by
  induction fuel generalizing report full all session with
  | zero => cases cut
  | succ fuel ih =>
      rw [settleRounds] at cut
      rcases checkLimit_cases .rounds engine.config.maxRounds (report.rounds + 1) session with
        passed | ⟨fault, beyond⟩
      · obtain ⟨all, rfl⟩ : ∃ fewer, all = fewer + 1 := by
          cases all with
          | zero => cases run
          | succ fewer => exact ⟨fewer, rfl⟩
        rw [settleRounds] at run
        obtain ⟨u, same, unchecked, run⟩ := SessionM.bind_eq_ok.1 run
        cases unchecked
        obtain ⟨⟨changed, latest⟩, next, went, run⟩ := SessionM.bind_eq_ok.1 run
        -- The limited run goes through the same round, so it was not cut off in there.
        have also : engine.round session = .ok (changed, latest) next :=
          round_covers (engine.under { engine.config with maxRounds := none }) engine.config (.refl _) went
        rw [SessionM.bind_of_ok passed, SessionM.bind_of_ok also] at cut
        cases changed with
        | true => exact ih cut run (Nat.le_of_succ_le enough)
        | false => cases cut
      · rw [SessionM.bind_of_error beyond] at cut
        cases cut
        exact settleRounds_of_unlimited rfl enough run other

/-- What succeeds within limits ends the same within larger ones, with the same report. And where the
limit on rounds cut a settling off, settling what it left, with nothing said to have changed and without
that limit, ends where settling without the limit would have ended in the first place. -/
theorem settle_of_limits (engine : Engine σ) (session : Session σ) (changed : List String) :
    (∀ (config wider : Config) (report : Report) (after : Session σ), config.Within wider →
      (engine.under config).settle changed session = .ok report after →
      (engine.under wider).settle changed session = .ok report after) ∧
    ∀ (config : Config) (bound : UInt64) (report : Report) (left after : Session σ),
      (engine.under config).settle changed session = .error (.limit .rounds bound) left →
      (engine.under { config with maxRounds := none }).settle changed session = .ok report after →
      ∃ resumed, (engine.under { config with maxRounds := none }).settle [] left = .ok resumed after := by
  constructor
  · intro config wider report after within settled
    exact settle_covers (engine.under config) within changed settled
  · intro config bound report left after cut settled
    cases empty : (engine.under config).chart.isEmpty with
    | true =>
        rw [settle, settleWithin_of_isEmpty empty] at cut
        cases cut
    | false =>
        have filled : (engine.under { config with maxRounds := none }).chart.isEmpty = false := empty
        obtain ⟨started, asked, before, latest, indicated, -⟩ := exists_parts_of_settle filled settled
        have asks : (engine.under config).indicate changed session = .ok started asked := by
          rw [indicate_under] at indicated ⊢
          exact indicated
        rw [settle, settleWithin_of_indicate filled indicated] at settled
        rw [settle, settleWithin_of_indicate empty asks] at cut
        have quiet : (engine.under { config with maxRounds := none }).indicate [] left = .ok [] left := rfl
        rw [settle, settleWithin_of_indicate filled quiet]
        exact settleRounds_resumes (engine.under config) cut settled (Nat.le_refl _) _

/-- The calls are answered in the second round, which is one too many for a limit of one. -/
theorem settle_of_limits_shared :
    ∃ report resumed left after,
      (sharedEngine.under ⟨some 9, some 9, true⟩).settle ["q"] sharedSession = .ok report after ∧
      (sharedEngine.under ⟨none, none, true⟩).settle ["q"] sharedSession = .ok report after ∧
      (sharedEngine.under ⟨some 1, none, true⟩).settle ["q"] sharedSession =
        .error (.limit .rounds 1) left ∧
      (sharedEngine.under ⟨none, none, true⟩).settle [] left = .ok resumed after := by
  obtain ⟨wider, resumes⟩ := Engine.settle_of_limits sharedEngine sharedSession ["q"]
  obtain ⟨report, settled⟩ := Operation.exists_report_of_succeeds
    (show (Operation.settle ["q"]).succeeds (sharedEngine.under ⟨some 9, some 9, true⟩) sharedSession =
      true by decide +kernel)
  have uncapped := wider ⟨some 9, some 9, true⟩ ⟨none, none, true⟩ report _ ⟨trivial, trivial⟩ settled
  have cut : ∃ left, (sharedEngine.under ⟨some 1, none, true⟩).settle ["q"] sharedSession =
      .error (.limit .rounds 1) left := by
    have limited : (match (sharedEngine.under ⟨some 1, none, true⟩).settle ["q"] sharedSession with
        | .error fault _ => some fault
        | .ok _ _ => none) = some (.limit .rounds 1) := by decide +kernel
    cases ran : (sharedEngine.under ⟨some 1, none, true⟩).settle ["q"] sharedSession with
    | ok done after =>
        rw [ran] at limited
        cases limited
    | error fault left =>
        rw [ran] at limited
        cases limited
        exact ⟨left, rfl⟩
  obtain ⟨left, cut⟩ := cut
  obtain ⟨resumed, ended⟩ := resumes ⟨some 1, none, true⟩ 1 report left _ cut uncapped
  exact ⟨report, resumed, left, _, settled, uncapped, cut, ended⟩

end Engine

end Flowchart
