import Flowchart.Proofs.Change

/-!
The actions of nodes and the opening of strands, as changes. Each is run once here, on every outcome;
what an operation made of them leaves behind is then told by composition.
-/
namespace Flowchart

variable {σ α β : Type}

namespace SessionM

theorem bind_of_ok {x : SessionM σ α} {f : α → SessionM σ β} {session after : Session σ} {a : α}
    (first : x session = .ok a after) : (x >>= f) session = f a after := by
  simp only [bind, EStateM.bind, first]

theorem bind_of_error {x : SessionM σ α} {f : α → SessionM σ β} {session after : Session σ}
    {fault : Fault} (first : x session = .error fault after) :
    (x >>= f) session = .error fault after := by
  simp only [bind, EStateM.bind, first]

/-- A composition that succeeds has a first part that succeeds. -/
theorem bind_eq_ok {x : SessionM σ α} {f : α → SessionM σ β} {session after : Session σ} {b : β} :
    (x >>= f) session = .ok b after ↔
      ∃ a between, x session = .ok a between ∧ f a between = .ok b after := by
  constructor
  · intro run
    cases first : x session with
    | ok a between =>
        rw [bind_of_ok first] at run
        exact ⟨a, between, rfl, run⟩
    | error fault between =>
        rw [bind_of_error first] at run
        cases run
  · rintro ⟨a, between, first, rest⟩
    rw [bind_of_ok first, rest]

theorem attempt_of_ok {deed : Deed} {node : NodeRef} {action : SessionM σ Unit}
    {session acted : Session σ} (run : action session = .ok () acted) :
    attempt deed node action session = .ok () (acted.leaveFootprint (.acted node deed true)) := by
  simp only [attempt, run]

theorem attempt_of_error {deed : Deed} {node : NodeRef} {action : SessionM σ Unit}
    {session acted : Session σ} {fault : Fault} (run : action session = .error fault acted) :
    attempt deed node action session =
      .error fault (acted.leaveFootprint (.acted node deed false)) := by
  simp only [attempt, run]

theorem onFault_of_ok {action : SessionM σ Unit} {change : Session σ → Session σ}
    {session acted : Session σ} (run : action session = .ok () acted) :
    action.onFault change session = .ok () acted := by
  simp only [onFault, run]

theorem onFault_of_error {action : SessionM σ Unit} {change : Session σ → Session σ}
    {session acted : Session σ} {fault : Fault} (run : action session = .error fault acted) :
    action.onFault change session = .error fault (change acted) := by
  simp only [onFault, run]

end SessionM

namespace Engine

variable {engine : Engine σ}

theorem openStrand_eq (node : NodeRef) (kind : NodeKind) (support : Support) (session : Session σ) :
    openStrand node kind support session =
      .ok ⟨session.strandCount + 1⟩ (session.openStrand node kind support) := by
  unfold openStrand Session.openStrand Session.arriveAt arrive
  split <;> rfl

theorem originKind_of_fit {node : NodeRef} {kind : NodeKind} (session : Session σ)
    (known : engine.chart.kind? node = some kind) (fit : kind.isOrigin = true) :
    engine.originKind node session = .ok kind session := by
  simp only [originKind, known, fit, if_true]
  rfl

/-- Whatever is no origin of the chart is refused before anything is done. -/
theorem originKind_cases (engine : Engine σ) (node : NodeRef) (session : Session σ) :
    (∃ kind, engine.chart.kind? node = some kind ∧ kind.isOrigin = true ∧
      engine.originKind node session = .ok kind session) ∨
    (((engine.chart.kind? node).any NodeKind.isOrigin = false) ∧
      ∃ fault, engine.originKind node session = .error fault session) := by
  cases known : engine.chart.kind? node with
  | none => exact .inr ⟨rfl, .unknownNode node, by simp only [originKind, known]; rfl⟩
  | some kind =>
      cases fit : kind.isOrigin with
      | true => exact .inl ⟨kind, rfl, fit, originKind_of_fit session known fit⟩
      | false =>
          refine .inr ⟨fit, .notAnOrigin (engine.chart.label node), ?_⟩
          simp only [originKind, known, fit, Bool.false_eq_true, if_false]
          rfl

theorem openAt_of_fit {node : NodeRef} {kind : NodeKind} (support : Support) (session : Session σ)
    (known : engine.chart.kind? node = some kind) (fit : kind.isOrigin = true) :
    engine.openAt node support session =
      .ok ⟨session.strandCount + 1⟩ ((session.addSupport node support).openStrand node kind support) := by
  unfold openAt
  rw [SessionM.bind_of_ok (originKind_of_fit session known fit)]
  exact openStrand_eq node kind support (session.addSupport node support)

theorem begin_of_fit {node : NodeRef} {kind : NodeKind} (support : Support) (session : Session σ)
    (known : engine.chart.kind? node = some kind) (fit : kind.isOrigin = true) :
    engine.begin node support session =
      (if session.isActive node then do
          modify fun session => session.leaveFootprint (.started node)
          return none
        else do
          let opened ← some <$> openStrand node kind support
          modify fun session => session.leaveFootprint (.started node)
          return opened : SessionM σ (Option StrandId)) (session.addSupport node support) := by
  unfold begin
  rw [SessionM.bind_of_ok (originKind_of_fit session known fit)]
  rfl

/-- An active origin is supported, at an inactive one a strand is opened, all else is refused. -/
theorem begin_cases (engine : Engine σ) (node : NodeRef) (support : Support) (session : Session σ) :
    (∃ kind, engine.chart.kind? node = some kind ∧ kind.isOrigin = true ∧
      session.isActive node = true ∧
      engine.begin node support session =
        .ok none ((session.addSupport node support).leaveFootprint (.started node))) ∨
    (∃ kind, engine.chart.kind? node = some kind ∧ kind.isOrigin = true ∧
      session.isActive node = false ∧
      engine.begin node support session = .ok (some ⟨session.strandCount + 1⟩)
        (((session.addSupport node support).openStrand node kind support).leaveFootprint
          (.started node))) ∨
    (((engine.chart.kind? node).any NodeKind.isOrigin = false) ∧
      ∃ fault, engine.begin node support session = .error fault session) := by
  rcases originKind_cases engine node session with ⟨kind, known, fit, -⟩ | ⟨unfit, fault, refused⟩
  · rw [begin_of_fit support session known fit]
    cases active : session.isActive node with
    | true =>
        refine .inl ⟨kind, known, fit, rfl, ?_⟩
        rw [if_pos rfl]
        rfl
    | false =>
        refine .inr (.inl ⟨kind, known, fit, rfl, ?_⟩)
        have opened : (some <$> openStrand node kind support) (session.addSupport node support) =
            .ok (some ⟨session.strandCount + 1⟩)
              ((session.addSupport node support).openStrand node kind support) := by
          simp only [Functor.map, EStateM.map, openStrand_eq]
          rfl
        rw [if_neg Bool.false_ne_true, SessionM.bind_of_ok opened]
        rfl
  · unfold begin
    exact .inr (.inr ⟨unfit, fault, SessionM.bind_of_error refused⟩)

/-- A strand is opened at an origin, all else is refused. -/
theorem enter_cases (engine : Engine σ) (composed node : NodeRef) (support : Support)
    (session : Session σ) :
    (∃ kind, engine.chart.kind? node = some kind ∧ kind.isOrigin = true ∧
      engine.enter composed node support session = .ok ⟨session.strandCount + 1⟩
        (((session.addSupport node support).openStrand node kind support).leaveFootprint
          (.started node))) ∨
    ∃ fault, engine.enter composed node support session = .error fault session := by
  have checked : engine.checkComposed composed session = .ok () session ∨
      ∃ fault, engine.checkComposed composed session = .error fault session := by
    cases known : engine.chart.kind? composed with
    | none => exact .inr ⟨.unknownNode composed, by simp only [checkComposed, known]; rfl⟩
    | some kind =>
        by_cases calls : kind.isComposed = true
        · exact .inl (by simp only [checkComposed, known, if_pos calls]; rfl)
        · exact .inr ⟨.notComposed (engine.chart.label composed), by
            simp only [checkComposed, known, if_neg calls]; rfl⟩
  unfold enter
  rcases checked with passed | ⟨fault, refused⟩
  · rw [SessionM.bind_of_ok passed]
    rcases originKind_cases engine node session with ⟨kind, known, fit, -⟩ | ⟨-, fault, refused⟩
    · refine .inl ⟨kind, known, fit, ?_⟩
      rw [SessionM.bind_of_ok (openAt_of_fit support session known fit)]
      rfl
    · refine .inr ⟨fault, ?_⟩
      unfold openAt
      rw [SessionM.bind_of_error (SessionM.bind_of_error refused)]
  · exact .inr ⟨fault, SessionM.bind_of_error refused⟩

theorem call_of_fit {node called : NodeRef} {kind : NodeKind} (session : Session σ)
    (known : engine.chart.kind? called = some kind) (fit : kind.isOrigin = true) :
    engine.call node called session = .ok () (session.calling node called kind) := by
  have minted : SessionM.mint (.caller node) session =
      .ok (session.nextSupport (.caller node)) session.countSupport := rfl
  unfold call
  rw [SessionM.bind_of_ok minted, SessionM.bind_of_ok (openAt_of_fit _ _ known fit)]
  rfl

theorem call_of_unfit (node : NodeRef) {called : NodeRef} (session : Session σ)
    (unfit : (engine.chart.kind? called).any NodeKind.isOrigin = false) :
    ∃ fault, engine.call node called session = .error fault session.countSupport := by
  have minted : SessionM.mint (.caller node) session =
      .ok (session.nextSupport (.caller node)) session.countSupport := rfl
  rcases originKind_cases engine called session.countSupport with ⟨kind, known, fit, -⟩ | ⟨-, fault, refused⟩
  · simp [known, fit] at unfit
  · refine ⟨fault, ?_⟩
    unfold call openAt
    rw [SessionM.bind_of_ok minted, SessionM.bind_of_error (SessionM.bind_of_error refused)]

/-- A handler runs if it is registered; nothing happens otherwise. -/
theorem react_cases (engine : Engine σ) (node : NodeRef) (name : String) (deed : Deed)
    (session : Session σ) (invokes : engine.chart.kind? node = some (.action (.invoke name))) :
    (∃ after, Reacts engine node deed none session after ∧
      engine.react node name deed.part session = .ok () after) ∨
    (∃ failure after fault, Reacts engine node deed (some failure) session after ∧
      engine.react node name deed.part session = .error fault after) ∨
    (engine.serves node = false ∧
      ∃ fault, engine.react node name deed.part session = .error fault session) := by
  obtain ⟨record, known, -⟩ := Option.map_eq_some_iff.1 invokes
  cases registered : engine.handlers.at? name with
  | none =>
      refine .inr (.inr ⟨by simp [serves, invokes, registered], .unknownAction name, ?_⟩)
      simp only [react, registered]
      rfl
  | some handler =>
      have reacts : Reacts engine node deed _ session _ := .handled invokes registered known
      have got : (get : SessionM σ (Session σ)) session = .ok session session := rfl
      have written (after : Session σ) : (set after : SessionM σ PUnit) session = .ok ⟨⟩ after := rfl
      cases outcome : (deed.part handler record session.facts session.host).failure with
      | none =>
          rw [outcome] at reacts
          refine .inl ⟨_, reacts, ?_⟩
          simp only [react, registered, known, SessionM.bind_of_ok got,
            SessionM.bind_of_ok (written _), outcome]
          rfl
      | some failure =>
          rw [outcome] at reacts
          refine .inr (.inl ⟨failure, _, .action (engine.chart.label node) failure, reacts, ?_⟩)
          simp only [react, registered, known, SessionM.bind_of_ok got,
            SessionM.bind_of_ok (written _), outcome]
          rfl

/-- A node that joins a strand performs its action, or is refused. -/
theorem perform_cases (engine : Engine σ) (node : NodeRef) (session : Session σ) :
    (∃ after, Performs engine node session after ∧
      engine.perform node session = .ok () (after.leaveFootprint (.acted node .perform true))) ∨
    (∃ after fault, Refuses engine node .perform session after ∧
      engine.perform node session = .error fault (after.leaveFootprint (.acted node .perform false))) := by
  unfold perform
  cases kind : engine.chart.kind? node with
  | none =>
      refine .inr ⟨session, .unknownNode node, .unserved (by simp [serves, kind]), ?_⟩
      exact SessionM.attempt_of_error rfl
  | some found =>
      cases found with
      | start => exact .inl ⟨session, .started kind, SessionM.attempt_of_ok rfl⟩
      | snapshot => exact .inl ⟨_, .reached kind, SessionM.attempt_of_ok rfl⟩
      | composed called =>
          rcases originKind_cases engine called session with ⟨origin, known, fit, -⟩ | ⟨unfit, -⟩
          · exact .inl ⟨_, .called kind known fit,
              SessionM.attempt_of_ok (call_of_fit session known fit)⟩
          · obtain ⟨fault, refused⟩ := call_of_unfit node session unfit
            refine .inr ⟨_, fault, .uncalled (by simp only [serves, kind, unfit]), ?_⟩
            exact SessionM.attempt_of_error refused
      | action action =>
          cases action with
          | noop => exact .inl ⟨session, .idled kind, SessionM.attempt_of_ok rfl⟩
          | assign fact value => exact .inl ⟨_, .assigned kind, SessionM.attempt_of_ok rfl⟩
          | invoke name =>
              rcases react_cases engine node name .perform session kind with
                ⟨after, reacts, ran⟩ | ⟨failure, after, fault, reacts, ran⟩ | ⟨lacks, fault, ran⟩
              · exact .inl ⟨after, .invoked reacts, SessionM.attempt_of_ok ran⟩
              · exact .inr ⟨after, fault, .failed reacts, SessionM.attempt_of_error ran⟩
              · exact .inr ⟨session, fault, .unserved lacks, SessionM.attempt_of_error ran⟩

/-- A node that leaves a strand reverts its action, or is refused. -/
theorem revert_cases (engine : Engine σ) (node : NodeRef) (session : Session σ) :
    (∃ after, Reverts engine node session after ∧
      engine.revert node session = .ok () (after.leaveFootprint (.acted node .revert true))) ∨
    (∃ after fault, Refuses engine node .revert session after ∧
      engine.revert node session = .error fault (after.leaveFootprint (.acted node .revert false))) := by
  unfold revert
  cases kind : engine.chart.kind? node with
  | none =>
      refine .inr ⟨session, .unknownNode node, .unserved (by simp [serves, kind]), ?_⟩
      exact SessionM.attempt_of_error rfl
  | some found =>
      cases found with
      | start => exact .inl ⟨session, .started kind, SessionM.attempt_of_ok rfl⟩
      | snapshot => exact .inl ⟨_, .reached kind, SessionM.attempt_of_ok rfl⟩
      | composed called => exact .inl ⟨_, .called kind, SessionM.attempt_of_ok rfl⟩
      | action action =>
          cases action with
          | noop => exact .inl ⟨session, .idled kind, SessionM.attempt_of_ok rfl⟩
          | assign fact value => exact .inl ⟨_, .assigned kind, SessionM.attempt_of_ok rfl⟩
          | invoke name =>
              rcases react_cases engine node name .revert session kind with
                ⟨after, reacts, ran⟩ | ⟨failure, after, fault, reacts, ran⟩ | ⟨lacks, fault, ran⟩
              · exact .inl ⟨after, .invoked reacts, SessionM.attempt_of_ok ran⟩
              · exact .inr ⟨after, fault, .failed reacts, SessionM.attempt_of_error ran⟩
              · exact .inr ⟨session, fault, .unserved lacks, SessionM.attempt_of_error ran⟩

end Engine

/-- What an operation leaves behind when it is run in a session: a session that steps lead to, or, if
the operation failed, also one in which a change broke off after them. -/
def Follows (engine : Engine σ) (step : Session σ → Session σ → Prop) (session : Session σ) :
    EStateM.Result Fault (Session σ) α → Prop
  | .ok _ after => Relation.ReflTransGen step session after
  | .error _ after =>
    ∃ between, Relation.ReflTransGen step session between ∧
      (after = between ∨ Break engine between after)

namespace Follows

variable {engine : Engine σ} {step wider : Session σ → Session σ → Prop} {session : Session σ}

/-- An operation that succeeds has taken steps all the way. -/
theorem steps {result : EStateM.Result Fault (Session σ) α} {a : α} {after : Session σ}
    (follows : Follows engine step session result) (ran : result = .ok a after) :
    Relation.ReflTransGen step session after := by
  rw [ran] at follows
  exact follows

theorem done (a : α) : Follows engine step session (.ok a session) := Relation.ReflTransGen.refl

theorem refused (fault : Fault) :
    Follows engine step session (.error fault session : EStateM.Result Fault (Session σ) α) :=
  ⟨session, .refl, .inl rfl⟩

theorem trans {between : Session σ} {result : EStateM.Result Fault (Session σ) α}
    (first : Relation.ReflTransGen step session between) (rest : Follows engine step between result) :
    Follows engine step session result := by
  cases result with
  | ok a after => exact Relation.ReflTransGen.trans first rest
  | error fault after =>
      obtain ⟨last, steps, left⟩ := rest
      exact ⟨last, first.trans steps, left⟩

theorem mono {result : EStateM.Result Fault (Session σ) α} (follows : Follows engine step session result)
    (within : ∀ {s t}, step s t → wider s t) : Follows engine wider session result := by
  cases result with
  | ok a after => exact Relation.ReflTransGen.mono (fun _ _ => within) _ _ follows
  | error fault after =>
      obtain ⟨last, steps, left⟩ := follows
      exact ⟨last, Relation.ReflTransGen.mono (fun _ _ => within) _ _ steps, left⟩

theorem bind {x : SessionM σ α} {f : α → SessionM σ β} {origin : Session σ}
    (first : Follows engine step origin (x session))
    (rest : ∀ a between, x session = .ok a between → Follows engine step between (f a between)) :
    Follows engine step origin ((x >>= f) session) := by
  cases ran : x session with
  | ok a between =>
      rw [ran] at first
      rw [SessionM.bind_of_ok ran]
      exact trans first (rest a between ran)
  | error fault between =>
      rw [ran] at first
      rw [SessionM.bind_of_error ran]
      exact first

end Follows

/-- A support that is not used was counted all the same. -/
theorem Supplies.counts {engine : Engine σ} {grants : Grants σ} {session : Session σ} {node : NodeRef}
    {support : Support} {count : Nat} (supplies : Supplies grants session node support count) :
    Relation.ReflTransGen (Offer engine grants) session (session.recount count) := by
  cases supplies with
  | given => exact .refl
  | minted => exact .single .counted

namespace Engine

variable {engine : Engine σ} {grants : Grants σ}

/-- An origin is supported with what it is supplied with, or refused. -/
theorem begin_follows {node : NodeRef} {support : Support} {count : Nat} {session : Session σ}
    (supplies : Supplies grants session node support count) :
    Follows engine (Offer engine grants) session
      (engine.begin node support (session.recount count)) := by
  rcases begin_cases engine node support (session.recount count) with
    ⟨kind, known, fit, active, ran⟩ | ⟨kind, known, fit, -, ran⟩ | ⟨-, fault, ran⟩
  · rw [ran]
    exact .single (.supported known fit supplies active)
  · rw [ran]
    exact .single (.opened known fit supplies)
  · rw [ran]
    exact .trans supplies.counts (.refused fault)

theorem enter_follows {composed node : NodeRef} {support : Support} {count : Nat} {session : Session σ}
    (supplies : Supplies grants session node support count) :
    Follows engine (Offer engine grants) session
      (engine.enter composed node support (session.recount count)) := by
  rcases enter_cases engine composed node support (session.recount count) with
    ⟨kind, known, fit, ran⟩ | ⟨fault, ran⟩
  · rw [ran]
    exact .single (.opened known fit supplies)
  · rw [ran]
    exact .trans supplies.counts (.refused fault)

end Engine

end Flowchart
