import Flowchart.Proofs.Orderly

/-!
What the turn of a strand and the opening of strands have to do with the other strands: nothing. They
look at no strand but the one that has its turn and write to none but that one and those they open, so
whatever strands there are besides, they do the same.
-/
namespace Flowchart

variable {σ α β ς τ : Type}

/-- From the state as it is placed, `full` ends the way in which `step` ends from the state itself, in
the place of the state where `step` ends. What `keeps` says holds between the steps of a success. -/
def Mirrors (place : τ → ς) (keeps : τ → Prop) (state : τ) (full : EStateM Fault ς α)
    (step : EStateM Fault τ α) : Prop :=
  match step state with
  | .ok value after => full (place state) = .ok value (place after) ∧ keeps after
  | .error fault after => full (place state) = .error fault (place after)

namespace Mirrors

variable {place : τ → ς} {keeps : τ → Prop} {state : τ}

theorem pure (kept : keeps state) (value : α) :
    Mirrors place keeps state (Pure.pure value) (Pure.pure value) := ⟨rfl, kept⟩

theorem throw (fault : Fault) :
    Mirrors place keeps state (MonadExcept.throw fault : EStateM Fault ς α)
      (MonadExcept.throw fault) := rfl

theorem set (after : τ) (kept : keeps after) :
    Mirrors place keeps state (MonadStateOf.set (place after)) (MonadStateOf.set after) := ⟨rfl, kept⟩

theorem bind {full : EStateM Fault ς α} {step : EStateM Fault τ α} {fullRest : α → EStateM Fault ς β}
    {rest : α → EStateM Fault τ β} (first : Mirrors place keeps state full step)
    (later : ∀ value after, keeps after → Mirrors place keeps after (fullRest value) (rest value)) :
    Mirrors place keeps state (full >>= fullRest) (step >>= rest) := by
  unfold Mirrors at first ⊢
  simp only [Bind.bind, EStateM.bind]
  cases ran : step state with
  | ok value after =>
      rw [ran] at first
      obtain ⟨mirrored, kept⟩ := first
      rw [mirrored]
      exact later value after kept
  | error fault after =>
      rw [ran] at first
      rw [first]

/-- Both sides read the state that they are in. -/
theorem get {fullRest : ς → EStateM Fault ς α} {rest : τ → EStateM Fault τ α}
    (later : Mirrors place keeps state (fullRest (place state)) (rest state)) :
    Mirrors place keeps state (MonadState.get >>= fullRest) (MonadState.get >>= rest) := later

theorem ite (test : Bool) {full fullElse : EStateM Fault ς α} {step stepElse : EStateM Fault τ α}
    (first : Mirrors place keeps state full step) (other : Mirrors place keeps state fullElse stepElse) :
    Mirrors place keeps state (if test then full else fullElse) (if test then step else stepElse) := by
  cases test with
  | true => exact first
  | false => exact other

end Mirrors

namespace Session

/-- The session with its strands written over others. -/
def upon (others : Registry) (session : Session σ) : Session σ :=
  { session with strands := others.overlay session.strands }

/-- The strand that has its turn, if there is one, is live. -/
def Holds (turn : Option StrandId) (session : Session σ) : Prop :=
  ∀ id, turn = some id → id ∈ session.strands.keys

@[simp] theorem facts_upon (others : Registry) (session : Session σ) :
    (session.upon others).facts = session.facts := rfl

@[simp] theorem host_upon (others : Registry) (session : Session σ) :
    (session.upon others).host = session.host := rfl

theorem upon_unassign (others : Registry) (session : Session σ) (node : NodeRef) (fact : String) :
    (session.upon others).unassign node fact = (session.unassign node fact).upon others := by
  simp only [unassign, upon]
  cases session.replaced.at? node with
  | none | some => rfl

theorem upon_endCall (others : Registry) (session : Session σ) (node : NodeRef) :
    (session.upon others).endCall node = (session.endCall node).upon others := by
  simp only [endCall, upon]
  cases session.calls.at? node with
  | none | some => rfl

theorem upon_putStrand (others : Registry) (session : Session σ) (strand : Strand) :
    (session.upon others).putStrand strand = (session.putStrand strand).upon others := by
  simp only [putStrand, upon, Roster.overlay_insert]

theorem get?_upon {session : Session σ} {id : StrandId} (live : id ∈ session.strands.keys)
    (others : Registry) : (session.upon others).strands.get? id = session.strands.get? id :=
  Roster.get?_overlay others live

theorem entries_upon {session : Session σ} {id : StrandId} (live : id ∈ session.strands.keys)
    (others : Registry) : (session.upon others).entries id = session.entries id := by
  rw [entries, entries, get?_upon live]

theorem Holds.putStrand {turn : Option StrandId} {session : Session σ} (holds : session.Holds turn)
    (strand : Strand) : (session.putStrand strand).Holds turn :=
  fun id own => Roster.mem_keys_insert.2 (.inl (holds id own))

end Session

/-- Whatever strands there are besides, the step does the same; and it leaves the strand live that has
its turn. -/
def SessionM.Framed (turn : Option StrandId) (step : SessionM σ α) : Prop :=
  ∀ (others : Registry) (session : Session σ), session.Holds turn →
    Mirrors (Session.upon others) (Session.Holds turn) session step step

namespace SessionM.Framed

variable {turn : Option StrandId}

theorem pure (value : α) : Framed turn (Pure.pure value : SessionM σ α) :=
  fun _ _ holds => .pure holds value

theorem throw (fault : Fault) : Framed turn (MonadExcept.throw fault : SessionM σ α) :=
  fun _ _ _ => .throw fault

theorem bind {step : SessionM σ α} {rest : α → SessionM σ β} (first : Framed turn step)
    (later : ∀ value, Framed turn (rest value)) : Framed turn (step >>= rest) :=
  fun others session holds => (first others session holds).bind fun value after =>
    later value others after

theorem map {step : SessionM σ α} (framed : Framed turn step) (f : α → β) : Framed turn (f <$> step) :=
  framed.bind fun value => .pure (f value)

theorem ite (test : Bool) {step stepElse : SessionM σ α} (first : Framed turn step)
    (other : Framed turn stepElse) : Framed turn (if test then step else stepElse) :=
  fun others session holds => .ite test (first others session holds) (other others session holds)

theorem of_change {change : Session σ → Session σ}
    (apart : ∀ others session, change (session.upon others) = (change session).upon others)
    (keeps : ∀ session, session.Holds turn → (change session).Holds turn) :
    Framed turn (modify change : SessionM σ Unit) :=
  fun others session holds =>
    ⟨congrArg (EStateM.Result.ok ()) (apart others session), keeps session holds⟩

/-- A change that has nothing to do with strands. -/
theorem of_apart {change : Session σ → Session σ}
    (apart : ∀ others session, change (session.upon others) = (change session).upon others)
    (same : ∀ session, (change session).strands = session.strands) :
    Framed turn (modify change : SessionM σ Unit) :=
  of_change apart fun session holds id own => same session ▸ holds id own

theorem putStrand (strand : Strand) :
    Framed turn (modify fun session => session.putStrand strand : SessionM σ Unit) :=
  of_change (fun others session => session.upon_putStrand others strand) fun _ holds =>
    holds.putStrand strand

theorem attempt {action : SessionM σ Unit} (framed : Framed turn action) (deed : Deed)
    (node : NodeRef) : Framed turn (SessionM.attempt deed node action) := by
  intro others session holds
  have acted := framed others session holds
  unfold Mirrors at acted ⊢
  cases ran : action session with
  | ok u after =>
      rw [ran] at acted
      rw [attempt_of_ok ran]
      exact ⟨attempt_of_ok acted.1, acted.2⟩
  | error fault after =>
      rw [ran] at acted
      rw [attempt_of_error ran]
      exact attempt_of_error acted

theorem onFault {action : SessionM σ Unit} (framed : Framed turn action) {change : Session σ → Session σ}
    (apart : ∀ others session, change (session.upon others) = (change session).upon others) :
    Framed turn (action.onFault change) := by
  intro others session holds
  have acted := framed others session holds
  unfold Mirrors at acted ⊢
  cases ran : action session with
  | ok u after =>
      rw [ran] at acted
      rw [onFault_of_ok ran]
      exact ⟨onFault_of_ok acted.1, acted.2⟩
  | error fault after =>
      rw [ran] at acted
      rw [onFault_of_error ran, onFault_of_error acted]
      exact congrArg (EStateM.Result.error fault) (apart others after)

theorem mint (basis : Basis) : Framed turn (SessionM.mint basis : SessionM σ Support) :=
  fun _ _ holds => ⟨rfl, holds⟩

theorem checkLimit (loop : Loop) (limit : Option UInt64) (wanted : Nat) :
    Framed turn (SessionM.checkLimit loop limit wanted : SessionM σ Unit) := by
  cases limit with
  | none => exact .pure ()
  | some bound =>
      by_cases beyond : bound.toNat < wanted
      · simp only [SessionM.checkLimit, if_pos beyond]
        exact .throw _
      · simp only [SessionM.checkLimit, if_neg beyond]
        exact .pure ()

end SessionM.Framed

namespace Engine

variable {turn : Option StrandId}

theorem originKind_framed (engine : Engine σ) (node : NodeRef) : (engine.originKind node).Framed turn := by
  unfold originKind
  cases engine.chart.kind? node with
  | none => exact .throw _
  | some kind => exact .ite _ (.pure kind) (.throw _)

theorem checkComposed_framed (engine : Engine σ) (node : NodeRef) :
    (engine.checkComposed node).Framed turn := by
  unfold checkComposed
  cases engine.chart.kind? node with
  | none => exact .throw _
  | some kind => exact .ite _ (.pure ()) (.throw _)

theorem arrive_framed (node : NodeRef) (kind : NodeKind) :
    (arrive node kind : SessionM σ Unit).Framed turn := by
  unfold arrive
  split
  · exact .of_apart (fun _ _ => rfl) fun _ => rfl
  · exact .pure ()

theorem openStrand_framed (node : NodeRef) (kind : NodeKind) (support : Support) :
    (openStrand node kind support : SessionM σ StrandId).Framed turn := by
  have minted : (SessionM.mintStrandId : SessionM σ StrandId).Framed turn :=
    fun _ _ holds => ⟨rfl, holds⟩
  exact .bind minted fun id => .bind (.attempt (arrive_framed node kind) _ _) fun _ =>
    .bind (.putStrand _) fun _ => .pure id

theorem openAt_framed (engine : Engine σ) (node : NodeRef) (support : Support) :
    (engine.openAt node support).Framed turn :=
  .bind (originKind_framed engine node) fun kind =>
    .bind (.of_apart (fun _ _ => rfl) fun _ => rfl) fun _ => openStrand_framed node kind support

theorem begin_framed (engine : Engine σ) (node : NodeRef) (support : Support) :
    (engine.begin node support).Framed turn := by
  refine .bind (originKind_framed engine node) fun kind others session holds => .get ?_
  have marked : (modify fun session => session.addSupport node support : SessionM σ Unit).Framed turn :=
    .of_apart (fun _ _ => rfl) fun _ => rfl
  have noted (opened : Option StrandId) : (do
      modify fun session => session.leaveFootprint (.started node)
      return opened : SessionM σ (Option StrandId)).Framed turn :=
    .bind (.of_apart (fun _ _ => rfl) fun _ => rfl) fun _ => .pure opened
  refine (marked others session holds).bind fun _ between holds => .ite _ ?_ ?_
  · exact SessionM.Framed.bind (.pure none) noted others between holds
  · exact ((openStrand_framed node kind support).map some).bind noted others between holds

theorem enter_framed (engine : Engine σ) (composed node : NodeRef) (support : Support) :
    (engine.enter composed node support).Framed turn :=
  .bind (checkComposed_framed engine composed) fun _ =>
    .bind (openAt_framed engine node support) fun id =>
      .bind (.of_apart (fun _ _ => rfl) fun _ => rfl) fun _ => .pure id

theorem react_framed (engine : Engine σ) (node : NodeRef) (handler : String)
    (part : Handler σ → Node → Facts → σ → Reaction σ) : (engine.react node handler part).Framed turn := by
  unfold react
  cases engine.handlers.at? handler with
  | none => exact .throw _
  | some found =>
      cases engine.chart.node? node with
      | none => exact .throw _
      | some record =>
          intro others session holds
          refine .get ?_
          simp only [Session.facts_upon, Session.host_upon]
          let reaction := part found record session.facts session.host
          refine .bind (.set { session with facts := reaction.facts, host := reaction.host } holds)
            fun _ between holds => ?_
          cases (part found record session.facts session.host).failure with
          | none => exact .pure holds ()
          | some failure => exact .throw _

theorem call_framed (engine : Engine σ) (node called : NodeRef) : (engine.call node called).Framed turn :=
  .bind (.mint _) fun support => .bind (openAt_framed engine called support) fun _ =>
    .of_apart (fun _ _ => rfl) fun _ => rfl

theorem perform_framed (engine : Engine σ) (node : NodeRef) : (engine.perform node).Framed turn := by
  unfold perform
  refine .attempt ?_ _ _
  cases engine.chart.kind? node with
  | none => exact .throw _
  | some kind =>
      cases kind with
      | start => exact arrive_framed node .start
      | snapshot => exact arrive_framed node .snapshot
      | composed called => exact call_framed engine node called
      | action action =>
          cases action with
          | noop => exact .pure ()
          | assign fact value => exact .of_apart (fun _ _ => rfl) fun _ => rfl
          | invoke handler => exact react_framed engine node handler Handler.perform

theorem revert_framed (engine : Engine σ) (node : NodeRef) : (engine.revert node).Framed turn := by
  unfold revert
  refine .attempt ?_ _ _
  cases engine.chart.kind? node with
  | none => exact .throw _
  | some kind =>
      cases kind with
      | start => exact .pure ()
      | snapshot => exact .of_apart (fun _ _ => rfl) fun _ => rfl
      | composed called =>
          exact .of_apart (fun others session => session.upon_endCall others node)
            fun session => (Session.Fades.endCall session node).strands
      | action action =>
          cases action with
          | noop => exact .pure ()
          | assign fact value =>
              exact .of_apart (fun others session => session.upon_unassign others node fact)
                fun session => (Session.Fades.unassign session node fact).strands
          | invoke handler => exact react_framed engine node handler Handler.revert

/-- The undoing of a run of entries writes to the strand that has its turn. -/
theorem undoRun_framed (engine : Engine σ) (id : StrandId) (before after latest : List Entry) :
    (engine.undoRun id before after latest).Framed turn := by
  induction latest with
  | nil => exact .pure ()
  | cons entry earlier ih =>
      exact .bind (.of_apart (fun _ _ => rfl) fun _ => rfl) fun _ =>
        .bind (revert_framed engine entry.node) fun _ => .bind (.putStrand _) fun _ => ih

theorem undoRuns_framed (engine : Engine σ) (id : StrandId) (before : List Entry)
    (runs : List (List (Entry × Bool))) : (engine.undoRuns id before runs).Framed turn := by
  induction runs generalizing before with
  | nil => exact .pure ()
  | cons run rest ih =>
      exact .ite _ (ih _) (.bind (undoRun_framed engine id before _ _) fun _ => ih before)

theorem collapse_framed (engine : Engine σ) (id : StrandId) : (engine.collapse id).Framed (some id) := by
  intro others session holds
  refine .get ?_
  -- The sweep reads the entries of the strand that has its turn, and of no other.
  rw [Session.entries_upon (holds id rfl)]
  refine .bind (.set (session.swept engine.chart id) holds) fun _ swept holds => ?_
  exact SessionM.Framed.bind (undoRuns_framed engine id [] _) (fun _ => .pure _) others swept holds

theorem nextEdge?_upon (engine : Engine σ) {session : Session σ} {id : StrandId}
    (live : id ∈ session.strands.keys) (others : Registry) :
    engine.nextEdge? (session.upon others) id = engine.nextEdge? session id := by
  unfold nextEdge?
  rw [Session.get?_upon live]
  rfl

theorem merge_framed (ref : EdgeRef) (target : NodeRef) :
    (merge ref target : SessionM σ Step).Framed turn := by
  refine fun others session holds => .get (.ite _ (.pure holds _) ?_)
  refine SessionM.Framed.bind (.mint (.edge ref)) (fun support => ?_) others session holds
  exact .bind (.of_apart (fun _ _ => rfl) fun _ => rfl) fun _ => .pure _

theorem join_framed (engine : Engine σ) (id : StrandId) (ref : EdgeRef) (target : NodeRef) :
    (engine.join id ref target).Framed (some id) := by
  intro others session holds
  refine .get ?_
  rw [Session.entries_upon (holds id rfl)]
  refine SessionM.Framed.bind (.mint (.edge ref)) (fun support => ?_) others session holds
  refine .bind (.of_change (fun others session => ?_) fun session holds => ?_) fun _ => ?_
  · exact Session.upon_putStrand others (session.addSupport target support) _
  · exact Session.Holds.putStrand holds _
  · -- Where the action fails the strand gets back the entries that were read before.
    refine .bind (.onFault (perform_framed engine target) fun others session => ?_) fun _ => .pure _
    rw [Session.upon_putStrand]
    rfl

theorem follow_framed (engine : Engine σ) (id : StrandId) (ref : EdgeRef) (edge : Edge) :
    (engine.follow id ref edge).Framed (some id) :=
  fun others session holds => .get <| .ite _ (merge_framed ref edge.target others session holds)
    (join_framed engine id ref edge.target others session holds)

theorem extend_framed (engine : Engine σ) (id : StrandId) (fuel steps : Nat) :
    (engine.extend id fuel steps).Framed (some id) := by
  induction fuel generalizing steps with
  | zero => exact .throw _
  | succ fuel ih =>
      intro others session holds
      rw [extend]
      refine .get ?_
      rw [nextEdge?_upon engine (holds id rfl)]
      cases engine.nextEdge? session id with
      | none => exact .pure holds _
      | some selected =>
          obtain ⟨ref, edge⟩ := selected
          refine SessionM.Framed.bind (.checkLimit _ _ _) (fun _ => ?_) others session holds
          refine .bind (follow_framed engine id ref edge) fun step => ?_
          cases step with
          | merged supported => exact .pure _
          | joined => exact .bind (ih (steps + 1)) fun _ => .pure _

/-- The turn of a strand has nothing to do with the others. -/
theorem advance_framed (engine : Engine σ) (id : StrandId) : (engine.advance id).Framed (some id) :=
  .bind (collapse_framed engine id) fun _ => .bind (extend_framed engine id _ 0) fun _ => .pure _

end Engine

end Flowchart
