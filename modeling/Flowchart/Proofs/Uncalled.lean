import Flowchart.Proofs.Calls

/-!
Charts without calls. Where no node is composed, strands are opened at inactive origins alone; so
origins are like inner nodes there: every node has one entry while it is active and none otherwise.
-/
namespace Flowchart

variable {σ : Type} {engine : Engine σ} {chart : Chart} {session after : Session σ} {node : NodeRef}

/-- No node of the chart calls another. -/
def Chart.CallsNothing (chart : Chart) : Prop := ∀ node ∈ chart.nodes, node.kind.isComposed = false

instance (chart : Chart) : Decidable chart.CallsNothing :=
  inferInstanceAs (Decidable (∀ node ∈ chart.nodes, node.kind.isComposed = false))

namespace Chart.CallsNothing

theorem isComposed_eq_false (nothing : chart.CallsNothing) {kind : NodeKind}
    (known : chart.kind? node = some kind) : kind.isComposed = false := by
  obtain ⟨record, listed, rfl⟩ := Option.map_eq_some_iff.1 known
  exact nothing record (List.mem_of_getElem? listed)

theorem ne_composed (nothing : chart.CallsNothing) (node called : NodeRef) :
    chart.kind? node ≠ some (.composed called) := by
  intro known
  cases nothing.isComposed_eq_false known

end Chart.CallsNothing

/-- A node that calls nobody tells of nothing when it joins, whichever node is asked about. -/
theorem Performs.alike_of_ne_composed {acted : NodeRef} (performs : Performs engine acted session after)
    (plain : ∀ called, engine.chart.kind? acted ≠ some (.composed called)) (node : NodeRef) :
    session.Alike node after := by
  cases performs with
  | started | idled | reached | assigned => exact ⟨rfl, rfl, rfl⟩
  | invoked reacts =>
      obtain ⟨facts, host, rfl⟩ := reacts.exists_eq
      exact ⟨rfl, rfl, rfl⟩
  | called kind => exact absurd kind (plain _)

theorem Reverts.alike_of_ne_composed {acted : NodeRef} (reverts : Reverts engine acted session after)
    (plain : ∀ called, engine.chart.kind? acted ≠ some (.composed called)) (node : NodeRef) :
    session.Alike node after := by
  rcases reverts.eq_endCall_or with ⟨called, kind, -⟩ | ⟨-, -, activation⟩
  · exact absurd kind (plain called)
  · refine ⟨by rw [reverts.fades.nodes], ?_, ?_⟩
    · rw [Session.isActive, activation, Session.isActive]
    · rw [Session.deeds, reverts.leaves.1, Session.deeds]

/-- One change of a session while nobody calls: in the turn of a strand, in what is counted and asked,
or at an origin, which is supported where it is active, and opens a strand where it is not. -/
inductive Stride (engine : Engine σ) : Session σ → Session σ → Prop
  | moved {session after : Session σ} (move : Move engine session after) : Stride engine session after
  | quiet {session : Session σ} {touched : List String} {count : Nat} {host : σ}
      (counts : session.supportCount ≤ count) :
      Stride engine session { session with touched := touched, supportCount := count, host := host }
  | supported {session : Session σ} {node : NodeRef} {kind : NodeKind} {support : Support}
      (known : engine.chart.kind? node = some kind) (fit : kind.isOrigin = true)
      (granted : (Grants.outside : Grants σ).gives session node support)
      (active : session.isActive node = true) :
      Stride engine session ((session.addSupport node support).leaveFootprint (.started node))
  | opened {session : Session σ} {node : NodeRef} {kind : NodeKind} {support : Support}
      (known : engine.chart.kind? node = some kind) (fit : kind.isOrigin = true)
      (granted : (Grants.outside : Grants σ).gives session node support)
      (idle : session.isActive node = false) :
      Stride engine session
        (((session.addSupport node support).openStrand node kind support).leaveFootprint
          (.started node))

theorem Stride.counted (session : Session σ) : Stride engine session session.countSupport :=
  .quiet (Nat.le_succ session.supportCount)

namespace Engine

theorem begin_strides {support : Support}
    (granted : (Grants.outside : Grants σ).gives session node support) :
    Follows engine (Stride engine) session (engine.begin node support session) := by
  rcases begin_cases engine node support session with
    ⟨kind, known, fit, active, ran⟩ | ⟨kind, known, fit, idle, ran⟩ | ⟨-, fault, ran⟩
  · rw [ran]
    exact .single (.supported known fit granted active)
  · rw [ran]
    exact .single (.opened known fit granted idle)
  · rw [ran]
    exact .refused fault

/-- The support that was just minted is given to an origin. -/
theorem begin_strides_of_minted {basis : Basis} (outside : basis.Outside) (session : Session σ)
    (node : NodeRef) :
    Follows engine (Stride engine) session
      (engine.begin node (session.nextSupport basis) session.countSupport) :=
  .trans (.single (.counted session)) (begin_strides ⟨outside, Nat.le_refl _⟩)

/-- There is nobody on whose behalf a strand could be opened. -/
theorem enter_strides (nothing : engine.chart.CallsNothing) (composed node : NodeRef)
    (support : Support) (session : Session σ) :
    Follows engine (Stride engine) session (engine.enter composed node support session) := by
  have refused : ∃ fault, engine.checkComposed composed session = .error fault session := by
    unfold checkComposed
    cases known : engine.chart.kind? composed with
    | none => exact ⟨_, rfl⟩
    | some kind =>
        simp only [nothing.isComposed_eq_false known, Bool.false_eq_true, if_false]
        exact ⟨_, rfl⟩
  obtain ⟨fault, ran⟩ := refused
  unfold enter
  rw [SessionM.bind_of_error ran]
  exact .refused fault

theorem drives_strides (nothing : engine.chart.CallsNothing)
    (source : engine.SourceGrants fun _ basis => basis.Outside) : engine.Drives (Stride engine) where
  moved := .moved
  heard := .quiet (Nat.le_refl _)
  indicated := by
    refine indicate_follows_of (.quiet (Nat.le_refl _)) fun fact session host => ?_
    refine carryOut_follows_of (fun {node basis} asked between => ?_)
      (fun {composed node basis} _ between => ?_) _
    · exact begin_strides_of_minted (source _ _ _ _ _ asked) between node
    · exact .trans (.single (.counted between)) (enter_strides nothing composed node _ _)

end Engine

/-- The host supports origins from outside alone and with supports that it minted in the session, takes
no support away, and succeeds in what it does. -/
structure Operation.Forward (engine : Engine σ) (session : Session σ) (operation : Operation σ) :
    Prop where
  keeps : operation.isWithdraw = false
  given : operation.offers ((Grants.outside : Grants σ).gives session)
  succeeds : operation.succeeds engine session = true

theorem Operation.Forward.ne_error {operation : Operation σ} {fault : Fault}
    (forward : operation.Forward engine session) :
    operation.run engine session ≠ .error fault after := by
  intro ran
  have succeeds := forward.succeeds
  unfold Operation.succeeds at succeeds
  rw [ran] at succeeds
  cases succeeds

/-- What every stride keeps, and every change of facts by the host, holds wherever a run leads that
only goes forward. -/
theorem Engine.Reaches.keep_strides {facts : Facts} {motive : Session σ → Prop}
    (nothing : engine.chart.CallsNothing) (source : engine.SourceGrants fun _ basis => basis.Outside)
    (fresh : ∀ host, motive (.fresh facts host))
    (stride : ∀ {session after}, motive session → Stride engine session after → motive after)
    (rewritten : ∀ {session facts host}, motive session →
      motive { session with facts := facts, host := host })
    (reached : engine.Reaches (Operation.Forward engine) facts session) : motive session := by
  have drives := drives_strides nothing source
  have launches {host : σ} {launched : Session σ} (ran : engine.launch facts host = .ok launched) :
      motive launched := by
    have unconditional : Basis.unconditional.Outside := trivial
    have path := drives.steps_of_launch
      (beginAll_follows_of fun node between => begin_strides_of_minted unconditional between node) ran
    exact Session.keep_of_steps path stride (fresh host)
  have follows {session : Session σ} {operation : Operation σ}
      (forward : operation.Forward engine session) :=
    Operation.follows_or_of drives (.counted session) begin_strides
      (fun _ => enter_strides nothing _ _ _ session) forward.given
  refine reached.keep launches follows stride ?_ ?_ fun _ inv => rewritten inv
  · intro operation session fault between after forward ran
    exact absurd ran forward.ne_error
  · intro session node id forward
    cases forward.keeps

/-- Every node has an entry while it is active and none otherwise. -/
structure Session.Lone (engine : Engine σ) (session : Session σ) : Prop
    extends session.Orderly engine where
  single : ∀ node, session.Single node 0

namespace Session.Lone

theorem fresh (engine : Engine σ) (facts : Facts) (host : σ) :
    (Session.fresh facts host).Lone engine :=
  { Session.Orderly.fresh engine facts host with single := fun _ => ⟨rfl, Nat.zero_le 1, rfl, rfl⟩ }

/-- No session with other facts, counts or host state is any different. -/
theorem congr (inv : session.Lone engine) (strands : after.strands = session.strands)
    (count : after.strandCount = session.strandCount)
    (activation : after.activation = session.activation) (trail : after.trail = session.trail) :
    after.Lone engine where
  toOrderly := inv.toOrderly.fade ⟨strands, count, fun _ _ mem => activation ▸ mem⟩
  single node := (inv.single node).congr
    ⟨by rw [nodes, strands, nodes], by rw [isActive, activation, isActive],
      by rw [deeds, trail, deeds]⟩

/-- While a strand is collapsed, the entries that are due make up for the activity that is lost. -/
theorem collapsing (inv : session.Lone engine) (nothing : engine.chart.CallsNothing) {id : StrandId}
    (live : session.strands.contains id = true) {now : List (Entry × Bool) × Session σ}
    (collapsing : Collapsing engine id session now) (node : NodeRef) :
    now.2.Single node (due node now.1) := by
  induction collapsing with
  | refl => exact (inv.single node).swept id
  | tail first step ih =>
      have underway := Session.Underway.collapsing inv.toOrderly live first
      cases step with
      | @entry before rest entry now reverted reverts =>
          exact ih.undo underway reverts
            (reverts.alike_of_ne_composed (nothing.ne_composed entry.node) node)

/-- A strand is opened at an origin that was inactive. -/
theorem opened (inv : session.Lone engine) {kind : NodeKind} {support : Support}
    (idle : session.isActive node = false) (other : NodeRef) :
    (((session.addSupport node support).openStrand node kind support).leaveFootprint
      (.started node)).Single other 0 := by
  have new : (session.addSupport node support).strands.get?
      ⟨(session.addSupport node support).strandCount + 1⟩ = none := inv.toTracked.fresh
  by_cases same : node = other
  · subst same
    refine (inv.single node).join idle ?_ ?_ ?_
    · change ((session.addSupport node support).openStrand node kind support).nodes.count node = _
      rw [nodes_openStrand new, List.count_append, List.count_singleton_self]
      rfl
    · have given := isActive_addSupport session node node support
      rw [decide_eq_true rfl, Bool.true_or] at given
      change ((session.addSupport node support).openStrand node kind
        support).activation.isActive node = true
      rwa [activation_openStrand]
    · obtain ⟨snapshots, opened⟩ := (session.addSupport node support).openStrand_eq node kind support
      rw [opened]
      exact (Footprint.deeds_cons_of_silent rfl).trans (Footprint.deeds_acted_self node .perform _)
  · exact (inv.single other).congr
      (((Session.Alike.addSupport same support).trans (.openStrand same kind support new)).trans
        (.leaveFootprint rfl))

end Session.Lone

theorem Move.lone (move : Move engine session after) (nothing : engine.chart.CallsNothing)
    (inv : session.Lone engine) : after.Lone engine := by
  refine { move.orderly inv.toOrderly with single := fun node => ?_ }
  cases move with
  | @collapsed after id kept live collapsing settled =>
      have collapsed := inv.collapsing nothing live collapsing node
      rw [due_eq_zero_of_all settled] at collapsed
      exact collapsed.congr (.tidy after id node)
  | @merged id ref edge next active => exact (inv.single node).congr (.merging active ref)
  | @joined acted id ref edge next idle performs =>
      exact (inv.single node).joined idle
        (performs.alike_of_ne_composed (nothing.ne_composed edge.target) node)

theorem Stride.lone (stride : Stride engine session after) (nothing : engine.chart.CallsNothing)
    (inv : session.Lone engine) : after.Lone engine := by
  cases stride with
  | moved move => exact move.lone nothing inv
  | quiet => exact inv.congr rfl rfl rfl rfl
  | @supported node kind support known fit granted active =>
      refine { (inv.toOrderly.addSupport (inv.covered node active) support).fade
        ((Session.Fades.refl _).leaveFootprint _) with single := fun other => ?_ }
      exact (inv.single other).congr
        ((Session.Alike.addSupport_of_active active support).trans (.leaveFootprint rfl))
  | @opened node kind support known fit granted idle =>
      exact { (inv.toOrderly.openStrand known fit support).fade
        ((Session.Fades.refl _).leaveFootprint _) with single := inv.opened idle }

end Flowchart
