import Flowchart.Proofs.Pruning

/-!
Retraction takes no more than it must. Where no node writes a fact, what holds at the start of a
settling holds until its end, so a node stays active that has its activity, over open edges and calls,
from a reason that holds; its entries are left alone with it, and its action is not reverted.
-/
namespace Flowchart

variable {σ : Type} {engine : Engine σ} {grants : Grants σ} {chart : Chart}

/-- Every entry of the node is still in its strand, and its action has not been reverted. -/
structure Session.Retains (node : NodeRef) (session after : Session σ) : Prop where
  entries : ∀ id, ((session.entries id).filter fun entry => entry.node = node).Sublist
    ((after.entries id).filter fun entry => entry.node = node)
  trail : ∃ steps, after.trail = steps ++ session.trail ∧
    ∀ completed, .acted node .revert completed ∉ steps

section Retains

variable {session between after : Session σ} {node : NodeRef} {id : StrandId}

namespace Session.Retains

theorem refl (session : Session σ) : session.Retains node session :=
  ⟨fun _ => List.Sublist.refl _, [], rfl, fun _ mem => nomatch mem⟩

theorem trans (first : session.Retains node between) (second : between.Retains node after) :
    session.Retains node after where
  entries id := (first.entries id).trans (second.entries id)
  trail := by
    obtain ⟨early, was, spared⟩ := first.trail
    obtain ⟨late, now, still⟩ := second.trail
    refine ⟨late ++ early, by rw [now, was, List.append_assoc], fun completed mem => ?_⟩
    rcases List.mem_append.1 mem with later | earlier
    · exact still completed later
    · exact spared completed earlier

/-- Strands that grow keep all of their entries. -/
theorem of_grown (entries : ∀ id, (session.entries id).Sublist (after.entries id))
    (trail : after.trail = session.trail) : session.Retains node after :=
  ⟨fun id => (entries id).filter _, [], trail, fun _ mem => nomatch mem⟩

theorem leaveFootprint (retains : session.Retains node after) {footprint : Footprint}
    (other : ∀ completed, footprint ≠ .acted node .revert completed) :
    session.Retains node (after.leaveFootprint footprint) := by
  refine retains.trans ⟨fun _ => List.Sublist.refl _, [footprint], rfl, fun completed mem => ?_⟩
  exact other completed (List.mem_singleton.1 mem).symm

theorem openStrand (new : session.strands.get? ⟨session.strandCount + 1⟩ = none) (origin : NodeRef)
    (kind : NodeKind) (support : Support) :
    session.Retains node (session.openStrand origin kind support) := by
  constructor
  · intro id
    rw [Session.entries_openStrand]
    split
    · rename_i same
      rw [← same, Session.entries, new]
      exact List.nil_sublist _
    · exact List.Sublist.refl _
  · obtain ⟨snapshots, opened⟩ := session.openStrand_eq origin kind support
    rw [opened]
    refine ⟨[.acted origin .perform true], rfl, fun completed mem => ?_⟩
    cases List.mem_singleton.1 mem

theorem tidy (session : Session σ) (id : StrandId) : session.Retains node (session.tidy id) := by
  by_cases empty : session.entries id = []
  · have dropped : session.tidy id = session.dropStrand id := by
      rw [Session.tidy, empty, List.isEmpty_nil, if_pos rfl]
    rw [dropped]
    refine of_grown (fun other => ?_) rfl
    by_cases same : id = other
    · rw [← same, empty]
      exact List.nil_sublist _
    · rw [Session.entries, Session.entries, Session.dropStrand, Roster.get?_erase_of_ne same]
  · rw [Session.tidy_of_ne_nil empty]
    exact refl session

end Session.Retains

/-- An entry that is undone is not one of a node that is active afterwards. -/
theorem Session.Underway.retains {before rest : List (Entry × Bool)} {entry : Entry}
    {reverted : Session σ}
    (underway : session.Underway engine id (before ++ (entry, false) :: rest))
    (reverts : Reverts engine entry.node (session.removeSupport entry.node entry.support.id) reverted)
    (active : session.isActive node = true) :
    session.Retains node ((reverted.leaveFootprint (.acted entry.node .revert true)).putStrand
      ⟨id, (before ++ rest).map Prod.fst⟩) := by
  have idle := underway.idle entry (List.mem_append_right _ (List.mem_cons_self ..))
  have apart : entry.node ≠ node := by
    rintro rfl
    exact absurd active (Bool.eq_false_iff.1 idle)
  have fades := (Session.Fades.removeSupport session entry.node entry.support.id).trans reverts.fades
  constructor
  · intro other
    rw [Session.entries_putStrand]
    split
    · rename_i same
      rw [← same, underway.listed]
      simp [apart]
    · exact (fades.entries other ▸ List.Sublist.refl _ : (session.entries other).Sublist
        ((reverted.leaveFootprint _).entries other)).filter _
  · refine ⟨[.acted entry.node .revert true], congrArg _ reverts.leaves.1, fun completed mem => ?_⟩
    cases List.mem_singleton.1 mem
    exact apart rfl

theorem Collapsing.retains {now : List (Entry × Bool) × Session σ}
    (collapsing : Collapsing engine id session now) (inv : session.Orderly engine)
    (live : session.strands.contains id = true) (active : now.2.isActive node = true) :
    session.Retains node now.2 := by
  induction collapsing with
  | refl => exact .of_grown (fun _ => List.Sublist.refl _) rfl
  | @tail now next first step ih =>
      have underway := Session.Underway.collapsing inv live first
      cases step with
      | @entry before rest entry now reverted reverts =>
          have fades := (Session.Fades.removeSupport now entry.node entry.support.id).trans reverts.fades
          have before := fades.active node active
          exact (ih before).trans (underway.retains reverts before)

/-- The strands that a node joins, and opens, keep their entries. -/
theorem Performs.retains {acted : NodeRef} (performs : Performs engine acted session after)
    (new : session.strands.get? ⟨session.strandCount + 1⟩ = none) : session.Retains node after := by
  cases performs with
  | started | idled | reached | assigned => exact .of_grown (fun _ => List.Sublist.refl _) rfl
  | invoked reacts =>
      obtain ⟨facts, host, rfl⟩ := reacts.exists_eq
      exact .of_grown (fun _ => List.Sublist.refl _) rfl
  | @called called origin =>
      have opened := @Session.Retains.openStrand σ
        (session.countSupport.addSupport called (session.nextSupport (.caller acted))) node new called
        origin (session.nextSupport (.caller acted))
      exact ⟨opened.entries, opened.trail⟩

theorem Session.retains_joining (session : Session σ) (id : StrandId) (ref : EdgeRef)
    (target : NodeRef) : session.Retains node (session.joining id ref target) := by
  refine .of_grown (fun other => ?_) rfl
  rw [Session.joining, Session.entries_putStrand]
  split
  · rename_i same
    rw [← same]
    exact List.sublist_append_left _ _
  · exact List.Sublist.refl _

theorem Move.retains (move : Move engine session after) (inv : session.Orderly engine)
    (active : after.isActive node = true) : session.Retains node after := by
  cases move with
  | @collapsed after id kept live collapsing =>
      rw [Session.isActive, Session.activation_tidy] at active
      exact (collapsing.retains inv live active).trans (.tidy after id)
  | merged => exact .of_grown (fun _ => List.Sublist.refl _) rfl
  | @joined acted id ref edge next idle performs =>
      have joined := inv.joining (engine.live_of_nextEdge? next) performs.serves ref
      refine ((session.retains_joining id ref edge.target).trans
        (performs.retains joined.toTracked.fresh)).leaveFootprint fun completed same => ?_
      cases same

theorem Offer.retains (offer : Offer engine grants session after) (inv : session.Orderly engine) :
    session.Retains node after := by
  cases offer with
  | counted | asked => exact .of_grown (fun _ => List.Sublist.refl _) rfl
  | @supported origin kind support count =>
      have supplied : session.Retains node (session.supply origin support count) :=
        .of_grown (fun _ => List.Sublist.refl _) rfl
      exact supplied.leaveFootprint fun completed same => nomatch same
  | @opened origin kind support count =>
      have opened := @Session.Retains.openStrand σ (session.supply origin support count) node
        inv.toTracked.fresh origin kind support
      have retains : session.Retains node
          ((session.supply origin support count).openStrand origin kind support) :=
        ⟨opened.entries, opened.trail⟩
      exact retains.leaveFootprint fun completed same => nomatch same

theorem Change.retains (change : Change engine grants session after) (inv : session.Orderly engine)
    (active : after.isActive node = true) : session.Retains node after := by
  cases change with
  | moved move => exact move.retains inv active
  | offered offer => exact offer.retains inv
  | heard => exact .of_grown (fun _ => List.Sublist.refl _) rfl

theorem Break.retains (broke : Break engine session after) (inv : session.Orderly engine)
    (active : after.isActive node = true) : session.Retains node after := by
  cases broke with
  | @collapse now left id before rest entry live collapsing refuses =>
      have idle := (Session.Underway.collapsing inv live collapsing).idle entry
        (List.mem_append_right _ (List.mem_cons_self ..))
      have before : now.isActive node = true :=
        ((Session.Fades.removeSupport now entry.node entry.support.id).trans refuses.fades).active node
          active
      have kept : session.Retains node left := by
        obtain ⟨facts, host, count, rfl⟩ := refuses.exists_eq
        have collapsed := collapsing.retains inv live before
        exact ⟨collapsed.entries, collapsed.trail⟩
      refine kept.leaveFootprint fun completed same => ?_
      cases same
      exact absurd before (Bool.eq_false_iff.1 idle)
  | @join left id ref edge next idle refuses =>
      have fades := Session.parting_fades (engine.live_of_nextEdge? next) refuses
        (.acted edge.target .perform false)
      obtain ⟨facts, host, count, rfl⟩ := refuses.exists_eq
      refine ⟨fun other => ?_, [.acted edge.target .perform false], rfl, fun completed mem => ?_⟩
      · rw [fades.entries]
      · cases List.mem_singleton.1 mem

end Retains

/-- Whether a basis is one from outside that holds. -/
def Basis.isFirm (facts : Facts) : Basis → Bool
  | .unconditional => true
  | .external _ condition => condition.holds facts
  | _ => false

theorem Basis.holds_of_isFirm {facts : Facts} {basis : Basis} (firm : basis.isFirm facts = true)
    (table : Activation) : basis.holds chart facts table = true := by
  cases basis with
  | unconditional | external => exact firm
  | edge | caller => cases firm

/-- The node holds the support, and a chain of open edges and calls leads there from a node with a
support from outside that holds. -/
def Session.Grounds (chart : Chart) (session : Session σ) : NodeRef → Support → Prop :=
  session.Bears chart fun support => support.basis.isFirm session.facts = true

/-- What was grounded at the start still is, and its entries have been left alone. -/
structure Session.Upholds (engine : Engine σ) (start session : Session σ) : Prop where
  orderly : session.Orderly engine
  accounted : session.Accounted
  facts : session.facts = start.facts
  grounds : ∀ {node support}, start.Grounds engine.chart node support →
    session.Grounds engine.chart node support
  retains : ∀ {node support}, start.Grounds engine.chart node support → start.Retains node session

namespace Session.Upholds

variable {start session after : Session σ}

theorem refl (orderly : session.Orderly engine) (accounted : session.Accounted) :
    session.Upholds engine session := ⟨orderly, accounted, rfl, id, fun _ => .refl session⟩

/-- Grounded nodes are active in between, so what concerns active nodes concerns them. -/
theorem step (inv : start.Upholds engine session) (orderly : after.Orderly engine)
    (accounted : after.Accounted) (stays : session.Stays after)
    (prunes : session.Prunes engine.chart session.facts after)
    (retains : ∀ node, after.isActive node = true → session.Retains node after) :
    start.Upholds engine after := by
  have grounds : ∀ {node support}, start.Grounds engine.chart node support →
      after.Grounds engine.chart node support := by
    intro node support grounded
    have kept := (inv.grounds grounded).keep stays.facts prunes fun node support held firm =>
      prunes node support held (Basis.holds_of_isFirm firm _)
    rwa [← stays.facts] at kept
  exact ⟨orderly, accounted, stays.facts.trans inv.facts, grounds, fun grounded =>
    (inv.retains grounded).trans (retains _ (grounds grounded).active)⟩

theorem change (inv : start.Upholds engine session) (inert : engine.chart.Inert)
    (change : Change engine .native session after) : start.Upholds engine after :=
  inv.step (change.orderly inv.orderly) (change.accounted inv.accounted) (change.stays inert)
    (change.prunes inv.orderly inv.accounted.owned) fun _ => change.retains inv.orderly

theorem broken (inv : start.Upholds engine session) (inert : engine.chart.Inert)
    (broke : Break engine session after) : start.Upholds engine after :=
  inv.step (broke.orderly inv.orderly) (broke.accounted inv.accounted) (broke.stays inert)
    (broke.prunes inv.orderly inv.accounted) fun _ => broke.retains inv.orderly

end Session.Upholds

/-- What every step keeps holds in each of the sessions that an operation goes through. -/
theorem Follows.keep {α : Type} {step : Session σ → Session σ → Prop} {motive : Session σ → Prop}
    {session : Session σ} {result : EStateM.Result Fault (Session σ) α}
    (follows : Follows engine step session result)
    (keeps : ∀ {before later}, motive before → step before later → motive later)
    (inv : motive session) :
    Follows engine (fun before later => step before later ∧ motive later) session result := by
  have along : ∀ {last}, Relation.ReflTransGen step session last →
      motive last ∧
        Relation.ReflTransGen (fun before later => step before later ∧ motive later) session last := by
    intro last steps
    induction steps with
    | refl => exact ⟨inv, .refl⟩
    | tail _ next ih => exact ⟨keeps ih.1 next, ih.2.tail ⟨next, keeps ih.1 next⟩⟩
  cases result with
  | ok a after => exact (along follows).2
  | error fault after =>
      obtain ⟨last, steps, left⟩ := follows
      exact ⟨last, (along steps).2, left⟩

/-- In a chart whose nodes write no facts, whatever a host has done with the supports of the session,
settling leaves alone what is grounded when it begins, whether it succeeds or fails: after each single
change a grounded node is active, in the end it holds the supports that it was grounded on and has all
of its entries, and its action was not reverted. -/
theorem Engine.Reaches.grounded_stays {facts : Facts} {session : Session σ}
    (inert : engine.chart.Inert) (reached : engine.Reaches Operation.Native facts session)
    (changed : List String) :
    Follows engine
        (fun before later => Change engine .native before later ∧
          ∀ node support, session.Grounds engine.chart node support → later.isActive node = true)
        session (engine.settle changed session) ∧
      ∀ node support, session.Grounds engine.chart node support →
        ((Operation.settle changed).after engine session).isActive node = true ∧
          support ∈ (((Operation.settle changed).after engine session).activation.supports node).items ∧
          session.Retains node ((Operation.settle changed).after engine session) := by
  have source : engine.SourceGrants (Grants.native : Grants σ).mints := engine.sourceGrants_all
  have follows := engine.settle_follows source changed session
  have start := Session.Upholds.refl reached.orderly reached.accounted
  have upheld := follows.keep (fun inv change => inv.change inert change) start
  refine ⟨upheld.mono fun step => ⟨step.1, fun node support grounded =>
    (step.2.grounds grounded).active⟩, ?_⟩
  have final : session.Upholds engine ((Operation.settle changed).after engine session) := by
    have whole : ∀ {last}, Relation.ReflTransGen (Change engine .native) session last →
        session.Upholds engine last := fun steps =>
      Changes.keep steps (fun inv change => inv.change inert change) start
    have read : (Operation.settle changed).run engine session =
        (engine.settle changed >>= fun _ => pure ()) session := rfl
    unfold Operation.after
    rw [read]
    cases ran : engine.settle changed session with
    | ok report after =>
        rw [SessionM.bind_of_ok ran]
        rw [ran] at follows
        exact whole follows
    | error fault after =>
        rw [SessionM.bind_of_error ran]
        rw [ran] at follows
        obtain ⟨last, steps, rfl | broke⟩ := follows
        · exact whole steps
        · exact (whole steps).broken inert broke
  exact fun node support grounded =>
    ⟨(final.grounds grounded).active, (final.grounds grounded).held, final.retains grounded⟩

/-- Two composed nodes, one behind the other, call one start node. -/
def sharedDecl : ChartDecl :=
  ⟨[(((((FlowDecl.named "Main").addStart "S").addComposed "C" "Sub" "T").addComposed "D" "Sub" "T").addEdge
      "S" "C" none).addEdge "C" "D" (some (.known "q")),
    (((FlowDecl.named "Sub").addStart "T").addAction "A" .noop).addEdge "T" "A" none],
    [⟨"go", "Main", "S", .known "p"⟩]⟩

def sharedEngine : Engine Unit := .standard sharedDecl.chart

/-- Both nodes have called, and the second has lost the fact that it is there for. -/
def sharedSession : Session Unit :=
  Operation.afterAll sharedEngine
    [.rewrite (Facts.putAll ∅ [("p", some .unknown), ("q", some .unknown)]) (), .settle ["p"],
      .rewrite (Facts.put ∅ "p" (some .unknown)) ()]
    (sharedEngine.opened ∅ ())

theorem inert_shared : sharedEngine.chart.Inert := by
  unfold Chart.Inert
  decide +kernel

theorem reaches_shared : sharedEngine.Reaches Operation.Native ∅ sharedSession := by
  have opened : sharedEngine.Reaches Operation.Native ∅ (sharedEngine.opened ∅ ()) :=
    .opened (by decide +kernel)
  exact opened.afterAll ⟨trivial, trivial, trivial, trivial⟩

/-- The action behind the shared start is grounded on the first of the calls. -/
theorem exists_grounds_shared : ∃ support, sharedSession.Grounds sharedEngine.chart ⟨4⟩ support := by
  have outside : (sharedSession.activation.supports ⟨0⟩).items.any
      (fun support => support.basis.isFirm sharedSession.facts) = true := by decide +kernel
  have along : sharedSession.activation.holdsEdge ⟨1⟩ ⟨0⟩ = true := by decide +kernel
  have called : (sharedSession.activation.supports ⟨3⟩).items.any
      (fun support => match support.basis with
        | .caller composed => composed == ⟨1⟩
        | _ => false) = true := by decide +kernel
  have onward : sharedSession.activation.holdsEdge ⟨4⟩ ⟨2⟩ = true := by decide +kernel
  obtain ⟨first, held, firm⟩ := List.any_eq_true.1 outside
  obtain ⟨second, mem, edge⟩ := Activation.holdsEdge_iff.1 along
  obtain ⟨third, there, calls⟩ := List.any_eq_true.1 called
  obtain ⟨fourth, last, final⟩ := Activation.holdsEdge_iff.1 onward
  have caller : third.basis = .caller ⟨1⟩ := by
    split at calls
    · rename_i composed basis
      rw [basis, eq_of_beq calls]
    · cases calls
  have known : sharedEngine.chart.edge? ⟨0⟩ = some ⟨⟨0⟩, ⟨1⟩, none⟩ := by rfl
  have leaves : sharedEngine.chart.edge? ⟨2⟩ = some ⟨⟨3⟩, ⟨4⟩, none⟩ := by rfl
  have ground : sharedSession.Grounds sharedEngine.chart ⟨0⟩ first := .ground held firm
  have composed : sharedSession.Grounds sharedEngine.chart ⟨1⟩ second :=
    .edge ground mem (Support.edge?_eq_some_iff.1 edge) known rfl (by decide +kernel)
  have start : sharedSession.Grounds sharedEngine.chart ⟨3⟩ third := .caller composed there caller
  exact ⟨fourth, .edge start last (Support.edge?_eq_some_iff.1 final) leaves rfl (by decide +kernel)⟩

theorem grounded_stays_shared : ∃ support,
    ((Operation.settle ["q"]).after sharedEngine sharedSession).isActive ⟨2⟩ = false ∧
      ((Operation.settle ["q"]).after sharedEngine sharedSession).isActive ⟨4⟩ = true ∧
      support ∈ (((Operation.settle ["q"]).after sharedEngine sharedSession).activation.supports
        ⟨4⟩).items ∧
      sharedSession.Retains ⟨4⟩ ((Operation.settle ["q"]).after sharedEngine sharedSession) := by
  obtain ⟨support, grounded⟩ := exists_grounds_shared
  exact ⟨support, by decide +kernel,
    (Engine.Reaches.grounded_stays inert_shared reaches_shared ["q"]).2 ⟨4⟩ support grounded⟩

end Flowchart
