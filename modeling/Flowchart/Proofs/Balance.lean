import Flowchart.Proofs.Single

/-!
The account of what nodes did and undid. Whatever the host does, and wherever an operation fails, a
node has as many entries as it was performed and not reverted since; so what could not be performed
has no entry, what could not be reverted has kept its own, and nothing is reverted that was not
performed before.
-/
namespace Flowchart

variable {σ : Type} {engine : Engine σ} {grants : Grants σ} {node : NodeRef}

/-- How often a footprint tells that the node has completed the deed. -/
def Footprint.tells (node : NodeRef) (deed : Deed) (footprint : Footprint) : Nat :=
  (footprint.deed? node).toList.count deed

theorem Footprint.count_deeds_cons (footprint : Footprint) (trail : List Footprint) (node : NodeRef)
    (deed : Deed) :
    (Footprint.deeds node (footprint :: trail)).count deed =
      (Footprint.deeds node trail).count deed + footprint.tells node deed := by
  rw [deeds_cons, List.count_append, tells]

theorem Footprint.tells_acted (acted : NodeRef) (done deed : Deed) :
    (Footprint.acted acted done true).tells node deed =
      if acted = node ∧ done = deed then 1 else 0 := by
  by_cases same : acted = node
  · rw [tells, deed?, if_pos same, Option.toList_some, List.count_singleton]
    simp [same]
  · rw [tells, deed?, if_neg same, if_neg fun both => same both.1]
    rfl

theorem Footprint.tells_failed (acted : NodeRef) (done deed : Deed) :
    (Footprint.acted acted done false).tells node deed = 0 := rfl

/-- Each time the node was to be reverted it had been performed more often than reverted. -/
def Footprint.Earned (node : NodeRef) (trail : List Footprint) : Prop :=
  ∀ later completed earlier, trail = later ++ .acted node .revert completed :: earlier →
    (Footprint.deeds node earlier).count .revert < (Footprint.deeds node earlier).count .perform

theorem Footprint.Earned.cons {footprint : Footprint} {trail : List Footprint}
    (earned : Footprint.Earned node trail)
    (here : ∀ completed, footprint = .acted node .revert completed →
      (Footprint.deeds node trail).count .revert < (Footprint.deeds node trail).count .perform) :
    Footprint.Earned node (footprint :: trail) := by
  intro later completed earlier split
  cases later with
  | nil =>
      obtain ⟨told, rfl⟩ := List.cons.inj split
      exact here completed told
  | cons first later => exact earned later completed earlier (List.cons.inj split).2

/-- The node has an entry for each time it was performed and not reverted, and so many more for which
it has not acted yet. -/
structure Session.Balanced (node : NodeRef) (ahead : Nat) (session : Session σ) : Prop where
  counted : (session.deeds node).count .perform + ahead =
    (session.deeds node).count .revert + session.nodes.count node
  earned : Footprint.Earned node session.trail

namespace Session.Balanced

variable {session after : Session σ} {ahead : Nat}

theorem congr (balanced : session.Balanced node ahead) (trail : after.trail = session.trail)
    (count : after.nodes.count node = session.nodes.count node) : after.Balanced node ahead where
  counted := by
    rw [Session.deeds, trail, count]
    exact balanced.counted
  earned := trail ▸ balanced.earned

/-- The account stays in balance when a footprint tells of what happens to the entries, and tells of a
reversal only where the node has an entry that it has acted for. -/
theorem tell {still : Nat} (balanced : session.Balanced node ahead) {footprint : Footprint}
    (trail : after.trail = footprint :: session.trail)
    (count : after.nodes.count node + footprint.tells node .revert + ahead =
      session.nodes.count node + footprint.tells node .perform + still)
    (held : ∀ completed, footprint = .acted node .revert completed →
      ahead < session.nodes.count node) : after.Balanced node still where
  counted := by
    have counted := balanced.counted
    rw [Session.deeds, trail, Footprint.count_deeds_cons, Footprint.count_deeds_cons]
    simp only [Session.deeds] at counted
    omega
  earned := by
    rw [trail]
    refine balanced.earned.cons fun completed told => ?_
    have counted := balanced.counted
    have entered := held completed told
    simp only [Session.deeds] at counted
    omega

/-- Whatever tells of no completed deed leaves the account as it is. -/
theorem leaveStarted (balanced : session.Balanced node ahead) (origin : NodeRef) :
    (session.leaveFootprint (.started origin)).Balanced node ahead := by
  have trail : (session.leaveFootprint (.started origin)).trail = .started origin :: session.trail := rfl
  exact balanced.tell trail rfl fun _ told => nomatch told

theorem openStrand (balanced : session.Balanced node ahead)
    (new : session.strands.get? ⟨session.strandCount + 1⟩ = none) (origin : NodeRef) (kind : NodeKind)
    (support : Support) : (session.openStrand origin kind support).Balanced node ahead := by
  have trail : (session.openStrand origin kind support).trail =
      .acted origin .perform true :: session.trail := by
    obtain ⟨snapshots, opened⟩ := session.openStrand_eq origin kind support
    rw [opened]
  refine balanced.tell trail ?_ fun _ told => nomatch told
  rw [nodes_openStrand new, List.count_append, List.count_singleton, Footprint.tells_acted,
    Footprint.tells_acted]
  simp

theorem perform {acted : NodeRef} (balanced : session.Balanced node ahead)
    (new : session.strands.get? ⟨session.strandCount + 1⟩ = none)
    (performs : Performs engine acted session after) : after.Balanced node ahead := by
  cases performs with
  | started | idled => exact balanced
  | reached | assigned => exact balanced.congr rfl rfl
  | invoked reacts =>
      obtain ⟨facts, host, rfl⟩ := reacts.exists_eq
      exact balanced.congr rfl rfl
  | @called called origin kind known fit =>
      have given : (session.countSupport.addSupport called
          (session.nextSupport (.caller acted))).Balanced node ahead := balanced.congr rfl rfl
      exact (given.openStrand new called origin _).congr rfl rfl

end Session.Balanced

section Collapse

variable {session : Session σ} {id : StrandId}

theorem Session.Underway.count_pos {before rest : List (Entry × Bool)} {entry : Entry}
    (underway : session.Underway engine id (before ++ (entry, false) :: rest)) :
    0 < session.nodes.count entry.node := by
  obtain ⟨strand, found⟩ :=
    Option.isSome_iff_exists.1 ((Roster.contains_eq_isSome _ _).symm.trans underway.live)
  obtain ⟨listed, rfl⟩ := Roster.get?_eq_some found
  have entries := (Session.entries_eq_iff_of_mem listed).symm.trans underway.listed
  refine List.count_pos_iff.2 (Session.mem_nodes.2 ⟨strand, listed, ?_⟩)
  rw [Strand.nodes, entries]
  exact List.mem_map_of_mem (List.mem_map_of_mem (f := Prod.fst)
    (List.mem_append_right before (List.mem_cons_self ..)))

/-- An entry leaves its strand with the footprint of its reversal. -/
theorem Session.Balanced.undo {before rest : List (Entry × Bool)} {entry : Entry}
    {reverted : Session σ} (balanced : session.Balanced node 0)
    (underway : session.Underway engine id (before ++ (entry, false) :: rest))
    (reverts : Reverts engine entry.node (session.removeSupport entry.node entry.support.id)
      reverted) :
    ((reverted.leaveFootprint (.acted entry.node .revert true)).putStrand
      ⟨id, (before ++ rest).map Prod.fst⟩).Balanced node 0 := by
  have trail : ((reverted.leaveFootprint (.acted entry.node .revert true)).putStrand
      ⟨id, (before ++ rest).map Prod.fst⟩).trail =
        .acted entry.node .revert true :: session.trail :=
    congrArg (List.cons _) reverts.leaves.1
  refine balanced.tell trail ?_ ?_
  · have counted := underway.count_nodes_undo reverts node
    rw [Footprint.tells_acted, Footprint.tells_acted]
    simpa using counted
  · intro completed told
    cases told
    exact underway.count_pos

theorem Session.Balanced.collapsing (balanced : session.Balanced node 0)
    (inv : session.Orderly engine) (live : session.strands.contains id = true)
    {now : List (Entry × Bool) × Session σ} (collapsing : Collapsing engine id session now) :
    now.2.Balanced node 0 := by
  induction collapsing with
  | refl => exact balanced.congr rfl rfl
  | tail first step ih =>
      have underway := Session.Underway.collapsing inv live first
      cases step with
      | entry reverts => exact ih.undo underway reverts

end Collapse

section Changes

variable {session after : Session σ}

theorem Move.balanced (move : Move engine session after) (inv : session.Orderly engine)
    (balanced : session.Balanced node 0) : after.Balanced node 0 := by
  cases move with
  | @collapsed after id kept live collapsing =>
      have collapsed := balanced.collapsing inv live collapsing
      refine collapsed.congr ?_ (Session.Alike.tidy after id node).count
      unfold Session.tidy
      split <;> rfl
  | merged => exact balanced.congr rfl rfl
  | @joined acted id ref edge next idle performs =>
      have new := (inv.joining (engine.live_of_nextEdge? next) performs.serves ref).toTracked.fresh
      have counted := session.count_nodes_joining id ref edge.target node
      -- The target has its entry before it acts.
      have joining : (session.joining id ref edge.target).Balanced node
          (if edge.target = node then 1 else 0) := by
        refine ⟨?_, balanced.earned⟩
        show (session.deeds node).count .perform + _ = (session.deeds node).count .revert + _
        rw [counted, ← Nat.add_assoc, ← balanced.counted, Nat.add_zero]
      refine (joining.perform new performs).tell rfl ?_ fun _ told => nomatch told
      rw [Footprint.tells_acted, Footprint.tells_acted]
      simp [Session.leaveFootprint, Session.nodes]

theorem Offer.balanced (offer : Offer engine grants session after) (inv : session.Tracked engine)
    (balanced : session.Balanced node 0) : after.Balanced node 0 := by
  cases offer with
  | counted | asked => exact balanced.congr rfl rfl
  | @supported origin kind support count =>
      have given : (session.supply origin support count).Balanced node 0 := balanced.congr rfl rfl
      exact given.leaveStarted origin
  | @opened origin kind support count =>
      have given : (session.supply origin support count).Balanced node 0 := balanced.congr rfl rfl
      exact (given.openStrand inv.fresh origin kind support).leaveStarted origin

theorem Change.balanced (change : Change engine grants session after) (inv : session.Orderly engine)
    (balanced : session.Balanced node 0) : after.Balanced node 0 := by
  cases change with
  | moved move => exact move.balanced inv balanced
  | offered offer => exact offer.balanced inv.toTracked balanced
  | heard => exact balanced.congr rfl rfl

/-- Where an action is refused the entries are as they were, and the account with them. -/
theorem Break.balanced (broke : Break engine session after) (inv : session.Orderly engine)
    (balanced : session.Balanced node 0) : after.Balanced node 0 := by
  cases broke with
  | @collapse now left id before rest entry live collapsing refuses =>
      have underway := Session.Underway.collapsing inv live collapsing
      obtain ⟨facts, host, count, rfl⟩ := refuses.exists_eq
      refine (balanced.collapsing inv live collapsing).tell rfl rfl fun completed told => ?_
      cases told
      exact underway.count_pos
  | @join left id ref edge next idle refuses =>
      have fades := Session.parting_fades (engine.live_of_nextEdge? next) refuses
        (.acted edge.target .perform false)
      obtain ⟨facts, host, count, rfl⟩ := refuses.exists_eq
      refine balanced.tell rfl ?_ fun _ told => nomatch told
      rw [fades.nodes, Footprint.tells_failed, Footprint.tells_failed]

end Changes

/-- Every session that the engine reaches is in balance, whatever the host does with it. -/
theorem Engine.Reaches.balanced {permits : Session σ → Operation σ → Prop} {facts : Facts}
    {session : Session σ} (reached : engine.Reaches permits facts session) (node : NodeRef) :
    session.Balanced node 0 := by
  refine (Engine.Reaches.invariant_all
    (motive := fun session => session.Orderly engine ∧ session.Balanced node 0)
    ?_ ?_ ?_ ?_ ?_ reached).2
  · exact fun host => ⟨.fresh engine facts host, rfl, fun _ _ _ split => by simp [Session.fresh] at split⟩
  · exact fun inv change => ⟨change.orderly inv.1, change.balanced inv.1 inv.2⟩
  · exact fun _ _ inv broke => ⟨broke.orderly inv.1, broke.balanced inv.1 inv.2⟩
  · exact fun _ inv => ⟨inv.1.fade (.removeSupport _ _ _), inv.2.congr rfl rfl⟩
  · exact fun _ inv => ⟨inv.1.fade ⟨rfl, rfl, fun _ _ mem => mem⟩, inv.2.congr rfl rfl⟩

/-- Whatever the host does and whatever fails: a node has been performed as often as it was reverted
and has entries, it was never to be reverted without a performance left to revert, and where its
reversal has just failed it still has an entry. -/
theorem Engine.Reaches.deeds_balance {facts : Facts} {session : Session σ}
    (reached : engine.Reaches (fun _ _ => True) facts session) (node : NodeRef) :
    (session.deeds node).count .perform =
        (session.deeds node).count .revert + session.nodes.count node ∧
      (∀ later completed earlier, session.trail = later ++ .acted node .revert completed :: earlier →
        (Footprint.deeds node earlier).count .revert < (Footprint.deeds node earlier).count .perform) ∧
      ∀ earlier, session.trail = .acted node .revert false :: earlier → node ∈ session.nodes := by
  have balanced := reached.balanced node
  refine ⟨balanced.counted, balanced.earned, fun earlier last => ?_⟩
  have performed := balanced.earned [] false earlier last
  have counted := balanced.counted
  rw [Session.deeds, last, Footprint.count_deeds_cons, Footprint.count_deeds_cons,
    Footprint.tells_failed, Footprint.tells_failed] at counted
  exact List.count_pos_iff.1 (by omega)

/-- The lamp can be lit but not put out. -/
def jammedHandler : Handler Unit :=
  ⟨fun _ facts _ => ⟨facts, (), none⟩, fun _ facts _ => ⟨facts, (), some (.failed "jammed")⟩⟩

def jammedEngine : Engine Unit :=
  ⟨lampDecl.chart, Listing.set ∅ "light" jammedHandler, .triggers, .standard⟩

/-- The lamp was lit, and twice it could not be put out. -/
def jammedSession : Session Unit :=
  Operation.afterAll jammedEngine
    [.rewrite (Facts.put ∅ "q" (some .unknown)) (), .settle ["q"], .rewrite ∅ (), .settle ["q"],
      .settle []]
    (jammedEngine.opened ∅ ())

theorem deeds_balance_jammed :
    jammedSession.nodes.count ⟨1⟩ = 1 ∧ NodeRef.mk 1 ∈ jammedSession.nodes := by
  have opened : jammedEngine.Reaches (fun _ _ => True) ∅ (jammedEngine.opened ∅ ()) :=
    .opened (by decide +kernel)
  have reached : jammedEngine.Reaches (fun _ _ => True) ∅ jammedSession :=
    opened.afterAll ⟨trivial, trivial, trivial, trivial, trivial, trivial⟩
  have deeds : jammedSession.deeds ⟨1⟩ = [.perform] := by decide +kernel
  have jammed : jammedSession.trail.head? = some (.acted ⟨1⟩ .revert false) := by decide +kernel
  obtain ⟨earlier, last⟩ := List.head?_eq_some_iff.1 jammed
  obtain ⟨counted, -, kept⟩ := Engine.Reaches.deeds_balance reached ⟨1⟩
  rw [deeds] at counted
  refine ⟨?_, kept earlier last⟩
  have performed : [Deed.perform].count .perform = 1 := rfl
  have reverted : [Deed.perform].count .revert = 0 := rfl
  omega

end Flowchart
