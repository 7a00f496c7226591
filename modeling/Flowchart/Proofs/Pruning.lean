import Flowchart.Proofs.Accounts
import Flowchart.Proofs.Triggers

/-!
What changes take away. Where no node writes a fact, what is open stays open, and no change takes away a
support that holds after it: a sweep keeps what holds, and an entry that is undone takes along the
support of its own call alone. So whatever rests, over open edges and calls, on supports that stay is
there to stay.
-/
namespace Flowchart

variable {σ : Type} {engine : Engine σ} {grants : Grants σ} {chart : Chart}

/-- The node neither assigns a fact nor invokes a handler. -/
def NodeKind.isInert : NodeKind → Bool
  | .action (.assign _ _) => false
  | .action (.invoke _) => false
  | _ => true

/-- No node of the chart writes a fact. -/
def Chart.Inert (chart : Chart) : Prop := ∀ node ∈ chart.nodes, node.kind.isInert = true

theorem Chart.Inert.of_kind (inert : chart.Inert) {node : NodeRef} {kind : NodeKind}
    (known : chart.kind? node = some kind) : kind.isInert = true := by
  obtain ⟨record, listed, rfl⟩ := Option.map_eq_some_iff.1 known
  exact inert record (List.mem_of_getElem? listed)

/-- The facts are the same, and none has been touched. -/
structure Session.Stays (session after : Session σ) : Prop where
  facts : after.facts = session.facts
  touched : after.touched ⊆ session.touched

section Stays

variable {session between after : Session σ} {node : NodeRef} {id : StrandId}

theorem Session.Stays.refl (session : Session σ) : session.Stays session := ⟨rfl, fun _ mem => mem⟩

theorem Session.Stays.trans (first : session.Stays between) (second : between.Stays after) :
    session.Stays after :=
  ⟨second.facts.trans first.facts, fun _ mem => first.touched (second.touched mem)⟩

theorem Session.stays_openStrand (session : Session σ) (node : NodeRef) (kind : NodeKind)
    (support : Support) : session.Stays (session.openStrand node kind support) := by
  obtain ⟨snapshots, opened⟩ := session.openStrand_eq node kind support
  rw [opened]
  exact ⟨rfl, fun _ mem => mem⟩

theorem Reacts.not_inert {deed : Deed} {failure : Option ActionFailure}
    (reacts : Reacts engine node deed failure session after) : ¬engine.chart.Inert := by
  intro inert
  obtain ⟨name, kind⟩ := reacts.exists_kind
  cases inert.of_kind kind

theorem Performs.stays (performs : Performs engine node session after) (inert : engine.chart.Inert) :
    session.Stays after := by
  cases performs with
  | started | idled | reached => exact ⟨rfl, fun _ mem => mem⟩
  | assigned kind => cases inert.of_kind kind
  | invoked reacts => exact absurd inert reacts.not_inert
  | @called called origin =>
      have opened := Session.stays_openStrand
        (session.countSupport.addSupport called (session.nextSupport (.caller node))) called origin
        (session.nextSupport (.caller node))
      exact ⟨opened.facts, opened.touched⟩

theorem Reverts.stays (reverts : Reverts engine node session after) (inert : engine.chart.Inert) :
    session.Stays after := by
  cases reverts with
  | started | idled | reached => exact ⟨rfl, fun _ mem => mem⟩
  | assigned kind => cases inert.of_kind kind
  | invoked reacts => exact absurd inert reacts.not_inert
  | called =>
      unfold Session.endCall
      split <;> exact ⟨rfl, fun _ mem => mem⟩

theorem Refuses.stays {deed : Deed} (refuses : Refuses engine node deed session after)
    (inert : engine.chart.Inert) : session.Stays after := by
  cases refuses with
  | unserved | uncalled => exact ⟨rfl, fun _ mem => mem⟩
  | failed reacts => exact absurd inert reacts.not_inert

theorem Collapsing.stays {now : List (Entry × Bool) × Session σ}
    (collapsing : Collapsing engine id session now) (inert : engine.chart.Inert) :
    session.Stays now.2 := by
  induction collapsing with
  | refl => exact ⟨rfl, fun _ mem => mem⟩
  | tail _ step ih =>
      cases step with
      | entry reverts =>
          have left := reverts.stays inert
          exact ih.trans ⟨left.facts, left.touched⟩

theorem Session.stays_tidy (session : Session σ) (id : StrandId) : session.Stays (session.tidy id) := by
  unfold Session.tidy
  split <;> exact ⟨rfl, fun _ mem => mem⟩

theorem Move.stays (move : Move engine session after) (inert : engine.chart.Inert) :
    session.Stays after := by
  cases move with
  | collapsed live collapsing => exact (collapsing.stays inert).trans (Session.stays_tidy _ _)
  | merged => exact ⟨rfl, fun _ mem => mem⟩
  | joined next idle performs =>
      have acted := performs.stays inert
      exact ⟨acted.facts, acted.touched⟩

theorem Change.stays (change : Change engine grants session after) (inert : engine.chart.Inert) :
    session.Stays after := by
  cases change with
  | moved move => exact move.stays inert
  | offered offer => exact ⟨offer.leaves.1, fun _ mem => offer.leaves.2 ▸ mem⟩
  | heard => exact ⟨rfl, fun _ mem => nomatch mem⟩

theorem Break.stays (broke : Break engine session after) (inert : engine.chart.Inert) :
    session.Stays after := by
  cases broke with
  | collapse live collapsing refuses =>
      have left := refuses.stays inert
      exact (collapsing.stays inert).trans ⟨left.facts, left.touched⟩
  | join next idle refuses =>
      have left := refuses.stays inert
      exact ⟨left.facts, left.touched⟩

end Stays

/-- A support whose basis holds afterwards, as the facts are, has not been taken away. -/
def Session.Prunes (chart : Chart) (facts : Facts) (session after : Session σ) : Prop :=
  ∀ node, ∀ support ∈ (session.activation.supports node).items,
    support.basis.holds chart facts after.activation = true →
      support ∈ (after.activation.supports node).items

section Prunes

variable {session after : Session σ} {node : NodeRef} {id : StrandId}

/-- Whoever keeps all supports prunes none that holds. -/
theorem Session.Prunes.of_above {facts : Facts} (above : session.activation.Below after.activation) :
    session.Prunes chart facts after := fun node support mem _ => above node support mem

/-- Of the supports that hold, an entry that is undone takes none along: its node has none left, and the
support of its call, if it made one, rests on this node. -/
theorem Reverts.prunes (reverts : Reverts engine node session after) (owned : session.Owned)
    (idle : session.isActive node = false) (facts : Facts) : session.Prunes chart facts after := by
  intro other support mem holds
  rcases reverts.eq_endCall_or with ⟨called, -, rfl⟩ | ⟨-, -, activation⟩
  · refine Session.mem_endCall.2 ⟨mem, fun hit => ?_⟩
    -- Taken back is the support of the node's own call, which cannot hold once the node is inactive.
    have basis := owned node (other, support.id) hit support mem rfl
    rw [basis] at holds
    exact absurd ((Session.Fades.endCall session node).active node holds) (Bool.eq_false_iff.1 idle)
  · rwa [activation]

theorem Collapsing.prunes {now : List (Entry × Bool) × Session σ}
    (collapsing : Collapsing engine id session now) (inv : session.Orderly engine)
    (owned : session.Owned) (live : session.strands.contains id = true) :
    session.Prunes engine.chart session.facts now.2 := by
  induction collapsing with
  | refl => exact fun node support mem holds => mem_sweepEntries_of_holds mem holds
  | @tail now next first step ih =>
      have underway := Session.Underway.collapsing inv live first
      have owning := owned.below (fun _ _ => Collapsing.recorded first) (Collapsing.below first)
      cases step with
      | @entry before rest entry now reverted reverts =>
          have idle := underway.idle entry (List.mem_append_right _ (List.mem_cons_self ..))
          have same := Session.mem_removeSupport_of_idle idle entry.support.id
          have removed : (now.removeSupport entry.node entry.support.id).Owned :=
            owning.below (fun _ _ listed => listed) (Session.Fades.removeSupport now _ _).below
          have still : (now.removeSupport entry.node entry.support.id).isActive entry.node = false :=
            (Activation.isActive_congr (same entry.node)).trans idle
          have fades := (Session.Fades.removeSupport now entry.node entry.support.id).trans reverts.fades
          intro node support mem holds
          -- Undoing makes nothing active, so what holds after this step held before it.
          have held := ih node support mem (Basis.holds_mono fades.active holds)
          exact reverts.prunes removed still session.facts node support ((same node support).2 held) holds

theorem Move.prunes (move : Move engine session after) (inv : session.Orderly engine)
    (owned : session.Owned) : session.Prunes engine.chart session.facts after := by
  cases move with
  | @collapsed after id kept live collapsing =>
      intro node support mem holds
      rw [Session.activation_tidy] at holds ⊢
      exact collapsing.prunes inv owned live node support mem holds
  | merged => exact .of_above fun node support mem => Activation.mem_add.2 (.inl mem)
  | @joined acted id ref edge next idle performs =>
      exact .of_above fun node support mem =>
        performs.above node support (Activation.mem_add.2 (.inl mem))

theorem Offer.above (offer : Offer engine grants session after) :
    session.activation.Below after.activation := by
  intro node support mem
  cases offer with
  | counted | asked => exact mem
  | supported => exact Activation.mem_add.2 (.inl mem)
  | @opened origin kind given count =>
      have same := Session.activation_openStrand (session.supply origin given count) origin kind given
      change support ∈ (((session.supply origin given count).openStrand origin kind
        given).activation.supports node).items
      rw [same]
      exact Activation.mem_add.2 (.inl mem)

theorem Change.prunes (change : Change engine grants session after) (inv : session.Orderly engine)
    (owned : session.Owned) : session.Prunes engine.chart session.facts after := by
  cases change with
  | moved move => exact move.prunes inv owned
  | offered offer => exact .of_above offer.above
  | heard => exact .of_above fun _ _ mem => mem

theorem Break.prunes (broke : Break engine session after) (inv : session.Orderly engine)
    (accounted : session.Accounted) : session.Prunes engine.chart session.facts after := by
  cases broke with
  | @collapse now after id before rest entry live collapsing refuses =>
      have idle := (Session.Underway.collapsing inv live collapsing).idle entry
        (List.mem_append_right _ (List.mem_cons_self ..))
      have same := Session.mem_removeSupport_of_idle idle entry.support.id
      obtain ⟨facts, host, count, rfl⟩ := refuses.exists_eq
      intro node support mem holds
      have fades := Session.Fades.removeSupport now entry.node entry.support.id
      have held := collapsing.prunes inv accounted.owned live node support mem
        (Basis.holds_mono fades.active holds)
      exact (same node support).2 held
  | @join after id ref edge next idle refuses =>
      obtain ⟨facts, host, count, rfl⟩ := refuses.exists_eq
      refine .of_above fun node support mem => ?_
      refine Activation.mem_remove.2 ⟨Activation.mem_add.2 (.inl mem), ?_⟩
      rintro ⟨-, same⟩
      exact accounted.numbered.nextSupport_id_ne (.edge ref) mem same

end Prunes

/-- The node holds the support, and the support stands: it is firm itself, or it came over an open edge
or by a call from a node that holds such a support. -/
inductive Session.Bears (chart : Chart) (firm : Support → Prop) (session : Session σ) :
    NodeRef → Support → Prop
  | ground {node : NodeRef} {support : Support}
      (held : support ∈ (session.activation.supports node).items) (stands : firm support) :
      Bears chart firm session node support
  | edge {source node : NodeRef} {under support : Support} {ref : EdgeRef} {edge : Edge}
      (bears : Bears chart firm session source under)
      (held : support ∈ (session.activation.supports node).items) (basis : support.basis = .edge ref)
      (known : chart.edge? ref = some edge) (leaves : edge.source = source)
      (opened : chart.opens session.facts ref = true) : Bears chart firm session node support
  | caller {composed node : NodeRef} {under support : Support}
      (bears : Bears chart firm session composed under)
      (held : support ∈ (session.activation.supports node).items)
      (basis : support.basis = .caller composed) :
      Bears chart firm session node support

namespace Session.Bears

variable {firm : Support → Prop} {session after : Session σ} {node : NodeRef} {support : Support}

theorem held (bears : session.Bears chart firm node support) :
    support ∈ (session.activation.supports node).items := by
  cases bears <;> assumption

theorem active (bears : session.Bears chart firm node support) : session.isActive node = true :=
  Activation.isActive_iff.2 ⟨support, bears.held⟩

/-- What stands goes on standing when no firm support is taken away. -/
theorem keep (bears : session.Bears chart firm node support) (facts : after.facts = session.facts)
    (prunes : session.Prunes chart session.facts after)
    (kept : ∀ node, ∀ support ∈ (session.activation.supports node).items, firm support →
      support ∈ (after.activation.supports node).items) :
    after.Bears chart firm node support := by
  induction bears with
  | ground held stands => exact .ground (kept _ _ held stands) stands
  | @edge source node under support ref edge _ held basis known leaves opened ih =>
      have holds : support.basis.holds chart session.facts after.activation = true := by
        rw [Chart.opens, known, Option.any_some] at opened
        rw [basis, Basis.holds, known, Option.any_some, opened, Bool.and_true, leaves]
        exact ih.active
      exact .edge ih (prunes node support held holds) basis known leaves (facts ▸ opened)
  | @caller composed node under support _ held basis ih =>
      have holds : support.basis.holds chart session.facts after.activation = true := by
        rw [basis]
        exact ih.active
      exact .caller ih (prunes node support held holds) basis

end Session.Bears

end Flowchart
