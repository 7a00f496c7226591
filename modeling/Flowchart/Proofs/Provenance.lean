import Flowchart.Proofs.Orderly

/-!
Where supports come from. A support is given from outside, or it is minted for an edge that leads to
its node or for a call of its node; a support that is minted has a number higher than all that were
given out before. Nothing else ever brings a support into the table.
-/
namespace Flowchart

variable {σ : Type} {engine : Engine σ} {grants : Grants σ} {chart : Chart}

/-- A support from outside. -/
def Basis.Outside : Basis → Prop
  | .unconditional => True
  | .external _ _ => True
  | _ => False

/-- The operation supports nodes from outside alone. -/
def Operation.FromOutside (operation : Operation σ) : Prop := operation.granted fun _ basis => basis.Outside

/-- Edges support their target, composed nodes the start node that they call. -/
def Basis.Fits (chart : Chart) (node : NodeRef) : Basis → Prop
  | .edge ref => ∃ edge, chart.edge? ref = some edge ∧ edge.target = node
  | .caller composed => chart.kind? composed = some (.composed node)
  | _ => True

theorem Basis.Outside.fits {basis : Basis} (outside : basis.Outside) (node : NodeRef) :
    basis.Fits chart node := by
  cases basis with
  | unconditional | external => trivial
  | edge | caller => exact outside.elim

/-- The support was minted later than in the session, as one of so many in all, on a basis of the kind
given. -/
structure Session.Mints (session : Session σ) (count : Nat) (kind : Basis → Prop) (support : Support) :
    Prop where
  new : session.supportCount < support.id.number
  counted : support.id.number ≤ count
  basis : kind support.basis

/-- A basis that is not from outside, for supports of the node. -/
def Basis.Inward (chart : Chart) (node : NodeRef) (basis : Basis) : Prop :=
  ¬basis.Outside ∧ basis.Fits chart node

section Below

variable {session after : Session σ} {node : NodeRef} {id : StrandId}

theorem Collapsing.below_swept {now : List (Entry × Bool) × Session σ}
    (collapsing : Collapsing engine id session now) :
    now.2.activation.Below (session.swept engine.chart id).activation := by
  induction collapsing with
  | refl => exact fun _ _ mem => mem
  | tail _ step ih =>
      cases step with
      | entry reverts =>
          have fades := (Session.Fades.removeSupport _ _ _).trans reverts.fades
          exact fun node support mem => ih node support (fades.below node support mem)

theorem Collapsing.below {now : List (Entry × Bool) × Session σ}
    (collapsing : Collapsing engine id session now) :
    now.2.activation.Below session.activation :=
  fun node support mem =>
    (Session.Fades.swept session engine.chart id).below node support
      (collapsing.below_swept node support mem)

theorem Session.activation_tidy (session : Session σ) (id : StrandId) :
    (session.tidy id).activation = session.activation := by
  unfold Session.tidy
  split <;> rfl

theorem Break.below (broke : Break engine session after) :
    after.activation.Below session.activation := by
  cases broke with
  | collapse live collapsing refuses =>
      have fades := (Session.Fades.removeSupport _ _ _).trans refuses.fades
      exact fun node support mem => collapsing.below node support (fades.below node support mem)
  | join next idle refuses =>
      exact (Session.parting_fades (engine.live_of_nextEdge? next) refuses _).below

end Below

section Counts

variable {session after : Session σ} {node : NodeRef} {id : StrandId}

theorem Session.supportCount_openStrand (session : Session σ) (node : NodeRef) (kind : NodeKind)
    (support : Support) :
    (session.openStrand node kind support).supportCount = session.supportCount := by
  obtain ⟨snapshots, opened⟩ := session.openStrand_eq node kind support
  rw [opened]

theorem Session.supportCount_calling (session : Session σ) (composed called : NodeRef)
    (kind : NodeKind) :
    (session.calling composed called kind).supportCount = session.supportCount + 1 :=
  Session.supportCount_openStrand
    (session.countSupport.addSupport called (session.nextSupport (.caller composed))) called kind
    (session.nextSupport (.caller composed))

theorem Session.activation_calling (session : Session σ) (composed called : NodeRef)
    (kind : NodeKind) :
    (session.calling composed called kind).activation =
      session.activation.add called (session.nextSupport (.caller composed)) :=
  Session.activation_openStrand
    (session.countSupport.addSupport called (session.nextSupport (.caller composed))) called kind
    (session.nextSupport (.caller composed))

theorem Performs.le_supportCount (performs : Performs engine node session after) :
    session.supportCount ≤ after.supportCount := by
  cases performs with
  | started | idled | reached | assigned => exact Nat.le_refl _
  | invoked reacts =>
      obtain ⟨facts, host, rfl⟩ := reacts.exists_eq
      exact Nat.le_refl _
  | called =>
      rw [Session.supportCount_calling]
      exact Nat.le_succ _

theorem Refuses.le_supportCount {deed : Deed} (refuses : Refuses engine node deed session after) :
    session.supportCount ≤ after.supportCount := by
  cases refuses with
  | unserved => exact Nat.le_refl _
  | uncalled => exact Nat.le_succ _
  | failed reacts =>
      obtain ⟨facts, host, rfl⟩ := reacts.exists_eq
      exact Nat.le_refl _

theorem Collapsing.supportCount_eq {now : List (Entry × Bool) × Session σ}
    (collapsing : Collapsing engine id session now) : now.2.supportCount = session.supportCount := by
  induction collapsing with
  | refl => rfl
  | tail _ step ih =>
      cases step with
      | entry reverts => exact reverts.leaves.2.trans ih

theorem Session.supportCount_tidy (session : Session σ) (id : StrandId) :
    (session.tidy id).supportCount = session.supportCount := by
  unfold Session.tidy
  split <;> rfl

theorem Supplies.le {support : Support} {count : Nat}
    (supplies : Supplies grants session node support count) : session.supportCount ≤ count := by
  cases supplies with
  | given => exact Nat.le_refl _
  | minted => exact Nat.le_succ _

theorem Change.le_supportCount (change : Change engine grants session after) :
    session.supportCount ≤ after.supportCount := by
  cases change with
  | moved move =>
      cases move with
      | collapsed live collapsing =>
          rw [Session.supportCount_tidy, collapsing.supportCount_eq]
      | merged => exact Nat.le_succ _
      | joined next idle performs => exact (Nat.le_succ _).trans performs.le_supportCount
  | offered offer =>
      cases offer with
      | counted => exact Nat.le_succ _
      | asked => exact Nat.le_refl _
      | supported known fit supplies => exact supplies.le
      | @opened node kind support count known fit supplies =>
          have opened := Session.supportCount_openStrand (session.supply node support count) node kind
            support
          exact supplies.le.trans opened.ge
  | heard => exact Nat.le_refl _

theorem Break.le_supportCount (broke : Break engine session after) :
    session.supportCount ≤ after.supportCount := by
  cases broke with
  | collapse live collapsing refuses =>
      rw [← collapsing.supportCount_eq]
      exact refuses.le_supportCount
  | join next idle refuses => exact (Nat.le_succ _).trans refuses.le_supportCount

end Counts

section Gains

variable {session after : Session σ} {node acted : NodeRef} {support : Support}

theorem Performs.gains (performs : Performs engine acted session after)
    (mem : support ∈ (after.activation.supports node).items) :
    support ∈ (session.activation.supports node).items ∨
      session.Mints after.supportCount (Basis.Inward engine.chart node) support := by
  cases performs with
  | started | idled | reached | assigned => exact .inl mem
  | invoked reacts =>
      obtain ⟨facts, host, rfl⟩ := reacts.exists_eq
      exact .inl mem
  | @called called origin kind =>
      rw [Session.activation_calling] at mem
      rcases Activation.mem_add.1 mem with old | ⟨rfl, rfl, -⟩
      · exact .inl old
      · exact .inr ⟨Nat.lt_succ_self _, (Session.supportCount_calling ..).ge, not_false, kind⟩

theorem Move.gains (move : Move engine session after)
    (mem : support ∈ (after.activation.supports node).items) :
    support ∈ (session.activation.supports node).items ∨
      session.Mints after.supportCount (Basis.Inward engine.chart node) support := by
  cases move with
  | collapsed live collapsing =>
      rw [Session.activation_tidy] at mem
      exact .inl (collapsing.below node support mem)
  | merged next =>
      obtain ⟨strand, frontier, -, -, -, known, -⟩ := engine.nextEdge?_eq_some next
      rcases Activation.mem_add.1 mem with old | ⟨rfl, rfl, -⟩
      · exact .inl old
      · exact .inr ⟨Nat.lt_succ_self _, Nat.le_refl _, not_false, _, known, rfl⟩
  | joined next idle performs =>
      obtain ⟨strand, frontier, -, -, -, known, -⟩ := engine.nextEdge?_eq_some next
      rcases performs.gains mem with joined | minted
      · rcases Activation.mem_add.1 joined with old | ⟨rfl, rfl, -⟩
        · exact .inl old
        · exact .inr ⟨Nat.lt_succ_self _, performs.le_supportCount, not_false, _, known, rfl⟩
      · exact .inr { minted with new := (Nat.lt_succ_self _).trans minted.new }

theorem Supplies.gains {count : Nat} (supplies : Supplies grants session node support count) :
    grants.gives session node support ∨ session.Mints count (grants.mints node) support := by
  cases supplies with
  | given granted => exact .inl granted
  | minted granted => exact .inr ⟨Nat.lt_succ_self _, Nat.le_refl _, granted⟩

/-- What a change brings into the table was given by the host or is newly minted. -/
theorem Change.gains (change : Change engine grants session after)
    (mem : support ∈ (after.activation.supports node).items) :
    support ∈ (session.activation.supports node).items ∨ grants.gives session node support ∨
      session.Mints after.supportCount (grants.mints node) support ∨
        session.Mints after.supportCount (Basis.Inward engine.chart node) support := by
  cases change with
  | moved move => exact (move.gains mem).imp_right fun mints => .inr (.inr mints)
  | offered offer =>
      cases offer with
      | counted | asked => exact .inl mem
      | @supported origin kind given count known fit supplies =>
          rcases Activation.mem_add.1 mem with old | ⟨rfl, rfl, -⟩
          · exact .inl old
          · exact .inr (supplies.gains.imp_right .inl)
      | @opened origin kind given count known fit supplies =>
          have added : support ∈ ((session.supply origin given count).activation.supports node).items := by
            rw [← Session.activation_openStrand _ origin kind given]
            exact mem
          have counts : ((session.supply origin given count).openStrand origin kind given).supportCount =
              count := Session.supportCount_openStrand _ origin kind given
          rcases Activation.mem_add.1 added with old | ⟨rfl, rfl, -⟩
          · exact .inl old
          · rw [← counts] at supplies
            exact .inr (supplies.gains.imp_right .inl)
  | heard => exact .inl mem

end Gains

/-- The host gives supports with numbers that the session has given out. -/
def Grants.issued (gives mints : NodeRef → Basis → Prop) : Grants σ :=
  ⟨fun session node support => gives node support.basis ∧ support.id.number ≤ session.supportCount,
    mints⟩

/-- The numbers of all supports in the table were given out. -/
def Session.Numbered (session : Session σ) : Prop :=
  ∀ node, ∀ support ∈ (session.activation.supports node).items,
    support.id.number ≤ session.supportCount

namespace Session.Numbered

variable {session after : Session σ}

theorem below (numbered : session.Numbered) (below : after.activation.Below session.activation)
    (count : session.supportCount ≤ after.supportCount) : after.Numbered :=
  fun node support mem => (numbered node support (below node support mem)).trans count

theorem change (numbered : session.Numbered) (change : Change engine grants session after)
    (issued : ∀ {node support}, grants.gives session node support →
      support.id.number ≤ session.supportCount) : after.Numbered := by
  intro node support mem
  rcases change.gains mem with old | granted | minted | minted
  · exact (numbered node support old).trans change.le_supportCount
  · exact (issued granted).trans change.le_supportCount
  · exact minted.counted
  · exact minted.counted

theorem joining (numbered : session.Numbered) (id : StrandId) (ref : EdgeRef) (target : NodeRef) :
    (session.joining id ref target).Numbered := by
  intro node support mem
  rcases Activation.mem_add.1 mem with old | ⟨-, rfl, -⟩
  · exact Nat.le_succ_of_le (numbered node support old)
  · exact Nat.le_refl _

/-- The support that is minted next can be told from those that are held. -/
theorem nextSupport_id_ne (numbered : session.Numbered) (basis : Basis) {node : NodeRef}
    {support : Support} (mem : support ∈ (session.activation.supports node).items) :
    support.id ≠ (session.nextSupport basis).id := by
  intro same
  have bound := numbered node support mem
  rw [same] at bound
  exact Nat.not_succ_le_self _ bound

/-- The support that is minted next is held by the node that it is given to. -/
theorem mem_add_nextSupport (numbered : session.Numbered) (node : NodeRef) (basis : Basis) :
    session.nextSupport basis ∈
      ((session.activation.add node (session.nextSupport basis)).supports node).items := by
  refine Activation.mem_add.2 (.inr ⟨rfl, rfl, fun held => ?_⟩)
  obtain ⟨support, mem, same⟩ := List.mem_map.1 held
  exact numbered.nextSupport_id_ne basis mem same

end Session.Numbered

end Flowchart
