import Flowchart.Proofs.Calls
import Flowchart.Proofs.Reading
import Flowchart.Proofs.Rest
import Mathlib.Data.List.Perm.Subperm

/-!
Triggers. While a session settles, a trigger whose condition holds has its support, or a fact that the
condition reads has been touched since the source was last asked. So once the source has been asked
about all that was touched, each trigger has the one support that it should have.
-/
namespace Flowchart

variable {σ : Type} {engine : Engine σ} {chart : Chart} {ref : TriggerRef} {trigger : Trigger}

/-- A basis that names no trigger. -/
def Basis.Free : Basis → Prop
  | .external (some _) _ => False
  | _ => True

/-- A basis that names a trigger has the condition of that trigger. -/
def Basis.Named (chart : Chart) : Basis → Prop
  | .external (some ref) condition =>
    ∃ trigger, chart.trigger? ref = some trigger ∧ trigger.condition = condition
  | _ => True

theorem Basis.free_of_not_outside {basis : Basis} (inside : ¬basis.Outside) : basis.Free := by
  cases basis with
  | unconditional | external => exact absurd trivial inside
  | edge | caller => trivial

theorem Basis.Free.named {basis : Basis} (free : basis.Free) : basis.Named chart := by
  cases basis with
  | unconditional | edge | caller => trivial
  | external ref condition =>
      cases ref with
      | none => trivial
      | some ref => exact free.elim

theorem Support.trigger?_eq_some_iff {support : Support} :
    support.trigger? = some ref ↔ ∃ condition, support.basis = .external (some ref) condition := by
  unfold Support.trigger?
  split <;> simp_all

theorem Support.trigger?_of_free {support : Support} (free : support.basis.Free) :
    support.trigger? = none := by
  cases named : support.trigger? with
  | none => rfl
  | some ref =>
      obtain ⟨condition, basis⟩ := Support.trigger?_eq_some_iff.1 named
      rw [basis] at free
      exact free.elim

namespace Activation

variable {table : Activation} {node : NodeRef}

/-- The supports of the node that name the trigger. -/
def naming (table : Activation) (node : NodeRef) (ref : TriggerRef) : List Support :=
  (table.supports node).items.filter fun support => support.trigger? == some ref

theorem mem_naming {support : Support} :
    support ∈ table.naming node ref ↔
      support ∈ (table.supports node).items ∧ support.trigger? = some ref := by
  simp only [naming, List.mem_filter, beq_iff_eq]

theorem nodup_naming (table : Activation) (node : NodeRef) (ref : TriggerRef) :
    (table.naming node ref).Nodup := (table.supports node).distinct.of_map.filter _

theorem holdsTrigger_eq_false_iff :
    table.holdsTrigger node ref = false ↔ table.naming node ref = [] := by
  rw [holdsTrigger, naming, List.any_eq_false, List.filter_eq_nil_iff]

theorem length_naming_le {narrower : Activation}
    (within : ∀ support ∈ narrower.naming node ref, support ∈ table.naming node ref) :
    (narrower.naming node ref).length ≤ (table.naming node ref).length :=
  ((narrower.nodup_naming node ref).subperm within).length_le

theorem naming_add_of_ne {other : NodeRef} {given : Support} (table : Activation) (node : NodeRef)
    (unnamed : given.trigger? ≠ some ref) :
    (table.add node given).naming other ref = table.naming other ref := by
  rw [naming, naming, supports_add]
  split
  · subst other
    rw [Roster.items_insertNew]
    split
    · rfl
    · rw [List.filter_append, List.filter_cons_of_neg (by rwa [beq_iff_eq]), List.filter_nil,
        List.append_nil]
  · rfl

theorem naming_add_self {given : Support} (new : given.id ∉ (table.supports node).keys)
    (names : given.trigger? = some ref) :
    (table.add node given).naming node ref = table.naming node ref ++ [given] := by
  rw [naming, naming, supports_add, if_pos rfl, Roster.items_insertNew, if_neg new,
    List.filter_append, List.filter_cons_of_pos (by rwa [beq_iff_eq]), List.filter_nil]

end Activation

/-- The host supports origins with what it minted in the session and names no trigger; the source names
the triggers of the chart. -/
def Grants.ofTriggers (chart : Chart) : Grants σ :=
  .issued (fun _ basis => basis.Free) fun _ basis => basis.Named chart

/-- Supports that name triggers can be told from those of calls: the ones have the conditions of their
triggers, the others have numbers of their own. -/
structure Session.Traced (chart : Chart) (session : Session σ) : Prop where
  issued : session.Numbered
  named : ∀ node, ∀ support ∈ (session.activation.supports node).items, support.basis.Named chart
  recorded : ∀ composed record, session.calls.at? composed = some record →
    record.2.number ≤ session.supportCount
  apart : ∀ composed record, session.calls.at? composed = some record →
    ∀ support ∈ (session.activation.supports record.1).items, support.id = record.2 →
      support.trigger? = none

section Traced

variable {session after : Session σ}

namespace Session.Traced

theorem narrow (traced : session.Traced chart)
    (below : after.activation.Below session.activation)
    (listed : ∀ composed record, after.calls.at? composed = some record →
      session.calls.at? composed = some record)
    (count : session.supportCount ≤ after.supportCount) : after.Traced chart where
  issued := traced.issued.below below count
  named node support mem := traced.named node support (below node support mem)
  recorded composed record known :=
    (traced.recorded composed record (listed composed record known)).trans count
  apart composed record known support mem :=
    traced.apart composed record (listed composed record known) support (below record.1 support mem)

theorem basis_of_trigger? (traced : session.Traced chart) (known : chart.trigger? ref = some trigger)
    {node : NodeRef} {support : Support} (mem : support ∈ (session.activation.supports node).items)
    (names : support.trigger? = some ref) :
    support.basis = .external (some ref) trigger.condition := by
  obtain ⟨condition, basis⟩ := Support.trigger?_eq_some_iff.1 names
  have named := traced.named node support mem
  rw [basis] at named
  obtain ⟨other, same, reads⟩ := named
  cases known.symm.trans same
  rw [basis, reads]

theorem fresh (chart : Chart) (facts : Facts) (host : σ) : (Session.fresh facts host).Traced chart :=
  ⟨fun _ _ mem => (nomatch mem), fun _ _ mem => (nomatch mem), fun _ _ listed => (nomatch listed),
    fun _ _ listed => (nomatch listed)⟩

end Session.Traced

theorem Support.trigger?_of_inward {support : Support} {node : NodeRef}
    (inward : support.basis.Inward chart node) : support.trigger? = none :=
  Support.trigger?_of_free (Basis.free_of_not_outside inward.1)

/-- What a strand brings into the table names no trigger, and has a number of its own. -/
theorem Move.traced (move : Move engine session after) (traced : session.Traced engine.chart) :
    after.Traced engine.chart := by
  have change : Change engine (.ofTriggers engine.chart) session after := .moved move
  constructor
  · exact traced.issued.change change And.right
  · intro node support mem
    rcases move.gains mem with old | minted
    · exact traced.named node support old
    · exact (Basis.free_of_not_outside minted.basis.1).named
  · intro composed record listed
    rcases move.recorded listed with old | new
    · exact (traced.recorded composed record old).trans change.le_supportCount
    · exact new.2
  · intro composed record listed support mem same
    rcases move.gains mem with held | minted
    · rcases move.recorded listed with old | new
      · exact traced.apart composed record old support held same
      · have issued := traced.issued record.1 support held
        rw [same] at issued
        exact absurd issued (Nat.not_le_of_lt new.1)
    · exact Support.trigger?_of_inward minted.basis

/-- What is minted from outside has a number that no call has on record. -/
theorem Offer.traced (offer : Offer engine (.ofTriggers engine.chart) session after)
    (traced : session.Traced engine.chart) : after.Traced engine.chart := by
  have change : Change engine (.ofTriggers engine.chart) session after := .offered offer
  constructor
  · exact traced.issued.change change And.right
  · intro node support mem
    rcases change.gains mem with old | given | minted | minted
    · exact traced.named node support old
    · exact given.1.named
    · exact minted.basis
    · exact (Basis.free_of_not_outside minted.basis.1).named
  · intro composed record listed
    rw [offer.calls_eq] at listed
    exact (traced.recorded composed record listed).trans change.le_supportCount
  · intro composed record listed support mem same
    rw [offer.calls_eq] at listed
    rcases change.gains mem with held | given | minted | minted
    · exact traced.apart composed record listed support held same
    · exact Support.trigger?_of_free given.1
    · have known := traced.recorded composed record listed
      rw [← same] at known
      exact absurd known (Nat.not_le_of_lt minted.new)
    · exact Support.trigger?_of_inward minted.basis

theorem Change.traced (change : Change engine (.ofTriggers engine.chart) session after)
    (traced : session.Traced engine.chart) : after.Traced engine.chart := by
  cases change with
  | moved move => exact move.traced traced
  | offered offer => exact offer.traced traced
  | heard => exact ⟨traced.issued, traced.named, traced.recorded, traced.apart⟩

theorem Engine.Reaches.traced {facts : Facts}
    (source : engine.SourceGrants fun _ basis => basis.Named engine.chart)
    (reached : engine.Reaches
      (fun session operation => operation.offers
        ((Grants.ofTriggers engine.chart : Grants σ).gives session)) facts session) :
    session.Traced engine.chart := by
  have mints : engine.SourceGrants (Grants.ofTriggers engine.chart : Grants σ).mints := source
  refine Engine.Reaches.invariant mints ?_ ?_ ?_ ?_ ?_ ?_ ?_ reached
  · exact fun _ => trivial
  · exact fun offers => offers
  · exact .fresh engine.chart facts
  · exact fun traced change => change.traced traced
  · exact fun _ _ traced broke =>
      traced.narrow broke.below (fun _ _ => broke.recorded) broke.le_supportCount
  · exact fun _ traced =>
      traced.narrow (Session.Fades.removeSupport _ _ _).below (fun _ _ listed => listed) (Nat.le_refl _)
  · exact fun _ traced =>
      traced.narrow (fun _ _ mem => mem) (fun _ _ listed => listed) (Nat.le_refl _)

end Traced

def NodeKind.isInvoke : NodeKind → Bool
  | .action (.invoke _) => true
  | _ => false

/-- No node of the chart invokes a handler. -/
def Chart.InvokesNothing (chart : Chart) : Prop := ∀ node ∈ chart.nodes, node.kind.isInvoke = false

theorem Chart.InvokesNothing.ne_invoke (nothing : chart.InvokesNothing) (node : NodeRef)
    (name : String) : chart.kind? node ≠ some (.action (.invoke name)) := by
  intro kind
  obtain ⟨record, known, invokes⟩ := Option.map_eq_some_iff.1 kind
  have plain := nothing record (List.mem_of_getElem? known)
  rw [invokes] at plain
  cases plain

/-- Each fact is as it was or has been touched, and what was touched before still is. -/
structure Session.Tells (session after : Session σ) : Prop where
  touched : ∀ fact ∈ session.touched, fact ∈ after.touched
  facts : ∀ fact, after.facts.state fact = session.facts.state fact ∨ fact ∈ after.touched

section Tells

variable {session after : Session σ} {node : NodeRef}

theorem Session.Tells.of_eq (facts : after.facts = session.facts)
    (touched : after.touched = session.touched) : session.Tells after :=
  ⟨fun _ mem => touched ▸ mem, fun _ => .inl (by rw [facts])⟩

/-- A fact that is written and touched. -/
theorem Session.Tells.put (fact : String) (state : FactState)
    (facts : after.facts = session.facts.put fact state)
    (touched : after.touched = session.touched ++ [fact]) : session.Tells after where
  touched other mem := touched ▸ List.mem_append_left _ mem
  facts other := by
    by_cases same : fact = other
    · subst same
      rw [touched]
      exact .inr (List.mem_append_right _ (List.mem_singleton_self _))
    · rw [facts]
      exact .inl (Facts.state_put_of_ne state same)

theorem Session.Tells.unassign (session : Session σ) (node : NodeRef) (fact : String) :
    session.Tells (session.unassign node fact) := by
  unfold Session.unassign
  split
  · exact .of_eq rfl rfl
  · exact .put fact _ rfl rfl

theorem Session.Tells.endCall (session : Session σ) (composed : NodeRef) :
    session.Tells (session.endCall composed) := by
  unfold Session.endCall
  split <;> exact .of_eq rfl rfl

theorem Performs.tells (performs : Performs engine node session after)
    (nothing : engine.chart.InvokesNothing) : session.Tells after := by
  cases performs with
  | started | idled | reached => exact .of_eq rfl rfl
  | @assigned fact value => exact .put fact (some (.value value)) rfl rfl
  | invoked reacts =>
      obtain ⟨name, invokes⟩ := reacts.exists_kind
      exact absurd invokes (nothing.ne_invoke node name)
  | @called called origin =>
      obtain ⟨snapshots, opened⟩ := Session.openStrand_eq
        (session.countSupport.addSupport called (session.nextSupport (.caller node))) called origin
        (session.nextSupport (.caller node))
      rw [Session.calling, opened]
      exact .of_eq rfl rfl

theorem Reverts.tells (reverts : Reverts engine node session after)
    (nothing : engine.chart.InvokesNothing) : session.Tells after := by
  cases reverts with
  | started | idled | reached => exact .of_eq rfl rfl
  | assigned => exact .unassign session node _
  | invoked reacts =>
      obtain ⟨name, invokes⟩ := reacts.exists_kind
      exact absurd invokes (nothing.ne_invoke node name)
  | called => exact .endCall session node

end Tells

/-- At most one support of the start node names the trigger, and one does if the condition holds, unless
it reads a fact that the source is still to be asked about, since it was changed or touched. -/
structure Session.Tuned (ref : TriggerRef) (trigger : Trigger) (changed : List String)
    (session : Session σ) : Prop where
  alone : (session.activation.naming trigger.start ref).length ≤ 1
  heeded : trigger.condition.holds session.facts = true →
    session.activation.naming trigger.start ref ≠ [] ∨
      ∃ fact ∈ trigger.condition.facts, fact ∈ changed ∨ fact ∈ session.touched

section Moves

variable {session after : Session σ} {id : StrandId} {changed : List String}

/-- A trigger stays tuned as long as no support is brought in that names it and none is dropped while
its condition holds. -/
theorem Session.Tuned.step (tuned : session.Tuned ref trigger changed) (tells : session.Tells after)
    (back : ∀ support ∈ (after.activation.supports trigger.start).items,
      support.trigger? = some ref → support ∈ (session.activation.supports trigger.start).items)
    (kept : trigger.condition.holds session.facts = true →
      ∀ support ∈ (session.activation.supports trigger.start).items,
        support.trigger? = some ref → support ∈ (after.activation.supports trigger.start).items) :
    after.Tuned ref trigger changed where
  alone := by
    refine (Activation.length_naming_le fun support mem => ?_).trans tuned.alone
    obtain ⟨mem, names⟩ := Activation.mem_naming.1 mem
    exact Activation.mem_naming.2 ⟨back support mem names, names⟩
  heeded holds := by
    by_cases told : ∃ fact ∈ trigger.condition.facts, fact ∈ changed ∨ fact ∈ after.touched
    · exact .inr told
    · have same : trigger.condition.holds session.facts = trigger.condition.holds after.facts := by
        refine Condition.holds_congr fun fact reads => ?_
        rcases tells.facts fact with same | touched
        · exact same.symm
        · exact absurd ⟨fact, reads, .inr touched⟩ told
      have held := same.trans holds
      rcases tuned.heeded held with filled | ⟨fact, reads, pending⟩
      · obtain ⟨support, mem⟩ := List.exists_mem_of_ne_nil _ filled
        obtain ⟨mem, names⟩ := Activation.mem_naming.1 mem
        exact .inl (List.ne_nil_of_mem (Activation.mem_naming.2 ⟨kept held support mem names, names⟩))
      · exact .inr ⟨fact, reads, pending.imp_right (tells.touched fact)⟩

/-- A sweep drops the support of a trigger only if the condition of the trigger fails. -/
theorem Session.Tuned.swept (tuned : session.Tuned ref trigger changed)
    (traced : session.Traced engine.chart) (known : engine.chart.trigger? ref = some trigger) :
    (session.swept engine.chart id).Tuned ref trigger changed := by
  refine tuned.step (.of_eq rfl rfl) (fun support mem _ => mem_of_mem_sweepEntries mem) ?_
  intro holds support mem names
  refine mem_sweepEntries_of_holds mem ?_
  rw [traced.basis_of_trigger? known mem names]
  exact holds

/-- What a node takes back when it leaves is no support of a trigger. -/
theorem Reverts.mem_of_trigger? {node other : NodeRef} {support : Support}
    (reverts : Reverts engine node session after) (traced : session.Traced engine.chart)
    (mem : support ∈ (session.activation.supports other).items) (names : support.trigger? = some ref) :
    support ∈ (after.activation.supports other).items := by
  rcases reverts.eq_endCall_or with ⟨called, -, rfl⟩ | ⟨-, -, activation⟩
  · refine Session.mem_endCall.2 ⟨mem, fun listed => ?_⟩
    cases names.symm.trans (traced.apart node _ listed support mem rfl)
  · rwa [activation]

/-- An entry that is undone is inactive, so that the support taken back with it was gone already. -/
theorem Session.Tuned.undo {before rest : List (Entry × Bool)} {entry : Entry} {reverted : Session σ}
    (tuned : session.Tuned ref trigger changed) (nothing : engine.chart.InvokesNothing)
    (traced : session.Traced engine.chart)
    (underway : session.Underway engine id (before ++ (entry, false) :: rest))
    (reverts : Reverts engine entry.node (session.removeSupport entry.node entry.support.id) reverted) :
    ((reverted.leaveFootprint (.acted entry.node .revert true)).putStrand
      ⟨id, (before ++ rest).map Prod.fst⟩).Tuned ref trigger changed := by
  have idle := underway.idle entry (List.mem_append_right _ (List.mem_cons_self ..))
  have same := Session.mem_removeSupport_of_idle idle entry.support.id
  have removed : (session.removeSupport entry.node entry.support.id).Traced engine.chart :=
    traced.narrow (Session.Fades.removeSupport _ _ _).below (fun _ _ listed => listed) (Nat.le_refl _)
  have tells : session.Tells ((reverted.leaveFootprint (.acted entry.node .revert true)).putStrand
      ⟨id, (before ++ rest).map Prod.fst⟩) :=
    ⟨(reverts.tells nothing).touched, (reverts.tells nothing).facts⟩
  refine tuned.step tells (fun support mem _ => ?_) fun _ support mem names => ?_
  · exact (same _ support).1 (reverts.fades.below _ support mem)
  · exact reverts.mem_of_trigger? removed ((same _ support).2 mem) names

theorem Collapsing.tuned (nothing : engine.chart.InvokesNothing) (inv : session.Orderly engine)
    (traced : session.Traced engine.chart) (known : engine.chart.trigger? ref = some trigger)
    (tuned : session.Tuned ref trigger changed) (live : session.strands.contains id = true)
    {now : List (Entry × Bool) × Session σ} (collapsing : Collapsing engine id session now) :
    now.2.Tuned ref trigger changed := by
  induction collapsing with
  | refl => exact tuned.swept traced known
  | tail first step ih =>
      have first : Collapsing engine id session _ := first
      have underway := Session.Underway.collapsing inv live first
      have traced : Session.Traced engine.chart _ :=
        traced.narrow first.below (fun _ _ => first.recorded) first.supportCount_eq.ge
      cases step with
      | entry reverts => exact ih.undo nothing traced underway reverts

theorem Performs.above {node : NodeRef} (performs : Performs engine node session after) :
    session.activation.Below after.activation := by
  intro other support mem
  rcases performs.eq_calling_or with ⟨called, origin, -, -, -, rfl⟩ | ⟨-, -, activation, -⟩
  · rw [Session.activation_calling]
    exact Activation.mem_add.2 (.inl mem)
  · rwa [activation]

theorem Move.tuned (move : Move engine session after) (nothing : engine.chart.InvokesNothing)
    (inv : session.Orderly engine) (traced : session.Traced engine.chart)
    (known : engine.chart.trigger? ref = some trigger) (tuned : session.Tuned ref trigger changed) :
    after.Tuned ref trigger changed := by
  have back : ∀ support ∈ (after.activation.supports trigger.start).items,
      support.trigger? = some ref → support ∈ (session.activation.supports trigger.start).items := by
    intro support mem names
    rcases move.gains mem with old | minted
    · exact old
    · cases names.symm.trans (Support.trigger?_of_inward minted.basis)
  cases move with
  | @collapsed after id kept live collapsing =>
      have collapsed := collapsing.tuned nothing inv traced known tuned live
      have tells : after.Tells (after.tidy id) := by
        unfold Session.tidy
        split <;> exact .of_eq rfl rfl
      refine collapsed.step tells (fun support mem _ => ?_) fun _ support mem _ => ?_
      · rwa [Session.activation_tidy] at mem
      · rwa [Session.activation_tidy]
  | merged => exact tuned.step (.of_eq rfl rfl) back fun _ _ mem _ => Activation.mem_add.2 (.inl mem)
  | @joined acted id ref edge next idle performs =>
      have tells : session.Tells (acted.leaveFootprint (.acted edge.target .perform true)) :=
        ⟨(performs.tells nothing).touched, (performs.tells nothing).facts⟩
      exact tuned.step tells back fun _ support mem _ =>
        performs.above _ support (Activation.mem_add.2 (.inl mem))

end Moves

end Flowchart
