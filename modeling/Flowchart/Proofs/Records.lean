import Flowchart.Proofs.Calls
import Flowchart.Proofs.Rest

/-!
The records that a session keeps of nodes beside the table of supports: the snapshots that were reached,
what assignments wrote over, the calls of composed nodes. A node is recorded when it acts and struck off
when it is undone, while its activity comes and goes with its supports. So in between records may
outlast activity, but never the last entry of their node; and a session at rest has no entry whose node
is inactive.
-/
namespace Flowchart

variable {σ : Type} {engine : Engine σ} {grants : Grants σ} {chart : Chart}

/-- The records that are kept of nodes. -/
inductive Ledger where
  | reached
  | replaced
  | calls

/-- Where nodes of the kind are recorded. -/
def NodeKind.ledger? : NodeKind → Option Ledger
  | .snapshot => some .reached
  | .action (.assign _ _) => some .replaced
  | .composed _ => some .calls
  | _ => none

def Chart.ledger? (chart : Chart) (node : NodeRef) : Option Ledger :=
  (chart.kind? node).bind NodeKind.ledger?

theorem Chart.ledger?_of_kind {node : NodeRef} {kind : NodeKind} (known : chart.kind? node = some kind) :
    chart.ledger? node = kind.ledger? := by rw [Chart.ledger?, known, Option.bind_some]

/-- The nodes that are recorded. -/
def Session.recorded (session : Session σ) : Ledger → List NodeRef
  | .reached => session.snapshots
  | .replaced => session.replaced.keys
  | .calls => session.calls.keys

section Ledgers

variable {session between after : Session σ} {node : NodeRef} {ledger : Ledger}

/-- The nodes that joined are recorded, each where nodes of its kind are, and no others besides. -/
structure Session.Enrolls (chart : Chart) (session after : Session σ) (joined : List NodeRef) : Prop where
  recorded : ∀ ledger node, node ∈ after.recorded ledger ↔
    node ∈ session.recorded ledger ∨ (node ∈ joined ∧ chart.ledger? node = some ledger)
  once : session.snapshots.Nodup → after.snapshots.Nodup

namespace Session.Enrolls

theorem of_bare (bare : chart.ledger? node = none) (same : after.recorded = session.recorded) :
    session.Enrolls chart after [node] where
  recorded ledger other := by
    rw [same, or_iff_left]
    rintro ⟨mem, known⟩
    rw [List.mem_singleton.1 mem, bare] at known
    cases known
  once once := by
    have listed : after.snapshots = session.snapshots := congrFun same .reached
    rwa [listed]

theorem of_ledger (known : chart.ledger? node = some ledger)
    (here : ∀ other, other ∈ after.recorded ledger ↔ other ∈ session.recorded ledger ∨ other = node)
    (elsewhere : ∀ other, other ≠ ledger → after.recorded other = session.recorded other)
    (once : session.snapshots.Nodup → after.snapshots.Nodup) : session.Enrolls chart after [node] where
  recorded found other := by
    by_cases same : found = ledger
    · subst same
      rw [here, List.mem_singleton]
      refine or_congr_right (and_iff_left_of_imp ?_).symm
      rintro rfl
      exact known
    · rw [elsewhere found same, or_iff_left]
      rintro ⟨mem, other⟩
      rw [List.mem_singleton.1 mem, known] at other
      exact same (Option.some.inj other).symm
  once := once

theorem trans {joined later : List NodeRef} (first : session.Enrolls chart between joined)
    (second : between.Enrolls chart after later) : session.Enrolls chart after (joined ++ later) where
  recorded ledger other := by
    rw [second.recorded, first.recorded, List.mem_append]
    tauto
  once once := second.once (first.once once)

theorem reachSnapshot (session : Session σ) (kind : chart.kind? node = some .snapshot) :
    session.Enrolls chart (session.reachSnapshot node) [node] := by
  have known : chart.ledger? node = some .reached := Chart.ledger?_of_kind kind
  refine .of_ledger known ?_ ?_ ?_
  · intro other
    change other ∈ (if node ∈ session.snapshots then session.snapshots else session.snapshots ++ [node]) ↔
      other ∈ session.snapshots ∨ other = node
    split
    · rename_i present
      exact ⟨.inl, fun either => either.elim id fun same => same ▸ present⟩
    · rw [List.mem_append, List.mem_singleton]
  · intro other apart
    cases other with
    | reached => exact absurd rfl apart
    | replaced | calls => rfl
  · intro once
    simp only [Session.reachSnapshot]
    split
    · exact once
    · rename_i absent
      refine List.nodup_append.2 ⟨once, List.nodup_singleton _, fun other early last late same => ?_⟩
      exact absent (List.mem_singleton.1 late ▸ same ▸ early)

theorem assign (session : Session σ) {fact : String} {value : Value}
    (kind : chart.kind? node = some (.action (.assign fact value))) :
    session.Enrolls chart (session.assign node fact value) [node] := by
  have known : chart.ledger? node = some .replaced := Chart.ledger?_of_kind kind
  refine .of_ledger known ?_ ?_ id
  · exact fun other => Roster.mem_keys_insert
  · intro other apart
    cases other with
    | replaced => exact absurd rfl apart
    | reached | calls => rfl

theorem recordCall (session : Session σ) {called start : NodeRef} {id : SupportId}
    (kind : chart.kind? node = some (.composed called)) :
    session.Enrolls chart (session.recordCall node start id) [node] := by
  have known : chart.ledger? node = some .calls := Chart.ledger?_of_kind kind
  refine .of_ledger known ?_ ?_ fun once => once
  · exact fun other => Roster.mem_keys_insert
  · intro other apart
    cases other with
    | calls => exact absurd rfl apart
    | reached | replaced => rfl

/-- An origin is recorded when a strand is opened there, if it is a snapshot. -/
theorem openStrand (session : Session σ) {kind : NodeKind} (known : chart.kind? node = some kind)
    (fit : kind.isOrigin = true) (support : Support) :
    session.Enrolls chart (session.openStrand node kind support) [node] := by
  cases kind with
  | start =>
      exact .of_bare (Chart.ledger?_of_kind known) rfl
  | snapshot =>
      have reached := Enrolls.reachSnapshot { session with strandCount := session.strandCount + 1 } known
      exact ⟨reached.recorded, reached.once⟩
  | action | composed => cases fit

end Session.Enrolls

/-- The node is struck off, and no others are. -/
structure Session.Strikes (chart : Chart) (session after : Session σ) (node : NodeRef) : Prop where
  within : ∀ ledger, ∀ other ∈ after.recorded ledger, other ∈ session.recorded ledger
  others : ∀ ledger other, other ≠ node → other ∈ session.recorded ledger → other ∈ after.recorded ledger
  gone : ∀ ledger, chart.ledger? node = some ledger → node ∉ after.recorded ledger
  once : after.snapshots.Nodup

namespace Session.Strikes

theorem of_bare (bare : chart.ledger? node = none) (same : after.recorded = session.recorded)
    (once : session.snapshots.Nodup) : session.Strikes chart after node where
  within _ _ mem := same ▸ mem
  others _ _ _ mem := same ▸ mem
  gone ledger known := nomatch bare.symm.trans known
  once := by
    have listed : after.snapshots = session.snapshots := congrFun same .reached
    rwa [listed]

theorem of_ledger (known : chart.ledger? node = some ledger)
    (here : ∀ other, other ∈ after.recorded ledger ↔ other ∈ session.recorded ledger ∧ other ≠ node)
    (elsewhere : ∀ other, other ≠ ledger → after.recorded other = session.recorded other)
    (once : after.snapshots.Nodup) : session.Strikes chart after node where
  within found other mem := by
    by_cases same : found = ledger
    · subst same
      exact ((here other).1 mem).1
    · exact elsewhere found same ▸ mem
  others found other apart mem := by
    by_cases same : found = ledger
    · subst same
      exact (here other).2 ⟨mem, apart⟩
    · exact (elsewhere found same).symm ▸ mem
  gone found also mem := by
    cases known.symm.trans also
    exact ((here node).1 mem).2 rfl
  once := once

/-- There is nothing to strike off where the node is not recorded. -/
theorem of_absent (known : chart.ledger? node = some ledger) (absent : node ∉ session.recorded ledger)
    (once : session.snapshots.Nodup) : session.Strikes chart session node :=
  .of_ledger known (fun _ => ⟨fun mem => ⟨mem, fun same => absent (same ▸ mem)⟩, And.left⟩)
    (fun _ _ => rfl) once

theorem leaveSnapshot (kind : chart.kind? node = some .snapshot) (once : session.snapshots.Nodup) :
    session.Strikes chart (session.leaveSnapshot node) node := by
  have known : chart.ledger? node = some .reached := Chart.ledger?_of_kind kind
  refine .of_ledger known ?_ ?_ (once.erase node)
  · exact fun other => (List.Nodup.mem_erase_iff once).trans and_comm
  · intro other apart
    cases other with
    | reached => exact absurd rfl apart
    | replaced | calls => rfl

theorem unassign {fact : String} {value : Value}
    (kind : chart.kind? node = some (.action (.assign fact value))) (once : session.snapshots.Nodup) :
    session.Strikes chart (session.unassign node fact) node := by
  have known : chart.ledger? node = some .replaced := Chart.ledger?_of_kind kind
  unfold Session.unassign
  cases found : session.replaced.at? node with
  | none =>
      have absent : node ∉ session.replaced.keys := Listing.at?_eq_none_iff.1 found
      exact .of_absent known absent once
  | some previous =>
      refine .of_ledger known (fun other => Roster.mem_keys_erase) ?_ once
      intro other apart
      cases other with
      | replaced => exact absurd rfl apart
      | reached | calls => rfl

theorem endCall {called : NodeRef} (kind : chart.kind? node = some (.composed called))
    (once : session.snapshots.Nodup) : session.Strikes chart (session.endCall node) node := by
  have known : chart.ledger? node = some .calls := Chart.ledger?_of_kind kind
  unfold Session.endCall
  cases found : session.calls.at? node with
  | none =>
      have absent : node ∉ session.calls.keys := Listing.at?_eq_none_iff.1 found
      exact .of_absent known absent once
  | some record =>
      refine .of_ledger known (fun other => Roster.mem_keys_erase) ?_ once
      intro other apart
      cases other with
      | calls => exact absurd rfl apart
      | reached | replaced => rfl

end Session.Strikes

/-- A node that acts is recorded, and so is the snapshot that it calls, if it calls one. Both have got
their supports before. -/
theorem Performs.enrolls (performs : Performs engine node session after)
    (new : session.strands.get? ⟨session.strandCount + 1⟩ = none) :
    ∃ joined, node ∈ joined ∧ session.Enrolls engine.chart after joined ∧
      (∀ other, after.isActive other = true → session.isActive other = true ∨ other ∈ joined) ∧
      (∀ other ∈ session.nodes, other ∈ after.nodes) ∧
      ∀ other ∈ joined, other = node ∨ other ∈ after.nodes := by
  have alone : ∀ other ∈ [node], other = node ∨ other ∈ after.nodes :=
    fun other mem => .inl (List.mem_singleton.1 mem)
  cases performs with
  | started kind | idled kind =>
      have bare : engine.chart.ledger? node = none := Chart.ledger?_of_kind kind
      exact ⟨[node], List.mem_singleton_self _, .of_bare bare rfl, fun _ active => .inl active,
        fun _ mem => mem, alone⟩
  | reached kind =>
      exact ⟨[node], List.mem_singleton_self _, .reachSnapshot session kind, fun _ active => .inl active,
        fun _ mem => mem, alone⟩
  | assigned kind =>
      exact ⟨[node], List.mem_singleton_self _, .assign session kind, fun _ active => .inl active,
        fun _ mem => mem, alone⟩
  | invoked reacts =>
      obtain ⟨name, kind⟩ := reacts.exists_kind
      have bare : engine.chart.ledger? node = none := Chart.ledger?_of_kind kind
      obtain ⟨facts, host, rfl⟩ := reacts.exists_eq
      exact ⟨[node], List.mem_singleton_self _, .of_bare bare rfl, fun _ active => .inl active,
        fun _ mem => mem, alone⟩
  | @called start origin kind known fit =>
      have opened := Session.Enrolls.openStrand
        (session.countSupport.addSupport start (session.nextSupport (.caller node))) known fit
        (session.nextSupport (.caller node))
      have nodes := session.nodes_calling node start origin new
      refine ⟨[start] ++ [node], List.mem_append_right _ (List.mem_singleton_self _), ?_, ?_, ?_, ?_⟩
      · exact Session.Enrolls.trans ⟨opened.recorded, opened.once⟩ (.recordCall _ kind)
      · intro other active
        rw [session.isActive_calling, Bool.or_eq_true, decide_eq_true_eq] at active
        rcases active with rfl | old
        · exact .inr (List.mem_append_left _ (List.mem_singleton_self _))
        · exact .inl old
      · intro other mem
        rw [nodes]
        exact List.mem_append_left _ mem
      · intro other mem
        rcases List.mem_append.1 mem with here | last
        · rw [nodes]
          exact .inr (List.mem_append_right _ here)
        · exact .inl (List.mem_singleton.1 last)

theorem Reverts.strikes (reverts : Reverts engine node session after) (once : session.snapshots.Nodup) :
    session.Strikes engine.chart after node := by
  cases reverts with
  | started kind | idled kind =>
      exact .of_bare (Chart.ledger?_of_kind kind) rfl once
  | reached kind => exact .leaveSnapshot kind once
  | assigned kind => exact .unassign kind once
  | invoked reacts =>
      obtain ⟨name, kind⟩ := reacts.exists_kind
      obtain ⟨facts, host, rfl⟩ := reacts.exists_eq
      exact .of_bare (Chart.ledger?_of_kind kind) rfl once
  | called kind => exact .endCall kind once

/-- Nodes are recorded as their kind has it, and have an entry then; active ones are recorded. -/
structure Session.Filed (chart : Chart) (session : Session σ) : Prop where
  once : session.snapshots.Nodup
  fit : ∀ ledger, ∀ node ∈ session.recorded ledger, chart.ledger? node = some ledger
  entered : ∀ ledger, ∀ node ∈ session.recorded ledger, node ∈ session.nodes
  active : ∀ ledger node, chart.ledger? node = some ledger → session.isActive node = true →
    node ∈ session.recorded ledger

namespace Session.Filed

theorem fresh (chart : Chart) (facts : Facts) (host : σ) : (Session.fresh facts host).Filed chart where
  once := .nil
  fit ledger _ mem := by cases ledger <;> cases mem
  entered ledger _ mem := by cases ledger <;> cases mem
  active _ _ _ active := nomatch active

/-- Records stay right while supports are lost. -/
theorem fade (filed : session.Filed chart) (recorded : after.recorded = session.recorded)
    (nodes : ∀ node ∈ session.nodes, node ∈ after.nodes)
    (active : ∀ node, after.isActive node = true → session.isActive node = true) :
    after.Filed chart where
  once := by
    have same : after.snapshots = session.snapshots := congrFun recorded .reached
    rw [same]
    exact filed.once
  fit := by
    rw [recorded]
    exact filed.fit
  entered ledger node mem := by
    rw [recorded] at mem
    exact nodes node (filed.entered ledger node mem)
  active ledger node known now := by
    rw [recorded]
    exact filed.active ledger node known (active node now)

/-- Nodes get active as they are recorded. -/
theorem enroll {joined : List NodeRef} (filed : session.Filed chart)
    (enrolls : session.Enrolls chart after joined)
    (active : ∀ node, after.isActive node = true → session.isActive node = true ∨ node ∈ joined)
    (nodes : ∀ node, node ∈ session.nodes ∨ node ∈ joined → node ∈ after.nodes) :
    after.Filed chart where
  once := enrolls.once filed.once
  fit ledger node mem := by
    rcases (enrolls.recorded ledger node).1 mem with old | ⟨-, known⟩
    · exact filed.fit ledger node old
    · exact known
  entered ledger node mem := by
    rcases (enrolls.recorded ledger node).1 mem with old | ⟨new, -⟩
    · exact nodes node (.inl (filed.entered ledger node old))
    · exact nodes node (.inr new)
  active ledger node known now := by
    refine (enrolls.recorded ledger node).2 ?_
    rcases active node now with old | new
    · exact .inl (filed.active ledger node known old)
    · exact .inr ⟨new, known⟩

/-- A node that is undone is struck off, whether it has other entries or not, for it is inactive. -/
theorem undo {id : StrandId} {before rest : List (Entry × Bool)} {entry : Entry} {reverted : Session σ}
    (filed : session.Filed engine.chart)
    (underway : session.Underway engine id (before ++ (entry, false) :: rest))
    (reverts : Reverts engine entry.node (session.removeSupport entry.node entry.support.id) reverted) :
    ((reverted.leaveFootprint (.acted entry.node .revert true)).putStrand
      ⟨id, (before ++ rest).map Prod.fst⟩).Filed engine.chart := by
  have strikes := reverts.strikes filed.once
  have fades := (Session.Fades.removeSupport session entry.node entry.support.id).trans reverts.fades
  have idle := underway.idle entry (List.mem_append_right _ (List.mem_cons_self ..))
  constructor
  · exact strikes.once
  · exact fun ledger node mem => filed.fit ledger node (strikes.within ledger node mem)
  · intro ledger node mem
    have old : node ∈ session.recorded ledger := strikes.within ledger node mem
    have apart : entry.node ≠ node := by
      rintro rfl
      exact strikes.gone ledger (filed.fit ledger _ old) mem
    have counted := underway.count_nodes_undo reverts node
    rw [if_neg apart, Nat.add_zero] at counted
    rw [← List.count_pos_iff, counted]
    exact List.count_pos_iff.2 (filed.entered ledger node old)
  · intro ledger node known now
    have active : session.isActive node = true := fades.active node now
    refine strikes.others ledger node ?_ (filed.active ledger node known active)
    rintro rfl
    exact Bool.false_ne_true (idle.symm.trans active)

theorem collapsing {id : StrandId} {now : List (Entry × Bool) × Session σ}
    (filed : session.Filed engine.chart) (inv : session.Orderly engine)
    (live : session.strands.contains id = true) (collapsing : Collapsing engine id session now) :
    now.2.Filed engine.chart := by
  induction collapsing with
  | refl =>
      have fades := Session.Fades.swept session engine.chart id
      exact filed.fade rfl (fun _ mem => mem) fades.active
  | tail first step ih =>
      have underway := Session.Underway.collapsing inv live first
      cases step with
      | entry reverts => exact ih.undo underway reverts

theorem tidy (filed : session.Filed chart) (id : StrandId) : (session.tidy id).Filed chart := by
  by_cases empty : session.entries id = []
  · rw [Session.tidy, empty, List.isEmpty_nil, if_pos rfl]
    refine filed.fade rfl (fun node mem => ?_) fun _ active => active
    have dropped := session.count_nodes_dropStrand id node
    rw [empty, List.map_nil, List.count_nil, Nat.add_zero] at dropped
    rw [← List.count_pos_iff, dropped]
    exact List.count_pos_iff.2 mem
  · rw [Session.tidy_of_ne_nil empty]
    exact filed

end Session.Filed

theorem Move.filed (move : Move engine session after) (inv : session.Orderly engine)
    (filed : session.Filed engine.chart) : after.Filed engine.chart := by
  cases move with
  | collapsed live collapsing => exact (filed.collapsing inv live collapsing).tidy _
  | @merged id ref edge next active =>
      refine filed.fade rfl (fun _ mem => mem) fun node now => ?_
      rw [Session.merging, Session.isActive_addSupport, Bool.or_eq_true, decide_eq_true_eq] at now
      rcases now with rfl | old
      · exact active
      · exact old
  | @joined acted id ref edge next idle performs =>
      have joining := inv.joining (engine.live_of_nextEdge? next) performs.serves ref
      obtain ⟨joined, mem, enrolls, active, nodes, entered⟩ := performs.enrolls joining.toTracked.fresh
      have listed {node : NodeRef} : node ∈ (session.joining id ref edge.target).nodes ↔
          node ∈ session.nodes ∨ edge.target = node := Session.mem_nodes_joining
      have enrolled : session.Enrolls engine.chart
          (acted.leaveFootprint (.acted edge.target .perform true)) joined :=
        ⟨enrolls.recorded, enrolls.once⟩
      refine filed.enroll enrolled ?_ ?_
      · intro node now
        rcases active node now with before | new
        · rw [Session.isActive_joining, Bool.or_eq_true, decide_eq_true_eq] at before
          rcases before with rfl | old
          · exact .inr mem
          · exact .inl old
        · exact .inr new
      · rintro node (old | new)
        · exact nodes node (listed.2 (.inl old))
        · rcases entered node new with rfl | here
          · exact nodes _ (listed.2 (.inr rfl))
          · exact here

theorem Offer.filed (offer : Offer engine grants session after) (inv : session.Orderly engine)
    (filed : session.Filed engine.chart) : after.Filed engine.chart := by
  cases offer with
  | counted | asked => exact filed.fade rfl (fun _ mem => mem) fun _ active => active
  | @supported node kind support count _ _ _ active =>
      refine filed.fade rfl (fun _ mem => mem) fun other now => ?_
      change (session.addSupport node support).isActive other = true at now
      rw [Session.isActive_addSupport, Bool.or_eq_true, decide_eq_true_eq] at now
      rcases now with rfl | old
      · exact active
      · exact old
  | @opened node kind support count known fit =>
      have new : (session.supply node support count).strands.get?
          ⟨(session.supply node support count).strandCount + 1⟩ = none := inv.toTracked.fresh
      have nodes := Session.nodes_openStrand new node kind support
      have opened := Session.Enrolls.openStrand (session.supply node support count) known fit support
      have enrolled : session.Enrolls engine.chart
          (((session.supply node support count).openStrand node kind support).leaveFootprint
            (.started node)) [node] := ⟨opened.recorded, opened.once⟩
      refine filed.enroll enrolled ?_ ?_
      · intro other now
        rw [Session.isActive, Session.leaveFootprint, Session.activation_openStrand] at now
        change (session.addSupport node support).isActive other = true at now
        rw [Session.isActive_addSupport, Bool.or_eq_true, decide_eq_true_eq] at now
        exact now.symm.imp_right fun same => List.mem_singleton.2 same.symm
      · rintro other listed
        change other ∈ ((session.supply node support count).openStrand node kind support).nodes
        rw [nodes]
        exact List.mem_append.2 listed

theorem Change.filed (change : Change engine grants session after) (inv : session.Orderly engine)
    (filed : session.Filed engine.chart) : after.Filed engine.chart := by
  cases change with
  | moved move => exact move.filed inv filed
  | offered offer => exact offer.filed inv filed
  | heard => exact filed.fade rfl (fun _ mem => mem) fun _ active => active

theorem Session.Filed.changes (filed : session.Filed engine.chart) (inv : session.Orderly engine)
    (steps : Changes engine grants session after) : after.Orderly engine ∧ after.Filed engine.chart :=
  steps.keep (motive := fun session => session.Orderly engine ∧ session.Filed engine.chart)
    (fun inv change => ⟨change.orderly inv.1, change.filed inv.1 inv.2⟩) ⟨inv, filed⟩

theorem Break.filed (broke : Break engine session after) (inv : session.Orderly engine)
    (filed : session.Filed engine.chart) : after.Filed engine.chart := by
  cases broke with
  | @collapse now left id before rest entry live collapsing refuses =>
      have fades := (Session.Fades.removeSupport now entry.node entry.support.id).trans refuses.fades
      obtain ⟨facts, host, count, rfl⟩ := refuses.exists_eq
      exact (filed.collapsing inv live collapsing).fade rfl (fun _ mem => mem) fades.active
  | @join left id ref edge next idle refuses =>
      have fades := Session.parting_fades (engine.live_of_nextEdge? next) refuses
        (.acted edge.target .perform false)
      have nodes := fades.nodes
      obtain ⟨facts, host, count, rfl⟩ := refuses.exists_eq
      exact filed.fade rfl (fun node mem => nodes ▸ mem) fades.active

end Ledgers

/-- Wherever a run has led, the records are in order. -/
theorem Engine.Reaches.filed {permits : Session σ → Operation σ → Prop} {facts : Facts}
    {session : Session σ} (reached : engine.Reaches permits facts session) :
    session.Orderly engine ∧ session.Filed engine.chart := by
  refine Engine.Reaches.invariant_all
    (motive := fun session => session.Orderly engine ∧ session.Filed engine.chart)
    ?_ ?_ ?_ ?_ ?_ reached
  · exact fun host => ⟨.fresh engine facts host, .fresh engine.chart facts host⟩
  · exact fun inv change => ⟨change.orderly inv.1, change.filed inv.1 inv.2⟩
  · exact fun _ _ inv broke => ⟨broke.orderly inv.1, broke.filed inv.1 inv.2⟩
  · intro session node id _ inv
    have fades := Session.Fades.removeSupport session node id
    exact ⟨inv.1.fade fades, inv.2.fade rfl (fun _ mem => mem) fades.active⟩
  · exact fun _ inv => ⟨inv.1.fade ⟨rfl, rfl, fun _ _ mem => mem⟩,
      inv.2.fade rfl (fun _ mem => mem) fun _ active => active⟩

/-- Every node with an entry is active. -/
def Session.Manned (session : Session σ) : Prop := ∀ node ∈ session.nodes, session.isActive node = true

/-- The records agree with what is active. -/
structure Session.Accords (chart : Chart) (session : Session σ) : Prop where
  once : session.snapshots.Nodup
  reached : ∀ node, node ∈ session.snapshots ↔
    session.isActive node = true ∧ chart.kind? node = some .snapshot
  replaced : ∀ node, node ∈ session.replaced.keys ↔
    session.isActive node = true ∧ ∃ fact value, chart.kind? node = some (.action (.assign fact value))
  calls : ∀ node, node ∈ session.calls.keys ↔
    session.isActive node = true ∧ ∃ called, chart.kind? node = some (.composed called)

section Fixpoint

variable {decl : ChartDecl} {session after : Session σ}

theorem NodeKind.ledger?_eq_reached {kind : NodeKind} : kind.ledger? = some .reached ↔ kind = .snapshot := by
  cases kind with
  | action action => cases action <;> simp [ledger?]
  | start | snapshot | composed => simp [ledger?]

theorem NodeKind.ledger?_eq_replaced {kind : NodeKind} :
    kind.ledger? = some .replaced ↔ ∃ fact value, kind = .action (.assign fact value) := by
  cases kind with
  | action action => cases action <;> simp [ledger?]
  | start | snapshot | composed => simp [ledger?]

theorem NodeKind.ledger?_eq_calls {kind : NodeKind} :
    kind.ledger? = some .calls ↔ ∃ called, kind = .composed called := by
  cases kind with
  | action action => cases action <;> simp [ledger?]
  | start | snapshot | composed => simp [ledger?]

/-- Where every node with an entry is active, the active nodes are the recorded ones. -/
theorem Session.Filed.accords (filed : session.Filed chart) (manned : session.Manned) :
    session.Accords chart := by
  have agree (ledger : Ledger) (node : NodeRef) : node ∈ session.recorded ledger ↔
      session.isActive node = true ∧ chart.ledger? node = some ledger := by
    constructor
    · exact fun mem => ⟨manned node (filed.entered ledger node mem), filed.fit ledger node mem⟩
    · exact fun ⟨active, known⟩ => filed.active ledger node known active
  refine ⟨filed.once, fun node => (agree .reached node).trans ?_,
    fun node => (agree .replaced node).trans ?_, fun node => (agree .calls node).trans ?_⟩
  all_goals
    refine and_congr_right fun _ => ?_
    rw [Chart.ledger?, Option.bind_eq_some_iff]
  · simp only [NodeKind.ledger?_eq_reached, exists_eq_right]
  · simp only [NodeKind.ledger?_eq_replaced]
    exact ⟨fun ⟨kind, found, fact, value, same⟩ => ⟨fact, value, same ▸ found⟩,
      fun ⟨fact, value, found⟩ => ⟨_, found, fact, value, rfl⟩⟩
  · simp only [NodeKind.ledger?_eq_calls]
    exact ⟨fun ⟨kind, found, called, same⟩ => ⟨called, same ▸ found⟩,
      fun ⟨called, found⟩ => ⟨_, found, called, rfl⟩⟩

/-- Origins get active as strands are opened there. -/
theorem Offer.manned (offer : Offer engine grants session after) (inv : session.Orderly engine)
    (manned : session.Manned) : after.Manned := by
  cases offer with
  | counted | asked => exact manned
  | @supported node kind support count _ _ _ active =>
      intro other mem
      change (session.addSupport node support).isActive other = true
      rw [Session.isActive_addSupport, manned other mem, Bool.or_true]
  | @opened node kind support count known fit =>
      have new : (session.supply node support count).strands.get?
          ⟨(session.supply node support count).strandCount + 1⟩ = none := inv.toTracked.fresh
      intro other mem
      change other ∈ ((session.supply node support count).openStrand node kind support).nodes at mem
      rw [Session.nodes_openStrand new, List.mem_append, List.mem_singleton] at mem
      rw [Session.isActive, Session.leaveFootprint, Session.activation_openStrand]
      change (session.addSupport node support).isActive other = true
      rw [Session.isActive_addSupport, Bool.or_eq_true, decide_eq_true_eq]
      rcases mem with old | rfl
      · exact .inr (manned other old)
      · exact .inl rfl

namespace Engine

/-- A round that reports no change has found every node active that has an entry. -/
theorem round_manned (compiled : decl.compile = .ok engine.chart) (inv : session.Orderly engine)
    {report : Report} (run : engine.round session = .ok (false, report) after) : after.Manned := by
  obtain ⟨moved, finished, turned, started, first, asked, -, still⟩ := exists_parts_of_round run
  obtain ⟨rfl, -⟩ := Bool.or_eq_false_iff.1 still.symm
  obtain ⟨calms, rests⟩ := turns_quiet compiled inv.filled first
  have manned : Session.Manned { turned with touched := [] } := by
    intro node mem
    obtain ⟨strand, listed, here⟩ := Session.mem_nodes.1 mem
    obtain ⟨entry, entered, rfl⟩ := List.mem_map.1 here
    refine (rests strand listed ?_).active entry entered
    exact List.mem_map_of_mem (calms.strands ▸ listed)
  have heard : Session.Orderly engine { turned with touched := [] } :=
    (orderly_of_turns inv first).fade ⟨rfl, rfl, fun _ _ mem => mem⟩
  exact (keep_of_indicate (fun inv offer => offer.manned inv) heard manned asked).2

theorem accords_of_settled (compiled : decl.compile = .ok engine.chart) (inv : session.Orderly engine)
    (filed : session.Filed engine.chart) {changed : List String} {report : Report}
    (settled : engine.settle changed session = .ok report after) : after.Accords engine.chart := by
  have kept := filed.changes inv
    ((engine.settle_follows engine.sourceGrants_all changed session).steps settled)
  refine kept.2.accords ?_
  cases empty : engine.chart.isEmpty with
  | true =>
      intro node mem
      have served := kept.1.served node mem
      rw [serves, ChartDecl.kind?_of_compile_of_isEmpty compiled empty] at served
      cases served
  | false =>
      obtain ⟨before, latest, orderly, last⟩ := exists_quiet_round empty inv settled
      exact round_manned compiled orderly last

/-- A launch that succeeds has started nothing, or it has settled. -/
theorem exists_parts_of_launch {facts : Facts} {host : σ}
    (launched : engine.launch facts host = .ok session) :
    session = .fresh facts host ∨ ∃ begun report,
      engine.beginAll engine.chart.autostarts (.fresh facts host) = .ok () begun ∧
        engine.settle [] begun = .ok report session := by
  have ran := autostart_of_launch launched
  unfold autostart at ran
  split at ran
  · obtain ⟨u, begun, began, ran⟩ := SessionM.bind_eq_ok.1 ran
    obtain ⟨report, last, settled, ran⟩ := SessionM.bind_eq_ok.1 ran
    cases ran
    exact .inr ⟨begun, report, began, settled⟩
  · cases ran
    exact .inl rfl

/-- Wherever a run has led, whatever failed on the way and whatever the host did with supports, a settling
that succeeds leaves the records in accord with what is active. So does a launch. -/
theorem accords_of_settle (compiled : decl.compile = .ok engine.chart) :
    (∀ facts host session, engine.launch facts host = .ok session → session.Accords engine.chart) ∧
      ∀ facts changed report session after, engine.Reaches (fun _ _ => True) facts session →
        engine.settle changed session = .ok report after → after.Accords engine.chart := by
  constructor
  · intro facts host session launched
    rcases exists_parts_of_launch launched with rfl | ⟨begun, report, began, settled⟩
    · exact (Session.Filed.fresh engine.chart facts host).accords fun _ mem => nomatch mem
    · have granted : ∀ node, (Grants.all : Grants σ).mints node .unconditional := fun _ => trivial
      have offers :=
        (engine.beginAll_follows granted engine.chart.autostarts (.fresh facts host)).steps began
      obtain ⟨inv, filed⟩ := (Session.Filed.fresh engine.chart facts host).changes
        (.fresh engine facts host) (.of_offers offers)
      exact accords_of_settled compiled inv filed settled
  · intro facts changed report session after reached settled
    obtain ⟨inv, filed⟩ := reached.filed
    exact accords_of_settled compiled inv filed settled

end Engine

/-- A start node, an assignment, and a call of a flow that ends at a snapshot. -/
def milestoneDecl : ChartDecl :=
  ⟨[((((FlowDecl.named "Main").addStart "S").addAction "A" (.assign "flag" (.bool true))).addComposed
        "C" "Sub" "T" |>.addEdge "S" "A" none).addEdge "A" "C" none,
    (((FlowDecl.named "Sub").addStart "T").addSnapshot "P").addEdge "T" "P" none], []⟩

def milestoneEngine : Engine Unit := ⟨milestoneDecl.chart, ∅, .silent, .standard⟩

/-- The host has taken the support away that the assignment had for its edge. -/
def milestoneSession : Session Unit :=
  Operation.afterAll milestoneEngine
    [.mint .unconditional, .begin ⟨0⟩ ⟨⟨1⟩, .unconditional⟩, .settle [], .withdraw ⟨1⟩ ⟨2⟩]
    (milestoneEngine.opened ∅ ())

theorem accords_of_settle_milestone :
    ((Operation.settle []).after milestoneEngine milestoneSession).Accords milestoneEngine.chart := by
  have compiled : milestoneDecl.compile = .ok milestoneDecl.chart :=
    milestoneDecl.compile_of_isOk (by decide +kernel)
  have opened : milestoneEngine.Reaches (fun _ _ => True) ∅ (milestoneEngine.opened ∅ ()) :=
    .opened (by decide +kernel)
  have reached : milestoneEngine.Reaches (fun _ _ => True) ∅ milestoneSession :=
    opened.afterAll ⟨trivial, trivial, trivial, trivial, trivial⟩
  obtain ⟨report, settled⟩ := Operation.exists_report_of_succeeds
    (show (Operation.settle []).succeeds milestoneEngine milestoneSession = true by decide +kernel)
  exact (Engine.accords_of_settle compiled).2 ∅ [] report milestoneSession _ reached settled

end Fixpoint

end Flowchart
