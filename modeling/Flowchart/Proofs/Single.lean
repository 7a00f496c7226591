import Flowchart.Proofs.Compile
import Flowchart.Proofs.Orderly

/-!
No node acts twice at a time. An action or composed node is active only through the edges that lead to
it, and the first of these lets it join a strand; so it has one entry while it is active and none
otherwise. In between, while a strand is collapsed, it may have lost its supports and still wait there
to be undone.
-/
namespace Flowchart

variable {σ : Type} {engine : Engine σ} {grants : Grants σ}

/-- The deed of a node that a footprint tells of, if it was completed. -/
def Footprint.deed? (node : NodeRef) : Footprint → Option Deed
  | .acted other deed true => if other = node then some deed else none
  | _ => none

/-- The completed deeds of a node along a trail, oldest first. -/
def Footprint.deeds (node : NodeRef) (trail : List Footprint) : List Deed :=
  trail.reverse.filterMap (Footprint.deed? node)

def Session.deeds (session : Session σ) (node : NodeRef) : List Deed := Footprint.deeds node session.trail

/-- So many deeds in turn, the first of them a performance. -/
def Deed.alternating (length : Nat) : List Deed :=
  (List.range length).map fun turn => if turn % 2 = 0 then .perform else .revert

theorem Deed.alternating_succ (length : Nat) :
    Deed.alternating (length + 1) =
      Deed.alternating length ++ [if length % 2 = 0 then .perform else .revert] := by
  rw [alternating, List.range_succ, List.map_append]
  rfl

theorem Footprint.deeds_cons (footprint : Footprint) (trail : List Footprint) (node : NodeRef) :
    Footprint.deeds node (footprint :: trail) =
      Footprint.deeds node trail ++ (footprint.deed? node).toList := by
  rw [deeds, List.reverse_cons, List.filterMap_append]
  cases told : footprint.deed? node <;> simp [told, deeds]

theorem Footprint.deed?_of_ne {acted node : NodeRef} (apart : acted ≠ node) (deed : Deed)
    (completed : Bool) : (Footprint.acted acted deed completed).deed? node = none := by
  cases completed with
  | false => rfl
  | true => exact if_neg apart

theorem Footprint.deeds_cons_of_silent {footprint : Footprint} {trail : List Footprint} {node : NodeRef}
    (silent : footprint.deed? node = none) :
    Footprint.deeds node (footprint :: trail) = Footprint.deeds node trail := by
  rw [deeds_cons, silent, Option.toList_none, List.append_nil]

theorem Footprint.deeds_acted_self (node : NodeRef) (deed : Deed) (trail : List Footprint) :
    Footprint.deeds node (.acted node deed true :: trail) = Footprint.deeds node trail ++ [deed] := by
  rw [deeds_cons, deed?, if_pos rfl, Option.toList_some]

/-- The node was performed and reverted in turn along the trail. -/
def Footprint.Alternate (node : NodeRef) (trail : List Footprint) : Prop :=
  Footprint.deeds node trail = Deed.alternating (Footprint.deeds node trail).length

theorem Deed.alternating_of_append {deeds : List Deed} {deed : Deed}
    (alternate : deeds ++ [deed] = Deed.alternating (deeds ++ [deed]).length) :
    deeds = Deed.alternating deeds.length ∧ deed = if deeds.length % 2 = 0 then .perform else .revert := by
  rw [List.length_append, List.length_singleton, Deed.alternating_succ] at alternate
  obtain ⟨same, last⟩ := List.append_inj' alternate rfl
  exact ⟨same, List.head_eq_of_cons_eq last⟩

namespace Footprint.Alternate

variable {node : NodeRef} {footprint : Footprint} {trail : List Footprint}

theorem tail (alternate : Alternate node (footprint :: trail)) : Alternate node trail := by
  unfold Alternate at alternate
  rw [deeds_cons] at alternate
  cases told : footprint.deed? node with
  | none =>
      rw [told, Option.toList_none, List.append_nil] at alternate
      exact alternate
  | some deed =>
      rw [told, Option.toList_some] at alternate
      exact (Deed.alternating_of_append alternate).1

theorem even_of_perform (alternate : Alternate node (.acted node .perform true :: trail)) :
    (deeds node trail).length % 2 = 0 := by
  unfold Alternate at alternate
  rw [deeds_acted_self] at alternate
  have turn := (Deed.alternating_of_append alternate).2
  by_contra odd
  rw [if_neg odd] at turn
  cases turn

theorem odd_of_revert (alternate : Alternate node (.acted node .revert true :: trail)) :
    (deeds node trail).length % 2 = 1 := by
  unfold Alternate at alternate
  rw [deeds_acted_self] at alternate
  have turn := (Deed.alternating_of_append alternate).2
  by_contra even
  rw [if_pos (by omega)] at turn
  cases turn

end Footprint.Alternate

theorem Session.deeds_leaveFootprint (session : Session σ) (footprint : Footprint) (node : NodeRef) :
    (session.leaveFootprint footprint).deeds node =
      session.deeds node ++ (footprint.deed? node).toList :=
  Footprint.deeds_cons footprint session.trail node

/-- The session tells the same about the node. -/
structure Session.Alike (node : NodeRef) (session after : Session σ) : Prop where
  count : after.nodes.count node = session.nodes.count node
  active : after.isActive node = session.isActive node
  deeds : after.deeds node = session.deeds node

/-- The node has one entry if it is active and none otherwise, apart from entries due to be undone,
and has acted so far as if it had been switched on and off in turn. -/
structure Session.Single (node : NodeRef) (due : Nat) (session : Session σ) : Prop where
  counted : session.nodes.count node = (if session.isActive node then 1 else 0) + due
  once : session.nodes.count node ≤ 1
  alternate : session.deeds node = Deed.alternating (session.deeds node).length
  parity : (session.deeds node).length % 2 = session.nodes.count node

namespace Session

variable {node : NodeRef} {session between after : Session σ}

namespace Alike

theorem refl (session : Session σ) : session.Alike node session := ⟨rfl, rfl, rfl⟩

theorem trans (first : session.Alike node between) (second : between.Alike node after) :
    session.Alike node after :=
  ⟨second.count.trans first.count, second.active.trans first.active, second.deeds.trans first.deeds⟩

theorem addSupport {other : NodeRef} (apart : other ≠ node) (support : Support) :
    session.Alike node (session.addSupport other support) where
  count := rfl
  active := by rw [isActive_addSupport, decide_eq_false apart, Bool.false_or]
  deeds := rfl

/-- Nothing tells of a further support of a node that was active before. -/
theorem addSupport_of_active {other : NodeRef} (active : session.isActive other = true)
    (support : Support) : session.Alike node (session.addSupport other support) where
  count := rfl
  active := by
    rw [isActive_addSupport]
    by_cases same : other = node
    · rw [← same, active, Bool.or_true]
    · rw [decide_eq_false same, Bool.false_or]
  deeds := rfl

theorem merging {target : NodeRef} (active : session.isActive target = true) (ref : EdgeRef) :
    session.Alike node (session.merging ref target) := by
  have counted : session.Alike node session.countSupport := ⟨rfl, rfl, rfl⟩
  have still : session.countSupport.isActive target = true := active
  exact counted.trans (.addSupport_of_active still (session.nextSupport (.edge ref)))

theorem supply {other : NodeRef} (apart : other ≠ node) (support : Support) (count : Nat) :
    session.Alike node (session.supply other support count) := by
  have added : (session.recount count).Alike node (session.supply other support count) :=
    .addSupport apart support
  exact ⟨added.count, added.active, added.deeds⟩

theorem leaveFootprint {footprint : Footprint} (silent : footprint.deed? node = none) :
    session.Alike node (session.leaveFootprint footprint) where
  count := rfl
  active := rfl
  deeds := by rw [deeds_leaveFootprint, silent, Option.toList_none, List.append_nil]

theorem openStrand {other : NodeRef} (apart : other ≠ node) (kind : NodeKind) (support : Support)
    (new : session.strands.get? ⟨session.strandCount + 1⟩ = none) :
    session.Alike node (session.openStrand other kind support) where
  count := by
    have absent : [other].count node = 0 :=
      List.count_eq_zero.2 fun mem => apart (List.mem_singleton.1 mem).symm
    rw [nodes_openStrand new, List.count_append, absent, Nat.add_zero]
  active := by rw [isActive, activation_openStrand, isActive]
  deeds := by
    obtain ⟨snapshots, opened⟩ := session.openStrand_eq other kind support
    have told := session.deeds_leaveFootprint (.acted other .perform true) node
    rw [Footprint.deed?_of_ne apart, Option.toList_none, List.append_nil] at told
    rw [opened]
    exact told

end Alike

theorem Single.congr {due : Nat} (single : session.Single node due) (alike : session.Alike node after) :
    after.Single node due where
  counted := by rw [alike.count, alike.active, single.counted]
  once := alike.count ▸ single.once
  alternate := alike.deeds ▸ single.alternate
  parity := by rw [alike.count, alike.deeds, single.parity]

/-- The node has joined a strand. -/
theorem Single.join (single : session.Single node 0) (idle : session.isActive node = false)
    (count : after.nodes.count node = session.nodes.count node + 1)
    (active : after.isActive node = true) (deeds : after.deeds node = session.deeds node ++ [.perform]) :
    after.Single node 0 := by
  have absent : session.nodes.count node = 0 := by
    rw [single.counted, idle]
    rfl
  have even := single.parity
  rw [absent] at even
  constructor
  · rw [count, absent, active]
    rfl
  · rw [count, absent]
  · rw [deeds, List.length_append, List.length_singleton, Deed.alternating_succ, if_pos even,
      ← single.alternate]
  · rw [deeds, List.length_append, List.length_singleton, count, absent]
    omega

/-- An entry of the node that was due to be undone has left its strand. -/
theorem Single.leave {due : Nat} (single : session.Single node (due + 1))
    (count : after.nodes.count node + 1 = session.nodes.count node)
    (active : after.isActive node = session.isActive node)
    (deeds : after.deeds node = session.deeds node ++ [.revert]) : after.Single node due := by
  have counted := single.counted
  have once := single.once
  have odd := single.parity
  have alone : session.nodes.count node = 1 := by omega
  rw [alone] at odd
  have turn : ¬(session.deeds node).length % 2 = 0 := by omega
  constructor
  · rw [active]
    omega
  · omega
  · rw [deeds, List.length_append, List.length_singleton, Deed.alternating_succ, if_neg turn,
      ← single.alternate]
  · rw [deeds, List.length_append, List.length_singleton]
    omega

end Session

/-- Strands begin elsewhere than at this node. -/
def Chart.isInner (chart : Chart) (node : NodeRef) : Bool :=
  (chart.kind? node).any fun kind => !kind.isOrigin

theorem Chart.ne_of_isInner {chart : Chart} {node origin : NodeRef} {kind : NodeKind}
    (inner : chart.isInner node = true) (known : chart.kind? origin = some kind)
    (fit : kind.isOrigin = true) : origin ≠ node := by
  rintro rfl
  simp [Chart.isInner, known, fit] at inner

/-- Composed nodes are on record for calls of origins alone. -/
def Session.Linked (chart : Chart) (session : Session σ) : Prop :=
  ∀ composed record, session.calls.at? composed = some record →
    (chart.kind? record.1).any NodeKind.isOrigin = true

section Inner

variable {node acted : NodeRef} {session after : Session σ}

theorem Performs.alike (performs : Performs engine acted session after)
    (inner : engine.chart.isInner node = true)
    (new : session.strands.get? ⟨session.strandCount + 1⟩ = none) : session.Alike node after := by
  cases performs with
  | started | idled => exact .refl session
  | reached | assigned => exact ⟨rfl, rfl, rfl⟩
  | invoked reacts =>
      obtain ⟨facts, host, rfl⟩ := reacts.exists_eq
      exact ⟨rfl, rfl, rfl⟩
  | @called called origin kind known fit =>
      have apart := Chart.ne_of_isInner inner known fit
      have given : session.Alike node
          (session.countSupport.addSupport called (session.nextSupport (.caller acted))) :=
        ⟨rfl, (Session.Alike.addSupport apart (session.nextSupport (.caller acted))).active, rfl⟩
      have opened := given.trans (.openStrand apart origin (session.nextSupport (.caller acted)) new)
      exact ⟨opened.count, opened.active, opened.deeds⟩

theorem Performs.linked (performs : Performs engine acted session after)
    (linked : session.Linked engine.chart) : after.Linked engine.chart := by
  cases performs with
  | started | idled | reached | assigned => exact linked
  | invoked reacts =>
      obtain ⟨facts, host, rfl⟩ := reacts.exists_eq
      exact linked
  | @called called origin kind known fit =>
      intro composed record listed
      obtain ⟨snapshots, opened⟩ := Session.openStrand_eq
        (session.countSupport.addSupport called (session.nextSupport (.caller acted))) called origin
        (session.nextSupport (.caller acted))
      rw [Session.calling, opened, Session.recordCall, Listing.at?_set] at listed
      split at listed
      · cases listed
        simp only [known, Option.any_some, fit]
      · exact linked composed record listed

theorem Session.Linked.endCall (linked : session.Linked engine.chart) (composed : NodeRef) :
    (session.endCall composed).Linked engine.chart := by
  unfold Session.endCall
  cases session.calls.at? composed with
  | none => exact linked
  | some record =>
      intro other kept listed
      rw [Listing.at?_erase] at listed
      split at listed
      · cases listed
      · exact linked other kept listed

theorem Session.Alike.endCall (linked : session.Linked engine.chart)
    (inner : engine.chart.isInner node = true) (composed : NodeRef) :
    session.Alike node (session.endCall composed) := by
  unfold Session.endCall
  cases listed : session.calls.at? composed with
  | none => exact .refl session
  | some record =>
      obtain ⟨called, id⟩ := record
      obtain ⟨kind, known, fit⟩ := (Option.any_eq_true _ _).1 (linked composed _ listed)
      refine ⟨rfl, ?_, rfl⟩
      exact Activation.isActive_remove_of_ne id (Chart.ne_of_isInner inner known fit)

theorem Reverts.alike (reverts : Reverts engine acted session after)
    (linked : session.Linked engine.chart) (inner : engine.chart.isInner node = true) :
    session.Alike node after := by
  cases reverts with
  | started | idled => exact .refl session
  | reached => exact ⟨rfl, rfl, rfl⟩
  | assigned =>
      unfold Session.unassign
      split
      · exact .refl session
      · exact ⟨rfl, rfl, rfl⟩
  | invoked reacts =>
      obtain ⟨facts, host, rfl⟩ := reacts.exists_eq
      exact ⟨rfl, rfl, rfl⟩
  | called => exact .endCall linked inner acted

theorem Reverts.linked (reverts : Reverts engine acted session after)
    (linked : session.Linked engine.chart) : after.Linked engine.chart := by
  cases reverts with
  | started | idled | reached => exact linked
  | assigned =>
      unfold Session.unassign
      split
      · exact linked
      · exact linked
  | invoked reacts =>
      obtain ⟨facts, host, rfl⟩ := reacts.exists_eq
      exact linked
  | called => exact linked.endCall acted

end Inner

/-- How many entries of the node are marked to be undone. -/
def due (node : NodeRef) (marks : List (Entry × Bool)) : Nat :=
  marks.countP fun mark => !mark.2 && decide (mark.1.node = node)

theorem due_append (node : NodeRef) (before after : List (Entry × Bool)) :
    due node (before ++ after) = due node before + due node after := List.countP_append

theorem due_cons (node : NodeRef) (mark : Entry × Bool) (rest : List (Entry × Bool)) :
    due node (mark :: rest) = due node rest + if !mark.2 && decide (mark.1.node = node) then 1 else 0 :=
  List.countP_cons

theorem due_eq_zero_of_all {node : NodeRef} {marks : List (Entry × Bool)}
    (kept : ∀ mark ∈ marks, mark.2 = true) : due node marks = 0 := by
  refine List.countP_eq_zero.2 fun mark mem => ?_
  rw [kept mark mem]
  exact Bool.false_ne_true

theorem due_eq_zero_of_not_mem {chart : Chart} {facts : Facts} {table : Activation}
    {entries : List Entry} {node : NodeRef} (absent : node ∉ entries.map Entry.node) :
    due node (sweepEntries chart facts table entries).1 = 0 := by
  refine List.countP_eq_zero.2 fun mark mem => ?_
  have listed := List.mem_map_of_mem mem (f := Prod.fst)
  rw [map_fst_sweepEntries] at listed
  have apart : mark.1.node ≠ node := fun same => absent (List.mem_map.2 ⟨mark.1, listed, same⟩)
  simp [apart]

/-- A node with one entry at most that loses its activity to a sweep is due to be undone. -/
theorem isActive_eq_add_due (chart : Chart) (facts : Facts) {table : Activation} {entries : List Entry}
    {node : NodeRef} (once : (entries.map Entry.node).count node ≤ 1)
    (active : node ∈ entries.map Entry.node → table.isActive node = true) :
    (if table.isActive node then 1 else 0) =
      (if (sweepEntries chart facts table entries).2.isActive node then 1 else 0) +
        due node (sweepEntries chart facts table entries).1 := by
  induction entries generalizing table with
  | nil => rfl
  | cons entry rest ih =>
      rw [sweepEntries_cons, due_cons]
      rw [List.map_cons, List.count_cons] at once
      by_cases same : entry.node = node
      · subst same
        have absent : entry.node ∉ rest.map Entry.node := by
          refine List.count_eq_zero.1 ?_
          rw [if_pos (beq_self_eq_true _)] at once
          omega
        have kept : (sweepEntries chart facts (table.sweep chart facts entry.node) rest).2.isActive
            entry.node = (table.sweep chart facts entry.node).isActive entry.node :=
          Activation.isActive_congr (mem_sweepEntries_of_not_mem absent)
        rw [due_eq_zero_of_not_mem absent, kept, active (List.mem_cons_self ..)]
        cases (table.sweep chart facts entry.node).isActive entry.node with
        | true | false => simp
      · have unswept : (table.sweep chart facts entry.node).isActive node = table.isActive node :=
          Activation.isActive_congr fun support => by simp [Activation.mem_sweep, same]
        rw [if_neg fun equal => same (beq_iff_eq.1 equal)] at once
        have later := ih once fun mem => unswept.trans (active (List.mem_cons_of_mem _ mem))
        rw [unswept] at later
        rw [later]
        simp [same]

namespace Session

/-- Every inner node has an entry while it is active and none otherwise. -/
structure Unrepeated (engine : Engine σ) (session : Session σ) : Prop
    extends session.Orderly engine where
  linked : session.Linked engine.chart
  single : ∀ node, engine.chart.isInner node = true → session.Single node 0

variable {session after : Session σ} {node : NodeRef} {id : StrandId}

theorem count_entries_le (session : Session σ) (id : StrandId) (node : NodeRef) :
    ((session.entries id).map Entry.node).count node ≤ session.nodes.count node := by
  rw [← session.count_nodes_dropStrand id node]
  exact Nat.le_add_left _ _

theorem Single.swept {chart : Chart} (single : session.Single node 0) (id : StrandId) :
    (session.swept chart id).Single node (due node (session.verdicts chart id)) where
  counted := by
    have within := session.count_entries_le id node
    have active : node ∈ (session.entries id).map Entry.node → session.isActive node = true := by
      intro mem
      have listed := (List.count_pos_iff.2 mem).trans_le within
      rw [single.counted] at listed
      by_contra idle
      rw [if_neg idle] at listed
      exact Nat.lt_irrefl 0 listed
    exact single.counted.trans
      (isActive_eq_add_due chart session.facts (within.trans single.once) active)
  once := single.once
  alternate := single.alternate
  parity := single.parity

theorem due_undo (node : NodeRef) (before rest : List (Entry × Bool)) (entry : Entry) :
    due node (before ++ (entry, false) :: rest) =
      due node (before ++ rest) + if entry.node = node then 1 else 0 := by
  rw [due_append, due_append, due_cons]
  simp only [Bool.not_false, Bool.true_and, decide_eq_true_eq]
  omega

/-- An entry that is undone is not due any more. -/
theorem Single.undo {before rest : List (Entry × Bool)} {entry : Entry} {reverted : Session σ}
    (single : session.Single node (due node (before ++ (entry, false) :: rest)))
    (underway : session.Underway engine id (before ++ (entry, false) :: rest))
    (reverts : Reverts engine entry.node (session.removeSupport entry.node entry.support.id) reverted)
    (alike : (session.removeSupport entry.node entry.support.id).Alike node reverted) :
    ((reverted.leaveFootprint (.acted entry.node .revert true)).putStrand
      ⟨id, (before ++ rest).map Prod.fst⟩).Single node (due node (before ++ rest)) := by
  have idle := underway.idle entry (List.mem_append_right _ (List.mem_cons_self ..))
  have removed : session.Alike node (session.removeSupport entry.node entry.support.id) :=
    ⟨rfl, Activation.isActive_remove_of_inactive _ idle node, rfl⟩
  have undone := removed.trans alike
  have counted := underway.count_nodes_undo reverts node
  have told := reverted.deeds_leaveFootprint (.acted entry.node .revert true) node
  rw [due_undo] at single
  by_cases same : entry.node = node
  · rw [if_pos same] at single counted
    rw [Footprint.deed?, if_pos same, Option.toList_some, undone.deeds] at told
    exact single.leave counted undone.active told
  · rw [if_neg same] at single counted
    rw [Footprint.deed?_of_ne same, Option.toList_none, List.append_nil, undone.deeds] at told
    exact single.congr ⟨counted, undone.active, told⟩

/-- While a strand is collapsed, the entries that are due make up for the activity that is lost. -/
theorem Unrepeated.collapsing (inv : session.Unrepeated engine)
    (live : session.strands.contains id = true) {now : List (Entry × Bool) × Session σ}
    (collapsing : Collapsing engine id session now) :
    now.2.Linked engine.chart ∧
      ∀ node, engine.chart.isInner node = true → now.2.Single node (due node now.1) := by
  induction collapsing with
  | refl => exact ⟨inv.linked, fun node inner => (inv.single node inner).swept id⟩
  | tail first step ih =>
      -- The marked nodes are inactive, so the supports taken back with them change no activity.
      have underway := Underway.collapsing inv.toOrderly live first
      obtain ⟨linked, single⟩ := ih
      cases step with
      | entry reverts =>
          refine ⟨reverts.linked linked, ?_⟩
          intro node inner
          exact (single node inner).undo underway reverts (reverts.alike linked inner)

theorem Alike.tidy (session : Session σ) (id : StrandId) (node : NodeRef) :
    session.Alike node (session.tidy id) := by
  by_cases empty : session.entries id = []
  · have dropped := session.count_nodes_dropStrand id node
    rw [empty] at dropped
    rw [Session.tidy, empty, List.isEmpty_nil, if_pos rfl]
    exact ⟨dropped, rfl, rfl⟩
  · rw [Session.tidy_of_ne_nil empty]
    exact .refl session

/-- The target of an edge joins a strand and acts. -/
theorem Single.joined {ref : EdgeRef} {target : NodeRef} (single : session.Single node 0)
    (idle : session.isActive target = false)
    (acts : (session.joining id ref target).Alike node after) :
    (after.leaveFootprint (.acted target .perform true)).Single node 0 := by
  have count := acts.count.trans (session.count_nodes_joining id ref target node)
  have active := acts.active.trans (session.isActive_joining id ref target node)
  have told := after.deeds_leaveFootprint (.acted target .perform true) node
  rw [acts.deeds] at told
  by_cases same : target = node
  · subst same
    rw [if_pos rfl] at count
    rw [decide_eq_true rfl, Bool.true_or] at active
    rw [Footprint.deed?, if_pos rfl, Option.toList_some] at told
    exact single.join idle count active told
  · rw [if_neg same] at count
    rw [decide_eq_false same, Bool.false_or] at active
    rw [Footprint.deed?_of_ne same, Option.toList_none, List.append_nil] at told
    exact single.congr ⟨count, active, told⟩

theorem Linked.of_calls {chart : Chart} (linked : session.Linked chart)
    (same : after.calls = session.calls) : after.Linked chart := by
  intro composed record listed
  rw [same] at listed
  exact linked composed record listed

theorem calls_openStrand (session : Session σ) (node : NodeRef) (kind : NodeKind) (support : Support) :
    (session.openStrand node kind support).calls = session.calls := by
  obtain ⟨snapshots, opened⟩ := session.openStrand_eq node kind support
  rw [opened]

theorem calls_tidy (session : Session σ) (id : StrandId) :
    (session.tidy id).calls = session.calls := by
  unfold Session.tidy
  split <;> rfl

end Session

section Changes

variable {session after : Session σ} {node : NodeRef}

theorem Move.linked (move : Move engine session after) (inv : session.Unrepeated engine) :
    after.Linked engine.chart := by
  cases move with
  | merged => exact inv.linked
  | collapsed live collapsing =>
      exact (inv.collapsing live collapsing).1.of_calls (Session.calls_tidy _ _)
  | joined next idle performs => exact performs.linked inv.linked

theorem Offer.calls_eq (offer : Offer engine grants session after) : after.calls = session.calls := by
  cases offer with
  | counted | asked | supported => rfl
  | @opened origin kind support count =>
      exact Session.calls_openStrand (session.supply origin support count) origin kind support

theorem Move.single (move : Move engine session after) (inv : session.Unrepeated engine)
    (inner : engine.chart.isInner node = true) : after.Single node 0 := by
  cases move with
  | @collapsed after id kept live collapsing settled =>
      have collapsed := (inv.collapsing live collapsing).2 node inner
      rw [due_eq_zero_of_all settled] at collapsed
      exact collapsed.congr (.tidy after id node)
  | @merged id ref edge next active => exact (inv.single node inner).congr (.merging active ref)
  | @joined acted id ref edge next idle performs =>
      have live := engine.live_of_nextEdge? next
      have new := (inv.toOrderly.joining live performs.serves ref).toTracked.fresh
      exact (inv.single node inner).joined idle (performs.alike inner new)

/-- Supporting origins does nothing to an inner node. -/
theorem Offer.alike (offer : Offer engine grants session after) (inv : session.Tracked engine)
    (inner : engine.chart.isInner node = true) : session.Alike node after := by
  cases offer with
  | counted | asked => exact ⟨rfl, rfl, rfl⟩
  | @supported origin kind support count known fit =>
      exact (Session.Alike.supply (Chart.ne_of_isInner inner known fit) support count).trans
        (.leaveFootprint rfl)
  | @opened origin kind support count known fit =>
      have apart := Chart.ne_of_isInner inner known fit
      have new : (session.supply origin support count).strands.get?
          ⟨(session.supply origin support count).strandCount + 1⟩ = none := inv.fresh
      have opens := (Session.Alike.supply apart support count).trans
        (.openStrand apart kind support new)
      exact opens.trans (.leaveFootprint rfl)

theorem Change.unrepeated (change : Change engine grants session after)
    (inv : session.Unrepeated engine) : after.Unrepeated engine := by
  cases change with
  | moved move =>
      exact { move.orderly inv.toOrderly with
        linked := move.linked inv
        single := fun _ inner => move.single inv inner }
  | offered offer =>
      exact { offer.orderly inv.toOrderly with
        linked := inv.linked.of_calls offer.calls_eq
        single := fun node inner =>
          (inv.single node inner).congr (offer.alike inv.toTracked inner) }
  | heard =>
      exact { inv.toOrderly.fade ⟨rfl, rfl, fun _ _ mem => mem⟩ with
        linked := inv.linked
        single := fun node inner => (inv.single node inner).congr ⟨rfl, rfl, rfl⟩ }

end Changes

/-- A node that could not act is back where it was. -/
theorem Session.Unrepeated.parting {session after : Session σ} {id : StrandId} {ref : EdgeRef}
    {target : NodeRef} (inv : session.Unrepeated engine)
    (live : session.strands.contains id = true) (idle : session.isActive target = false)
    (refuses : Refuses engine target .perform (session.joining id ref target) after) :
    ((after.leaveFootprint (.acted target .perform false)).parting session id target).Unrepeated
      engine := by
  have fades := Session.parting_fades live refuses (.acted target .perform false)
  refine { inv.toOrderly.fade fades with linked := ?_, single := ?_ }
  · obtain ⟨facts, host, count, rfl⟩ := refuses.exists_eq
    exact inv.linked
  · intro node inner
    refine (inv.single node inner).congr ⟨by rw [fades.nodes], ?_, ?_⟩
    · by_cases same : target = node
      · subst same
        rw [idle, Bool.eq_false_iff]
        exact fun active => Bool.false_ne_true (idle.symm.trans (fades.active target active))
      · obtain ⟨facts, host, count, rfl⟩ := refuses.exists_eq
        refine (Activation.isActive_remove_of_ne _ same).trans ?_
        have joined := Activation.isActive_add session.activation target node
          (session.nextSupport (.edge ref))
        rw [decide_eq_false same, Bool.false_or] at joined
        exact joined
    · obtain ⟨facts, host, count, rfl⟩ := refuses.exists_eq
      have silent : (Footprint.acted target .perform false).deed? node = none := rfl
      have told := session.deeds_leaveFootprint (.acted target .perform false) node
      rw [silent, Option.toList_none, List.append_nil] at told
      exact told

/-- Tells of an action that could not be undone. -/
def Footprint.isStuck : Footprint → Bool
  | .acted _ .revert false => true
  | _ => false

def Operation.isWithdraw : Operation σ → Bool
  | .withdraw _ _ => true
  | _ => false

/-- The operation takes no support away, and no action has failed to be undone up to its end. -/
structure Operation.Gentle (engine : Engine σ) (session : Session σ) (operation : Operation σ) :
    Prop where
  keeps : operation.isWithdraw = false
  undoes : ∀ footprint ∈ (operation.after engine session).trail, footprint.isStuck = false

/-- An operation that takes nothing away and undoes all it has to can break off at a join alone. -/
theorem Operation.Gentle.exists_join {operation : Operation σ} {session between after : Session σ}
    {fault : Fault} (gentle : operation.Gentle engine session)
    (ran : operation.run engine session = .error fault after) (broke : Break engine between after) :
    ∃ id ref edge left, engine.nextEdge? between id = some (ref, edge) ∧
      between.isActive edge.target = false ∧
      Refuses engine edge.target .perform (between.joining id ref edge.target) left ∧
      after = (left.leaveFootprint (.acted edge.target .perform false)).parting between id
        edge.target := by
  cases broke with
  | collapse live collapsing refuses =>
      -- An undo was refused here, and its footprint is still there when the operation ends.
      have undone := gentle.undoes
      unfold Operation.after at undone
      rw [ran] at undone
      cases undone _ (List.mem_cons_self ..)
  | join next idle refuses => exact ⟨_, _, _, _, next, idle, refuses, rfl⟩

theorem Session.Unrepeated.fresh (engine : Engine σ) (facts : Facts) (host : σ) :
    (Session.fresh facts host).Unrepeated engine :=
  { Session.Orderly.fresh engine facts host with
    linked := fun _ _ listed => nomatch listed
    single := fun _ _ => ⟨rfl, Nat.zero_le _, rfl, rfl⟩ }

theorem Session.Unrepeated.rewrite {session : Session σ} (inv : session.Unrepeated engine)
    (facts : Facts) (host : σ) :
    Session.Unrepeated engine { session with facts := facts, host := host } := by
  have same : session.Fades { session with facts := facts, host := host } :=
    ⟨rfl, rfl, fun _ _ mem => mem⟩
  exact { inv.toOrderly.fade same with
    linked := inv.linked
    single := fun node inner => (inv.single node inner).congr ⟨rfl, rfl, rfl⟩ }

theorem Engine.Reaches.unrepeated {facts : Facts} {session : Session σ}
    (reached : engine.Reaches (Operation.Gentle engine) facts session) :
    session.Unrepeated engine := by
  refine Engine.Reaches.invariant_all ?_ ?_ ?_ ?_ ?_ reached
  · exact .fresh engine facts
  · exact fun inv change => change.unrepeated inv
  · intro operation session fault between after gentle ran inv broke
    obtain ⟨id, ref, edge, left, next, idle, refuses, rfl⟩ := gentle.exists_join ran broke
    exact inv.parting (engine.live_of_nextEdge? next) idle refuses
  · intro session node id gentle _
    cases gentle.keeps
  · exact fun _ inv => inv.rewrite _ _

/-- As long as the host takes no support away and undoes what it is told to undo, an action or
composed node has one entry while it is active and none otherwise, and acts and is undone in turn. -/
theorem Engine.Reaches.single_and_alternating {facts : Facts} {session : Session σ}
    (reached : engine.Reaches (Operation.Gentle engine) facts session) {node : NodeRef}
    (kind : (∃ action, engine.chart.kind? node = some (.action action)) ∨
      ∃ called, engine.chart.kind? node = some (.composed called)) :
    session.nodes.count node = (if session.isActive node then 1 else 0) ∧
      session.deeds node = Deed.alternating (session.deeds node).length := by
  have inner : engine.chart.isInner node = true := by
    rcases kind with ⟨action, known⟩ | ⟨called, known⟩ <;> rw [Chart.isInner, known] <;> rfl
  have single := reached.unrepeated.single node inner
  exact ⟨single.counted, single.alternate⟩

/-- While a fact is known a lamp is lit by the host. -/
def lampDecl : ChartDecl :=
  ⟨[((FlowDecl.named "Main").addStart "S").addAction "A" (.invoke "light")
      |>.addEdge "S" "A" none],
    [⟨"go", "Main", "S", .known "q"⟩]⟩

/-- The lamp can be lit and put out at any time. -/
def lampHandler : Handler Bool :=
  ⟨fun _ facts _ => ⟨facts, true, none⟩, fun _ facts _ => ⟨facts, false, none⟩⟩

def lampEngine : Engine Bool :=
  ⟨lampDecl.chart, Listing.set ∅ "light" lampHandler, .triggers, .standard⟩

def lampOperations : List (Operation Bool) :=
  [.rewrite (Facts.put ∅ "q" (some .unknown)) false, .settle ["q"], .rewrite ∅ true, .settle ["q"],
    .rewrite (Facts.put ∅ "q" (some .unknown)) false, .settle ["q"]]

theorem single_and_alternating_lamp :
    (Operation.afterAll lampEngine lampOperations (lampEngine.opened ∅ false)).deeds ⟨1⟩ =
      [.perform, .revert, .perform] := by
  have opened : lampEngine.Reaches (Operation.Gentle lampEngine) ∅ (lampEngine.opened ∅ false) :=
    .opened (by decide +kernel)
  have reached : lampEngine.Reaches (Operation.Gentle lampEngine) ∅
      (Operation.afterAll lampEngine lampOperations (lampEngine.opened ∅ false)) :=
    opened.afterAll ⟨⟨rfl, by decide +kernel⟩, ⟨rfl, by decide +kernel⟩, ⟨rfl, by decide +kernel⟩,
      ⟨rfl, by decide +kernel⟩, ⟨rfl, by decide +kernel⟩, ⟨rfl, by decide +kernel⟩, trivial⟩
  have known : lampEngine.chart.kind? ⟨1⟩ = some (.action (.invoke "light")) := by decide +kernel
  have length : ((Operation.afterAll lampEngine lampOperations
      (lampEngine.opened ∅ false)).deeds ⟨1⟩).length = 3 := by decide +kernel
  rw [(Engine.Reaches.single_and_alternating reached (.inl ⟨_, known⟩)).2, length]
  rfl

end Flowchart
