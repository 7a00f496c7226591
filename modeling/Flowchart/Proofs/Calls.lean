import Flowchart.Proofs.Provenance
import Flowchart.Proofs.Single

/-!
Calls. A composed node calls a start node when it joins a strand and ends the call when it leaves: as
long as it is active there is one support that came from the call, held by the node it calls, and the
record of the call names it; otherwise there is neither. In between, while a strand is collapsed, the
support of a call may be gone before the call is ended.
-/
namespace Flowchart

variable {σ : Type} {engine : Engine σ} {chart : Chart}

namespace Session

variable {session after : Session σ}

/-- Supports that came from calls are on record, calls are on record for composed nodes with an entry,
and an active composed node has its call on record and the support of it in place. -/
structure Matched (chart : Chart) (session : Session σ) : Prop where
  recorded : ∀ node, ∀ support ∈ (session.activation.supports node).items, ∀ composed,
    support.basis = .caller composed → session.calls.at? composed = some (node, support.id)
  entered : ∀ composed record, session.calls.at? composed = some record →
    chart.kind? composed = some (.composed record.1) ∧ composed ∈ session.nodes
  held : ∀ composed called, chart.kind? composed = some (.composed called) →
    session.isActive composed = true →
      ∃ id, session.calls.at? composed = some (called, id) ∧
        ⟨id, .caller composed⟩ ∈ (session.activation.supports called).items

/-- A support with the number that is on record for a call came from that call. -/
def Owned (session : Session σ) : Prop :=
  ∀ composed record, session.calls.at? composed = some record →
    ∀ support ∈ (session.activation.supports record.1).items, support.id = record.2 →
      support.basis = .caller composed

theorem Owned.below (owned : session.Owned)
    (calls : ∀ composed record, after.calls.at? composed = some record →
      session.calls.at? composed = some record)
    (below : after.activation.Below session.activation) : after.Owned :=
  fun composed record listed support mem =>
    owned composed record (calls composed record listed) support (below record.1 support mem)

namespace Matched

/-- What is matched stays so as long as the calls and the table stay and no caller on record loses its
entries. -/
theorem congr (matched : session.Matched chart) (calls : after.calls = session.calls)
    (nodes : ∀ composed, session.calls.at? composed ≠ none → composed ∈ session.nodes →
      composed ∈ after.nodes)
    (same : ∀ node support, support ∈ (after.activation.supports node).items ↔
      support ∈ (session.activation.supports node).items) : after.Matched chart where
  recorded node support mem composed basis := by
    rw [calls]
    exact matched.recorded node support ((same node support).1 mem) composed basis
  entered composed record listed := by
    rw [calls] at listed
    obtain ⟨kind, mem⟩ := matched.entered composed record listed
    exact ⟨kind, nodes composed (Option.ne_none_iff_exists'.2 ⟨record, listed⟩) mem⟩
  held composed called kind active := by
    rw [calls]
    have before : session.isActive composed = true :=
      (Activation.isActive_congr (same composed)).symm.trans active
    obtain ⟨id, listed, mem⟩ := matched.held composed called kind before
    exact ⟨id, listed, (same called _).2 mem⟩

theorem keep (matched : session.Matched chart) (calls : after.calls = session.calls)
    (nodes : ∀ node ∈ session.nodes, node ∈ after.nodes)
    (activation : after.activation = session.activation) : after.Matched chart :=
  matched.congr calls (fun composed _ => nodes composed) fun _ _ => by rw [activation]

/-- Supports that came from no call may be given to a composed node only when it is active. -/
theorem addSupport (matched : session.Matched chart) {node : NodeRef} {support : Support}
    (plain : ∀ composed, support.basis ≠ .caller composed)
    (settled : ∀ called, chart.kind? node = some (.composed called) → session.isActive node = true) :
    (session.addSupport node support).Matched chart where
  recorded other given mem composed basis := by
    rcases Activation.mem_add.1 mem with old | ⟨-, rfl, -⟩
    · exact matched.recorded other given old composed basis
    · exact absurd basis (plain composed)
  entered := matched.entered
  held composed called kind active := by
    have before : session.isActive composed = true := by
      rw [isActive_addSupport, Bool.or_eq_true, decide_eq_true_eq] at active
      rcases active with rfl | old
      · exact settled called kind
      · exact old
    obtain ⟨id, listed, mem⟩ := matched.held composed called kind before
    exact ⟨id, listed, Activation.mem_add.2 (.inl mem)⟩

/-- Where every composed node with an entry is active, the supports of all calls are in place. -/
theorem owned (matched : session.Matched chart)
    (active : ∀ composed called, chart.kind? composed = some (.composed called) →
      composed ∈ session.nodes → session.isActive composed = true) : session.Owned := by
  intro composed record listed support mem same
  obtain ⟨kind, entered⟩ := matched.entered composed record listed
  obtain ⟨id, known, held⟩ :=
    matched.held composed record.1 kind (active composed record.1 kind entered)
  rw [listed, Option.some.injEq] at known
  have number : support.id = id := same.trans (congrArg Prod.snd known)
  rw [Roster.eq_of_key_eq mem held number]

theorem swept (matched : session.Matched chart) (id : StrandId) :
    (session.swept chart id).Matched chart where
  recorded node support mem composed basis :=
    matched.recorded node support (mem_of_mem_sweepEntries mem) composed basis
  entered := matched.entered
  held composed called kind active := by
    obtain ⟨number, listed, mem⟩ :=
      matched.held composed called kind (isActive_of_isActive_sweepEntries active)
    exact ⟨number, listed, mem_sweepEntries_of_holds mem active⟩

end Matched

theorem at?_calls_endCall (session : Session σ) (ended composed : NodeRef) :
    (session.endCall ended).calls.at? composed =
      if ended = composed then none else session.calls.at? composed := by
  unfold endCall
  cases listed : session.calls.at? ended with
  | none =>
      by_cases same : ended = composed
      · rw [if_pos same, ← same]
        exact listed
      · rw [if_neg same]
  | some record => exact Listing.at?_erase session.calls ended composed

theorem at?_calls_of_endCall {ended composed : NodeRef} {record : NodeRef × SupportId}
    (listed : (session.endCall ended).calls.at? composed = some record) :
    session.calls.at? composed = some record := by
  rw [at?_calls_endCall] at listed
  split at listed
  · cases listed
  · exact listed

/-- Ending a call takes back the support on record for it and no other. -/
theorem mem_endCall {ended node : NodeRef} {support : Support} :
    support ∈ ((session.endCall ended).activation.supports node).items ↔
      support ∈ (session.activation.supports node).items ∧
        session.calls.at? ended ≠ some (node, support.id) := by
  unfold endCall
  cases listed : session.calls.at? ended with
  | none => simp
  | some record =>
      obtain ⟨start, id⟩ := record
      refine Activation.mem_remove.trans (and_congr_right fun _ => not_congr ?_)
      simp only [Option.some.injEq, Prod.mk.injEq, eq_comm]

end Session

section Deeds

variable {session after : Session σ} {node : NodeRef}

theorem Chart.kind?_ne_composed {kind : NodeKind} (known : chart.kind? node = some kind)
    (plain : kind.isComposed = false) (called : NodeRef) :
    chart.kind? node ≠ some (.composed called) := by
  rintro other
  cases known.symm.trans other
  cases plain

/-- Composed nodes end their call when they leave, other nodes have nothing to do with calls. -/
theorem Reverts.eq_endCall_or (reverts : Reverts engine node session after) :
    (∃ called, engine.chart.kind? node = some (.composed called) ∧ after = session.endCall node) ∨
      (∀ called, engine.chart.kind? node ≠ some (.composed called)) ∧
        after.calls = session.calls ∧ after.activation = session.activation := by
  cases reverts with
  | called kind => exact .inl ⟨_, kind, rfl⟩
  | started kind | idled kind | reached kind =>
      exact .inr ⟨Chart.kind?_ne_composed kind rfl, rfl, rfl⟩
  | assigned kind =>
      refine .inr ⟨Chart.kind?_ne_composed kind rfl, ?_⟩
      unfold Session.unassign
      split <;> exact ⟨rfl, rfl⟩
  | invoked reacts =>
      obtain ⟨name, kind⟩ := reacts.exists_kind
      obtain ⟨facts, host, rfl⟩ := reacts.exists_eq
      exact .inr ⟨Chart.kind?_ne_composed kind rfl, rfl, rfl⟩

/-- Composed nodes call their start node when they join, other nodes have nothing to do with calls. -/
theorem Performs.eq_calling_or (performs : Performs engine node session after) :
    (∃ called origin, engine.chart.kind? node = some (.composed called) ∧
      engine.chart.kind? called = some origin ∧ origin.isOrigin = true ∧
        after = session.calling node called origin) ∨
      (∀ called, engine.chart.kind? node ≠ some (.composed called)) ∧
        after.calls = session.calls ∧ after.activation = session.activation ∧
          after.strands = session.strands := by
  cases performs with
  | called kind known fit => exact .inl ⟨_, _, kind, known, fit, rfl⟩
  | started kind | idled kind | reached kind | assigned kind =>
      exact .inr ⟨Chart.kind?_ne_composed kind rfl, rfl, rfl, rfl⟩
  | invoked reacts =>
      obtain ⟨name, kind⟩ := reacts.exists_kind
      obtain ⟨facts, host, rfl⟩ := reacts.exists_eq
      exact .inr ⟨Chart.kind?_ne_composed kind rfl, rfl, rfl, rfl⟩

/-- No call is put on record when a node leaves. -/
theorem Reverts.recorded (reverts : Reverts engine node session after) {composed : NodeRef}
    {record : NodeRef × SupportId} (listed : after.calls.at? composed = some record) :
    session.calls.at? composed = some record := by
  rcases reverts.eq_endCall_or with ⟨called, -, rfl⟩ | ⟨-, calls, -⟩
  · exact Session.at?_calls_of_endCall listed
  · rwa [calls] at listed

theorem Collapsing.recorded {id : StrandId} {now : List (Entry × Bool) × Session σ}
    (collapsing : Collapsing engine id session now) {composed : NodeRef}
    {record : NodeRef × SupportId} (listed : now.2.calls.at? composed = some record) :
    session.calls.at? composed = some record := by
  induction collapsing with
  | refl => exact listed
  | tail _ step ih =>
      cases step with
      | entry reverts => exact ih (reverts.recorded listed)

end Deeds

namespace Session

variable {session after : Session σ} {node : NodeRef} {id : StrandId}

/-- An inactive node has no support to take back. -/
theorem mem_removeSupport_of_idle (idle : session.isActive node = false) (number : SupportId)
    (other : NodeRef) (support : Support) :
    support ∈ ((session.removeSupport node number).activation.supports other).items ↔
      support ∈ (session.activation.supports other).items := by
  refine Activation.mem_remove.trans (and_iff_left_of_imp ?_)
  rintro mem ⟨rfl, -⟩
  exact Activation.isActive_eq_false_iff.1 idle support mem

theorem Matched.endCall (matched : session.Matched chart) (owned : session.Owned)
    (idle : session.isActive node = false) :
    (session.endCall node).Matched chart ∧ (session.endCall node).Owned := by
  have fades := Session.Fades.endCall session node
  refine ⟨⟨?_, ?_, ?_⟩, owned.below (fun _ _ => at?_calls_of_endCall) fades.below⟩
  · intro other support mem composed basis
    obtain ⟨old, spared⟩ := mem_endCall.1 mem
    have known := matched.recorded other support old composed basis
    have apart : node ≠ composed := by
      rintro rfl
      exact spared known
    rw [at?_calls_endCall, if_neg apart]
    exact known
  · intro composed record now
    rw [fades.nodes]
    exact matched.entered composed record (at?_calls_of_endCall now)
  · intro composed called kind active
    have before := fades.active composed active
    have apart : node ≠ composed := by
      rintro rfl
      cases idle.symm.trans before
    obtain ⟨number, known, mem⟩ := matched.held composed called kind before
    rw [at?_calls_endCall, if_neg apart]
    refine ⟨number, known, mem_endCall.2 ⟨mem, fun hit => apart ?_⟩⟩
    -- Had the call that is ended the same support on record, it would have given it.
    have basis := owned node _ hit _ mem rfl
    cases basis
    rfl

/-- An inactive node that leaves has no call on record afterwards. -/
theorem Matched.revert (matched : session.Matched engine.chart) (owned : session.Owned)
    (idle : session.isActive node = false) (reverts : Reverts engine node session after) :
    after.Matched engine.chart ∧ after.Owned ∧ after.calls.at? node = none := by
  rcases reverts.eq_endCall_or with ⟨called, kind, rfl⟩ | ⟨plain, calls, activation⟩
  · obtain ⟨ended, still⟩ := matched.endCall owned idle
    exact ⟨ended, still, (at?_calls_endCall session node node).trans (if_pos rfl)⟩
  · have fades := reverts.fades
    refine ⟨matched.keep calls (fun _ mem => fades.nodes.symm ▸ mem) activation, ?_, ?_⟩
    · refine owned.below (fun composed record listed => ?_) fades.below
      rwa [calls] at listed
    · cases listed : after.calls.at? node with
      | none => rfl
      | some record =>
          rw [calls] at listed
          exact absurd (matched.entered node record listed).1 (plain record.1)

/-- An entry is undone: if it is that of a composed node, its call is ended with it. -/
theorem Matched.undo {before rest : List (Entry × Bool)} {entry : Entry} {reverted : Session σ}
    (matched : session.Matched engine.chart) (owned : session.Owned)
    (underway : session.Underway engine id (before ++ (entry, false) :: rest))
    (reverts : Reverts engine entry.node (session.removeSupport entry.node entry.support.id)
      reverted) :
    ((reverted.leaveFootprint (.acted entry.node .revert true)).putStrand
        ⟨id, (before ++ rest).map Prod.fst⟩).Matched engine.chart ∧
      ((reverted.leaveFootprint (.acted entry.node .revert true)).putStrand
        ⟨id, (before ++ rest).map Prod.fst⟩).Owned := by
  have idle := underway.idle entry (List.mem_append_right _ (List.mem_cons_self ..))
  have same := mem_removeSupport_of_idle idle entry.support.id
  have removed : (session.removeSupport entry.node entry.support.id).Matched engine.chart :=
    matched.congr rfl (fun _ _ mem => mem) same
  have narrowed : (session.removeSupport entry.node entry.support.id).Owned :=
    owned.below (fun _ _ listed => listed) fun other support mem => (same other support).1 mem
  have still : (session.removeSupport entry.node entry.support.id).isActive entry.node = false :=
    (Activation.isActive_congr (same entry.node)).trans idle
  obtain ⟨left, owning, ended⟩ := removed.revert narrowed still reverts
  refine ⟨left.congr rfl ?_ fun _ _ => Iff.rfl, owning⟩
  intro composed listed mem
  have apart : entry.node ≠ composed := by
    rintro rfl
    exact listed ended
  have fades := (Session.Fades.removeSupport session entry.node entry.support.id).trans reverts.fades
  have counted := underway.count_nodes_undo reverts composed
  rw [if_neg apart, Nat.add_zero] at counted
  rw [fades.nodes] at mem
  rw [← List.count_pos_iff, counted]
  exact List.count_pos_iff.2 mem

theorem Matched.collapsing (matched : session.Matched engine.chart) (owned : session.Owned)
    (inv : session.Orderly engine) (live : session.strands.contains id = true)
    {now : List (Entry × Bool) × Session σ} (collapsing : Collapsing engine id session now) :
    now.2.Matched engine.chart ∧ now.2.Owned := by
  induction collapsing with
  | refl => exact ⟨matched.swept id, owned.below (fun _ _ listed => listed) (Fades.swept ..).below⟩
  | tail first step ih =>
      have underway := Session.Underway.collapsing inv live first
      cases step with
      | entry reverts => exact ih.1.undo ih.2 underway reverts

end Session

/-- A composed node that had no call on record is given one: it has an entry now, and the node that it
calls holds the support on record. Nothing else that concerns calls has changed. -/
theorem Session.Matched.call {session after : Session σ} {composed called : NodeRef} {id : SupportId}
    (matched : session.Matched chart) (kind : chart.kind? composed = some (.composed called))
    (unlisted : session.calls.at? composed = none)
    (calls : after.calls = session.calls.set composed (called, id))
    (nodes : ∀ node, node ∈ session.nodes ∨ composed = node → node ∈ after.nodes)
    (kept : session.activation.Below after.activation)
    (gained : ∀ node, ∀ support ∈ (after.activation.supports node).items,
      support ∈ (session.activation.supports node).items ∨
        (∀ other, support.basis ≠ .caller other) ∨ (node = called ∧ support = ⟨id, .caller composed⟩))
    (given : ⟨id, .caller composed⟩ ∈ (after.activation.supports called).items)
    (active : ∀ other start, chart.kind? other = some (.composed start) →
      after.isActive other = true → composed = other ∨ session.isActive other = true) :
    after.Matched chart := by
  have listed : ∀ other, after.calls.at? other =
      if composed = other then some (called, id) else session.calls.at? other := by
    intro other
    rw [calls, Listing.at?_set]
  have distinct : ∀ {other record}, session.calls.at? other = some record → composed ≠ other := by
    rintro other record known rfl
    cases unlisted.symm.trans known
  constructor
  · intro node support mem other basis
    rcases gained node support mem with old | plain | ⟨rfl, rfl⟩
    · have known := matched.recorded node support old other basis
      rw [listed, if_neg (distinct known)]
      exact known
    · exact absurd basis (plain other)
    · cases basis
      rw [listed, if_pos rfl]
  · intro other record now
    rw [listed] at now
    by_cases same : composed = other
    · rw [if_pos same] at now
      cases now
      exact ⟨same ▸ kind, nodes other (.inr same)⟩
    · rw [if_neg same] at now
      obtain ⟨fits, mem⟩ := matched.entered other record now
      exact ⟨fits, nodes other (.inl mem)⟩
  · intro other start fits now
    rcases active other start fits now with rfl | before
    · cases kind.symm.trans fits
      exact ⟨id, (listed composed).trans (if_pos rfl), given⟩
    · obtain ⟨number, known, mem⟩ := matched.held other start fits before
      exact ⟨number, (listed other).trans ((if_neg (distinct known)).trans known), kept start _ mem⟩

namespace Session

variable (session : Session σ) (composed called : NodeRef) (origin : NodeKind)

theorem calls_calling :
    (session.calling composed called origin).calls =
      session.calls.set composed (called, (session.nextSupport (.caller composed)).id) :=
  congrArg (Listing.set · composed (called, (session.nextSupport (.caller composed)).id))
    (calls_openStrand (session.countSupport.addSupport called (session.nextSupport (.caller composed)))
      called origin (session.nextSupport (.caller composed)))

theorem nodes_calling (new : session.strands.get? ⟨session.strandCount + 1⟩ = none) :
    (session.calling composed called origin).nodes = session.nodes ++ [called] :=
  @nodes_openStrand _ (session.countSupport.addSupport called (session.nextSupport (.caller composed)))
    new called origin (session.nextSupport (.caller composed))

theorem isActive_calling (node : NodeRef) :
    (session.calling composed called origin).isActive node =
      (decide (called = node) || session.isActive node) := by
  rw [isActive, activation_calling, Activation.isActive_add]
  rfl

end Session

theorem Chart.isInner_of_composed {composed called : NodeRef}
    (kind : chart.kind? composed = some (.composed called)) : chart.isInner composed = true := by
  rw [Chart.isInner, kind]
  rfl

/-- Calls are matched in a session in which no node acts twice at a time. -/
structure Session.Attended (engine : Engine σ) (session : Session σ) : Prop
    extends session.Unrepeated engine where
  issued : session.Numbered
  matched : session.Matched engine.chart

namespace Session.Attended

variable {session after : Session σ} {id : StrandId} {composed called : NodeRef}

theorem isActive_of_mem (inv : session.Attended engine)
    (kind : engine.chart.kind? composed = some (.composed called)) (mem : composed ∈ session.nodes) :
    session.isActive composed = true := by
  have counted := (inv.single composed (Chart.isInner_of_composed kind)).counted
  have entered := List.count_pos_iff.2 mem
  by_contra idle
  rw [if_neg idle] at counted
  omega

theorem owned (inv : session.Attended engine) : session.Owned :=
  inv.matched.owned fun _ _ kind mem => inv.isActive_of_mem kind mem

/-- A composed node that has no entry has no call on record. -/
theorem at?_calls_of_idle (inv : session.Attended engine)
    (kind : engine.chart.kind? composed = some (.composed called))
    (idle : session.isActive composed = false) : session.calls.at? composed = none := by
  cases listed : session.calls.at? composed with
  | none => rfl
  | some record =>
      have active := inv.isActive_of_mem kind (inv.matched.entered composed record listed).2
      cases idle.symm.trans active

/-- A composed node joins a strand and calls its start node. -/
theorem matched_calling (inv : session.Attended engine) {ref : EdgeRef} {origin : NodeKind}
    (kind : engine.chart.kind? composed = some (.composed called))
    (known : engine.chart.kind? called = some origin) (fit : origin.isOrigin = true)
    (idle : session.isActive composed = false)
    (new : (session.joining id ref composed).strands.get?
      ⟨(session.joining id ref composed).strandCount + 1⟩ = none) :
    ((session.joining id ref composed).calling composed called origin).Matched engine.chart := by
  have table := Session.activation_calling (session.joining id ref composed) composed called origin
  -- The joining node has taken the number before.
  have joined := inv.issued.joining id ref composed
  refine inv.matched.call kind (inv.at?_calls_of_idle kind idle)
    (Session.calls_calling (session.joining id ref composed) composed called origin) ?_ ?_ ?_ ?_ ?_
  · intro node mem
    rw [Session.nodes_calling _ _ _ _ new]
    exact List.mem_append_left _ (Session.mem_nodes_joining.2 mem)
  · intro node support mem
    rw [table]
    exact Activation.mem_add.2 (.inl (Activation.mem_add.2 (.inl mem)))
  · intro node support mem
    rw [table] at mem
    rcases Activation.mem_add.1 mem with old | ⟨rfl, rfl, -⟩
    · rcases Activation.mem_add.1 old with old | ⟨-, rfl, -⟩
      · exact .inl old
      · exact .inr (.inl fun _ same => nomatch same)
    · exact .inr (.inr ⟨rfl, rfl⟩)
  · rw [table]
    refine Activation.mem_add.2 (.inr ⟨rfl, rfl, fun held => ?_⟩)
    obtain ⟨support, mem, same⟩ := List.mem_map.1 held
    exact joined.nextSupport_id_ne (.caller composed) mem same
  · intro other start fits active
    have apart := Chart.ne_of_isInner (Chart.isInner_of_composed fits) known fit
    rw [Session.isActive_calling, decide_eq_false apart, Bool.false_or, Session.isActive_joining,
      Bool.or_eq_true, decide_eq_true_eq] at active
    exact active

end Session.Attended

section Changes

variable {session after : Session σ}

/-- A call that is put on record has a new number. -/
theorem Move.recorded (move : Move engine session after) {composed : NodeRef}
    {record : NodeRef × SupportId} (listed : after.calls.at? composed = some record) :
    session.calls.at? composed = some record ∨
      session.supportCount < record.2.number ∧ record.2.number ≤ after.supportCount := by
  cases move with
  | collapsed live collapsing =>
      rw [Session.calls_tidy] at listed
      exact .inl (collapsing.recorded listed)
  | merged => exact .inl listed
  | @joined acted id ref edge next idle performs =>
      rcases performs.eq_calling_or with ⟨called, origin, -, -, -, rfl⟩ | ⟨-, calls, -, -⟩
      · have counted : ((session.joining id ref edge.target).calling edge.target called
            origin).supportCount = session.supportCount + 2 := Session.supportCount_calling ..
        change ((session.joining id ref edge.target).calling edge.target called
          origin).calls.at? composed = some record at listed
        rw [Session.calls_calling, Listing.at?_set] at listed
        split at listed
        · cases listed
          exact .inr ⟨Nat.lt_add_of_pos_right Nat.two_pos, counted.ge⟩
        · exact .inl listed
      · exact .inl ((congrArg (Listing.at? · composed) calls).symm.trans listed)

theorem Break.recorded (broke : Break engine session after) {composed : NodeRef}
    {record : NodeRef × SupportId} (listed : after.calls.at? composed = some record) :
    session.calls.at? composed = some record := by
  cases broke with
  | collapse live collapsing refuses =>
      obtain ⟨facts, host, count, rfl⟩ := refuses.exists_eq
      exact collapsing.recorded listed
  | join next idle refuses =>
      obtain ⟨facts, host, count, rfl⟩ := refuses.exists_eq
      exact listed

/-- Nodes that call nobody do no harm to calls when they join a strand. -/
theorem Session.Matched.joining (matched : session.Matched chart) {target : NodeRef}
    (plain : ∀ called, chart.kind? target ≠ some (.composed called)) (id : StrandId) (ref : EdgeRef) :
    (session.joining id ref target).Matched chart := by
  have given : (session.addSupport target (session.nextSupport (.edge ref))).Matched chart :=
    matched.addSupport (fun _ => Basis.noConfusion) fun called kind => absurd kind (plain called)
  exact given.keep rfl (fun _ mem => Session.mem_nodes_joining.2 (.inl mem)) rfl

theorem Move.matched (move : Move engine session after) (inv : session.Attended engine) :
    after.Matched engine.chart := by
  cases move with
  | @collapsed after id kept live collapsing =>
      have collapsed := (inv.matched.collapsing inv.owned inv.toOrderly live collapsing).1
      refine collapsed.keep (Session.calls_tidy _ _) (fun node mem => ?_) (Session.activation_tidy _ _)
      rw [← List.count_pos_iff, (Session.Alike.tidy after id node).count]
      exact List.count_pos_iff.2 mem
  | @merged id ref edge next active =>
      have given : (session.addSupport edge.target (session.nextSupport (.edge ref))).Matched
          engine.chart := inv.matched.addSupport (fun _ => Basis.noConfusion) fun _ _ => active
      exact given.keep rfl (fun _ mem => mem) rfl
  | @joined acted id ref edge next idle performs =>
      have live := engine.live_of_nextEdge? next
      have new := (inv.toOrderly.joining live performs.serves ref).toTracked.fresh
      rcases performs.eq_calling_or with
        ⟨called, origin, kind, known, fit, rfl⟩ | ⟨plain, calls, activation, strands⟩
      · exact (inv.matched_calling kind known fit idle new).keep rfl (fun _ mem => mem) rfl
      · refine (inv.matched.joining plain id ref).keep calls (fun node mem => ?_) activation
        rw [Session.nodes, ← strands] at mem
        exact mem

theorem Basis.Outside.ne_caller {basis : Basis} (outside : basis.Outside) (composed : NodeRef) :
    basis ≠ .caller composed := by
  rintro rfl
  exact outside

/-- Supports from outside, those of the host among the ones it minted. -/
def Grants.outside : Grants σ := .issued (fun _ basis => basis.Outside) fun _ basis => basis.Outside

theorem Supplies.outside {session : Session σ} {node : NodeRef} {support : Support} {count : Nat}
    (supplies : Supplies .outside session node support count) : support.basis.Outside := by
  cases supplies with
  | given granted => exact granted.1
  | minted granted => exact granted

theorem Offer.matched (offer : Offer engine .outside session after) (inv : session.Attended engine) :
    after.Matched engine.chart := by
  cases offer with
  | counted | asked => exact inv.matched.keep rfl (fun _ mem => mem) rfl
  | @supported origin kind support count known fit supplies active =>
      have given : (session.addSupport origin support).Matched engine.chart :=
        inv.matched.addSupport supplies.outside.ne_caller fun _ _ => active
      exact given.keep rfl (fun _ mem => mem) rfl
  | @opened origin kind support count known fit supplies =>
      have given : (session.supply origin support count).Matched engine.chart := by
        refine (inv.matched.addSupport supplies.outside.ne_caller fun called composed => ?_).keep rfl
          (fun _ mem => mem) rfl
        cases known.symm.trans composed
        cases fit
      have new : (session.supply origin support count).strands.get?
          ⟨(session.supply origin support count).strandCount + 1⟩ = none := inv.toTracked.fresh
      have opened : ((session.supply origin support count).openStrand origin kind support).Matched
          engine.chart := by
        refine given.keep (Session.calls_openStrand _ _ _ _) (fun node mem => ?_)
          (Session.activation_openStrand _ _ _ _)
        rw [Session.nodes_openStrand new]
        exact List.mem_append_left _ mem
      exact opened.keep rfl (fun _ mem => mem) rfl

theorem Change.attended (change : Change engine .outside session after)
    (inv : session.Attended engine) : after.Attended engine := by
  refine { change.unrepeated inv.toUnrepeated with
    issued := inv.issued.change change And.right
    matched := ?_ }
  cases change with
  | moved move => exact move.matched inv
  | offered offer => exact offer.matched inv
  | heard => exact inv.matched.keep rfl (fun _ mem => mem) rfl

/-- A node that could not act takes along the support that it got, and that one alone. -/
theorem Session.Attended.parting {id : StrandId} {ref : EdgeRef} {target : NodeRef}
    (inv : session.Attended engine) (live : session.strands.contains id = true)
    (idle : session.isActive target = false)
    (refuses : Refuses engine target .perform (session.joining id ref target) after) :
    ((after.leaveFootprint (.acted target .perform false)).parting session id target).Attended
      engine := by
  have fades := Session.parting_fades live refuses (.acted target .perform false)
  have count := (Nat.le_succ session.supportCount).trans refuses.le_supportCount
  refine { inv.toUnrepeated.parting live idle refuses with
    issued := inv.issued.below fades.below count
    matched := inv.matched.congr ?_ (fun _ _ mem => fades.nodes.symm ▸ mem) ?_ }
  · obtain ⟨facts, host, count, rfl⟩ := refuses.exists_eq
    rfl
  · refine fun node support => ⟨fades.below node support, fun mem => ?_⟩
    obtain ⟨facts, host, count, rfl⟩ := refuses.exists_eq
    refine Activation.mem_remove.2 ⟨Activation.mem_add.2 (.inl mem), ?_⟩
    rintro ⟨-, same⟩
    exact inv.issued.nextSupport_id_ne (.edge ref) mem same

end Changes

/-- The host supports origins from outside alone and with supports that it minted in the session, takes
no support away, and undoes what it is told to undo. -/
structure Operation.Faithful (engine : Engine σ) (session : Session σ) (operation : Operation σ) :
    Prop extends operation.Gentle engine session where
  given : operation.offers ((Grants.outside : Grants σ).gives session)

theorem Engine.Reaches.attended {facts : Facts} {session : Session σ}
    (source : engine.SourceGrants fun _ basis => basis.Outside)
    (reached : engine.Reaches (Operation.Faithful engine) facts session) : session.Attended engine := by
  have mints : engine.SourceGrants (Grants.outside : Grants σ).mints := source
  refine Engine.Reaches.invariant mints ?_ ?_ ?_ ?_ ?_ ?_ ?_ reached
  · exact fun _ => trivial
  · exact fun faithful => faithful.given
  · exact fun host => { Session.Unrepeated.fresh engine facts host with
      issued := fun _ _ mem => nomatch mem
      matched := ⟨fun _ _ mem => (nomatch mem), fun _ _ listed => (nomatch listed),
        fun _ _ _ active => (nomatch active)⟩ }
  · exact fun inv change => change.attended inv
  · intro operation session fault between after faithful ran inv broke
    obtain ⟨id, ref, edge, left, next, idle, refuses, rfl⟩ := faithful.exists_join ran broke
    exact inv.parting (engine.live_of_nextEdge? next) idle refuses
  · intro session node id faithful _
    cases faithful.keeps
  · exact fun _ inv => { inv.toUnrepeated.rewrite _ _ with
      issued := inv.issued
      matched := inv.matched.keep rfl (fun _ mem => mem) rfl }

/-- While a composed node is active, its call is on record with the one support that came from it, and
the node that it calls holds that support; while it is inactive, there is neither a record of a call
nor a support that came from one. -/
theorem Engine.Reaches.calls_matched {facts : Facts} {session : Session σ}
    (source : engine.SourceGrants fun _ basis => basis.Outside)
    (reached : engine.Reaches (Operation.Faithful engine) facts session) {composed called : NodeRef}
    (kind : engine.chart.kind? composed = some (.composed called)) :
    (session.isActive composed = true →
      ∃ id, session.calls.at? composed = some (called, id) ∧
        ∀ node support, (support ∈ (session.activation.supports node).items ∧
          support.basis = .caller composed) ↔ node = called ∧ support = ⟨id, .caller composed⟩) ∧
      (session.isActive composed = false →
        session.calls.at? composed = none ∧
          ∀ node, ∀ support ∈ (session.activation.supports node).items,
            support.basis ≠ .caller composed) := by
  have inv := reached.attended source
  constructor
  · intro active
    obtain ⟨id, listed, held⟩ := inv.matched.held composed called kind active
    refine ⟨id, listed, fun node support => ⟨?_, ?_⟩⟩
    · rintro ⟨mem, basis⟩
      have known := inv.matched.recorded node support mem composed basis
      cases listed.symm.trans known
      cases support
      cases basis
      exact ⟨rfl, rfl⟩
    · rintro ⟨rfl, rfl⟩
      exact ⟨held, rfl⟩
  · intro idle
    have unlisted := inv.at?_calls_of_idle kind idle
    refine ⟨unlisted, fun node support mem basis => ?_⟩
    cases unlisted.symm.trans (inv.matched.recorded node support mem composed basis)

/-- Two composed nodes call one start node, the second of them while a fact is known. -/
def relayDecl : ChartDecl :=
  ⟨[(((((FlowDecl.named "Main").addStart "S").addComposed "C" "Sub" "T").addComposed "D" "Sub" "T").addEdge
      "S" "C" none).addEdge "C" "D" (some (.known "q")),
    (((FlowDecl.named "Sub").addStart "T").addAction "A" .noop).addEdge "T" "A" none], []⟩

def relayEngine : Engine Unit := ⟨relayDecl.chart, ∅, .silent, .standard⟩

/-- The fact was known when the session settled and is not known any more. -/
def relaySession : Session Unit :=
  Operation.afterAll relayEngine
    [.mint .unconditional, .begin ⟨0⟩ ⟨⟨1⟩, .unconditional⟩,
      .rewrite (Facts.put ∅ "q" (some .unknown)) (), .settle ["q"], .rewrite ∅ (), .settle ["q"]]
    (relayEngine.opened ∅ ())

theorem calls_matched_relay :
    (∃ id, relaySession.calls.at? ⟨1⟩ = some (⟨3⟩, id) ∧
      ∀ node support, (support ∈ (relaySession.activation.supports node).items ∧
        support.basis = .caller ⟨1⟩) ↔ node = ⟨3⟩ ∧ support = ⟨id, .caller ⟨1⟩⟩) ∧
      relaySession.calls.at? ⟨2⟩ = none ∧
        ∀ node, ∀ support ∈ (relaySession.activation.supports node).items,
          support.basis ≠ .caller ⟨2⟩ := by
  have source : relayEngine.SourceGrants fun _ basis => basis.Outside :=
    fun _ _ _ _ _ mem => nomatch mem
  have opened : relayEngine.Reaches (Operation.Faithful relayEngine) ∅ (relayEngine.opened ∅ ()) :=
    .opened (by decide +kernel)
  have reached : relayEngine.Reaches (Operation.Faithful relayEngine) ∅ relaySession :=
    opened.afterAll ⟨⟨⟨rfl, by decide +kernel⟩, trivial⟩,
      ⟨⟨rfl, by decide +kernel⟩, trivial, by decide +kernel⟩,
      ⟨⟨rfl, by decide +kernel⟩, trivial⟩, ⟨⟨rfl, by decide +kernel⟩, trivial⟩,
      ⟨⟨rfl, by decide +kernel⟩, trivial⟩, ⟨⟨rfl, by decide +kernel⟩, trivial⟩, trivial⟩
  have first : relayEngine.chart.kind? ⟨1⟩ = some (.composed ⟨3⟩) := by decide +kernel
  have second : relayEngine.chart.kind? ⟨2⟩ = some (.composed ⟨3⟩) := by decide +kernel
  exact ⟨(Engine.Reaches.calls_matched source reached first).1 (by decide +kernel),
    (Engine.Reaches.calls_matched source reached second).2 (by decide +kernel)⟩

end Flowchart
