import Flowchart.Proofs.Sync

/-!
One support for each edge and for each trigger. Edges are followed to inactive targets, or to targets
that have no support for the edge yet; a trigger is asked for where no support names it. So whatever a
host does that names no trigger itself, no second support is ever minted while there is a first.
-/
namespace Flowchart

variable {σ : Type} {engine : Engine σ} {chart : Chart} {decl : ChartDecl} {session after : Session σ}

/-- What a support is there for, if that is told by its basis: an edge or a trigger of the chart. -/
inductive Cause where
  | edge (ref : EdgeRef)
  | trigger (ref : TriggerRef)
  deriving DecidableEq, Repr

def Support.cause? (support : Support) : Option Cause :=
  match support.basis with
  | .edge ref => some (.edge ref)
  | .external (some ref) _ => some (.trigger ref)
  | _ => none

/-- The node that is supported on account of an edge or a trigger. -/
def Chart.supported? (chart : Chart) : Cause → Option NodeRef
  | .edge ref => (chart.edge? ref).map Edge.target
  | .trigger ref => (chart.trigger? ref).map Trigger.start

/-- The supports in the table that are there on account of an edge or a trigger, with their nodes. -/
def Session.holdingsFor (session : Session σ) (cause : Cause) : List (NodeRef × Support) :=
  session.holdings.filter fun held => held.2.cause? = some cause

/-- The node has no support of the same cause as the one given, and is the node to be supported. -/
def Activation.Lacks (chart : Chart) (table : Activation) (node : NodeRef) (support : Support) : Prop :=
  ∀ cause, support.cause? = some cause → chart.supported? cause = some node ∧
    ∀ held ∈ (table.supports node).items, held.cause? ≠ some cause

structure Activation.Sole (chart : Chart) (table : Activation) : Prop where
  placed : ∀ {node support cause}, support ∈ (table.supports node).items →
    support.cause? = some cause → chart.supported? cause = some node
  alone : ∀ {node first second cause}, first ∈ (table.supports node).items →
    second ∈ (table.supports node).items → first.cause? = some cause → second.cause? = some cause →
    first = second

/-- Supports that have a cause are given where there is none of that cause. -/
def Grants.lacking (chart : Chart) : Grants σ :=
  ⟨fun session node support => session.activation.Lacks chart node support,
    fun _ basis => basis.Outside ∧ basis.Free⟩

theorem Support.cause?_of_plain {support : Support} (outside : support.basis.Outside)
    (free : support.basis.Free) : support.cause? = none := by
  unfold Support.cause?
  split
  · rename_i basis
    rw [basis] at outside
    exact outside.elim
  · rename_i basis
    rw [basis] at free
    exact free.elim
  · rfl

theorem Support.trigger?_of_cause? {support : Support} {ref : TriggerRef}
    (cause : support.cause? = some (.trigger ref)) : support.trigger? = some ref := by
  unfold Support.cause? at cause
  split at cause
  · cases cause
  · rename_i basis
    cases cause
    rw [Support.trigger?, basis]
  · cases cause

theorem Support.edge?_of_cause? {support : Support} {ref : EdgeRef}
    (cause : support.cause? = some (.edge ref)) : support.edge? = some ref := by
  unfold Support.cause? at cause
  split at cause
  · rename_i basis
    cases cause
    rw [Support.edge?, basis]
  · cases cause
  · cases cause

namespace Activation

variable {table narrower : Activation} {node : NodeRef} {support : Support}

theorem Lacks.of_none (none : support.cause? = none) : table.Lacks chart node support := by
  intro cause named
  rw [none] at named
  cases named

/-- A trigger is asked for only where no support names it. -/
theorem Lacks.of_holdsTrigger {ref : TriggerRef} {trigger : Trigger} {id : SupportId}
    (known : chart.trigger? ref = some trigger)
    (vacant : table.holdsTrigger trigger.start ref = false) :
    table.Lacks chart trigger.start ⟨id, .external (some ref) trigger.condition⟩ := by
  rintro cause ⟨⟩
  refine ⟨by simp [Chart.supported?, known], fun held mem same => ?_⟩
  have names := Support.trigger?_of_cause? same
  simp only [holdsTrigger, List.any_eq_false] at vacant
  exact vacant held mem (by simp [names])

/-- An edge is merged only into a target that has no support for it. -/
theorem Lacks.of_holdsEdge {ref : EdgeRef} {edge : Edge} {id : SupportId}
    (known : chart.edge? ref = some edge) (vacant : table.holdsEdge edge.target ref = false) :
    table.Lacks chart edge.target ⟨id, .edge ref⟩ := by
  rintro cause ⟨⟩
  refine ⟨by simp [Chart.supported?, known], fun held mem same => ?_⟩
  have holds := Activation.holdsEdge_iff.2 ⟨held, mem, Support.edge?_of_cause? same⟩
  rw [vacant] at holds
  cases holds

theorem holdsEdge_of_idle {ref : EdgeRef} (idle : table.isActive node = false) :
    table.holdsEdge node ref = false := by
  refine Bool.eq_false_iff.2 fun holds => ?_
  obtain ⟨support, mem, -⟩ := holdsEdge_iff.1 holds
  exact isActive_eq_false_iff.1 idle support mem

namespace Sole

theorem empty (chart : Chart) : Activation.Sole chart ∅ :=
  ⟨fun mem => (nomatch mem), fun mem => (nomatch mem)⟩

theorem below (sole : table.Sole chart) (below : narrower.Below table) : narrower.Sole chart where
  placed mem := sole.placed (below _ _ mem)
  alone first second := sole.alone (below _ _ first) (below _ _ second)

theorem add (sole : table.Sole chart) (lacks : table.Lacks chart node support) :
    (table.add node support).Sole chart where
  placed mem named := by
    rcases mem_add.1 mem with old | ⟨rfl, rfl, -⟩
    · exact sole.placed old named
    · exact (lacks _ named).1
  alone first second named same := by
    rcases mem_add.1 first with early | ⟨rfl, rfl, -⟩
    · rcases mem_add.1 second with late | ⟨rfl, rfl, -⟩
      · exact sole.alone early late named same
      · exact absurd named ((lacks _ same).2 _ early)
    · rcases mem_add.1 second with late | ⟨-, rfl, -⟩
      · exact absurd same ((lacks _ named).2 _ late)
      · rfl

/-- Two supports of one cause are one, wherever they are held. -/
theorem eq_of_cause? (sole : table.Sole chart) {other : NodeRef} {given : Support} {cause : Cause}
    (first : support ∈ (table.supports node).items) (second : given ∈ (table.supports other).items)
    (named : support.cause? = some cause) (same : given.cause? = some cause) :
    (node, support) = (other, given) := by
  have one : node = other :=
    Option.some.inj ((sole.placed first named).symm.trans (sole.placed second same))
  subst one
  rw [sole.alone first second named same]

end Sole

end Activation

section Steps

variable {node : NodeRef}

theorem Performs.sole (performs : Performs engine node session after)
    (sole : session.activation.Sole engine.chart) : after.activation.Sole engine.chart := by
  rcases performs.eq_calling_or with ⟨called, origin, -, -, -, rfl⟩ | ⟨-, -, activation, -⟩
  · rw [Session.activation_calling]
    exact sole.add (.of_none rfl)
  · rwa [activation]

theorem Move.sole (move : Move engine session after) (sole : session.activation.Sole engine.chart) :
    after.activation.Sole engine.chart := by
  cases move with
  | collapsed live collapsing =>
      rw [Session.activation_tidy]
      exact sole.below collapsing.below
  | merged next active lacks =>
      obtain ⟨strand, frontier, -, -, -, known, -⟩ := engine.nextEdge?_eq_some next
      exact sole.add (.of_holdsEdge known lacks)
  | joined next idle performs =>
      obtain ⟨strand, frontier, -, -, -, known, -⟩ := engine.nextEdge?_eq_some next
      exact performs.sole (sole.add (.of_holdsEdge known (Activation.holdsEdge_of_idle idle)))

theorem Supplies.lacks {support : Support} {count : Nat}
    (supplies : Supplies (.lacking chart) session node support count) :
    session.activation.Lacks chart node support := by
  cases supplies with
  | given granted => exact granted
  | minted granted => exact .of_none (Support.cause?_of_plain granted.1 granted.2)

theorem Change.sole (change : Change engine (.lacking engine.chart) session after)
    (sole : session.activation.Sole engine.chart) : after.activation.Sole engine.chart := by
  cases change with
  | moved move => exact move.sole sole
  | offered offer =>
      cases offer with
      | counted | asked => exact sole
      | supported known fit supplies => exact sole.add supplies.lacks
      | @opened node kind support count known fit supplies =>
          have activation := Session.activation_openStrand (session.supply node support count) node kind
            support
          change ((session.supply node support count).openStrand node kind support).activation.Sole _
          rw [activation]
          exact sole.add supplies.lacks
  | heard => exact sole

end Steps

namespace Engine

/-- The triggers that the source is asked for are those without a support, and each is asked for once.
By its turn the supports of the others have been added, and none for itself. -/
theorem carryOut_follows_of_triggers {refs : List TriggerRef} (distinct : refs.Nodup) {facts : Facts}
    {table : Activation}
    (judged : ∀ ref ∈ refs, ∀ node, table.holdsTrigger node ref = false →
      session.activation.holdsTrigger node ref = false) :
    Follows engine (Offer engine (.lacking engine.chart)) session
      (engine.carryOut (refs.filterMap (IndicationSource.indicate? engine.chart facts table))
        session) := by
  induction refs generalizing session with
  | nil => exact .done []
  | cons first rest ih =>
      rw [List.nodup_cons] at distinct
      rw [List.forall_mem_cons] at judged
      cases asked : IndicationSource.indicate? engine.chart facts table first with
      | none =>
          rw [List.filterMap_cons_none asked]
          exact ih distinct.2 judged.2
      | some indication =>
          obtain ⟨trigger, known, -, vacant, rfl⟩ := IndicationSource.indicate?_eq_some_iff.1 asked
          have lacks : session.countSupport.activation.Lacks engine.chart trigger.start
              (session.nextSupport (.external (some first) trigger.condition)) :=
            .of_holdsTrigger known (judged.1 _ vacant)
          have begun : Follows engine (Offer engine (.lacking engine.chart)) session
              (engine.begin trigger.start
                (session.nextSupport (.external (some first) trigger.condition))
                session.countSupport) :=
            .trans (.single .counted) (begin_follows (.given lacks))
          rw [List.filterMap_cons_some asked, carryOut_start]
          refine begun.bind fun opened between ran => .bind (ih distinct.2 ?_) fun _ _ _ => .done _
          intro ref mem node empty
          have before := judged.2 ref mem node empty
          rw [Activation.holdsTrigger_eq_false_iff] at before ⊢
          rw [activation_begin ran, Activation.naming_add_of_ne]
          · exact before
          · rintro ⟨⟩
            exact distinct.1 mem

/-- A source that runs the triggers of the chart asks for no support that is there already. -/
theorem drives_of_source (compiled : decl.compile = .ok engine.chart)
    (source : engine.source = .triggers ∨ engine.source = .silent) :
    engine.Drives (Change engine (.lacking engine.chart)) where
  moved := .moved
  heard := .heard
  indicated facts session := by
    refine (indicate_follows_of .asked (fun fact session host => ?_) facts session).mono .offered
    rcases source with triggers | silent
    · rw [triggers]
      exact carryOut_follows_of_triggers (ChartDecl.nodup_triggersReading_of_compile compiled fact)
        fun _ _ _ empty => empty
    · rw [silent]
      exact .done []

end Engine

/-- In a table of which that is so, a cause has at most one support, at the node that it supports. -/
theorem Activation.Sole.holdingsFor (sole : session.activation.Sole chart) (cause : Cause) :
    (session.holdingsFor cause).length ≤ 1 ∧
      ∀ held ∈ session.holdingsFor cause, chart.supported? cause = some held.1 := by
  have read {held : NodeRef × Support} (mem : held ∈ session.holdingsFor cause) :
      held.2 ∈ (session.activation.supports held.1).items ∧ held.2.cause? = some cause := by
    obtain ⟨mem, named⟩ := List.mem_filter.1 mem
    exact ⟨Session.mem_of_mem_holdings mem, of_decide_eq_true named⟩
  have distinct : (session.holdingsFor cause).Nodup := session.nodup_holdings.filter _
  refine ⟨?_, fun held mem => sole.placed (read mem).1 (read mem).2⟩
  cases listed : session.holdingsFor cause with
  | nil => exact Nat.zero_le 1
  | cons first rest =>
      cases rest with
      | nil => exact Nat.le_refl 1
      | cons second rest =>
          rw [listed] at read distinct
          have early := read (List.mem_cons_self ..)
          have late := read (List.mem_cons_of_mem _ (List.mem_cons_self ..))
          have one : first = second := sole.eq_of_cause? early.1 late.1 early.2 late.2
          rw [one] at distinct
          exact absurd (List.mem_cons_self ..) (List.nodup_cons.1 distinct).1

/-- The host gives supports that name no trigger, from outside alone. -/
def Operation.Plain (operation : Operation σ) : Prop :=
  operation.granted fun _ basis => basis.Outside ∧ basis.Free

namespace Engine

/-- Wherever a run has led in which the host itself names no trigger, also one with operations that
failed, the table has at most one support for each edge, held by the target of the edge, and at most
one for each trigger, held by the start node of the trigger. -/
theorem Reaches.one_support (compiled : decl.compile = .ok engine.chart)
    (source : engine.source = .triggers ∨ engine.source = .silent) {facts : Facts}
    (reached : engine.Reaches (fun _ operation => operation.Plain) facts session) (cause : Cause) :
    (session.holdingsFor cause).length ≤ 1 ∧
      ∀ held ∈ session.holdingsFor cause, engine.chart.supported? cause = some held.1 := by
  have drives := drives_of_source compiled source
  have launches {host : σ} {session : Session σ} (launched : engine.launch facts host = .ok session) :
      session.activation.Sole engine.chart := by
    have plain (node : NodeRef) :
        (Grants.lacking engine.chart : Grants σ).mints node .unconditional := ⟨trivial, trivial⟩
    have begun (nodes : List NodeRef) (session : Session σ) :
        Follows engine (Change engine (.lacking engine.chart)) session (engine.beginAll nodes session) :=
      (beginAll_follows plain nodes session).mono .offered
    exact Changes.keep (drives.steps_of_launch begun launched) (fun sole change => change.sole sole)
      (.empty engine.chart)
  have offers {session : Session σ} {operation : Operation σ} (plain : operation.Plain) :
      operation.offers ((Grants.lacking engine.chart : Grants σ).gives session) :=
    plain.offers.mono fun given => .of_none (Support.cause?_of_plain given.1 given.2)
  have sole : session.activation.Sole engine.chart := by
    refine reached.keep (motive := fun session => session.activation.Sole engine.chart) launches
      (fun plain => Operation.follows_or_of_drives drives (offers plain)) ?_ ?_ ?_ ?_
    · exact fun sole change => change.sole sole
    · exact fun _ _ sole broke => sole.below broke.below
    · exact fun _ sole => sole.below (Session.Fades.removeSupport _ _ _).below
    · exact fun _ sole => sole
  exact sole.holdingsFor cause

end Engine

/-- Two start nodes lead to one node, and a trigger starts the first of them. -/
def forkedDecl : ChartDecl :=
  ⟨[((((FlowDecl.named "Main").addStart "S").addStart "T").addAction "A" .noop).addEdge "S" "A" none
      |>.addEdge "T" "A" none],
    [⟨"go", "Main", "S", .known "p"⟩]⟩

def forkedEngine : Engine Unit := .standard forkedDecl.chart

/-- The second start node has been started before the fact is known that starts the first. The source is
told of the fact twice over, and the host tries to begin at a node that is no origin. -/
def forkedSession : Session Unit :=
  Operation.afterAll forkedEngine
    [.begin ⟨1⟩ ⟨⟨1⟩, .unconditional⟩, .settle [], .rewrite (Facts.put ∅ "p" (some .unknown)) (),
      .settle ["p", "p"], .begin ⟨2⟩ ⟨⟨1⟩, .unconditional⟩, .settle ["p"]]
    (forkedEngine.opened ∅ ())

theorem one_support_forked :
    (forkedSession.holdingsFor (.trigger ⟨0⟩)).length = 1 ∧
      (forkedSession.holdingsFor (.edge ⟨0⟩)).length = 1 ∧
      (forkedSession.holdingsFor (.edge ⟨1⟩)).length = 1 ∧
      ∀ cause, (forkedSession.holdingsFor cause).length ≤ 1 ∧
        ∀ held ∈ forkedSession.holdingsFor cause, forkedEngine.chart.supported? cause = some held.1 := by
  have compiled : forkedDecl.compile = .ok forkedDecl.chart :=
    forkedDecl.compile_of_isOk (by decide +kernel)
  have opened : forkedEngine.Reaches (fun _ operation => operation.Plain) ∅ (forkedEngine.opened ∅ ()) :=
    .opened (by decide +kernel)
  have reached : forkedEngine.Reaches (fun _ operation => operation.Plain) ∅ forkedSession :=
    opened.afterAll ⟨⟨trivial, trivial⟩, trivial, trivial, trivial, ⟨trivial, trivial⟩, trivial, trivial⟩
  refine ⟨by decide +kernel, by decide +kernel, by decide +kernel, fun cause => ?_⟩
  exact Engine.Reaches.one_support compiled (.inl rfl) reached cause

end Flowchart
