import Flowchart.Proofs.Provenance
import Flowchart.Proofs.Rest
import Mathlib.Data.Fintype.Card
import Mathlib.Data.Set.Finite.Basic
import Mathlib.Order.WellFounded

/-!
Where the activity of a session at rest comes from. Every support is judged by the node it came from,
so going back from node to node one meets a node that is supported from outside, or goes round in a
circle. Circles are kept alive by nothing but themselves; without them in the chart all activity comes
from outside.
-/
namespace Flowchart

variable {σ : Type} {engine : Engine σ} {chart : Chart}

def Activation.Fitting (chart : Chart) (table : Activation) : Prop :=
  ∀ node, ∀ support ∈ (table.supports node).items, support.basis.Fits chart node

def Session.Fitting (chart : Chart) (session : Session σ) : Prop := session.activation.Fitting chart

theorem Activation.Fitting.below {table narrower : Activation} (fitting : table.Fitting chart)
    (below : narrower.Below table) : narrower.Fitting chart :=
  fun node support mem => fitting node support (below node support mem)

theorem Change.fitting {session after : Session σ}
    (change : Change engine (.ofBasis fun _ basis => basis.Outside) session after)
    (fitting : session.activation.Fitting engine.chart) : after.activation.Fitting engine.chart := by
  intro node support mem
  rcases change.gains mem with old | outside | minted | minted
  · exact fitting node support old
  · exact Basis.Outside.fits outside node
  · exact minted.basis.fits node
  · exact minted.basis.2

/-- As long as the host supports nodes from outside alone, every support is where it belongs. -/
theorem Engine.Reaches.fitting {facts : Facts} {session : Session σ}
    (source : engine.SourceGrants fun _ basis => basis.Outside)
    (reached : engine.Reaches (fun _ operation => operation.FromOutside) facts session) :
    session.Fitting engine.chart := by
  have mints : engine.SourceGrants (Grants.ofBasis fun _ basis => basis.Outside : Grants σ).mints :=
    source
  refine Engine.Reaches.invariant mints ?_ Operation.granted.offers ?_ ?_ ?_ ?_ ?_ reached
  · exact fun _ => trivial
  · intro host node support mem
    cases mem
  · exact fun fitting change => change.fitting fitting
  · exact fun _ _ fitting broke => fitting.below broke.below
  · exact fun _ fitting => fitting.below (Session.Fades.removeSupport _ _ _).below
  · exact fun _ fitting => fitting

theorem Engine.Indicates.sourceGrants (indicates : engine.Indicates) :
    engine.SourceGrants fun _ basis => basis.Outside := by
  intro facts table fact host indication mem
  obtain ⟨node, trigger, condition, rfl, -⟩ := indicates facts table fact host indication mem
  trivial

/-- A node is a reason for another to be active: an open edge leads from the one to the other, or the
one calls the other, and the other has the support that tells so. -/
inductive Session.Justifies (chart : Chart) (session : Session σ) (source node : NodeRef) : Prop
  | edge {support : Support} {ref : EdgeRef} {edge : Edge} (active : session.isActive source = true)
      (held : support ∈ (session.activation.supports node).items) (basis : support.basis = .edge ref)
      (known : chart.edge? ref = some edge) (leaves : edge.source = source)
      (enters : edge.target = node) (opened : chart.opens session.facts ref = true)
  | caller {support : Support} (active : session.isActive source = true)
      (held : support ∈ (session.activation.supports node).items)
      (basis : support.basis = .caller source)
      (calls : chart.kind? source = some (.composed node))

/-- The node holds a support from outside that holds. -/
def Session.Founded (session : Session σ) (node : NodeRef) : Prop :=
  ∃ support ∈ (session.activation.supports node).items, support.basis = .unconditional ∨
    ∃ trigger condition, support.basis = .external trigger condition ∧
      condition.holds session.facts = true

/-- An edge leads from the one node to the other, or the one calls the other. -/
inductive Chart.Leads (chart : Chart) (source node : NodeRef) : Prop
  | edge {ref : EdgeRef} {edge : Edge} (known : chart.edge? ref = some edge)
      (leaves : edge.source = source) (enters : edge.target = node)
  | call (calls : chart.kind? source = some (.composed node))

def Chart.Acyclic (chart : Chart) : Prop := ∀ node, ¬Relation.TransGen chart.Leads node node

theorem Session.Justifies.leads {session : Session σ} {source node : NodeRef}
    (justifies : session.Justifies chart source node) : chart.Leads source node := by
  cases justifies with
  | edge _ _ _ known leaves enters => exact .edge known leaves enters
  | caller _ _ _ calls => exact .call calls

theorem Session.Justifies.active {session : Session σ} {source node : NodeRef}
    (justifies : session.Justifies chart source node) : session.isActive source = true := by
  cases justifies with
  | edge active | caller active => exact active

namespace Session

variable {session : Session σ}

/-- At rest an active node is founded, or another active node is the reason for it. -/
theorem AtRest.founded_or_justified (rest : session.AtRest chart) (fitting : session.Fitting chart)
    {node : NodeRef} (active : session.isActive node = true) :
    session.Founded node ∨ ∃ source, session.Justifies chart source node := by
  obtain ⟨support, held⟩ := Activation.isActive_iff.1 active
  have valid := rest.vouched node support held
  have fits := fitting node support held
  cases basis : support.basis with
  | unconditional => exact .inl ⟨support, held, .inl basis⟩
  | external trigger condition =>
      rw [basis] at valid
      exact .inl ⟨support, held, .inr ⟨trigger, condition, basis, valid⟩⟩
  | edge ref =>
      rw [basis] at valid fits
      obtain ⟨edge, known, enters⟩ := fits
      simp only [Basis.holds, known, Option.any_some, Bool.and_eq_true] at valid
      refine .inr ⟨edge.source, .edge valid.1 held basis known rfl enters ?_⟩
      rw [Chart.opens, known]
      exact valid.2
  | caller composed =>
      rw [basis] at valid fits
      exact .inr ⟨composed, .caller valid held basis fits⟩

theorem finite_active (session : Session σ) : {node | session.isActive node = true}.Finite :=
  Set.Finite.subset session.activation.keys.finite_toSet fun _ active =>
    Activation.mem_keys_of_isActive active

end Session

/-- Whoever goes back from an element of a finite set, step by step, meets an element where it can
stop or one that it has met before. -/
theorem exists_base_or_circle {α : Type} {r : α → α → Prop} {base : α → Prop} {within : Set α}
    (finite : within.Finite) (back : ∀ a ∈ within, base a ∨ ∃ b ∈ within, r b a) {a : α}
    (mem : a ∈ within) :
    ∃ b, Relation.ReflTransGen r b a ∧ (base b ∨ Relation.TransGen r b b) := by
  by_contra none
  push Not at none
  -- The elements from which `a` is reached are ordered by reachability, for want of a circle.
  let Before := {b // b ∈ within ∧ Relation.ReflTransGen r b a}
  have few : Finite Before := (finite.subset fun b here => here.1 : {b | b ∈ within ∧ _}.Finite)
  have acyclic : WellFounded fun b c : Before => Relation.TransGen r b.1 c.1 := by
    have : IsTrans Before fun b c => Relation.TransGen r b.1 c.1 := ⟨fun _ _ _ => .trans⟩
    have : Std.Irrefl fun b c : Before => Relation.TransGen r b.1 c.1 :=
      ⟨fun b circle => (none b.1 b.2.2).2 circle⟩
    exact Finite.wellFounded_of_trans_of_irrefl _
  obtain ⟨⟨b, here, reaches⟩, -, first⟩ := acyclic.has_min Set.univ ⟨⟨a, mem, .refl⟩, trivial⟩
  rcases back b here with stop | ⟨c, there, step⟩
  · exact (none b reaches).1 stop
  · exact first ⟨c, there, .head step reaches⟩ trivial (.single step)

/-- Activity in a session at rest comes from outside or from a circle. -/
theorem Session.AtRest.exists_founded_or_circular {session : Session σ} (rest : session.AtRest chart)
    (fitting : session.Fitting chart) {node : NodeRef} (active : session.isActive node = true) :
    ∃ origin, Relation.ReflTransGen (session.Justifies chart) origin node ∧
      (session.Founded origin ∨ Relation.TransGen (session.Justifies chart) origin origin) := by
  refine exists_base_or_circle session.finite_active (fun other live => ?_) active
  rcases rest.founded_or_justified fitting live with founded | ⟨source, justifies⟩
  · exact .inl founded
  · exact .inr ⟨source, justifies.active, justifies⟩

/-- Whatever a host does that supports nodes from outside alone, after a settling that succeeds every
active node has its activity from a node supported from outside or from a circle of nodes. Where edges
and calls form no circle it has it from outside. -/
theorem Engine.Reaches.founded_or_circular {decl : ChartDecl} (compiled : decl.compile = .ok engine.chart)
    (source : engine.source = .triggers ∨ engine.source = .silent) {facts : Facts}
    {session after : Session σ}
    (reached : engine.Reaches (fun _ operation => operation.FromOutside) facts session)
    {changed : List String} {report : Report}
    (settled : engine.settle changed session = .ok report after) {node : NodeRef}
    (active : after.isActive node = true) :
    (∃ origin, Relation.ReflTransGen (after.Justifies engine.chart) origin node ∧
      (after.Founded origin ∨ Relation.TransGen (after.Justifies engine.chart) origin origin)) ∧
    (engine.chart.Acyclic →
      ∃ origin, Relation.ReflTransGen (after.Justifies engine.chart) origin node ∧
        after.Founded origin) := by
  have indicates := engine.indicates_of_source source
  have rest := engine.rests_of_settle compiled indicates reached.orderly settled
  have ended : engine.Reaches (fun _ operation => operation.FromOutside) facts
      ((Operation.settle changed).after engine session) := .after reached trivial
  have fitting : after.Fitting engine.chart := by
    have final := Engine.Reaches.fitting indicates.sourceGrants ended
    rwa [Operation.after_settle_of_ok settled] at final
  obtain ⟨origin, chain, ends⟩ := rest.exists_founded_or_circular fitting active
  refine ⟨⟨origin, chain, ends⟩, fun acyclic => ?_⟩
  rcases ends with founded | circle
  · exact ⟨origin, chain, founded⟩
  · have around : Relation.TransGen engine.chart.Leads origin origin :=
      circle.lift id fun _ _ justifies => justifies.leads
    exact absurd around (acyclic origin)

/-- From a triggered start one comes into a circle of two nodes. -/
def loopDecl : ChartDecl :=
  ⟨[((((FlowDecl.named "Main").addStart "S").addAction "A" .noop).addAction "B" .noop)
      |>.addEdge "S" "A" none |>.addEdge "A" "B" none |>.addEdge "B" "A" none],
    [⟨"go", "Main", "S", .known "q"⟩]⟩

def loopEngine : Engine Unit := .standard loopDecl.chart

/-- The trigger has fired, and its fact has been taken back. -/
def loopSession : Session Unit :=
  Operation.afterAll loopEngine
    [.rewrite (Facts.put ∅ "q" (some (.value (.bool true)))) (), .settle ["q"], .rewrite ∅ ()]
    (loopEngine.opened ∅ ())

theorem reaches_loopSession :
    loopEngine.Reaches (fun _ operation => operation.FromOutside) ∅ loopSession := by
  have opened : loopEngine.Reaches (fun _ operation => operation.FromOutside) ∅
      (loopEngine.opened ∅ ()) := .opened (by decide +kernel)
  exact opened.afterAll ⟨trivial, trivial, trivial, trivial⟩

theorem settle_loopSession : ∃ report, loopEngine.settle ["q"] loopSession =
    .ok report ((Operation.settle ["q"]).after loopEngine loopSession) :=
  Operation.exists_report_of_succeeds (by decide +kernel)

theorem founded_or_circular_loop :
    ∃ origin, Relation.ReflTransGen
        (((Operation.settle ["q"]).after loopEngine loopSession).Justifies loopEngine.chart) origin ⟨1⟩ ∧
      (((Operation.settle ["q"]).after loopEngine loopSession).Founded origin ∨
        Relation.TransGen
          (((Operation.settle ["q"]).after loopEngine loopSession).Justifies loopEngine.chart) origin
          origin) := by
  have compiled : loopDecl.compile = .ok loopDecl.chart := loopDecl.compile_of_isOk (by decide +kernel)
  obtain ⟨report, settled⟩ := settle_loopSession
  have active : ((Operation.settle ["q"]).after loopEngine loopSession).isActive ⟨1⟩ = true := by
    decide +kernel
  exact (Engine.Reaches.founded_or_circular compiled (.inl rfl) reaches_loopSession settled active).1

/-- The two nodes keep each other active when nothing supports them from outside. -/
theorem loop_active_unfounded :
    loopDecl.compile = .ok loopEngine.chart ∧ loopEngine.source = .triggers ∧
      loopEngine.Reaches (fun _ operation => operation.FromOutside) ∅ loopSession ∧
      (∃ report, loopEngine.settle ["q"] loopSession =
        .ok report ((Operation.settle ["q"]).after loopEngine loopSession)) ∧
      ((Operation.settle ["q"]).after loopEngine loopSession).isActive ⟨1⟩ = true ∧
      ¬∃ origin, Relation.ReflTransGen
          (((Operation.settle ["q"]).after loopEngine loopSession).Justifies loopEngine.chart) origin
          ⟨1⟩ ∧
        ((Operation.settle ["q"]).after loopEngine loopSession).Founded origin := by
  refine ⟨loopDecl.compile_of_isOk (by decide +kernel), rfl, reaches_loopSession, settle_loopSession,
    by decide +kernel, ?_⟩
  rintro ⟨origin, -, support, held, outside⟩
  have edges : (((Operation.settle ["q"]).after loopEngine loopSession).activation.items.all fun row =>
      row.2.items.all fun support => support.edge?.isSome) = true := by decide +kernel
  obtain ⟨row, listed, here⟩ := Activation.exists_row_of_mem held
  have along := List.all_eq_true.1 (List.all_eq_true.1 edges row listed) support here
  obtain ⟨ref, along⟩ := Option.isSome_iff_exists.1 along
  have basis := Support.edge?_eq_some_iff.1 along
  rcases outside with same | ⟨trigger, condition, same, -⟩
  · cases basis.symm.trans same
  · cases basis.symm.trans same

end Flowchart
