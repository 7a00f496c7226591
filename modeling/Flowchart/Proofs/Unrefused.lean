import Flowchart.Proofs.Extension
import Flowchart.Proofs.Finished
import Flowchart.Proofs.Pruning

/-!
Rounds that succeed. In a compiled chart whose nodes write no facts no action is ever refused, and an
extension ends before its fuel does; so without a limit on the steps of a strand a round can only
succeed.
-/
namespace Flowchart

variable {σ : Type} {engine : Engine σ} {chart : Chart} {decl : ChartDecl}

/-- Every node of a compiled chart has what it takes, where no handlers are called for. -/
theorem Chart.Inert.serves (inert : engine.chart.Inert) (compiled : decl.compile = .ok engine.chart)
    {node : NodeRef} (known : (engine.chart.kind? node).isSome = true) : engine.serves node = true := by
  obtain ⟨kind, known⟩ := Option.isSome_iff_exists.1 known
  have fit := inert.of_kind known
  unfold Engine.serves
  rw [known]
  cases kind with
  | start | snapshot => rfl
  | composed called =>
      have start := ChartDecl.called_of_compile compiled known
      simp only [start, Option.any_some, NodeKind.isOrigin]
  | action action =>
      cases action with
      | noop => rfl
      | assign | invoke => cases fit

/-- Only what is not served is refused. -/
theorem Refuses.not_serves {node : NodeRef} {deed : Deed} {session after : Session σ}
    (refuses : Refuses engine node deed session after) (inert : engine.chart.Inert) :
    engine.serves node = false := by
  cases refuses with
  | unserved lacks | uncalled lacks => exact lacks
  | failed reacts => exact absurd inert reacts.not_inert

/-- Nothing is refused on the way of an extension. -/
theorem Chart.Inert.exists_ok_of_extends (inert : engine.chart.Inert)
    (compiled : decl.compile = .ok engine.chart) {id : StrandId} {session : Session σ} {edges : Nat}
    {result : EStateM.Result Fault (Session σ) Bool} (run : Extends engine id session edges result) :
    ∃ changed after, result = .ok changed after := by
  induction run with
  | waits | merges | joins => exact ⟨_, _, rfl⟩
  | @refused session after ref edge fault next ran =>
      obtain ⟨strand, frontier, -, -, -, known, -⟩ := engine.nextEdge?_eq_some next
      have enters := (ChartDecl.ends_of_compile compiled known).2
      rcases engine.follow_cases id ref edge session with
        ⟨-, -, went⟩ | ⟨-, -, went⟩ | ⟨-, left, -, went⟩ | ⟨-, left, raised, refuses, -⟩
      · cases ran.symm.trans went
      · cases ran.symm.trans went
      · cases ran.symm.trans went
      · cases (inert.serves compiled enters).symm.trans (refuses.not_serves inert)
  | breaks next ran later ih =>
      obtain ⟨changed, after, ended⟩ := ih
      cases ended

namespace Engine

variable {session after : Session σ} {id : StrandId}

/-- An extension has no more steps to take than there are inactive nodes. -/
theorem exists_extend (compiled : decl.compile = .ok engine.chart) (inert : engine.chart.Inert)
    (unlimited : engine.config.maxFlowSteps = none) (id : StrandId) {fuel : Nat} (steps : Nat)
    (enough : (session.idlers engine.chart).ncard < fuel) :
    ∃ changed after, engine.extend id fuel steps session = .ok changed after := by
  obtain ⟨edges, result, run⟩ := exists_extends compiled id session
  obtain ⟨fuel, rfl⟩ := Nat.exists_eq_succ_of_ne_zero (Nat.ne_zero_of_lt enough)
  have allows : SessionM.Allows engine.config.maxFlowSteps (steps + edges) := by
    rw [unlimited]
    exact nofun
  rw [run.extend_eq compiled (Nat.le_of_lt_succ enough) allows]
  exact inert.exists_ok_of_extends compiled run

/-- A collapse has nothing in its way. -/
theorem exists_collapse (inert : engine.chart.Inert) (inv : session.Orderly engine)
    (live : session.strands.contains id = true) :
    ∃ kept after, Collapsing engine id session (kept, after) ∧ (∀ mark ∈ kept, mark.2 = true) ∧
      engine.collapse id session =
        .ok ((session.verdicts engine.chart id).any fun mark => !mark.2) after := by
  rcases collapse_cases engine id session with
    collapsed | ⟨before, entry, rest, now, left, fault, collapsing, refuses, -⟩
  · exact collapsed
  · have underway := Session.Underway.collapsing inv live collapsing
    have entered : entry ∈ now.entries id := by
      rw [underway.listed]
      exact List.mem_map_of_mem (List.mem_append_right _ (List.mem_cons_self ..))
    have served := underway.served entry.node (Session.mem_nodes_of_mem_entries entered)
    cases served.symm.trans (refuses.not_serves inert)

theorem exists_advance (compiled : decl.compile = .ok engine.chart) (inert : engine.chart.Inert)
    (unlimited : engine.config.maxFlowSteps = none) (inv : session.Orderly engine)
    (live : session.strands.contains id = true) :
    ∃ changed after, engine.advance id session = .ok changed after := by
  obtain ⟨kept, between, -, -, collapsed⟩ := exists_collapse inert inv live
  have enough : (between.idlers engine.chart).ncard < engine.chart.nodes.length + 1 :=
    Nat.lt_succ_of_le (Chart.ncard_le_of_members fun _ mem => mem.1).2
  obtain ⟨changed, after, extended⟩ := exists_extend compiled inert unlimited id 0 enough
  refine ⟨((session.verdicts engine.chart id).any fun mark => !mark.2) || changed, after, ?_⟩
  unfold advance
  rw [SessionM.bind_of_ok collapsed, SessionM.bind_of_ok extended]
  rfl

theorem exists_turns (compiled : decl.compile = .ok engine.chart) (inert : engine.chart.Inert)
    (unlimited : engine.config.maxFlowSteps = none) (inv : session.Orderly engine)
    (ids : List StrandId) :
    ∃ changed finished after, engine.turns ids session = .ok (changed, finished) after := by
  induction ids generalizing session with
  | nil => exact ⟨false, [], session, rfl⟩
  | cons id rest ih =>
      cases live : session.strands.contains id with
      | true =>
          obtain ⟨changed, after, advanced⟩ := exists_advance compiled inert unlimited inv live
          obtain ⟨later, finished, last, others⟩ := ih (orderly_of_advance inv live advanced)
          refine ⟨changed || later, if (after.entries id).isEmpty then id :: finished else finished,
            last, ?_⟩
          rw [turns_cons_of_live rest live, SessionM.bind_of_ok advanced,
            SessionM.bind_of_ok (dropIfEmpty_eq id after), SessionM.bind_of_ok others]
          rfl
      | false =>
          rw [turns_cons_of_dead rest live]
          exact ih inv

/-- What the source indicates are starts of start nodes. -/
theorem starts_of_source (compiled : decl.compile = .ok engine.chart)
    (source : engine.source = .triggers ∨ engine.source = .silent) {facts : Facts}
    {table : Activation} {fact : String} {host : σ} {indication : Indication}
    (mem : indication ∈ (engine.source engine.chart facts table fact host).1) :
    ∃ node basis, indication = .start node basis ∧ engine.chart.kind? node = some .start := by
  rcases source with triggers | silent
  · rw [triggers] at mem
    obtain ⟨ref, -, made⟩ := List.mem_filterMap.1 mem
    obtain ⟨trigger, known, -, -, rfl⟩ := IndicationSource.indicate?_eq_some_iff.1 made
    exact ⟨trigger.start, _, rfl, ChartDecl.start_of_compile compiled known⟩
  · rw [silent] at mem
    cases mem

/-- A start node is never refused a support. -/
theorem exists_begin {node : NodeRef} (start : engine.chart.kind? node = some .start)
    (support : Support) (session : Session σ) :
    ∃ opened after, engine.begin node support session = .ok opened after := by
  rcases begin_cases engine node support session with
    ⟨-, -, -, -, ran⟩ | ⟨kind, -, -, -, ran⟩ | ⟨unfit, -⟩
  · exact ⟨_, _, ran⟩
  · exact ⟨_, _, ran⟩
  · rw [start] at unfit
    cases unfit

theorem exists_carryOut {indications : List Indication}
    (starts : ∀ indication ∈ indications,
      ∃ node basis, indication = .start node basis ∧ engine.chart.kind? node = some .start)
    (session : Session σ) :
    ∃ opened after, engine.carryOut indications session = .ok opened after := by
  induction indications generalizing session with
  | nil => exact ⟨[], session, rfl⟩
  | cons indication rest ih =>
      rw [List.forall_mem_cons] at starts
      obtain ⟨node, basis, rfl, start⟩ := starts.1
      obtain ⟨opened, begun, ran⟩ :=
        exists_begin start (session.nextSupport basis) session.countSupport
      obtain ⟨later, after, others⟩ := ih starts.2 begun
      refine ⟨opened.toList ++ later, after, ?_⟩
      rw [carryOut_start, SessionM.bind_of_ok ran, SessionM.bind_of_ok others]
      rfl

/-- Changes of facts can always be told to the triggers of a compiled chart. -/
theorem exists_indicate (compiled : decl.compile = .ok engine.chart)
    (source : engine.source = .triggers ∨ engine.source = .silent) (facts : List String)
    (session : Session σ) : ∃ started after, engine.indicate facts session = .ok started after := by
  induction facts generalizing session with
  | nil => exact ⟨[], session, rfl⟩
  | cons fact rest ih =>
      obtain ⟨opened, begun, carried⟩ :=
        exists_carryOut (fun _ mem => starts_of_source compiled source mem) _
      obtain ⟨later, after, others⟩ := ih begun
      refine ⟨opened ++ later, after, ?_⟩
      rw [indicate_cons, SessionM.bind_of_ok carried, SessionM.bind_of_ok others]
      rfl

end Engine

end Flowchart
