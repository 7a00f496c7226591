import Flowchart.Proofs.Idempotence
import Flowchart.Proofs.References
import Flowchart.Proofs.Triggers
import Mathlib.Data.Set.Card

/-!
How far a strand extends in one turn. An edge that is followed either lets an inactive node join or ends
the extension, and nothing that happens on the way deactivates a node; so an extension follows at most one
edge more than there are inactive nodes, whatever the shape of the chart and whatever the handlers do.
-/
namespace Flowchart

variable {σ : Type}

/-- References with numbers below a bound are no more than the bound. -/
theorem ncard_le_of_index_lt {ρ : Type} {within : Set ρ} {index : ρ → Nat}
    (injective : Function.Injective index) {bound : Nat} (below : ∀ ref ∈ within, index ref < bound) :
    within.Finite ∧ within.ncard ≤ bound := by
  have maps : ∀ ref ∈ within, index ref ∈ (Finset.range bound : Set Nat) :=
    fun ref mem => Finset.mem_coe.2 (Finset.mem_range.2 (below ref mem))
  refine ⟨Set.Finite.of_injOn maps injective.injOn (Finset.finite_toSet _), ?_⟩
  have counted := Set.ncard_le_ncard_of_injOn index maps injective.injOn (Finset.finite_toSet _)
  rwa [Set.ncard_coe_finset, Finset.card_range] at counted

/-- The nodes of the chart. -/
def Chart.members (chart : Chart) : Set NodeRef := {node | (chart.kind? node).isSome = true}

theorem Chart.mem_members_of_kind? {chart : Chart} {node : NodeRef} {kind : NodeKind}
    (known : chart.kind? node = some kind) : node ∈ chart.members :=
  Option.isSome_iff_exists.2 ⟨kind, known⟩

theorem Chart.ncard_le_of_members {chart : Chart} {within : Set NodeRef} (subset : within ⊆ chart.members) :
    within.Finite ∧ within.ncard ≤ chart.nodes.length := by
  have injective : Function.Injective NodeRef.index := by
    rintro ⟨first⟩ ⟨second⟩ rfl
    rfl
  refine ncard_le_of_index_lt injective fun node mem => ?_
  obtain ⟨kind, known⟩ := Option.isSome_iff_exists.1 (subset mem)
  obtain ⟨record, listed, -⟩ := Option.map_eq_some_iff.1 known
  exact (List.getElem?_eq_some_iff.1 listed).1

/-- The nodes of the chart that are inactive. -/
def Session.idlers (chart : Chart) (session : Session σ) : Set NodeRef :=
  {node | node ∈ chart.members ∧ session.isActive node = false}

/-- An extension with neither fuel nor limit: the edges of `edges` selections are followed one after the
other, from the session given to the result. -/
inductive Extends (engine : Engine σ) (id : StrandId) :
    Session σ → Nat → EStateM.Result Fault (Session σ) Bool → Prop
  | waits {session : Session σ} (next : engine.nextEdge? session id = none) :
      Extends engine id session 0 (.ok false session)
  | merges {session after : Session σ} {ref : EdgeRef} {edge : Edge} {supported : Bool}
      (next : engine.nextEdge? session id = some (ref, edge))
      (ran : engine.follow id ref edge session = .ok (.merged supported) after) :
      Extends engine id session 1 (.ok supported after)
  | refused {session after : Session σ} {ref : EdgeRef} {edge : Edge} {fault : Fault}
      (next : engine.nextEdge? session id = some (ref, edge))
      (ran : engine.follow id ref edge session = .error fault after) :
      Extends engine id session 1 (.error fault after)
  | joins {session between after : Session σ} {ref : EdgeRef} {edge : Edge} {edges : Nat} {changed : Bool}
      (next : engine.nextEdge? session id = some (ref, edge))
      (ran : engine.follow id ref edge session = .ok .joined between)
      (later : Extends engine id between edges (.ok changed after)) :
      Extends engine id session (edges + 1) (.ok true after)
  | breaks {session between after : Session σ} {ref : EdgeRef} {edge : Edge} {edges : Nat} {fault : Fault}
      (next : engine.nextEdge? session id = some (ref, edge))
      (ran : engine.follow id ref edge session = .ok .joined between)
      (later : Extends engine id between edges (.error fault after)) :
      Extends engine id session (edges + 1) (.error fault after)

theorem SessionM.allows_mono {limit : Option UInt64} {turns fewer : Nat} (allows : Allows limit turns)
    (within : fewer ≤ turns) : Allows limit fewer :=
  fun bound given => within.trans (allows bound given)

section Bound

variable {engine : Engine σ} {decl : ChartDecl} {id : StrandId} {session between : Session σ}

/-- A node that joins a strand is one inactive node less. -/
theorem Engine.idlers_lt_of_joined {after : Session σ} {ref : EdgeRef} {target : NodeRef}
    (known : target ∈ engine.chart.members) (idle : session.isActive target = false)
    (performs : Performs engine target (session.joining id ref target) after) :
    (after.idlers engine.chart).ncard < (session.idlers engine.chart).ncard := by
  have active : ∀ node, (target = node ∨ session.isActive node = true) → after.isActive node = true := by
    intro node joined
    refine Activation.isActive_mono (performs.above node) ?_
    have joins := session.isActive_joining id ref target node
    rw [Session.isActive] at joins
    rw [joins, Bool.or_eq_true, decide_eq_true_eq]
    exact joined
  refine Set.ncard_lt_ncard ⟨fun node mem => ⟨mem.1, ?_⟩, fun all => ?_⟩
    (Chart.ncard_le_of_members fun _ mem => mem.1).1
  · refine Bool.eq_false_iff.2 fun before => ?_
    exact Bool.false_ne_true (mem.2.symm.trans (active node (.inr before)))
  · exact Bool.false_ne_true ((all ⟨known, idle⟩).2.symm.trans (active target (.inl rfl)))

/-- A node that joins was inactive, and none becomes inactive instead. -/
theorem Engine.idlers_lt_of_follow (compiled : decl.compile = .ok engine.chart) {ref : EdgeRef}
    {edge : Edge} (next : engine.nextEdge? session id = some (ref, edge))
    (ran : engine.follow id ref edge session = .ok .joined between) :
    (between.idlers engine.chart).ncard < (session.idlers engine.chart).ncard := by
  obtain ⟨strand, frontier, -, -, -, known, -⟩ := engine.nextEdge?_eq_some next
  have enters := (ChartDecl.ends_of_compile compiled known).2
  rcases follow_cases engine id ref edge session with
    ⟨-, -, went⟩ | ⟨-, -, went⟩ | ⟨idle, after, performs, went⟩ | ⟨-, after, fault, -, went⟩
  · cases ran.symm.trans went
  · cases ran.symm.trans went
  · cases ran.symm.trans went
    have fewer := idlers_lt_of_joined enters idle performs
    exact fewer
  · cases ran.symm.trans went

theorem Extends.edges_le (compiled : decl.compile = .ok engine.chart) {edges : Nat}
    {result : EStateM.Result Fault (Session σ) Bool} (run : Extends engine id session edges result) :
    edges ≤ (session.idlers engine.chart).ncard + 1 := by
  induction run with
  | waits => exact Nat.zero_le _
  | merges | refused => exact Nat.le_add_left 1 _
  | joins next ran _ ih | breaks next ran _ ih =>
      have fewer := Engine.idlers_lt_of_follow compiled next ran
      omega

namespace Engine

theorem extend_of_waits {fuel steps : Nat} (next : engine.nextEdge? session id = none) :
    engine.extend id (fuel + 1) steps session = .ok false session := by
  have got : (get : SessionM σ (Session σ)) session = .ok session session := rfl
  rw [extend, SessionM.bind_of_ok got, next]
  rfl

/-- A step within the limit, and what is made of it. -/
theorem extend_of_next {fuel steps : Nat} {ref : EdgeRef} {edge : Edge}
    (next : engine.nextEdge? session id = some (ref, edge))
    (allows : SessionM.Allows engine.config.maxFlowSteps (steps + 1)) :
    engine.extend id (fuel + 1) steps session =
      (engine.follow id ref edge >>= fun
        | .merged supported => pure supported
        | .joined => engine.extend id fuel (steps + 1) >>= fun _ => pure true) session := by
  have got : (get : SessionM σ (Session σ)) session = .ok session session := rfl
  rw [extend, SessionM.bind_of_ok got, next]
  exact SessionM.bind_of_ok (SessionM.checkLimit_of_allows .flowSteps allows session)

theorem extend_of_joined {fuel steps : Nat} {ref : EdgeRef} {edge : Edge}
    (next : engine.nextEdge? session id = some (ref, edge))
    (allows : SessionM.Allows engine.config.maxFlowSteps (steps + 1))
    (ran : engine.follow id ref edge session = .ok .joined between) :
    engine.extend id (fuel + 1) steps session =
      (engine.extend id fuel (steps + 1) >>= fun _ => pure true) between := by
  rw [extend_of_next next allows, SessionM.bind_of_ok ran]

end Engine

/-- An extension comes to its end, by the number of inactive nodes. -/
theorem exists_extends (compiled : decl.compile = .ok engine.chart) (id : StrandId)
    (session : Session σ) : ∃ edges result, Extends engine id session edges result := by
  induction idle : (session.idlers engine.chart).ncard using Nat.strong_induction_on generalizing session with
  | _ count ih =>
      subst idle
      cases next : engine.nextEdge? session id with
      | none => exact ⟨0, _, .waits next⟩
      | some selected =>
          obtain ⟨ref, edge⟩ := selected
          cases ran : engine.follow id ref edge session with
          | error fault after => exact ⟨1, _, .refused next ran⟩
          | ok step between =>
              cases step with
              | merged supported => exact ⟨1, _, .merges next ran⟩
              | joined =>
                  have fewer := Engine.idlers_lt_of_follow compiled next ran
                  obtain ⟨edges, result, later⟩ := ih _ fewer between rfl
                  cases result with
                  | ok changed after => exact ⟨edges + 1, _, .joins next ran later⟩
                  | error fault after => exact ⟨edges + 1, _, .breaks next ran later⟩

/-- Fuel above the number of inactive nodes and a limit that allows for the edges make no difference. -/
theorem Extends.extend_eq (compiled : decl.compile = .ok engine.chart) {edges : Nat}
    {result : EStateM.Result Fault (Session σ) Bool} (run : Extends engine id session edges result)
    {fuel steps : Nat} (enough : (session.idlers engine.chart).ncard ≤ fuel)
    (allows : SessionM.Allows engine.config.maxFlowSteps (steps + edges)) :
    engine.extend id (fuel + 1) steps session = result := by
  induction run generalizing fuel steps with
  | waits next => exact Engine.extend_of_waits next
  | merges next ran =>
      rw [Engine.extend_of_next next allows, SessionM.bind_of_ok ran]
      rfl
  | refused next ran => rw [Engine.extend_of_next next allows, SessionM.bind_of_error ran]
  | @joins session between after ref edge edges changed next ran later ih =>
      have fewer := Nat.lt_of_lt_of_le (Engine.idlers_lt_of_follow compiled next ran) enough
      -- There is fuel left, as it was counted for the node that joined.
      obtain ⟨fuel, rfl⟩ := Nat.exists_eq_succ_of_ne_zero (Nat.ne_zero_of_lt fewer)
      have went : engine.extend id (fuel + 1) (steps + 1) between = .ok changed after :=
        ih (Nat.le_of_lt_succ fewer) (SessionM.allows_mono allows (by omega))
      rw [Engine.extend_of_joined next (SessionM.allows_mono allows (by omega)) ran,
        SessionM.bind_of_ok went]
      rfl
  | @breaks session between after ref edge edges fault next ran later ih =>
      have fewer := Nat.lt_of_lt_of_le (Engine.idlers_lt_of_follow compiled next ran) enough
      obtain ⟨fuel, rfl⟩ := Nat.exists_eq_succ_of_ne_zero (Nat.ne_zero_of_lt fewer)
      have went : engine.extend id (fuel + 1) (steps + 1) between = .error fault after :=
        ih (Nat.le_of_lt_succ fewer) (SessionM.allows_mono allows (by omega))
      rw [Engine.extend_of_joined next (SessionM.allows_mono allows (by omega)) ran,
        SessionM.bind_of_error went]

end Bound

end Flowchart
