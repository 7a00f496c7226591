import Flowchart.Proofs.Decided
import Flowchart.Proofs.Idempotence

/-!
Finished sessions. A host asks on as long as an active node has an edge that is open to further
answers. Where there is none, no answer that may still come changes anything: what rests on facts was
decided by those that are known, and settling again finds the session at rest.
-/
namespace Flowchart

variable {σ : Type} {engine : Engine σ} {chart : Chart} {session : Session σ} {later : Facts}

/-- No edge asks if a fact is known. -/
def Chart.AsksNoKnown (chart : Chart) : Prop :=
  ∀ edge ∈ chart.edges, ∀ condition ∈ edge.condition, condition.asksKnown = false

/-- Whether a basis from outside asks if a fact is known. -/
def Basis.asksKnown : Basis → Bool
  | .external _ condition => condition.asksKnown
  | _ => false

/-- No support from outside asks if a fact is known. -/
def Session.AsksNoKnown (session : Session σ) : Prop :=
  ∀ node, ∀ support ∈ (session.activation.supports node).items, support.basis.asksKnown = false

/-- The host has answered facts, and may have changed besides. -/
def Session.answered (session : Session σ) (facts : Facts) (host : σ) : Session σ :=
  { session with facts := facts, host := host }

theorem Chart.AsksNoKnown.guard_foretells (plain : chart.AsksNoKnown) {facts : Facts}
    (grows : facts.Grows later) {ref : EdgeRef} {edge : Edge} (known : chart.edge? ref = some edge) :
    (Condition.evalGuard facts edge.condition).Foretells (Condition.evalGuard later edge.condition) := by
  cases guarded : edge.condition with
  | none => exact .refl _
  | some condition => exact Condition.eval_foretells grows condition (plain edge
      (List.mem_of_getElem? known) condition guarded)

namespace Session

/-- No outgoing edge of an active node waits for an answer. -/
theorem decided_of_openEdges (closed : session.openEdges chart = []) {node : NodeRef}
    (active : session.isActive node = true) {ref : EdgeRef} (leaves : ref ∈ chart.outgoing node)
    {edge : Edge} (known : chart.edge? ref = some edge) :
    (Condition.evalGuard session.facts edge.condition).isPending = false := by
  have mem : ref ∈ session.activeNodes.flatMap chart.outgoing :=
    List.mem_flatMap.2 ⟨node, Activation.mem_activeNodes.2 active, leaves⟩
  have pass := List.filter_eq_nil_iff.1 closed ref mem
  rw [known, Option.any_some] at pass
  exact Bool.eq_false_iff.2 pass

/-- What the outgoing edges of active nodes come to is final. -/
theorem guard_of_grows (closed : session.openEdges chart = []) (plain : chart.AsksNoKnown)
    (grows : session.facts.Grows later) {node : NodeRef} (active : session.isActive node = true)
    {ref : EdgeRef} (leaves : ref ∈ chart.outgoing node) {edge : Edge}
    (known : chart.edge? ref = some edge) :
    Condition.evalGuard later edge.condition = Condition.evalGuard session.facts edge.condition :=
  plain.guard_foretells grows known (decided_of_openEdges closed active leaves known)

theorem opens_of_grows (closed : session.openEdges chart = []) (plain : chart.AsksNoKnown)
    (grows : session.facts.Grows later) {node : NodeRef} (active : session.isActive node = true)
    {ref : EdgeRef} (leaves : ref ∈ chart.outgoing node) :
    chart.opens later ref = chart.opens session.facts ref := by
  unfold Chart.opens
  cases known : chart.edge? ref with
  | none => rfl
  | some edge =>
      rw [Option.any_some, Option.any_some, guard_of_grows closed plain grows active leaves known]

/-- A support that holds goes on holding, whether its edge was open to answers or not. -/
theorem holds_of_grows (plain : chart.AsksNoKnown) (asks : session.AsksNoKnown)
    (grows : session.facts.Grows later) {node : NodeRef} {support : Support}
    (mem : support ∈ (session.activation.supports node).items)
    (holds : support.basis.holds chart session.facts session.activation = true) :
    support.basis.holds chart later session.activation = true := by
  cases basis : support.basis with
  | unconditional => rfl
  | external trigger condition =>
      have asked := asks node support mem
      rw [basis] at holds asked
      exact Condition.holds_of_grows grows asked holds
  | edge ref =>
      rw [basis] at holds
      obtain ⟨edge, known, passes⟩ := (Option.any_eq_true _ _).1 holds
      rw [Bool.and_eq_true] at passes
      have still := (plain.guard_foretells grows known).isSatisfied_le passes.2
      exact (Option.any_eq_true _ _).2 ⟨edge, known, by rw [passes.1, still, Bool.true_and]⟩
  | caller composed => rwa [basis] at holds

/-- The frontier of a strand at rest is active. -/
theorem AtRest.active_frontier (rest : session.AtRest chart) {strand : Strand}
    (listed : strand ∈ session.strands.items) {frontier : NodeRef}
    (last : strand.frontier? = some frontier) : session.isActive frontier = true := by
  obtain ⟨entry, mem, rfl⟩ := List.mem_map.1 (List.mem_of_getLast? last)
  exact rest.active strand listed entry mem

theorem AtRest.stuck_answered (rest : session.AtRest chart) (closed : session.openEdges chart = [])
    (plain : chart.AsksNoKnown) (grows : session.facts.Grows later) (host : σ) {strand : Strand}
    (listed : strand ∈ session.strands.items) : strand.Stuck chart (session.answered later host) := by
  have same : ∀ {frontier}, strand.frontier? = some frontier → ∀ ref ∈ chart.outgoing frontier,
      chart.opens later ref = chart.opens session.facts ref := fun last _ leaves =>
    opens_of_grows closed plain grows (rest.active_frontier listed last) leaves
  cases rest.stuck strand listed with
  | ended last kind past => exact .ended last kind past
  | closed last none => exact .closed last fun ref leaves => (same last ref leaves).trans (none ref leaves)
  | @merged frontier before following ref edge last split none opened known active held =>
      refine .merged last split (fun earlier early => ?_) ?_ known active held
      · have leaves : earlier ∈ chart.outgoing frontier := split ▸ List.mem_append_left _ early
        exact (same last earlier leaves).trans (none earlier early)
      · have leaves : ref ∈ chart.outgoing frontier :=
          split ▸ List.mem_append_right _ (List.mem_cons_self ..)
        exact (same last ref leaves).trans opened

theorem AtRest.answered (rest : session.AtRest chart) (closed : session.openEdges chart = [])
    (plain : chart.AsksNoKnown) (asks : session.AsksNoKnown) (grows : session.facts.Grows later)
    (host : σ) : (session.answered later host).AtRest chart where
  vouched node support mem := holds_of_grows plain asks grows mem (rest.vouched node support mem)
  active := rest.active
  stuck _ listed := rest.stuck_answered closed plain grows host listed

/-- The strands of the session have the same edges to follow as before. -/
theorem AtRest.nextEdge?_answered (rest : session.AtRest engine.chart)
    (closed : session.openEdges engine.chart = []) (plain : engine.chart.AsksNoKnown)
    (grows : session.facts.Grows later) (host : σ) {strand : Strand}
    (listed : strand ∈ session.strands.items) :
    engine.nextEdge? (session.answered later host) strand.id = engine.nextEdge? session strand.id := by
  have found : session.strands.get? strand.id = some strand := Roster.get?_eq_some_iff.2 ⟨listed, rfl⟩
  have still : (session.answered later host).strands.get? strand.id = some strand := found
  unfold Engine.nextEdge?
  simp only [found, still, Option.bind_eq_bind, Option.bind_some]
  refine Option.bind_congr fun frontier last => ?_
  split
  · rfl
  · rw [← List.head?_filterMap, ← List.head?_filterMap]
    refine congrArg List.head? (List.filterMap_congr fun ref leaves => ?_)
    refine Option.bind_congr fun edge known => ?_
    have same := guard_of_grows closed plain grows (rest.active_frontier listed last) leaves known
    rw [← same]
    rfl

end Session

/-- A source that is silent leaves a session alone. -/
theorem Engine.indicate_of_silent (source : engine.source = .silent) (facts : List String)
    (session : Session σ) : engine.indicate facts session = .ok [] session := by
  induction facts generalizing session with
  | nil => rfl
  | cons fact rest ih =>
      have carried : engine.carryOut [] session = .ok [] session := rfl
      rw [indicate_cons, source]
      exact (SessionM.bind_of_ok carried).trans (SessionM.bind_of_ok (ih session))

/-- In a chart and a session that nowhere ask if a fact is known, settling that leaves no edge open to
answers has settled the session for good: whatever is answered then, or marked unknown, the next
settling succeeds in one round that reports nothing and leaves the session as it is. -/
theorem Engine.Reaches.settle_answered {decl : ChartDecl} (compiled : decl.compile = .ok engine.chart)
    (source : engine.source = .silent) (plain : engine.chart.AsksNoKnown) {facts : Facts}
    {session after : Session σ} (reached : engine.Reaches (fun _ _ => True) facts session)
    {changed : List String} {report : Report}
    (settled : engine.settle changed session = .ok report after) (asks : after.AsksNoKnown)
    (closed : after.openEdges engine.chart = []) {later : Facts} (grows : after.facts.Grows later)
    (host : σ) (answers : List String) :
    engine.settle answers (after.answered later host) =
      .ok ⟨if engine.chart.isEmpty then 0 else 1, false, [], []⟩ (after.answered later host) := by
  cases empty : engine.chart.isEmpty with
  | true =>
      unfold settle settleWithin
      rw [if_pos empty]
      rfl
  | false =>
      have indicates := engine.indicates_of_silent source
      have rest := engine.rests_of_settle compiled indicates reached.orderly settled
      obtain ⟨before, latest, orderly, last⟩ := engine.exists_quiet_round empty reached.orderly settled
      obtain ⟨untouched, steps⟩ := engine.round_quiet_leaves compiled indicates orderly last
      have still : (after.answered later host).Orderly engine :=
        (reached.orderly.settle settled).fade ⟨rfl, rfl, fun _ _ mem => mem⟩
      -- What the last round did in the settled session it does again in the answered one.
      have again := engine.round_of_rest still (rest.answered closed plain asks grows host) untouched
        fun strand listed selected next => steps strand listed selected <| by
          rwa [rest.nextEdge?_answered closed plain grows host listed] at next
      have asked := engine.indicate_of_silent source answers (after.answered later host)
      obtain ⟨fuel, same⟩ := engine.exists_roundFuel_eq
      unfold settle settleWithin
      rw [if_neg (Bool.eq_false_iff.1 empty), SessionM.bind_of_ok asked, same]
      exact engine.settleRounds_of_still (engine.allows_of_settle empty settled) again fuel

/-- The start has an outside reason that either fact alone gives, and both are needed to go on. -/
def pauseDecl : ChartDecl :=
  ⟨[((FlowDecl.named "Main").addStart "S").addAction "A" .noop
      |>.addEdge "S" "A" (some (.all [.equals "q" (.bool true), .equals "p" (.bool true)]))], []⟩

def pauseEngine : Engine Unit := { Engine.standard pauseDecl.chart with source := .silent }

/-- One of the facts is answered, in a way that keeps the strand where it is. -/
def pauseFacts : Facts := Facts.put ∅ "q" (some (.value (.bool false)))

/-- Both facts are answered. -/
def pauseAnswers : Facts := pauseFacts.put "p" (some (.value (.bool true)))

def pauseSession : Session Unit :=
  Operation.afterAll pauseEngine
    [.rewrite pauseFacts (), .mint .unconditional,
      .begin ⟨0⟩ ⟨⟨1⟩, .external none (.any [.equals "q" (.bool false), .equals "p" (.bool true)])⟩]
    (pauseEngine.opened ∅ ())

theorem settle_answered_pause :
    ((Operation.settle ["q"]).after pauseEngine pauseSession).isActive ⟨0⟩ = true ∧
      pauseEngine.settle ["p"]
          (((Operation.settle ["q"]).after pauseEngine pauseSession).answered pauseAnswers ()) =
        .ok ⟨1, false, [], []⟩
          (((Operation.settle ["q"]).after pauseEngine pauseSession).answered pauseAnswers ()) := by
  have compiled : pauseDecl.compile = .ok pauseDecl.chart :=
    pauseDecl.compile_of_isOk (by decide +kernel)
  have plain : pauseEngine.chart.AsksNoKnown := by
    unfold Chart.AsksNoKnown
    decide +kernel
  have opened : pauseEngine.Reaches (fun _ _ => True) ∅ (pauseEngine.opened ∅ ()) :=
    .opened (by decide +kernel)
  have reached : pauseEngine.Reaches (fun _ _ => True) ∅ pauseSession :=
    opened.afterAll ⟨trivial, trivial, trivial, trivial⟩
  obtain ⟨report, settled⟩ := Operation.exists_report_of_succeeds
    (show (Operation.settle ["q"]).succeeds pauseEngine pauseSession = true by decide +kernel)
  have asks : ((Operation.settle ["q"]).after pauseEngine pauseSession).AsksNoKnown := by
    intro node support mem
    obtain ⟨row, listed, here⟩ := Activation.exists_row_of_mem mem
    have rows : (((Operation.settle ["q"]).after pauseEngine pauseSession).activation.items.all
        fun row => row.2.items.all fun support => !support.basis.asksKnown) = true := by decide +kernel
    simpa using List.all_eq_true.1 (List.all_eq_true.1 rows row listed) support here
  have grows : ((Operation.settle ["q"]).after pauseEngine pauseSession).facts.Grows
      pauseAnswers := by
    have same : ((Operation.settle ["q"]).after pauseEngine pauseSession).facts = pauseFacts := by
      decide +kernel
    rw [same]
    exact .put (by decide +kernel) _
  exact ⟨by decide +kernel, Engine.Reaches.settle_answered compiled rfl plain reached settled asks
    (by decide +kernel) grows () ["p"]⟩

end Flowchart
