import Flowchart.Engine.Action

/-!
One turn of a strand. First every run of entries whose nodes have lost their last support is undone,
latest entry first; then the frontier follows satisfied edges until the strand has to wait.
-/
namespace Flowchart.Engine

variable {σ : Type}

/-- Undoes the entries of a run, given latest first, between the entries before and after it. An
entry leaves the strand only once its action is reverted. -/
def undoRun (engine : Engine σ) (id : StrandId) (before after : List Entry) :
    List Entry → SessionM σ Unit
  | [] => pure ()
  | entry :: earlier => do
    modify fun session => session.removeSupport entry.node entry.support.id
    engine.revert entry.node
    modify fun session => session.putStrand ⟨id, before ++ earlier.reverse ++ after⟩
    undoRun engine id before after earlier

/-- Undoes, from left to right, the runs of entries that were found inactive. -/
def undoRuns (engine : Engine σ) (id : StrandId) (before : List Entry) :
    List (List (Entry × Bool)) → SessionM σ Unit
  | [] => pure ()
  | run :: rest => do
    let entries := run.map Prod.fst
    if run.all Prod.snd then undoRuns engine id (before ++ entries) rest
    else
      undoRun engine id before (rest.flatten.map Prod.fst) entries.reverse
      undoRuns engine id before rest

/-- Removes every run of entries whose nodes are no longer active; true if there was one. -/
def collapse (engine : Engine σ) (id : StrandId) : SessionM σ Bool := do
  let session ← get
  let (verdicts, swept) :=
    sweepEntries engine.chart session.facts session.activation (session.entries id)
  set { session with activation := swept }
  engine.undoRuns id [] (verdicts.splitBy fun a b => a.2 == b.2)
  return verdicts.any fun verdict => !verdict.2

/-- The first outgoing edge of the frontier that is satisfied, unless the strand ends at a snapshot. -/
def nextEdge? (engine : Engine σ) (session : Session σ) (id : StrandId) :
    Option (EdgeRef × Edge) := do
  let strand ← session.strands.get? id
  let frontier ← strand.frontier?
  if engine.chart.kind? frontier = some .snapshot && !strand.resumes then none
  else
    (engine.chart.outgoing frontier).findSome? fun ref => do
      let edge ← engine.chart.edge? ref
      if (Condition.evalGuard session.facts edge.condition).isSatisfied then some (ref, edge)
      else none

/-- How an edge was followed: to a node that joined the strand, or into one active already. -/
inductive Step where
  | joined
  | merged (supported : Bool)
  deriving DecidableEq, Repr

/-- Gives an active target a support for the edge, unless it has one. -/
def merge (ref : EdgeRef) (target : NodeRef) : SessionM σ Step := do
  if (← get).activation.holdsEdge target ref then return .merged false
  else
    let support ← SessionM.mint (.edge ref)
    modify fun session => session.addSupport target support
    return .merged true

/-- Lets an inactive target join the strand; it leaves again if its action fails. -/
def join (engine : Engine σ) (id : StrandId) (ref : EdgeRef) (target : NodeRef) :
    SessionM σ Step := do
  let before := (← get).entries id
  let support ← SessionM.mint (.edge ref)
  modify fun session =>
    (session.addSupport target support).putStrand ⟨id, before ++ [⟨target, support⟩]⟩
  (engine.perform target).onFault fun session =>
    (session.putStrand ⟨id, before⟩).removeSupport target support.id
  return .joined

/-- Follows an edge from the frontier of a strand. -/
def follow (engine : Engine σ) (id : StrandId) (ref : EdgeRef) (edge : Edge) :
    SessionM σ Step := do
  if (← get).isActive edge.target then merge ref edge.target
  else engine.join id ref edge.target

/-- Extends the frontier until the strand has to wait; true if anything was supported. Each step but
the last makes an inactive node active, so `fuel` above the number of nodes is never used up. -/
def extend (engine : Engine σ) (id : StrandId) (fuel steps : Nat) : SessionM σ Bool :=
  match fuel with
  | 0 => throw (.unfinished .flowSteps)
  | fuel + 1 => do
    match engine.nextEdge? (← get) id with
    | none => return false
    | some (ref, edge) =>
      SessionM.checkLimit .flowSteps engine.config.maxFlowSteps (steps + 1)
      match ← engine.follow id ref edge with
      | .merged supported => return supported
      | .joined =>
        let _ ← extend engine id fuel (steps + 1)
        return true

/-- Collapses a strand, then extends it; true if either changed anything. -/
def advance (engine : Engine σ) (id : StrandId) : SessionM σ Bool := do
  let collapsed ← engine.collapse id
  let extended ← engine.extend id (engine.chart.nodes.length + 1) 0
  return collapsed || extended

end Flowchart.Engine
