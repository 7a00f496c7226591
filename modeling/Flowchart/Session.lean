import Flowchart.Engine

/-!
Sessions: everything that changes while an engine runs a chart, and the single changes it consists
of. An operation that fails leaves the session as far as it had come.
-/
namespace Flowchart

/-- The two actions of a node: the one on joining a strand, the one on leaving it. -/
inductive Deed where
  | perform
  | revert
  deriving DecidableEq, Repr

/-- What a node went through: it was supported as an origin from outside, or its action was run. -/
inductive Footprint where
  | started (node : NodeRef)
  | acted (node : NodeRef) (deed : Deed) (completed : Bool)
  deriving DecidableEq, Repr

/-- `replaced` keeps, for each node that assigns a fact, the state it wrote over; `calls` keeps, for
each composed node, the start node it called and the support it gave it. `touched` are the facts that
nodes have written since the source was last asked; the trail is newest first. -/
structure Session (σ : Type) where
  facts : Facts
  activation : Activation
  strands : Registry
  snapshots : List NodeRef
  replaced : Listing NodeRef FactState
  calls : Listing NodeRef (NodeRef × SupportId)
  touched : List String
  supportCount : Nat
  strandCount : Nat
  host : σ
  trail : List Footprint

namespace Session

variable {σ : Type}

def fresh (facts : Facts) (host : σ) : Session σ :=
  ⟨facts, ∅, ∅, [], ∅, ∅, [], 0, 0, host, []⟩

def isActive (session : Session σ) (node : NodeRef) : Bool := session.activation.isActive node

def activeNodes (session : Session σ) : List NodeRef := session.activation.activeNodes

/-- The entries of a strand; a strand that is not live has none. -/
def entries (session : Session σ) (id : StrandId) : List Entry :=
  ((session.strands.get? id).map Strand.entries).getD []

def putFact (session : Session σ) (fact : String) (state : FactState) : Session σ :=
  { session with facts := session.facts.put fact state }

def addSupport (session : Session σ) (node : NodeRef) (support : Support) : Session σ :=
  { session with activation := session.activation.add node support }

def removeSupport (session : Session σ) (node : NodeRef) (id : SupportId) : Session σ :=
  { session with activation := session.activation.remove node id }

def putStrand (session : Session σ) (strand : Strand) : Session σ :=
  { session with strands := session.strands.insert strand }

def dropStrand (session : Session σ) (id : StrandId) : Session σ :=
  { session with strands := session.strands.erase id }

def reachSnapshot (session : Session σ) (node : NodeRef) : Session σ :=
  { session with
    snapshots :=
      if node ∈ session.snapshots then session.snapshots else session.snapshots ++ [node] }

def leaveSnapshot (session : Session σ) (node : NodeRef) : Session σ :=
  { session with snapshots := session.snapshots.erase node }

/-- The node writes a value and keeps what was there before. -/
def assign (session : Session σ) (node : NodeRef) (fact : String) (value : Value) : Session σ :=
  { session with
    facts := session.facts.put fact (some (.value value))
    replaced := session.replaced.set node (session.facts.state fact)
    touched := session.touched ++ [fact] }

/-- The node puts back what it wrote over; without a record it does nothing. -/
def unassign (session : Session σ) (node : NodeRef) (fact : String) : Session σ :=
  match session.replaced.at? node with
  | none => session
  | some previous =>
    { session with
      facts := session.facts.put fact previous
      replaced := session.replaced.erase node
      touched := session.touched ++ [fact] }

def recordCall (session : Session σ) (composed start : NodeRef) (id : SupportId) : Session σ :=
  { session with calls := session.calls.set composed (start, id) }

/-- The composed node takes back the support it gave; without a record it does nothing. -/
def endCall (session : Session σ) (composed : NodeRef) : Session σ :=
  match session.calls.at? composed with
  | none => session
  | some (start, id) =>
    { session with
      calls := session.calls.erase composed
      activation := session.activation.remove start id }

def leaveFootprint (session : Session σ) (footprint : Footprint) : Session σ :=
  { session with trail := footprint :: session.trail }

/-- The outgoing edges of active nodes whose condition cannot be decided yet. -/
def openEdges (session : Session σ) (chart : Chart) : List EdgeRef :=
  (session.activeNodes.flatMap chart.outgoing).filter fun ref =>
    (chart.edge? ref).any fun edge => (Condition.evalGuard session.facts edge.condition).isPending

end Session

/-- An operation on a session. The session after a fault is part of its result. -/
abbrev SessionM (σ : Type) := EStateM Fault (Session σ)

namespace SessionM

variable {σ : Type}

/-- A support with a number that no support had before. -/
def mint (basis : Basis) : SessionM σ Support :=
  modifyGet fun session =>
    (⟨⟨session.supportCount + 1⟩, basis⟩,
      { session with supportCount := session.supportCount + 1 })

def mintStrandId : SessionM σ StrandId :=
  modifyGet fun session =>
    (⟨session.strandCount + 1⟩, { session with strandCount := session.strandCount + 1 })

def takeTouched : SessionM σ (List String) :=
  modifyGet fun session => (session.touched, { session with touched := [] })

/-- Runs the action of a node and leaves a footprint of how it went. -/
def attempt (deed : Deed) (node : NodeRef) (action : SessionM σ Unit) : SessionM σ Unit :=
  fun session =>
    match action session with
    | .ok _ session => .ok () (session.leaveFootprint (.acted node deed true))
    | .error fault session => .error fault (session.leaveFootprint (.acted node deed false))

/-- Runs an action and changes what it left behind if it failed. -/
def onFault (action : SessionM σ Unit) (change : Session σ → Session σ) : SessionM σ Unit :=
  fun session =>
    match action session with
    | .ok _ session => .ok () session
    | .error fault session => .error fault (change session)

/-- Fails if a loop wants more turns than its limit allows. -/
def checkLimit (loop : Loop) (limit : Option UInt64) (wanted : Nat) : SessionM σ Unit :=
  match limit with
  | none => pure ()
  | some bound => if bound.toNat < wanted then throw (.limit loop bound) else pure ()

/-- Drops a strand that has no entries; true if it had none. -/
def dropIfEmpty (id : StrandId) : SessionM σ Bool :=
  modifyGet fun session =>
    if (session.entries id).isEmpty then (true, session.dropStrand id) else (false, session)

end SessionM

end Flowchart
