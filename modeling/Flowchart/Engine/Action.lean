import Flowchart.Session

/-!
Opening strands at origins, and the actions by which nodes join and leave strands.
-/
namespace Flowchart.Engine

variable {σ : Type}

/-- The kind of a node at which a strand may begin. -/
def originKind (engine : Engine σ) (node : NodeRef) : SessionM σ NodeKind :=
  match engine.chart.kind? node with
  | none => throw (.unknownNode node)
  | some kind =>
    if kind.isOrigin then return kind else throw (.notAnOrigin (engine.chart.label node))

/-- The action of a node that concerns no other node and no host. -/
def arrive (node : NodeRef) (kind : NodeKind) : SessionM σ Unit :=
  if kind = .snapshot then modify fun session => session.reachSnapshot node else pure ()

def openStrand (node : NodeRef) (kind : NodeKind) (support : Support) : SessionM σ StrandId := do
  let id ← SessionM.mintStrandId
  SessionM.attempt .perform node (arrive node kind)
  modify fun session => session.putStrand ⟨id, [⟨node, support⟩]⟩
  return id

/-- Supports an origin. A strand is opened there only if the node was inactive. -/
def begin (engine : Engine σ) (node : NodeRef) (support : Support) :
    SessionM σ (Option StrandId) := do
  let kind ← engine.originKind node
  let wasActive := (← get).isActive node
  modify fun session => session.addSupport node support
  let opened ← if wasActive then pure none else some <$> openStrand node kind support
  modify fun session => session.leaveFootprint (.started node)
  return opened

/-- Supports an origin and opens a strand there whether it was active or not. -/
def openAt (engine : Engine σ) (node : NodeRef) (support : Support) : SessionM σ StrandId := do
  let kind ← engine.originKind node
  modify fun session => session.addSupport node support
  openStrand node kind support

/-- Fails unless the node is a composed node of the chart. -/
def checkComposed (engine : Engine σ) (node : NodeRef) : SessionM σ Unit :=
  match engine.chart.kind? node with
  | none => throw (.unknownNode node)
  | some kind =>
    if kind.isComposed then pure () else throw (.notComposed (engine.chart.label node))

/-- Opens a strand at an origin on behalf of a composed node. -/
def enter (engine : Engine σ) (composed node : NodeRef) (support : Support) :
    SessionM σ StrandId := do
  engine.checkComposed composed
  let id ← engine.openAt node support
  modify fun session => session.leaveFootprint (.started node)
  return id

/-- Runs one part of the handler that a node invokes. -/
def react (engine : Engine σ) (node : NodeRef) (handler : String)
    (part : Handler σ → Node → Facts → σ → Reaction σ) : SessionM σ Unit := do
  match engine.handlers.at? handler, engine.chart.node? node with
  | none, _ => throw (.unknownAction handler)
  | _, none => throw (.unknownNode node)
  | some found, some record =>
    let session ← get
    let reaction := part found record session.facts session.host
    set { session with facts := reaction.facts, host := reaction.host }
    match reaction.failure with
    | none => pure ()
    | some failure => throw (.action (engine.chart.label node) failure)

/-- A composed node supports the start node it calls and keeps a record of the support. -/
def call (engine : Engine σ) (node called : NodeRef) : SessionM σ Unit := do
  let support ← SessionM.mint (.caller node)
  let _ ← engine.openAt called support
  modify fun session => session.recordCall node called support.id

/-- What a node does when it joins a strand. -/
def perform (engine : Engine σ) (node : NodeRef) : SessionM σ Unit :=
  SessionM.attempt .perform node <|
    match engine.chart.kind? node with
    | none => throw (.unknownNode node)
    | some .start => arrive node .start
    | some .snapshot => arrive node .snapshot
    | some (.action .noop) => pure ()
    | some (.action (.assign fact value)) => modify fun session => session.assign node fact value
    | some (.action (.invoke handler)) => engine.react node handler Handler.perform
    | some (.composed called) => engine.call node called

/-- What a node does when it leaves a strand. -/
def revert (engine : Engine σ) (node : NodeRef) : SessionM σ Unit :=
  SessionM.attempt .revert node <|
    match engine.chart.kind? node with
    | none => throw (.unknownNode node)
    | some .start => pure ()
    | some .snapshot => modify fun session => session.leaveSnapshot node
    | some (.action .noop) => pure ()
    | some (.action (.assign fact _)) => modify fun session => session.unassign node fact
    | some (.action (.invoke handler)) => engine.react node handler Handler.revert
    | some (.composed _) => modify fun session => session.endCall node

end Flowchart.Engine
