import Flowchart.Engine.Settle
import Mathlib.Logic.Relation

/-!
The single changes by which an engine moves a session. A change is taken whole: a strand is collapsed
to its end, a node that joins a strand has done its action. What an action does is told apart from
the changes around it, and where an action is refused the change it belongs to breaks off.
-/
namespace Flowchart

variable {σ : Type}

/-- The part of a handler that a deed runs. -/
def Deed.part : Deed → Handler σ → Node → Facts → σ → Reaction σ
  | .perform => Handler.perform
  | .revert => Handler.revert

namespace Session

/-- The support that is minted next. -/
def nextSupport (session : Session σ) (basis : Basis) : Support :=
  ⟨⟨session.supportCount + 1⟩, basis⟩

def countSupport (session : Session σ) : Session σ :=
  { session with supportCount := session.supportCount + 1 }

def arriveAt (session : Session σ) (node : NodeRef) (kind : NodeKind) : Session σ :=
  (if kind = .snapshot then session.reachSnapshot node else session).leaveFootprint
    (.acted node .perform true)

def openStrand (session : Session σ) (node : NodeRef) (kind : NodeKind) (support : Support) :
    Session σ :=
  ({ session with strandCount := session.strandCount + 1 }.arriveAt node kind).putStrand
    ⟨⟨session.strandCount + 1⟩, [⟨node, support⟩]⟩

theorem openStrand_eq (session : Session σ) (node : NodeRef) (kind : NodeKind) (support : Support) :
    ∃ snapshots, session.openStrand node kind support =
      { session with
        strandCount := session.strandCount + 1
        snapshots := snapshots
        trail := .acted node .perform true :: session.trail
        strands := session.strands.insert ⟨⟨session.strandCount + 1⟩, [⟨node, support⟩]⟩ } := by
  unfold openStrand arriveAt
  split <;> exact ⟨_, rfl⟩

/-- A composed node has opened a strand at the start node it calls. -/
def calling (session : Session σ) (composed called : NodeRef) (kind : NodeKind) : Session σ :=
  let support := session.nextSupport (.caller composed)
  ((session.countSupport.addSupport called support).openStrand called kind support).recordCall
    composed called support.id

/-- The target of an edge has joined a strand and has not acted yet. -/
def joining (session : Session σ) (id : StrandId) (ref : EdgeRef) (target : NodeRef) : Session σ :=
  let support := session.nextSupport (.edge ref)
  (session.countSupport.addSupport target support).putStrand
    ⟨id, session.entries id ++ [⟨target, support⟩]⟩

/-- The target of an edge has left the strand again, which has the entries of `before`. -/
def parting (session before : Session σ) (id : StrandId) (target : NodeRef) : Session σ :=
  (session.putStrand ⟨id, before.entries id⟩).removeSupport target ⟨before.supportCount + 1⟩

def recount (session : Session σ) (count : Nat) : Session σ := { session with supportCount := count }

/-- The node has got a support from outside, and so many supports have been minted. -/
def supply (session : Session σ) (node : NodeRef) (support : Support) (count : Nat) : Session σ :=
  (session.recount count).addSupport node support

def merging (session : Session σ) (ref : EdgeRef) (target : NodeRef) : Session σ :=
  session.countSupport.addSupport target (session.nextSupport (.edge ref))

/-- The entries of a strand with the verdicts of a sweep along it. -/
def verdicts (session : Session σ) (chart : Chart) (id : StrandId) : List (Entry × Bool) :=
  (sweepEntries chart session.facts session.activation (session.entries id)).1

def swept (session : Session σ) (chart : Chart) (id : StrandId) : Session σ :=
  { session with
    activation := (sweepEntries chart session.facts session.activation (session.entries id)).2 }

/-- A strand without entries is dropped. -/
def tidy (session : Session σ) (id : StrandId) : Session σ :=
  if (session.entries id).isEmpty then session.dropStrand id else session

end Session

/-- Whether the engine has what the actions of a node take: the node, the handler that it invokes,
the origin that it calls. -/
def Engine.serves (engine : Engine σ) (node : NodeRef) : Bool :=
  match engine.chart.kind? node with
  | none => false
  | some (.action (.invoke handler)) => (engine.handlers.at? handler).isSome
  | some (.composed called) => (engine.chart.kind? called).any NodeKind.isOrigin
  | some _ => true

/-- A handler has run a deed of a node and ended with the failure given, if any. -/
inductive Reacts (engine : Engine σ) (node : NodeRef) (deed : Deed) :
    Option ActionFailure → Session σ → Session σ → Prop
  | handled {session : Session σ} {name : String} {handler : Handler σ} {record : Node}
      (invokes : engine.chart.kind? node = some (.action (.invoke name)))
      (registered : engine.handlers.at? name = some handler)
      (known : engine.chart.node? node = some record) :
      Reacts engine node deed (deed.part handler record session.facts session.host).failure session
        { session with
          facts := (deed.part handler record session.facts session.host).facts
          host := (deed.part handler record session.facts session.host).host }

/-- A handler touches nothing but the facts and the state of its host. -/
theorem Reacts.exists_eq {engine : Engine σ} {node : NodeRef} {deed : Deed}
    {failure : Option ActionFailure} {session after : Session σ}
    (reacts : Reacts engine node deed failure session after) :
    ∃ facts host, after = { session with facts := facts, host := host } := by
  cases reacts
  exact ⟨_, _, rfl⟩

theorem Reacts.exists_kind {engine : Engine σ} {node : NodeRef} {deed : Deed}
    {failure : Option ActionFailure} {session after : Session σ}
    (reacts : Reacts engine node deed failure session after) :
    ∃ name, engine.chart.kind? node = some (.action (.invoke name)) := by
  cases reacts with
  | handled invokes => exact ⟨_, invokes⟩

/-- What a node does to the session when it joins a strand, its footprint apart. -/
inductive Performs (engine : Engine σ) (node : NodeRef) : Session σ → Session σ → Prop
  | started {session} (kind : engine.chart.kind? node = some .start) :
      Performs engine node session session
  | idled {session} (kind : engine.chart.kind? node = some (.action .noop)) :
      Performs engine node session session
  | reached {session} (kind : engine.chart.kind? node = some .snapshot) :
      Performs engine node session (session.reachSnapshot node)
  | assigned {session} {fact : String} {value : Value}
      (kind : engine.chart.kind? node = some (.action (.assign fact value))) :
      Performs engine node session (session.assign node fact value)
  | invoked {session after} (reacts : Reacts engine node .perform none session after) :
      Performs engine node session after
  | called {session} {start : NodeRef} {origin : NodeKind}
      (kind : engine.chart.kind? node = some (.composed start))
      (known : engine.chart.kind? start = some origin) (fit : origin.isOrigin = true) :
      Performs engine node session (session.calling node start origin)

/-- What a node does to the session when it leaves a strand, its footprint apart. -/
inductive Reverts (engine : Engine σ) (node : NodeRef) : Session σ → Session σ → Prop
  | started {session} (kind : engine.chart.kind? node = some .start) :
      Reverts engine node session session
  | idled {session} (kind : engine.chart.kind? node = some (.action .noop)) :
      Reverts engine node session session
  | reached {session} (kind : engine.chart.kind? node = some .snapshot) :
      Reverts engine node session (session.leaveSnapshot node)
  | assigned {session} {fact : String} {value : Value}
      (kind : engine.chart.kind? node = some (.action (.assign fact value))) :
      Reverts engine node session (session.unassign node fact)
  | invoked {session after} (reacts : Reacts engine node .revert none session after) :
      Reverts engine node session after
  | called {session} {start : NodeRef} (kind : engine.chart.kind? node = some (.composed start)) :
      Reverts engine node session (session.endCall node)

/-- What is left of a deed that was refused: nothing, or what its handler did before it failed. -/
inductive Refuses (engine : Engine σ) (node : NodeRef) (deed : Deed) : Session σ → Session σ → Prop
  | unserved {session} (lacks : engine.serves node = false) : Refuses engine node deed session session
  | uncalled {session} (lacks : engine.serves node = false) :
      Refuses engine node deed session session.countSupport
  | failed {session after} {failure : ActionFailure}
      (reacts : Reacts engine node deed (some failure) session after) :
      Refuses engine node deed session after

/-- One of the entries that a sweep found inactive is undone and leaves its strand. The entries of
the strand are listed with the verdicts of the sweep. -/
inductive Undoes (engine : Engine σ) (id : StrandId) :
    List (Entry × Bool) × Session σ → List (Entry × Bool) × Session σ → Prop
  | entry {before after : List (Entry × Bool)} {entry : Entry} {session reverted : Session σ}
      (reverts : Reverts engine entry.node (session.removeSupport entry.node entry.support.id) reverted) :
      Undoes engine id (before ++ (entry, false) :: after, session)
        (before ++ after,
          (reverted.leaveFootprint (.acted entry.node .revert true)).putStrand
            ⟨id, (before ++ after).map Prod.fst⟩)

/-- A strand has been swept, and some of the entries found inactive have been undone. -/
def Collapsing (engine : Engine σ) (id : StrandId) (session : Session σ)
    (now : List (Entry × Bool) × Session σ) : Prop :=
  Relation.ReflTransGen (Undoes engine id)
    (session.verdicts engine.chart id, session.swept engine.chart id) now

/-- What the turn of a strand does to a session. -/
inductive Move (engine : Engine σ) : Session σ → Session σ → Prop
  | collapsed {session after} {id : StrandId} {kept : List (Entry × Bool)}
      (live : session.strands.contains id = true)
      (collapsing : Collapsing engine id session (kept, after))
      (settled : ∀ verdict ∈ kept, verdict.2 = true) :
      Move engine session (after.tidy id)
  | merged {session} {id : StrandId} {ref : EdgeRef} {edge : Edge}
      (next : engine.nextEdge? session id = some (ref, edge))
      (active : session.isActive edge.target = true)
      (lacks : session.activation.holdsEdge edge.target ref = false) :
      Move engine session (session.merging ref edge.target)
  | joined {session after} {id : StrandId} {ref : EdgeRef} {edge : Edge}
      (next : engine.nextEdge? session id = some (ref, edge))
      (idle : session.isActive edge.target = false)
      (performs : Performs engine edge.target (session.joining id ref edge.target) after) :
      Move engine session (after.leaveFootprint (.acted edge.target .perform true))

/-- Which supports the host may give to an origin, told in the session in which it gives them, and on
which bases a support may be minted for an origin. -/
structure Grants (σ : Type) where
  gives : Session σ → NodeRef → Support → Prop
  mints : NodeRef → Basis → Prop

def Grants.all : Grants σ := ⟨fun _ _ _ => True, fun _ _ => True⟩

def Grants.ofBasis (grants : NodeRef → Basis → Prop) : Grants σ :=
  ⟨fun _ node support => grants node support.basis, grants⟩

/-- How an origin comes by a support, and how many supports have been minted then. -/
inductive Supplies (grants : Grants σ) (session : Session σ) (node : NodeRef) : Support → Nat → Prop
  | given {support : Support} (granted : grants.gives session node support) :
      Supplies grants session node support session.supportCount
  | minted {basis : Basis} (granted : grants.mints node basis) :
      Supplies grants session node (session.nextSupport basis) (session.supportCount + 1)

/-- What supporting origins from outside does to a session. -/
inductive Offer (engine : Engine σ) (grants : Grants σ) : Session σ → Session σ → Prop
  | counted {session} : Offer engine grants session session.countSupport
  | asked {session} {host : σ} : Offer engine grants session { session with host := host }
  | supported {session} {node : NodeRef} {kind : NodeKind} {support : Support} {count : Nat}
      (known : engine.chart.kind? node = some kind) (fit : kind.isOrigin = true)
      (supplies : Supplies grants session node support count)
      (active : session.isActive node = true) :
      Offer engine grants session
        ((session.supply node support count).leaveFootprint (.started node))
  | opened {session} {node : NodeRef} {kind : NodeKind} {support : Support} {count : Nat}
      (known : engine.chart.kind? node = some kind) (fit : kind.isOrigin = true)
      (supplies : Supplies grants session node support count) :
      Offer engine grants session
        (((session.supply node support count).openStrand node kind support).leaveFootprint
          (.started node))

/-- One change of a session: in the turn of a strand, from outside, or by asking what was touched. -/
inductive Change (engine : Engine σ) (grants : Grants σ) : Session σ → Session σ → Prop
  | moved {session after} (move : Move engine session after) : Change engine grants session after
  | offered {session after} (offer : Offer engine grants session after) :
      Change engine grants session after
  | heard {session} : Change engine grants session { session with touched := [] }

/-- A change that broke off because an action was refused. -/
inductive Break (engine : Engine σ) : Session σ → Session σ → Prop
  | collapse {session now after} {id : StrandId} {before rest : List (Entry × Bool)} {entry : Entry}
      (live : session.strands.contains id = true)
      (collapsing : Collapsing engine id session (before ++ (entry, false) :: rest, now))
      (refuses : Refuses engine entry.node .revert
        (now.removeSupport entry.node entry.support.id) after) :
      Break engine session (after.leaveFootprint (.acted entry.node .revert false))
  | join {session after} {id : StrandId} {ref : EdgeRef} {edge : Edge}
      (next : engine.nextEdge? session id = some (ref, edge))
      (idle : session.isActive edge.target = false)
      (refuses : Refuses engine edge.target .perform (session.joining id ref edge.target) after) :
      Break engine session
        ((after.leaveFootprint (.acted edge.target .perform false)).parting session id edge.target)

/-- What each step keeps is kept along a path of them. -/
theorem Session.keep_of_steps {step : Session σ → Session σ → Prop} {motive : Session σ → Prop}
    {session after : Session σ} (path : Relation.ReflTransGen step session after)
    (keeps : ∀ {before later}, motive before → step before later → motive later)
    (inv : motive session) : motive after := by
  induction path with
  | refl => exact inv
  | tail _ last ih => exact keeps ih last

/-- A session reached by changes, one after the other. -/
abbrev Changes (engine : Engine σ) (grants : Grants σ) :
    Session σ → Session σ → Prop := Relation.ReflTransGen (Change engine grants)

namespace Changes

variable {engine : Engine σ} {grants : Grants σ} {session after : Session σ}

theorem of_moves (moves : Relation.ReflTransGen (Move engine) session after) :
    Changes engine grants session after := Relation.ReflTransGen.mono (fun _ _ => .moved) _ _ moves

theorem of_offers (offers : Relation.ReflTransGen (Offer engine grants) session after) :
    Changes engine grants session after := Relation.ReflTransGen.mono (fun _ _ => .offered) _ _ offers

/-- What every change keeps is kept by all of them. -/
theorem keep {motive : Session σ → Prop} (steps : Changes engine grants session after)
    (change : ∀ {before later}, motive before → Change engine grants before later → motive later)
    (inv : motive session) : motive after :=
  Session.keep_of_steps steps change inv

end Changes

end Flowchart
