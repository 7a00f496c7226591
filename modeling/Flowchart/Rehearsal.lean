import Flowchart.Engine.Settle

/-!
A host for rehearsing charts: performers stand in for real handlers and keep a list of what they were
asked to do, rules stand in for a real source, and changes of facts settle at once.
-/
namespace Flowchart

/-- The part a scripted performer plays: the facts it writes on joining and on leaving, and the
failures it ends with. -/
structure Script where
  performFacts : List (String × FactState)
  revertFacts : List (String × FactState)
  performFailure : Option String
  revertFailure : Option String
  deriving DecidableEq, Repr

/-- A recorder rejects the nodes it is told to fail on. -/
inductive Role where
  | recorder (failing : List String)
  | scripted (script : Script)
  deriving DecidableEq, Repr

/-- A call that a performer kept, with the states it wrote over if it was scripted. -/
inductive Event where
  | called (cue : String)
  | wrote (cue : String) (replaced : List FactState)
  deriving DecidableEq, Repr

structure Performer where
  role : Role
  events : List Event
  deriving DecidableEq, Repr

def Deed.verb : Deed → String
  | .perform => "do"
  | .revert => "undo"

namespace Script

def facts (script : Script) : Deed → List (String × FactState)
  | .perform => script.performFacts
  | .revert => script.revertFacts

def failure (script : Script) : Deed → Option String
  | .perform => script.performFailure
  | .revert => script.revertFailure

/-- The states that writing one after the other replaces. -/
def replacedStates : Facts → List (String × FactState) → List FactState
  | _, [] => []
  | held, (fact, state) :: rest => held.state fact :: replacedStates (held.put fact state) rest

end Script

namespace Performer

def recorder : Performer := ⟨.recorder [], []⟩

def scripted (script : Script) : Performer := ⟨.scripted script, []⟩

def record (performer : Performer) (event : Event) : Performer :=
  { performer with events := performer.events ++ [event] }

/-- A recorder keeps nothing of a call it rejects; a script keeps its call and its writes even when
it ends with a failure. -/
def play (deed : Deed) (node : Node) (facts : Facts) (performer : Performer) :
    Reaction Performer :=
  let cue := s!"{deed.verb}:{node.name}"
  match performer.role with
  | .recorder failing =>
    if node.name ∈ failing then
      ⟨facts, performer, some (.rejected node.name s!"{deed.verb} refused")⟩
    else ⟨facts, performer.record (.called cue), none⟩
  | .scripted script =>
    ⟨facts.putAll (script.facts deed),
      performer.record (.wrote cue (Script.replacedStates facts (script.facts deed))),
      (script.failure deed).map .failed⟩

def failOn (performer : Performer) (node : String) : Performer :=
  match performer.role with
  | .recorder failing => { performer with role := .recorder (failing ++ [node]) }
  | .scripted _ => performer

def rescript (performer : Performer) (script : Script) : Performer :=
  match performer.role with
  | .scripted _ => { performer with role := .scripted script }
  | .recorder _ => performer

end Performer

/-- The performers of a rehearsal under the names that nodes invoke. -/
abbrev Cast := Listing String Performer

namespace Cast

def update (cast : Cast) (name : String) (change : Performer → Performer) : Cast :=
  match cast.at? name with
  | some performer => cast.set name (change performer)
  | none => cast

def clearEvents (cast : Cast) : Cast :=
  Roster.ofList (cast.items.map fun entry => (entry.1, { entry.2 with events := [] }))

def play (name : String) (deed : Deed) (node : Node) (facts : Facts) (cast : Cast) :
    Reaction Cast :=
  match cast.at? name with
  | none => ⟨facts, cast, none⟩
  | some performer =>
    let reaction := performer.play deed node facts
    ⟨reaction.facts, cast.set name reaction.host, reaction.failure⟩

/-- A handler for each performer. -/
def handlers (cast : Cast) : Handlers Cast :=
  Roster.ofList (cast.keys.map fun name => (name, ⟨play name .perform, play name .revert⟩))

end Cast

/-- A rule answers every change of its fact with its indication. -/
structure Rule where
  fact : String
  indication : Indication

def IndicationSource.ofRules {σ : Type} (rules : List Rule) : IndicationSource σ :=
  fun _ _ _ fact host =>
    ((rules.filter fun rule => rule.fact = fact).map Rule.indication, host)

namespace Engine

variable {σ : Type}

/-- Changes a fact and settles. -/
def putAndSettle (engine : Engine σ) (fact : String) (state : FactState) : SessionM σ Report := do
  modify fun session => session.putFact fact state
  engine.settle [fact]

/-- Starts a flow unconditionally and settles; the strand opened, if one was. -/
def startAndSettle (engine : Engine σ) (flow start : String) : SessionM σ (Option StrandId) := do
  let support ← SessionM.mint .unconditional
  let opened ← engine.beginNamed flow start support
  let _ ← engine.settle []
  return opened

end Engine

end Flowchart
