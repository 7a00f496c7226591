import Flowchart.Engine.Advance

/-!
Bringing a session to rest after a change of facts, and the operations a host has on sessions.
-/
namespace Flowchart

/-- What settling did: `started` are the strands opened by indications, `finished` those that came
to have no entries. -/
structure Report where
  rounds : Nat
  changed : Bool
  started : List StrandId
  finished : List StrandId
  deriving DecidableEq, Repr

def Report.initial : Report := ⟨0, false, [], []⟩

/-- The report of a round after that of the rounds before it. -/
def Report.add (before after : Report) : Report :=
  ⟨before.rounds + after.rounds, before.changed || after.changed,
    before.started ++ after.started, before.finished ++ after.finished⟩

namespace Engine

variable {σ : Type}

/-- Carries out the indications in order and returns the strands they opened. -/
def carryOut (engine : Engine σ) : List Indication → SessionM σ (List StrandId)
  | [] => return []
  | .start node basis :: rest => do
    let support ← SessionM.mint basis
    let opened ← engine.begin node support
    return opened.toList ++ (← carryOut engine rest)
  | .subflow composed node basis :: rest => do
    let support ← SessionM.mint basis
    let opened ← engine.enter composed node support
    return opened :: (← carryOut engine rest)

/-- Asks the source about each fact in turn and carries out its answers. -/
def indicate (engine : Engine σ) : List String → SessionM σ (List StrandId)
  | [] => return []
  | fact :: rest => do
    let session ← get
    let (indications, host) :=
      engine.source engine.chart session.facts session.activation fact session.host
    set { session with host := host }
    let opened ← engine.carryOut indications
    return opened ++ (← indicate engine rest)

/-- Gives each of the strands its turn. Returns whether one changed, and those that are now empty,
which are dropped. -/
def turns (engine : Engine σ) : List StrandId → SessionM σ (Bool × List StrandId)
  | [] => return (false, [])
  | id :: rest => do
    if (← get).strands.contains id then
      let changed ← engine.advance id
      let empty ← SessionM.dropIfEmpty id
      let (changedLater, finished) ← turns engine rest
      return (changed || changedLater, if empty then id :: finished else finished)
    else turns engine rest

/-- One round: every strand has its turn, then the source is asked about the facts that nodes wrote. -/
def round (engine : Engine σ) : SessionM σ (Bool × Report) := do
  let (changed, finished) ← engine.turns (← get).strands.keys
  let touched ← SessionM.takeTouched
  let started ← engine.indicate touched
  let changed := changed || !started.isEmpty
  return (changed, ⟨1, changed, started, finished⟩)

/-- Rounds until one changes nothing. -/
def settleRounds (engine : Engine σ) (fuel : Nat) (report : Report) : SessionM σ Report :=
  match fuel with
  | 0 => throw (.unfinished .rounds)
  | fuel + 1 => do
    SessionM.checkLimit .rounds engine.config.maxRounds (report.rounds + 1)
    let (changed, latest) ← engine.round
    let report := report.add latest
    if changed then settleRounds engine fuel report else return report

/-- Settles a session after changes of the facts named, in at most `fuel` rounds. -/
def settleWithin (engine : Engine σ) (fuel : Nat) (changed : List String) : SessionM σ Report := do
  if engine.chart.isEmpty then return .initial
  else
    let started ← engine.indicate changed
    engine.settleRounds fuel { Report.initial with started := started }

/-- More rounds than the limit allows, or as many as 64 bits count. -/
def roundFuel (engine : Engine σ) : Nat :=
  match engine.config.maxRounds with
  | some bound => bound.toNat + 1
  | none => UInt64.size

def settle (engine : Engine σ) (changed : List String) : SessionM σ Report :=
  engine.settleWithin engine.roundFuel changed

def beginNamed (engine : Engine σ) (flow start : String) (support : Support) :
    SessionM σ (Option StrandId) := do
  match engine.findStart flow start with
  | .error fault => throw fault
  | .ok node => engine.begin node support

/-- Takes a support away from a node outside of any turn; true if the node held it. -/
def withdraw (engine : Engine σ) (node : NodeRef) (id : SupportId) : SessionM σ Bool := do
  if (engine.chart.node? node).isSome then
    let held := (← get).activation.holds node id
    modify fun session => session.removeSupport node id
    return held
  else return false

/-- Supports each of the nodes unconditionally. -/
def beginAll (engine : Engine σ) : List NodeRef → SessionM σ Unit
  | [] => pure ()
  | node :: rest => do
    let support ← SessionM.mint .unconditional
    let _ ← engine.begin node support
    beginAll engine rest

/-- Starts the flows that start by themselves. -/
def autostart (engine : Engine σ) : SessionM σ Unit := do
  if engine.config.autostart && !engine.chart.isEmpty then
    engine.beginAll engine.chart.autostarts
    let _ ← engine.settle []

/-- A new session over the given facts, with the flows started that start by themselves. -/
def launch (engine : Engine σ) (facts : Facts) (host : σ) : Except Fault (Session σ) :=
  match engine.autostart (Session.fresh facts host) with
  | .ok _ session => .ok session
  | .error fault _ => .error fault

end Engine

end Flowchart
