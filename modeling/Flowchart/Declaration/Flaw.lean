import Flowchart.Declaration

/-!
What can be wrong with declarations. The flaws of a chart are listed in one fixed order: flow by
flow, then the calls of composed nodes, then the triggers; the first of them is the one reported.
-/
namespace Flowchart

/-- The place of a condition in the declarations. -/
inductive Site where
  | edge (flow source target : String)
  | trigger (name : String)
  deriving DecidableEq, Repr

def Site.describe : Site → String
  | .edge flow source target => s!"flow {flow} edge {source}->{target}"
  | .trigger name => s!"trigger {name}"

inductive Flaw where
  | emptyFlow (flow : String)
  | duplicateFlow (flow : String)
  | duplicateNode (flow node : String)
  | unknownEndpoint (flow node : String)
  | noStartNode (flow : String)
  | unknownCalledFlow (flow node called : String)
  | unknownCalledStart (flow node called start : String)
  | unknownTriggerTarget (trigger flow start : String)
  | unfitBounds (site : Site) (min : UInt64) (max : Option UInt64) (terms : Nat)
  deriving DecidableEq, Repr

namespace Flaw

/-- An upper bound as it stands in a message. -/
def describeMax : Option UInt64 → String
  | none => "None"
  | some max => s!"Some({max.toNat})"

def message : Flaw → String
  | .emptyFlow flow => s!"flow {flow} must contain at least one node"
  | .duplicateFlow flow => s!"duplicate flow name {flow}"
  | .duplicateNode flow node => s!"flow {flow} has duplicate node name {node}"
  | .unknownEndpoint flow node => s!"flow {flow} edge references unknown node {node}"
  | .noStartNode flow => s!"flow {flow} has no start node"
  | .unknownCalledFlow flow node called => s!"flow {flow} node {node} calls unknown flow {called}"
  | .unknownCalledStart flow node called start =>
    s!"flow {flow} node {node} calls {called}/{start}, which is not a start node"
  | .unknownTriggerTarget trigger flow start =>
    s!"trigger {trigger} indicates {flow}/{start}, which is not a start node"
  | .unfitBounds site min max terms =>
    s!"{site.describe}: min_of bounds min={min.toNat} max={describeMax max} do not fit {terms} terms"

end Flaw

/-- The bounds of a count fit its terms when no bound asks for more terms than there are and the
lower bound is not above the upper. -/
def boundsFit (min : UInt64) (max : Option UInt64) (terms : Nat) : Bool :=
  min.toNat ≤ terms && max.all fun upper => min ≤ upper && upper.toNat ≤ terms

namespace Condition

mutual
/-- A count is judged before its terms. -/
def flaws (site : Site) : Condition → List Flaw
  | .all terms => flawsAll site terms
  | .any terms => flawsAll site terms
  | .not term => flaws site term
  | .minOf min max terms =>
    (if boundsFit min max terms.length then [] else [.unfitBounds site min max terms.length])
      ++ flawsAll site terms
  | _ => []

def flawsAll (site : Site) : List Condition → List Flaw
  | [] => []
  | term :: rest => flaws site term ++ flawsAll site rest
end

end Condition

/-- The names that stand earlier in the list or in `seen`, in order. -/
def repeatedNames (seen : List String) : List String → List String
  | [] => []
  | name :: rest =>
    if name ∈ seen then name :: repeatedNames seen rest else repeatedNames (name :: seen) rest

namespace FlowDecl

def edgeFlaws (flow : FlowDecl) (edge : EdgeDecl) : List Flaw :=
  let names := flow.nodes.map NodeDecl.name
  (([edge.source, edge.target].filter fun name => !names.contains name).map
      fun name => .unknownEndpoint flow.name name)
    ++ (edge.condition.map (Condition.flaws (.edge flow.name edge.source edge.target))).getD []

/-- The flaws of a flow that do not depend on other flows. -/
def flaws (flow : FlowDecl) : List Flaw :=
  (if flow.nodes.isEmpty then [.emptyFlow flow.name] else [])
    ++ (repeatedNames [] (flow.nodes.map NodeDecl.name)).map (.duplicateNode flow.name)
    ++ (if flow.starts.isEmpty then [.noStartNode flow.name] else [])
    ++ flow.edges.flatMap flow.edgeFlaws

/-- The first flaw of the flow, if it has one. -/
def check (flow : FlowDecl) : Except Flaw Unit :=
  match flow.flaws with
  | [] => .ok ()
  | flaw :: _ => .error flaw

end FlowDecl

namespace ChartDecl

/-- The flaws of each flow, and after them its name if an earlier flow has it. -/
def flowFlaws (seen : List String) : List FlowDecl → List Flaw
  | [] => []
  | flow :: rest =>
    flow.flaws ++ (if flow.name ∈ seen then [.duplicateFlow flow.name] else [])
      ++ flowFlaws (flow.name :: seen) rest

def flow? (chart : ChartDecl) (name : String) : Option FlowDecl :=
  chart.flows.find? fun flow => flow.name = name

def callFlaws (chart : ChartDecl) (flow : FlowDecl) (node : NodeDecl) : List Flaw :=
  match node.kind with
  | .composed called start =>
    match chart.flow? called with
    | none => [.unknownCalledFlow flow.name node.name called]
    | some target =>
      if start ∈ target.starts then []
      else [.unknownCalledStart flow.name node.name called start]
  | _ => []

def triggerFlaws (chart : ChartDecl) (trigger : TriggerDecl) : List Flaw :=
  (if (chart.flow? trigger.flow).any fun flow => flow.starts.contains trigger.start then []
    else [.unknownTriggerTarget trigger.name trigger.flow trigger.start])
    ++ trigger.condition.flaws (.trigger trigger.name)

def flaws (chart : ChartDecl) : List Flaw :=
  flowFlaws [] chart.flows
    ++ chart.flows.flatMap (fun flow => flow.nodes.flatMap (chart.callFlaws flow))
    ++ chart.triggers.flatMap chart.triggerFlaws

/-- The first flaw of the declarations, if they have one. -/
def check (chart : ChartDecl) : Except Flaw Unit :=
  match chart.flaws with
  | [] => .ok ()
  | flaw :: _ => .error flaw

end ChartDecl

end Flowchart
