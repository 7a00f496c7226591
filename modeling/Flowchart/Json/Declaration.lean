import Flowchart.Declaration
import Flowchart.Json.Condition

/-!
The written form of declarations. Lists of flows, triggers and edges are left out when empty, a flow
that does not start by itself does not say so, and an edge without a condition has no such field.
-/
namespace Flowchart

namespace Action

def toJson : Action → Json
  | .noop => .obj [("type", .str "noop")]
  | .assign fact value =>
    .obj [("type", .str "assign"), ("fact", .str fact), ("value", value.toJson)]
  | .invoke handler => .obj [("type", .str "invoke"), ("name", .str handler)]

/-- The tags of actions, in the order that numbers them. -/
def types : List String := ["noop", "assign", "invoke"]

def read (standing : Json.Standing) (document : Json) : Option Action := do
  let (type, body) ← document.tagged? standing "type" types
  match type with
  | "noop" =>
    let _ ← body.record? []
    return .noop
  | "assign" =>
    let fields ← body.record? ["fact", "value"]
    let fact ← Json.required "fact" Json.str? fields
    return .assign fact (← Json.required "value" Value.ofJson? fields)
  | "invoke" =>
    let fields ← body.record? ["name"]
    return .invoke (← Json.required "name" Json.str? fields)
  | _ => none

def ofJson? (document : Json) : Option Action := read .whole document

end Action

namespace KindDecl

/-- The fields of a kind; a node writes them beside its name. -/
def fields : KindDecl → List (String × Json)
  | .start => [("kind", .str "start")]
  | .action a => [("kind", .str "action"), ("action", a.toJson)]
  | .composed flow entry =>
    [("kind", .str "composed"), ("flow", .str flow), ("start", .str entry)]
  | .snapshot => [("kind", .str "snapshot")]

def toJson (kind : KindDecl) : Json := .obj kind.fields

/-- The tags of kinds, in the order that numbers them. -/
def kinds : List String := ["start", "action", "composed", "snapshot"]

def read (standing : Json.Standing) (document : Json) : Option KindDecl := do
  let (kind, body) ← document.tagged? standing "kind" kinds
  match kind with
  | "start" =>
    let _ ← body.record? []
    return .start
  | "action" =>
    let fields ← body.record? ["action"]
    return .action (← Json.required "action" (Action.read .part) fields)
  | "composed" =>
    let fields ← body.record? ["flow", "start"]
    let flow ← Json.required "flow" Json.str? fields
    return .composed flow (← Json.required "start" Json.str? fields)
  | "snapshot" =>
    let _ ← body.record? []
    return .snapshot
  | _ => none

def ofJson? (document : Json) : Option KindDecl := read .whole document

end KindDecl

namespace NodeDecl

def toJson (node : NodeDecl) : Json := .obj (("name", .str node.name) :: node.kind.fields)

/-- A node is always written as an object, and its kind is a part of it. -/
def ofJson? : Json → Option NodeDecl
  | .obj fields => do
    let name ← Json.required "name" Json.str? fields
    return ⟨name, ← KindDecl.read .part (.obj fields)⟩
  | _ => none

end NodeDecl

namespace EdgeDecl

def toJson (edge : EdgeDecl) : Json :=
  .obj ([("from", .str edge.source), ("to", .str edge.target)]
    ++ Json.ifPresent "when" Condition.toJson edge.condition)

def ofJson? (document : Json) : Option EdgeDecl := do
  let fields ← document.record? ["from", "to", "when"]
  let source ← Json.required "from" Json.str? fields
  let target ← Json.required "to" Json.str? fields
  return ⟨source, target, ← Json.optional "when" Condition.ofJson? fields⟩

end EdgeDecl

namespace FlowDecl

def toJson (flow : FlowDecl) : Json :=
  .obj ([("name", .str flow.name)]
    ++ Json.omittable (!flow.autostart) "autostart" (.bool flow.autostart)
    ++ [("nodes", .arr (flow.nodes.map NodeDecl.toJson))]
    ++ Json.omittable flow.edges.isEmpty "edges" (.arr (flow.edges.map EdgeDecl.toJson)))

def ofJson? (document : Json) : Option FlowDecl := do
  let fields ← document.record? ["name", "autostart", "nodes", "edges"]
  let name ← Json.required "name" Json.str? fields
  let autostart ← Json.defaulting "autostart" false Json.bool? fields
  let nodes ← Json.required "nodes" (Json.list? NodeDecl.ofJson?) fields
  return ⟨name, autostart, nodes, ← Json.defaulting "edges" [] (Json.list? EdgeDecl.ofJson?) fields⟩

end FlowDecl

namespace TriggerDecl

def toJson (trigger : TriggerDecl) : Json :=
  .obj [("name", .str trigger.name), ("flow", .str trigger.flow), ("start", .str trigger.start),
    ("when", trigger.condition.toJson)]

def ofJson? (document : Json) : Option TriggerDecl := do
  let fields ← document.record? ["name", "flow", "start", "when"]
  let name ← Json.required "name" Json.str? fields
  let flow ← Json.required "flow" Json.str? fields
  let start ← Json.required "start" Json.str? fields
  return ⟨name, flow, start, ← Json.required "when" Condition.ofJson? fields⟩

end TriggerDecl

namespace ChartDecl

def toJson (chart : ChartDecl) : Json :=
  .obj (Json.omittable chart.flows.isEmpty "flows" (.arr (chart.flows.map FlowDecl.toJson))
    ++ Json.omittable chart.triggers.isEmpty "triggers"
        (.arr (chart.triggers.map TriggerDecl.toJson)))

def ofJson? (document : Json) : Option ChartDecl := do
  let fields ← document.record? ["flows", "triggers"]
  let flows ← Json.defaulting "flows" [] (Json.list? FlowDecl.ofJson?) fields
  return ⟨flows, ← Json.defaulting "triggers" [] (Json.list? TriggerDecl.ofJson?) fields⟩

end ChartDecl

end Flowchart
