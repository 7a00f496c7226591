import Flowchart.Json

/-!
The limits of a run and their written form.
-/
namespace Flowchart

/-- A limit that is `none` does not apply. -/
structure Config where
  maxRounds : Option UInt64
  maxFlowSteps : Option UInt64
  autostart : Bool
  deriving DecidableEq, Repr

namespace Config

def standard : Config := ⟨some 1024, some 4096, true⟩

def toJson (config : Config) : Json :=
  .obj [("max_rounds", Json.orNull .ofUInt64 config.maxRounds),
    ("max_flow_steps", Json.orNull .ofUInt64 config.maxFlowSteps),
    ("autostart", .bool config.autostart)]

/-- A missing limit is the standard one; a `null` limit does not apply. -/
def ofJson? (document : Json) : Option Config := do
  let fields ← document.record? ["max_rounds", "max_flow_steps", "autostart"]
  let maxRounds ← Json.defaulting "max_rounds" standard.maxRounds (Json.nullable Json.uint64?) fields
  let maxFlowSteps ←
    Json.defaulting "max_flow_steps" standard.maxFlowSteps (Json.nullable Json.uint64?) fields
  return ⟨maxRounds, maxFlowSteps,
    ← Json.defaulting "autostart" standard.autostart Json.bool? fields⟩

end Config

end Flowchart
