import Flowchart.Condition
import Flowchart.Json.Value

/-!
The written form of conditions: records tagged by `op`.
-/
namespace Flowchart.Condition

mutual
def toJson : Condition → Json
  | .always => .obj [("op", .str "true")]
  | .known fact => .obj [("op", .str "known"), ("fact", .str fact)]
  | .isUnknown fact => .obj [("op", .str "is_unknown"), ("fact", .str fact)]
  | .equals fact value =>
    .obj [("op", .str "equals"), ("fact", .str fact), ("value", value.toJson)]
  | .oneOf fact values =>
    .obj [("op", .str "one_of"), ("fact", .str fact), ("values", .arr (values.map Value.toJson))]
  | .compare fact comparison bound =>
    .obj [("op", .str "compare"), ("fact", .str fact), ("cmp", comparison.toJson),
      ("value", .ofInt64 bound)]
  | .all terms => .obj [("op", .str "and"), ("all", .arr (toJsonAll terms))]
  | .any terms => .obj [("op", .str "or"), ("any", .arr (toJsonAll terms))]
  | .not term => .obj [("op", .str "not"), ("cond", toJson term)]
  | .minOf min max terms =>
    .obj ([("op", .str "min_of"), ("min", .ofUInt64 min)]
      ++ Json.ifPresent "max" .ofUInt64 max ++ [("of", .arr (toJsonAll terms))])

def toJsonAll : List Condition → List Json
  | [] => []
  | term :: rest => toJson term :: toJsonAll rest
end

/-- The tags of conditions, in the order that numbers them. -/
def ops : List String :=
  ["true", "known", "is_unknown", "equals", "one_of", "compare", "and", "or", "not", "min_of"]

/-- Reads a condition whose terms are nested at most `levels` deep. -/
def read (levels : Nat) (standing : Json.Standing) (document : Json) : Option Condition :=
  match levels with
  | 0 => none
  | levels + 1 => do
    let (op, body) ← document.tagged? standing "op" ops
    match op with
    | "true" =>
      let _ ← body.record? []
      return .always
    | "known" =>
      let fields ← body.record? ["fact"]
      return .known (← Json.required "fact" Json.str? fields)
    | "is_unknown" =>
      let fields ← body.record? ["fact"]
      return .isUnknown (← Json.required "fact" Json.str? fields)
    | "equals" =>
      let fields ← body.record? ["fact", "value"]
      let fact ← Json.required "fact" Json.str? fields
      return .equals fact (← Json.required "value" Value.ofJson? fields)
    | "one_of" =>
      let fields ← body.record? ["fact", "values"]
      let fact ← Json.required "fact" Json.str? fields
      return .oneOf fact (← Json.required "values" (Json.list? Value.ofJson?) fields)
    | "compare" =>
      let fields ← body.record? ["fact", "cmp", "value"]
      let fact ← Json.required "fact" Json.str? fields
      let comparison ← Json.required "cmp" (Comparison.read .part) fields
      return .compare fact comparison (← Json.required "value" Json.int64? fields)
    | "and" =>
      let fields ← body.record? ["all"]
      return .all (← Json.required "all" (Json.list? (read levels .part)) fields)
    | "or" =>
      let fields ← body.record? ["any"]
      return .any (← Json.required "any" (Json.list? (read levels .part)) fields)
    | "not" =>
      let fields ← body.record? ["cond"]
      return .not (← Json.required "cond" (read levels .part) fields)
    | "min_of" =>
      let fields ← body.record? ["min", "max", "of"]
      let min ← Json.required "min" Json.uint64? fields
      let max ← Json.optional "max" Json.uint64? fields
      return .minOf min max (← Json.required "of" (Json.list? (read levels .part)) fields)
    | _ => none

/-- A condition is nested no deeper than the document that holds it. -/
def ofJson? (document : Json) : Option Condition := read document.depth .whole document

end Flowchart.Condition
