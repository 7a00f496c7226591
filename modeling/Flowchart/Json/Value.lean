import Flowchart.Json
import Flowchart.Value

/-!
The written form of values and comparisons. A value is an object whose field names its kind.
-/
namespace Flowchart

namespace Value

def toJson : Value → Json
  | .bool b => .obj [("bool", .bool b)]
  | .int n => .obj [("int", .ofInt64 n)]
  | .text s => .obj [("text", .str s)]

/-- The first kind whose field is there and fits is the one read; other fields do not count. -/
def ofJson? : Json → Option Value
  | .obj fields =>
    (((Json.field? "bool" fields).bind Json.bool?).map .bool)
      <|> (((Json.field? "int" fields).bind Json.int64?).map .int)
      <|> (((Json.field? "text" fields).bind Json.str?).map .text)
  | _ => none

end Value

namespace Comparison

def name : Comparison → String
  | .lt => "lt"
  | .le => "le"
  | .gt => "gt"
  | .ge => "ge"

def ofName? : String → Option Comparison
  | "lt" => some .lt
  | "le" => some .le
  | "gt" => some .gt
  | "ge" => some .ge
  | _ => none

def toJson (comparison : Comparison) : Json := .str comparison.name

/-- A name, or an object whose only field has that name and no value. -/
def read (standing : Json.Standing) : Json → Option Comparison
  | .str name => ofName? name
  | .obj [(name, value)] => if value.isVoid standing then ofName? name else none
  | _ => none

def ofJson? (document : Json) : Option Comparison := read .whole document

end Comparison

end Flowchart
