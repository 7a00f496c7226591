/-!
The values that facts take, and the order comparisons on integer values.
-/
namespace Flowchart

/-- The value of an answered fact. -/
inductive Value where
  | bool (b : Bool)
  | int (n : Int64)
  | text (s : String)
  deriving DecidableEq, Repr

namespace Value

def kind : Value → String
  | .bool _ => "bool"
  | .int _ => "int"
  | .text _ => "text"

def asInt? : Value → Option Int64
  | .int n => some n
  | _ => none

end Value

inductive Comparison where
  | lt
  | le
  | gt
  | ge
  deriving DecidableEq, Repr

namespace Comparison

/-- Whether `left` stands in this order to `right`. -/
def apply : Comparison → Int64 → Int64 → Bool
  | .lt, left, right => left < right
  | .le, left, right => left ≤ right
  | .gt, left, right => right < left
  | .ge, left, right => right ≤ left

end Comparison

end Flowchart
