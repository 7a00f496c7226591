import Flowchart.Value

/-!
Conditions over facts: their forms and the facts they read.
-/
namespace Flowchart

/-- A guard over facts. `minOf` counts its satisfied terms against a lower bound and, if there is
one, an upper bound. -/
inductive Condition where
  | always
  | known (fact : String)
  | isUnknown (fact : String)
  | equals (fact : String) (value : Value)
  | oneOf (fact : String) (values : List Value)
  | compare (fact : String) (comparison : Comparison) (bound : Int64)
  | all (terms : List Condition)
  | any (terms : List Condition)
  | not (term : Condition)
  | minOf (min : UInt64) (max : Option UInt64) (terms : List Condition)

namespace Condition

mutual
/-- The facts a condition names, from left to right, as often as it names them. -/
def mentions : Condition → List String
  | .always => []
  | .known fact => [fact]
  | .isUnknown fact => [fact]
  | .equals fact _ => [fact]
  | .oneOf fact _ => [fact]
  | .compare fact _ _ => [fact]
  | .all terms => mentionsAll terms
  | .any terms => mentionsAll terms
  | .not term => term.mentions
  | .minOf _ _ terms => mentionsAll terms

def mentionsAll : List Condition → List String
  | [] => []
  | term :: rest => term.mentions ++ mentionsAll rest
end

/-- Adds a fact to a list unless it is there. -/
def noteFact (noted : List String) (fact : String) : List String :=
  if fact ∈ noted then noted else noted ++ [fact]

/-- The facts a condition reads, each once, in the order of first mention. -/
def facts (condition : Condition) : List String := condition.mentions.foldl noteFact []

end Condition

end Flowchart
