import Flowchart.Condition
import Flowchart.Facts

/-!
Three-valued evaluation. A condition is decided once the facts force its result whatever the open
facts turn out to be; until then its outcome names the first fact that stands in the way.
-/
namespace Flowchart

/-- A fact whose state leaves a condition open. -/
inductive Gap where
  | notAnswered (fact : String)
  | unknown (fact : String)
  deriving DecidableEq, Repr

inductive Outcome where
  | satisfied
  | notSatisfied
  | pending (gap : Gap)
  deriving DecidableEq, Repr

namespace Outcome

def ofBool (b : Bool) : Outcome := if b then .satisfied else .notSatisfied

def isSatisfied : Outcome → Bool
  | .satisfied => true
  | _ => false

def isPending : Outcome → Bool
  | .pending _ => true
  | _ => false

def gap? : Outcome → Option Gap
  | .pending gap => some gap
  | _ => none

/-- A pending outcome stays pending under negation. -/
def negate : Outcome → Outcome
  | .satisfied => .notSatisfied
  | .notSatisfied => .satisfied
  | .pending gap => .pending gap

/-- Pending with the first gap among the terms, or else `decided`. -/
def orFirstGap (terms : List Outcome) (decided : Outcome) : Outcome :=
  match terms.findSome? gap? with
  | some gap => .pending gap
  | none => decided

/-- One refuted term refutes the whole, wherever it stands. -/
def conjunction (terms : List Outcome) : Outcome :=
  if .notSatisfied ∈ terms then .notSatisfied else orFirstGap terms .satisfied

/-- One satisfied term satisfies the whole, wherever it stands. -/
def disjunction (terms : List Outcome) : Outcome :=
  if .satisfied ∈ terms then .satisfied else orFirstGap terms .notSatisfied

/-- Counts the satisfied terms against the bounds; pending terms may still join the count. -/
def counted (min : Nat) (max : Option Nat) (terms : List Outcome) : Outcome :=
  let sure := terms.countP isSatisfied
  let most := sure + terms.countP isPending
  let within (n : Nat) : Bool := max.all fun upper => n ≤ upper
  if !within sure || most < min then .notSatisfied
  else if min ≤ sure && within most then .satisfied
  else orFirstGap terms .notSatisfied

end Outcome

namespace Condition

/-- Tests the value of a fact, and is pending until the fact has one. -/
def onValue (facts : Facts) (fact : String) (test : Value → Bool) : Outcome :=
  match facts.state fact with
  | some (.value v) => .ofBool (test v)
  | some .unknown => .pending (.unknown fact)
  | none => .pending (.notAnswered fact)

mutual
/-- The outcome of a condition in a state of the facts. A fact marked unknown counts as known. -/
def eval (facts : Facts) : Condition → Outcome
  | .always => .satisfied
  | .known fact => .ofBool (facts.state fact).isSome
  | .isUnknown fact =>
    match facts.state fact with
    | some .unknown => .satisfied
    | some (.value _) => .notSatisfied
    | none => .pending (.notAnswered fact)
  | .equals fact value => onValue facts fact fun current => current == value
  | .oneOf fact values => onValue facts fact fun current => values.contains current
  | .compare fact comparison bound =>
    onValue facts fact fun current => current.asInt?.any fun n => comparison.apply n bound
  | .all terms => .conjunction (evalAll facts terms)
  | .any terms => .disjunction (evalAll facts terms)
  | .not term => (eval facts term).negate
  | .minOf min max terms => .counted min.toNat (max.map UInt64.toNat) (evalAll facts terms)

def evalAll (facts : Facts) : List Condition → List Outcome
  | [] => []
  | term :: rest => eval facts term :: evalAll facts rest
end

theorem evalAll_eq_map (facts : Facts) (terms : List Condition) :
    evalAll facts terms = terms.map (eval facts) := by
  induction terms with
  | nil => simp [evalAll]
  | cons term rest ih => simp [evalAll, ih]

/-- A missing condition is always satisfied. -/
def evalGuard (facts : Facts) : Option Condition → Outcome
  | none => .satisfied
  | some condition => condition.eval facts

def holds (facts : Facts) (condition : Condition) : Bool := (condition.eval facts).isSatisfied

end Condition

end Flowchart
