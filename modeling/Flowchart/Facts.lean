import Flowchart.Roster
import Flowchart.Value

/-!
Facts and their states. A fact is answered with a value, explicitly marked unknown, or not answered
at all; the store lists only the facts of the first two kinds, in the order they were first written.
-/
namespace Flowchart

/-- What is known of a fact that is not open. -/
inductive Answer where
  | value (v : Value)
  | unknown
  deriving DecidableEq, Repr

/-- The state of a fact; `none` is unanswered. -/
abbrev FactState := Option Answer

/-- The value of an answered fact. -/
def FactState.value? : FactState → Option Value
  | some (.value v) => some v
  | _ => none

/-- The states of all facts; a fact that is not listed is unanswered. -/
abbrev Facts := Listing String Answer

namespace Facts

def state (facts : Facts) (fact : String) : FactState := facts.at? fact

/-- Writing an unanswered state takes the fact off the list. -/
def put (facts : Facts) (fact : String) : FactState → Facts
  | none => facts.erase fact
  | some answer => facts.set fact answer

/-- Writes the states one after the other. -/
def putAll (facts : Facts) (states : List (String × FactState)) : Facts :=
  states.foldl (fun held entry => held.put entry.1 entry.2) facts

@[simp] theorem state_put_self (facts : Facts) (fact : String) (state : FactState) :
    (facts.put fact state).state fact = state := by
  cases state with
  | none => exact Listing.at?_erase_self facts fact
  | some answer => exact Listing.at?_set_self facts fact answer

theorem state_put_of_ne {facts : Facts} {fact other : String} (state : FactState)
    (apart : fact ≠ other) : (facts.put fact state).state other = facts.state other := by
  cases state with
  | none => exact Listing.at?_erase_of_ne apart
  | some answer => exact Listing.at?_set_of_ne answer apart

end Facts

end Flowchart
