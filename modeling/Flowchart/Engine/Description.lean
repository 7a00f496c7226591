import Flowchart.Engine
import Flowchart.Text.Quoted

/-!
The description of a set of handlers.
-/
namespace Flowchart.Handlers

variable {σ : Type}

/-- The names of the handlers, in the order of their code points. -/
def names (handlers : Handlers σ) : List String :=
  handlers.keys.mergeSort fun a b => decide (a ≤ b)

def describe (handlers : Handlers σ) : String :=
  "ActionRegistry \x7b actions: [" ++ ", ".intercalate (handlers.names.map Text.quoted) ++ "] \x7d"

end Flowchart.Handlers
