import Flowchart.Chart
import Flowchart.Condition.Outcome

/-!
Supports, the reasons for which nodes are active, and the table of the supports that each node holds.
A node is active while it holds at least one support.
-/
namespace Flowchart

/-- Supports are numbered from 1 in the order a session mints them. -/
structure SupportId where
  number : Nat
  deriving DecidableEq, Repr

instance : ToString SupportId := ⟨fun id => s!"support#{id.number}"⟩

/-- What a support rests on: nothing, an outside condition, the edge that was followed to the node,
or the composed node that called it. -/
inductive Basis where
  | unconditional
  | external (trigger : Option TriggerRef) (condition : Condition)
  | edge (ref : EdgeRef)
  | caller (composed : NodeRef)

structure Support where
  id : SupportId
  basis : Basis

namespace Support

/-- Supports are told apart by their number alone. -/
instance : BEq Support := ⟨fun a b => a.id == b.id⟩

def edge? (support : Support) : Option EdgeRef :=
  match support.basis with
  | .edge ref => some ref
  | _ => none

def trigger? (support : Support) : Option TriggerRef :=
  match support.basis with
  | .external trigger _ => trigger
  | _ => none

end Support

abbrev Supports := Roster Support.id

/-- The supports of the nodes that ever held one. -/
abbrev Activation := Listing NodeRef Supports

namespace Activation

def supports (table : Activation) (node : NodeRef) : Supports := (table.at? node).getD ∅

def isActive (table : Activation) (node : NodeRef) : Bool := !(table.supports node).isEmpty

def holds (table : Activation) (node : NodeRef) (id : SupportId) : Bool :=
  (table.supports node).contains id

def holdsEdge (table : Activation) (node : NodeRef) (ref : EdgeRef) : Bool :=
  (table.supports node).items.any fun support => support.edge? == some ref

def holdsTrigger (table : Activation) (node : NodeRef) (ref : TriggerRef) : Bool :=
  (table.supports node).items.any fun support => support.trigger? == some ref

/-- Lists the node, without supports if it is new. -/
def touch (table : Activation) (node : NodeRef) : Activation := table.set node (table.supports node)

/-- A support that the node holds already is not added again. -/
def add (table : Activation) (node : NodeRef) (support : Support) : Activation :=
  table.set node ((table.supports node).insertNew support)

/-- A node that is not listed stays so. -/
def remove (table : Activation) (node : NodeRef) (id : SupportId) : Activation :=
  match table.at? node with
  | some held => table.set node (held.erase id)
  | none => table

def retain (table : Activation) (node : NodeRef) (keep : Support → Bool) : Activation :=
  match table.at? node with
  | some held => table.set node (held.filter keep)
  | none => table

/-- The active nodes, ascending. -/
def activeNodes (table : Activation) : List NodeRef :=
  (table.keys.filter table.isActive).mergeSort fun a b => a.index ≤ b.index

end Activation

/-- Whether what a support rests on holds. A support that names an edge which the chart does not have is
outside of the domain, as there is no edge to judge it by: that it does not hold, and that a sweep drops
it, is a convention here and no rule of the engine, which mints supports for edges of its chart alone. -/
def Basis.holds (chart : Chart) (facts : Facts) (table : Activation) : Basis → Bool
  | .unconditional => true
  | .external _ condition => condition.holds facts
  | .edge ref => (chart.edge? ref).any fun edge =>
      table.isActive edge.source && (Condition.evalGuard facts edge.condition).isSatisfied
  | .caller composed => table.isActive composed

/-- Drops the supports of a node whose basis does not hold, all judged in the table given. -/
def Activation.sweep (chart : Chart) (facts : Facts) (table : Activation) (node : NodeRef) :
    Activation :=
  table.retain node fun support => support.basis.holds chart facts table

end Flowchart
