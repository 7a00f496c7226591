import Flowchart.Support

/-!
Strands: the nodes one execution has come through, from its origin to its frontier, each with the
support that brought it there.
-/
namespace Flowchart

/-- Strands are numbered from 1 in the order a session opens them. -/
structure StrandId where
  number : Nat
  deriving DecidableEq, Repr

instance : ToString StrandId := ⟨fun id => s!"path#{id.number}"⟩

structure Entry where
  node : NodeRef
  support : Support

structure Strand where
  id : StrandId
  entries : List Entry

/-- The live strands in the order they were opened. -/
abbrev Registry := Roster Strand.id

namespace Strand

def nodes (strand : Strand) : List NodeRef := strand.entries.map Entry.node

def origin? (strand : Strand) : Option NodeRef := strand.nodes.head?

def frontier? (strand : Strand) : Option NodeRef := strand.nodes.getLast?

/-- A strand goes on from a snapshot only where it began there, and not along an edge. -/
def resumes (strand : Strand) : Bool :=
  match strand.entries with
  | [origin] => origin.support.edge?.isNone
  | _ => false

end Strand

/-- Sweeps the nodes of the entries one after the other, each in the table the last one left, and
says of each entry whether its node is active after its own sweep. -/
def sweepEntries (chart : Chart) (facts : Facts) :
    Activation → List Entry → List (Entry × Bool) × Activation
  | table, [] => ([], table)
  | table, entry :: rest =>
    let swept := table.sweep chart facts entry.node
    let (verdicts, final) := sweepEntries chart facts swept rest
    ((entry, swept.isActive entry.node) :: verdicts, final)

end Flowchart
