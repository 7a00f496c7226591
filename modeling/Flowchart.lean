import Flowchart.Roster
import Flowchart.Json
import Flowchart.Value
import Flowchart.Facts
import Flowchart.Condition
import Flowchart.Condition.Outcome
import Flowchart.Declaration
import Flowchart.Declaration.Flaw
import Flowchart.Chart
import Flowchart.Chart.Compile
import Flowchart.Chart.Reach
import Flowchart.Json.Value
import Flowchart.Json.Condition
import Flowchart.Json.Declaration
import Flowchart.Config
import Flowchart.Support
import Flowchart.Strand
import Flowchart.Fault
import Flowchart.Engine
import Flowchart.Session
import Flowchart.Engine.Action
import Flowchart.Engine.Advance
import Flowchart.Engine.Settle
import Flowchart.Rehearsal
import Flowchart.Text.Quoted
import Flowchart.Text.Unprinted
import Flowchart.Engine.Description
import Flowchart.Proofs.Activation
import Flowchart.Proofs.Sweep
import Flowchart.Proofs.Change
import Flowchart.Proofs.Change.Deed
import Flowchart.Proofs.Change.Advance
import Flowchart.Proofs.Change.Settle
import Flowchart.Proofs.Run
import Flowchart.Proofs.Orderly
import Flowchart.Proofs.Compile
import Flowchart.Proofs.Rest
import Flowchart.Proofs.Idempotence
import Flowchart.Proofs.Provenance
import Flowchart.Proofs.Justification
import Flowchart.Proofs.Single
import Flowchart.Proofs.Assignment
import Flowchart.Proofs.Balance
import Flowchart.Proofs.Calls
import Flowchart.Proofs.Reading
import Flowchart.Proofs.Triggers
import Flowchart.Proofs.Sync
import Flowchart.Proofs.Decided
import Flowchart.Proofs.Finished
import Flowchart.Proofs.Accounts
import Flowchart.Proofs.Pruning
import Flowchart.Proofs.Grounded
import Flowchart.Proofs.WellFormed
import Flowchart.Proofs.References
import Flowchart.Proofs.Resolution
import Flowchart.Proofs.Layers
import Flowchart.Proofs.Termination
import Flowchart.Proofs.Footing
import Flowchart.Proofs.Limits
import Flowchart.Proofs.Turnover
import Flowchart.Proofs.Records
import Flowchart.Proofs.Frame
import Flowchart.Proofs.Staging
import Flowchart.Proofs.Registry
import Flowchart.Proofs.Sole
import Flowchart.Proofs.Reach
import Flowchart.Proofs.Confinement
import Flowchart.Proofs.Uncalled
import Flowchart.Proofs.Branches
import Flowchart.Proofs.Readback
import Flowchart.Proofs.Arrangement
import Flowchart.Proofs.Collapse
import Flowchart.Proofs.Documents
import Flowchart.Proofs.Extension
import Flowchart.Proofs.FlowSteps
import Flowchart.Proofs.Connectives
import Flowchart.Proofs.Gaps
import Flowchart.Proofs.Shape
