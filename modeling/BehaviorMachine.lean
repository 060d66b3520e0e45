import BehaviorMachine.CommandLine.Arguments
import BehaviorMachine.CommandLine.Execution
import BehaviorMachine.CommandLine.Help
import BehaviorMachine.Condition.Basic
import BehaviorMachine.Condition.Evaluation
import BehaviorMachine.Dataflow
import BehaviorMachine.Digest.Basic
import BehaviorMachine.Digest.Sha256
import BehaviorMachine.Files
import BehaviorMachine.Host.Basic
import BehaviorMachine.Host.Event
import BehaviorMachine.Host.Replay
import BehaviorMachine.Host.Script
import BehaviorMachine.Identifier
import BehaviorMachine.Json.Basic
import BehaviorMachine.Json.Reader
import BehaviorMachine.Json.Record
import BehaviorMachine.Json.Token
import BehaviorMachine.Json.Writer
import BehaviorMachine.Main
import BehaviorMachine.NameMap
import BehaviorMachine.Number.Binary64
import BehaviorMachine.Number.Decimal
import BehaviorMachine.Number.Saturating
import BehaviorMachine.ParamValue
import BehaviorMachine.Profile.Basic
import BehaviorMachine.Profile.Document
import BehaviorMachine.Profile.Validity
import BehaviorMachine.Run.Basic
import BehaviorMachine.Run.Loop
import BehaviorMachine.Run.Simulation
import BehaviorMachine.Run.Step
import BehaviorMachine.Run.Stored
import BehaviorMachine.Session
import BehaviorMachine.Settings.Basic
import BehaviorMachine.Settings.Document
import BehaviorMachine.Settings.Load
import BehaviorMachine.Store
import BehaviorMachine.Text.Blank
import BehaviorMachine.Text.CaseTable
import BehaviorMachine.Text.Digit
import BehaviorMachine.Text.Lowercase
import BehaviorMachine.Text.Utf8
import BehaviorMachine.Timestamp
import BehaviorMachine.Toml.Basic
import BehaviorMachine.Toml.Quoted
import BehaviorMachine.Toml.Reader
import BehaviorMachine.Toml.Scalar
import BehaviorMachine.World
import BehaviorMachine.Proofs.Checks
import BehaviorMachine.Proofs.Settings.Bounds
import BehaviorMachine.Proofs.Host.Replay
import BehaviorMachine.Proofs.Run.Course
import BehaviorMachine.Proofs.Run.Observation
import BehaviorMachine.Proofs.Run.Resolution
import BehaviorMachine.Proofs.Run.Protocol
import BehaviorMachine.Proofs.Run.Calls
import BehaviorMachine.Proofs.Run.Ledger
import BehaviorMachine.Proofs.Run.Lifecycle
import BehaviorMachine.Proofs.Run.Token
import BehaviorMachine.Proofs.Run.Denial
import BehaviorMachine.Proofs.Run.Restoration
import BehaviorMachine.Proofs.Run.Retirement
import BehaviorMachine.Proofs.Run.Suspension
import BehaviorMachine.Proofs.Run.Episode
import BehaviorMachine.Proofs.Run.Path
import BehaviorMachine.Proofs.Run.Timer
import BehaviorMachine.Proofs.Run.Termination
import BehaviorMachine.Proofs.Profile.WellFormed
import BehaviorMachine.Proofs.Profile.Rearrangement
import BehaviorMachine.Proofs.Run.Alike
import BehaviorMachine.Proofs.Run.Rearrangement
import BehaviorMachine.Proofs.Dataflow.Writes
import BehaviorMachine.Proofs.Dataflow.Params
import BehaviorMachine.Proofs.Dataflow.Delivery
import BehaviorMachine.Proofs.Dataflow.Contribution
import BehaviorMachine.Proofs.Profile.Verdict
import BehaviorMachine.Proofs.Run.Life
import BehaviorMachine.Proofs.Run.PortValues
import BehaviorMachine.Proofs.Run.Happening
import BehaviorMachine.Proofs.Run.Yielding
import BehaviorMachine.Proofs.Run.Interrupts
import BehaviorMachine.Proofs.Run.Precedence
import BehaviorMachine.Proofs.Run.Ignored
import BehaviorMachine.Proofs.Host.Pace
import BehaviorMachine.Proofs.Run.Visit
import BehaviorMachine.Proofs.NameMap
import BehaviorMachine.Proofs.Files
import BehaviorMachine.Proofs.Text.Digit
import BehaviorMachine.Proofs.Number.Rounding
import BehaviorMachine.Proofs.Number.Decimal
import BehaviorMachine.Proofs.Number.Layout
import BehaviorMachine.Proofs.Json.Number
import BehaviorMachine.Proofs.Json.Lexing
import BehaviorMachine.Proofs.Json.Depth
import BehaviorMachine.Proofs.Json.Reading
import BehaviorMachine.Proofs.Json.Nesting
import BehaviorMachine.Proofs.Json.Record
import BehaviorMachine.Proofs.Session.Document
import BehaviorMachine.Proofs.Run.Handover
import BehaviorMachine.Proofs.CommandLine.Work
import BehaviorMachine.Proofs.CommandLine.Resumption
import BehaviorMachine.Proofs.Json.Restating
import BehaviorMachine.Proofs.Json.MemberOrder
import BehaviorMachine.Proofs.Profile.Document
import BehaviorMachine.Proofs.Profile.MemberOrder
import BehaviorMachine.Proofs.Host.Document
import BehaviorMachine.Proofs.Run.Document
import BehaviorMachine.Proofs.Json.Canonical
import BehaviorMachine.Proofs.Profile.Canonical
import BehaviorMachine.Proofs.Run.Clock
import BehaviorMachine.Proofs.Run.Interleaving
import BehaviorMachine.Proofs.Run.Readings
import BehaviorMachine.Proofs.Host.Schedule
import BehaviorMachine.Proofs.Run.Unsupported
import BehaviorMachine.Proofs.Text.Lowercase
import BehaviorMachine.Proofs.Condition.ItemCount
import BehaviorMachine.Proofs.Condition.Stacks
import BehaviorMachine.Proofs.Text.Blank
import BehaviorMachine.Proofs.Text.Utf8
import BehaviorMachine.Proofs.Settings.Loading
