import Emm.Application
import Emm.Bench.Action
import Emm.Bench.Basic
import Emm.Bench.Directory
import Emm.Bench.Script
import Emm.Channel
import Emm.Collision
import Emm.CommandLine
import Emm.Config
import Emm.Config.File
import Emm.Config.Yaml
import Emm.Failure
import Emm.Handler
import Emm.Identity
import Emm.Identity.Yaml
import Emm.Log.Event
import Emm.Log.Filter
import Emm.Log.Level
import Emm.Message
import Emm.Mme
import Emm.MobileIdentity
import Emm.Procedure
import Emm.Proofs.Edit
import Emm.Proofs.Lookup
import Emm.Service
import Emm.State
import Emm.Store
import Emm.System
import Emm.Table
import Emm.Text
import Emm.Time
import Emm.Timer
import Emm.Yaml.Block
import Emm.Yaml.Character
import Emm.Yaml.Cursor
import Emm.Yaml.Directive
import Emm.Yaml.Document
import Emm.Yaml.DoubleQuoted
import Emm.Yaml.Error
import Emm.Yaml.Gap
import Emm.Yaml.Meaning
import Emm.Yaml.Node
import Emm.Yaml.Node.Reader
import Emm.Yaml.Plain
import Emm.Yaml.SingleQuoted
import Emm.Yaml.Tag
import Emm.Yaml.Token
import Emm.Yaml.Token.Lexer
import Emm.Yaml.Value
import Emm.Main
import Emm.Proofs.Run
import Emm.Proofs.Ownership
import Emm.Proofs.Bookkeeping
import Emm.Proofs.Wiring
import Emm.Proofs.Residue
import Emm.Proofs.Turn
import Emm.Proofs.Rounds
import Emm.Proofs.Timekeeping
import Emm.Proofs.Ending
import Emm.Proofs.Registration
import Emm.Proofs.Displacement
import Emm.Proofs.Staleness
import Emm.Proofs.Exchange
import Emm.Proofs.Handover
import Emm.Proofs.Workload
import Emm.Proofs.Quiescence
import Emm.Proofs.Postponement
import Emm.Proofs.Backpressure
import Emm.Proofs.Attribution
import Emm.Proofs.Locality
import Emm.Proofs.Isolation
import Emm.Proofs.Parking
import Emm.Proofs.Reconciliation
import Emm.Proofs.Retry
import Emm.Proofs.Frame
import Emm.Proofs.Deferral
import Emm.Proofs.Arming
import Emm.Proofs.Tally
import Emm.Proofs.Retransmission
import Emm.Proofs.Draining
import Emm.Proofs.Stopping
import Emm.Proofs.Interruption
import Emm.Proofs.Completion
import Emm.Proofs.Initiation
import Emm.Proofs.Exhaustion
import Emm.Proofs.Deletion
import Emm.Proofs.Teardowns
import Emm.Proofs.TimerService
import Emm.Proofs.Announcement
import Emm.Proofs.Overflow
import Emm.Proofs.DigitString
import Emm.Proofs.DecimalValue
import Emm.Proofs.Removal
import Emm.Proofs.Descent
import Emm.Proofs.Numbering
import Emm.Proofs.RoundTrip
