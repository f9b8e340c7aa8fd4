import BrokerBridge.Bytes
import BrokerBridge.Code
import BrokerBridge.Decimal.Shortest
import BrokerBridge.Duration
import BrokerBridge.Files
import BrokerBridge.Host.ClientLog
import BrokerBridge.Host.Guards
import BrokerBridge.Host.Health
import BrokerBridge.Host.Lock
import BrokerBridge.Host.Outcome
import BrokerBridge.Message.Basic
import BrokerBridge.Message.Guid
import BrokerBridge.Message.Notice
import BrokerBridge.Message.Packing
import BrokerBridge.Native.Call
import BrokerBridge.Native.Expectation
import BrokerBridge.OrderedMap
import BrokerBridge.Property.Codec
import BrokerBridge.Property.Value
import BrokerBridge.Property.Wire
import BrokerBridge.Queue
import BrokerBridge.Replay.Callbacks
import BrokerBridge.Replay.Ledger
import BrokerBridge.Replay.Rehearsal
import BrokerBridge.Replay.Script
import BrokerBridge.Replay.ScriptFile
import BrokerBridge.Replay.Stage
import BrokerBridge.Session.Delivery
import BrokerBridge.Session.Error
import BrokerBridge.Session.Gate
import BrokerBridge.Session.Operations
import BrokerBridge.Session.Run
import BrokerBridge.Settings.Basic
import BrokerBridge.Settings.Document
import BrokerBridge.Settings.Load
import BrokerBridge.Text.Blank
import BrokerBridge.Text.Hex
import BrokerBridge.Text.Json
import BrokerBridge.Text.Toml.Basic
import BrokerBridge.Text.Toml.Reader
import BrokerBridge.Text.Utf8
import BrokerBridge.Word
import BrokerBridge.Proofs.Concurrency.Sections
import BrokerBridge.Proofs.Concurrency.Readers
import BrokerBridge.Proofs.Concurrency.Holding
import BrokerBridge.Proofs.Concurrency.Progress
import BrokerBridge.Proofs.Concurrency.Awaiting
import BrokerBridge.Proofs.Concurrency.Stopping
import BrokerBridge.Proofs.Concurrency.Arrivals
import BrokerBridge.Proofs.Concurrency.Lifecycle
import BrokerBridge.Proofs.Session.Within
import BrokerBridge.Proofs.Replay.Custody
import BrokerBridge.Proofs.Replay.PostedToken
import BrokerBridge.Proofs.Concurrency.Posting
import BrokerBridge.Proofs.Concurrency.Turns
import BrokerBridge.Proofs.Concurrency.Alone
import BrokerBridge.Proofs.Concurrency.Guards
import BrokerBridge.Proofs.Concurrency.Told
import BrokerBridge.Proofs.Concurrency.Rounds
import BrokerBridge.Proofs.Concurrency.Dropping
import BrokerBridge.Proofs.Property.RoundTrip
import BrokerBridge.Proofs.Property.SentAgain
import BrokerBridge.Proofs.Property.Offences
import BrokerBridge.Proofs.Session.Courses
import BrokerBridge.Proofs.Session.Balanced
import BrokerBridge.Proofs.Session.Outside
import BrokerBridge.Proofs.Replay.Expectations
import BrokerBridge.Proofs.Replay.Started
import BrokerBridge.Proofs.Replay.Rejected
import BrokerBridge.Proofs.Replay.Depths
import BrokerBridge.Proofs.Replay.Suspension
import BrokerBridge.Proofs.Replay.Books
import BrokerBridge.Proofs.Replay.Hushed
import BrokerBridge.Proofs.Replay.Reports
import BrokerBridge.Proofs.Replay.Alternation
import BrokerBridge.Proofs.Concurrency.Watching
import BrokerBridge.Proofs.Replay.AfterStop
import BrokerBridge.Proofs.Replay.Playing
import BrokerBridge.Proofs.Replay.Batches
import BrokerBridge.Proofs.Concurrency.Checking
import BrokerBridge.Proofs.Session.Failures
import BrokerBridge.Proofs.Session.Telling
import BrokerBridge.Proofs.Session.ReportLines
import BrokerBridge.Proofs.Session.Decisions
import BrokerBridge.Proofs.Session.Periods
import BrokerBridge.Proofs.Replay.HealthReports
import BrokerBridge.Proofs.Replay.Listing
import BrokerBridge.Proofs.Concurrency.QueueCalls
import BrokerBridge.Proofs.Concurrency.CallOrder
import BrokerBridge.Proofs.Concurrency.Undoing
import BrokerBridge.Proofs.Message.Building
import BrokerBridge.Proofs.Property.Inferred
import BrokerBridge.Proofs.Text.JsonText
import BrokerBridge.Proofs.Replay.ScriptLines
import BrokerBridge.Proofs.Replay.Loading
import BrokerBridge.Proofs.Replay.FaultyLines
import BrokerBridge.Proofs.Native.Matching
import BrokerBridge.Proofs.Host.Redirection
import BrokerBridge.Proofs.Session.Connecting
import BrokerBridge.Proofs.Property.Stored
import BrokerBridge.Proofs.Concurrency.Waking
import BrokerBridge.Proofs.Concurrency.Entries
import BrokerBridge.Proofs.Replay.CallPlans
import BrokerBridge.Proofs.Concurrency.Buffers
