import Testkit.Bench.Basic
import Testkit.Bench.Step
import Testkit.Body.Action
import Testkit.Body.Exec
import Testkit.Body.Run
import Testkit.Body.Verdict
import Testkit.Body.World
import Testkit.Bytes
import Testkit.Channel.Basic
import Testkit.Channel.Check
import Testkit.Channel.Item
import Testkit.Duration
import Testkit.Handler.Build
import Testkit.Handler.Serve
import Testkit.Handler.Store
import Testkit.Http.Headers
import Testkit.Http.Message
import Testkit.Http.Uri
import Testkit.Json.Basic
import Testkit.Json.Double
import Testkit.Json.EncodingError
import Testkit.Json.Printer
import Testkit.Json.Reader
import Testkit.Log.Filter
import Testkit.Log.Record
import Testkit.Proofs.Stream.History
import Testkit.Reader.Pump
import Testkit.Reader.Script
import Testkit.Reader.Timed
import Testkit.Report.Announcement
import Testkit.Report.Check
import Testkit.Report.Ending
import Testkit.Report.Outcome
import Testkit.Report.Path
import Testkit.Report.Scope
import Testkit.Sse.Event
import Testkit.Sse.Reader
import Testkit.Stream.Endpoint
import Testkit.Text.Cut
import Testkit.Text.Glyph
import Testkit.Text.Numeral
import Testkit.Text.Quoted
import Testkit.Transport.Address
import Testkit.Transport.Client
import Testkit.Transport.Server
import Testkit.Proofs.Stream.Registry
import Testkit.Proofs.Stream.Delivery
import Testkit.Proofs.Body.FlatLog
import Testkit.Proofs.Body.Flattening
import Testkit.Proofs.Body.Induction
import Testkit.Proofs.Body.Relocation
import Testkit.Proofs.Body.Agreement
import Testkit.Proofs.Reader.Pumping
import Testkit.Proofs.Reader.Conservation
import Testkit.Proofs.Body.Constructs
import Testkit.Proofs.Body.Subtests
import Testkit.Proofs.Stream.Closing
import Testkit.Proofs.Body.Control
import Testkit.Proofs.Body.Unwinding
import Testkit.Proofs.Sse.Lines
import Testkit.Proofs.Sse.Drafts
import Testkit.Proofs.Sse.ReadBack
import Testkit.Proofs.Stream.Departures
import Testkit.Proofs.Stream.Interleaving
import Testkit.Proofs.Sse.Arrival
import Testkit.Proofs.Transport.Parity
import Testkit.Proofs.Body.Series
import Testkit.Proofs.Body.Scopes
import Testkit.Proofs.Body.Pairing
import Testkit.Proofs.Body.Passage
import Testkit.Proofs.Body.Accumulation
import Testkit.Proofs.Channel.Receiving
import Testkit.Proofs.Channel.Taking
import Testkit.Proofs.Body.Calls
import Testkit.Proofs.Body.Receipts
import Testkit.Proofs.Body.Containment
import Testkit.Proofs.Body.Separation
import Testkit.Proofs.Body.Expectations
import Testkit.Proofs.Body.Deeds
import Testkit.Proofs.Body.Accounts
import Testkit.Proofs.Body.Occurrences
import Testkit.Proofs.Body.Answers
import Testkit.Proofs.Body.Snapshots
import Testkit.Proofs.Body.LiveReports
import Testkit.Proofs.Stream.Erasure
import Testkit.Proofs.Reader.Ending
import Testkit.Proofs.Reader.Work
import Testkit.Proofs.Reader.Stopping
import Testkit.Proofs.Reader.Parts
import Testkit.Proofs.Reader.Pauses
import Testkit.Proofs.Channel.Arrivals
import Testkit.Proofs.Body.ChannelChecks
import Testkit.Proofs.Handler.Stages
import Testkit.Proofs.Handler.Happenings
import Testkit.Proofs.Handler.Coherence
import Testkit.Proofs.Handler.Turns
import Testkit.Proofs.Handler.Transparency
import Testkit.Proofs.Handler.Records
import Testkit.Proofs.Report.Titles
import Testkit.Proofs.Http.Fields
import Testkit.Proofs.Handler.JsonAnswers
import Testkit.Proofs.Reader.Exhaustion
