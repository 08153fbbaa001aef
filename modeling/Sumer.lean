import Sumer.Lib.Latest
import Sumer.Lib.Loop
import Sumer.Lib.Fallible
import Sumer.Lib.Orbit
import Sumer.Lib.FixedPoint
import Sumer.Lib.Digits
import Sumer.Lib.StableSort
import Sumer.Lib.Grouping
import Sumer.Lib.Gregorian
import Sumer.Lib.Machine
import Sumer.Lib.Mutex
import Sumer.Money.Amount
import Sumer.Money.Parse
import Sumer.Money.Arithmetic
import Sumer.Money.Grammar
import Sumer.Host.Error
import Sumer.Host.Paging
import Sumer.Wire.Timestamp
import Sumer.Wire.Validator
import Sumer.Host.Time
import Sumer.Host.Calendar
import Sumer.Host.Proleptic
import Sumer.Host.Instant
import Sumer.Host.Checked
import Sumer.Host.Fold
import Sumer.Host.FoldOrder
import Sumer.Host.Clock
import Sumer.Store.Hash
import Sumer.Store.Tables
import Sumer.Store.Sweep
import Sumer.Store.SweepRun
import Sumer.Store.Chain
import Sumer.Store.Ingest
import Sumer.Store.Heads
import Sumer.Store.Retract
import Sumer.Store.Outcome
import Sumer.Store.Runs
import Sumer.Store.Revisions
import Sumer.Store.Crawls
import Sumer.Store.Retraction
import Sumer.Store.Listing
import Sumer.Store.HistoryStart
import Sumer.Store.Atomicity
import Sumer.Store.ResumePoint
import Sumer.Store.CrashResume
import Sumer.Store.Sample
import Sumer.Store.Reasons
import Sumer.Store.Refresh
import Sumer.Store.Revival
import Sumer.Store.Vantage
import Sumer.Store.Idempotence
import Sumer.Store.Oversized
import Sumer.Host.Mux
import Sumer.Host.Latch
import Sumer.Wire.Codec
import Sumer.Host.ReadLoop
import Sumer.Host.Connection
import Sumer.Host.Permits
import Sumer.Host.Envelope
import Sumer.Store.Taint
import Sumer.Host.Balances
import Sumer.Host.History
import Sumer.Store.Balances
import Sumer.Store.Freshness
import Sumer.Store.BalanceLines
import Sumer.Wire.Json
import Sumer.Store.Content
import Sumer.Store.Columns
import Sumer.Bitcoin.Map
import Sumer.Bitcoin.Calendar
import Sumer.Bitcoin.Paging
import Sumer.Bitcoin.Crawl
import Sumer.Bitcoin.Cursors
import Sumer.Bitcoin.Wallet
import Sumer.Bitcoin.Source
import Sumer.Bitcoin.Adapter
import Sumer.Bitcoin.Ledger
import Sumer.Bitcoin.Snapshots
import Sumer.Bitcoin.Requests
import Sumer.Bitcoin.Cached
import Sumer.Bitcoin.Corpus
import Sumer.Bitcoin.Union
import Sumer.Bitcoin.Reconcile
import Sumer.Conformance.Assert
import Sumer.Conformance.Sequence
import Sumer.Bitcoin.Partial
import Sumer.Bitcoin.FrameFit
import Sumer.Lib.Record
import Sumer.Wire.Decode
import Sumer.Wire.RoundTrip
import Sumer.Host.Replies
import Sumer.Bitcoin.Delivery
import Sumer.Bitcoin.Restart
import Sumer.Wire.Value
import Sumer.Host.Calls
import Sumer.Wire.Line
import Sumer.Bitcoin.Process
import Sumer.Bitcoin.Conversation
import Sumer.Bitcoin.Remote
import Sumer.Bitcoin.Mirror
