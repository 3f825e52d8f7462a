import LedgerQuery.Client.Session
import LedgerQuery.Client.Switchboard
import LedgerQuery.Completion
import LedgerQuery.Executor
import LedgerQuery.Journal.Basic
import LedgerQuery.Rehearsal
import LedgerQuery.Settings.Load
import LedgerQuery.Proofs.Chunk.Blocks
import LedgerQuery.Proofs.Coordinator.Accounting
import LedgerQuery.Proofs.Coordinator.Reentry
import LedgerQuery.Proofs.Coordinator.Reference
import LedgerQuery.Proofs.Coordinator.Signals
import LedgerQuery.Proofs.Counters.Recording
import LedgerQuery.Proofs.Drain.Answers
import LedgerQuery.Proofs.Flight.Basic
import LedgerQuery.Proofs.Flight.Course
import LedgerQuery.Proofs.Flight.Draining
import LedgerQuery.Proofs.Chunk.Partition
import LedgerQuery.Proofs.Flight.Bulk
import LedgerQuery.Proofs.Flight.Single
import LedgerQuery.Proofs.Traffic.Basic
import LedgerQuery.Proofs.Traffic.Projection
import LedgerQuery.Proofs.Client.Conversation
import LedgerQuery.Proofs.Client.Addresses
import LedgerQuery.Proofs.Retry.Allowance
import LedgerQuery.Proofs.Simulation.Schedule
import LedgerQuery.Proofs.Client.Session
import LedgerQuery.Proofs.Drain.Chain
import LedgerQuery.Proofs.Flight.Chains
import LedgerQuery.Proofs.Flight.Clock
import LedgerQuery.Proofs.Flight.Probing
import LedgerQuery.Proofs.Flight.Creating
import LedgerQuery.Proofs.Client.Account
import LedgerQuery.Proofs.Switchboard.Lives
import LedgerQuery.Proofs.Switchboard.Cancelling
import LedgerQuery.Proofs.Traffic.Strand
import LedgerQuery.Proofs.Traffic.Sparing
import LedgerQuery.Proofs.Flight.Failing
import LedgerQuery.Proofs.Flight.Underway
import LedgerQuery.Proofs.Client.Cancellation
import LedgerQuery.Proofs.Flight.Thread
import LedgerQuery.Proofs.Client.Screening
import LedgerQuery.Proofs.Client.Isolation
import LedgerQuery.Proofs.Flight.Counting
import LedgerQuery.Proofs.Traffic.Counting
import LedgerQuery.Proofs.Traffic.Exhaustion
import LedgerQuery.Proofs.Flight.Retrying
import LedgerQuery.Proofs.Flight.Custody
import LedgerQuery.Proofs.Flight.Abandonment
import LedgerQuery.Proofs.Text.Utf8
import LedgerQuery.Proofs.Json.Scan
import LedgerQuery.Proofs.Json.Numeral
import LedgerQuery.Proofs.Json.Text
import LedgerQuery.Proofs.Json.Literal
import LedgerQuery.Proofs.Json.Reader
import LedgerQuery.Proofs.Json.Record
import LedgerQuery.Proofs.Json.Written
import LedgerQuery.Proofs.Client.Envelope
import LedgerQuery.Proofs.Json.Grammar
import LedgerQuery.Proofs.Json.Accepted
import LedgerQuery.Proofs.Client.Bodies
import LedgerQuery.Proofs.Settings.Demands
import LedgerQuery.Proofs.Settings.Layers
import LedgerQuery.Proofs.Text.Split
import LedgerQuery.Proofs.Client.Refusal
import LedgerQuery.Proofs.Retry.Shared
import LedgerQuery.Proofs.Traffic.Words
import LedgerQuery.Proofs.Journal.Lines
import LedgerQuery.Proofs.Journal.Keeping
import LedgerQuery.Proofs.Text.Replace
import LedgerQuery.Proofs.Journal.Painting
