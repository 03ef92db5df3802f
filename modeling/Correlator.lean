import Correlator.Client.Builder
import Correlator.Options.Datum
import Correlator.Options.Document
import Correlator.Pending.Bench
import Correlator.Response.Reader
import Correlator.Session.Machine
import Correlator.Text.Blank
import Correlator.Time.ClockShelf
import Correlator.Proofs.Client.Aside
import Correlator.Proofs.Client.Attempt
import Correlator.Proofs.Client.Clock
import Correlator.Proofs.Client.Delivery
import Correlator.Proofs.Client.Disposal
import Correlator.Proofs.Client.Exit
import Correlator.Proofs.Client.Muting
import Correlator.Proofs.Client.Performance
import Correlator.Proofs.Client.Pruning
import Correlator.Proofs.Client.Refusal
import Correlator.Proofs.Client.Setback
import Correlator.Proofs.Client.Sidestep
import Correlator.Proofs.Client.Waiting
import Correlator.Proofs.Concourse.Account
import Correlator.Proofs.Concourse.Assignment
import Correlator.Proofs.Concourse.Basic
import Correlator.Proofs.Concourse.Cell
import Correlator.Proofs.Concourse.Wakeup
import Correlator.Proofs.Course.Accounts
import Correlator.Proofs.Course.Basic
import Correlator.Proofs.Course.Capacity
import Correlator.Proofs.Course.Chronicle
import Correlator.Proofs.Course.Clock
import Correlator.Proofs.Course.Disposal
import Correlator.Proofs.Course.Interference
import Correlator.Proofs.Course.Interleaving
import Correlator.Proofs.Course.Ledger
import Correlator.Proofs.Course.Race
import Correlator.Proofs.Course.Request
import Correlator.Proofs.Course.Resolution
import Correlator.Proofs.Course.Seniority
import Correlator.Proofs.Course.Soundness
import Correlator.Proofs.Options.Agreement
import Correlator.Proofs.Options.Datum
import Correlator.Proofs.Pending.Bench
import Correlator.Proofs.Pending.Custody
import Correlator.Proofs.Response.Cell
import Correlator.Proofs.Response.History
import Correlator.Proofs.Response.Reader
import Correlator.Proofs.Session.Atomicity
import Correlator.Proofs.Session.Cancellation
import Correlator.Proofs.Session.Capacity
import Correlator.Proofs.Session.Chronicle
import Correlator.Proofs.Session.Clock
import Correlator.Proofs.Session.Conservation
import Correlator.Proofs.Session.Deferral
import Correlator.Proofs.Session.Delivery
import Correlator.Proofs.Session.Direct
import Correlator.Proofs.Session.Disposal
import Correlator.Proofs.Session.Execution
import Correlator.Proofs.Session.Interference
import Correlator.Proofs.Session.Ledger
import Correlator.Proofs.Session.LifeCycle
import Correlator.Proofs.Session.Likeness
import Correlator.Proofs.Session.Nesting
import Correlator.Proofs.Session.Numbering
import Correlator.Proofs.Session.Outcome
import Correlator.Proofs.Session.Parallel
import Correlator.Proofs.Session.Pruning
import Correlator.Proofs.Session.Records
import Correlator.Proofs.Session.Refusal
import Correlator.Proofs.Session.Rejection
import Correlator.Proofs.Session.Resolution
import Correlator.Proofs.Session.Run
import Correlator.Proofs.Session.Seniority
import Correlator.Proofs.Session.Sharing
import Correlator.Proofs.Session.Spawning
import Correlator.Proofs.Session.Staleness
import Correlator.Proofs.Session.Start
import Correlator.Proofs.Session.Turn
import Correlator.Proofs.Session.Twins
import Correlator.Proofs.Strand.Basic
import Correlator.Proofs.Strand.Budget
import Correlator.Proofs.Strand.Course
import Correlator.Proofs.Strand.Forecast
import Correlator.Proofs.Strand.Interruption
import Correlator.Proofs.Strand.Undisturbed
import Correlator.Proofs.Strand.Waiting
import Correlator.Proofs.Time.Clock
import Correlator.Proofs.Time.ClockShelf
import Correlator.Proofs.Toml.Lines
import Correlator.Proofs.Toml.Numeral
import Correlator.Proofs.Transport.Loopback
