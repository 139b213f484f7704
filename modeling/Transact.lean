import Transact.Engine
import Transact.Json.Parser
import Transact.Log.Root
import Transact.Schema.Naming
import Transact.Session.Scope
import Transact.Simulation.Rehearsal
import Transact.Simulation.Script
import Transact.Simulation.Shared
import Transact.Simulation.Single
import Transact.Proofs.Session.Queue
import Transact.Proofs.Session.Stage
import Transact.Proofs.Session.Change
import Transact.Proofs.Session.Sound
import Transact.Proofs.Session.History
import Transact.Proofs.Session.Rounds
import Transact.Proofs.Session.Agreement
import Transact.Proofs.Session.Jobs
import Transact.Proofs.Session.Serial
import Transact.Proofs.Session.Winner
import Transact.Proofs.Session.Custody
import Transact.Proofs.Ledger.Handling
import Transact.Proofs.Ledger.Custody
import Transact.Proofs.Session.Observers
import Transact.Proofs.Session.Finale
import Transact.Proofs.Session.Twins
import Transact.Proofs.Session.Implicit
import Transact.Proofs.Session.Scope
import Transact.Proofs.Repository.Following
import Transact.Proofs.Repository.Bookkeeping
import Transact.Proofs.Repository.Runs
import Transact.Proofs.Repository.Reconciliation
import Transact.Proofs.Session.Records
import Transact.Proofs.Ledger.Records
import Transact.Proofs.Session.Alone
import Transact.Proofs.Repository.Alone
import Transact.Proofs.Database.Reliability
import Transact.Proofs.Database.Rows
import Transact.Proofs.Database.Directory
import Transact.Proofs.Connection.Adapted
import Transact.Proofs.Repository.Deeds
import Transact.Proofs.Repository.Traces
import Transact.Proofs.Repository.Durability
import Transact.Proofs.Repository.Serving
import Transact.Proofs.Repository.FiniteMap
import Transact.Proofs.Session.Reentry
import Transact.Proofs.Walk
import Transact.Proofs.Traversal
import Transact.Proofs.Session.Return
import Transact.Proofs.Connection.Attached
import Transact.Proofs.Connection.Calls
import Transact.Proofs.Connection.Service
import Transact.Proofs.Connection.Leaving
import Transact.Proofs.Connection.Disposal
import Transact.Proofs.Ledger.Scripts
import Transact.Proofs.Ledger.Independence
import Transact.Proofs.Session.Voice
import Transact.Proofs.Ledger.Jobs
import Transact.Proofs.Simulation.Blocks
import Transact.Proofs.Simulation.Control
import Transact.Proofs.Simulation.Turns
import Transact.Proofs.Simulation.Course
import Transact.Proofs.Simulation.Correlation
import Transact.Proofs.Session.Verdict
import Transact.Proofs.Session.Dispatch
import Transact.Proofs.Ledger.Beginning
import Transact.Proofs.Session.Peers
import Transact.Proofs.Repository.Failures
import Transact.Proofs.Text.Blank
import Transact.Proofs.Text.Integer
import Transact.Proofs.Text.Numeral
import Transact.Proofs.Text.Percent
import Transact.Proofs.Url.Grammar
import Transact.Proofs.Url.Legible
import Transact.Proofs.Url.Query
import Transact.Proofs.Url.RoundTrip
import Transact.Proofs.Url.Normalize
import Transact.Proofs.Url.Idempotence
import Transact.Proofs.Decimal.Interval
import Transact.Proofs.Decimal.Rounding
import Transact.Proofs.Decimal.Shortest
import Transact.Proofs.Json.Number
import Transact.Proofs.Json.Quoted
import Transact.Proofs.Json.RoundTrip
import Transact.Proofs.Log.Line
import Transact.Proofs.Log.Configuration
import Transact.Proofs.Setting.Env
import Transact.Proofs.Schema.Naming
