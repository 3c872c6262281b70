import PaymentScheduler.Lib.Lts
import PaymentScheduler.Lib.Table
import PaymentScheduler.Py.Time
import PaymentScheduler.Py.Call
import PaymentScheduler.Domain.StateMachine
import PaymentScheduler.Domain.PaymentConfig
import PaymentScheduler.Domain.RetryPolicy
import PaymentScheduler.Db.Schema
import PaymentScheduler.Db.Txn
import PaymentScheduler.Worker.Executor
import PaymentScheduler.Api.Requests
import PaymentScheduler.Db.Lemmas
import PaymentScheduler.System.Basic
import PaymentScheduler.Db.Wf
import PaymentScheduler.Db.Effect
import PaymentScheduler.Db.Guard
import PaymentScheduler.System.Ownership
import PaymentScheduler.System.Transitions
import PaymentScheduler.System.Success
import PaymentScheduler.System.DeadLetters
import PaymentScheduler.Db.Chain
import PaymentScheduler.System.Once
import PaymentScheduler.System.Attempts
import PaymentScheduler.System.Lost
import PaymentScheduler.System.Payments
import PaymentScheduler.Db.Windows
import PaymentScheduler.System.Windows
import PaymentScheduler.Lib.Cursor
import PaymentScheduler.System.Occurrences
import PaymentScheduler.Bunq.Client
import PaymentScheduler.System.OwnClient
import PaymentScheduler.Redis.Leader
import PaymentScheduler.Redis.Locking
import PaymentScheduler.Lib.Fencing
import PaymentScheduler.Redis.Epochs
import PaymentScheduler.Redis.Roles
import PaymentScheduler.Redis.Terms
import PaymentScheduler.System.Fencing
import PaymentScheduler.Db.Alike
import PaymentScheduler.System.ManyRecoveries
import PaymentScheduler.System.Failures
import PaymentScheduler.System.DueTimes
import PaymentScheduler.System.Cancellations
import PaymentScheduler.System.Pauses
import PaymentScheduler.Domain.Validation
import PaymentScheduler.System.Configs
import PaymentScheduler.System.Finality
import PaymentScheduler.System.Claims
import PaymentScheduler.System.Reactivations
import PaymentScheduler.System.Schedules
import PaymentScheduler.System.Replays
import PaymentScheduler.System.Backlog
import PaymentScheduler.System.Confirmations
import PaymentScheduler.Lib.Sweep
import PaymentScheduler.Db.Orphans
import PaymentScheduler.Domain.Keys
import PaymentScheduler.System.Answers
import PaymentScheduler.Api.Resolutions
import PaymentScheduler.Db.Migrations
import PaymentScheduler.Redis.Outages
import PaymentScheduler.System.NextFires
import PaymentScheduler.System.Rows
import PaymentScheduler.Worker.Loop
import PaymentScheduler.System.Orphans
import PaymentScheduler.Worker.Routing
import PaymentScheduler.Db.Letters
import PaymentScheduler.Lib.Drain
import PaymentScheduler.System.Batches
import PaymentScheduler.System.Timestamps
import PaymentScheduler.Lib.Paging
import PaymentScheduler.System.Listings
import PaymentScheduler.System.Repairs
import PaymentScheduler.Redis.Failover
import PaymentScheduler.System.Edits
import PaymentScheduler.Db.Rows
import PaymentScheduler.System.Isolation
