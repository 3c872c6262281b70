import PaymentScheduler.Lib.Table
import PaymentScheduler.Domain.Models
import PaymentScheduler.Domain.RetryPolicy

/-!
# The database

The rows of the five tables (`app/infrastructure/db/models.py` and the migrations), the lookups by
primary key, and the statements that the transactions are made of: updates, and inserts under
the constraints of the schema. An insert that violates a constraint other than the one its
`ON CONFLICT` names is `none`: the transaction is rolled back with an integrity error.

PostgreSQL refuses a text that is too long for its `String(n)` column, and a NUL character in any
text: the statement raises, and its transaction is rolled back. The texts that come from bunq and
from a query parameter are checked: `bunq_payment_id` (`varchar?`), `resolved_by` (`isVarchar`) and
the error texts (`Txn.commit`). The columns of a subscription take every string here; where one of
them is refused, the request ends with a database error (`Api.Action.abort`).
-/

namespace PaymentScheduler

/-- `subscriptions`. -/
structure Subscription where
  id : UUID
  name : String
  description : Option String
  cronExpression : String
  timezone : String
  nextFireAt : Option Time
  paymentConfig : Dict
  retryPolicy : RetryPolicyDoc
  status : SubscriptionStatus := .active
  consecutiveFailures : Int := 0
  pausedAt : Option Time := none
  createdAt : Time

/-- `scheduled_jobs`. -/
structure ScheduledJob where
  id : UUID
  subscriptionId : UUID
  scheduledFor : Time
  fingerprint : String
  dependsOn : List UUID := []
  status : JobStatus := .pending
  createdByEpoch : Nat := 0
  createdAt : Time
  deriving DecidableEq

/-- `job_runs`. -/
structure JobRun where
  id : UUID
  jobId : UUID
  attempt : Int := 1
  workerId : Option String := none
  lockExpiresAt : Option Time := none
  status : JobRunStatus := .pending
  retryAfter : Option Time := none
  bunqPaymentId : Option String := none
  errorMessage : Option String := none
  createdAt : Time
  startedAt : Option Time := none
  finishedAt : Option Time := none
  deriving DecidableEq

/-- `idempotency_keys`. -/
structure IdempotencyKeyRecord where
  key : String
  jobRunId : UUID
  attempt : Int
  bunqPaymentId : Option String
  createdAt : Time
  deriving DecidableEq

/-- `payload_snapshot` of a dead letter: the recovery worker stores no `worker_id`. -/
structure PayloadSnapshot where
  paymentConfig : Dict
  attempt : Int
  workerId : Option String

/-- `dead_letter_queue`. -/
structure DeadLetterEntry where
  id : UUID
  jobRunId : UUID
  jobId : UUID
  subscriptionId : UUID
  failureReason : String
  errorClass : Option String := none
  payloadSnapshot : PayloadSnapshot
  createdAt : Time
  resolvedAt : Option Time := none
  resolvedBy : Option String := none

/-- The committed rows. -/
structure Db where
  subscriptions : List Subscription := []
  scheduledJobs : List ScheduledJob := []
  jobRuns : List JobRun := []
  idempotencyKeys : List IdempotencyKeyRecord := []
  deadLetterQueue : List DeadLetterEntry := []

/-- A string that a `TEXT` column takes: no character is NUL. -/
def isText (s : String) : Bool := Char.ofNat 0 ∉ s.toList

/-- A string that a `VARCHAR(255)` column takes: at most 255 characters, none of which is NUL. -/
def isVarchar (s : String) : Bool := s.length ≤ 255 ∧ isText s

/-- A value bound to a nullable `VARCHAR(255)` column: the driver takes a string or `None` only. -/
def varchar? : Json → Option (Option String)
  | .null => some none
  | .str s => if isVarchar s then some (some s) else none
  | _ => none

namespace Db

variable (db : Db)

/-! ## Lookups -/

def sub? (i : UUID) : Option Subscription := Table.get? (·.id) db.subscriptions i

def job? (i : UUID) : Option ScheduledJob := Table.get? (·.id) db.scheduledJobs i

def run? (i : UUID) : Option JobRun := Table.get? (·.id) db.jobRuns i

def entry? (i : UUID) : Option DeadLetterEntry := Table.get? (·.id) db.deadLetterQueue i

/-- The key record of a run and attempt. -/
def key? (run : UUID) (attempt : Int) : Option IdempotencyKeyRecord :=
  Table.get? (fun k => (k.jobRunId, k.attempt)) db.idempotencyKeys (run, attempt)

/-! ## Updates -/

def updateSub (i : UUID) (f : Subscription → Subscription) : Db :=
  { db with subscriptions := Table.updateWhere (fun b => b.id = i) f db.subscriptions }

def updateJob (i : UUID) (f : ScheduledJob → ScheduledJob) : Db :=
  { db with scheduledJobs := Table.updateWhere (fun j => j.id = i) f db.scheduledJobs }

def updateRuns (p : JobRun → Bool) (f : JobRun → JobRun) : Db :=
  { db with jobRuns := Table.updateWhere p f db.jobRuns }

def updateRun (i : UUID) (f : JobRun → JobRun) : Db := db.updateRuns (fun r => r.id = i) f

def updateEntry (i : UUID) (f : DeadLetterEntry → DeadLetterEntry) : Db :=
  { db with deadLetterQueue := Table.updateWhere (fun e => e.id = i) f db.deadLetterQueue }

/-! ## Inserts -/

def addSub (b : Subscription) : Db := { db with subscriptions := db.subscriptions ++ [b] }

def addJob (j : ScheduledJob) : Db := { db with scheduledJobs := db.scheduledJobs ++ [j] }

def addRun (r : JobRun) : Db := { db with jobRuns := db.jobRuns ++ [r] }

def addKey (k : IdempotencyKeyRecord) : Db :=
  { db with idempotencyKeys := db.idempotencyKeys ++ [k] }

def addEntry (e : DeadLetterEntry) : Db := { db with deadLetterQueue := db.deadLetterQueue ++ [e] }

/-- `uq_run_per_attempt`. -/
def sameAttempt (a b : JobRun) : Bool := a.jobId = b.jobId ∧ a.attempt = b.attempt

/-- `uq_job_per_window`. -/
def sameWindow (a b : ScheduledJob) : Bool :=
  a.subscriptionId = b.subscriptionId ∧ a.scheduledFor = b.scheduledFor

/-- `INSERT INTO subscriptions`. -/
def insertSub (b : Subscription) : Option Db :=
  if (db.sub? b.id).isSome then none else some (db.addSub b)

/-- `INSERT INTO scheduled_jobs … ON CONFLICT ON CONSTRAINT uq_job_fingerprint DO NOTHING RETURNING
id`: whether the row is inserted, and the table. -/
def insertJob (j : ScheduledJob) : Option (Bool × Db) :=
  if db.scheduledJobs.any fun a => a.fingerprint = j.fingerprint then some (false, db)
  else if (db.scheduledJobs.any (sameWindow j)) ∨ (db.job? j.id).isSome ∨
      (db.sub? j.subscriptionId).isNone then none
  else some (true, db.addJob j)

/-- `INSERT INTO job_runs … ON CONFLICT ON CONSTRAINT uq_run_per_attempt DO NOTHING`. -/
def insertRun (r : JobRun) : Option Db :=
  if db.jobRuns.any (sameAttempt r) then some db
  else if (db.run? r.id).isSome ∨ (db.job? r.jobId).isNone then none
  else some (db.addRun r)

/-- `INSERT INTO idempotency_keys … ON CONFLICT ON CONSTRAINT uq_idempotency_run_attempt DO
NOTHING`: the row count, and the table. -/
def insertKey (k : IdempotencyKeyRecord) : Option (Bool × Db) :=
  if (db.key? k.jobRunId k.attempt).isSome then some (false, db)
  else if (db.idempotencyKeys.any fun a => a.key = k.key) ∨ (db.run? k.jobRunId).isNone then none
  else some (true, db.addKey k)

/-- `INSERT INTO dead_letter_queue`. -/
def insertEntry (e : DeadLetterEntry) : Option Db :=
  if (db.entry? e.id).isSome ∨ (db.run? e.jobRunId).isNone then none else some (db.addEntry e)

end Db

end PaymentScheduler
