import PaymentScheduler.Db.Schema

/-!
# Transactions

The writes of each transaction that the workers and the API commit, as one step on the committed
rows (`Txn.apply`); `none` is an integrity error, after which nothing is written.

Under READ COMMITTED with row locks a transaction that is one step here has the same effect as in
the code: its updates select by primary key (or re-check their condition under the row lock), and
what it has written is locked until the commit. What a worker read in an earlier transaction, or
earlier in the same one without a lock, is an argument, and may be stale.
-/

namespace PaymentScheduler

/-- How the scheduler leaves a subscription after a window. -/
inductive Advance where
  | nextFireAt (t : Time)
  /-- The cron expression gives no next time. -/
  | pause (now : Time)

/-- The first run of a job, as it is inserted with it. -/
def firstRun (j : ScheduledJob) (runId : UUID) : JobRun :=
  { id := runId, jobId := j.id, createdAt := j.createdAt }

/-- What `_create_job_for_subscription` writes for the window of a subscription. -/
structure WindowWrite where
  subscriptionId : UUID
  scheduledFor : Time
  fingerprint : String
  /-- The fresh uuids of the job and of its first run. -/
  jobId : UUID
  runId : UUID
  epoch : Nat
  createdAt : Time
  advance : Advance

/-- The job that is inserted. -/
def WindowWrite.job (w : WindowWrite) : ScheduledJob :=
  { id := w.jobId
    subscriptionId := w.subscriptionId
    scheduledFor := w.scheduledFor
    fingerprint := w.fingerprint
    dependsOn := []
    status := .ready
    createdByEpoch := w.epoch
    createdAt := w.createdAt }

/-- The `changes` of a PATCH request: `none` leaves a column as it is. -/
structure SubscriptionChanges where
  name : Option String := none
  description : Option String := none
  cronExpression : Option String := none
  nextFireAt : Option Time := none
  timezone : Option String := none
  paymentConfig : Option Dict := none
  retryPolicy : Option RetryPolicyDoc := none
  status : Option SubscriptionStatus := none
  pausedAt : Option Time := none

/-- `not changes`. -/
def SubscriptionChanges.isEmpty (c : SubscriptionChanges) : Bool :=
  c.name.isNone && c.description.isNone && c.cronExpression.isNone && c.nextFireAt.isNone &&
    c.timezone.isNone && c.paymentConfig.isNone && c.retryPolicy.isNone && c.status.isNone &&
    c.pausedAt.isNone

namespace Subscription

def advance (b : Subscription) : Advance → Subscription
  | .nextFireAt t => { b with nextFireAt := some t }
  | .pause now => { b with status := .paused, pausedAt := some now }

def change (b : Subscription) (c : SubscriptionChanges) : Subscription :=
  { b with
    name := c.name.getD b.name
    description := c.description.or b.description
    cronExpression := c.cronExpression.getD b.cronExpression
    nextFireAt := c.nextFireAt.or b.nextFireAt
    timezone := c.timezone.getD b.timezone
    paymentConfig := c.paymentConfig.getD b.paymentConfig
    retryPolicy := c.retryPolicy.getD b.retryPolicy
    status := c.status.getD b.status
    pausedAt := c.pausedAt.or b.pausedAt }

end Subscription

namespace JobRun

variable (r : JobRun)

/-- The claim of an executor. -/
def claim (workerId : String) (now lockExpiresAt : Time) : JobRun :=
  { r with
    status := .running
    workerId := some workerId
    lockExpiresAt := some lockExpiresAt
    startedAt := some now }

def succeed (paymentId : Option String) (now : Time) : JobRun :=
  { r with
    status := .succeeded
    bunqPaymentId := paymentId
    finishedAt := some now
    lockExpiresAt := none }

def fail (error : String) (now : Time) : JobRun :=
  { r with
    status := .failed
    errorMessage := some error
    finishedAt := some now
    lockExpiresAt := none }

/-- The compare-and-set of the recovery worker, where it wins. -/
def reclaim (now : Time) : JobRun :=
  { r with
    status := .failed
    errorMessage := some "Recovered: lock expired without completion"
    finishedAt := some now
    lockExpiresAt := none
    workerId := none }

/-- `clearsWorker`: the recovery worker sets `worker_id` to NULL. -/
def die (reason : String) (clearsWorker : Bool) (now : Time) : JobRun :=
  { r with
    status := .dead
    errorMessage := some reason
    finishedAt := some now
    lockExpiresAt := none
    workerId := if clearsWorker then none else r.workerId }

/-- The cancellation of a PENDING run with its job: the lock column is left as it is. -/
def cancel (dep : UUID) (now : Time) : JobRun :=
  { r with
    status := .failed
    errorMessage := some ("DAG dependency " ++ dep.str ++ " permanently failed")
    finishedAt := some now }

section Fields

variable (w e : String) (p : Option String) (c : Bool) (d : UUID) (t l : Time)

@[simp] theorem claim_id : (r.claim w t l).id = r.id := rfl
@[simp] theorem claim_jobId : (r.claim w t l).jobId = r.jobId := rfl
@[simp] theorem claim_attempt : (r.claim w t l).attempt = r.attempt := rfl
@[simp] theorem claim_status : (r.claim w t l).status = .running := rfl
@[simp] theorem succeed_id : (r.succeed p t).id = r.id := rfl
@[simp] theorem succeed_jobId : (r.succeed p t).jobId = r.jobId := rfl
@[simp] theorem succeed_attempt : (r.succeed p t).attempt = r.attempt := rfl
@[simp] theorem succeed_status : (r.succeed p t).status = .succeeded := rfl
@[simp] theorem fail_id : (r.fail e t).id = r.id := rfl
@[simp] theorem fail_jobId : (r.fail e t).jobId = r.jobId := rfl
@[simp] theorem fail_attempt : (r.fail e t).attempt = r.attempt := rfl
@[simp] theorem fail_status : (r.fail e t).status = .failed := rfl
@[simp] theorem reclaim_id : (r.reclaim t).id = r.id := rfl
@[simp] theorem reclaim_jobId : (r.reclaim t).jobId = r.jobId := rfl
@[simp] theorem reclaim_attempt : (r.reclaim t).attempt = r.attempt := rfl
@[simp] theorem reclaim_status : (r.reclaim t).status = .failed := rfl
@[simp] theorem die_id : (r.die e c t).id = r.id := rfl
@[simp] theorem die_jobId : (r.die e c t).jobId = r.jobId := rfl
@[simp] theorem die_attempt : (r.die e c t).attempt = r.attempt := rfl
@[simp] theorem die_status : (r.die e c t).status = .dead := rfl
@[simp] theorem cancel_id : (r.cancel d t).id = r.id := rfl
@[simp] theorem cancel_jobId : (r.cancel d t).jobId = r.jobId := rfl
@[simp] theorem cancel_attempt : (r.cancel d t).attempt = r.attempt := rfl
@[simp] theorem cancel_status : (r.cancel d t).status = .failed := rfl

end Fields

end JobRun

namespace Db

variable (db : Db)

/-! ## Executor -/

/-- The claim in `_process_run`. -/
def claim (run : UUID) (workerId : String) (now lockExpiresAt : Time) : Db :=
  db.updateRun run fun r => r.claim workerId now lockExpiresAt

/-- The updates of `_persist_success`. -/
def recordSuccess (k : IdempotencyKeyRecord) (run : JobRun) (subscriptionId : UUID) : Db :=
  ((db.updateRun run.id fun r => r.succeed k.bunqPaymentId k.createdAt).updateJob run.jobId
    fun j => { j with status := .done }).updateSub subscriptionId
    fun b => { b with consecutiveFailures := 0 }

/-- `_persist_success`: nothing is written where the key of the run and attempt exists. -/
def persistSuccess (k : IdempotencyKeyRecord) (run : JobRun) (subscriptionId : UUID) :
    Option Db :=
  (db.insertKey k).map fun (inserted, db') =>
    if inserted then db'.recordSuccess k run subscriptionId else db

/-- `_mark_dag_cancelled`. -/
def markDagCancelled (run : JobRun) (now : Time) : Db :=
  (db.updateRun run.id fun r => r.fail "DAG dependency not satisfied" now).updateJob run.jobId
    fun j => { j with status := .cancelled }

/-- `_handle_failure` with a retry: the run fails and the next attempt is inserted. -/
def scheduleRetry (run : UUID) (error : String) (now : Time) (next : JobRun) : Option Db :=
  (db.updateRun run fun r => r.fail error now).insertRun next

/-! ## Dead letters -/

/-- The update of a subscription in `_move_to_dlq`: the counter, and then the status where the
refreshed counter is at the threshold. -/
def countFailure (subscriptionId : UUID) (now : Time) : Db :=
  (db.updateSub subscriptionId fun b =>
    { b with consecutiveFailures := b.consecutiveFailures + 1 }).updateSub subscriptionId fun b =>
      if b.consecutiveFailures ≥ consecutiveFailurePauseThreshold then
        { b with status := .paused, pausedAt := some now }
      else b

/-- `_move_to_dlq` of the executor, and of the recovery worker (`clearsWorker`). -/
def moveToDlq (e : DeadLetterEntry) (clearsWorker : Bool) (now : Time) : Option Db :=
  ((db.updateRun e.jobRunId fun r => r.die e.failureReason clearsWorker now).insertEntry e).map
    fun db' => db'.countFailure e.subscriptionId now

/-! ## Recovery -/

/-- The compare-and-set of `_recover_single_run_by_id`, where it wins. -/
def reclaim (run : UUID) (now : Time) : Db := db.updateRun run fun r => r.reclaim now

/-- The cancellation in `_evaluate_dag_job`: the job, and its PENDING runs. -/
def cancelOrphan (job dep : UUID) (now : Time) : Db :=
  (db.updateJob job fun j => { j with status := .cancelled }).updateRuns
    (fun r => r.jobId = job ∧ r.status = .pending) fun r => r.cancel dep now

/-! ## Scheduler -/

/-- `_create_job_for_subscription`. -/
def createJobForSubscription (w : WindowWrite) : Option Db :=
  (db.insertJob w.job).bind fun (inserted, db') =>
    (if inserted then db'.insertRun (firstRun w.job w.runId) else some db').map fun db' =>
      db'.updateSub w.subscriptionId fun b => b.advance w.advance

/-- The writes of a tick, in order. -/
def schedule : List WindowWrite → Db → Option Db
  | [], db => some db
  | w :: ws, db => (db.createJobForSubscription w).bind (schedule ws)

/-! ## API -/

/-- `resume_subscription`. -/
def resume (id : UUID) (nextFire : Time) : Db :=
  db.updateSub id fun b =>
    { b with
      status := .active
      pausedAt := none
      consecutiveFailures := 0
      nextFireAt := some nextFire }

/-- `resolve_dlq_entry`. -/
def resolve (id : UUID) (now : Time) (resolvedBy : String) : Db :=
  db.updateEntry id fun e => { e with resolvedAt := some now, resolvedBy := some resolvedBy }

/-! ## Other producers -/

/-- A job, with arbitrary dependencies, and its first run, inserted by another producer. -/
def produce (j : ScheduledJob) (runId : UUID) : Option Db :=
  (db.insertJob j).bind fun (inserted, db') =>
    if inserted then db'.insertRun (firstRun j runId) else none

end Db

/-- A transaction that writes. -/
inductive Txn where
  | claim (run : UUID) (workerId : String) (now lockExpiresAt : Time)
  | persistSuccess (k : IdempotencyKeyRecord) (run : JobRun) (subscriptionId : UUID)
  | markDagCancelled (run : JobRun) (now : Time)
  | scheduleRetry (run : UUID) (error : String) (now : Time) (next : JobRun)
  | moveToDlq (e : DeadLetterEntry) (clearsWorker : Bool) (now : Time)
  | reclaim (run : UUID) (now : Time)
  | insertAttempt (next : JobRun)
  | cancelOrphan (job dep : UUID) (now : Time)
  | schedule (ws : List WindowWrite)
  | createSubscription (b : Subscription)
  | updateSubscription (id : UUID) (c : SubscriptionChanges)
  | resume (id : UUID) (nextFire : Time)
  | resolve (id : UUID) (now : Time) (resolvedBy : String)
  | produce (j : ScheduledJob) (runId : UUID)

namespace Txn

/-- The rows after a transaction. -/
def apply (db : Db) : Txn → Option Db
  | claim run workerId now lockExpiresAt => some (db.claim run workerId now lockExpiresAt)
  | persistSuccess k run subscriptionId => db.persistSuccess k run subscriptionId
  | markDagCancelled run now => some (db.markDagCancelled run now)
  | scheduleRetry run error now next => db.scheduleRetry run error now next
  | moveToDlq e clearsWorker now => db.moveToDlq e clearsWorker now
  | reclaim run now => some (db.reclaim run now)
  | insertAttempt next => db.insertRun next
  | cancelOrphan job dep now => some (db.cancelOrphan job dep now)
  | schedule ws => db.schedule ws
  | createSubscription b => db.insertSub b
  | updateSubscription id c => some (db.updateSub id fun b => b.change c)
  | resume id nextFire => some (db.resume id nextFire)
  | resolve id now resolvedBy => some (db.resolve id now resolvedBy)
  | produce j runId => db.produce j runId

/-- The rows of `subscriptions` that a transaction updates, or locks with a foreign key. -/
def subs : Txn → List UUID
  | persistSuccess _ _ subscriptionId => [subscriptionId]
  | moveToDlq e _ _ => [e.subscriptionId]
  | schedule ws => ws.map (·.subscriptionId)
  | updateSubscription id _ => [id]
  | resume id _ => [id]
  | produce j _ => [j.subscriptionId]
  | _ => []

end Txn

end PaymentScheduler
