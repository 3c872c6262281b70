import PaymentScheduler.Db.Txn
import PaymentScheduler.Py.Call

/-!
# `app/workers/scheduler.py`

A tick of the scheduler is one transaction: it selects due subscriptions under row locks (`select`),
prepares the writes for them one after the other (`process`), and commits them all (`commit`). No
other transaction can write the selected rows until then (`State.locked`). The leadership checks can
end a tick at any point (`abort`), and so can an exception.
-/

namespace PaymentScheduler

namespace Scheduler

/-- The point that a scheduler has reached. -/
inductive Phase where
  | idle
  /-- `now` is read, the transaction is not open yet. -/
  | started (now : Time)
  /-- The transaction is open since `since`: the locked rows that are still to process, and the
  writes for the others. -/
  | opened (epoch : Nat) (since : Time) (todo : List Subscription) (writes : List WindowWrite)

abbrev State := Phase

inductive Action where
  | start
  /-- `order` lists the selected ids, `skip` the rows that other transactions have locked; `epoch`
  is the epoch of the leader. -/
  | select (epoch : Nat) (order skip : List UUID)
  /-- The fresh uuids of the job and of its run. -/
  | process (jobId runId : UUID)
  | commit
  | abort

variable (env : Env) (db : Db) (now : Time)

/-- `lookahead_cutoff`. -/
def lookaheadCutoff (t : Time) : Time :=
  t + roundHalfEven (env.settings.schedulerLookaheadS * 1000000)

/-- The due subscriptions, where `t` is `now` of the tick. -/
def dueSubscriptions (t : Time) (order skip : List UUID) : Option (List Subscription) :=
  let due (b : Subscription) : Bool :=
    b.status = .active ∧ (b.nextFireAt.any fun f => f ≤ lookaheadCutoff env t) ∧ b.id ∉ skip
  Table.select (·.id) due (·.nextFireAt.getD 0) 100 order db.subscriptions

/-- `_next_fire`: a zone that `pytz` does not know is replaced by UTC. -/
def nextFire (b : Subscription) : Option Time :=
  env.getNext b.cronExpression ((env.pytzTimezone b.timezone).getD "UTC") now

/-- `_create_job_for_subscription`, in a transaction that is open since `since`. -/
def createJobForSubscription (epoch : Nat) (since : Time) (b : Subscription)
    (jobId runId : UUID) : Option WindowWrite :=
  b.nextFireAt.map fun fireAt =>
    { subscriptionId := b.id
      scheduledFor := fireAt
      fingerprint := JobFingerprint.forJob env b.id fireAt
      jobId := jobId
      runId := runId
      epoch := epoch
      createdAt := since
      advance :=
        match nextFire env now b with
        | some t => .nextFireAt t
        | none => .pause now }

/-- A step of a scheduler: its next state, and the transaction that it commits. -/
def step : State → Action → Option (State × Option Txn)
  | .idle, .start => some (.started now, none)
  | .started t, .select epoch order skip =>
    (dueSubscriptions env db t order skip).map fun subs => (.opened epoch now subs [], none)
  | .opened epoch since (b :: todo) writes, .process jobId runId =>
    let w := createJobForSubscription env now epoch since b jobId runId
    some (.opened epoch since todo (writes ++ w.toList), none)
  | .opened _ _ [] writes, .commit => some (.idle, some (.schedule writes))
  | _, .abort => some (.idle, none)
  | _, _ => none

/-- The writes that an open transaction has prepared. -/
def Phase.writes : Phase → List WindowWrite
  | opened _ _ _ ws => ws
  | _ => []

/-- The steps of a scheduler, one constructor for each. -/
inductive Move : Phase → Action → Phase → Option Txn → Prop where
  | start : Move .idle .start (.started now) none
  | select {t epoch order skip subs} (hs : dueSubscriptions env db t order skip = some subs) :
    Move (.started t) (.select epoch order skip) (.opened epoch now subs []) none
  | process {epoch since b todo writes jobId runId} :
    Move (.opened epoch since (b :: todo) writes) (.process jobId runId)
      (.opened epoch since todo
        (writes ++ (createJobForSubscription env now epoch since b jobId runId).toList)) none
  | commit {epoch since writes} :
    Move (.opened epoch since [] writes) .commit .idle (some (.schedule writes))
  | abort {p} : Move p .abort .idle none

variable {env db now}

theorem step_move {st st' : State} {a : Action} {t : Option Txn}
    (h : step env db now st a = some (st', t)) : Move env db now st a st' t := by
  unfold step at h
  split at h
  · cases h
    exact .start
  · obtain ⟨subs, hs, he⟩ := Option.map_eq_some_iff.mp h
    cases he
    exact .select hs
  · cases h
    exact .process
  · cases h
    exact .commit
  · cases h
    exact .abort
  · cases h

/-- The only transaction of a scheduler is its batch. -/
theorem step_txn {st st' : State} {a : Action} {t : Txn}
    (h : step env db now st a = some (st', some t)) : ∃ ws, t = .schedule ws := by
  generalize ht : some t = t' at h
  cases step_move h with
  | commit => exact ⟨_, Option.some.inj ht⟩
  | _ => cases ht

end Scheduler

end PaymentScheduler
