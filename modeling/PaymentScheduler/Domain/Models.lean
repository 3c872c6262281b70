import PaymentScheduler.Config
import PaymentScheduler.Py.Format

/-!
# `app/domain/models.py`: statuses and keys

The statuses of subscriptions, jobs and runs, and the two hashed strings: the idempotency key of a
run and attempt, and the fingerprint of a subscription and window.
-/

namespace PaymentScheduler

inductive SubscriptionStatus where
  | active
  | paused
  | cancelled
  deriving DecidableEq, Repr

inductive JobStatus where
  | pending
  /-- Waiting on a DAG dependency. -/
  | blocked
  | ready
  /-- At least one run SUCCEEDED. -/
  | done
  /-- Upstream DAG permanently failed. -/
  | cancelled
  deriving DecidableEq, Repr

inductive JobRunStatus where
  | pending
  | running
  | succeeded
  | failed
  /-- Exhausted retries: in the DLQ. -/
  | dead
  deriving DecidableEq, Repr

/-- PENDING, READY or BLOCKED: the job is still to be paid. -/
def JobStatus.isOpen : JobStatus → Bool
  | pending | blocked | ready => true
  | done | cancelled => false

/-- PENDING or RUNNING: an executor or recovery will still pick the run up. -/
def JobRunStatus.isLive : JobRunStatus → Bool
  | pending | running => true
  | succeeded | failed | dead => false

/-- `IdempotencyKey.for_run`: sha256(job_run_id:attempt). -/
def IdempotencyKey.forRun (env : Env) (jobRunId : UUID) (attempt : Int) : String :=
  env.hexdigest (jobRunId.str ++ ":" ++ toString attempt)

/-- The string that a fingerprint hashes. -/
theorem fingerprint_text_inj {u v : UUID} {t t' : Time}
    (h : u.str ++ ":" ++ isoformat t = v.str ++ ":" ++ isoformat t') : u = v ∧ t = t' := by
  have hlist : u.str.toList ++ (":".toList ++ (isoformat t).toList) =
      v.str.toList ++ (":".toList ++ (isoformat t').toList) := by
    simpa only [String.toList_append, List.append_assoc] using congrArg String.toList h
  have hlen : u.str.toList.length = v.str.toList.length := by
    rw [UUID.length_str, UUID.length_str]
  obtain ⟨hu, ht⟩ := List.append_inj hlist hlen
  have hiso : (isoformat t).toList = (isoformat t').toList := List.append_cancel_left ht
  refine ⟨UUID.str_inj (String.toList_inj.mp hu), ?_⟩
  exact isoformat_inj (String.toList_inj.mp hiso)

/-- `JobFingerprint.for_job`: sha256(subscription_id:scheduled_for). -/
def JobFingerprint.forJob (env : Env) (subscriptionId : UUID) (scheduledFor : Time) : String :=
  env.hexdigest (subscriptionId.str ++ ":" ++ isoformat scheduledFor)

/-- Without collisions, a fingerprint determines its window. -/
theorem JobFingerprint.forJob_inj {env : Env} (hh : Function.Injective env.hexdigest) {u v : UUID}
    {t t' : Time} (h : forJob env u t = forJob env v t') : u = v ∧ t = t' := by
  unfold forJob at h
  exact fingerprint_text_inj (hh h)

end PaymentScheduler
