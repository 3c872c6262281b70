import PaymentScheduler.Domain.Models

/-!
# `app/domain/jobs/state_machine.py`

The table of valid transitions of a run. No worker consults it.
-/

namespace PaymentScheduler

/-- `VALID_RUN_TRANSITIONS`. -/
def validRunTransitions : JobRunStatus → List JobRunStatus
  | .pending => [.running, .failed]
  | .running => [.succeeded, .failed, .dead]
  | .succeeded => []
  | .failed => [.pending, .dead]
  | .dead => []

/-- `can_transition_to`. -/
def canTransitionTo (current target : JobRunStatus) : Bool := target ∈ validRunTransitions current

end PaymentScheduler
