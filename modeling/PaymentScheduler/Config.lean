import PaymentScheduler.Py.Time
import PaymentScheduler.Py.Json

/-!
# Settings, constants and libraries

`Settings` and the constants are those of `app/core` that the workers read. `Env` adds the
libraries that the code calls and that are not part of the repository: SHA-256, `croniter`, `pytz`
and `repr` (for error texts only). A zone is given by its canonical name; `get_next` starts from an
instant and gives one, both in UTC.
-/

namespace PaymentScheduler

/-- `Settings`, with its defaults. -/
structure Settings where
  schedulerLookaheadS : ℚ := 60
  executorBatchSize : Nat := 10
  executorLockTimeoutS : Int := 300
  bunqMonetaryAccountId : Int := 0

/-- `CONSECUTIVE_FAILURE_PAUSE_THRESHOLD`. -/
def consecutiveFailurePauseThreshold : Int := 3

/-- `ERROR_MESSAGE_MAX_LEN`. -/
def errorMessageMaxLen : Nat := 2000

/-- `s[:n]`. -/
def truncate (n : Nat) (s : String) : String := String.ofList (s.toList.take n)

/-- The settings of a deployment and its libraries. -/
structure Env where
  settings : Settings := {}
  /-- `hashlib.sha256(s.encode()).hexdigest()`. -/
  hexdigest : String → String
  /-- `repr`. -/
  repr : Json → String
  /-- `pytz.timezone`: `none` is an `UnknownTimeZoneError`. -/
  pytzTimezone : String → Option String
  /-- `croniter(expression, t).get_next(datetime)` in a zone: `none` is an exception. -/
  getNext : (expression zone : String) → Time → Option Time
  /-- `croniter.is_valid`. -/
  isValid : String → Bool
  /-- `pytz.all_timezones`. -/
  allTimezones : List String
  /-- The `worker_id` of each executor. -/
  workerId : Nat → String

end PaymentScheduler
