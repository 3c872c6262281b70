import Mathlib

/-!
# `RetryPolicy`

Exponential backoff with optional full jitter. Delays are exact rational numbers of seconds.
`RetryPolicyDoc` is the JSONB document: the API stores all four keys, and a missing key takes its
default.
-/

namespace PaymentScheduler

/-- The known keys of a `retry_policy` document. -/
structure RetryPolicyDoc where
  maxAttempts : Option Int := none
  baseBackoffS : Option ℚ := none
  maxBackoffS : Option ℚ := none
  jitter : Option Bool := none
  deriving DecidableEq

structure RetryPolicy where
  maxAttempts : Int := 5
  baseBackoffS : ℚ := 60
  maxBackoffS : ℚ := 3600
  jitter : Bool := true
  deriving DecidableEq

namespace RetryPolicy

/-- `next_delay_s`, for the value `rnd` of `random.random()`. -/
def nextDelayS (p : RetryPolicy) (attempt : Int) (rnd : ℚ) : ℚ :=
  let delay := min (p.baseBackoffS * 2 ^ (attempt - 1)) p.maxBackoffS
  if p.jitter then delay * (1 / 2 + rnd * (1 / 2)) else delay

/-- `is_exhausted`: `attempt` is the 1-based number of the attempt that just failed. -/
def isExhausted (p : RetryPolicy) (attempt : Int) : Bool := attempt ≥ p.maxAttempts

/-- `to_dict`. -/
def toDict (p : RetryPolicy) : RetryPolicyDoc :=
  { maxAttempts := some p.maxAttempts
    baseBackoffS := some p.baseBackoffS
    maxBackoffS := some p.maxBackoffS
    jitter := some p.jitter }

/-- `from_dict`. -/
def fromDict (d : RetryPolicyDoc) : RetryPolicy :=
  { maxAttempts := d.maxAttempts.getD 5
    baseBackoffS := d.baseBackoffS.getD 60
    maxBackoffS := d.maxBackoffS.getD 3600
    jitter := d.jitter.getD true }

/-! ## The delays -/

variable (p : RetryPolicy)

/-- The delay after an attempt, before the jitter. -/
def backoff (attempt : Int) : ℚ := min (p.baseBackoffS * 2 ^ (attempt - 1)) p.maxBackoffS

/-- The bounds of `RetryPolicySchema` on the delays. -/
def Paced : Prop := 1 ≤ p.baseBackoffS ∧ 60 ≤ p.maxBackoffS

variable {p}

theorem nextDelayS_of_jitter {attempt : Int} {rnd : ℚ} (h : p.jitter = true) :
    p.nextDelayS attempt rnd = p.backoff attempt * (1 / 2 + rnd * (1 / 2)) := by
  simp only [nextDelayS, backoff, h, if_true]

theorem nextDelayS_of_not_jitter {attempt : Int} {rnd : ℚ} (h : p.jitter = false) :
    p.nextDelayS attempt rnd = p.backoff attempt := by
  simp only [nextDelayS, backoff, h, Bool.false_eq_true, if_false]

theorem Paced.backoff_nonneg (h : p.Paced) (attempt : Int) : 0 ≤ p.backoff attempt := by
  obtain ⟨hb, hm⟩ := h
  have hpow : (0 : ℚ) ≤ 2 ^ (attempt - 1) := zpow_nonneg (by norm_num) _
  exact le_min (mul_nonneg (by linarith) hpow) (by linarith)

/-- The delays do not decrease from attempt to attempt. -/
theorem Paced.backoff_mono (h : p.Paced) : Monotone p.backoff := by
  intro m n hmn
  have hpow : (2 : ℚ) ^ (m - 1) ≤ 2 ^ (n - 1) :=
    zpow_le_zpow_right₀ (by norm_num) (by omega)
  exact min_le_min_right _ (mul_le_mul_of_nonneg_left hpow (by linarith [h.1]))

/-- The jitter at most halves a delay. -/
theorem Paced.nextDelayS_mem (h : p.Paced) (attempt : Int) {rnd : ℚ} (h₀ : 0 ≤ rnd)
    (h₁ : rnd < 1) :
    p.backoff attempt / 2 ≤ p.nextDelayS attempt rnd ∧
      p.nextDelayS attempt rnd ≤ p.backoff attempt := by
  have hd := h.backoff_nonneg attempt
  cases hj : p.jitter with
  | true =>
    rw [nextDelayS_of_jitter hj]
    constructor <;> nlinarith [mul_nonneg hd h₀]
  | false =>
    rw [nextDelayS_of_not_jitter hj]
    exact ⟨by linarith, le_rfl⟩

theorem fromDict_toDict (p : RetryPolicy) : fromDict p.toDict = p := rfl

end RetryPolicy

end PaymentScheduler
