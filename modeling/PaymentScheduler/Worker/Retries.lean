import PaymentScheduler.Api.Requests
import PaymentScheduler.Db.Texts
import PaymentScheduler.Worker.Executor

/-!
# Scheduling a retry

`_handle_failure` computes `retry_after` before it writes, so an `OverflowError` of the date leaves
the run RUNNING. `RetryPolicySchema` bounds the delays from below only.

- `addSeconds_isSome_iff`: a sum that stays in the range of `datetime`.
- `RetryPolicySchema.InRange`: the longest delay of a policy does, with the jitter rounded down.
- `Executor.schedulesRetries_iff`: the policies whose retries are scheduled.
-/

namespace PaymentScheduler

/-! ## Rounding -/

theorem roundHalfEven_le_of_lt {q : ℚ} {n : Int} (h : q < n + 1 / 2) : roundHalfEven q ≤ n := by
  have hnear := (roundHalfEven_near q).2
  have hlt : (roundHalfEven q : ℚ) < n + 1 := by linarith
  exact Int.lt_add_one_iff.mp (by exact_mod_cast hlt)

theorem lt_roundHalfEven_of_lt {q : ℚ} {n : Int} (h : n + 1 / 2 < q) : n < roundHalfEven q := by
  have hnear := (roundHalfEven_near q).1
  have hlt : (n : ℚ) < roundHalfEven q := by linarith
  exact_mod_cast hlt

theorem roundHalfEven_nonneg {q : ℚ} (h : 0 ≤ q) : 0 ≤ roundHalfEven q := by
  have hzero : roundHalfEven 0 = 0 := by decide +kernel
  exact hzero ▸ roundHalfEven_mono h

/-- A date in the future is in the range of `datetime`, or the sum is an `OverflowError`. -/
theorem addSeconds_isSome_iff {t : Time} {s : ℚ} (ht : datetimeMin ≤ t) (hs : 0 ≤ s) :
    (addSeconds t s).isSome = true ↔ roundHalfEven (s * 1000000) ≤ datetimeMax - t := by
  have hnonneg := roundHalfEven_nonneg (mul_nonneg hs (by norm_num : (0 : ℚ) ≤ 1000000))
  unfold addSeconds timedelta
  unfold datetimeMin datetimeMax seconds Time at *
  dsimp only
  generalize roundHalfEven (s * 1000000) = us at hnonneg ⊢
  constructor
  · intro h
    split at h
    · simp only [Option.bind_some] at h
      split at h
      · omega
      · cases h
    · cases h
  · intro h
    rw [if_pos (by omega), Option.bind_some, if_pos (by omega)]
    rfl

/-! ## The policies -/

namespace RetryPolicySchema

variable (p : RetryPolicySchema)

/-- The policy that the workers read back. -/
def policy : RetryPolicy := RetryPolicy.fromDict p.modelDump

/-- The longest delay without the jitter, in microseconds: that of the last retry. -/
def longest : ℚ := p.policy.backoff (p.maxAttempts - 1) * 1000000

/-- There is no retry, or the longest delay after `now` is in the range of `datetime`. The jitter
shortens it by any amount, so one half is rounded down. -/
def InRange (now : Time) : Prop :=
  p.maxAttempts = 1 ∨
    if p.jitter then p.longest ≤ (datetimeMax - now : Int) + 1 / 2
    else roundHalfEven p.longest ≤ datetimeMax - now

variable {p}

theorem longest_pos : 0 < p.longest := by
  have hb := p.baseBackoffS_ge
  have hm := p.maxBackoffS_ge
  have hpow : (0 : ℚ) < 2 ^ (p.maxAttempts - 1 - 1) := zpow_pos (by norm_num) _
  refine mul_pos (lt_min ?_ ?_) (by norm_num)
  · exact mul_pos (lt_of_lt_of_le one_pos hb) hpow
  · exact lt_of_lt_of_le (by norm_num) hm

theorem not_exhausted_iff {n : Int} : p.policy.isExhausted n = false ↔ n ≤ p.maxAttempts - 1 := by
  show decide (n ≥ p.maxAttempts) = false ↔ _
  rw [decide_eq_false_iff_not]
  omega

end RetryPolicySchema

namespace Executor

variable {env : Env} {p : RetryPolicySchema} {now : Time}

/-- A run of the attempt `n`, of a subscription with the policy. -/
def attemptOf (p : RetryPolicySchema) (n : Int) : Loaded where
  run := { id := 0, jobId := 0, attempt := n, createdAt := 0 }
  job := { id := 0, subscriptionId := 0, scheduledFor := 0, fingerprint := "", createdAt := 0 }
  subscription :=
    { id := 0
      name := ""
      description := none
      cronExpression := ""
      timezone := ""
      nextFireAt := none
      paymentConfig := []
      retryPolicy := p.modelDump
      createdAt := 0 }

/-- The next attempt of a run, from `retryAfter` on. -/
def nextAttempt (c : Loaded) (now retryAfter : Time) (newId : UUID) : JobRun :=
  { id := newId
    jobId := c.run.jobId
    attempt := c.run.attempt + 1
    retryAfter := some retryAfter
    createdAt := now }

/-- Every retryable failure of an attempt that is not exhausted comes to the writes of a retry, with
a next attempt. -/
def SchedulesRetries (env : Env) (p : RetryPolicySchema) (now : Time) : Prop :=
  ∀ w (c : Loaded) error rnd newId, c.subscription.retryPolicy = p.modelDump →
    1 ≤ c.run.attempt → p.policy.isExhausted c.run.attempt = false → 0 ≤ rnd → rnd < 1 →
    ∃ retryAfter, handleFailure env w now c error true rnd newId =
      some (.scheduleRetry c.run.id (truncate errorMessageMaxLen error) now
        (nextAttempt c now retryAfter newId))

/-- Every delay of the policy is in range, whatever the attempt and the jitter. -/
def DelaysInRange (p : RetryPolicySchema) (now : Time) : Prop :=
  ∀ n rnd, 1 ≤ n → n ≤ p.maxAttempts - 1 → 0 ≤ rnd → rnd < 1 →
    roundHalfEven (p.policy.nextDelayS n rnd * 1000000) ≤ datetimeMax - now

theorem handleFailure_retry {w : Nat} {c : Loaded} {error : String} {rnd : ℚ} {newId : UUID}
    {policy : RetryPolicy} (hp : RetryPolicy.fromDict c.subscription.retryPolicy = policy)
    (hn : policy.isExhausted c.run.attempt = false) :
    handleFailure env w now c error true rnd newId =
      (addSeconds now (policy.nextDelayS c.run.attempt rnd)).map fun retryAfter =>
        .scheduleRetry c.run.id (truncate errorMessageMaxLen error) now
          (nextAttempt c now retryAfter newId) := by
  unfold handleFailure
  dsimp only
  rw [hp, if_pos ⟨rfl, hn⟩]
  rfl

/-- The text of a failure is cut, and otherwise as it is. -/
theorem handleFailure_storable {w : Nat} {c : Loaded} {error : String} {isRetryable : Bool}
    {rnd : ℚ} {newId : UUID} {t : Txn}
    (h : handleFailure env w now c error isRetryable rnd newId = some t) :
    t.storable = isText (truncate errorMessageMaxLen error) := by
  unfold handleFailure at h
  dsimp only at h
  split at h
  · obtain ⟨retryAfter, -, rfl⟩ := Option.map_eq_some_iff.mp h
    simp [Txn.storable, Txn.errorTexts]
  · cases h
    simp [Txn.storable, Txn.errorTexts, moveToDlq]

theorem addSeconds_nextDelayS_isSome_iff (hnow : datetimeMin ≤ now) {n : Int} {rnd : ℚ}
    (h₀ : 0 ≤ rnd) (h₁ : rnd < 1) :
    (addSeconds now (p.policy.nextDelayS n rnd)).isSome = true ↔
      roundHalfEven (p.policy.nextDelayS n rnd * 1000000) ≤ datetimeMax - now := by
  have hpaced : p.policy.Paced := ⟨p.baseBackoffS_ge, p.maxBackoffS_ge⟩
  have hmem := (hpaced.nextDelayS_mem n h₀ h₁).1
  have hback := hpaced.backoff_nonneg n
  exact addSeconds_isSome_iff hnow (by linarith)

theorem schedulesRetries_iff_delaysInRange (hnow : datetimeMin ≤ now) :
    SchedulesRetries env p now ↔ DelaysInRange p now := by
  constructor
  · intro h n rnd hn hmax h₀ h₁
    have hex := RetryPolicySchema.not_exhausted_iff.mpr hmax
    obtain ⟨retryAfter, hsome⟩ := h 0 (attemptOf p n) "" rnd 0 rfl hn hex h₀ h₁
    rw [handleFailure_retry (c := attemptOf p n) (show _ = p.policy from rfl) hex] at hsome
    obtain ⟨t, ht, -⟩ := Option.map_eq_some_iff.mp hsome
    exact (addSeconds_nextDelayS_isSome_iff hnow h₀ h₁).mp (Option.isSome_iff_exists.mpr ⟨t, ht⟩)
  · intro h w c error rnd newId hp hn hex h₀ h₁
    have hrange := h _ rnd hn (RetryPolicySchema.not_exhausted_iff.mp hex) h₀ h₁
    obtain ⟨t, ht⟩ := Option.isSome_iff_exists.mp
      ((addSeconds_nextDelayS_isSome_iff hnow h₀ h₁).mpr hrange)
    have hpolicy : RetryPolicy.fromDict c.subscription.retryPolicy = p.policy :=
      congrArg RetryPolicy.fromDict hp
    exact ⟨t, by rw [handleFailure_retry hpolicy hex, ht, Option.map_some]⟩

/-- Where `room` is less than a positive bound, so is the bound with a jitter that is close to 1. -/
theorem exists_jitter {bound room : ℚ} (hpos : 0 < bound) (h : room < bound) :
    ∃ rnd, 0 ≤ rnd ∧ rnd < 1 ∧ room < bound * (1 / 2 + rnd * (1 / 2)) := by
  have hq : room / bound < 1 := (div_lt_one hpos).mpr h
  refine ⟨max 0 (room / bound), le_max_left _ _, max_lt one_pos hq, ?_⟩
  rw [mul_comm, ← div_lt_iff₀ hpos]
  have hle := le_max_right 0 (room / bound)
  have hlt := max_lt one_pos hq
  linarith

/-- The longest delay decides. With the jitter it is approached and not reached. -/
theorem delaysInRange_iff : DelaysInRange p now ↔ p.InRange now := by
  have hpaced : p.policy.Paced := ⟨p.baseBackoffS_ge, p.maxBackoffS_ge⟩
  have hmax := p.maxAttempts_ge
  have hlong := p.longest_pos
  have hmono {n : Int} (hn : n ≤ p.maxAttempts - 1) :
      p.policy.backoff n * 1000000 ≤ p.longest :=
    mul_le_mul_of_nonneg_right (hpaced.backoff_mono hn) (by norm_num)
  unfold DelaysInRange RetryPolicySchema.InRange
  obtain hone | hmany := hmax.eq_or_lt
  · exact iff_of_true (fun n rnd hn hn' => by omega) (.inl hone.symm)
  rw [or_iff_right hmany.ne']
  cases hj : p.jitter with
  | true =>
    have hpj : p.policy.jitter = true := hj
    simp only [RetryPolicy.nextDelayS_of_jitter hpj, if_true]
    constructor
    · intro h
      by_contra hlt
      obtain ⟨rnd, h₀, h₁, hroom⟩ := exists_jitter hlong (not_le.mp hlt)
      have hle := h (p.maxAttempts - 1) rnd (by omega) le_rfl h₀ h₁
      refine absurd hle (not_le.mpr (lt_roundHalfEven_of_lt ?_))
      calc ((datetimeMax - now : Int) : ℚ) + 1 / 2
          < p.longest * (1 / 2 + rnd * (1 / 2)) := hroom
        _ = p.policy.backoff (p.maxAttempts - 1) * (1 / 2 + rnd * (1 / 2)) * 1000000 := by
          unfold RetryPolicySchema.longest
          ring
    · intro h n rnd hn hn' h₀ h₁
      refine roundHalfEven_le_of_lt ?_
      have hback := hmono hn'
      nlinarith
  | false =>
    have hpj : p.policy.jitter = false := hj
    simp only [RetryPolicy.nextDelayS_of_not_jitter hpj, Bool.false_eq_true, if_false]
    constructor
    · exact fun h => h (p.maxAttempts - 1) 0 (by omega) le_rfl le_rfl one_pos
    · exact fun h n rnd hn hn' h₀ h₁ => le_trans (roundHalfEven_mono (hmono hn')) h

/-- The retries of a policy of the API are always scheduled exactly if its longest delay stays in
the range of `datetime`. -/
theorem schedulesRetries_iff (env : Env) (p : RetryPolicySchema) {now : Time}
    (hnow : datetimeMin ≤ now) : SchedulesRetries env p now ↔ p.InRange now := by
  rw [schedulesRetries_iff_delaysInRange hnow, delaysInRange_iff]

end Executor

namespace Demo

def retryEnv : Env where
  hexdigest := id
  repr _ := ""
  pytzTimezone _ := none
  getNext _ _ _ := none
  isValid _ := false
  allTimezones := []
  workerId _ := ""

/-- The default policy in 2024. -/
theorem default_schedules : Executor.SchedulesRetries retryEnv {} (seconds 1717225200) :=
  (Executor.schedulesRetries_iff retryEnv {} (by decide)).mpr (.inr (by decide +kernel))

/-- One retry, after a backoff of 31700 years. -/
def geologicPolicy : RetryPolicySchema where
  maxAttempts := 2
  baseBackoffS := 1000000000000
  maxBackoffS := 1000000000000
  baseBackoffS_ge := by norm_num
  maxBackoffS_ge := by norm_num

theorem geologic_overflows :
    ¬ ∀ (env : Env) (p : RetryPolicySchema) (now : Time), datetimeMin ≤ now →
      now < seconds 4102444800 → Executor.SchedulesRetries env p now := by
  intro h
  have hsched := h retryEnv geologicPolicy (seconds 1717225200) (by decide) (by decide)
  have hrange := (Executor.schedulesRetries_iff_delaysInRange (by decide)).mp hsched
  have hle := hrange 1 0 le_rfl (by decide) le_rfl one_pos
  exact absurd hle (by decide +kernel)

end Demo

end PaymentScheduler
