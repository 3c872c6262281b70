import PaymentScheduler.System.OwnClient
import PaymentScheduler.Worker.Retries

/-!
# How a failed call is classified

A call of `create_payment` that ends without status 200 or 201 becomes an exception (`respond`), and
the `except` clauses of `_execute_run` choose between a retry and the dead letter queue
(`Executor.settle`). The client lists five transient statuses; every other status is a
`BunqPaymentError`, those that are not 4xx included.

The text of the exception copies the answer, and is written with the run: a NUL in what is copied
rolls the write back (`Txn.storable`).

- `respond_unsuccessful`: the exception of each answer.
- `isText_respond`: its text, as far as it is kept.
- `Executor.settle_eq`: what is committed.
- `Executor.asDocumented_iff`: the answers that are classified by the documented rule.
-/

namespace PaymentScheduler

namespace BunqClient

/-- The client raises none of the application's exceptions itself. -/
def Answer.Unsuccessful : Answer → Prop
  | response r => r.statusCode ≠ 200 ∧ r.statusCode ≠ 201
  | networkError _ => True
  | raised exc => exc.cls ≠ .bunqPaymentError ∧ exc.cls ≠ .configurationError

/-- A response with a status of 4xx other than 429. -/
def Answer.IsClientError : Answer → Prop
  | response r => 400 ≤ r.statusCode ∧ r.statusCode < 500 ∧ r.statusCode ≠ 429
  | networkError _ | raised _ => False

/-- The statuses that the client knows: 4xx, and the transient ones. -/
def Answer.Listed : Answer → Prop
  | response r => 400 ≤ r.statusCode ∧ r.statusCode < 500 ∨ r.statusCode ∈ transientStatusCodes
  | networkError _ | raised _ => True

/-- A response whose status is not transient, or no response. -/
def Answer.IsRefusal : Answer → Prop
  | response r => r.statusCode ∉ transientStatusCodes
  | networkError _ | raised _ => False

/-- What is kept of the answer in the error text of the run. -/
def Answer.copied : Answer → String
  | response r => truncate (if r.statusCode ∈ transientStatusCodes then 200 else 500) r.text
  | networkError text =>
    let intro := "Network error calling bunq (payment outcome unknown): "
    truncate (errorMessageMaxLen - intro.length) text
  | raised exc => truncate errorMessageMaxLen exc.text

/-- A call without success raises, and a `BunqPaymentError` for the statuses that are not
transient. -/
theorem respond_unsuccessful {a : Answer} (h : a.Unsuccessful) :
    ∃ exc, respond a = .error exc ∧ exc.cls ≠ .configurationError ∧
      (exc.cls = .bunqPaymentError ↔ a.IsRefusal) := by
  cases a with
  | response r =>
    obtain ⟨h200, h201⟩ := h
    simp only [respond, h200, h201, or_self, if_false]
    by_cases ht : r.statusCode ∈ transientStatusCodes
    · rw [if_pos ht]
      exact ⟨_, rfl, by simp, iff_of_false (by simp) (not_not_intro ht)⟩
    · rw [if_neg ht]
      exact ⟨_, rfl, by simp, iff_of_true rfl ht⟩
  | networkError text => exact ⟨_, rfl, by simp, iff_of_false (by simp) not_false⟩
  | raised exc => exact ⟨exc, rfl, h.2, iff_of_false h.1 not_false⟩

theorem Answer.IsClientError.isRefusal {a : Answer} (h : a.IsClientError) : a.IsRefusal := by
  cases a with
  | response r =>
    simp only [IsClientError, IsRefusal, transientStatusCodes, List.mem_cons, List.not_mem_nil,
      or_false] at *
    omega
  | networkError text => exact h
  | raised exc => exact h

/-- A listed status is refused exactly if it is a client error. -/
theorem Answer.listed_iff {a : Answer} : a.Listed ↔ (a.IsRefusal → a.IsClientError) := by
  cases a with
  | response r =>
    simp only [Listed, IsRefusal, IsClientError, transientStatusCodes, List.mem_cons,
      List.not_mem_nil, or_false]
    omega
  | networkError text => exact iff_of_true trivial False.elim
  | raised exc => exact iff_of_true trivial False.elim

/-- A text behind a prefix without NUL, both shorter than the cut. -/
theorem isText_truncate_append {p s : String} {m n : Nat} (hp : isText p = true)
    (hlen : p.length + m ≤ n) :
    isText (truncate n (p ++ truncate m s)) = true ↔ isText (truncate m s) = true := by
  rw [truncate_append (by omega), truncate_truncate (by omega), isText_append]
  exact and_iff_right hp

/-- A text behind a status code, which has at most three digits. -/
theorem isText_status {code m : Nat} (l r s : String) (hl : isText l = true) (hr : isText r = true)
    (hcode : code < 600) (hlen : l.length + r.length + m + 3 ≤ errorMessageMaxLen) :
    isText (truncate errorMessageMaxLen (l ++ toString code ++ r ++ truncate m s)) = true ↔
      isText (truncate m s) = true := by
  have hdigits : (toString code).length ≤ 3 := by
    show code.repr.length ≤ 3
    rw [← String.length_toList, Nat.toList_repr]
    exact (Nat.length_toDigits_le_iff (by decide) (by decide)).mpr (by omega)
  refine isText_truncate_append
    (isText_append.mpr ⟨isText_append.mpr ⟨hl, isText_nat code⟩, hr⟩) ?_
  simp only [String.length_append]
  omega

/-- The text of an exception is stored exactly if what it copies of a listed answer can be. -/
theorem isText_respond {a : Answer} {exc : PyException} (hu : a.Unsuccessful) (hl : a.Listed)
    (h : respond a = .error exc) :
    isText (truncate errorMessageMaxLen exc.text) = true ↔ isText a.copied = true := by
  cases a with
  | response r =>
    obtain ⟨h200, h201⟩ := hu
    have hcode : r.statusCode < 600 := by
      simp only [Answer.Listed, transientStatusCodes, List.mem_cons, List.not_mem_nil,
        or_false] at hl
      omega
    simp only [respond, h200, h201, or_self, if_false] at h
    split at h
    · rename_i ht
      cases h
      simp only [Answer.copied, if_pos ht]
      exact isText_status "Transient bunq error " ": " r.text (by decide) (by decide) hcode
        (by decide)
    · rename_i ht
      cases h
      simp only [Answer.copied, if_neg ht]
      exact isText_status "bunq API error " ": " r.text (by decide) (by decide) hcode (by decide)
  | networkError text =>
    cases h
    show isText (truncate _ (_ ++ text)) = true ↔ _
    rw [truncate_append (by decide), isText_append]
    exact and_iff_right (by decide)
  | raised exc' =>
    cases h
    exact Iff.rfl

end BunqClient

namespace Executor

open BunqClient (Answer respond)

variable (env : Env) (w : Nat) (now : Time)

/-- What `_execute_run` commits after the call: `none` is an exception, that of a text that is not
stored included. -/
def settle (c : Loaded) (a : Answer) (rnd : ℚ) (newId : UUID) : Option Txn :=
  match afterCall c (.ofResult (respond a)) with
  | .failing c error isRetryable =>
    (handleFailure env w now c error isRetryable rnd newId).filter (·.storable)
  | _ => none

/-- The documented rule: `BunqPaymentError` and the dead letter queue are for 4xx other than 429,
and everything else is retried while the policy is not exhausted. -/
structure AsDocumented (c : Loaded) (a : Answer) (rnd : ℚ) (newId : UUID) : Prop where
  raises : ∀ exc, respond a = .error exc → exc.cls = .bunqPaymentError → a.IsClientError
  deadLetter : a.IsClientError →
    ∃ error, settle env w now c a rnd newId = some (moveToDlq env w now c error newId)
  retry : ¬ a.IsClientError →
    (RetryPolicy.fromDict c.subscription.retryPolicy).isExhausted c.run.attempt = false →
    ∃ error retryAfter,
      addSeconds now ((RetryPolicy.fromDict c.subscription.retryPolicy).nextDelayS c.run.attempt
        rnd) = some retryAfter ∧
      settle env w now c a rnd newId =
        some (.scheduleRetry c.run.id error now (nextAttempt c now retryAfter newId))

variable {env w now} {c : Loaded} {a : Answer} {rnd : ℚ} {newId : UUID}

/-- The text of a failure decides whether it is recorded. -/
theorem filter_handleFailure {error : String} {isRetryable : Bool} :
    (handleFailure env w now c error isRetryable rnd newId).filter (·.storable) =
      if isText (truncate errorMessageMaxLen error) then
        handleFailure env w now c error isRetryable rnd newId
      else none := by
  cases h : handleFailure env w now c error isRetryable rnd newId with
  | none => simp
  | some t => simp [Option.filter_some, handleFailure_storable h]

variable (env w now c rnd newId) in
/-- After a call without success the run fails with the text of the exception, and it is retryable
unless bunq has refused. -/
theorem settle_eq (h : a.Unsuccessful) : ∃ exc isRetryable, respond a = .error exc ∧
    (exc.cls = .bunqPaymentError ↔ a.IsRefusal) ∧ (isRetryable = false ↔ a.IsRefusal) ∧
    settle env w now c a rnd newId =
      if isText (truncate errorMessageMaxLen exc.text) then
        handleFailure env w now c exc.text isRetryable rnd newId
      else none := by
  obtain ⟨exc, hexc, hconfig, hiff⟩ := BunqClient.respond_unsuccessful h
  refine ⟨exc, isRetryable exc.cls, hexc, hiff, ?_, ?_⟩
  · rw [← hiff]
    cases hcls : exc.cls with
    | configurationError => exact absurd hcls hconfig
    | _ => decide
  · simp only [settle, hexc, Outcome.ofResult, afterCall, filter_handleFailure]

/-- A failed call is handled by the documented rule exactly if its status is listed, the date of a
retry that is due is in the range of `datetime`, and what is copied of the answer has no NUL where
the rule asks for a write. -/
theorem asDocumented_iff (h : a.Unsuccessful) : AsDocumented env w now c a rnd newId ↔
    a.Listed ∧
    (¬ a.IsClientError →
      (RetryPolicy.fromDict c.subscription.retryPolicy).isExhausted c.run.attempt = false →
      (addSeconds now ((RetryPolicy.fromDict c.subscription.retryPolicy).nextDelayS c.run.attempt
        rnd)).isSome = true) ∧
    (a.IsClientError ∨
      (RetryPolicy.fromDict c.subscription.retryPolicy).isExhausted c.run.attempt = false →
      isText a.copied = true) := by
  obtain ⟨exc, retryable, hexc, hcls, hret, hset⟩ := settle_eq env w now c rnd newId h
  constructor
  · intro hdoc
    have hlisted : a.Listed :=
      Answer.listed_iff.mpr fun href => hdoc.raises exc hexc (hcls.mpr href)
    have htext {t : Txn} (ht : settle env w now c a rnd newId = some t) :
        isText a.copied = true := by
      rw [hset] at ht
      split at ht
      · rename_i hkept
        exact (BunqClient.isText_respond h hlisted hexc).mp hkept
      · cases ht
    refine ⟨hlisted, ?_, ?_⟩
    · intro hclient hex
      obtain ⟨_, retryAfter, hdate, -⟩ := hdoc.retry hclient hex
      exact Option.isSome_iff_exists.mpr ⟨retryAfter, hdate⟩
    · intro hdue
      by_cases hclient : a.IsClientError
      · obtain ⟨error, ht⟩ := hdoc.deadLetter hclient
        exact htext ht
      · obtain ⟨error, retryAfter, -, ht⟩ := hdoc.retry hclient (hdue.resolve_left hclient)
        exact htext ht
  · rintro ⟨hlisted, hdate, htext⟩
    have hkept (hdue : a.IsClientError ∨
        (RetryPolicy.fromDict c.subscription.retryPolicy).isExhausted c.run.attempt = false) :
        settle env w now c a rnd newId =
          handleFailure env w now c exc.text retryable rnd newId := by
      rw [hset, if_pos ((BunqClient.isText_respond h hlisted hexc).mpr (htext hdue))]
    refine ⟨?_, ?_, ?_⟩
    · intro exc' hexc' hpay
      rw [hexc] at hexc'
      cases hexc'
      exact Answer.listed_iff.mp hlisted (hcls.mp hpay)
    · intro hclient
      refine ⟨exc.text, ?_⟩
      rw [hkept (.inl hclient), hret.mpr hclient.isRefusal]
      unfold handleFailure
      simp
    · intro hclient hex
      have hretry : retryable = true := by
        by_contra hfalse
        exact hclient (Answer.listed_iff.mp hlisted (hret.mp (by simpa using hfalse)))
      obtain ⟨retryAfter, hsome⟩ := Option.isSome_iff_exists.mp (hdate hclient hex)
      refine ⟨truncate errorMessageMaxLen exc.text, retryAfter, hsome, ?_⟩
      rw [hkept (.inr hex), hretry, handleFailure_retry rfl hex, hsome, Option.map_some]

end Executor

namespace Demo

open BunqClient (Answer)

/-- A response without a body that is read. -/
def statusOnly (statusCode : Nat) : Answer :=
  .response { statusCode := statusCode, text := "", json := .error (valueError "") }

/-- bunq is overloaded at the first attempt. -/
theorem unavailable_asDocumented :
    Executor.AsDocumented retryEnv 0 (seconds 1717225200) (Executor.attemptOf {} 1)
      (statusOnly 503) 0 0 := by
  refine (Executor.asDocumented_iff (a := statusOnly 503) ⟨by decide, by decide⟩).mpr ?_
  exact ⟨.inr (by decide), fun _ _ => by decide +kernel, fun _ => by decide⟩

/-- A status 501 is not retried. -/
theorem notImplemented_refused :
    ¬ ∀ (env : Env) (w : Nat) (now : Time) (c : Executor.Loaded) (a : Answer) (rnd : ℚ)
      (newId : UUID), a.Unsuccessful → Executor.AsDocumented env w now c a rnd newId := by
  intro h
  have hdoc := h retryEnv 0 (seconds 1717225200) (Executor.attemptOf {} 1) (statusOnly 501) 0 0
    ⟨by decide, by decide⟩
  obtain ⟨hlow, hhigh, -⟩ := hdoc.raises _ rfl rfl
  exact absurd hhigh (by decide)

end Demo

end PaymentScheduler
