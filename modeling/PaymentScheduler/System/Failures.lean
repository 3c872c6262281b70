import PaymentScheduler.Db.Subscriptions
import PaymentScheduler.System.Ownership

/-!
# The failure counter

`consecutive_failures` counts dead letters: both workers increment it with the entry that they
insert, in one transaction, and a success, a resume and the creation reset it. The dead letters of a
subscription since its last reset are a history variable of the run (`Sys.lettersSinceReset`).

- `setSub_consecutiveFailures`: the counter after a transaction, from the letters of the
  transaction.
- `counts_step`: one step.
- `failure_counter`: every run; and a dead letter at the threshold pauses the subscription.
-/

namespace PaymentScheduler

/-- The dead letters of the subscription `i` that are in `db'` and were not in `db`. -/
def Db.newLetters (db db' : Db) (i : UUID) : List DeadLetterEntry :=
  (db'.deadLetterQueue.drop db.deadLetterQueue.length).filter fun e => e.subscriptionId = i

namespace Txn

/-- A success that is recorded for the subscription `i`, a resume of it, or its creation. -/
def resets (db : Db) (i : UUID) : Txn → Bool
  | persistSuccess k _ s => s = i ∧ db.key? k.jobRunId k.attempt = none
  | resume id _ => id = i
  | createSubscription b => b.id = i
  | _ => false

/-- The dead letters that a transaction inserts. -/
def letters : Txn → List DeadLetterEntry
  | moveToDlq e _ _ => [e]
  | _ => []

variable {db db' : Db} {t : Txn} {b : Subscription} {i : UUID}

/-- A transaction keeps the dead letters that are there, and adds its own. -/
theorem dlq_apply (h : t.apply db = some db') :
    ∃ q, db'.deadLetterQueue = q ++ t.letters ∧ q.length = db.deadLetterQueue.length := by
  cases t with
  | persistSuccess k run s =>
    obtain ⟨rfl, -⟩ | ⟨rfl, -⟩ := Db.persistSuccess_cases h <;>
      exact ⟨_, (List.append_nil _).symm, rfl⟩
  | scheduleRetry run error now next =>
    exact ⟨_, (Db.insertRun_dlq h).trans (List.append_nil _).symm, rfl⟩
  | moveToDlq e clearsWorker now =>
    rw [Db.moveToDlq_cases h]
    exact ⟨_, rfl, rfl⟩
  | insertAttempt next => exact ⟨_, (Db.insertRun_dlq h).trans (List.append_nil _).symm, rfl⟩
  | schedule ws => exact ⟨_, (Db.schedule_dlq h).trans (List.append_nil _).symm, rfl⟩
  | createSubscription y =>
    rw [(Db.insertSub_cases h).1]
    exact ⟨_, (List.append_nil _).symm, rfl⟩
  | resolve id now resolvedBy =>
    cases h
    exact ⟨_, (List.append_nil _).symm, List.length_map _⟩
  | produce j runId =>
    exact ⟨_, (Db.insertRun_dlq (Db.produce_cases h).2).trans (List.append_nil _).symm, rfl⟩
  | _ =>
    cases h
    exact ⟨_, (List.append_nil _).symm, rfl⟩

theorem newLetters_eq (h : t.apply db = some db') :
    db.newLetters db' i = t.letters.filter fun e => e.subscriptionId = i := by
  obtain ⟨q, hq, hlen⟩ := dlq_apply h
  rw [Db.newLetters, hq, ← hlen, List.drop_left]

end Txn

namespace Subscription

theorem countFailure_consecutiveFailures (b : Subscription) (now : Time) :
    (b.countFailure now).consecutiveFailures = b.consecutiveFailures + 1 := by
  unfold countFailure
  split <;> rfl

/-- A failure at the threshold pauses the subscription. -/
theorem countFailure_paused {b : Subscription} {now : Time}
    (h : consecutiveFailurePauseThreshold ≤ (b.countFailure now).consecutiveFailures) :
    (b.countFailure now).status = .paused := by
  rw [countFailure_consecutiveFailures] at h
  unfold countFailure
  rw [if_pos h]

theorem advance_consecutiveFailures (b : Subscription) (a : Advance) :
    (b.advance a).consecutiveFailures = b.consecutiveFailures := by
  cases a <;> rfl

end Subscription

theorem Db.advanceAll_consecutiveFailures (ws : List WindowWrite) (b : Subscription) :
    (advanceAll ws b).consecutiveFailures = b.consecutiveFailures :=
  advanceAll_frame Subscription.advance_consecutiveFailures ws b

namespace Txn

variable {db db' : Db} {t : Txn} {b : Subscription}

/-- The counter of a subscription that is there: zero after a reset, and one more for each dead
letter. -/
theorem setSub_consecutiveFailures (hc : ∀ y, t = createSubscription y → y.id ≠ b.id) :
    (t.setSub db b).consecutiveFailures =
      if t.resets db b.id then 0
      else b.consecutiveFailures + (t.letters.filter fun e => e.subscriptionId = b.id).length := by
  cases t with
  | persistSuccess k run s =>
    by_cases hs : b.id = s ∧ db.key? k.jobRunId k.attempt = none
    · simp [setSub, resets, hs]
    · have hr : ¬ (s = b.id ∧ db.key? k.jobRunId k.attempt = none) :=
        fun h => hs ⟨h.1.symm, h.2⟩
      simp [setSub, resets, letters, if_neg hs, hr]
  | moveToDlq e clearsWorker now =>
    by_cases hs : b.id = e.subscriptionId
    · simp [setSub, resets, letters, hs, Subscription.countFailure_consecutiveFailures]
    · simp [setSub, resets, letters, hs, Ne.symm hs]
  | schedule ws => simp [setSub, resets, letters, Db.advanceAll_consecutiveFailures]
  | createSubscription y => simp [setSub, resets, letters, hc y rfl]
  | updateSubscription id c =>
    simp only [setSub, resets, letters]
    split <;> simp [Subscription.change]
  | resume id nextFire =>
    by_cases hs : b.id = id
    · simp [setSub, resets, hs, Subscription.resume]
    · simp [setSub, resets, letters, hs, Ne.symm hs]
  | _ => simp [setSub, resets, letters]

end Txn

namespace Sys

variable {env : Env} {s s' : Sys} {a : Action} {i : UUID}

/-- The dead letters of a subscription since its last reset, after a step. -/
def countLetters (env : Env) (i : UUID) (ls : List DeadLetterEntry) (s : Sys) (a : Action)
    (s' : Sys) : List DeadLetterEntry :=
  if (s.txn? env a).any fun t => t.resets s.db i then [] else ls ++ s.db.newLetters s'.db i

/-- The dead letters that a run from the empty database has committed for the subscription `i` since
the last committed reset of its counter. -/
def lettersSinceReset (env : Env) (i : UUID) (as : List Action) : List DeadLetterEntry :=
  Lts.history (step env) (countLetters env i) [] init as

/-- The counter of `i`, if there is such a subscription, is the number of the letters `ls`. -/
def Counts (i : UUID) (s : Sys) (ls : List DeadLetterEntry) : Prop :=
  ∀ b, s.db.sub? i = some b → b.consecutiveFailures = ls.length

theorem counts_step {ls : List DeadLetterEntry} (hI : Counts i s ls)
    (h : s.step env a = some s') : Counts i s' (countLetters env i ls s a s') := by
  intro b hb
  obtain ⟨ht, hdb⟩ | ⟨t, ht, hc⟩ := step_db h
  · rw [hdb] at hb
    simpa [countLetters, ht, hdb, Db.newLetters] using hI b hb
  · have hnew := Txn.newLetters_eq (i := i) hc
    obtain ⟨b₀, hb₀, rfl⟩ | ⟨hnone, rfl⟩ := Txn.sub?_cases hc hb
    · have hid : b₀.id = i := Db.sub?_id hb₀
      have hcreate : ∀ y, t = .createSubscription y → y.id ≠ b₀.id := by
        rintro y rfl hy
        have hnone := (Db.insertSub_cases hc).2
        rw [hy, hid, hb₀] at hnone
        cases hnone
      rw [Txn.setSub_consecutiveFailures hcreate, hid, hI b₀ hb₀]
      by_cases hr : t.resets s.db i = true
      · simp [countLetters, ht, hr]
      · simp [countLetters, ht, hr, hnew]
    · -- The subscription is new.
      obtain ⟨r, c, st, rfl, hst⟩ := request_of_txn? ht rfl
      have hid : b.id = i := Db.sub?_id hb
      have hzero : b.consecutiveFailures = 0 := (Api.step_create hst).2.1
      simp [countLetters, ht, Txn.resets, hid, hzero]

/-- A dead letter at the threshold leaves the subscription PAUSED. -/
theorem moveToDlq_paused (h : s.step env a = some s') {e : DeadLetterEntry} {clearsWorker : Bool}
    {now : Time} (ht : s.txn? env a = some (.moveToDlq e clearsWorker now)) {b : Subscription}
    (hb : s'.db.sub? e.subscriptionId = some b)
    (hmax : consecutiveFailurePauseThreshold ≤ b.consecutiveFailures) : b.status = .paused := by
  have hc := step_commits h
  rw [ht] at hc
  obtain ⟨b₀, hb₀, rfl⟩ | ⟨-, hcreate⟩ := Txn.sub?_cases hc hb
  · rw [Txn.setSub, if_pos (Db.sub?_id hb₀)] at hmax ⊢
    exact Subscription.countFailure_paused hmax
  · cases hcreate

/-- In every run the counter of a subscription is the number of its dead letters since its last
reset, and a dead letter that brings it to the threshold pauses the subscription in the same
commit. -/
theorem failure_counter {as : List Action} (hr : Lts.run (step env) init as = some s) :
    (∀ i b, s.db.sub? i = some b →
      b.consecutiveFailures = (lettersSinceReset env i as).length) ∧
    ∀ a s' e clearsWorker now b, s.step env a = some s' →
      s.txn? env a = some (.moveToDlq e clearsWorker now) →
      s'.db.sub? e.subscriptionId = some b →
      consecutiveFailurePauseThreshold ≤ b.consecutiveFailures → b.status = .paused := by
  refine ⟨fun i => ?_, fun a s' e clearsWorker now b h ht hb hmax => moveToDlq_paused h ht hb hmax⟩
  have hinit : Counts i init [] := by
    intro b hb
    cases hb
  exact Lts.run_inv_history (I := Counts i) counts_step hinit hr

end Sys

namespace Demo

/-- A subscription without an IBAN. -/
def unpayable : SubscriptionCreate where
  name := "Rent"
  cronExpression := "* * * * *"
  paymentConfig :=
    { amount := "12.50"
      counterpartyIban := ""
      counterpartyName := "B. Jansen"
      currency_length := config.currency_length }
  retryPolicy := policy

/-- A job of another producer. -/
def produced (id runId : UUID) (t : Time) : Action :=
  .produce
    { id := id
      subscriptionId := subId
      scheduledFor := t
      fingerprint := id.str
      status := .ready
      createdAt := t }
    runId

/-- Executor 0 loads its next run, and cannot build the payment. -/
def rejected : List Action := [.execute 0 (.claim false), .execute 0 .load]

/-- Until the third failure is to be handled. -/
def threeFailures : List Action :=
  [.advance start,
    .request 0 (.begin (.create unpayable subId)),
    produced 1 11 start,
    produced 2 12 (start + 1),
    produced 3 13 (start + 2),
    .execute 0 (.fetch [11, 12, 13] [])] ++
  rejected ++ [.execute 0 (.fail 0 21)] ++ rejected ++ [.execute 0 (.fail 0 22)] ++ rejected

def thirdFailure : Action := .execute 0 (.fail 0 23)

/-- The third dead letter in a row pauses the subscription. -/
theorem threeFailures_paused : ∃ s s' b, Lts.run (Sys.step env) Sys.init threeFailures = some s ∧
    s.step env thirdFailure = some s' ∧ s'.db.sub? subId = some b ∧ b.consecutiveFailures = 3 ∧
    b.consecutiveFailures =
      (Sys.lettersSinceReset env subId (threeFailures ++ [thirdFailure])).length ∧
    b.status = .paused := by
  have heval : (Lts.run (Sys.step env) Sys.init threeFailures).any (fun s =>
      (s.step env thirdFailure).any (fun s' =>
        (s'.db.sub? subId).any fun b => b.consecutiveFailures = 3) ∧
      (s.txn? env thirdFailure).any fun
        | .moveToDlq e _ _ => e.subscriptionId = subId
        | _ => false) = true := by
    decide +kernel
  obtain ⟨s, hs, hp⟩ := Lts.exists_run heval
  simp only [decide_eq_true_eq] at hp
  obtain ⟨hp, ht⟩ := hp
  obtain ⟨s', hs', hp⟩ := (Option.any_eq_true _ _).mp hp
  obtain ⟨b, hb, hp⟩ := (Option.any_eq_true _ _).mp hp
  obtain ⟨t, ht, he⟩ := (Option.any_eq_true _ _).mp ht
  simp only [decide_eq_true_eq] at hp
  have hrun : Lts.run (Sys.step env) Sys.init (threeFailures ++ [thirdFailure]) = some s' := by
    rw [Lts.run_append hs]
    simp [Lts.run, hs']
  refine ⟨s, s', b, hs, hs', hb, hp, (Sys.failure_counter hrun).1 subId b hb, ?_⟩
  cases t with
  | moveToDlq e clearsWorker now =>
    simp only [decide_eq_true_eq] at he
    rw [← he] at hb
    refine (Sys.failure_counter hs).2 _ s' e clearsWorker now b hs' ht hb ?_
    rw [hp]
    decide
  | _ => cases he

end Demo

end PaymentScheduler
