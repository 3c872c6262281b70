import PaymentScheduler.Db.Lemmas
import PaymentScheduler.Domain.PaymentConfig

/-!
# `app/workers/executor.py`

An executor processes the runs of a batch one after the other. Its state is the rest of the batch
and the point that it has reached with the present run (`Phase`): between two points it runs one
transaction, or calls bunq. Every point can be the last one (`crash`), and every database error
(`error`) ends the present run only, since `_process_batch` catches it.

The functions below are those of `ExecutorWorker`, each as it reads the committed rows at its one
moment; `step` puts them in their order.
-/

namespace PaymentScheduler

namespace Executor

/-- The objects that `_execute_run` loads. -/
structure Loaded where
  run : JobRun
  job : ScheduledJob
  subscription : Subscription

/-- The point that an executor has reached with its present run. -/
inductive Phase where
  | idle
  /-- `_process_run` has committed the claim. -/
  | claimed (run : UUID)
  /-- Before `_check_dag_dependencies`. -/
  | checking (c : Loaded) (config : PaymentConfig)
  /-- Before `_mark_dag_cancelled`. -/
  | cancelling (c : Loaded)
  /-- Before `_find_idempotency_key`. -/
  | finding (c : Loaded) (config : PaymentConfig)
  /-- `create_payment` is called and has not returned. -/
  | calling (c : Loaded) (config : PaymentConfig)
  /-- Before `_persist_success`. -/
  | persisting (c : Loaded) (paymentId : Json)
  /-- Before `_handle_failure`. -/
  | failing (c : Loaded) (error : String) (isRetryable : Bool)

/-- What `_execute_run` has loaded. -/
def Phase.loaded? : Phase → Option Loaded
  | checking c _ | cancelling c | finding c _ | calling c _ | persisting c _ | failing c _ _ =>
    some c
  | idle | claimed _ => none

/-- The run that the executor works on. -/
def Phase.run? : Phase → Option UUID
  | idle => none
  | claimed run => some run
  | p => p.loaded?.map (·.run.id)

/-- A call of `create_payment` is ahead, or under way. -/
def Phase.mayPay : Phase → Bool
  | claimed _ | checking .. | finding .. | calling .. => true
  | idle | cancelling _ | persisting .. | failing .. => false

/-- What is paid for: `create_payment` is called and has not returned. -/
def Phase.calling? : Phase → Option Loaded
  | calling c _ => some c
  | _ => none

structure State where
  /-- The ids of the batch that are still to process. -/
  todo : List UUID := []
  phase : Phase := .idle

/-- How a call of `create_payment` ends. -/
inductive Outcome where
  | returned (response : Json)
  | raised (exc : PyException)
  /-- The process ends before the call does. -/
  | crashed

inductive Action where
  /-- `order` lists the selected ids, `skip` the rows that other transactions have locked. -/
  | fetch (order skip : List UUID)
  /-- `locked`: another transaction has locked the row. -/
  | claim (locked : Bool)
  | load
  | checkDeps
  | cancelDag
  | findKey
  /-- `created`: bunq creates the payment, unless the key has one. -/
  | call (created : Bool) (o : Outcome)
  | persist
  /-- `rnd` is `random.random()`, `newId` the fresh uuid. -/
  | fail (rnd : ℚ) (newId : UUID)
  | error
  | crash

/-- The present run ends with the action, and nothing is written. -/
def Action.drops : Action → Bool
  | error | crash | call _ .crashed => true
  | _ => false

variable (env : Env) (w : Nat) (db : Db) (now : Time)

/-- `_fetch_pending_run_ids`. -/
def fetchPendingRunIds (order skip : List UUID) : Option (List UUID) :=
  let due (r : JobRun) : Bool :=
    r.status = .pending ∧ (r.retryAfter.all fun t => t ≤ now) ∧ r.id ∉ skip
  (Table.select (·.id) due (·.createdAt) env.settings.executorBatchSize order db.jobRuns).map
    fun rows => rows.map (·.id)

/-- `_process_run`: the claim, where the row is still PENDING. -/
def processRun (run : UUID) (locked : Bool) : Phase × Option Txn :=
  match db.run? run with
  | some r =>
    if r.status = .pending ∧ locked = false then
      match (db.job? r.jobId).bind fun j => db.sub? j.subscriptionId with
      | some _ =>
        (.claimed run, some (.claim run (env.workerId w) now
          (now + seconds env.settings.executorLockTimeoutS)))
      | none => (.idle, none)
    else (.idle, none)
  | none => (.idle, none)

/-- The objects that `_execute_run` loads. -/
def loadRun (run : UUID) : Option Loaded := do
  let r ← db.run? run
  let j ← db.job? r.jobId
  let b ← db.sub? j.subscriptionId
  return { run := r, job := j, subscription := b }

/-- `_execute_run` up to the first read of other rows. -/
def executeRun (run : UUID) : Phase :=
  match loadRun db run with
  | none => .idle
  | some c =>
    match PaymentConfig.fromDict env c.subscription.paymentConfig with
    | .error exc => .failing c exc.text false
    | .ok config => if c.job.dependsOn = [] then .finding c config else .checking c config

/-- `_check_dag_dependencies`: the ids that name no job are not looked at. -/
def checkDagDependencies (dependsOn : List UUID) : Bool :=
  (db.scheduledJobs.filter fun j => j.id ∈ dependsOn).all fun j => j.status = .done

/-- `response["Response"][0]["Id"]["id"]`. -/
def paymentId (response : Json) : Except PyException Json := do
  let responses ← response.getItem "Response"
  let first ← responses.getFirst
  let id ← first.getItem "Id"
  id.getItem "id"

/-- The `except` clauses around the call: `is_retryable`. -/
def isRetryable : ExceptionClass → Bool
  | .bunqPaymentError | .configurationError => false
  | _ => true

/-- `_execute_run` from the end of the call. -/
def afterCall (c : Loaded) : Outcome → Phase
  | .returned response =>
    match paymentId response with
    | .ok id => .persisting c id
    | .error exc => .failing c exc.text (isRetryable exc.cls)
  | .raised exc => .failing c exc.text (isRetryable exc.cls)
  | .crashed => .idle

/-- `_persist_success`: a payment id that the driver does not take is an error. -/
def persistSuccess (c : Loaded) (paymentId : Json) : Option Txn :=
  (varchar? paymentId).map fun v =>
    .persistSuccess
      { key := IdempotencyKey.forRun env c.run.id c.run.attempt
        jobRunId := c.run.id
        attempt := c.run.attempt
        bunqPaymentId := v
        createdAt := now }
      c.run c.subscription.id

/-- `_move_to_dlq`. -/
def moveToDlq (c : Loaded) (reason : String) (newId : UUID) : Txn :=
  .moveToDlq
    { id := newId
      jobRunId := c.run.id
      jobId := c.run.jobId
      subscriptionId := c.subscription.id
      failureReason := truncate errorMessageMaxLen reason
      payloadSnapshot :=
        { paymentConfig := c.subscription.paymentConfig
          attempt := c.run.attempt
          workerId := some (env.workerId w) }
      createdAt := now }
    false now

/-- `_handle_failure`: `none` is an `OverflowError` of the date. -/
def handleFailure (c : Loaded) (error : String) (isRetryable : Bool) (rnd : ℚ) (newId : UUID) :
    Option Txn :=
  let policy := RetryPolicy.fromDict c.subscription.retryPolicy
  if isRetryable ∧ policy.isExhausted c.run.attempt = false then
    (addSeconds now (policy.nextDelayS c.run.attempt rnd)).map fun retryAfter =>
      .scheduleRetry c.run.id (truncate errorMessageMaxLen error) now
        { id := newId
          jobId := c.run.jobId
          attempt := c.run.attempt + 1
          retryAfter := some retryAfter
          createdAt := now }
  else some (moveToDlq env w now c error newId)

/-- A step of an executor: its next state, and the transaction that it commits. -/
def step (st : State) : Action → Option (State × Option Txn)
  | .fetch order skip =>
    match st.todo, st.phase with
    | [], .idle =>
      (fetchPendingRunIds env db now order skip).map fun ids => ({ st with todo := ids }, none)
    | _, _ => none
  | .claim locked =>
    match st.todo, st.phase with
    | run :: rest, .idle =>
      let (phase, txn) := processRun env w db now run locked
      some ({ todo := rest, phase := phase }, txn)
    | _, _ => none
  | .load =>
    match st.phase with
    | .claimed run => some ({ st with phase := executeRun env db run }, none)
    | _ => none
  | .checkDeps =>
    match st.phase with
    | .checking c config =>
      let phase :=
        if checkDagDependencies db c.job.dependsOn then .finding c config else .cancelling c
      some ({ st with phase := phase }, none)
    | _ => none
  | .cancelDag =>
    match st.phase with
    | .cancelling c => some ({ st with phase := .idle }, some (.markDagCancelled c.run now))
    | _ => none
  | .findKey =>
    match st.phase with
    | .finding c config =>
      let phase :=
        match db.key? c.run.id c.run.attempt with
        | some k => .persisting c (k.bunqPaymentId.elim .null .str)
        | none => .calling c config
      some ({ st with phase := phase }, none)
    | _ => none
  | .call _ o =>
    match st.phase with
    | .calling c _ =>
      let todo := match o with | .crashed => [] | _ => st.todo
      some ({ todo := todo, phase := afterCall c o }, none)
    | _ => none
  | .persist =>
    match st.phase with
    | .persisting c id =>
      (persistSuccess env now c id).map fun t => ({ st with phase := .idle }, some t)
    | _ => none
  | .fail rnd newId =>
    match st.phase with
    | .failing c error retryable =>
      if 0 ≤ rnd ∧ rnd < 1 then
        (handleFailure env w now c error retryable rnd newId).map fun t =>
          ({ st with phase := .idle }, some t)
      else none
    | _ => none
  | .error => some ({ st with phase := .idle }, none)
  | .crash => some ({}, none)

/-! ## What a step does -/

/-- The moves of an executor from phase to phase, and their transactions. -/
inductive Move : Phase → Action → Phase → Option Txn → Prop where
  /-- A fetch, or a claim that finds the row taken. -/
  | stay {a} : Move .idle a .idle none
  | claim {run r locked} (hr : db.run? run = some r) (hp : r.status = .pending) :
    Move .idle (.claim locked) (.claimed run)
      (some (.claim run (env.workerId w) now (now + seconds env.settings.executorLockTimeoutS)))
  | load {run c p config} (hc : loadRun db run = some c)
    (hp : p = .finding c config ∨ p = .checking c config) : Move (.claimed run) .load p none
  | reject {run c error} (hc : loadRun db run = some c) :
    Move (.claimed run) .load (.failing c error false) none
  | depsDone {c config} : Move (.checking c config) .checkDeps (.finding c config) none
  | depsOpen {c config} : Move (.checking c config) .checkDeps (.cancelling c) none
  | cancelDag {c} : Move (.cancelling c) .cancelDag .idle (some (.markDagCancelled c.run now))
  | replay {c config k id} (hk : db.key? c.run.id c.run.attempt = some k) :
    Move (.finding c config) .findKey (.persisting c id) none
  | pay {c config} : Move (.finding c config) .findKey (.calling c config) none
  | paid {c config created o id} :
    Move (.calling c config) (.call created o) (.persisting c id) none
  | unpaid {c config created o error retryable} :
    Move (.calling c config) (.call created o) (.failing c error retryable) none
  | persist {c id t} (ht : persistSuccess env now c id = some t) :
    Move (.persisting c id) .persist .idle (some t)
  | fail {c error retryable rnd newId t}
    (ht : handleFailure env w now c error retryable rnd newId = some t) :
    Move (.failing c error retryable) (.fail rnd newId) .idle (some t)
  /-- A row that is not there. -/
  | missing {run} (hc : loadRun db run = none) : Move (.claimed run) .load .idle none
  /-- An exception, or the end of the process. -/
  | drop {p a} (ha : a.drops = true) : Move p a .idle none

variable {env w db now}

theorem processRun_move {run : UUID} {locked : Bool} {p : Phase} {t : Option Txn}
    (h : processRun env w db now run locked = (p, t)) :
    Move env w db now .idle (.claim locked) p t := by
  unfold processRun at h
  split at h
  · rename_i r hr
    split at h
    · rename_i hc
      split at h
      · cases h
        exact .claim hr hc.1
      · cases h
        exact .stay
    · cases h
      exact .stay
  · cases h
    exact .stay

theorem executeRun_move {run : UUID} :
    Move env w db now (.claimed run) .load (executeRun env db run) none := by
  unfold executeRun
  split
  · rename_i hc
    exact .missing hc
  · rename_i c hc
    split
    · exact .reject hc
    · split
      · exact .load hc (.inl rfl)
      · exact .load hc (.inr rfl)

theorem afterCall_move {c : Loaded} {config : PaymentConfig} {created : Bool} {o : Outcome} :
    Move env w db now (.calling c config) (.call created o) (afterCall c o) none := by
  unfold afterCall
  split
  · split
    · exact .paid
    · exact .unpaid
  · exact .unpaid
  · exact .drop rfl

theorem step_move {st st' : State} {a : Action} {t : Option Txn}
    (h : step env w db now st a = some (st', t)) :
    Move env w db now st.phase a st'.phase t := by
  obtain ⟨todo, p⟩ := st
  cases a with
  | fetch order skip =>
    simp only [step] at h
    split at h
    · obtain ⟨ids, -, he⟩ := Option.map_eq_some_iff.mp h
      cases he
      exact .stay
    · cases h
  | claim locked =>
    simp only [step] at h
    split at h
    · cases h
      exact processRun_move rfl
    · cases h
  | load =>
    cases p <;> cases h
    exact executeRun_move
  | checkDeps =>
    cases p <;> cases h
    dsimp only
    split
    · exact .depsDone
    · exact .depsOpen
  | cancelDag =>
    cases p <;> cases h
    exact .cancelDag
  | findKey =>
    cases p <;> cases h
    dsimp only
    split
    · rename_i k hk
      exact .replay hk
    · exact .pay
  | call created o =>
    cases p <;> cases h
    exact afterCall_move
  | persist =>
    cases p <;> simp only [step] at h <;> try cases h
    obtain ⟨t', ht, he⟩ := Option.map_eq_some_iff.mp h
    cases he
    exact .persist ht
  | fail rnd newId =>
    cases p <;> simp only [step] at h <;> try cases h
    split at h
    · obtain ⟨t', ht, he⟩ := Option.map_eq_some_iff.mp h
      cases he
      exact .fail ht
    · cases h
  | error =>
    cases h
    exact .drop rfl
  | crash =>
    cases h
    exact .drop rfl

theorem loadRun_eq {run : UUID} {c : Loaded} (h : loadRun db run = some c) :
    db.run? run = some c.run ∧ db.job? c.run.jobId = some c.job ∧
      db.sub? c.job.subscriptionId = some c.subscription := by
  obtain ⟨r, hr, h⟩ := Option.bind_eq_some_iff.mp h
  obtain ⟨j, hj, h⟩ := Option.bind_eq_some_iff.mp h
  obtain ⟨b, hb, h⟩ := Option.bind_eq_some_iff.mp h
  cases h
  exact ⟨hr, hj, hb⟩

/-- A move lets the run go, keeps it without a write, or claims a PENDING one. -/
theorem Move.run?_cases {p p' : Phase} {a : Action} {t : Option Txn}
    (h : Move env w db now p a p' t) :
    p'.run? = none ∨ (p'.run? = p.run? ∧ t = none) ∨
    ∃ x r n l, p' = .claimed x ∧ t = some (.claim x (env.workerId w) n l) ∧ db.run? x = some r ∧
      r.status = .pending := by
  cases h with
  | claim hr hp => exact .inr (.inr ⟨_, _, _, _, rfl, rfl, hr, hp⟩)
  | load hc hp =>
    refine .inr (.inl ⟨?_, rfl⟩)
    have := Db.run?_id (loadRun_eq hc).1
    obtain rfl | rfl := hp <;> exact congrArg some this
  | reject hc => exact .inr (.inl ⟨congrArg some (Db.run?_id (loadRun_eq hc).1), rfl⟩)
  | stay | missing | drop | cancelDag | persist | fail => exact .inl rfl
  | _ => exact .inr (.inl ⟨rfl, rfl⟩)

/-- The loaded objects are those of before, or have just been read. -/
theorem Move.loaded?_cases {p p' : Phase} {a : Action} {t : Option Txn} {c : Loaded}
    (h : Move env w db now p a p' t) (hc : p'.loaded? = some c) :
    t = none ∧ (p.loaded? = some c ∨ loadRun db c.run.id = some c) := by
  cases h with
  | load hl hp =>
    refine ⟨rfl, .inr ?_⟩
    rw [← Db.run?_id (loadRun_eq hl).1] at hl
    obtain rfl | rfl := hp <;> (cases hc; exact hl)
  | reject hl =>
    rw [← Db.run?_id (loadRun_eq hl).1] at hl
    cases hc
    exact ⟨rfl, .inr hl⟩
  | stay | missing | drop | cancelDag | persist | fail | claim => cases hc
  | _ => cases hc; exact ⟨rfl, .inl rfl⟩

/-- A success is recorded for the run that the executor has loaded. -/
theorem Move.persistSuccess_run {p p' : Phase} {a : Action} {k : IdempotencyKeyRecord}
    {run : JobRun} {b : UUID} (h : Move env w db now p a p' (some (.persistSuccess k run b))) :
    ∃ c, p.loaded? = some c ∧ c.run = run := by
  cases h with
  | @persist c id _ ht =>
    obtain ⟨v, -, he⟩ := Option.map_eq_some_iff.mp ht
    cases he
    exact ⟨c, rfl, rfl⟩
  | fail ht =>
    unfold handleFailure moveToDlq at ht
    dsimp only at ht
    split at ht
    · obtain ⟨_, -, he⟩ := Option.map_eq_some_iff.mp ht
      cases he
    · cases ht

/-- A failure is a retry with the next attempt, or a dead letter. -/
theorem handleFailure_cases {c : Loaded} {error : String} {retryable : Bool} {rnd : ℚ}
    {newId : UUID} {t : Txn} (h : handleFailure env w now c error retryable rnd newId = some t) :
    (retryable = true ∧
      (RetryPolicy.fromDict c.subscription.retryPolicy).isExhausted c.run.attempt = false ∧
      ∃ retryAfter, t = .scheduleRetry c.run.id (truncate errorMessageMaxLen error) now
        { id := newId
          jobId := c.run.jobId
          attempt := c.run.attempt + 1
          retryAfter := some retryAfter
          createdAt := now }) ∨
    t = moveToDlq env w now c error newId := by
  unfold handleFailure at h
  dsimp only at h
  split at h
  · rename_i hc
    obtain ⟨retryAfter, -, rfl⟩ := Option.map_eq_some_iff.mp h
    exact .inl ⟨hc.1, hc.2, retryAfter, rfl⟩
  · exact .inr (Option.some.inj h).symm

end Executor

end PaymentScheduler
