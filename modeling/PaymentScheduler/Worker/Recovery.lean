import PaymentScheduler.Db.Lemmas

/-!
# `app/workers/recovery.py`

A tick of the recovery worker goes through the stuck runs (`_recover_stuck_runs`) and then through
the jobs with dependencies (`_cancel_orphaned_dag_jobs`). For a stuck run it commits twice: the
compare-and-set that takes the run (`reclaim`), and then the next attempt or the dead letter
(`route`); between the two the run is only in the worker's memory (`Phase.claimed`). An exception
ends the whole tick (`crash`): nothing catches it before `BaseWorker.run`.
-/

namespace PaymentScheduler

namespace Recovery

/-- The point that a recovery worker has reached. -/
inductive Phase where
  | idle
  /-- The compare-and-set has won: `run`, and what the transaction has read. -/
  | claimed (run job : UUID) (attempt : Int) (subscription : Subscription)
  /-- `_evaluate_dag_job`: the dependencies that are still to look at. -/
  | evaluating (job : UUID) (deps : List UUID)
  /-- Before the cancellation in `_evaluate_dag_job`. -/
  | cancelling (job dep : UUID)

/-- The run that the worker has taken and not routed yet. -/
def Phase.run? : Phase → Option UUID
  | claimed run .. => some run
  | _ => none

/-- The job that the worker works on. -/
def Phase.job? : Phase → Option UUID
  | idle => none
  | claimed _ job _ _ | evaluating job _ | cancelling job _ => some job

structure State where
  /-- `now` of `_recover_stuck_runs`. -/
  now : Time := 0
  /-- The candidate runs that are still to process. -/
  stuck : List UUID := []
  /-- The jobs that are still to evaluate. -/
  jobs : List ScheduledJob := []
  phase : Phase := .idle

inductive Action where
  /-- `order` lists the selected ids. -/
  | scanStuck (order : List UUID)
  | reclaim
  /-- `newId` is the fresh uuid. -/
  | route (newId : UUID)
  | scanOrphans (order : List UUID)
  | evaluate
  | checkDep
  | cancel
  | crash

variable (db : Db) (now : Time)

/-- A RUNNING run whose lock has expired at `t`. -/
def isStuck (t : Time) (r : JobRun) : Bool :=
  r.status = .running ∧ r.lockExpiresAt.any fun l => l < t

/-- The candidates of `_recover_stuck_runs`, oldest expiry first. -/
def stuckRuns (order : List UUID) : Option (List UUID) :=
  (Table.select (·.id) (isStuck now) (·.lockExpiresAt.getD 0) 50 order db.jobRuns).map
    fun rows => rows.map (·.id)

/-- The first transaction of `_recover_single_run_by_id`, at the time `t` of the scan. -/
def recoverSingleRunById (t : Time) (run : UUID) : Phase × Option Txn :=
  match db.run? run with
  | some r =>
    if isStuck t r then
      match (db.job? r.jobId).bind fun j => db.sub? j.subscriptionId with
      | some b => (.claimed run r.jobId r.attempt b, some (.reclaim run t))
      | none => (.idle, some (.reclaim run t))
    else (.idle, none)
  | none => (.idle, none)

/-- `_move_to_dlq`. -/
def moveToDlq (run job : UUID) (attempt : Int) (b : Subscription) (reason : String)
    (newId : UUID) : Txn :=
  .moveToDlq
    { id := newId
      jobRunId := run
      jobId := job
      subscriptionId := b.id
      failureReason := truncate errorMessageMaxLen reason
      errorClass := some "StuckRunRecovery"
      payloadSnapshot :=
        { paymentConfig := b.paymentConfig
          attempt := attempt
          workerId := none }
      createdAt := now }
    true now

/-- The second transaction of `_recover_single_run_by_id`. -/
def route (run job : UUID) (attempt : Int) (b : Subscription) (newId : UUID) : Txn :=
  if (RetryPolicy.fromDict b.retryPolicy).isExhausted attempt then
    moveToDlq now run job attempt b
      s!"Exhausted after {attempt} attempts (recovered from stuck RUNNING state)" newId
  else
    .insertAttempt
      { id := newId
        jobId := job
        attempt := attempt + 1
        createdAt := now }

/-- The jobs of `_cancel_orphaned_dag_jobs`, oldest first. -/
def orphanCandidates (order : List UUID) : Option (List ScheduledJob) :=
  Table.select (·.id) (fun j : ScheduledJob => j.status.isOpen ∧ j.dependsOn ≠ []) (·.createdAt)
    100 order db.scheduledJobs

/-- One round of the loop of `_evaluate_dag_job`: `none` is the `MultipleResultsFound` of
`scalar_one_or_none` for a dependency with two DEAD runs. -/
def evaluateDagJob (job dep : UUID) (rest : List UUID) : Option Phase :=
  match db.job? dep with
  | none => some (.evaluating job rest)
  | some _ =>
    match db.jobRuns.filter fun r => r.jobId = dep ∧ r.status = .dead with
    | [] => some (.evaluating job rest)
    | [_] => some (.cancelling job dep)
    | _ => none

/-- A step of a recovery worker: its next state, and the transaction that it commits. -/
def step (st : State) : Action → Option (State × Option Txn)
  | .scanStuck order =>
    match st.stuck, st.jobs, st.phase with
    | [], [], .idle =>
      (stuckRuns db now order).map fun ids => ({ st with now := now, stuck := ids }, none)
    | _, _, _ => none
  | .reclaim =>
    match st.stuck, st.phase with
    | run :: rest, .idle =>
      let (phase, txn) := recoverSingleRunById db st.now run
      some ({ st with stuck := rest, phase := phase }, txn)
    | _, _ => none
  | .route newId =>
    match st.phase with
    | .claimed run job attempt b =>
      some ({ st with phase := .idle }, some (route now run job attempt b newId))
    | _ => none
  | .scanOrphans order =>
    match st.stuck, st.jobs, st.phase with
    | [], [], .idle => (orphanCandidates db order).map fun js => ({ st with jobs := js }, none)
    | _, _, _ => none
  | .evaluate =>
    match st.jobs, st.phase with
    | j :: rest, .idle =>
      some ({ st with jobs := rest, phase := .evaluating j.id j.dependsOn }, none)
    | _, _ => none
  | .checkDep =>
    match st.phase with
    | .evaluating _ [] => some ({ st with phase := .idle }, none)
    | .evaluating job (dep :: rest) =>
      match evaluateDagJob db job dep rest with
      | some phase => some ({ st with phase := phase }, none)
      | none => some ({}, none)
    | _ => none
  | .cancel =>
    match st.phase with
    | .cancelling job dep => some ({ st with phase := .idle }, some (.cancelOrphan job dep now))
    | _ => none
  | .crash => some ({}, none)

/-! ## What a step does -/

/-- The moves of a recovery worker from phase to phase, and their transactions. -/
inductive Move : Phase → Action → Phase → Option Txn → Prop where
  /-- A scan, a compare-and-set that loses, or a look at a dependency. -/
  | look {p a p'} (hp : p.run? = none) (hp' : p'.run? = none) : Move p a p' none
  | reclaim {t run r j b} (hr : db.run? run = some r) (hs : isStuck t r = true)
    (hj : db.job? r.jobId = some j) (hb : db.sub? j.subscriptionId = some b) :
    Move .idle .reclaim (.claimed run r.jobId r.attempt b) (some (.reclaim run t))
  /-- `recovery.subscription_not_found`. -/
  | abandon {t run r} (hr : db.run? run = some r) (hs : isStuck t r = true)
    (hb : (db.job? r.jobId).bind (fun j => db.sub? j.subscriptionId) = none) :
    Move .idle .reclaim .idle (some (.reclaim run t))
  | route {run job attempt b newId} :
    Move (.claimed run job attempt b) (.route newId) .idle
      (some (Recovery.route now run job attempt b newId))
  | cancel {job dep} : Move (.cancelling job dep) .cancel .idle (some (.cancelOrphan job dep now))
  | crash {p} : Move p .crash .idle none

variable {db now}

theorem recoverSingleRunById_move {t : Time} {run : UUID} {p : Phase} {txn : Option Txn}
    (h : recoverSingleRunById db t run = (p, txn)) : Move db now .idle .reclaim p txn := by
  unfold recoverSingleRunById at h
  split at h
  · rename_i r hr
    split at h
    · rename_i hs
      split at h
      · rename_i b hb
        cases h
        obtain ⟨j, hj, hb⟩ := Option.bind_eq_some_iff.mp hb
        exact .reclaim hr hs hj hb
      · rename_i hb
        cases h
        exact .abandon hr hs hb
    · cases h
      exact .look rfl rfl
  · cases h
    exact .look rfl rfl

theorem evaluateDagJob_run? {job dep : UUID} {rest : List UUID} {p : Phase}
    (h : evaluateDagJob db job dep rest = some p) : p.run? = none := by
  unfold evaluateDagJob at h
  split at h
  · cases h
    rfl
  · split at h <;> cases h <;> rfl

theorem step_move {st st' : State} {a : Action} {t : Option Txn}
    (h : step db now st a = some (st', t)) : Move db now st.phase a st'.phase t := by
  obtain ⟨since, stuck, jobs, p⟩ := st
  cases a with
  | scanStuck order =>
    simp only [step] at h
    split at h
    · obtain ⟨ids, -, he⟩ := Option.map_eq_some_iff.mp h
      cases he
      exact .look rfl rfl
    · cases h
  | reclaim =>
    simp only [step] at h
    split at h
    · cases h
      exact recoverSingleRunById_move rfl
    · cases h
  | route newId =>
    cases p <;> cases h
    exact .route
  | scanOrphans order =>
    simp only [step] at h
    split at h
    · obtain ⟨js, -, he⟩ := Option.map_eq_some_iff.mp h
      cases he
      exact .look rfl rfl
    · cases h
  | evaluate =>
    simp only [step] at h
    split at h
    · cases h
      exact .look rfl rfl
    · cases h
  | checkDep =>
    simp only [step] at h
    split at h
    · cases h
      exact .look rfl rfl
    · split at h
      · rename_i phase hp
        cases h
        exact .look rfl (evaluateDagJob_run? hp)
      · cases h
        exact .look rfl rfl
    · cases h
  | cancel =>
    cases p <;> cases h
    exact .cancel
  | crash =>
    cases h
    exact .crash

/-- A run is taken by a compare-and-set that wins. -/
theorem Move.claimed {p : Phase} {a : Action} {t : Option Txn} {x job : UUID} {n : Int}
    {b : Subscription} (h : Move db now p a (.claimed x job n b) t) :
    ∃ since r j, t = some (.reclaim x since) ∧ db.run? x = some r ∧ r.status = .running ∧
      r.jobId = job ∧ r.attempt = n ∧ db.job? job = some j ∧ j.subscriptionId = b.id := by
  cases h with
  | look hp hp' => cases hp'
  | reclaim hr hs hj hb =>
    simp only [isStuck, decide_eq_true_eq] at hs
    exact ⟨_, _, _, rfl, hr, hs.1, rfl, rfl, hj, (Db.sub?_id hb).symm⟩

/-- A recovery worker records no success. -/
theorem Move.not_persistSuccess {p p' : Phase} {a : Action} {k : IdempotencyKeyRecord}
    {run : JobRun} {b : UUID} : ¬ Move db now p a p' (some (.persistSuccess k run b)) := by
  rintro h
  generalize ht : some (Txn.persistSuccess k run b) = t at h
  cases h with
  | route =>
    unfold Recovery.route moveToDlq at ht
    split at ht <;> cases ht
  | _ => cases ht

end Recovery

end PaymentScheduler
