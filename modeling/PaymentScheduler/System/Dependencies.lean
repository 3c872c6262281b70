import PaymentScheduler.System.Ownership

/-!
# Dependencies

`_check_dag_dependencies` looks at the jobs that the ids of `depends_on` name: an id that names none
is not looked at, and neither is the window of a job.

- `checkDagDependencies_iff`: what the check sees.
- `payment_after_dependencies_iff`: on which rows an executor that calls `create_payment` has
  every dependency DONE in the window of the job.
- `calls_in_order`: in every run, under the same condition on each check.
-/

namespace PaymentScheduler

namespace Db

variable {db db' : Db} {j : ScheduledJob}

/-- Every dependency of a job names a job of the same window that is DONE. -/
def Met (db : Db) (j : ScheduledJob) : Prop :=
  ∀ i ∈ j.dependsOn, ∃ d, db.job? i = some d ∧ d.status = .done ∧ d.scheduledFor = j.scheduledFor

/-- A dependency of a job names a job that is not DONE. -/
def Waits (db : Db) (j : ScheduledJob) : Prop :=
  ∃ i ∈ j.dependsOn, ∃ d, db.job? i = some d ∧ d.status ≠ .done

/-- Every dependency of a job names a job of the same window. -/
def InWindow (db : Db) (j : ScheduledJob) : Prop :=
  ∀ i ∈ j.dependsOn, ∃ d, db.job? i = some d ∧ d.scheduledFor = j.scheduledFor

/-- Every dependency of a job names a job of the same window that is closed. -/
def Closed (db : Db) (j : ScheduledJob) : Prop :=
  ∀ i ∈ j.dependsOn, ∃ d, db.job? i = some d ∧ d.status.isOpen = false ∧
    d.scheduledFor = j.scheduledFor

theorem Met.closed (h : db.Met j) : db.Closed j := by
  intro i hi
  obtain ⟨d, hd, hs, hf⟩ := h i hi
  exact ⟨d, hd, by rw [hs]; rfl, hf⟩

theorem Closed.keep (h : db.Closed j) {t : Option Txn} (hc : db.Commits t db') :
    db'.Closed j := by
  cases t with
  | none => rwa [show db' = db from hc]
  | some t =>
    intro i hi
    obtain ⟨d, hd, hs, hf⟩ := h i hi
    exact ⟨_, Txn.job?_set hc hd, closed_keep hs, by rw [(Txn.setJob_frame d).2.2.1, hf]⟩

end Db

namespace Executor

variable {db : Db} {j : ScheduledJob}

/-- The check passes if and only if every dependency that names a job names one that is DONE. -/
theorem checkDagDependencies_iff (hw : db.Wf) :
    checkDagDependencies db j.dependsOn = true ↔ ¬ db.Waits j := by
  simp only [checkDagDependencies, List.all_eq_true, List.mem_filter, decide_eq_true_eq]
  constructor
  · rintro h ⟨i, hi, d, hd, hs⟩
    have hid := Db.job?_id hd
    exact hs (h d ⟨Table.get?_mem hd, by rwa [hid]⟩)
  · rintro h d ⟨hd, hi⟩
    by_contra hs
    exact h ⟨d.id, hi, d, hw.job?_mem.mp hd, hs⟩

/-- Where the check passes, the dependencies are met if and only if they are in the window. -/
theorem met_iff (hw : db.Wf) (h : checkDagDependencies db j.dependsOn = true) :
    db.Met j ↔ db.InWindow j := by
  rw [checkDagDependencies_iff hw] at h
  constructor
  · intro hm i hi
    obtain ⟨d, hd, -, hs⟩ := hm i hi
    exact ⟨d, hd, hs⟩
  · intro hin i hi
    obtain ⟨d, hd, hs⟩ := hin i hi
    by_cases hdone : d.status = .done
    · exact ⟨d, hd, hdone, hs⟩
    · exact absurd ⟨i, hi, d, hd, hdone⟩ h

/-- The job that an executor pays for, once its dependencies are checked. -/
def Phase.checked? : Phase → Option ScheduledJob
  | finding c _ | calling c _ => some c.job
  | _ => none

/-- A job is taken as checked where it has no dependencies, or by a check that passes. -/
theorem step_checked {env : Env} {w : Nat} {now : Time} {st st' : State} {a : Action}
    {t : Option Txn} (h : step env w db now st a = some (st', t))
    (hj : st'.phase.checked? = some j) :
    st.phase.checked? = some j ∨ j.dependsOn = [] ∨
      ∃ c config, st.phase = .checking c config ∧ a = .checkDeps ∧ c.job = j ∧
        checkDagDependencies db j.dependsOn = true := by
  obtain ⟨todo, p⟩ := st
  obtain ⟨todo', p'⟩ := st'
  cases a with
  | load =>
    cases p <;> cases h
    simp only [executeRun] at hj
    split at hj
    · cases hj
    · split at hj
      · cases hj
      · split at hj <;> cases hj
        rename_i hd
        exact .inr (.inl hd)
  | checkDeps =>
    cases p <;> cases h
    simp only at hj
    split at hj <;> cases hj
    rename_i c config hcheck
    exact .inr (.inr ⟨c, config, rfl, rfl, rfl, hcheck⟩)
  | _ =>
    -- The other moves look up the key of a checked job, or let the job go.
    have hm := step_move h
    cases hm <;> first | exact .inl hj | cases hj

end Executor

namespace Sys

variable {env : Env} {s s' : Sys} {w : Nat}

/-- An executor claims its next run, and goes on up to the call. -/
def attempt (w : Nat) : List Action :=
  [.execute w (.claim false), .execute w .load, .execute w .checkDeps, .execute w .findKey]

/-- A step of an executor that writes nothing. -/
theorem run_execute {a : Executor.Action} {st : Executor.State} {as : List Action}
    (h : Executor.step env w s.db s.clock (s.executors w) a = some (st, none)) :
    Lts.run (step env) s (.execute w a :: as) = Lts.run (step env)
      { s with
        executors := Function.update s.executors w st
        payments := s.paymentsAfter env (s.executors w).phase a } as := by
  simp [Lts.run, step, plan, h, commit]

theorem run_execute_none {a : Executor.Action} {as : List Action}
    (h : Executor.step env w s.db s.clock (s.executors w) a = none) :
    Lts.run (step env) s (.execute w a :: as) = none := by
  simp [Lts.run, step, plan, h]

/-- From the load on: the call is reached where the configuration is valid, the check passes and no
key is stored. -/
theorem load_run {run : UUID} {todo : List UUID} {c : Executor.Loaded}
    (hst : s.executors w = { todo := todo, phase := .claimed run })
    (hc : Executor.loadRun s.db run = some c) (hd : c.job.dependsOn ≠ []) :
    (∃ s' c' config, Lts.run (step env) s
      [.execute w .load, .execute w .checkDeps, .execute w .findKey] = some s' ∧
        (s'.executors w).phase = .calling c' config) ↔
    (∃ config, PaymentConfig.fromDict env c.subscription.paymentConfig = .ok config) ∧
      Executor.checkDagDependencies s.db c.job.dependsOn = true ∧
      s.db.key? c.run.id c.run.attempt = none := by
  rw [run_execute (by simp only [Executor.step, hst]; rfl)]
  cases hconf : PaymentConfig.fromDict env c.subscription.paymentConfig with
  | error e =>
    have hphase : Executor.executeRun env s.db run = .failing c e.text false := by
      simp [Executor.executeRun, hc, hconf]
    rw [hphase, run_execute_none (by simp [Executor.step])]
    simp
  | ok config =>
    have hphase : Executor.executeRun env s.db run = .checking c config := by
      simp [Executor.executeRun, hc, hconf, hd]
    rw [hphase, run_execute (by simp only [Executor.step, Function.update_self]; rfl)]
    cases hcheck : Executor.checkDagDependencies s.db c.job.dependsOn with
    | false =>
      rw [run_execute_none (by simp [Executor.step])]
      simp
    | true =>
      rw [run_execute (by simp only [Executor.step, Function.update_self, if_true]; rfl)]
      cases hk : s.db.key? c.run.id c.run.attempt with
      | none => simp [Lts.run]
      | some k => simp [Lts.run]

/-- The four steps reach the call where the configuration is valid, the check passes and no key is
stored. -/
theorem attempt_run {run : UUID} {rest : List UUID} {r : JobRun} {j : ScheduledJob}
    {b : Subscription} (hst : s.executors w = { todo := run :: rest, phase := .idle })
    (hr : s.db.run? run = some r) (hp : r.status = .pending) (hj : s.db.job? r.jobId = some j)
    (hb : s.db.sub? j.subscriptionId = some b) (hd : j.dependsOn ≠ []) :
    (∃ s' c config, Lts.run (step env) s (attempt w) = some s' ∧
      (s'.executors w).phase = .calling c config) ↔
    (∃ config, PaymentConfig.fromDict env b.paymentConfig = .ok config) ∧
      Executor.checkDagDependencies s.db j.dependsOn = true ∧
      s.db.key? run r.attempt = none := by
  let lock := s.clock + seconds env.settings.executorLockTimeoutS
  let s₁ : Sys := { s with
    db := s.db.claim run (env.workerId w) s.clock lock
    executors := Function.update s.executors w { todo := rest, phase := .claimed run } }
  let c : Executor.Loaded :=
    { run := r.claim (env.workerId w) s.clock lock, job := j, subscription := b }
  have hclaim : s.step env (.execute w (.claim false)) = some s₁ := by
    simp [step, plan, Executor.step, Executor.processRun, hst, hr, hp, hj, hb, commit, unlocked,
      Txn.subs, Txn.apply, paymentsAfter, s₁, lock]
  have hc : Executor.loadRun s₁.db run = some c := by
    have hrun : s₁.db.run? run = some c.run := by
      show (s.db.claim run (env.workerId w) s.clock lock).run? run = some c.run
      rw [Db.run?_claim, if_pos rfl, hr]
      rfl
    have hjob : s₁.db.job? r.jobId = some j := hj
    have hsub : s₁.db.sub? j.subscriptionId = some b := hb
    simp [Executor.loadRun, hrun, hjob, hsub, c]
  have hrest : Lts.run (step env) s (attempt w) = Lts.run (step env) s₁
      [.execute w .load, .execute w .checkDeps, .execute w .findKey] := by
    simp only [attempt, Lts.run, hclaim, Option.bind_some]
  have hload : s₁.executors w = { todo := rest, phase := .claimed run } := by simp [s₁]
  have hid : r.id = run := Db.run?_id hr
  have hcid : c.run.id = run := hid
  rw [hrest, load_run hload hc hd, hcid]
  exact Iff.rfl

/-- An executor that takes up a PENDING run of a job with dependencies calls `create_payment` after
every dependency is met, if and only if it does not call at all, since the configuration is not
valid, or a key is stored, or a dependency is not DONE; or every dependency names a job of the
window. -/
theorem payment_after_dependencies_iff {run : UUID} {rest : List UUID} {r : JobRun}
    {j : ScheduledJob} {b : Subscription} (hw : s.db.Wf)
    (hst : s.executors w = { todo := run :: rest, phase := .idle })
    (hr : s.db.run? run = some r) (hp : r.status = .pending) (hj : s.db.job? r.jobId = some j)
    (hb : s.db.sub? j.subscriptionId = some b) (hd : j.dependsOn ≠ []) :
    (∀ s' c config, Lts.run (step env) s (attempt w) = some s' →
      (s'.executors w).phase = .calling c config → s.db.Met j) ↔
    (∃ e, PaymentConfig.fromDict env b.paymentConfig = .error e) ∨
      (∃ k, s.db.key? run r.attempt = some k) ∨ s.db.Waits j ∨ s.db.InWindow j := by
  have hrun := @attempt_run env s w _ _ _ _ _ hst hr hp hj hb hd
  constructor
  · intro hall
    cases hconf : PaymentConfig.fromDict env b.paymentConfig with
    | error e => exact .inl ⟨e, rfl⟩
    | ok config =>
      cases hk : s.db.key? run r.attempt with
      | some k => exact .inr (.inl ⟨k, rfl⟩)
      | none =>
        refine .inr (.inr ?_)
        by_cases hwait : s.db.Waits j
        · exact .inl hwait
        · -- The call is reached.
          have hcheck := (Executor.checkDagDependencies_iff hw).mpr hwait
          obtain ⟨s', c, config', hr', hcall⟩ := hrun.mpr ⟨⟨config, hconf⟩, hcheck, hk⟩
          exact .inr ((Executor.met_iff hw hcheck).mp (hall s' c config' hr' hcall))
  · intro hcond s' c config hr' hcall
    obtain ⟨⟨config', hconf⟩, hcheck, hk⟩ := hrun.mp ⟨s', c, config, hr', hcall⟩
    obtain ⟨e, he⟩ | ⟨k, hk'⟩ | hwait | hin := hcond
    · rw [hconf] at he
      cases he
    · rw [hk] at hk'
      cases hk'
    · exact absurd hwait ((Executor.checkDagDependencies_iff hw).mp hcheck)
    · exact (Executor.met_iff hw hcheck).mpr hin

end Sys

namespace Demo

/-- Another producer inserts a job for the same window. -/
def inserted (job subscriptionId run : UUID) (dependsOn : List UUID) : Action :=
  .produce
    { id := job
      subscriptionId := subscriptionId
      scheduledFor := start
      fingerprint := job.str
      dependsOn := dependsOn
      status := .ready
      createdAt := start }
    run

/-- Executor 0 pays for the run `runId`, and then comes to a run that depends on its job. -/
def upstreamDone : List Action :=
  [.advance start,
    .request 0 (.begin (.create (body policy) subId)),
    .request 1 (.begin (.create (body policy) entryId)),
    inserted jobId subId runId [],
    inserted 12 entryId nextId [jobId],
    .execute 0 (.fetch [runId, nextId] []),
    .execute 0 (.claim false),
    .execute 0 .load,
    .execute 0 .findKey,
    .execute 0 (.call true (.returned response)),
    .execute 0 .persist]

theorem upstreamDone_pays : ∃ s j, Lts.run (Sys.step env) Sys.init upstreamDone = some s ∧
    s.db.job? 12 = some j ∧ j.dependsOn = [jobId] ∧
    ((Lts.run (Sys.step env) s (Sys.attempt 0)).any fun s' =>
      (s'.executors 0).phase.checked?.isSome) ∧
    ∀ s' c config, Lts.run (Sys.step env) s (Sys.attempt 0) = some s' →
      (s'.executors 0).phase = .calling c config → s.db.Met j := by
  have heval : (Lts.run (Sys.step env) Sys.init upstreamDone).any (fun s =>
      (s.executors 0).todo = [nextId] ∧ (s.executors 0).phase.run? = none ∧
      (s.db.run? nextId).any (fun r => r.status = .pending ∧ r.jobId = 12) ∧
      (s.db.job? 12).any (fun j => j.dependsOn = [jobId] ∧ j.scheduledFor = start ∧
        (s.db.sub? j.subscriptionId).isSome) ∧
      (s.db.job? jobId).any (fun d => d.scheduledFor = start) ∧
      (Lts.run (Sys.step env) s (Sys.attempt 0)).any fun s' =>
        (s'.executors 0).phase.checked?.isSome) = true := by
    decide +kernel
  obtain ⟨s, hs, hp⟩ := Lts.exists_run heval
  simp only [decide_eq_true_eq] at hp
  obtain ⟨htodo, hphase, hr, hj, hdep, hcall⟩ := hp
  obtain ⟨r, hr, hpend⟩ := (Option.any_eq_true _ _).mp hr
  obtain ⟨j, hj, hjob⟩ := (Option.any_eq_true _ _).mp hj
  obtain ⟨d, hd, hfor⟩ := (Option.any_eq_true _ _).mp hdep
  simp only [decide_eq_true_eq] at hpend hjob hfor
  obtain ⟨hpend, hid⟩ := hpend
  obtain ⟨hon, hstart, hsub⟩ := hjob
  obtain ⟨b, hb⟩ := Option.isSome_iff_exists.mp hsub
  refine ⟨s, j, hs, hj, hon, hcall, ?_⟩
  have hst : s.executors 0 = { todo := nextId :: [], phase := .idle } := by
    cases he : s.executors 0 with
    | mk todo phase =>
      rw [he] at htodo hphase
      cases phase <;> cases hphase
      exact congrArg (Executor.State.mk · _) htodo
  refine (Sys.payment_after_dependencies_iff (Sys.Reachable.owned ⟨_, hs⟩).wf hst hr hpend
    (hid ▸ hj) hb (by rw [hon]; decide)).mpr (.inr (.inr (.inr ?_)))
  intro i hi
  rw [hon, List.mem_singleton] at hi
  exact ⟨d, hi ▸ hd, by rw [hfor, hstart]⟩

/-- Executor 0 comes to a run that depends on a job that is not there. -/
def unknownDependency : List Action :=
  [.advance start,
    .request 0 (.begin (.create (body policy) subId)),
    inserted jobId subId runId [entryId],
    .execute 0 (.fetch [runId] [])]

theorem unknownDependency_pays : ∃ s j s' c config,
    Lts.run (Sys.step env) Sys.init unknownDependency = some s ∧ s.db.job? jobId = some j ∧
      (s.db.run? runId).any (fun r => r.status = .pending ∧ r.jobId = jobId) ∧
      Lts.run (Sys.step env) s (Sys.attempt 0) = some s' ∧
      (s'.executors 0).phase = .calling c config ∧ c.run.id = runId ∧ j.dependsOn = [entryId] ∧
      ¬ s.db.Met j := by
  have heval : (Lts.run (Sys.step env) Sys.init unknownDependency).any (fun s =>
      (s.db.job? jobId).any (fun j => j.dependsOn = [entryId]) ∧
      (s.db.run? runId).any (fun r => r.status = .pending ∧ r.jobId = jobId) ∧
      (s.db.job? entryId).isNone ∧
      (Lts.run (Sys.step env) s (Sys.attempt 0)).any fun s' =>
        (s'.executors 0).phase.calling?.any fun c => c.run.id = runId) = true := by
    decide +kernel
  obtain ⟨s, hs, hp⟩ := Lts.exists_run heval
  simp only [decide_eq_true_eq] at hp
  obtain ⟨hj, hr, hnone, hcall⟩ := hp
  obtain ⟨j, hj, hon⟩ := (Option.any_eq_true _ _).mp hj
  obtain ⟨s', hs', hcall⟩ := (Option.any_eq_true _ _).mp hcall
  simp only [decide_eq_true_eq] at hon
  have hnot : ¬ s.db.Met j := by
    intro hm
    obtain ⟨d, hd, -⟩ := hm entryId (by rw [hon]; exact List.mem_singleton_self _)
    rw [hd] at hnone
    cases hnone
  cases hphase : (s'.executors 0).phase with
  | calling c config =>
    rw [hphase] at hcall
    exact ⟨s, j, s', c, config, hs, hj, hr, hs', hphase, of_decide_eq_true hcall, hon, hnot⟩
  | _ =>
    rw [hphase] at hcall
    cases hcall

end Demo

namespace Sys

variable {env : Env} {s s' : Sys}

/-! ## Runs -/

/-- A check finds a dependency that is not DONE, or all of them in the window of the job. -/
def ChecksInWindow (s : Sys) (a : Action) (_ : Sys) : Prop :=
  ∀ w c config, a = .execute w .checkDeps → (s.executors w).phase = .checking c config →
    s.db.Waits c.job ∨ s.db.InWindow c.job

/-- Every job that an executor pays for has closed dependencies in its window. -/
def InOrder (s : Sys) : Prop :=
  ∀ w j, (s.executors w).phase.checked? = some j → s.db.Closed j

theorem step_inOrder {a : Action} (hw : s.db.Wf) (hI : s.InOrder) (hP : ChecksInWindow s a s')
    (h : s.step env a = some s') : s'.InOrder := by
  intro w j hj
  have hc := step_commits h
  obtain hsame | ⟨b, t, rfl, -, hst⟩ := executor_cases h w
  · rw [hsame] at hj
    exact (hI w j hj).keep hc
  · obtain hold | hd | ⟨c, config, hp, rfl, rfl, hcheck⟩ := Executor.step_checked hst hj
    · exact (hI w j hold).keep hc
    · intro i hi
      rw [hd] at hi
      cases hi
    · have hin : s.db.InWindow c.job := by
        obtain hwait | hin := hP w c config rfl hp
        · exact absurd hwait ((Executor.checkDagDependencies_iff hw).mp hcheck)
        · exact hin
      exact ((Executor.met_iff hw hcheck).mpr hin).closed.keep hc

/-- In every run of the system each check of which finds a dependency that is not DONE, or all of
them in the window: an executor that calls `create_payment` has the dependencies closed. -/
theorem calls_in_order {as : List Action} (hP : Lts.Along (step env) ChecksInWindow init as) :
    Lts.Always (step env) InOrder init as := by
  refine Lts.always_of_along (I := fun s => s.Owned ∧ s.InOrder) ?_ (fun h => h.2)
    ⟨Owned.init, ?_⟩ hP
  · intro s a s' hI hp h
    exact ⟨hI.1.step h, step_inOrder hI.1.wf hI.2 hp h⟩
  · intro w j hj
    cases hj

end Sys

end PaymentScheduler
