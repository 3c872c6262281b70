import PaymentScheduler.System.DeadLetters
import PaymentScheduler.System.Dependencies
import PaymentScheduler.System.Success

/-!
# Cancellations

An executor cancels a job when a dependency is not DONE yet, and a recovery worker when a dependency
has a DEAD run; neither looks at the status of the job, and both read the dependencies in an
earlier transaction. `Db.PermanentlyFailed` is what a dependency should have come to.

- `Guard.permanentlyFailed`, `Guard.mayCancel`: what other transactions must spare in between.
- `step_walk`: how a recovery worker comes to give a job up; `cancels_cases`: how either worker
  does.
- `Grounded.step`: no worker is about to cancel a job that has hope.
- `cancelled_hopeless`: every cancellation of every run, where the checks and the transactions in
  between are such (`Prudent`).
-/

namespace PaymentScheduler

namespace Db

/-- The job `i` has permanently failed: it is not DONE, and it is CANCELLED or has a DEAD run. -/
def PermanentlyFailed (db : Db) (i : UUID) : Prop :=
  ∃ d, db.job? i = some d ∧ d.status ≠ .done ∧
    (d.status = .cancelled ∨ ∃ x r, db.run? x = some r ∧ r.jobId = i ∧ r.status = .dead)

/-- A dependency of the job has permanently failed. -/
def Hopeless (db : Db) (j : ScheduledJob) : Prop := ∃ i ∈ j.dependsOn, db.PermanentlyFailed i

/-- The job `x` is hopeless, and it is not DONE. -/
def MayCancel (db : Db) (x : UUID) : Prop :=
  ∃ j, db.job? x = some j ∧ j.status ≠ .done ∧ db.Hopeless j

/-- The job `x` is not DONE. -/
def Undone (db : Db) (x : UUID) : Prop := ∀ j, db.job? x = some j → j.status ≠ .done

/-- The ids are dependencies of the job `x`. -/
def Lists (db : Db) (x : UUID) (deps : List UUID) : Prop :=
  ∃ j, db.job? x = some j ∧ ∀ i ∈ deps, i ∈ j.dependsOn

/-- A job that becomes CANCELLED was hopeless, and was not DONE. -/
def OnlyHopeless (db db' : Db) : Prop :=
  ∀ x j', db'.job? x = some j' → j'.status = .cancelled →
    ∃ j, db.job? x = some j ∧ (j.status = .cancelled ∨ j.status ≠ .done ∧ db.Hopeless j)

/-- No run of the rows has been claimed. -/
structure Unclaimed (db : Db) : Prop where
  wf : db.Wf
  pending : ∀ r ∈ db.jobRuns, r.status = .pending
  keys : db.idempotencyKeys = []

theorem Unclaimed.keyed {db : Db} (h : db.Unclaimed) : db.Keyed where
  keyed hk := by
    have hmem := Table.get?_mem hk
    rw [h.keys] at hmem
    cases hmem
  succeeded hr hs := by
    have hp := h.pending _ (Table.get?_mem hr)
    rw [hs] at hp
    cases hp

end Db

namespace Txn

/-- The job that a transaction cancels. -/
def cancels? : Txn → Option UUID
  | markDagCancelled run _ => some run.jobId
  | cancelOrphan job _ _ => some job
  | _ => none

/-- The transaction records no success for the job `i`. -/
def NotDone (i : UUID) (t : Txn) : Prop :=
  ∀ k run b, t = .persistSuccess k run b → run.jobId ≠ i

/-- The transaction records no success for the job `i`, and keeps its DEAD runs DEAD. -/
def SparesFailure (db : Db) (i : UUID) (t : Txn) : Prop :=
  t.NotDone i ∧ ∀ x r, db.run? x = some r → r.jobId = i → r.status = .dead →
    t.ended? = some x → x ∈ t.deadRuns

/-- The transaction records no success for the job `x`, and spares a dependency of it that has
permanently failed. -/
def SparesHopeless (db : Db) (x : UUID) (t : Txn) : Prop :=
  t.NotDone x ∧ ∃ j, db.job? x = some j ∧
    ∃ i ∈ j.dependsOn, db.PermanentlyFailed i ∧ t.SparesFailure db i

variable {db db' : Db} {t : Txn} {x i : UUID} {j : ScheduledJob}

/-- Without a success, a job keeps its status or is cancelled. -/
theorem NotDone.setJob_status (db : Db) (h : t.NotDone j.id) :
    (t.setJob db j).status = j.status ∨ (t.setJob db j).status = .cancelled := by
  cases t with
  | persistSuccess k run b => simp [setJob, Ne.symm (h k run b rfl)]
  | markDagCancelled run now =>
    simp only [setJob]
    split <;> simp
  | cancelOrphan job dep now =>
    simp only [setJob]
    split <;> simp
  | _ => exact .inl rfl

theorem NotDone.setJob_not_done (h : t.NotDone j.id) (hj : j.status ≠ .done) :
    (t.setJob db j).status ≠ .done := by
  obtain he | he := h.setJob_status db <;> rw [he]
  · exact hj
  · decide

/-- A job is CANCELLED by the transactions that cancel it. -/
theorem setJob_cancelled (h : (t.setJob db j).status = .cancelled) :
    j.status = .cancelled ∨ t.cancels? = some j.id := by
  cases t with
  | persistSuccess k run b =>
    simp only [setJob] at h
    split at h
    · cases h
    · exact .inl h
  | markDagCancelled run now =>
    simp only [setJob] at h
    split at h
    · rename_i he
      exact .inr (congrArg some he.symm)
    · exact .inl h
  | cancelOrphan job dep now =>
    simp only [setJob] at h
    split at h
    · rename_i he
      exact .inr (congrArg some he.symm)
    · exact .inl h
  | _ => exact .inl h

/-- A transaction that ends no run spares every job. -/
theorem sparesHopeless_of_ended? (ht : t.ended? = none) (hm : db.MayCancel x) :
    t.SparesHopeless db x := by
  have hnot : ∀ i, t.NotDone i := by
    rintro i k run b rfl
    cases ht
  obtain ⟨j, hj, -, i, hi, hf⟩ := hm
  refine ⟨hnot x, j, hj, i, hi, hf, hnot i, fun y r _ _ _ he => ?_⟩
  rw [ht] at he
  cases he

/-- A job that has permanently failed stays so, where the transaction spares it. -/
theorem Guard.permanentlyFailed (hg : t.Guard db) (h : t.apply db = some db')
    (hs : t.SparesFailure db i) (hf : db.PermanentlyFailed i) : db'.PermanentlyFailed i := by
  obtain ⟨d, hd, hnd, hwhy⟩ := hf
  have hid : d.id = i := Db.job?_id hd
  have hnot : t.NotDone d.id := by
    rw [hid]
    exact hs.1
  refine ⟨_, job?_set h hd, hnot.setJob_not_done hnd, ?_⟩
  obtain hc | ⟨x, r, hr, hj, hdead⟩ := hwhy
  · left
    obtain he | he := hnot.setJob_status db
    · rw [he, hc]
    · exact he
  · right
    refine ⟨x, _, run?_set h hr, by rw [setRun_jobId, hj], (hg.setRun_dead_iff hr).mpr ?_⟩
    by_cases he : t.ended? = some x
    · exact .inl (hs.2 x r hr hj hdead he)
    · exact .inr ⟨hdead, he⟩

/-- A job that may be cancelled stays so, where the transaction spares it. -/
theorem Guard.mayCancel (hg : t.Guard db) (h : t.apply db = some db')
    (hs : t.SparesHopeless db x) (hm : db.MayCancel x) : db'.MayCancel x := by
  obtain ⟨j, hj, hnd, -⟩ := hm
  obtain ⟨hnot, j', hj', i, hi, hf, hspare⟩ := hs
  rw [hj] at hj'
  cases hj'
  rw [← Db.job?_id hj] at hnot
  refine ⟨_, job?_set h hj, hnot.setJob_not_done hnd, i, ?_, hg.permanentlyFailed h hspare hf⟩
  rw [(setJob_frame j).2.2.2.2]
  exact hi

end Txn

/-- The check of a dependency, by either worker. -/
def Action.checks : Action → Bool
  | execute _ .checkDeps | recover _ .checkDep => true
  | _ => false

theorem Db.Lists.keep {db db' : Db} {t : Option Txn} {x : UUID} {deps : List UUID}
    (h : db.Lists x deps) (hc : db.Commits t db') : db'.Lists x deps := by
  cases t with
  | none => rwa [show db' = db from hc]
  | some t =>
    obtain ⟨j, hj, hd⟩ := h
    refine ⟨_, Txn.job?_set hc hj, fun i hi => ?_⟩
    rw [(Txn.setJob_frame j).2.2.2.2]
    exact hd i hi

/-! ## The two checks -/

namespace Executor

variable {env : Env} {w : Nat} {db : Db} {now : Time} {st st' : State} {a : Action}
  {t : Option Txn} {c : Loaded}

/-- An executor gives a job up after a check that fails. -/
theorem step_cancelling (h : step env w db now st a = some (st', t))
    (hc : st'.phase = .cancelling c) :
    ∃ config, st.phase = .checking c config ∧ a = .checkDeps ∧ t = none ∧
      checkDagDependencies db c.job.dependsOn = false := by
  obtain ⟨todo, p⟩ := st
  obtain ⟨todo', p'⟩ := st'
  subst hc
  have hm := step_move h
  cases hm with
  | @depsOpen c config =>
    refine ⟨config, rfl, rfl, rfl, ?_⟩
    simp only [step, Option.some.injEq, Prod.mk.injEq, State.mk.injEq] at h
    obtain ⟨⟨-, h⟩, -⟩ := h
    split at h
    · cases h
    · rename_i hcheck
      exact Bool.eq_false_iff.mpr hcheck
  | load hl hp => obtain hp | hp := hp <;> cases hp

/-- An executor cancels the job that it has given up. -/
theorem Move.cancels {p p' : Phase} {txn : Txn} {x : UUID}
    (h : Move env w db now p a p' (some txn)) (hx : txn.cancels? = some x) :
    ∃ c, p = .cancelling c ∧ c.run.jobId = x := by
  cases h with
  | @cancelDag c => exact ⟨c, rfl, Option.some.inj hx⟩
  | claim => cases hx
  | persist ht =>
    obtain ⟨v, -, rfl⟩ := Option.map_eq_some_iff.mp ht
    cases hx
  | fail ht => obtain ⟨-, -, retryAfter, rfl⟩ | rfl := handleFailure_cases ht <;> cases hx

end Executor

namespace Recovery

variable {db : Db} {now : Time} {st st' : State} {a : Action} {t : Option Txn}

/-- A look at a dependency gives the job up where the dependency has a DEAD run. -/
theorem evaluateDagJob_cases {job dep : UUID} {rest : List UUID} {p : Phase}
    (h : evaluateDagJob db job dep rest = some p) :
    p = .evaluating job rest ∨ (p = .cancelling job dep ∧ (∃ d, db.job? dep = some d) ∧
      ∃ r ∈ db.jobRuns, r.jobId = dep ∧ r.status = .dead) := by
  unfold evaluateDagJob at h
  split at h
  · cases h
    exact .inl rfl
  · rename_i d hd
    split at h
    · cases h
      exact .inl rfl
    · rename_i r hr
      cases h
      have hmem : r ∈ db.jobRuns.filter fun r => r.jobId = dep ∧ r.status = .dead := by
        rw [hr]
        exact List.mem_singleton_self r
      obtain ⟨hmem, hdead⟩ := List.mem_filter.mp hmem
      exact .inr ⟨rfl, ⟨d, hd⟩, r, hmem, of_decide_eq_true hdead⟩
    · cases h

theorem recoverSingleRunById_phase (db : Db) (t : Time) (run : UUID) :
    (recoverSingleRunById db t run).1 = .idle ∨
      ∃ job n b, (recoverSingleRunById db t run).1 = .claimed run job n b := by
  unfold recoverSingleRunById
  split
  · split
    · split
      · exact .inr ⟨_, _, _, rfl⟩
      · exact .inl rfl
    · exact .inl rfl
  · exact .inl rfl

/-- The worker evaluates a job, or has given it up. -/
def Phase.walks : Phase → Bool
  | evaluating .. | cancelling .. => true
  | _ => false

/-- What a step does to the jobs that a recovery worker goes through. -/
inductive Walk (db : Db) (st : State) (a : Action) (t : Option Txn) (st' : State) : Prop where
  /-- A step of something else, or the end of a job or of the tick. -/
  | away (hj : ∀ j ∈ st'.jobs, j ∈ st.jobs) (hp : st'.phase.walks = false)
  | select {order} (hj : orphanCandidates db order = some st'.jobs) (hp : st'.phase.walks = false)
  | take {j} (hj : st.jobs = j :: st'.jobs) (hp : st'.phase = .evaluating j.id j.dependsOn)
  | pass {job dep rest} (hj : st'.jobs = st.jobs) (hp : st.phase = .evaluating job (dep :: rest))
    (hp' : st'.phase = .evaluating job rest)
  /-- The dependency has a DEAD run. -/
  | found {job dep rest} (hj : st'.jobs = st.jobs) (hp : st.phase = .evaluating job (dep :: rest))
    (ha : a = .checkDep) (ht : t = none) (hp' : st'.phase = .cancelling job dep)
    (hd : ∃ d, db.job? dep = some d) (hr : ∃ r ∈ db.jobRuns, r.jobId = dep ∧ r.status = .dead)

theorem step_walk (h : step db now st a = some (st', t)) : Walk db st a t st' := by
  obtain ⟨since, stuck, jobs, p⟩ := st
  cases a with
  | scanStuck order =>
    simp only [step] at h
    split at h
    · obtain ⟨ids, -, he⟩ := Option.map_eq_some_iff.mp h
      cases he
      exact .away (fun j hj => hj) rfl
    · cases h
  | reclaim =>
    simp only [step] at h
    split at h
    · rename_i run rest
      cases h
      refine .away (fun j hj => hj) ?_
      obtain he | ⟨job, n, b, he⟩ := recoverSingleRunById_phase db since run <;>
        (rw [he]; rfl)
    · cases h
  | route newId =>
    cases p <;> cases h
    exact .away (fun j hj => hj) rfl
  | scanOrphans order =>
    simp only [step] at h
    split at h
    · obtain ⟨js, hjs, he⟩ := Option.map_eq_some_iff.mp h
      cases he
      exact .select hjs rfl
    · cases h
  | evaluate =>
    simp only [step] at h
    split at h <;> cases h
    exact .take rfl rfl
  | checkDep =>
    simp only [step] at h
    split at h
    · cases h
      exact .away (fun j hj => hj) rfl
    · split at h
      · rename_i hp
        cases h
        obtain rfl | ⟨rfl, hd, hr⟩ := evaluateDagJob_cases hp
        · exact .pass rfl rfl rfl
        · exact .found rfl rfl rfl rfl rfl hd hr
      · cases h
        exact .away (fun j hj => absurd hj List.not_mem_nil) rfl
    · cases h
  | cancel =>
    cases p <;> cases h
    exact .away (fun j hj => hj) rfl
  | crash =>
    cases h
    exact .away (fun j hj => absurd hj List.not_mem_nil) rfl

/-- A recovery worker gives a job up after it has found a DEAD run of a dependency. -/
theorem step_cancelling {job dep : UUID} (h : step db now st a = some (st', t))
    (hc : st'.phase = .cancelling job dep) :
    ∃ rest, st.phase = .evaluating job (dep :: rest) ∧ a = .checkDep ∧ t = none ∧
      (∃ d, db.job? dep = some d) ∧ ∃ r ∈ db.jobRuns, r.jobId = dep ∧ r.status = .dead := by
  cases step_walk h with
  | away hj hp | select hj hp =>
    rw [hc] at hp
    cases hp
  | take hj hp =>
    rw [hc] at hp
    cases hp
  | pass hj hp hp' =>
    rw [hc] at hp'
    cases hp'
  | found hj hp ha ht hp' hd hr =>
    rw [hc] at hp'
    cases hp'
    exact ⟨_, hp, ha, ht, hd, hr⟩

/-- What a recovery worker goes through is what the jobs list. -/
structure State.Reads (db : Db) (st : State) : Prop where
  jobs : ∀ j ∈ st.jobs, db.Lists j.id j.dependsOn
  phase : ∀ job deps, st.phase = .evaluating job deps → db.Lists job deps

theorem State.Reads.keep {db' : Db} (h : st.Reads db) (hc : db.Commits t db') : st.Reads db' :=
  ⟨fun j hj => (h.jobs j hj).keep hc, fun job deps hp => (h.phase job deps hp).keep hc⟩

theorem step_reads (hw : db.Wf) (hr : st.Reads db) (h : step db now st a = some (st', t)) :
    st'.Reads db := by
  cases step_walk h with
  | away hj hp =>
    refine ⟨fun j hj' => hr.jobs j (hj j hj'), fun job deps he => ?_⟩
    rw [he] at hp
    cases hp
  | select hjs hp =>
    refine ⟨fun j hj => ?_, fun job deps he => ?_⟩
    · have hmem := (Table.mem_select hw.jobIds hjs hj).1
      exact ⟨j, hw.job?_mem.mp hmem, fun i hi => hi⟩
    · rw [he] at hp
      cases hp
  | @take j hj hp =>
    refine ⟨fun j' hj' => hr.jobs j' (by rw [hj]; exact List.mem_cons_of_mem j hj'), ?_⟩
    intro job deps he
    rw [hp] at he
    cases he
    exact hr.jobs j (by rw [hj]; exact List.mem_cons_self)
  | @pass job dep rest hj hp hp' =>
    refine ⟨fun j hj' => hr.jobs j (hj ▸ hj'), fun job' deps he => ?_⟩
    rw [hp'] at he
    cases he
    obtain ⟨j, hjob, hd⟩ := hr.phase job (dep :: rest) hp
    exact ⟨j, hjob, fun i hi => hd i (List.mem_cons_of_mem dep hi)⟩
  | found hj hp ha ht hp' =>
    refine ⟨fun j hj' => hr.jobs j (hj ▸ hj'), fun job' deps he => ?_⟩
    rw [hp'] at he
    cases he

/-- A recovery worker cancels the job that it has given up. -/
theorem Move.cancels {p p' : Phase} {txn : Txn} {x : UUID} (h : Move db now p a p' (some txn))
    (hx : txn.cancels? = some x) : ∃ dep, p = .cancelling x dep := by
  cases h with
  | @cancel job dep =>
    cases hx
    exact ⟨dep, rfl⟩
  | reclaim | abandon => cases hx
  | route =>
    unfold Recovery.route moveToDlq at hx
    split at hx <;> cases hx

end Recovery

namespace Sys

variable {env : Env} {s s' : Sys} {a : Action} {x : UUID}

/-- A worker is about to cancel the job `x`. -/
def Cancels (s : Sys) (x : UUID) : Prop :=
  (∃ w c, (s.executors w).phase = .cancelling c ∧ c.run.jobId = x) ∨
    ∃ v dep, (s.recoveries v).phase = .cancelling x dep

/-- A worker is about to cancel what it was about to cancel, or what it has just given up. -/
theorem cancels_cases (h : s.step env a = some s') (hx : s'.Cancels x) :
    s.Cancels x ∨
    (∃ w c config, a = .execute w .checkDeps ∧ (s.executors w).phase = .checking c config ∧
      c.run.jobId = x ∧ Executor.checkDagDependencies s.db c.job.dependsOn = false ∧
      s'.db = s.db) ∨
    ∃ v dep rest, a = .recover v .checkDep ∧
      (s.recoveries v).phase = .evaluating x (dep :: rest) ∧ (∃ d, s.db.job? dep = some d) ∧
      ∃ r ∈ s.db.jobRuns, r.jobId = dep ∧ r.status = .dead ∧ s'.db = s.db := by
  have hdb : ∀ {t : Option Txn}, s.txn? env a = t → t = none → s'.db = s.db := by
    rintro t ht rfl
    have hc := step_commits h
    rwa [ht] at hc
  obtain ⟨w, c, hp, rfl⟩ | ⟨v, dep, hp⟩ := hx
  · obtain hsame | ⟨b, t, rfl, ht, hst⟩ := executor_cases h w
    · rw [hsame] at hp
      exact .inl (.inl ⟨w, c, hp, rfl⟩)
    · obtain ⟨config, hchecking, rfl, hnone, hcheck⟩ := Executor.step_cancelling hst hp
      exact .inr (.inl ⟨w, c, config, rfl, hchecking, rfl, hcheck, hdb ht hnone⟩)
  · obtain hsame | ⟨b, t, rfl, ht, hst⟩ := recovery_cases h v
    · rw [hsame] at hp
      exact .inl (.inr ⟨v, dep, hp⟩)
    · obtain ⟨rest, hphase, rfl, hnone, hd, r, hr, hj, hdead⟩ := Recovery.step_cancelling hst hp
      exact .inr (.inr ⟨v, dep, rest, rfl, hphase, hd, r, hr, hj, hdead, hdb ht hnone⟩)

/-- No worker gives a job up without need, and in between nobody revives a job or the dependency
that has permanently failed. -/
structure Prudent (env : Env) (s : Sys) (a : Action) (_ : Sys) : Prop where
  /-- A check of an executor that finds a dependency that is not DONE. -/
  check : ∀ w c config, a = .execute w .checkDeps → (s.executors w).phase = .checking c config →
    s.db.Waits c.job → s.db.MayCancel c.run.jobId
  /-- A look of a recovery worker that finds a DEAD run. -/
  look : ∀ v job dep rest, a = .recover v .checkDep →
    (s.recoveries v).phase = .evaluating job (dep :: rest) →
    (∃ r ∈ s.db.jobRuns, r.jobId = dep ∧ r.status = .dead) → s.db.Undone job ∧ s.db.Undone dep
  /-- A transaction while a worker is about to cancel a job. -/
  between : ∀ x t, s.Cancels x → s.db.MayCancel x → s.txn? env a = some t →
    t.SparesHopeless s.db x

/-- The invariant: a job that a worker is about to cancel may be cancelled. -/
structure Grounded (s : Sys) : Prop where
  owned : Owned s
  reads : ∀ v, (s.recoveries v).Reads s.db
  cancels : ∀ {x}, s.Cancels x → s.db.MayCancel x

/-- The recovery workers go through what the jobs list. -/
theorem Grounded.step_reads (hI : Grounded s) (h : s.step env a = some s') (v : Nat) :
    (s'.recoveries v).Reads s'.db := by
  have hc := step_commits h
  obtain hsame | ⟨b, t, rfl, -, hst⟩ := recovery_cases h v
  · rw [hsame]
    exact (hI.reads v).keep hc
  · exact (Recovery.step_reads hI.owned.wf (hI.reads v) hst).keep hc

/-- A job that a worker was about to cancel may still be cancelled. -/
theorem Grounded.keep (hI : Grounded s) (hP : Prudent env s a s') (h : s.step env a = some s')
    (hx : s.Cancels x) : s'.db.MayCancel x := by
  have hmay := hI.cancels hx
  obtain ⟨ht, hdb⟩ | ⟨t, ht, hc⟩ := step_db h
  · rwa [hdb]
  · exact (hI.owned.guard h ht).mayCancel hc (hP.between x t hx hmay ht) hmay

/-- A job that a worker is about to cancel may be cancelled. -/
theorem Grounded.step_cancels (hI : Grounded s) (hP : Prudent env s a s')
    (h : s.step env a = some s') (hx : s'.Cancels x) : s'.db.MayCancel x := by
  obtain hold | ⟨w, c, config, rfl, hp, rfl, hcheck, hdb⟩ |
    ⟨v, dep, rest, rfl, hp, ⟨d, hd⟩, r, hr, hj, hdead, hdb⟩ := cancels_cases h hx
  · exact hI.keep hP h hold
  · rw [hdb]
    refine hP.check w c config rfl hp ?_
    by_contra hwait
    rw [(Executor.checkDagDependencies_iff hI.owned.wf).mpr hwait] at hcheck
    cases hcheck
  · -- The dependency has a DEAD run: that is all that the worker looks at.
    rw [hdb]
    obtain ⟨hjob, hdep⟩ := hP.look v x dep rest rfl hp ⟨r, hr, hj, hdead⟩
    obtain ⟨j, hjx, hlist⟩ := (hI.reads v).phase x (dep :: rest) hp
    exact ⟨j, hjx, hjob j hjx, dep, hlist dep List.mem_cons_self, d, hd, hdep d hd,
      .inr ⟨r.id, r, hI.owned.wf.run?_mem.mp hr, hj, hdead⟩⟩

theorem Grounded.step (hI : Grounded s) (hP : Prudent env s a s') (h : s.step env a = some s') :
    Grounded s' :=
  ⟨hI.owned.step h, hI.step_reads h, hI.step_cancels hP h⟩

/-- A job is cancelled by a worker that was about to cancel it. -/
theorem cancels_of_txn? {t : Txn} (ht : s.txn? env a = some t) (hx : t.cancels? = some x) :
    s.Cancels x := by
  obtain ⟨k, b, st, rfl, hst⟩ | ⟨w, b, st, rfl, hst⟩ | ⟨v, b, st, rfl, hst⟩ |
    ⟨r, b, st, rfl, hst⟩ | ⟨j, runId, rfl, rfl⟩ := txn?_cases ht
  · obtain ⟨ws, rfl⟩ := Scheduler.step_txn hst
    cases hx
  · exact .inl ⟨w, (Executor.step_move hst).cancels hx⟩
  · exact .inr ⟨v, (Recovery.step_move hst).cancels hx⟩
  · obtain ⟨b, rfl⟩ | ⟨id, c, rfl⟩ | ⟨id, n, rfl⟩ | ⟨id, by', rfl⟩ := Api.step_txn hst <;> cases hx
  · cases hx

/-- A step from a state of the invariant cancels hopeless jobs only. -/
theorem Grounded.onlyHopeless (hI : Grounded s) (h : s.step env a = some s') :
    s.db.OnlyHopeless s'.db := by
  intro x j' hj' hcancelled
  obtain ⟨ht, hdb⟩ | ⟨t, ht, hc⟩ := step_db h
  · rw [hdb] at hj'
    exact ⟨j', hj', .inl hcancelled⟩
  · obtain ⟨j, hj, rfl⟩ | ⟨-, hnew⟩ := Txn.job?_cases hc hj'
    · refine ⟨j, hj, ?_⟩
      obtain hold | hx := Txn.setJob_cancelled hcancelled
      · exact .inl hold
      · rw [Db.job?_id hj] at hx
        obtain ⟨j₀, hj₀, hmay⟩ := hI.cancels (cancels_of_txn? ht hx)
        rw [hj] at hj₀
        cases hj₀
        exact .inr hmay
    · have hopen := (hI.owned.guard h ht).newJobs_isOpen hnew
      rw [hcancelled] at hopen
      cases hopen

/-- No worker is at work. -/
def start (db : Db) : Sys := { db := db }

theorem Grounded.start {db : Db} (hf : db.Unclaimed) : Grounded (start db) where
  owned :=
    { wf := hf.wf
      keyed := hf.keyed
      held := by intro w x h; cases h
      once := by intro w v x h; cases h
      agrees := by intro w c h; cases h
      taken := by intro v x j n b h; cases h
      takenOnce := by intro v u x h; cases h }
  reads v := ⟨nofun, nofun⟩
  cancels hx := by
    obtain ⟨w, c, hp, -⟩ | ⟨v, dep, hp⟩ := hx <;> cases hp

/-- From any rows of which no run has been claimed, in every run of the system the steps of which
are prudent: every job that becomes CANCELLED is not DONE, and a dependency of it has permanently
failed. -/
theorem cancelled_hopeless {db : Db} (hf : db.Unclaimed) {as : List Action}
    (hP : Lts.Along (step env) (Prudent env) (start db) as) :
    Lts.Along (step env) (fun s _ s' => s.db.OnlyHopeless s'.db) (start db) as :=
  Lts.Along.of_inv (fun hI hp h => hI.step hp h) (fun hI _ h => hI.onlyHopeless h)
    (Grounded.start hf) hP

/-- Where no worker is about to cancel a job, a step that checks no dependency is prudent. -/
theorem Prudent.of_quiet (hn : ∀ x, ¬ s.Cancels x) (ha : a.checks = false) :
    Prudent env s a s' where
  check w c config he := by
    rw [he] at ha
    cases ha
  look v job dep rest he := by
    rw [he] at ha
    cases ha
  between x t hx := absurd hx (hn x)

theorem quiet_step (hn : ∀ x, ¬ s.Cancels x) (ha : a.checks = false)
    (h : s.step env a = some s') : ∀ x, ¬ s'.Cancels x := by
  intro x hx
  obtain hold | ⟨w, c, config, rfl, -⟩ | ⟨v, dep, rest, rfl, -⟩ := cancels_cases h hx
  · exact hn x hold
  · cases ha
  · cases ha

end Sys

namespace Demo

/-- A job that depends on the first job of a subscription, both with their first runs. -/
def twoJobs : List Action :=
  [.advance start,
    .request 0 (.begin (.create (body single) subId)),
    .request 1 (.begin (.create (body single) entryId)),
    inserted jobId subId runId [],
    inserted 12 entryId nextId [jobId]]

/-- The upstream job fails for good, and the recovery worker finds the other one. -/
def upstreamFails : List Action :=
  [.execute 0 (.fetch [runId, nextId] []),
    .execute 0 (.claim false),
    .execute 0 .load,
    .execute 0 .findKey,
    .execute 0 (.call false (.returned .null)),
    .execute 0 (.fail 0 entryId),
    .recover 0 (.scanOrphans [12]),
    .recover 0 .evaluate]

def orphanCancelled : List Action := [.recover 0 .checkDep, .recover 0 .cancel]

theorem twoJobs_unclaimed {s : Sys} (hs : Lts.run (Sys.step env) Sys.init twoJobs = some s)
    (hp : s.db.jobRuns.all fun r => r.status = .pending) (hk : s.db.idempotencyKeys = []) :
    s.db.Unclaimed where
  wf := (Sys.Reachable.owned ⟨_, hs⟩).wf
  pending r hr := of_decide_eq_true (List.all_eq_true.mp hp r hr)
  keys := hk

theorem undone {db : Db} {x : UUID} (h : (db.job? x).all fun j => j.status = .ready) :
    db.Undone x := by
  intro j hj hd
  rw [hj, Option.all_some, decide_eq_true_eq] at h
  rw [h] at hd
  cases hd

/-- The job that a recovery worker evaluates, and its dependencies. -/
def evaluating? : Recovery.Phase → Option (UUID × List UUID)
  | .evaluating job deps => some (job, deps)
  | _ => none

theorem orphanCancelled_hopeless : ∃ s, Lts.run (Sys.step env) Sys.init twoJobs = some s ∧
    ((Lts.run (Sys.step env) (Sys.start s.db) (upstreamFails ++ orphanCancelled)).any fun s' =>
      (s'.db.job? 12).any fun j => j.status = .cancelled) ∧
    Lts.Along (Sys.step env) (fun s _ s' => s.db.OnlyHopeless s'.db) (Sys.start s.db)
      (upstreamFails ++ orphanCancelled) := by
  have heval : (Lts.run (Sys.step env) Sys.init twoJobs).any (fun s =>
      (s.db.jobRuns.all fun r => r.status = .pending) ∧ s.db.idempotencyKeys = [] ∧
      (Lts.run (Sys.step env) (Sys.start s.db) (upstreamFails ++ orphanCancelled)).any (fun s' =>
        (s'.db.job? 12).any fun j => j.status = .cancelled) ∧
      (Lts.run (Sys.step env) (Sys.start s.db) upstreamFails).any fun s₁ =>
        evaluating? (s₁.recoveries 0).phase = some (12, [jobId]) ∧
        ((s₁.db.job? 12).all fun j => j.status = .ready) ∧
        ((s₁.db.job? jobId).all fun j => j.status = .ready) ∧
        (s₁.step env (.recover 0 .checkDep)).all fun s₂ =>
          (s₂.txn? env (.recover 0 .cancel)).all fun t => t.ended? = none) = true := by
    decide +kernel
  obtain ⟨s, hs, hp⟩ := Lts.exists_run heval
  simp only [decide_eq_true_eq] at hp
  obtain ⟨hpend, hk, hend, hp⟩ := hp
  obtain ⟨s₁, hs₁, hp⟩ := (Option.any_eq_true _ _).mp hp
  simp only [decide_eq_true_eq] at hp
  obtain ⟨hphase, hjob, hdep, hcancel⟩ := hp
  refine ⟨s, hs, hend, Sys.cancelled_hopeless (twoJobs_unclaimed hs hpend hk) ?_⟩
  -- No dependency is checked before the last two steps.
  have hstart : ∀ x, ¬ (Sys.start s.db).Cancels x := by
    rintro x (⟨w, c, hp, -⟩ | ⟨v, dep, hp⟩) <;> cases hp
  have hprefix : ∀ a ∈ upstreamFails, a.checks = false := by decide
  have hquiet : ∀ x, ¬ s₁.Cancels x :=
    Lts.run_inv_along (I := fun s => ∀ x, ¬ s.Cancels x) (P := fun _ a _ => a.checks = false)
      Sys.quiet_step hstart (Lts.along_of_mem hprefix) hs₁
  have hbefore : Lts.Along (Sys.step env) (Sys.Prudent env) (Sys.start s.db) upstreamFails :=
    Lts.Along.of_inv (I := fun s => ∀ x, ¬ s.Cancels x) (P := fun _ a _ => a.checks = false)
      Sys.quiet_step (fun hn ha _ => Sys.Prudent.of_quiet hn ha) hstart
      (Lts.along_of_mem hprefix)
  refine hbefore.append hs₁ fun s₂ hs₂ => ⟨?_, fun s₃ hs₃ => ⟨?_, trivial⟩⟩
  · exact
      { check := fun w c config he => by cases he
        look := fun v job dep rest he hp _ => by
          cases he
          rw [hp] at hphase
          cases hphase
          exact ⟨undone hjob, undone hdep⟩
        between := fun x t hx => absurd hx (hquiet x) }
  · rw [hs₂, Option.all_some] at hcancel
    exact
      { check := fun w c config he => by cases he
        look := fun v job dep rest he => by cases he
        between := fun x t _ hmay ht => by
          rw [ht, Option.all_some] at hcancel
          exact Txn.sparesHopeless_of_ended? (of_decide_eq_true hcancel) hmay }

/-- The executor takes up the other job while the first one is waiting. -/
def waitingUpstream : List Action :=
  [.execute 0 (.fetch [nextId, runId] []),
    .execute 0 (.claim false),
    .execute 0 .load,
    .execute 0 .checkDeps]

theorem waitingUpstream_cancelled : ∃ s s₁ s₂,
    Lts.run (Sys.step env) Sys.init twoJobs = some s ∧ s.db.Unclaimed ∧
    Lts.run (Sys.step env) (Sys.start s.db) waitingUpstream = some s₁ ∧
    s₁.step env (.execute 0 .cancelDag) = some s₂ ∧ ¬ s₁.db.OnlyHopeless s₂.db := by
  have heval : (Lts.run (Sys.step env) Sys.init twoJobs).any (fun s =>
      (s.db.jobRuns.all fun r => r.status = .pending) ∧ s.db.idempotencyKeys = [] ∧
      (Lts.run (Sys.step env) (Sys.start s.db) waitingUpstream).any fun s₁ =>
        ((s₁.db.job? 12).all fun j => j.status = .ready ∧ j.dependsOn = [jobId]) ∧
        ((s₁.db.job? jobId).all fun j => j.status = .ready) ∧
        (s₁.db.jobRuns.all fun r => r.status ≠ .dead) ∧
        (s₁.step env (.execute 0 .cancelDag)).any fun s₂ =>
          (s₂.db.job? 12).any fun j => j.status = .cancelled) = true := by
    decide +kernel
  obtain ⟨s, hs, hp⟩ := Lts.exists_run heval
  simp only [decide_eq_true_eq] at hp
  obtain ⟨hpend, hk, hp⟩ := hp
  obtain ⟨s₁, hs₁, hp⟩ := (Option.any_eq_true _ _).mp hp
  simp only [decide_eq_true_eq] at hp
  obtain ⟨hjob, hdep, hruns, hp⟩ := hp
  obtain ⟨s₂, hs₂, hp⟩ := (Option.any_eq_true _ _).mp hp
  obtain ⟨j', hj', hc⟩ := (Option.any_eq_true _ _).mp hp
  refine ⟨s, s₁, s₂, hs, twoJobs_unclaimed hs hpend hk, hs₁, hs₂, fun h => ?_⟩
  obtain ⟨j, hj, hwas⟩ := h 12 j' hj' (of_decide_eq_true hc)
  rw [hj, Option.all_some] at hjob
  simp only [decide_eq_true_eq] at hjob
  obtain ⟨hready, hon⟩ := hjob
  obtain hwas | ⟨-, i, hi, d, hd, -, hfailed⟩ := hwas
  · rw [hready] at hwas
    cases hwas
  · rw [hon, List.mem_singleton] at hi
    subst hi
    rw [hd, Option.all_some, decide_eq_true_eq] at hdep
    obtain hfailed | ⟨x, r, hr, -, hdead⟩ := hfailed
    · rw [hdep] at hfailed
      cases hfailed
    · have hnot := of_decide_eq_true (List.all_eq_true.mp hruns r (Table.get?_mem hr))
      exact hnot hdead

end Demo

end PaymentScheduler
