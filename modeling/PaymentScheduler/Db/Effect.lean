import PaymentScheduler.Db.Wf

/-!
# What a transaction does to each table

`Txn.setRun` and `Txn.setJob` are the rows that a transaction makes of the rows that are there;
`Txn.newRuns` and `Txn.newJobs` are the rows that it may insert, and `Txn.deadRuns` the runs of its
dead letters. The invariants of the system are proved from these alone:

- **Runs**: `run?_set`, `run?_new`, and both together `run?_cases`.
- **Jobs**: `job?_set`, `job?_new`, `job?_cases`.
- **Keys**: `key?_cases`, `key?_keep`.
- **Dead letters**: `entryRuns_apply`.
-/

namespace PaymentScheduler

namespace Db

variable {db db' : Db} {x : UUID} {r : JobRun} {j : ScheduledJob} {w : WindowWrite}

theorem insertRun_keep (h : db.insertRun r = some db') {r₀ : JobRun} (hr : db.run? x = some r₀) :
    db'.run? x = some r₀ := by
  obtain ⟨rfl, -⟩ | ⟨rfl, -⟩ := insertRun_cases h
  · exact hr
  · rw [run?_addRun, hr]; rfl

theorem insertRun_new (h : db.insertRun r = some db') (hx : db.run? x = none) {r' : JobRun}
    (hr : db'.run? x = some r') : r' = r := by
  obtain ⟨rfl, -⟩ | ⟨rfl, -⟩ := insertRun_cases h
  · rw [hx] at hr; cases hr
  · rw [run?_addRun, hx, Option.none_or] at hr
    split at hr <;> cases hr
    rfl

theorem insertRun_job? (h : db.insertRun r = some db') : db'.job? x = db.job? x := by
  obtain ⟨rfl, -⟩ | ⟨rfl, -⟩ := insertRun_cases h <;> rfl

theorem insertRun_key? {n : Int} (h : db.insertRun r = some db') : db'.key? x n = db.key? x n := by
  obtain ⟨rfl, -⟩ | ⟨rfl, -⟩ := insertRun_cases h <;> rfl

theorem insertRun_dlq (h : db.insertRun r = some db') :
    db'.deadLetterQueue = db.deadLetterQueue := by
  obtain ⟨rfl, -⟩ | ⟨rfl, -⟩ := insertRun_cases h <;> rfl

/-- After the insert there is a run of the job and attempt. -/
theorem insertRun_exists (hw : db.Wf) (h : db.insertRun r = some db') :
    ∃ y r', db'.run? y = some r' ∧ r'.jobId = r.jobId ∧ r'.attempt = r.attempt := by
  obtain ⟨rfl, r₀, hr₀, hj, ha⟩ | ⟨rfl, -, hn, -⟩ := insertRun_cases h
  · exact ⟨r₀.id, r₀, hw.run?_mem.mp hr₀, hj, ha⟩
  · exact ⟨r.id, r, by rw [run?_addRun, hn]; simp, rfl, rfl⟩

theorem addJob_keep {j₀ : ScheduledJob} (h : db.job? x = some j₀) :
    (db.addJob j).job? x = some j₀ := by rw [job?_addJob, h]; rfl

theorem addJob_new (hx : db.job? x = none) {j' : ScheduledJob}
    (h : (db.addJob j).job? x = some j') : j' = j := by
  rw [job?_addJob, hx, Option.none_or] at h
  split at h <;> cases h
  rfl

/-! ## The batch of a scheduler -/

theorem createJobForSubscription_run? (h : db.createJobForSubscription w = some db') :
    (∀ r₀, db.run? x = some r₀ → db'.run? x = some r₀) ∧
    (∀ r', db.run? x = none → db'.run? x = some r' → r' = firstRun w.job w.runId) := by
  obtain ⟨db₁, rfl, ⟨rfl, -⟩ | ⟨-, hr⟩⟩ := createJobForSubscription_cases h
  · refine ⟨fun r₀ hr₀ => hr₀, fun r' hn hr' => ?_⟩
    rw [run?_updateSub, hn] at hr'; cases hr'
  · exact ⟨fun r₀ hr₀ => insertRun_keep hr hr₀, fun r' hn hr' => insertRun_new hr hn hr'⟩

theorem createJobForSubscription_job? (h : db.createJobForSubscription w = some db') :
    (∀ j₀, db.job? x = some j₀ → db'.job? x = some j₀) ∧
    (∀ j', db.job? x = none → db'.job? x = some j' → j' = w.job) := by
  obtain ⟨db₁, rfl, ⟨rfl, -⟩ | ⟨-, hr⟩⟩ := createJobForSubscription_cases h
  · refine ⟨fun j₀ hj₀ => hj₀, fun j' hn hj' => ?_⟩
    rw [job?_updateSub, hn] at hj'; cases hj'
  · rw [job?_updateSub, insertRun_job? hr]
    exact ⟨fun j₀ hj₀ => addJob_keep hj₀, fun j' hn hj' => addJob_new hn hj'⟩

theorem createJobForSubscription_key? {n : Int} (h : db.createJobForSubscription w = some db') :
    db'.key? x n = db.key? x n := by
  obtain ⟨db₁, rfl, ⟨rfl, -⟩ | ⟨-, hr⟩⟩ := createJobForSubscription_cases h
  · rfl
  · rw [key?_updateSub, insertRun_key? hr]; rfl

theorem createJobForSubscription_dlq (h : db.createJobForSubscription w = some db') :
    db'.deadLetterQueue = db.deadLetterQueue := by
  obtain ⟨db₁, rfl, ⟨rfl, -⟩ | ⟨-, hr⟩⟩ := createJobForSubscription_cases h
  · rfl
  · exact (insertRun_dlq hr :)

/-- A relation that each window of a batch keeps is one of the batch. -/
theorem schedule_rel {ws : List WindowWrite} {R : Db → Db → Prop} (hrefl : ∀ d, R d d)
    (htrans : ∀ {a b c}, R a b → R b c → R a c)
    (hR : ∀ w ∈ ws, ∀ {d d'}, d.createJobForSubscription w = some d' → R d d')
    (h : Db.schedule ws db = some db') : R db db' := by
  induction ws generalizing db with
  | nil =>
    cases h
    exact hrefl _
  | cons w ws ih =>
    obtain ⟨db₁, h₁, h⟩ := Option.bind_eq_some_iff.mp h
    refine htrans (hR w List.mem_cons_self h₁) ?_
    exact ih (fun w' hw' => hR w' (List.mem_cons_of_mem _ hw')) h

theorem schedule_run? {ws : List WindowWrite} (h : db.schedule ws = some db') :
    (∀ r₀, db.run? x = some r₀ → db'.run? x = some r₀) ∧
    (∀ r', db.run? x = none → db'.run? x = some r' →
      ∃ w ∈ ws, r' = firstRun w.job w.runId) := by
  refine schedule_rel (R := fun d d' => (∀ r₀, d.run? x = some r₀ → d'.run? x = some r₀) ∧
    ∀ r', d.run? x = none → d'.run? x = some r' → ∃ w ∈ ws, r' = firstRun w.job w.runId)
    (fun d => ?_) (fun {d d₁ d'} h₁ h₂ => ?_) (fun w hw d d' hd => ?_) h
  · exact ⟨fun _ h => h, fun r' hn h => by rw [hn] at h; cases h⟩
  · refine ⟨fun r₀ hr₀ => h₂.1 r₀ (h₁.1 r₀ hr₀), fun r' hn hr' => ?_⟩
    cases hm : d₁.run? x with
    | some r₁ =>
      rw [h₂.1 r₁ hm] at hr'; cases hr'
      exact h₁.2 _ hn hm
    | none => exact h₂.2 r' hm hr'
  · obtain ⟨hk, hn⟩ := createJobForSubscription_run? (x := x) hd
    exact ⟨hk, fun r' hx hr' => ⟨w, hw, hn r' hx hr'⟩⟩

theorem schedule_job? {ws : List WindowWrite} (h : db.schedule ws = some db') :
    (∀ j₀, db.job? x = some j₀ → db'.job? x = some j₀) ∧
    (∀ j', db.job? x = none → db'.job? x = some j' → ∃ w ∈ ws, j' = w.job) := by
  refine schedule_rel (R := fun d d' => (∀ j₀, d.job? x = some j₀ → d'.job? x = some j₀) ∧
    ∀ j', d.job? x = none → d'.job? x = some j' → ∃ w ∈ ws, j' = w.job)
    (fun d => ?_) (fun {d d₁ d'} h₁ h₂ => ?_) (fun w hw d d' hd => ?_) h
  · exact ⟨fun _ h => h, fun j' hn h => by rw [hn] at h; cases h⟩
  · refine ⟨fun j₀ hj₀ => h₂.1 j₀ (h₁.1 j₀ hj₀), fun j' hn hj' => ?_⟩
    cases hm : d₁.job? x with
    | some j₁ =>
      rw [h₂.1 j₁ hm] at hj'; cases hj'
      exact h₁.2 _ hn hm
    | none => exact h₂.2 j' hm hj'
  · obtain ⟨hk, hn⟩ := createJobForSubscription_job? (x := x) hd
    exact ⟨hk, fun j' hx hj' => ⟨w, hw, hn j' hx hj'⟩⟩

theorem schedule_key? {n : Int} {ws : List WindowWrite} (h : db.schedule ws = some db') :
    db'.key? x n = db.key? x n :=
  schedule_rel (R := fun d d' => d'.key? x n = d.key? x n) (fun _ => rfl)
    (fun h₁ h₂ => h₂.trans h₁) (fun _ _ => createJobForSubscription_key?) h

theorem schedule_dlq {ws : List WindowWrite} (h : db.schedule ws = some db') :
    db'.deadLetterQueue = db.deadLetterQueue :=
  schedule_rel (R := fun d d' => d'.deadLetterQueue = d.deadLetterQueue) (fun _ => rfl)
    (fun h₁ h₂ => h₂.trans h₁) (fun _ _ => createJobForSubscription_dlq) h

end Db

namespace Txn

variable {db db' : Db} {t : Txn} {x : UUID}

/-! ## Runs -/

/-- The row that a transaction makes of the run `r`. -/
def setRun (db : Db) (r : JobRun) : Txn → JobRun
  | claim run workerId now lock => if r.id = run then r.claim workerId now lock else r
  | persistSuccess k run _ =>
    if r.id = run.id ∧ db.key? k.jobRunId k.attempt = none then
      r.succeed k.bunqPaymentId k.createdAt
    else r
  | markDagCancelled run now =>
    if r.id = run.id then r.fail "DAG dependency not satisfied" now else r
  | scheduleRetry run error now _ => if r.id = run then r.fail error now else r
  | moveToDlq e clearsWorker now =>
    if r.id = e.jobRunId then r.die e.failureReason clearsWorker now else r
  | reclaim run now => if r.id = run then r.reclaim now else r
  | cancelOrphan job dep now =>
    if r.jobId = job ∧ r.status = .pending then r.cancel dep now else r
  | _ => r

/-- The runs that a transaction may insert. -/
def newRuns : Txn → List JobRun
  | scheduleRetry _ _ _ next => [next]
  | insertAttempt next => [next]
  | schedule ws => ws.map fun w => firstRun w.job w.runId
  | produce j runId => [firstRun j runId]
  | _ => []

theorem setRun_id (r : JobRun) : (t.setRun db r).id = r.id := by
  cases t <;> simp only [setRun] <;> split <;> rfl

theorem setRun_jobId (r : JobRun) : (t.setRun db r).jobId = r.jobId := by
  cases t <;> simp only [setRun] <;> split <;> rfl

theorem setRun_attempt (r : JobRun) : (t.setRun db r).attempt = r.attempt := by
  cases t <;> simp only [setRun] <;> split <;> rfl

/-- No transaction makes an existing run PENDING. -/
theorem setRun_pending {r : JobRun} (h : (t.setRun db r).status = .pending) :
    r.status = .pending := by
  cases t <;> simp only [setRun] at h <;> (try split at h) <;> first | exact h | cases h

theorem run?_set (h : t.apply db = some db') {r : JobRun} (hr : db.run? x = some r) :
    db'.run? x = some (t.setRun db r) := by
  have hid : r.id = x := Db.run?_id hr
  subst hid
  cases t with
  | claim run workerId now lock =>
    cases h
    simp only [Db.run?_claim, setRun, hr]
    split <;> rfl
  | persistSuccess k run b =>
    simp only [setRun]
    obtain ⟨rfl, k₀, hk⟩ | ⟨rfl, hk, -⟩ := Db.persistSuccess_cases h
    · simp [hk, hr]
    · simp only [Db.run?_recordSuccess, Db.run?_addKey, hr, hk, and_true]
      split <;> rfl
  | markDagCancelled run now =>
    cases h
    simp only [Db.run?_markDagCancelled, setRun, hr]
    split <;> rfl
  | scheduleRetry run error now next =>
    refine Db.insertRun_keep h ?_
    simp only [setRun, Db.run?_fail, hr]
    split <;> rfl
  | moveToDlq e clearsWorker now =>
    rw [Db.moveToDlq_cases h]
    simp only [Db.countFailure, setRun, Db.run?_updateSub, Db.run?_addEntry, Db.run?_die, hr]
    split <;> rfl
  | reclaim run now =>
    cases h
    simp only [Db.run?_reclaim, setRun, hr]
    split <;> rfl
  | insertAttempt next => exact Db.insertRun_keep h hr
  | cancelOrphan job dep now =>
    cases h
    simp only [Db.run?_cancelOrphan, setRun, hr, Option.map_some]
  | schedule ws => exact (Db.schedule_run? h).1 r hr
  | createSubscription b => rw [(Db.insertSub_cases h).1]; exact hr
  | updateSubscription id c => cases h; exact hr
  | resume id nextFire => cases h; exact hr
  | resolve id now resolvedBy => cases h; exact hr
  | produce j runId => exact Db.insertRun_keep (Db.produce_cases h).2 hr

/-- A run that was not there is one that the transaction inserts. -/
theorem run?_new (h : t.apply db = some db') (hn : db.run? x = none) {r : JobRun}
    (hr : db'.run? x = some r) : r ∈ t.newRuns := by
  cases t with
  | claim run workerId now lock =>
    cases h
    simp [Db.run?_claim, hn] at hr
  | persistSuccess k run b =>
    obtain ⟨rfl, -⟩ | ⟨rfl, -⟩ := Db.persistSuccess_cases h
    · rw [hn] at hr; cases hr
    · simp [Db.run?_recordSuccess, hn] at hr
  | markDagCancelled run now =>
    cases h
    simp [Db.run?_markDagCancelled, hn] at hr
  | scheduleRetry run error now next =>
    rw [Db.insertRun_new h (by simp [Db.run?_fail, hn]) hr]
    exact List.mem_singleton_self _
  | moveToDlq e clearsWorker now =>
    rw [Db.moveToDlq_cases h] at hr
    simp [Db.countFailure, Db.run?_die, hn] at hr
  | reclaim run now =>
    cases h
    simp [Db.run?_reclaim, hn] at hr
  | insertAttempt next =>
    rw [Db.insertRun_new h hn hr]
    exact List.mem_singleton_self _
  | cancelOrphan job dep now =>
    cases h
    simp [Db.run?_cancelOrphan, hn] at hr
  | schedule ws =>
    obtain ⟨w, hw, rfl⟩ := (Db.schedule_run? h).2 r hn hr
    exact List.mem_map_of_mem hw
  | createSubscription b =>
    rw [(Db.insertSub_cases h).1, Db.run?_addSub, hn] at hr; cases hr
  | updateSubscription id c => cases h; rw [Db.run?_updateSub, hn] at hr; cases hr
  | resume id nextFire => cases h; rw [Db.resume, Db.run?_updateSub, hn] at hr; cases hr
  | resolve id now resolvedBy => cases h; rw [Db.resolve, Db.run?_updateEntry, hn] at hr; cases hr
  | produce j runId =>
    rw [Db.insertRun_new (Db.produce_cases h).2 hn hr]
    exact List.mem_singleton_self _

/-- A run after a transaction: one of before, or an inserted one. -/
theorem run?_cases (h : t.apply db = some db') {r' : JobRun} (hr : db'.run? x = some r') :
    (∃ r, db.run? x = some r ∧ r' = t.setRun db r) ∨ (db.run? x = none ∧ r' ∈ t.newRuns) := by
  cases hx : db.run? x with
  | none => exact .inr ⟨rfl, run?_new h hx hr⟩
  | some r =>
    rw [run?_set h hx] at hr
    exact .inl ⟨r, rfl, (Option.some.inj hr).symm⟩

/-! ## Jobs -/

/-- The row that a transaction makes of the job `j`. -/
def setJob (db : Db) (j : ScheduledJob) : Txn → ScheduledJob
  | persistSuccess k run _ =>
    if j.id = run.jobId ∧ db.key? k.jobRunId k.attempt = none then { j with status := .done } else j
  | markDagCancelled run _ => if j.id = run.jobId then { j with status := .cancelled } else j
  | cancelOrphan job _ _ => if j.id = job then { j with status := .cancelled } else j
  | _ => j

/-- The jobs that a transaction may insert. -/
def newJobs : Txn → List ScheduledJob
  | schedule ws => ws.map (·.job)
  | produce j _ => [j]
  | _ => []

theorem setJob_frame (j : ScheduledJob) :
    (t.setJob db j).id = j.id ∧ (t.setJob db j).subscriptionId = j.subscriptionId ∧
      (t.setJob db j).scheduledFor = j.scheduledFor ∧
      (t.setJob db j).fingerprint = j.fingerprint ∧ (t.setJob db j).dependsOn = j.dependsOn := by
  cases t <;> simp only [setJob] <;> (try split) <;> simp

/-- No transaction opens a job again. -/
theorem setJob_isOpen {j : ScheduledJob} (h : (t.setJob db j).status.isOpen = true) :
    (t.setJob db j) = j := by
  cases t <;> simp only [setJob] at h ⊢ <;> (try split at h) <;> first
    | rfl
    | cases h
    | exact if_neg (by assumption)

theorem job?_set (h : t.apply db = some db') {j : ScheduledJob} (hj : db.job? x = some j) :
    db'.job? x = some (t.setJob db j) := by
  have hid : j.id = x := Db.job?_id hj
  subst hid
  cases t with
  | claim run workerId now lock => cases h; exact hj
  | persistSuccess k run b =>
    simp only [setJob]
    obtain ⟨rfl, k₀, hk⟩ | ⟨rfl, hk, -⟩ := Db.persistSuccess_cases h
    · simp [hk, hj]
    · simp only [Db.job?_recordSuccess, Db.job?_addKey, hj, hk, and_true]
      split <;> rfl
  | markDagCancelled run now =>
    cases h
    simp only [Db.job?_markDagCancelled, setJob, hj]
    split <;> rfl
  | scheduleRetry run error now next =>
    rw [Db.insertRun_job? h]
    exact hj
  | moveToDlq e clearsWorker now =>
    rw [Db.moveToDlq_cases h]
    exact hj
  | reclaim run now => cases h; exact hj
  | insertAttempt next =>
    rw [Db.insertRun_job? h]
    exact hj
  | cancelOrphan job dep now =>
    cases h
    simp only [Db.job?_cancelOrphan, setJob, hj]
    split <;> rfl
  | schedule ws => exact (Db.schedule_job? h).1 j hj
  | createSubscription b => rw [(Db.insertSub_cases h).1]; exact hj
  | updateSubscription id c => cases h; exact hj
  | resume id nextFire => cases h; exact hj
  | resolve id now resolvedBy => cases h; exact hj
  | produce j' runId =>
    rw [Db.insertRun_job? (Db.produce_cases h).2]
    exact Db.addJob_keep hj

/-- A job that was not there is one that the transaction inserts. -/
theorem job?_new (h : t.apply db = some db') (hn : db.job? x = none) {j : ScheduledJob}
    (hj : db'.job? x = some j) : j ∈ t.newJobs := by
  cases t with
  | claim run workerId now lock => cases h; exact absurd (hn.symm.trans hj) nofun
  | persistSuccess k run b =>
    obtain ⟨rfl, -⟩ | ⟨rfl, -⟩ := Db.persistSuccess_cases h
    · rw [hn] at hj; cases hj
    · simp [Db.job?_recordSuccess, hn] at hj
  | markDagCancelled run now =>
    cases h
    simp [Db.job?_markDagCancelled, hn] at hj
  | scheduleRetry run error now next =>
    rw [Db.insertRun_job? h] at hj
    exact absurd (hn.symm.trans hj) nofun
  | moveToDlq e clearsWorker now =>
    rw [Db.moveToDlq_cases h] at hj
    exact absurd (hn.symm.trans hj) nofun
  | reclaim run now => cases h; exact absurd (hn.symm.trans hj) nofun
  | insertAttempt next =>
    rw [Db.insertRun_job? h] at hj
    exact absurd (hn.symm.trans hj) nofun
  | cancelOrphan job dep now =>
    cases h
    simp [Db.job?_cancelOrphan, hn] at hj
  | schedule ws =>
    obtain ⟨w, hw, rfl⟩ := (Db.schedule_job? h).2 j hn hj
    exact List.mem_map_of_mem hw
  | createSubscription b =>
    rw [(Db.insertSub_cases h).1] at hj
    exact absurd (hn.symm.trans hj) nofun
  | updateSubscription id c => cases h; exact absurd (hn.symm.trans hj) nofun
  | resume id nextFire => cases h; exact absurd (hn.symm.trans hj) nofun
  | resolve id now resolvedBy => cases h; exact absurd (hn.symm.trans hj) nofun
  | produce j' runId =>
    rw [Db.insertRun_job? (Db.produce_cases h).2] at hj
    rw [Db.addJob_new hn hj]
    exact List.mem_singleton_self _

/-- A job after a transaction: one of before, or an inserted one. -/
theorem job?_cases (h : t.apply db = some db') {j' : ScheduledJob} (hj : db'.job? x = some j') :
    (∃ j, db.job? x = some j ∧ j' = t.setJob db j) ∨ (db.job? x = none ∧ j' ∈ t.newJobs) := by
  cases hx : db.job? x with
  | none => exact .inr ⟨rfl, job?_new h hx hj⟩
  | some j =>
    rw [job?_set h hx] at hj
    exact .inl ⟨j, rfl, (Option.some.inj hj).symm⟩

/-! ## Keys -/

/-- The keys after a transaction: those of before, and that of a recorded success. -/
theorem key?_cases {n : Int} (h : t.apply db = some db') :
    db'.key? x n = db.key? x n ∨
    ∃ k run b, t = persistSuccess k run b ∧ k.jobRunId = x ∧ k.attempt = n ∧
      db.key? x n = none ∧ db'.key? x n = some k := by
  cases t with
  | persistSuccess k run b =>
    obtain ⟨rfl, -⟩ | ⟨rfl, hk, -⟩ := Db.persistSuccess_cases h
    · exact .inl rfl
    · have he : ((db.addKey k).recordSuccess k run b).key? x n =
          (db.key? x n).or (if (k.jobRunId, k.attempt) = (x, n) then some k else none) :=
        Db.key?_addKey
      by_cases hc : (k.jobRunId, k.attempt) = (x, n)
      · cases hc
        refine .inr ⟨k, run, b, rfl, rfl, rfl, hk, ?_⟩
        rw [he, hk]
        simp
      · left
        rw [he, if_neg hc, Option.or_none]
  | scheduleRetry run error now next => rw [Db.insertRun_key? h]; exact .inl rfl
  | moveToDlq e clearsWorker now => rw [Db.moveToDlq_cases h]; exact .inl rfl
  | insertAttempt next => exact .inl (Db.insertRun_key? h)
  | schedule ws => exact .inl (Db.schedule_key? h)
  | createSubscription b => rw [(Db.insertSub_cases h).1]; exact .inl rfl
  | produce j runId => rw [Db.insertRun_key? (Db.produce_cases h).2]; exact .inl rfl
  | _ => cases h; exact .inl rfl

/-- Where the key is not there, a recorded success inserts it. -/
theorem key?_persistSuccess {k : IdempotencyKeyRecord} {run : JobRun} {b : UUID}
    (h : (persistSuccess k run b).apply db = some db')
    (hn : db.key? k.jobRunId k.attempt = none) : db'.key? k.jobRunId k.attempt = some k := by
  obtain ⟨-, k₀, hk⟩ | ⟨rfl, -⟩ := Db.persistSuccess_cases h
  · rw [hn] at hk; cases hk
  · show (db.addKey k).key? k.jobRunId k.attempt = some k
    rw [Db.key?_addKey, hn]
    simp

theorem key?_keep {n : Int} (h : t.apply db = some db') {k : IdempotencyKeyRecord}
    (hk : db.key? x n = some k) : db'.key? x n = some k := by
  obtain he | ⟨_, _, _, -, -, -, hn, -⟩ := key?_cases (x := x) (n := n) h
  · rw [he, hk]
  · rw [hk] at hn; cases hn

/-! ## Dead letters -/

/-- The runs that a transaction enters into the dead letter queue. -/
def deadRuns : Txn → List UUID
  | moveToDlq e _ _ => [e.jobRunId]
  | _ => []

theorem entryRuns_apply (h : t.apply db = some db') :
    db'.deadLetterQueue.map (·.jobRunId) =
      db.deadLetterQueue.map (·.jobRunId) ++ t.deadRuns := by
  cases t with
  | persistSuccess k run b =>
    obtain ⟨rfl, -⟩ | ⟨rfl, -⟩ := Db.persistSuccess_cases h <;> exact (List.append_nil _).symm
  | scheduleRetry run error now next =>
    rw [Db.insertRun_dlq h]; exact (List.append_nil _).symm
  | moveToDlq e clearsWorker now =>
    rw [Db.moveToDlq_cases h]
    exact List.map_append
  | insertAttempt next => rw [Db.insertRun_dlq h]; exact (List.append_nil _).symm
  | schedule ws => rw [Db.schedule_dlq h]; exact (List.append_nil _).symm
  | createSubscription b => rw [(Db.insertSub_cases h).1]; exact (List.append_nil _).symm
  | resolve id now resolvedBy =>
    cases h
    simp only [deadRuns, List.append_nil]
    exact Table.map_updateWhere fun _ => rfl
  | produce j runId =>
    rw [Db.insertRun_dlq (Db.produce_cases h).2]; exact (List.append_nil _).symm
  | _ => cases h; exact (List.append_nil _).symm

end Txn

end PaymentScheduler
