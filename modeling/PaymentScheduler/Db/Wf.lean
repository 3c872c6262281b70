import PaymentScheduler.Db.Lemmas

/-!
# The constraints of the schema

`Db.Wf` are the primary keys, unique constraints and foreign keys that the proofs need. Every
statement keeps them, so every transaction does (`Txn.wf`), whatever its arguments are. The two
unique constraints of `scheduled_jobs` are in `PaymentScheduler/System/Windows.lean`.
-/

namespace PaymentScheduler

/-- The constraints that hold of the committed rows. -/
structure Db.Wf (db : Db) : Prop where
  subIds : Table.Unique (·.id) db.subscriptions
  jobIds : Table.Unique (·.id) db.scheduledJobs
  runIds : Table.Unique (·.id) db.jobRuns
  /-- `uq_run_per_attempt`. -/
  attempts : Table.Unique (fun r => (r.jobId, r.attempt)) db.jobRuns
  /-- `uq_idempotency_run_attempt`. -/
  keyAttempts : Table.Unique (fun k => (k.jobRunId, k.attempt)) db.idempotencyKeys
  jobSub : ∀ j ∈ db.scheduledJobs, ∃ b, db.sub? j.subscriptionId = some b
  runJob : ∀ r ∈ db.jobRuns, ∃ j, db.job? r.jobId = some j
  keyRun : ∀ k ∈ db.idempotencyKeys, ∃ r, db.run? k.jobRunId = some r
  entryRun : ∀ e ∈ db.deadLetterQueue, ∃ r, db.run? e.jobRunId = some r

namespace Db

variable {db db' : Db} {i : UUID}

theorem Wf.empty : Wf {} := by
  constructor <;> first | exact List.nodup_nil | (intro _ h; cases h)

namespace Wf

theorem run?_mem (h : Wf db) {r : JobRun} : r ∈ db.jobRuns ↔ db.run? r.id = some r :=
  Table.mem_iff_get? h.runIds

theorem job?_mem (h : Wf db) {j : ScheduledJob} : j ∈ db.scheduledJobs ↔ db.job? j.id = some j :=
  Table.mem_iff_get? h.jobIds

theorem sub?_mem (h : Wf db) {b : Subscription} : b ∈ db.subscriptions ↔ db.sub? b.id = some b :=
  Table.mem_iff_get? h.subIds

theorem key?_mem (h : Wf db) {k : IdempotencyKeyRecord} :
    k ∈ db.idempotencyKeys ↔ db.key? k.jobRunId k.attempt = some k :=
  Table.mem_iff_get? h.keyAttempts

/-- A job has one run of each attempt. -/
theorem run_unique (h : Wf db) {x y : UUID} {r r' : JobRun} (hr : db.run? x = some r)
    (hr' : db.run? y = some r') (hj : r.jobId = r'.jobId) (ha : r.attempt = r'.attempt) :
    x = y := by
  have := List.inj_on_of_nodup_map h.attempts (Table.get?_mem hr) (Table.get?_mem hr')
    (by simp [hj, ha])
  rw [← run?_id hr, ← run?_id hr', this]

/-! ## Updates -/

theorem updateRuns (h : Wf db) {p : JobRun → Bool} {f : JobRun → JobRun}
    (hi : ∀ r, (f r).id = r.id) (hj : ∀ r, (f r).jobId = r.jobId)
    (ha : ∀ r, (f r).attempt = r.attempt) : Wf (db.updateRuns p f) := by
  have hrun : ∀ {x r}, db.run? x = some r → ∃ r', (db.updateRuns p f).run? x = some r' := by
    intro x r hr
    rw [run?_updateRuns hi, hr]
    exact ⟨_, rfl⟩
  constructor
  · exact h.subIds
  · exact h.jobIds
  · exact h.runIds.updateWhere hi
  · refine h.attempts.updateWhere fun r => ?_
    simp [hj, ha]
  · exact h.keyAttempts
  · exact h.jobSub
  · intro r hr
    obtain ⟨r₀, hr₀, rfl⟩ := Table.mem_updateWhere.mp hr
    have := h.runJob r₀ hr₀
    split
    · rwa [hj]
    · exact this
  · intro k hk
    obtain ⟨r, hr⟩ := h.keyRun k hk
    exact hrun hr
  · intro e he
    obtain ⟨r, hr⟩ := h.entryRun e he
    exact hrun hr

theorem updateRun (h : Wf db) {f : JobRun → JobRun} (hi : ∀ r, (f r).id = r.id)
    (hj : ∀ r, (f r).jobId = r.jobId) (ha : ∀ r, (f r).attempt = r.attempt) :
    Wf (db.updateRun i f) := h.updateRuns hi hj ha

theorem updateJob (h : Wf db) {f : ScheduledJob → ScheduledJob} (hi : ∀ j, (f j).id = j.id)
    (hb : ∀ j, (f j).subscriptionId = j.subscriptionId) : Wf (db.updateJob i f) := by
  constructor
  · exact h.subIds
  · exact h.jobIds.updateWhere hi
  · exact h.runIds
  · exact h.attempts
  · exact h.keyAttempts
  · intro j hj
    obtain ⟨j₀, hj₀, rfl⟩ := Table.mem_updateWhere.mp hj
    have := h.jobSub j₀ hj₀
    split
    · rwa [hb]
    · exact this
  · intro r hr
    obtain ⟨j, hj⟩ := h.runJob r hr
    rw [job?_updateJob hi, hj]
    split <;> exact ⟨_, rfl⟩
  · exact h.keyRun
  · exact h.entryRun

theorem updateSub (h : Wf db) {f : Subscription → Subscription} (hi : ∀ b, (f b).id = b.id) :
    Wf (db.updateSub i f) := by
  constructor
  · exact h.subIds.updateWhere hi
  · exact h.jobIds
  · exact h.runIds
  · exact h.attempts
  · exact h.keyAttempts
  · intro j hj
    obtain ⟨b, hb⟩ := h.jobSub j hj
    rw [sub?_updateSub hi, hb]
    split <;> exact ⟨_, rfl⟩
  · exact h.runJob
  · exact h.keyRun
  · exact h.entryRun

theorem updateEntry (h : Wf db) {f : DeadLetterEntry → DeadLetterEntry}
    (hr : ∀ e, (f e).jobRunId = e.jobRunId) : Wf (db.updateEntry i f) := by
  refine { h with entryRun := fun e he => ?_ }
  obtain ⟨e₀, he₀, rfl⟩ := Table.mem_updateWhere.mp he
  have := h.entryRun e₀ he₀
  split
  · rwa [hr]
  · exact this

/-! ## Inserts -/

theorem insertSub (h : Wf db) {b : Subscription} (hs : db.insertSub b = some db') : Wf db' := by
  obtain ⟨rfl, hb⟩ := insertSub_cases hs
  refine { h with subIds := h.subIds.append_single hb, jobSub := fun j hj => ?_ }
  obtain ⟨b', hb'⟩ := h.jobSub j hj
  exact ⟨b', by rw [sub?_addSub, hb']; rfl⟩

theorem insertJob (h : Wf db) {j : ScheduledJob} {ok : Bool}
    (hs : db.insertJob j = some (ok, db')) : Wf db' := by
  obtain ⟨-, rfl, -⟩ | ⟨-, rfl, -, -, hj, hb⟩ := insertJob_cases hs
  · exact h
  · refine { h with
      jobIds := h.jobIds.append_single hj, jobSub := fun j' hj' => ?_, runJob := fun r hr => ?_ }
    · rcases List.mem_append.mp hj' with hj' | hj'
      · exact h.jobSub j' hj'
      · rw [List.mem_singleton.mp hj']
        exact hb
    · obtain ⟨j', hj'⟩ := h.runJob r hr
      exact ⟨j', by rw [job?_addJob, hj']; rfl⟩

theorem insertRun (h : Wf db) {r : JobRun} (hs : db.insertRun r = some db') : Wf db' := by
  obtain ⟨rfl, -⟩ | ⟨rfl, ha, hi, hj⟩ := insertRun_cases hs
  · exact h
  · have hrun : ∀ {x r₀}, db.run? x = some r₀ → ∃ r', (db.addRun r).run? x = some r' := by
      intro x r₀ hr₀
      exact ⟨r₀, by rw [run?_addRun, hr₀]; rfl⟩
    refine { h with
      runIds := h.runIds.append_single hi, attempts := ?_, runJob := ?_, keyRun := ?_,
      entryRun := ?_ }
    · refine h.attempts.append_single (Table.get?_none.mpr fun r₀ hr₀ he => ?_)
      simp only [Prod.mk.injEq] at he
      exact ha r₀ hr₀ he.1 he.2
    · intro r' hr'
      rcases List.mem_append.mp hr' with hr' | hr'
      · exact h.runJob r' hr'
      · rw [List.mem_singleton.mp hr']
        exact hj
    · intro k hk
      obtain ⟨r₀, hr₀⟩ := h.keyRun k hk
      exact hrun hr₀
    · intro e he
      obtain ⟨r₀, hr₀⟩ := h.entryRun e he
      exact hrun hr₀

theorem insertKey (h : Wf db) {k : IdempotencyKeyRecord} {ok : Bool}
    (hs : db.insertKey k = some (ok, db')) : Wf db' := by
  obtain ⟨-, rfl, -⟩ | ⟨-, rfl, hk, hr⟩ := insertKey_cases hs
  · exact h
  · refine { h with keyAttempts := h.keyAttempts.append_single hk, keyRun := fun k' hk' => ?_ }
    rcases List.mem_append.mp hk' with hk' | hk'
    · exact h.keyRun k' hk'
    · rw [List.mem_singleton.mp hk']
      exact hr

theorem insertEntry (h : Wf db) {e : DeadLetterEntry} (hs : db.insertEntry e = some db') :
    Wf db' := by
  obtain ⟨rfl, -, hr⟩ := insertEntry_cases hs
  refine { h with entryRun := fun e' he' => ?_ }
  rcases List.mem_append.mp he' with he' | he'
  · exact h.entryRun e' he'
  · rw [List.mem_singleton.mp he']
    exact hr

/-! ## Transactions -/

theorem persistSuccess (h : Wf db) {k : IdempotencyKeyRecord} {run : JobRun} {b : UUID}
    (hs : db.persistSuccess k run b = some db') : Wf db' := by
  obtain ⟨⟨ok, db₁⟩, h₁, rfl⟩ := Option.map_eq_some_iff.mp hs
  cases ok with
  | false => exact h
  | true =>
    show Wf (db₁.recordSuccess k run b)
    unfold recordSuccess
    refine updateSub ?_ fun _ => rfl
    refine updateJob ?_ (fun _ => rfl) fun _ => rfl
    exact updateRun (h.insertKey h₁) (fun _ => rfl) (fun _ => rfl) fun _ => rfl

theorem moveToDlq (h : Wf db) {e : DeadLetterEntry} {clearsWorker : Bool} {now : Time}
    (hs : db.moveToDlq e clearsWorker now = some db') : Wf db' := by
  obtain ⟨db₁, h₁, rfl⟩ := Option.map_eq_some_iff.mp hs
  have hw : Wf (db.updateRun e.jobRunId fun r => r.die e.failureReason clearsWorker now) :=
    updateRun h (fun _ => rfl) (fun _ => rfl) fun _ => rfl
  unfold countFailure
  refine updateSub ?_ fun b => ?_
  · exact updateSub (hw.insertEntry h₁) fun _ => rfl
  · split <;> rfl

theorem createJobForSubscription (h : Wf db) {w : WindowWrite}
    (hs : db.createJobForSubscription w = some db') : Wf db' := by
  obtain ⟨db₁, rfl, ⟨rfl, -⟩ | ⟨hj, hr⟩⟩ := createJobForSubscription_cases hs
  · refine updateSub h fun b => ?_
    cases w.advance <;> rfl
  · refine updateSub ((h.insertJob hj).insertRun hr) fun b => ?_
    cases w.advance <;> rfl

theorem schedule (h : Wf db) {ws : List WindowWrite} (hs : db.schedule ws = some db') :
    Wf db' := by
  induction ws generalizing db with
  | nil =>
    cases hs
    exact h
  | cons w ws ih =>
    obtain ⟨db₁, h₁, hs⟩ := Option.bind_eq_some_iff.mp hs
    exact ih (h.createJobForSubscription h₁) hs

theorem produce (h : Wf db) {j : ScheduledJob} {runId : UUID}
    (hs : db.produce j runId = some db') : Wf db' := by
  obtain ⟨hj, hr⟩ := produce_cases hs
  exact (h.insertJob hj).insertRun hr

end Wf

end Db

/-- A transaction keeps the constraints. -/
theorem Txn.wf {db db' : Db} {t : Txn} (h : db.Wf) (hs : t.apply db = some db') : db'.Wf := by
  cases t with
  | claim =>
    cases hs
    exact Db.Wf.updateRun h (fun _ => rfl) (fun _ => rfl) fun _ => rfl
  | persistSuccess => exact h.persistSuccess hs
  | markDagCancelled =>
    cases hs
    unfold Db.markDagCancelled
    refine Db.Wf.updateJob ?_ (fun _ => rfl) fun _ => rfl
    exact Db.Wf.updateRun h (fun _ => rfl) (fun _ => rfl) fun _ => rfl
  | scheduleRetry =>
    refine Db.Wf.insertRun ?_ hs
    exact Db.Wf.updateRun h (fun _ => rfl) (fun _ => rfl) fun _ => rfl
  | moveToDlq => exact h.moveToDlq hs
  | reclaim =>
    cases hs
    exact Db.Wf.updateRun h (fun _ => rfl) (fun _ => rfl) fun _ => rfl
  | insertAttempt => exact h.insertRun hs
  | cancelOrphan =>
    cases hs
    unfold Db.cancelOrphan
    refine Db.Wf.updateRuns ?_ (fun _ => rfl) (fun _ => rfl) fun _ => rfl
    exact Db.Wf.updateJob h (fun _ => rfl) fun _ => rfl
  | schedule => exact h.schedule hs
  | createSubscription => exact h.insertSub hs
  | updateSubscription =>
    cases hs
    exact Db.Wf.updateSub h fun _ => rfl
  | resume =>
    cases hs
    exact Db.Wf.updateSub h fun _ => rfl
  | resolve =>
    cases hs
    exact Db.Wf.updateEntry h fun _ => rfl
  | produce => exact h.produce hs

end PaymentScheduler
