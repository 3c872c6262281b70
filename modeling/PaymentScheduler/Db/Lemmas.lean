import PaymentScheduler.Db.Txn

/-!
# Lookups after an update or an insert

One lemma for each lookup and each statement; the lookups of the other tables are unchanged by
definition.
-/

namespace PaymentScheduler

namespace Db

variable {db db' : Db} {i x : UUID} {n : Int}

theorem run?_id {r : JobRun} (h : db.run? x = some r) : r.id = x := Table.get?_key h

theorem job?_id {j : ScheduledJob} (h : db.job? x = some j) : j.id = x := Table.get?_key h

theorem sub?_id {b : Subscription} (h : db.sub? x = some b) : b.id = x := Table.get?_key h

/-! ## Updates -/

section Update

variable {f : JobRun → JobRun} {g : ScheduledJob → ScheduledJob}
  {h : Subscription → Subscription} {e : DeadLetterEntry → DeadLetterEntry}

theorem run?_updateRun (hf : ∀ r, (f r).id = r.id) :
    (db.updateRun i f).run? x = if x = i then (db.run? x).map f else db.run? x :=
  Table.get?_updateKey hf

theorem run?_updateRuns {p : JobRun → Bool} (hf : ∀ r, (f r).id = r.id) :
    (db.updateRuns p f).run? x = (db.run? x).map fun r => if p r then f r else r :=
  Table.get?_updateWhere hf

theorem job?_updateJob (hg : ∀ j, (g j).id = j.id) :
    (db.updateJob i g).job? x = if x = i then (db.job? x).map g else db.job? x :=
  Table.get?_updateKey hg

theorem sub?_updateSub (hh : ∀ b, (h b).id = b.id) :
    (db.updateSub i h).sub? x = if x = i then (db.sub? x).map h else db.sub? x :=
  Table.get?_updateKey hh

@[simp] theorem run?_updateSub : (db.updateSub i h).run? x = db.run? x := rfl
@[simp] theorem run?_updateJob : (db.updateJob i g).run? x = db.run? x := rfl
@[simp] theorem run?_updateEntry : (db.updateEntry i e).run? x = db.run? x := rfl
@[simp] theorem job?_updateSub : (db.updateSub i h).job? x = db.job? x := rfl
@[simp] theorem job?_updateRuns {p : JobRun → Bool} :
    (db.updateRuns p f).job? x = db.job? x := rfl
@[simp] theorem job?_updateRun : (db.updateRun i f).job? x = db.job? x := rfl
@[simp] theorem job?_updateEntry : (db.updateEntry i e).job? x = db.job? x := rfl
@[simp] theorem sub?_updateJob : (db.updateJob i g).sub? x = db.sub? x := rfl
@[simp] theorem sub?_updateRuns {p : JobRun → Bool} :
    (db.updateRuns p f).sub? x = db.sub? x := rfl
@[simp] theorem sub?_updateRun : (db.updateRun i f).sub? x = db.sub? x := rfl
@[simp] theorem sub?_updateEntry : (db.updateEntry i e).sub? x = db.sub? x := rfl
@[simp] theorem key?_updateSub : (db.updateSub i h).key? x n = db.key? x n := rfl
@[simp] theorem key?_updateJob : (db.updateJob i g).key? x n = db.key? x n := rfl
@[simp] theorem key?_updateRuns {p : JobRun → Bool} :
    (db.updateRuns p f).key? x n = db.key? x n := rfl
@[simp] theorem key?_updateRun : (db.updateRun i f).key? x n = db.key? x n := rfl
@[simp] theorem key?_updateEntry : (db.updateEntry i e).key? x n = db.key? x n := rfl

end Update

/-! ## Inserts -/

section Insert

variable {b : Subscription} {j : ScheduledJob} {r : JobRun} {k : IdempotencyKeyRecord}
  {e : DeadLetterEntry}

theorem sub?_addSub :
    (db.addSub b).sub? x = (db.sub? x).or (if b.id = x then some b else none) :=
  Table.get?_append_single

theorem job?_addJob :
    (db.addJob j).job? x = (db.job? x).or (if j.id = x then some j else none) :=
  Table.get?_append_single

theorem run?_addRun :
    (db.addRun r).run? x = (db.run? x).or (if r.id = x then some r else none) :=
  Table.get?_append_single

theorem key?_addKey :
    (db.addKey k).key? x n =
      (db.key? x n).or (if (k.jobRunId, k.attempt) = (x, n) then some k else none) :=
  Table.get?_append_single

@[simp] theorem run?_addSub : (db.addSub b).run? x = db.run? x := rfl
@[simp] theorem run?_addJob : (db.addJob j).run? x = db.run? x := rfl
@[simp] theorem run?_addKey : (db.addKey k).run? x = db.run? x := rfl
@[simp] theorem run?_addEntry : (db.addEntry e).run? x = db.run? x := rfl
@[simp] theorem job?_addSub : (db.addSub b).job? x = db.job? x := rfl
@[simp] theorem job?_addRun : (db.addRun r).job? x = db.job? x := rfl
@[simp] theorem job?_addKey : (db.addKey k).job? x = db.job? x := rfl
@[simp] theorem job?_addEntry : (db.addEntry e).job? x = db.job? x := rfl
@[simp] theorem sub?_addJob : (db.addJob j).sub? x = db.sub? x := rfl
@[simp] theorem sub?_addRun : (db.addRun r).sub? x = db.sub? x := rfl
@[simp] theorem sub?_addKey : (db.addKey k).sub? x = db.sub? x := rfl
@[simp] theorem sub?_addEntry : (db.addEntry e).sub? x = db.sub? x := rfl
@[simp] theorem key?_addSub : (db.addSub b).key? x n = db.key? x n := rfl
@[simp] theorem key?_addJob : (db.addJob j).key? x n = db.key? x n := rfl
@[simp] theorem key?_addRun : (db.addRun r).key? x n = db.key? x n := rfl
@[simp] theorem key?_addEntry : (db.addEntry e).key? x n = db.key? x n := rfl

/-- An inserted run: the attempt exists already, or it is new and its job exists. -/
theorem insertRun_cases (h : db.insertRun r = some db') :
    (db' = db ∧ ∃ r₀ ∈ db.jobRuns, r₀.jobId = r.jobId ∧ r₀.attempt = r.attempt) ∨
    (db' = db.addRun r ∧ (∀ r₀ ∈ db.jobRuns, r₀.jobId = r.jobId → r₀.attempt ≠ r.attempt) ∧
      db.run? r.id = none ∧ ∃ j, db.job? r.jobId = some j) := by
  unfold insertRun at h
  split at h
  · rename_i hs
    obtain ⟨r₀, hr₀, hs⟩ := List.any_eq_true.mp hs
    simp only [sameAttempt, decide_eq_true_eq] at hs
    cases h
    exact .inl ⟨rfl, r₀, hr₀, hs.1.symm, hs.2.symm⟩
  · rename_i hs
    split at h
    · cases h
    · rename_i hc
      cases h
      refine .inr ⟨rfl, fun r₀ hr₀ hj ha => hs ?_, ?_, ?_⟩
      · refine List.any_eq_true.mpr ⟨r₀, hr₀, ?_⟩
        simp [sameAttempt, hj, ha]
      · cases hr : db.run? r.id with
        | none => rfl
        | some _ => simp [hr] at hc
      · cases hj : db.job? r.jobId with
        | none => simp [hj] at hc
        | some j => exact ⟨j, rfl⟩

/-- An inserted job: the fingerprint exists already, or the job is new in every respect. -/
theorem insertJob_cases {ok : Bool} (h : db.insertJob j = some (ok, db')) :
    (ok = false ∧ db' = db ∧ ∃ j₀ ∈ db.scheduledJobs, j₀.fingerprint = j.fingerprint) ∨
    (ok = true ∧ db' = db.addJob j ∧ (∀ j₀ ∈ db.scheduledJobs, j₀.fingerprint ≠ j.fingerprint) ∧
      (∀ j₀ ∈ db.scheduledJobs, ¬ (j₀.subscriptionId = j.subscriptionId ∧
        j₀.scheduledFor = j.scheduledFor)) ∧
      db.job? j.id = none ∧ ∃ b, db.sub? j.subscriptionId = some b) := by
  unfold insertJob at h
  split at h
  · rename_i hs
    obtain ⟨j₀, hj₀, hs⟩ := List.any_eq_true.mp hs
    cases h
    exact .inl ⟨rfl, rfl, j₀, hj₀, by simpa using hs⟩
  · rename_i hs
    split at h
    · cases h
    · rename_i hc
      cases h
      simp only [List.any_eq_true, sameWindow, decide_eq_true_eq, not_exists, not_and, not_or]
        at hs hc
      refine .inr ⟨rfl, rfl, hs, ?_, ?_, ?_⟩
      · rintro j₀ hj₀ ⟨hb, hf⟩
        exact hc.1 j₀ hj₀ hb.symm hf.symm
      · cases hj : db.job? j.id with
        | none => rfl
        | some _ => simp [hj] at hc
      · cases hb : db.sub? j.subscriptionId with
        | none => simp [hb] at hc
        | some b => exact ⟨b, rfl⟩

/-- An inserted key: the run and attempt have one already, or they had none. -/
theorem insertKey_cases {ok : Bool} (h : db.insertKey k = some (ok, db')) :
    (ok = false ∧ db' = db ∧ ∃ k₀, db.key? k.jobRunId k.attempt = some k₀) ∨
    (ok = true ∧ db' = db.addKey k ∧ db.key? k.jobRunId k.attempt = none ∧
      ∃ r, db.run? k.jobRunId = some r) := by
  unfold insertKey at h
  split at h
  · rename_i hs
    cases h
    exact .inl ⟨rfl, rfl, Option.isSome_iff_exists.mp hs⟩
  · rename_i hs
    split at h
    · cases h
    · rename_i hc
      cases h
      refine .inr ⟨rfl, rfl, by simpa using hs, ?_⟩
      cases hr : db.run? k.jobRunId with
      | none => simp [hr] at hc
      | some r => exact ⟨r, rfl⟩

theorem insertSub_cases (h : db.insertSub b = some db') :
    db' = db.addSub b ∧ db.sub? b.id = none := by
  unfold insertSub at h
  split at h
  · cases h
  · rename_i hs
    cases h
    exact ⟨rfl, by simpa using hs⟩

theorem insertEntry_cases (h : db.insertEntry e = some db') :
    db' = db.addEntry e ∧ db.entry? e.id = none ∧ ∃ r, db.run? e.jobRunId = some r := by
  unfold insertEntry at h
  split at h
  · cases h
  · rename_i hc
    cases h
    rw [not_or] at hc
    refine ⟨rfl, by simpa using hc.1, ?_⟩
    cases hr : db.run? e.jobRunId with
    | none => simp [hr] at hc
    | some r => exact ⟨r, rfl⟩

end Insert

/-! ## Transactions -/

section Txn

variable {run : JobRun} {b : UUID} {now : Time}

theorem run?_claim {workerId : String} {lock : Time} :
    (db.claim i workerId now lock).run? x =
      if x = i then (db.run? x).map fun r => r.claim workerId now lock else db.run? x :=
  run?_updateRun fun _ => rfl

theorem run?_recordSuccess {k : IdempotencyKeyRecord} :
    (db.recordSuccess k run b).run? x =
      if x = run.id then (db.run? x).map fun r => r.succeed k.bunqPaymentId k.createdAt
      else db.run? x := by
  show (db.updateRun run.id _).run? x = _
  exact run?_updateRun fun _ => rfl

theorem job?_recordSuccess {k : IdempotencyKeyRecord} :
    (db.recordSuccess k run b).job? x =
      if x = run.jobId then (db.job? x).map fun j => { j with status := .done } else db.job? x := by
  show (db.updateJob run.jobId _).job? x = _
  exact job?_updateJob fun _ => rfl

theorem run?_markDagCancelled :
    (db.markDagCancelled run now).run? x =
      if x = run.id then (db.run? x).map fun r => r.fail "DAG dependency not satisfied" now
      else db.run? x := by
  show (db.updateRun run.id _).run? x = _
  exact run?_updateRun fun _ => rfl

theorem job?_markDagCancelled :
    (db.markDagCancelled run now).job? x =
      if x = run.jobId then (db.job? x).map fun j => { j with status := .cancelled }
      else db.job? x := by
  show (db.updateJob run.jobId _).job? x = _
  exact job?_updateJob fun _ => rfl

theorem run?_fail {error : String} :
    (db.updateRun i fun r => r.fail error now).run? x =
      if x = i then (db.run? x).map fun r => r.fail error now else db.run? x :=
  run?_updateRun fun _ => rfl

theorem run?_die {reason : String} {clearsWorker : Bool} :
    (db.updateRun i fun r => r.die reason clearsWorker now).run? x =
      if x = i then (db.run? x).map fun r => r.die reason clearsWorker now else db.run? x :=
  run?_updateRun fun _ => rfl

theorem run?_reclaim :
    (db.reclaim i now).run? x =
      if x = i then (db.run? x).map fun r => r.reclaim now else db.run? x :=
  run?_updateRun fun _ => rfl

theorem run?_cancelOrphan {dep : UUID} :
    (db.cancelOrphan i dep now).run? x = (db.run? x).map fun r =>
      if r.jobId = i ∧ r.status = .pending then r.cancel dep now else r := by
  show (db.updateRuns _ _).run? x = _
  rw [run?_updateRuns]
  · simp only [decide_eq_true_eq]
  · exact fun _ => rfl

theorem job?_cancelOrphan {dep : UUID} :
    (db.cancelOrphan i dep now).job? x =
      if x = i then (db.job? x).map fun j => { j with status := .cancelled } else db.job? x := by
  show (db.updateJob i _).job? x = _
  exact job?_updateJob fun _ => rfl

end Txn

/-- `_persist_success` writes nothing where the key exists, and records the success where not. -/
theorem persistSuccess_cases {k : IdempotencyKeyRecord} {run : JobRun} {b : UUID}
    (h : db.persistSuccess k run b = some db') :
    (db' = db ∧ ∃ k₀, db.key? k.jobRunId k.attempt = some k₀) ∨
    (db' = (db.addKey k).recordSuccess k run b ∧ db.key? k.jobRunId k.attempt = none ∧
      ∃ r, db.run? k.jobRunId = some r) := by
  obtain ⟨⟨ok, db₁⟩, h₁, rfl⟩ := Option.map_eq_some_iff.mp h
  obtain ⟨rfl, -, hk⟩ | ⟨rfl, rfl, hk⟩ := insertKey_cases h₁
  · exact .inl ⟨rfl, hk⟩
  · exact .inr ⟨rfl, hk⟩

theorem moveToDlq_cases {e : DeadLetterEntry} {clearsWorker : Bool} {now : Time}
    (h : db.moveToDlq e clearsWorker now = some db') :
    db' = ((db.updateRun e.jobRunId fun r => r.die e.failureReason clearsWorker now).addEntry
      e).countFailure e.subscriptionId now := by
  obtain ⟨db₁, h₁, rfl⟩ := Option.map_eq_some_iff.mp h
  rw [(insertEntry_cases h₁).1]

/-- A window of the scheduler: its job exists, or is inserted with what `insertRun` makes of the
first run. -/
theorem createJobForSubscription_cases {w : WindowWrite}
    (h : db.createJobForSubscription w = some db') :
    ∃ db₁, db' = db₁.updateSub w.subscriptionId (fun b => b.advance w.advance) ∧
      ((db₁ = db ∧ db.insertJob w.job = some (false, db)) ∨
        (db.insertJob w.job = some (true, db.addJob w.job) ∧
          (db.addJob w.job).insertRun (firstRun w.job w.runId) = some db₁)) := by
  obtain ⟨⟨ok, db₂⟩, h₂, h⟩ := Option.bind_eq_some_iff.mp h
  obtain ⟨db₁, h₁, rfl⟩ := Option.map_eq_some_iff.mp h
  refine ⟨db₁, rfl, ?_⟩
  obtain ⟨rfl, rfl, -⟩ | ⟨rfl, rfl, -⟩ := insertJob_cases h₂
  · cases h₁
    exact .inl ⟨rfl, h₂⟩
  · exact .inr ⟨h₂, h₁⟩

theorem produce_cases {j : ScheduledJob} {runId : UUID} (h : db.produce j runId = some db') :
    db.insertJob j = some (true, db.addJob j) ∧
      (db.addJob j).insertRun (firstRun j runId) = some db' := by
  obtain ⟨⟨ok, db₁⟩, h₁, h₂⟩ := Option.bind_eq_some_iff.mp h
  obtain ⟨rfl, -⟩ | ⟨rfl, rfl, -⟩ := insertJob_cases h₁
  · cases h₂
  · exact ⟨h₁, h₂⟩

end Db

end PaymentScheduler
