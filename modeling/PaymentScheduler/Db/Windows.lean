import PaymentScheduler.Db.Chain
import PaymentScheduler.Db.Subscriptions

/-!
# Windows

A window is a subscription and an instant. `scheduled_jobs` has two unique constraints, and the
insert of the scheduler names one of them only: a row that repeats a window with another fingerprint
would be an integrity error (`WindowConflict`). It does not occur where every fingerprint is the one
of its window (`Fingerprinted`):

- `windows_apply`: no two jobs share a window.
- `Fingerprinted.no_conflict`: the insert of a window finds its fingerprint, or no job of it.
- `schedule_succeeds`: a batch with fresh ids is written, and each of its windows has a job.
-/

namespace PaymentScheduler

/-- The window of a job. -/
def ScheduledJob.window (j : ScheduledJob) : UUID × Time := (j.subscriptionId, j.scheduledFor)

/-- The window that a scheduler writes. -/
def WindowWrite.window (w : WindowWrite) : UUID × Time := (w.subscriptionId, w.scheduledFor)

namespace Db

variable {env : Env} {db db' : Db} {x : UUID} {w : WindowWrite} {ws : List WindowWrite} {t : Txn}

theorem insertRun_jobs {r : JobRun} (h : db.insertRun r = some db') :
    db'.scheduledJobs = db.scheduledJobs := by
  obtain ⟨rfl, -⟩ | ⟨rfl, -⟩ := insertRun_cases h <;> rfl

/-! ## Unique windows -/

theorem insertJob_windows {j : ScheduledJob}
    (hu : Table.Unique ScheduledJob.window db.scheduledJobs)
    (h : db.insertJob j = some (true, db')) :
    Table.Unique ScheduledJob.window db'.scheduledJobs := by
  obtain ⟨hf, -⟩ | ⟨-, rfl, -, hwin, -⟩ := insertJob_cases h
  · cases hf
  · refine hu.append_single (Table.get?_none.mpr fun j₀ hj₀ he => ?_)
    simp only [ScheduledJob.window, Prod.mk.injEq] at he
    exact hwin j₀ hj₀ he

theorem schedule_windows (hu : Table.Unique ScheduledJob.window db.scheduledJobs)
    (h : db.schedule ws = some db') : Table.Unique ScheduledJob.window db'.scheduledJobs := by
  induction ws generalizing db with
  | nil =>
    cases h
    exact hu
  | cons w ws ih =>
    obtain ⟨db₁, h₁, h⟩ := Option.bind_eq_some_iff.mp h
    refine ih ?_ h
    obtain ⟨db₂, rfl, ⟨rfl, -⟩ | ⟨hj, hr⟩⟩ := createJobForSubscription_cases h₁
    · exact hu
    · show Table.Unique _ db₂.scheduledJobs
      rw [insertRun_jobs hr]
      exact insertJob_windows hu hj

/-- No two jobs share a window after a transaction, if none did before. -/
theorem windows_apply (hu : Table.Unique ScheduledJob.window db.scheduledJobs)
    (h : t.apply db = some db') : Table.Unique ScheduledJob.window db'.scheduledJobs := by
  have hset : ∀ {d : Db} {p : UUID} {s : JobStatus},
      Table.Unique ScheduledJob.window d.scheduledJobs →
      Table.Unique ScheduledJob.window
        (d.updateJob p fun j => { j with status := s }).scheduledJobs :=
    fun hd => hd.updateWhere fun _ => rfl
  cases t with
  | persistSuccess k run b =>
    obtain ⟨rfl, -⟩ | ⟨rfl, -⟩ := persistSuccess_cases h
    · exact hu
    · exact hset (d := (db.addKey k).updateRun run.id _) hu
  | markDagCancelled run now =>
    cases h
    exact hset (d := db.updateRun run.id _) hu
  | scheduleRetry run error now next =>
    rw [insertRun_jobs h]
    exact hu
  | moveToDlq e clearsWorker now =>
    rw [moveToDlq_cases h]
    exact hu
  | insertAttempt next =>
    rw [insertRun_jobs h]
    exact hu
  | cancelOrphan job dep now =>
    cases h
    exact hset (d := db) hu
  | schedule ws => exact schedule_windows hu h
  | createSubscription b =>
    rw [(insertSub_cases h).1]
    exact hu
  | produce j runId =>
    obtain ⟨h₁, h₂⟩ := produce_cases h
    rw [insertRun_jobs h₂]
    exact insertJob_windows hu h₁
  | _ => cases h; exact hu

/-! ## Columns that no update writes -/

/-- A column of the jobs that no update writes: a transaction appends those of its new jobs. -/
theorem schedule_column {β : Type*} {g : ScheduledJob → β} (h : db.schedule ws = some db') :
    ∃ l, db'.scheduledJobs.map g = db.scheduledJobs.map g ++ l ∧
      ∀ x ∈ l, ∃ w ∈ ws, g w.job = x := by
  induction ws generalizing db with
  | nil =>
    cases h
    exact ⟨[], by simp, nofun⟩
  | cons w ws ih =>
    obtain ⟨db₁, h₁, h⟩ := Option.bind_eq_some_iff.mp h
    obtain ⟨l, hl, hmem⟩ := ih h
    have hw₁ (hmem : ∀ x ∈ l, ∃ w ∈ ws, g w.job = x) (x : β) (hx : x ∈ l) :
        ∃ w' ∈ w :: ws, g w'.job = x := by
      obtain ⟨w', hw', he⟩ := hmem x hx
      exact ⟨w', List.mem_cons_of_mem _ hw', he⟩
    obtain ⟨db₂, rfl, ⟨rfl, -⟩ | ⟨-, hr⟩⟩ := createJobForSubscription_cases h₁
    · exact ⟨l, hl, hw₁ hmem⟩
    · have hjobs : (db₂.updateSub w.subscriptionId fun b => b.advance w.advance).scheduledJobs =
          db.scheduledJobs ++ [w.job] := insertRun_jobs hr
      refine ⟨g w.job :: l, by rw [hl, hjobs]; simp, fun x hx => ?_⟩
      rcases List.mem_cons.mp hx with rfl | hx
      · exact ⟨w, List.mem_cons_self, rfl⟩
      · exact hw₁ hmem x hx

/-- A batch keeps the jobs, and its new ones are those of its windows. -/
theorem schedule_jobs (h : db.schedule ws = some db') {j : ScheduledJob} :
    (j ∈ db.scheduledJobs → j ∈ db'.scheduledJobs) ∧
      (j ∈ db'.scheduledJobs → j ∈ db.scheduledJobs ∨ ∃ w ∈ ws, j = w.job) := by
  obtain ⟨l, hl, hmem⟩ := schedule_column (g := fun j => j) h
  simp only [List.map_id'] at hl
  rw [hl]
  refine ⟨List.mem_append_left l, fun hj => ?_⟩
  rcases List.mem_append.mp hj with hj | hj
  · exact .inl hj
  · obtain ⟨w, hw, rfl⟩ := hmem j hj
    exact .inr ⟨w, hw, rfl⟩

/-- After a batch, each of its fingerprints has a job. -/
theorem schedule_fingerprint (h : db.schedule ws = some db') (hw : w ∈ ws) :
    ∃ j ∈ db'.scheduledJobs, j.fingerprint = w.fingerprint := by
  induction ws generalizing db with
  | nil => cases hw
  | cons w' ws ih =>
    obtain ⟨db₁, h₁, h⟩ := Option.bind_eq_some_iff.mp h
    rcases List.mem_cons.mp hw with rfl | hw
    swap
    · exact ih h hw
    obtain ⟨db₂, rfl, ⟨rfl, hj⟩ | ⟨-, hr⟩⟩ := createJobForSubscription_cases h₁
    · obtain ⟨-, -, j₀, hj₀, he⟩ | ⟨hf, -⟩ := insertJob_cases hj
      · exact ⟨j₀, (schedule_jobs h).1 hj₀, he⟩
      · cases hf
    · have hjobs : (db₂.updateSub w.subscriptionId fun b => b.advance w.advance).scheduledJobs =
          db.scheduledJobs ++ [w.job] := insertRun_jobs hr
      refine ⟨w.job, (schedule_jobs h).1 ?_, rfl⟩
      rw [hjobs]
      exact List.mem_append_right _ (List.mem_singleton_self _)

theorem column_keep {β : Type*} {g : ScheduledJob → β} (hg : ∀ j s, g { j with status := s } = g j)
    (h : t.apply db = some db') (hn : t.newJobs = []) :
    db'.scheduledJobs.map g = db.scheduledJobs.map g := by
  have hset {d : Db} {p : UUID} {s : JobStatus} :
      (d.updateJob p fun j => { j with status := s }).scheduledJobs.map g =
        d.scheduledJobs.map g := Table.map_updateWhere fun j => hg j s
  cases t with
  | persistSuccess k run b =>
    obtain ⟨rfl, -⟩ | ⟨rfl, -⟩ := persistSuccess_cases h
    · rfl
    · exact hset (d := (db.addKey k).updateRun run.id _)
  | markDagCancelled run now =>
    cases h
    exact hset (d := db.updateRun run.id _)
  | scheduleRetry run error now next => rw [insertRun_jobs h]; rfl
  | moveToDlq e clearsWorker now => rw [moveToDlq_cases h]; rfl
  | insertAttempt next => rw [insertRun_jobs h]
  | cancelOrphan job dep now =>
    cases h
    exact hset (d := db)
  | schedule ws =>
    obtain rfl : ws = [] := List.map_eq_nil_iff.mp hn
    cases h
    rfl
  | createSubscription b => rw [(insertSub_cases h).1]; rfl
  | produce j runId => cases hn
  | _ => cases h; rfl

/-! ## Fingerprints -/

/-- The fingerprint of every job is the one of its window. -/
def Fingerprinted (env : Env) (db : Db) : Prop :=
  ∀ j ∈ db.scheduledJobs, j.fingerprint = JobFingerprint.forJob env j.subscriptionId j.scheduledFor

/-- The insert of the job fails on `uq_job_per_window`: the `ON CONFLICT` on `uq_job_fingerprint`
does not apply, and the window has a job. -/
def WindowConflict (db : Db) (j : ScheduledJob) : Prop :=
  (∀ j₀ ∈ db.scheduledJobs, j₀.fingerprint ≠ j.fingerprint) ∧
    ∃ j₀ ∈ db.scheduledJobs, j₀.window = j.window

theorem Fingerprinted.no_conflict (hf : db.Fingerprinted env) {j : ScheduledJob}
    (hj : j.fingerprint = JobFingerprint.forJob env j.subscriptionId j.scheduledFor) :
    ¬ db.WindowConflict j := by
  rintro ⟨hnone, j₀, hj₀, hwin⟩
  simp only [ScheduledJob.window, Prod.mk.injEq] at hwin
  refine hnone j₀ hj₀ ?_
  rw [hf j₀ hj₀, hj, hwin.1, hwin.2]

/-- A batch whose fingerprints are those of its windows keeps all fingerprints so. -/
theorem Fingerprinted.schedule (hf : db.Fingerprinted env)
    (hws : ∀ w ∈ ws, w.job.fingerprint =
      JobFingerprint.forJob env w.job.subscriptionId w.job.scheduledFor)
    (h : db.schedule ws = some db') : db'.Fingerprinted env := by
  induction ws generalizing db with
  | nil =>
    cases h
    exact hf
  | cons w ws ih =>
    obtain ⟨db₁, h₁, h⟩ := Option.bind_eq_some_iff.mp h
    refine ih ?_ (fun w' hw' => hws w' (List.mem_cons_of_mem _ hw')) h
    obtain ⟨db₂, rfl, ⟨rfl, -⟩ | ⟨-, hr⟩⟩ := createJobForSubscription_cases h₁
    · exact hf
    · intro j hj
      rw [show (db₂.updateSub _ _).scheduledJobs = db₂.scheduledJobs from rfl,
        insertRun_jobs hr] at hj
      rcases List.mem_append.mp hj with hj | hj
      · exact hf j hj
      · rw [List.mem_singleton.mp hj]
        exact hws w List.mem_cons_self

/-! ## The windows of a subscription -/

/-- There is a job for the window. -/
def HasWindow (db : Db) (p : UUID × Time) : Prop := ∃ j ∈ db.scheduledJobs, j.window = p

/-- A transaction that inserts no job keeps the windows. -/
theorem hasWindow_keep (hw : db.Wf) (h : t.apply db = some db') (hn : t.newJobs = [])
    {p : UUID × Time} : db'.HasWindow p ↔ db.HasWindow p := by
  have hset : ∀ j, (t.setJob db j).window = j.window := by
    intro j
    rw [ScheduledJob.window, (Txn.setJob_frame j).2.1, (Txn.setJob_frame j).2.2.1]
    rfl
  constructor
  · rintro ⟨j, hj, hp⟩
    rw [(Txn.wf hw h).job?_mem] at hj
    obtain ⟨j₀, hj₀, rfl⟩ | ⟨-, hnew⟩ := Txn.job?_cases h hj
    · exact ⟨j₀, Table.get?_mem hj₀, (hset j₀).symm.trans hp⟩
    · rw [hn] at hnew
      cases hnew
  · rintro ⟨j, hj, hp⟩
    rw [hw.job?_mem] at hj
    exact ⟨t.setJob db j, Table.get?_mem (Txn.job?_set h hj), (hset j).trans hp⟩

/-- The windows after the write of one. -/
theorem createJobForSubscription_windows (hf : db.Fingerprinted env)
    (hh : Function.Injective env.hexdigest)
    (hfp : w.fingerprint = JobFingerprint.forJob env w.subscriptionId w.scheduledFor)
    (h : db.createJobForSubscription w = some db') {p : UUID × Time} :
    db'.HasWindow p ↔ db.HasWindow p ∨ p = w.window := by
  obtain ⟨db₁, rfl, ⟨rfl, hj⟩ | ⟨hj, hr⟩⟩ := createJobForSubscription_cases h
  · -- The fingerprint is there, so the job of the window is.
    obtain ⟨-, -, j₀, hj₀, he⟩ | ⟨hf, -⟩ := insertJob_cases hj
    swap
    · cases hf
    refine (or_iff_left_of_imp ?_).symm
    rintro rfl
    rw [hf j₀ hj₀, show w.job.fingerprint = w.fingerprint from rfl, hfp] at he
    obtain ⟨hs, ht⟩ := JobFingerprint.forJob_inj hh he
    exact ⟨j₀, hj₀, by rw [ScheduledJob.window, hs, ht]; rfl⟩
  · have hjobs : (db₁.updateSub w.subscriptionId fun b => b.advance w.advance).scheduledJobs =
        db.scheduledJobs ++ [w.job] := insertRun_jobs hr
    unfold HasWindow
    simp only [hjobs, List.mem_append, List.mem_singleton, or_and_right, exists_or, exists_eq_left]
    exact or_congr_right eq_comm

/-- The windows after a batch. -/
theorem schedule_hasWindow (hf : db.Fingerprinted env) (hh : Function.Injective env.hexdigest)
    (hfp : ∀ w ∈ ws, w.fingerprint = JobFingerprint.forJob env w.subscriptionId w.scheduledFor)
    (h : db.schedule ws = some db') {p : UUID × Time} :
    db'.HasWindow p ↔ db.HasWindow p ∨ ∃ w ∈ ws, p = w.window := by
  induction ws generalizing db with
  | nil =>
    cases h
    simp
  | cons w ws ih =>
    obtain ⟨db₁, h₁, h⟩ := Option.bind_eq_some_iff.mp h
    have h₁' : db.schedule [w] = some db₁ := by
      rw [Db.schedule, h₁]
      rfl
    have hf₁ := hf.schedule (fun w' hw' => hfp w' (by
      rw [List.mem_singleton.mp hw']
      exact List.mem_cons_self)) h₁'
    rw [ih hf₁ (fun w' hw' => hfp w' (List.mem_cons_of_mem _ hw')) h,
      createJobForSubscription_windows hf hh (hfp w List.mem_cons_self) h₁, or_assoc]
    simp only [List.mem_cons, or_and_right, exists_or, exists_eq_left]

/-! ## Batches -/

/-- The uuids of a batch are fresh. -/
structure FreshIds (db : Db) (ws : List WindowWrite) : Prop where
  jobs : (ws.map (·.jobId)).Nodup
  runs : (ws.map (·.runId)).Nodup
  newJob : ∀ w ∈ ws, db.job? w.jobId = none
  newRun : ∀ w ∈ ws, db.run? w.runId = none

/-- A window with fresh ids is written: a job of the window is there afterwards. -/
theorem createJobForSubscription_succeeds (hw : db.Wf) (hf : db.Fingerprinted env)
    (hh : Function.Injective env.hexdigest)
    (hfp : w.fingerprint = JobFingerprint.forJob env w.subscriptionId w.scheduledFor)
    (hb : ∃ b, db.sub? w.subscriptionId = some b) (hj : db.job? w.jobId = none)
    (hr : db.run? w.runId = none) :
    ∃ db', db.createJobForSubscription w = some db' ∧
      ∃ j ∈ db'.scheduledJobs, j.window = w.window := by
  unfold createJobForSubscription
  by_cases hfound : ∃ j₀ ∈ db.scheduledJobs, j₀.fingerprint = w.fingerprint
  · have hins : db.insertJob w.job = some (false, db) := by
      rw [insertJob, if_pos]
      obtain ⟨j₀, hj₀, he⟩ := hfound
      exact List.any_eq_true.mpr ⟨j₀, hj₀, decide_eq_true he⟩
    rw [hins]
    refine ⟨_, rfl, ?_⟩
    obtain ⟨j₀, hj₀, he⟩ := hfound
    rw [hf j₀ hj₀, hfp] at he
    obtain ⟨hs, ht⟩ := JobFingerprint.forJob_inj hh he
    exact ⟨j₀, hj₀, by rw [ScheduledJob.window, hs, ht]; rfl⟩
  · obtain ⟨b, hb⟩ := hb
    push Not at hfound
    have hins : db.insertJob w.job = some (true, db.addJob w.job) := by
      rw [insertJob, if_neg, if_neg]
      · simp only [List.any_eq_true, sameWindow, decide_eq_true_eq, not_or, not_exists, not_and]
        refine ⟨fun j₀ hj₀ hs ht => ?_, ?_, ?_⟩
        · refine hf.no_conflict (j := w.job) hfp ⟨hfound, j₀, hj₀, ?_⟩
          rw [ScheduledJob.window, ScheduledJob.window, hs, ht]
        · simp [show db.job? w.job.id = none from hj]
        · simp [show db.sub? w.job.subscriptionId = some b from hb]
      · intro hany
        obtain ⟨j₀, hj₀, he⟩ := List.any_eq_true.mp hany
        exact hfound j₀ hj₀ (of_decide_eq_true he)
    have hrun : (db.addJob w.job).insertRun (firstRun w.job w.runId) =
        some ((db.addJob w.job).addRun (firstRun w.job w.runId)) := by
      rw [insertRun, if_neg, if_neg]
      · rw [not_or]
        constructor
        · simp [show (db.addJob w.job).run? (firstRun w.job w.runId).id = none from hr]
        · simp [show (db.addJob w.job).job? (firstRun w.job w.runId).jobId = some w.job by
            rw [job?_addJob, show db.job? (firstRun w.job w.runId).jobId = none from hj]
            simp [firstRun]]
      · intro hany
        obtain ⟨r, hrm, hsame⟩ := List.any_eq_true.mp hany
        simp only [sameAttempt, decide_eq_true_eq] at hsame
        obtain ⟨j, hjr⟩ := hw.runJob r hrm
        rw [← hsame.1, show db.job? (firstRun w.job w.runId).jobId = none from hj] at hjr
        cases hjr
    rw [hins]
    dsimp only [Option.bind_some]
    rw [if_pos rfl, hrun]
    exact ⟨_, rfl, w.job, List.mem_append_right _ (List.mem_singleton_self _), rfl⟩

/-- A batch with fresh ids is written, and each of its windows has a job afterwards. -/
theorem schedule_succeeds (hw : db.Wf) (hf : db.Fingerprinted env)
    (hh : Function.Injective env.hexdigest)
    (hfp : ∀ w ∈ ws, w.fingerprint = JobFingerprint.forJob env w.subscriptionId w.scheduledFor)
    (hb : ∀ w ∈ ws, ∃ b, db.sub? w.subscriptionId = some b) (hfresh : db.FreshIds ws) :
    ∃ db', db.schedule ws = some db' ∧ ∀ w ∈ ws, ∃ j ∈ db'.scheduledJobs, j.window = w.window := by
  induction ws generalizing db with
  | nil => exact ⟨db, rfl, nofun⟩
  | cons w ws ih =>
    obtain ⟨hjobs, hruns, hnj, hnr⟩ := hfresh
    rw [List.map_cons, List.nodup_cons] at hjobs hruns
    have hhead : w ∈ w :: ws := List.mem_cons_self
    have htail : ∀ {w'}, w' ∈ ws → w' ∈ w :: ws := List.mem_cons_of_mem _
    obtain ⟨db₁, h₁, j₁, hj₁, hwin₁⟩ := createJobForSubscription_succeeds hw hf hh (hfp w hhead)
      (hb w hhead) (hnj w hhead) (hnr w hhead)
    have h₁' : db.schedule [w] = some db₁ := by
      rw [Db.schedule, h₁]
      rfl
    have hw₁ := hw.createJobForSubscription h₁
    have hf₁ := hf.schedule (fun w' hw' => hfp w' (by
      rw [List.mem_singleton.mp hw']
      exact hhead)) h₁'
    have hb₁ : ∀ w' ∈ ws, ∃ b, db₁.sub? w'.subscriptionId = some b := by
      intro w' hw'
      obtain ⟨b, hb⟩ := hb w' (htail hw')
      rw [createJobForSubscription_sub? h₁, sub?_updateSub, hb]
      · split <;> exact ⟨_, rfl⟩
      · intro b'
        cases w.advance <;> rfl
    have hfresh₁ : db₁.FreshIds ws := by
      refine ⟨hjobs.2, hruns.2, fun w' hw' => ?_, fun w' hw' => ?_⟩
      · cases hj : db₁.job? w'.jobId with
        | none => rfl
        | some j =>
          have := (createJobForSubscription_job? h₁).2 j (hnj w' (htail hw')) hj
          refine absurd (List.mem_map_of_mem hw') (?_ : w'.jobId ∉ _)
          rw [← job?_id hj, this]
          exact hjobs.1
      · cases hr : db₁.run? w'.runId with
        | none => rfl
        | some r =>
          have := (createJobForSubscription_run? h₁).2 r (hnr w' (htail hw')) hr
          refine absurd (List.mem_map_of_mem hw') (?_ : w'.runId ∉ _)
          rw [← run?_id hr, this]
          exact hruns.1
    obtain ⟨db', h', hall⟩ := ih hw₁ hf₁ (fun w' hw' => hfp w' (htail hw')) hb₁ hfresh₁
    refine ⟨db', by rw [Db.schedule, h₁]; exact h', fun w' hw' => ?_⟩
    rcases List.mem_cons.mp hw' with rfl | hw'
    · rw [hw₁.job?_mem] at hj₁
      exact ⟨j₁, Table.get?_mem ((schedule_job? h').1 j₁ hj₁), hwin₁⟩
    · exact hall w' hw'

end Db

end PaymentScheduler
