import PaymentScheduler.System.Ownership

/-!
# The records of a success

A success is written to three tables: the run is SUCCEEDED, its key is stored, and the job is DONE
(`Db.Agree`). Three writes do not look at the status of what they overwrite: the dead letter of a
recovery worker, and the two cancellations of a job. `Txn.SparesSuccess` says that they do not hit
a success.

- `Db.Agree.step`: a transaction that spares successes keeps the records in agreement.
- `Db.Agree.spared`: one that does not spare them breaks it.
- `along_sparesSuccess_iff`: both for every run of the system.
-/

namespace PaymentScheduler

/-- Jobs, runs and keys agree about success. -/
structure Db.Agree (db : Db) : Prop where
  done : ∀ j ∈ db.scheduledJobs,
    (j.status = .done ↔ ∃ r ∈ db.jobRuns, r.jobId = j.id ∧ r.status = .succeeded)
  keyed : ∀ k ∈ db.idempotencyKeys, ∀ r ∈ db.jobRuns,
    r.id = k.jobRunId → r.attempt = k.attempt → r.status = .succeeded
  paid : ∀ r ∈ db.jobRuns, r.status = .succeeded → ∃ k ∈ db.idempotencyKeys,
    k.jobRunId = r.id ∧ k.attempt = r.attempt ∧ k.bunqPaymentId = r.bunqPaymentId

instance (db : Db) : Decidable db.Agree :=
  decidable_of_iff
    ((∀ j ∈ db.scheduledJobs,
      (j.status = .done ↔ ∃ r ∈ db.jobRuns, r.jobId = j.id ∧ r.status = .succeeded)) ∧
    (∀ k ∈ db.idempotencyKeys, ∀ r ∈ db.jobRuns,
      r.id = k.jobRunId → r.attempt = k.attempt → r.status = .succeeded) ∧
    ∀ r ∈ db.jobRuns, r.status = .succeeded → ∃ k ∈ db.idempotencyKeys,
      k.jobRunId = r.id ∧ k.attempt = r.attempt ∧ k.bunqPaymentId = r.bunqPaymentId)
    ⟨fun ⟨hd, hk, hp⟩ => ⟨hd, hk, hp⟩, fun h => ⟨h.done, h.keyed, h.paid⟩⟩

namespace Txn

/-- The write does not hit a success: a recovery worker does not bury a SUCCEEDED run, and nobody
cancels a DONE job. -/
def SparesSuccess (db : Db) : Txn → Prop
  | moveToDlq e true _ => ∀ r, db.run? e.jobRunId = some r → r.status ≠ .succeeded
  | markDagCancelled run _ => ∀ j, db.job? run.jobId = some j → j.status ≠ .done
  | cancelOrphan job _ _ => ∀ j, db.job? job = some j → j.status ≠ .done
  | _ => True

variable {db db' : Db} {t : Txn} {x : UUID}

/-! ## The writes on successes -/

/-- A SUCCEEDED run stays so, except for the dead letter of a recovery worker. -/
theorem Guard.setRun_stays (hk : db.Keyed) (hg : t.Guard db) {r : JobRun}
    (hr : db.run? x = some r) (hs : r.status = .succeeded) :
    (t.setRun db r).status = .succeeded ∨
      ∃ e now, t = moveToDlq e true now ∧ e.jobRunId = x := by
  obtain ⟨k, hkey, -⟩ := hk.succeeded hr hs
  have hid := Db.run?_id hr
  by_cases hm : ∃ e now, t = moveToDlq e true now ∧ e.jobRunId = x
  · exact .inr hm
  · left
    obtain hs' | hd := hg.setRun_keyed hr hkey (.inl hs)
    · exact hs'
    · -- Only a dead letter makes a run DEAD, and the executor's is for a run without a key.
      cases t with
      | moveToDlq e clearsWorker now =>
        simp only [setRun] at hd ⊢
        split at hd
        · rename_i hx
          cases clearsWorker with
          | true => exact absurd ⟨e, now, rfl, by rw [← hx, hid]⟩ hm
          | false =>
            obtain ⟨_, -, -, hn⟩ := hg.1 rfl
            rw [← hid, hx, hn] at hkey
            cases hkey
        · rw [hs] at hd
          cases hd
      | _ =>
        simp only [setRun] at hd
        first
          | (rw [hs] at hd; cases hd)
          | (split at hd
             · cases hd
             · rw [hs] at hd; cases hd)

/-- A job is DONE after a transaction if it was, or if a success has been recorded for it. -/
theorem setJob_done {j : ScheduledJob} (h : (t.setJob db j).status = .done) :
    j.status = .done ∨
      ∃ k run b, t = persistSuccess k run b ∧ j.id = run.jobId ∧
        db.key? k.jobRunId k.attempt = none := by
  cases t with
  | persistSuccess k run b =>
    by_cases hc : j.id = run.jobId ∧ db.key? k.jobRunId k.attempt = none
    · exact .inr ⟨k, run, b, rfl, hc⟩
    · left
      rwa [setJob, if_neg hc] at h
  | markDagCancelled run now =>
    simp only [setJob] at h
    split at h
    · cases h
    · exact .inl h
  | cancelOrphan job dep now =>
    simp only [setJob] at h
    split at h
    · cases h
    · exact .inl h
  | _ => exact .inl h

/-- A DONE job stays so, where the transaction spares it. -/
theorem SparesSuccess.setJob (hc : t.SparesSuccess db) {j : ScheduledJob} (hj : db.job? x = some j)
    (hd : j.status = .done) : (t.setJob db j).status = .done := by
  have hid := Db.job?_id hj
  cases t with
  | persistSuccess k run b =>
    simp only [Txn.setJob]
    split
    · rfl
    · exact hd
  | markDagCancelled run now =>
    simp only [Txn.setJob]
    split
    · rename_i he
      rw [← hid, he] at hj
      exact absurd hd (hc j hj)
    · exact hd
  | cancelOrphan job dep now =>
    simp only [Txn.setJob]
    split
    · rename_i he
      rw [← hid, he] at hj
      exact absurd hd (hc j hj)
    · exact hd
  | _ => exact hd

/-- An inserted job is not DONE. -/
theorem Guard.newJobs_isOpen (hg : t.Guard db) {j : ScheduledJob} (h : j ∈ t.newJobs) :
    j.status.isOpen = true := by
  cases t with
  | schedule ws =>
    obtain ⟨w, -, rfl⟩ := List.mem_map.mp h
    rfl
  | produce j' runId =>
    rw [List.mem_singleton.mp h]
    exact hg
  | _ => cases h

end Txn

namespace Db

variable {db db' : Db} {t : Txn}

theorem Agree.empty : Agree {} := by decide

/-- A transaction that spares successes keeps the records in agreement. -/
theorem Agree.step (ha : db.Agree) (hw : db.Wf) (hk : db.Keyed) (hg : t.Guard db)
    (hc : t.SparesSuccess db) (h : t.apply db = some db') : db'.Agree := by
  have hw' := Txn.wf hw h
  have hk' := hk.step hg h
  -- A SUCCEEDED run of before is one of after.
  have hstay : ∀ {x r}, db.run? x = some r → r.status = .succeeded →
      (t.setRun db r).status = .succeeded := by
    intro x r hr hs
    obtain hs' | ⟨e, now, rfl, rfl⟩ := hg.setRun_stays hk hr hs
    · exact hs'
    · exact absurd hs (hc r hr)
  constructor
  · intro j' hj'
    rw [hw'.job?_mem] at hj'
    obtain ⟨j, hj, hset⟩ | ⟨hnone, hnew⟩ := Txn.job?_cases h hj'
    · have hid : j.id = j'.id := Db.job?_id hj
      have hjd := ha.done j (Table.get?_mem hj)
      constructor
      · intro hd
        rw [hset] at hd
        obtain hd | ⟨k, run, b, rfl, he, hn⟩ := Txn.setJob_done hd
        · obtain ⟨r, hr, hrj, hrs⟩ := hjd.mp hd
          rw [hw.run?_mem] at hr
          refine ⟨_, Table.get?_mem (Txn.run?_set h hr), ?_, hstay hr hrs⟩
          rw [Txn.setRun_jobId, hrj, hid]
        · obtain ⟨-, -, -, r, -, hr, hrj, -⟩ := hg
          refine ⟨_, Table.get?_mem (Txn.run?_set h hr), ?_, ?_⟩
          · rw [Txn.setRun_jobId, hrj, ← he, hid]
          · simp only [Txn.setRun, run?_id hr, hn, and_self, if_true]
            rfl
      · rintro ⟨r', hr', hrj, hrs⟩
        rw [hw'.run?_mem] at hr'
        obtain ⟨r, hr, rfl⟩ | ⟨-, hnew⟩ := Txn.run?_cases h hr'
        · rw [Txn.setRun_jobId, ← hid] at hrj
          rw [hset]
          obtain he | ⟨k, run, b, rfl, he, hn, -⟩ := Txn.setRun_succeeded hrs
          · rw [he] at hrs
            exact hc.setJob hj (hjd.mpr ⟨r, Table.get?_mem hr, hrj, hrs⟩)
          · obtain ⟨-, -, -, r₀, -, hr₀, hrj₀, -⟩ := hg
            rw [← he, run?_id hr, hr] at hr₀
            cases hr₀
            rw [Txn.setJob, if_pos ⟨by rw [← hrj, hrj₀], hn⟩]
        · rw [hg.newRuns_pending hnew] at hrs
          cases hrs
    · -- A new job is open, and it has no run of before.
      have ho := hg.newJobs_isOpen hnew
      refine iff_of_false (fun hd => by rw [hd] at ho; cases ho) ?_
      rintro ⟨r', hr', hrj, hrs⟩
      rw [hw'.run?_mem] at hr'
      obtain ⟨r, hr, rfl⟩ | ⟨-, hnew⟩ := Txn.run?_cases h hr'
      · obtain ⟨j, hj⟩ := hw.runJob r (Table.get?_mem hr)
        rw [Txn.setRun_jobId] at hrj
        rw [hrj, hnone] at hj
        cases hj
      · rw [hg.newRuns_pending hnew] at hrs
        cases hrs
  · intro k hkm r' hr' hid hn
    rw [hw'.key?_mem] at hkm
    rw [hw'.run?_mem, hid] at hr'
    obtain he | ⟨k', run, b, rfl, hx, hn', hnone, -⟩ :=
      Txn.key?_cases (x := k.jobRunId) (n := k.attempt) h
    · rw [he] at hkm
      obtain ⟨r, -, hr, hra, -⟩ := hk.keyed hkm
      rw [Txn.run?_set h hr] at hr'
      cases hr'
      refine hstay hr (ha.keyed k (Table.get?_mem hkm) r (Table.get?_mem hr) (run?_id hr) hra)
    · obtain ⟨hkid, -, -, r, -, hr, -⟩ := hg
      rw [← hx, hkid, Txn.run?_set h hr] at hr'
      cases hr'
      rw [← hx, ← hn'] at hnone
      simp only [Txn.setRun, run?_id hr, hnone, and_self, if_true]
      rfl
  · intro r hr hs
    rw [hw'.run?_mem] at hr
    obtain ⟨k, hkey, hp⟩ := hk'.succeeded hr hs
    refine ⟨k, Table.get?_mem hkey, ?_⟩
    have := Table.get?_key hkey
    simp only [Prod.mk.injEq] at this
    exact ⟨this.1, this.2, hp⟩

/-- A job that is cancelled has been DONE: its SUCCEEDED run is still there. -/
theorem Agree.job_spared (ha : db.Agree) (ha' : db'.Agree) (hw : db.Wf) (hk : db.Keyed)
    (hg : t.Guard db) (h : t.apply db = some db') (hm : ∀ e now, t ≠ .moveToDlq e true now)
    {x : UUID} {j : ScheduledJob} (hj : db.job? x = some j)
    (hset : (t.setJob db j).status = .cancelled) : j.status ≠ .done := by
  intro hd
  obtain ⟨r, hr, hrj, hrs⟩ := (ha.done j (Table.get?_mem hj)).mp hd
  rw [hw.run?_mem] at hr
  have hrs' : (t.setRun db r).status = .succeeded := by
    obtain hs | ⟨e, now, ht, -⟩ := hg.setRun_stays hk hr hrs
    · exact hs
    · exact absurd ht (hm e now)
  have hd' := (ha'.done _ (Table.get?_mem (Txn.job?_set h hj))).mpr
    ⟨_, Table.get?_mem (Txn.run?_set h hr),
      by rw [Txn.setRun_jobId, hrj, (Txn.setJob_frame j).1], hrs'⟩
  rw [hset] at hd'
  cases hd'

/-- A transaction that keeps the records in agreement spares successes. -/
theorem Agree.spared (ha : db.Agree) (ha' : db'.Agree) (hw : db.Wf) (hk : db.Keyed)
    (hg : t.Guard db) (h : t.apply db = some db') : t.SparesSuccess db := by
  cases t with
  | moveToDlq e clearsWorker now =>
    cases clearsWorker with
    | false => trivial
    | true =>
      intro r hr hs
      obtain ⟨k, hkey, -⟩ := hk.succeeded hr hs
      have hset := Txn.run?_set h hr
      have hd := ha'.keyed k (Table.get?_mem (Txn.key?_keep h hkey)) _ (Table.get?_mem hset)
      have hkk := Table.get?_key hkey
      simp only [Prod.mk.injEq] at hkk
      have := hd (by rw [Txn.setRun_id, run?_id hr, hkk.1]) (by rw [Txn.setRun_attempt, hkk.2])
      simp only [Txn.setRun, run?_id hr, if_true] at this
      cases this
  | markDagCancelled run now =>
    intro j hj
    refine ha.job_spared ha' hw hk hg h (fun _ _ ht => by cases ht) hj ?_
    rw [Txn.setJob, if_pos (job?_id hj)]
  | cancelOrphan job dep now =>
    intro j hj
    refine ha.job_spared ha' hw hk hg h (fun _ _ ht => by cases ht) hj ?_
    rw [Txn.setJob, if_pos (job?_id hj)]
  | _ => trivial

end Db

namespace Sys

variable {env : Env} {s s' : Sys}

/-- A step keeps the records in agreement iff its transaction spares successes. -/
theorem Owned.agree_iff (hI : Owned s) (ha : s.db.Agree) {a : Action}
    (h : s.step env a = some s') : OnCommit env Txn.SparesSuccess s a s' ↔ s'.db.Agree := by
  refine onCommit_iff h ha fun t ht hc => ?_
  have hg := hI.guard h ht
  constructor
  · exact fun hP => ha.step hI.wf hI.keyed hg hP hc
  · exact fun ha' => ha.spared ha' hI.wf hI.keyed hg hc

/-- In every run of the system: jobs, runs and keys agree in every state iff every write spares
the successes that it finds. -/
theorem along_sparesSuccess_iff (env : Env) (as : List Action) :
    Lts.Along (step env) (OnCommit env Txn.SparesSuccess) init as ↔
      Lts.Always (step env) (fun s => s.db.Agree) init as :=
  Lts.along_iff_always (fun hI hs => hI.step hs) (fun hI hq hs => hI.agree_iff hq hs) Owned.init
    Db.Agree.empty

end Sys

namespace Demo

/-- The only attempt of a run is taken by the recovery worker, the executor records its success,
and then the recovery worker buries the run. -/
def buriedSuccess : List Action :=
  opening single ++ reclaimed ++
    [.execute 0 (.call true (.returned response)), .execute 0 .persist,
      .recover 0 (.route entryId)]

theorem buriedSuccess_disagrees :
    ¬ Lts.Always (Sys.step env) (fun s => s.db.Agree) Sys.init buriedSuccess := by
  decide +kernel

end Demo

end PaymentScheduler
