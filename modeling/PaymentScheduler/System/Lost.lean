import PaymentScheduler.System.Attempts
import PaymentScheduler.System.DeadLetters

/-!
# No job is lost

An open job is kept alive by its last attempt: it is PENDING or RUNNING, or it is DEAD and has a
dead letter, or it is FAILED and a worker still works on it. The last case is in no row: a recovery
worker has committed the compare-and-set, and inserts the next attempt in a second transaction. If
it ends in between, and no slow executor is left on the run either, nobody picks the job up again
(`Sys.Relieved` excludes this).

- `Guard.latest_fate`: what a transaction makes of the last attempt of an open job.
- `Owned.worked_step`: a worker lets a FAILED run go with a write, or where another one has it.
- `open_jobs_served`: in every run of the system whose steps are `Relieved`, an open job that no
  worker works on is served.
-/

namespace PaymentScheduler

/-! ## Transactions -/

namespace Db

/-- The run is PENDING or RUNNING, or it is DEAD and has a dead letter. -/
def Rests (db : Db) (x : UUID) (r : JobRun) : Prop :=
  r.status.isLive = true ∨ (r.status = .dead ∧ 0 < db.entryCount x)

end Db

namespace Txn

variable {db db' : Db} {t : Txn} {x : UUID} {r : JobRun}

/-- A run that the transaction does not bring to an end is claimed, taken by a recovery worker,
cancelled with its job, or left as it is. -/
theorem setRun_of_not_ended (hr : db.run? x = some r) (he : t.ended? ≠ some x) :
    t.setRun db r = r ∨ (t.setRun db r).status = .running ∨ (∃ now, t = reclaim x now) ∨
      ∃ dep now, t = cancelOrphan r.jobId dep now := by
  have hid := Db.run?_id hr
  subst hid
  cases t with
  | claim run workerId now lock =>
    by_cases hrun : r.id = run
    · exact .inr (.inl (by simp [setRun, hrun]))
    · exact .inl (if_neg hrun)
  | persistSuccess k run b =>
    refine .inl (if_neg fun hc => he ?_)
    rw [ended?, hc.1]
  | markDagCancelled run now =>
    refine .inl (if_neg fun hc => he ?_)
    rw [ended?, hc]
  | scheduleRetry run error now next =>
    refine .inl (if_neg fun hc => he ?_)
    rw [ended?, hc]
  | moveToDlq e clearsWorker now =>
    refine .inl (if_neg fun hc => he ?_)
    rw [ended?, hc]
  | reclaim run now =>
    by_cases hrun : r.id = run
    · exact .inr (.inr (.inl ⟨now, by rw [hrun]⟩))
    · exact .inl (if_neg hrun)
  | cancelOrphan job dep now =>
    by_cases hc : r.jobId = job ∧ r.status = .pending
    · exact .inr (.inr (.inr ⟨dep, now, by rw [hc.1]⟩))
    · exact .inl (if_neg hc)
  | _ => exact .inl rfl

/-- What a transaction makes of the last attempt of a job that stays open: there is a last attempt
that rests, or it is FAILED, not by the end of its run, and has no next attempt. -/
theorem Guard.latest_fate (hw : db.Wf) (hc : db.Chain) (hg : t.Guard db)
    (h : t.apply db = some db') (hl : db.Latest x r) {job : ScheduledJob}
    (hj : db.job? r.jobId = some job) (ho : (t.setJob db job).status.isOpen = true)
    (hr : db.Rests x r ∨ r.status = .failed) :
    (∃ y r', db'.Latest y r' ∧ r'.jobId = r.jobId ∧ db'.Rests y r') ∨
    (db'.Latest x (t.setRun db r) ∧ (t.setRun db r).status = .failed ∧ t.ended? ≠ some x ∧
      (∀ next, t.next? = some next → next.jobId = r.jobId → next.attempt ≤ r.attempt) ∧
      (r.status = .failed ∨ ∃ now, t = reclaim x now)) := by
  obtain hl' | ⟨y, r', hn, -, hl', hj'⟩ := hl.step hc hw hg h
  · -- No next attempt has been inserted.
    have hnext : ∀ next, t.next? = some next → next.jobId = r.jobId → next.attempt ≤ r.attempt := by
      intro next hn hnj
      obtain ⟨y, r', hr', hj', ha'⟩ := next_exists hw h hn
      have hle := hl'.2 y r' hr' (by rw [setRun_jobId, hj', hnj])
      rw [setRun_attempt] at hle
      omega
    by_cases hd : x ∈ t.deadRuns
    · refine .inl ⟨x, _, hl', setRun_jobId r, .inr ⟨?_, ?_⟩⟩
      · exact (hg.setRun_dead_iff hl.1).mpr (.inl hd)
      · rw [Db.entryCount_apply h, if_pos hd]
        omega
    · by_cases he : t.ended? = some x
      · -- The end of the run would have closed the job, or inserted the next attempt.
        exfalso
        have hjid := Db.job?_id hj
        cases t with
        | persistSuccess k run b =>
          cases he
          obtain ⟨hkid, -, ⟨-, -, -, hnone⟩, r₀, -, hr₀, hj₀, -⟩ := hg
          rw [hl.1] at hr₀
          cases hr₀
          rw [setJob, if_pos ⟨hjid.trans hj₀, by rw [hkid, hnone]⟩] at ho
          cases ho
        | markDagCancelled run now =>
          cases he
          obtain ⟨-, b, r₀, -, hr₀, hj₀, -⟩ := hg
          rw [hl.1] at hr₀
          cases hr₀
          rw [setJob, if_pos (hjid.trans hj₀)] at ho
          cases ho
        | scheduleRetry run error now next =>
          cases he
          obtain ⟨-, r₀, hr₀, hnj, hna, -⟩ := hg
          rw [hl.1] at hr₀
          cases hr₀
          have := hnext next rfl hnj
          omega
        | moveToDlq e clearsWorker now =>
          cases he
          exact hd (List.mem_singleton_self _)
        | _ => cases he
      · obtain hsame | hrun | ⟨now, rfl⟩ | ⟨dep, now, rfl⟩ := setRun_of_not_ended hl.1 he
        · rw [hsame] at hl' ⊢
          obtain (hlive | ⟨hdead, hpos⟩) | hfail := hr
          · exact .inl ⟨x, r, hl', rfl, .inl hlive⟩
          · refine .inl ⟨x, r, hl', rfl, .inr ⟨hdead, ?_⟩⟩
            rw [Db.entryCount_apply h]
            omega
          · exact .inr ⟨hl', hfail, he, hnext, .inl hfail⟩
        · exact .inl ⟨x, _, hl', setRun_jobId r, .inl (by rw [hrun]; rfl)⟩
        · refine .inr ⟨hl', ?_, he, hnext, .inr ⟨now, rfl⟩⟩
          rw [setRun, if_pos (Db.run?_id hl.1)]
          rfl
        · exfalso
          rw [setJob, if_pos (Db.job?_id hj)] at ho
          cases ho
  · refine .inl ⟨y, r', hl', hj', .inl ?_⟩
    obtain ⟨-, -, -, ⟨-, -, hp⟩, -⟩ := hg.next hn
    rw [hp]
    rfl

end Txn

/-! ## Workers -/

/-- An executor lets its run go with a write that brings it to an end, or without any. -/
theorem Executor.Move.let_go {env : Env} {w : Nat} {db : Db} {now : Time}
    {p p' : Executor.Phase} {a : Executor.Action} {t : Option Txn} {x : UUID}
    (h : Executor.Move env w db now p a p' t) (hx : p.run? = some x) :
    p'.run? = some x ∨ (∃ t', t = some t' ∧ t'.ended? = some x) ∨ a.drops = true ∨
      Executor.loadRun db x = none := by
  cases h with
  | stay | claim => cases hx
  | load hc hp =>
    left
    cases hx
    have hid := Db.run?_id (Executor.loadRun_eq hc).1
    obtain rfl | rfl := hp <;> exact congrArg some hid
  | reject hc =>
    left
    cases hx
    exact congrArg some (Db.run?_id (Executor.loadRun_eq hc).1)
  | cancelDag => exact .inr (.inl ⟨_, rfl, hx⟩)
  | persist ht =>
    obtain ⟨v, -, rfl⟩ := Option.map_eq_some_iff.mp ht
    exact .inr (.inl ⟨_, rfl, hx⟩)
  | fail ht =>
    obtain ⟨-, -, retryAfter, rfl⟩ | rfl := Executor.handleFailure_cases ht
    · exact .inr (.inl ⟨_, rfl, hx⟩)
    · exact .inr (.inl ⟨_, rfl, hx⟩)
  | missing hc =>
    cases hx
    exact .inr (.inr (.inr hc))
  | drop ha => exact .inr (.inr (.inl ha))
  | _ => exact .inl hx

/-- A recovery worker lets its run go with a dead letter, with the next attempt, or by its end. -/
theorem Recovery.Move.let_go {db : Db} {now : Time} {p' : Recovery.Phase} {a : Recovery.Action}
    {t : Option Txn} {x job : UUID} {n : Int} {b : Subscription}
    (h : Recovery.Move db now (.claimed x job n b) a p' t) :
    a = .crash ∨ ∃ t', t = some t' ∧ (t'.ended? = some x ∨
      ∃ next, t'.next? = some next ∧ next.jobId = job ∧ next.attempt = n + 1) := by
  cases h with
  | look hp => cases hp
  | route =>
    refine .inr ⟨_, rfl, ?_⟩
    unfold Recovery.route
    split
    · exact .inl rfl
    · exact .inr ⟨_, rfl, rfl, rfl⟩
  | crash => exact .inl rfl

theorem Executor.Move.not_reclaim {env : Env} {w : Nat} {db : Db} {now since : Time}
    {p p' : Executor.Phase} {a : Executor.Action} {x : UUID} :
    ¬ Executor.Move env w db now p a p' (some (.reclaim x since)) := by
  intro h
  generalize ht : some (Txn.reclaim x since) = t at h
  cases h with
  | persist hp =>
    obtain ⟨v, -, rfl⟩ := Option.map_eq_some_iff.mp hp
    cases ht
  | fail hf =>
    obtain ⟨-, -, retryAfter, rfl⟩ | rfl := Executor.handleFailure_cases hf <;> cases ht
  | _ => cases ht

namespace Sys

/-- A worker works on the run. -/
def Worked (s : Sys) (x : UUID) : Prop := (∃ w, s.Holds w x) ∨ ∃ v, s.Takes v x

/-- The run that a worker stops to work on, with an action that writes nothing. -/
def dropped? (s : Sys) : Action → Option UUID
  | .execute w b => if b.drops then (s.executors w).phase.run? else none
  | .recover v .crash => (s.recoveries v).phase.run?
  | _ => none

/-- The worker whose process or attempt ends has not been the last one on the FAILED last attempt
of an open job. -/
def Relieved (s : Sys) (a : Action) (_ : Sys) : Prop :=
  ∀ x r job, s.dropped? a = some x → s.db.Latest x r → r.status = .failed →
    s.db.job? r.jobId = some job → job.status.isOpen = true →
    (∃ w, s.Holds w x ∧ ∀ b, a ≠ .execute w b) ∨ ∃ v, s.Takes v x ∧ ∀ b, a ≠ .recover v b

/-- No worker is in the middle of an operation on the job. -/
def Quiet (s : Sys) (j : UUID) : Prop :=
  (∀ w x r, s.Holds w x → s.db.run? x = some r → r.jobId ≠ j) ∧
    ∀ v, (s.recoveries v).phase.job? ≠ some j

variable {env : Env} {s s' : Sys} {a : Action} {x : UUID} {r : JobRun}

theorem Holds.keep {w : Nat} (hx : s.Holds w x) (hw : ∀ b, a ≠ .execute w b)
    (h : s.step env a = some s') : s'.Worked x :=
  .inl ⟨w, by rwa [Holds, step_executor hw h]⟩

theorem Takes.keep {v : Nat} (hx : s.Takes v x) (hv : ∀ b, a ≠ .recover v b)
    (h : s.step env a = some s') : s'.Worked x :=
  .inr ⟨v, by rwa [Takes, step_recovery hv h]⟩

/-- The run that a worker works on is still worked on, where it has not been brought to an end, it
has no next attempt, and the worker that lets it go is not the last one. -/
theorem Owned.worked_step (hI : Owned s) (h : s.step env a = some s') (hx : s.Worked x)
    (hr : s.db.run? x = some r)
    (hend : ∀ t, s.txn? env a = some t → t.ended? ≠ some x ∧
      ∀ next, t.next? = some next → next.jobId = r.jobId → next.attempt ≤ r.attempt)
    (hdrop : s.dropped? a = some x →
      (∃ w, s.Holds w x ∧ ∀ b, a ≠ .execute w b) ∨ ∃ v, s.Takes v x ∧ ∀ b, a ≠ .recover v b) :
    s'.Worked x := by
  by_cases hd : s.dropped? a = some x
  · obtain ⟨w, hw, hne⟩ | ⟨v, hv, hne⟩ := hdrop hd
    · exact hw.keep hne h
    · exact hv.keep hne h
  · obtain ⟨w, hw⟩ | ⟨v, hv⟩ := hx
    · by_cases hne : ∀ b, a ≠ .execute w b
      · exact hw.keep hne h
      · obtain ⟨b, rfl⟩ : ∃ b, a = .execute w b := by simpa using hne
        obtain ⟨st, t, db', hst, ht, -, rfl⟩ := Sys.step_execute h
        obtain hx | ⟨t', rfl, he⟩ | hb | hload := (Executor.step_move hst).let_go hw
        · exact .inl ⟨w, by rw [Holds]; simpa using hx⟩
        · exact absurd he (hend t' ht).1
        · exact absurd (by rw [dropped?, if_pos hb]; exact hw) hd
        · obtain ⟨j, hj⟩ := hI.wf.runJob r (Table.get?_mem hr)
          obtain ⟨b', hb'⟩ := hI.wf.jobSub j (Table.get?_mem hj)
          simp [Executor.loadRun, hr, hj, hb'] at hload
    · by_cases hne : ∀ b, a ≠ .recover v b
      · exact hv.keep hne h
      · obtain ⟨b, rfl⟩ : ∃ b, a = .recover v b := by simpa using hne
        obtain ⟨st, t, db', hst, ht, -, rfl⟩ := Sys.step_recover h
        have hm := Recovery.step_move hst
        cases hp : (s.recoveries v).phase <;> rw [Takes, hp] at hv <;> cases hv
        rw [hp] at hm
        obtain ⟨r₀, -, hr₀, hj₀, ha₀, -⟩ := hI.taken hp
        rw [hr] at hr₀
        cases hr₀
        obtain rfl | ⟨t', rfl, he | ⟨next, hn, hnj, hna⟩⟩ := hm.let_go
        · exact absurd (by rw [dropped?, hp]; rfl) hd
        · exact absurd he (hend t' ht).1
        · have := (hend t' ht).2 next hn (hnj.trans hj₀.symm)
          omega

/-- A run that a recovery worker takes is worked on. -/
theorem Owned.worked_reclaim (hI : Owned s) (h : s.step env a = some s') {since : Time}
    (ht : s.txn? env a = some (.reclaim x since)) : s'.Worked x := by
  induction a using step_kind with
  | execute w b =>
    obtain ⟨st, t, db', hst, ht', -, -⟩ := Sys.step_execute h
    rw [ht] at ht'
    subst ht'
    exact absurd (Executor.step_move hst) Executor.Move.not_reclaim
  | recover v b =>
    obtain ⟨st, t, db', hst, ht', -, rfl⟩ := Sys.step_recover h
    rw [ht] at ht'
    have hm := Recovery.step_move hst
    rw [← ht'] at hm
    refine .inr ⟨v, ?_⟩
    simp only [Takes, Function.update_self]
    generalize (s.recoveries v).phase = p at hm
    generalize st.phase = p' at hm
    generalize ht₀ : some (Txn.reclaim x since) = t₀ at hm
    cases hm with
    | reclaim hr hs hj hb =>
      cases ht₀
      rfl
    | abandon hr hs hb =>
      -- The foreign keys exclude a run without a subscription.
      rename_i r₀
      obtain ⟨j, hj⟩ := hI.wf.runJob r₀ (Table.get?_mem hr)
      obtain ⟨b', hb'⟩ := hI.wf.jobSub j (Table.get?_mem hj)
      simp [hj, hb'] at hb
    | route =>
      unfold Recovery.route Recovery.moveToDlq at ht₀
      split at ht₀ <;> cases ht₀
    | _ => cases ht₀
  | other he hr =>
    have hi := (step_intake h he hr).1
    rw [ht] at hi
    cases hi

/-! ## Open jobs -/

/-- Each open job has a last attempt that rests, or that is FAILED and worked on. -/
def Kept (s : Sys) : Prop :=
  ∀ j job, s.db.job? j = some job → job.status.isOpen = true →
    ∃ x r, s.db.Latest x r ∧ r.jobId = j ∧
      (s.db.Rests x r ∨ (r.status = .failed ∧ s.Worked x))

theorem Kept.init : Kept Sys.init := by
  intro j job h
  cases h

/-- A new job has one PENDING run. -/
theorem Owned.kept_new (hI : Owned s) (hc : s.db.Chain) (h : s.step env a = some s') {t : Txn}
    (ht : s.txn? env a = some t) {j : UUID} {job : ScheduledJob} (hn : s.db.job? j = none)
    (hj : s'.db.job? j = some job) :
    ∃ x r, s'.db.Latest x r ∧ r.jobId = j ∧ s'.db.Rests x r := by
  have hcom := step_commits h
  rw [ht] at hcom
  obtain ⟨x, r', hl, rfl⟩ := (hI.chain hc h).exists_latest (hI.step h).wf hj
  refine ⟨x, r', hl, rfl, .inl ?_⟩
  obtain ⟨r, hr, rfl⟩ | ⟨-, hnew⟩ := Txn.run?_cases hcom hl.1
  · obtain ⟨j₀, hj₀⟩ := hI.wf.runJob r (Table.get?_mem hr)
    rw [Txn.setRun_jobId, hj₀] at hn
    cases hn
  · rw [(hI.guard h ht).newRuns_pending hnew]
    rfl

/-- A step keeps the last attempts, unless it ends the last worker on one. -/
theorem Kept.step (hk : Kept s) (hI : Owned s) (hc : s.db.Chain) (hq : Relieved s a s')
    (h : s.step env a = some s') : Kept s' := by
  intro j job' hj' ho'
  obtain ⟨ht, hdb⟩ | ⟨t, ht, hcom⟩ := step_db h
  · rw [hdb] at hj' ⊢
    obtain ⟨x, r, hl, rfl, hr | ⟨hf, hx⟩⟩ := hk j job' hj' ho'
    · exact ⟨x, r, hl, rfl, .inl hr⟩
    · refine ⟨x, r, hl, rfl, .inr ⟨hf, ?_⟩⟩
      refine hI.worked_step h hx hl.1 (fun t he => ?_) fun hd => hq x r job' hd hl hf hj' ho'
      rw [ht] at he
      cases he
  · have hg := hI.guard h ht
    obtain ⟨job, hj, rfl⟩ | ⟨hn, -⟩ := Txn.job?_cases hcom hj'
    · have hopen : job.status.isOpen = true := by
        rw [← Txn.setJob_isOpen ho']
        exact ho'
      obtain ⟨x, r, hl, rfl, hr⟩ := hk j job hj hopen
      obtain ⟨y, r', hl', hj₂, hr'⟩ | ⟨hl', hf, hne, hnext, hcause⟩ :=
        hg.latest_fate hI.wf hc hcom hl hj ho' (hr.imp id (·.1))
      · exact ⟨y, r', hl', hj₂, .inl hr'⟩
      · refine ⟨x, _, hl', Txn.setRun_jobId r, .inr ⟨hf, ?_⟩⟩
        obtain hfail | ⟨since, rfl⟩ := hcause
        · have hx : s.Worked x := by
            obtain (hlive | ⟨hdead, -⟩) | ⟨-, hx⟩ := hr
            · rw [hfail] at hlive
              cases hlive
            · rw [hfail] at hdead
              cases hdead
            · exact hx
          refine hI.worked_step h hx hl.1 (fun t' he => ?_) fun hd =>
            hq x r job hd hl hfail hj hopen
          rw [ht] at he
          cases he
          exact ⟨hne, hnext⟩
        · exact hI.worked_reclaim h ht
    · obtain ⟨x, r, hl, hrj, hr⟩ := hI.kept_new hc h ht hn hj'
      exact ⟨x, r, hl, hrj, .inl hr⟩

/-- Each open job that no worker works on has a run that is PENDING or RUNNING, or a DEAD run with
a dead letter. -/
def OpenJobsServed (s : Sys) : Prop :=
  ∀ job ∈ s.db.scheduledJobs, job.status.isOpen = true → s.Quiet job.id →
    ∃ r ∈ s.db.jobRuns, r.jobId = job.id ∧ (r.status.isLive = true ∨
      (r.status = .dead ∧ ∃ e ∈ s.db.deadLetterQueue, e.jobRunId = r.id))

theorem Kept.served (hk : Kept s) (hI : Owned s) : OpenJobsServed s := by
  intro job hjob ho hq
  rw [hI.wf.job?_mem] at hjob
  obtain ⟨x, r, hl, hj, (hlive | ⟨hd, hpos⟩) | ⟨-, hx⟩⟩ := hk _ job hjob ho
  · exact ⟨r, Table.get?_mem hl.1, hj, .inl hlive⟩
  · refine ⟨r, Table.get?_mem hl.1, hj, .inr ⟨hd, ?_⟩⟩
    obtain ⟨e, he, hx⟩ := List.mem_map.mp (List.count_pos_iff.mp hpos)
    exact ⟨e, he, by rw [hx, Db.run?_id hl.1]⟩
  · exfalso
    obtain ⟨w, hw⟩ | ⟨v, hv⟩ := hx
    · exact hq.1 w x r hw hl.1 hj
    · cases hp : (s.recoveries v).phase <;> rw [Takes, hp] at hv <;> cases hv
      obtain ⟨r₀, -, hr₀, hj₀, -⟩ := hI.taken hp
      rw [hl.1] at hr₀
      cases hr₀
      refine hq.2 v ?_
      rw [hp, ← hj, hj₀]
      rfl

/-- In every run of the system whose steps are `Relieved`: in every state, each open job that no
worker works on is served. -/
theorem open_jobs_served (env : Env) (as : List Action)
    (hA : Lts.Along (step env) Relieved init as) :
    Lts.Always (step env) OpenJobsServed init as := by
  refine Lts.always_of_along (I := fun s => Owned s ∧ s.db.Chain ∧ Kept s)
    (fun hI hq hs => ?_) (fun hI => Kept.served hI.2.2 hI.1)
    ⟨Owned.init, Db.Chain.empty, Kept.init⟩ hA
  obtain ⟨hI, hc, hk⟩ := hI
  exact ⟨hI.step hs, hI.chain hc hs, hk.step hI hc hq hs⟩

end Sys

namespace Demo

/-- The executor ends while it calls bunq, and the recovery worker inserts the next attempt. -/
def recovered : List Action :=
  opening policy ++ [.execute 0 (.call true .crashed)] ++ reclaimed ++ [.recover 0 (.route nextId)]

theorem recovered_served : Lts.Always (Sys.step env) Sys.OpenJobsServed Sys.init recovered := by
  refine Sys.open_jobs_served env recovered ?_
  -- No action drops a FAILED run.
  have heval : Lts.Along (Sys.step env) (fun s a _ =>
      ((s.dropped? a).bind s.db.run?).all (fun r => r.status ≠ .failed) = true) Sys.init
      recovered := by decide +kernel
  refine heval.mono fun hP x r job hd hl hf _ _ => ?_
  simp [hd, hl.1, hf] at hP

/-- The executor ends while it calls bunq, and the recovery worker between its two commits. -/
def lost : List Action :=
  opening policy ++ [.execute 0 (.call true .crashed)] ++ reclaimed ++ [.recover 0 .crash]

theorem lost_not_served : ¬ Lts.Always (Sys.step env) Sys.OpenJobsServed Sys.init lost := by
  intro hA
  have heval : (Lts.run (Sys.step env) Sys.init lost).any (fun s =>
      (s.executors 0).phase.run? = none ∧ (s.recoveries 0).phase.job? = none ∧
      ∃ job ∈ s.db.scheduledJobs, job.status.isOpen = true ∧
        ∀ r ∈ s.db.jobRuns, r.status = .failed) = true := by
    decide +kernel
  obtain ⟨s, hr, hs⟩ := Lts.exists_run heval
  simp only [decide_eq_true_eq] at hs
  obtain ⟨hex, hre, job, hjob, ho, hruns⟩ := hs
  -- The other workers have done nothing.
  have hother : ∀ n, s.executors (n + 1) = {} ∧ s.recoveries (n + 1) = {} := by
    intro n
    constructor
    · refine Lts.run_frame (f := fun s : Sys => s.executors (n + 1))
        (p := fun a => ∀ b, a ≠ .execute (n + 1) b) Sys.step_executor ?_ hr
      simp [lost, opening, reclaimed]
    · refine Lts.run_frame (f := fun s : Sys => s.recoveries (n + 1))
        (p := fun a => ∀ b, a ≠ .recover (n + 1) b) Sys.step_recovery ?_ hr
      simp [lost, opening, reclaimed]
  have hquiet : s.Quiet job.id := by
    constructor
    · intro w x r hx
      cases w with
      | zero =>
        rw [Sys.Holds, hex] at hx
        cases hx
      | succ n =>
        rw [Sys.Holds, (hother n).1] at hx
        cases hx
    · intro v
      cases v with
      | zero =>
        rw [hre]
        exact fun hv => by cases hv
      | succ n =>
        rw [(hother n).2]
        exact fun hv => by cases hv
  obtain ⟨r, hr, -, hlive | ⟨hd, -⟩⟩ := (hA.last hr) job hjob ho hquiet
  · rw [hruns r hr] at hlive
    cases hlive
  · rw [hruns r hr] at hd
    cases hd

end Demo

end PaymentScheduler
