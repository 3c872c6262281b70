import PaymentScheduler.System.References
import PaymentScheduler.System.Rows
import PaymentScheduler.System.Stamps

/-!
# The order of the timestamps

A run is created, started and finished in this order, and the next attempt of a job is created after
the start of the one before (`JobRun.Timed`, `Ordered.attempts`). The late write of a slow executor
only moves the finish forward. The finish that could come too early is that of a recovery worker,
who writes the time of its scan: there it is the expired lock that comes between
(`JobRun.Timed.lock`).

- `Guard.setRun_timed`: a transaction keeps a row in order.
- `Ordered.step`: a step keeps all of them in order.
- `timestamps_ordered`: every run of the system.
-/

namespace PaymentScheduler

namespace JobRun

/-- The times of a row are in order, at the time `now`. -/
structure Timed (now : Time) (r : JobRun) : Prop where
  created : r.createdAt ≤ now
  pending : r.status = .pending → r.startedAt = none
  started : ∀ t, r.startedAt = some t → r.createdAt ≤ t ∧ t ≤ now
  finished : ∀ t, r.finishedAt = some t →
    r.createdAt ≤ t ∧ t ≤ now ∧ ∀ t₀, r.startedAt = some t₀ → t₀ ≤ t
  /-- A lock expires after its claim. -/
  lock : ∀ l t, r.lockExpiresAt = some l → r.startedAt = some t → t ≤ l

variable {r : JobRun} {now now' : Time}

theorem Timed.mono (h : r.Timed now) (hle : now ≤ now') : r.Timed now' where
  created := h.created.trans hle
  pending := h.pending
  started t ht := ⟨(h.started t ht).1, (h.started t ht).2.trans hle⟩
  finished t ht := by
    obtain ⟨hc, hn, hs⟩ := h.finished t ht
    exact ⟨hc, hn.trans hle, hs⟩
  lock := h.lock

/-- A row that is finished at the present time, whatever else is written. -/
theorem Timed.finish (h : r.Timed now) {r' : JobRun} (hc : r'.createdAt = r.createdAt)
    (hs : r'.startedAt = r.startedAt) (hf : r'.finishedAt = some now)
    (hp : r'.status ≠ .pending)
    (hl : r'.lockExpiresAt = none ∨ r'.lockExpiresAt = r.lockExpiresAt) : r'.Timed now where
  created := hc ▸ h.created
  pending he := absurd he hp
  started t ht := by
    rw [hc]
    exact h.started t (hs ▸ ht)
  finished t ht := by
    rw [hf] at ht
    cases ht
    rw [hc, hs]
    exact ⟨h.created, le_rfl, fun t₀ ht₀ => (h.started t₀ ht₀).2⟩
  lock l t hlock ht := by
    obtain hl | hl := hl <;> rw [hl] at hlock
    · cases hlock
    · exact h.lock l t hlock (hs ▸ ht)

/-- A row as it is inserted. -/
theorem Timed.of_fresh (hf : r.Fresh) (hc : r.createdAt ≤ now) (hs : r.startedAt = none) :
    r.Timed now := by
  constructor <;> simp [hc, hs, hf.2.1, hf.2.2]

theorem Timed.claim (h : r.Timed now) (hfresh : r.Fresh) {w : String} {lock : Time}
    (hlock : now ≤ lock) : (r.claim w now lock).Timed now where
  created := h.created
  pending he := by cases he
  started t ht := by
    cases ht
    exact ⟨h.created, le_rfl⟩
  finished t ht := by
    rw [show (r.claim w now lock).finishedAt = r.finishedAt from rfl, hfresh.2.2] at ht
    cases ht
  lock l t hl ht := by
    cases hl
    cases ht
    exact hlock

/-- The compare-and-set finds a lock that has expired at the time of the scan, and so the start is
before it. -/
theorem Timed.reclaim (h : r.Timed now) (hw : r.WellFormed) {t : Time} (ht : t ≤ now)
    (hstuck : Recovery.isStuck t r = true) : (r.reclaim t).Timed now := by
  simp only [Recovery.isStuck, decide_eq_true_eq] at hstuck
  obtain ⟨hrunning, hexpired⟩ := hstuck
  obtain ⟨l, hl, hlt⟩ := (Option.any_eq_true _ _).mp hexpired
  obtain ⟨t₀, hstart⟩ := Option.isSome_iff_exists.mp (hw.started hrunning)
  have hafter : t₀ ≤ t := (h.lock l t₀ hl hstart).trans (of_decide_eq_true hlt).le
  refine ⟨h.created, (fun he => by cases he), h.started, fun f hf => ?_, fun l' t' hl' => ?_⟩
  · cases hf
    refine ⟨(h.started t₀ hstart).1.trans hafter, ht, fun t₁ ht₁ => ?_⟩
    have heq : r.startedAt = some t₁ := ht₁
    rw [hstart] at heq
    cases heq
    exact hafter
  · cases hl'

end JobRun

namespace Txn

variable {p : Time → Prop} {now : Time} {db : Db} {t : Txn} {x : UUID} {r : JobRun}

/-- A transaction keeps a row in order. -/
theorem Guard.setRun_timed (hg : t.Guard db) (ha : t.At p now db) (hf : t.Fits now)
    (hr : db.run? x = some r) (hw : r.WellFormed) (h : r.Timed now) :
    (t.setRun db r).Timed now := by
  cases t with
  | claim run workerId n lock =>
    obtain rfl : n = now := ha
    obtain ⟨r₀, hr₀, hp⟩ := hg
    simp only [setRun]
    split
    · rename_i hid
      rw [← hid, Db.run?_id hr, hr] at hr₀
      cases hr₀
      exact h.claim (hw.of_pending hp) hf
    · exact h
  | persistSuccess k run b =>
    have hk : k.createdAt = now := ha
    simp only [setRun]
    split
    · exact h.finish rfl rfl (congrArg some hk) (fun he => by cases he) (.inl rfl)
    · exact h
  | markDagCancelled run n =>
    obtain rfl : n = now := ha
    simp only [setRun]
    split
    · exact h.finish rfl rfl rfl (fun he => by cases he) (.inl rfl)
    · exact h
  | scheduleRetry run error n next =>
    obtain ⟨rfl, -⟩ := ha
    simp only [setRun]
    split
    · exact h.finish rfl rfl rfl (fun he => by cases he) (.inl rfl)
    · exact h
  | moveToDlq e clearsWorker n =>
    obtain ⟨rfl, -⟩ := ha
    simp only [setRun]
    split
    · exact h.finish rfl rfl rfl (fun he => by cases he) (.inl rfl)
    · exact h
  | reclaim run n =>
    obtain ⟨r₀, hr₀, hstuck⟩ := ha
    simp only [setRun]
    split
    · rename_i hid
      rw [← hid, Db.run?_id hr, hr] at hr₀
      cases hr₀
      exact h.reclaim hw hf hstuck
    · exact h
  | cancelOrphan job dep n =>
    obtain rfl : n = now := ha
    simp only [setRun]
    split
    · exact h.finish rfl rfl rfl (fun he => by cases he) (.inr rfl)
    · exact h
  | _ => exact h

/-- Only a claim writes `started_at`, of a PENDING run. -/
theorem Guard.setRun_startedAt (hg : t.Guard db) (hr : db.run? x = some r)
    (hp : r.status ≠ .pending) : (t.setRun db r).startedAt = r.startedAt := by
  cases t with
  | claim run workerId n lock =>
    obtain ⟨r₀, hr₀, hpend⟩ := hg
    simp only [setRun]
    split
    · rename_i hid
      rw [← hid, Db.run?_id hr, hr] at hr₀
      cases hr₀
      exact absurd hpend hp
    · rfl
  | persistSuccess | markDagCancelled | scheduleRetry | moveToDlq | reclaim | cancelOrphan =>
    simp only [setRun]
    split <;> rfl
  | _ => rfl

/-- No transaction writes `created_at` of a job. -/
theorem setJob_createdAt (j : ScheduledJob) : (t.setJob db j).createdAt = j.createdAt := by
  cases t with
  | persistSuccess | markDagCancelled | cancelOrphan =>
    simp only [setJob]
    split <;> rfl
  | _ => rfl

/-- A next attempt is created at the time of its transaction. -/
theorem At.next (ha : t.At p now db) (hn : t.next? = some r) : r.createdAt = now := by
  cases t with
  | scheduleRetry run error n next =>
    cases hn
    exact ha.2.1
  | insertAttempt next =>
    cases hn
    exact ha.1
  | _ => cases hn

end Txn

/-- The run `x` has been started by the time `t`. -/
def Db.StartedBy (db : Db) (x : UUID) (t : Time) : Prop :=
  ∃ r t₀, db.run? x = some r ∧ r.startedAt = some t₀ ∧ t₀ ≤ t

theorem Db.StartedBy.mono {db : Db} {x : UUID} {t t' : Time} (h : db.StartedBy x t)
    (hle : t ≤ t') : db.StartedBy x t' := by
  obtain ⟨r, t₀, hr, ht₀, h⟩ := h
  exact ⟨r, t₀, hr, ht₀, h.trans hle⟩

/-- A started run stays as it is in that respect. -/
theorem Db.StartedBy.keep {db db' : Db} {x : UUID} {t : Time} {txn : Txn}
    (h : db.StartedBy x t) (hpend : ∀ {r}, db.run? x = some r → r.status = .pending →
      r.startedAt = none) (hg : txn.Guard db) (hc : txn.apply db = some db') :
    db'.StartedBy x t := by
  obtain ⟨r, t₀, hr, ht₀, hle⟩ := h
  refine ⟨_, t₀, Txn.run?_set hc hr, ?_, hle⟩
  rw [hg.setRun_startedAt hr, ht₀]
  intro hp
  rw [hpend hr hp] at ht₀
  cases ht₀

namespace Sys

/-- The times of all rows are in order. -/
structure Ordered (s : Sys) : Prop where
  epoch : 0 ≤ s.clock
  runs : ∀ {x r}, s.db.run? x = some r → r.Timed s.clock
  jobs : ∀ {x j}, s.db.job? x = some j → j.createdAt ≤ s.clock
  /-- The next attempt is created after the start of the one before. -/
  attempts : ∀ {x y r r'}, s.db.run? x = some r → s.db.run? y = some r' → r.jobId = r'.jobId →
    r'.attempt = r.attempt + 1 → s.db.StartedBy x r'.createdAt
  keys : ∀ {x n k}, s.db.key? x n = some k → k.createdAt ≤ s.clock ∧
    s.db.StartedBy x k.createdAt
  entries : ∀ e ∈ s.db.deadLetterQueue, e.createdAt ≤ s.clock ∧
    s.db.StartedBy e.jobRunId e.createdAt ∧
    ∀ t, e.resolvedAt = some t → e.createdAt ≤ t ∧ t ≤ s.clock
  held : ∀ {w x}, s.Holds w x → s.db.StartedBy x s.clock
  taken : ∀ {v x}, s.Takes v x → s.db.StartedBy x s.clock
  stamped : ∀ k, (s.schedulers k).Stamped (· ≤ s.clock)
  scans : ∀ v, (s.recoveries v).now ≤ s.clock

variable {env : Env} {s s' : Sys} {a : Action}

theorem Ordered.init : Ordered Sys.init where
  epoch := le_rfl
  runs h := by cases h
  jobs h := by cases h
  attempts h := by cases h
  keys h := by cases h
  entries e he := by cases he
  held h := by cases h
  taken h := by cases h
  stamped k := trivial
  scans v := le_rfl

theorem Ordered.txn_at (hT : Ordered s) (ha : a.Stamps (· ≤ s.clock)) {t : Txn}
    (ht : s.txn? env a = some t) : t.At (· ≤ s.clock) s.clock s.db :=
  Sys.txn_at (p := (· ≤ s.clock)) (le_refl s.clock) hT.stamped ha ht

theorem Ordered.started_keep (hT : Ordered s) (hI : Owned s) (h : s.step env a = some s') {x : UUID}
    {t : Time} (hs : s.db.StartedBy x t) : s'.db.StartedBy x t := by
  obtain ⟨-, hdb⟩ | ⟨txn, ht, hc⟩ := step_db h
  · rwa [hdb]
  · exact hs.keep (fun hr => (hT.runs hr).pending) (hI.guard h ht) hc

/-- A next attempt comes after a run that has been started. -/
theorem Ordered.next (hT : Ordered s) (hI : Owned s) (h : s.step env a = some s') {t : Txn}
    (ht : s.txn? env a = some t) {next : JobRun} (hn : t.next? = some next) :
    ∃ x r, s.db.run? x = some r ∧ r.jobId = next.jobId ∧ next.attempt = r.attempt + 1 ∧
      s.db.StartedBy x s.clock := by
  induction a using step_kind with
  | execute w b =>
    obtain ⟨st, t', db', hst, ht', -, -⟩ := step_execute h
    rw [ht] at ht'
    subst ht'
    obtain ⟨c, error, hp, hjob, hatt, -⟩ := (Executor.step_move hst).next hn
    have hl : (s.executors w).phase.loaded? = some c := by rw [hp]; rfl
    obtain ⟨r, j, hr, hj, hra, -⟩ := hI.agrees hl
    exact ⟨_, r, hr, hj.trans hjob.symm, by rw [hatt, hra], hT.held (loaded?_holds hl)⟩
  | recover v b =>
    obtain ⟨st, t', db', hst, ht', -, -⟩ := step_recover h
    rw [ht] at ht'
    subst ht'
    obtain ⟨x, b, hp, -⟩ := (Recovery.step_move hst).next hn
    obtain ⟨r, j, hr, hj, hra, -⟩ := hI.taken hp
    exact ⟨x, r, hr, hj, by omega, hT.taken (v := v) (by rw [Takes, hp]; rfl)⟩
  | other he hr =>
    have hi := (step_intake h he hr).1
    rw [ht] at hi
    cases t <;> first | exact False.elim hi | cases hn

theorem Ordered.step_runs (hT : Ordered s) (hI : Owned s) (hR : RowsWellFormed s)
    (hlock : 0 ≤ env.settings.executorLockTimeoutS) (ha : a.Stamps (· ≤ s.clock))
    (h : s.step env a = some s') {x : UUID} {r : JobRun} (hr : s'.db.run? x = some r) :
    r.Timed s'.clock := by
  refine JobRun.Timed.mono ?_ (step_clock h)
  obtain ⟨-, hdb⟩ | ⟨t, ht, hc⟩ := step_db h
  · rw [hdb] at hr
    exact hT.runs hr
  · have hat := hT.txn_at ha ht
    obtain ⟨r₀, hr₀, rfl⟩ | ⟨-, hnew⟩ := Txn.run?_cases hc hr
    · exact (hI.guard h ht).setRun_timed hat (txn_fits hlock hT.scans ht) hr₀ (hR hr₀) (hT.runs hr₀)
    · obtain ⟨hcreated, hstart⟩ := hat.newRuns (le_refl s.clock) hnew
      exact .of_fresh (txn_fresh h ht hnew) hcreated hstart

theorem Ordered.step_jobs (hT : Ordered s) (ha : a.Stamps (· ≤ s.clock))
    (h : s.step env a = some s') {x : UUID} {j : ScheduledJob} (hj : s'.db.job? x = some j) :
    j.createdAt ≤ s'.clock := by
  refine le_trans ?_ (step_clock h)
  obtain ⟨-, hdb⟩ | ⟨t, ht, hc⟩ := step_db h
  · rw [hdb] at hj
    exact hT.jobs hj
  · obtain ⟨j₀, hj₀, rfl⟩ | ⟨-, hnew⟩ := Txn.job?_cases hc hj
    · rw [Txn.setJob_createdAt]
      exact hT.jobs hj₀
    · exact (hT.txn_at ha ht).newJobs hnew

theorem Ordered.step_attempts (hT : Ordered s) (hI : Owned s) (hC : s.db.Chain)
    (ha : a.Stamps (· ≤ s.clock)) (h : s.step env a = some s') {x y : UUID} {r r' : JobRun}
    (hr : s'.db.run? x = some r) (hr' : s'.db.run? y = some r') (hj : r.jobId = r'.jobId)
    (hn : r'.attempt = r.attempt + 1) :
    s'.db.StartedBy x r'.createdAt := by
  have hC' : s'.db.Chain := hI.chain hC h
  have hkeep := fun {t} => hT.started_keep hI h (x := x) (t := t)
  obtain ⟨-, hdb⟩ | ⟨t, ht, hc⟩ := step_db h
  · rw [hdb] at hr hr' ⊢
    exact hT.attempts hr hr' hj hn
  have hg := hI.guard h ht
  obtain ⟨r'₀, hr'₀, rfl⟩ | ⟨hy, -⟩ := Txn.run?_cases hc hr'
  · -- The later attempt was there, and so was the earlier one: a new run is the last of its job.
    rw [Txn.setRun_jobId] at hj
    rw [Txn.setRun_attempt] at hn
    rw [Txn.setRun_createdAt]
    obtain ⟨r₀, hr₀, rfl⟩ | ⟨hx, -⟩ := Txn.run?_cases hc hr
    · rw [Txn.setRun_jobId] at hj
      rw [Txn.setRun_attempt] at hn
      exact hkeep (hT.attempts hr₀ hr'₀ hj hn)
    · obtain ⟨hnext, -⟩ | ⟨-, hnone⟩ := Txn.newRun_cases hI.wf hc hx hr
      · have hlast := hC.newRun_last hI.wf hg hc hx hr hnext hr'₀ hj.symm
        omega
      · obtain ⟨j, hjob⟩ := hI.wf.runJob r'₀ (Table.get?_mem hr'₀)
        rw [← hj, hnone] at hjob
        cases hjob
  · obtain ⟨hnext, honly⟩ | ⟨hone, -⟩ := Txn.newRun_cases hI.wf hc hy hr'
    · obtain ⟨u, r₀, hr₀, hju, hnu, hstart⟩ := hT.next hI h ht hnext
      rw [(hT.txn_at ha ht).next hnext]
      obtain ⟨r₁, hr₁, rfl⟩ | ⟨-, hnew⟩ := Txn.run?_cases hc hr
      · rw [Txn.setRun_jobId] at hj
        rw [Txn.setRun_attempt] at hn
        have hux : u = x := hI.wf.run_unique hr₀ hr₁ (hju.trans hj.symm) (by omega)
        subst hux
        exact hkeep hstart
      · rw [honly, List.mem_singleton] at hnew
        rw [hnew] at hn
        omega
    · have hpos := hC'.pos hr
      omega

theorem Ordered.step_keys (hT : Ordered s) (hI : Owned s) (ha : a.Stamps (· ≤ s.clock))
    (h : s.step env a = some s') {x : UUID} {n : Int} {k : IdempotencyKeyRecord}
    (hk : s'.db.key? x n = some k) : k.createdAt ≤ s'.clock ∧ s'.db.StartedBy x k.createdAt := by
  suffices hold : k.createdAt ≤ s.clock ∧ s.db.StartedBy x k.createdAt from
    ⟨hold.1.trans (step_clock h), hT.started_keep hI h hold.2⟩
  obtain ⟨-, hdb⟩ | ⟨t, ht, hc⟩ := step_db h
  · rw [hdb] at hk
    exact hT.keys hk
  · obtain he | ⟨k', run, b, rfl, rfl, -, -, hk'⟩ := Txn.key?_cases (x := x) (n := n) hc
    · rw [he] at hk
      exact hT.keys hk
    · -- The key of a success is created by the executor that holds the run.
      rw [hk'] at hk
      cases hk
      have hnow : k.createdAt = s.clock := hT.txn_at ha ht
      obtain ⟨w, b', st, rfl, hst⟩ := execute_of_txn? ht rfl
      obtain ⟨c, hl, rfl⟩ := (Executor.step_move hst).persistSuccess_run
      rw [hnow, (hI.guard h ht).1]
      exact ⟨le_rfl, hT.held (loaded?_holds hl)⟩

/-- The run of a dead letter is held by its executor, or has been taken by the recovery worker. -/
theorem Ordered.buried (hT : Ordered s) (h : s.step env a = some s') {e : DeadLetterEntry}
    {clearsWorker : Bool} {now : Time} (ht : s.txn? env a = some (.moveToDlq e clearsWorker now)) :
    s.db.StartedBy e.jobRunId s.clock := by
  induction a using step_kind with
  | execute w b =>
    obtain ⟨st, t', db', hst, ht', -, -⟩ := step_execute h
    rw [ht] at ht'
    subst ht'
    obtain ⟨c, hl, hf, -⟩ := (Executor.step_move hst).letter
    rw [hf.run]
    exact hT.held (loaded?_holds hl)
  | recover v b =>
    obtain ⟨st, t', db', hst, ht', -, -⟩ := step_recover h
    rw [ht] at ht'
    subst ht'
    obtain ⟨x, j, n, b, hp, hf, -⟩ := (Recovery.step_move hst).letter
    rw [hf.run]
    exact hT.taken (v := v) (by rw [Takes, hp]; rfl)
  | other he hr =>
    have hi := (step_intake h he hr).1
    rw [ht] at hi
    exact False.elim hi

theorem Ordered.step_entries (hT : Ordered s) (hI : Owned s) (ha : a.Stamps (· ≤ s.clock))
    (h : s.step env a = some s') {e : DeadLetterEntry} (he : e ∈ s'.db.deadLetterQueue) :
    e.createdAt ≤ s'.clock ∧ s'.db.StartedBy e.jobRunId e.createdAt ∧
      ∀ t, e.resolvedAt = some t → e.createdAt ≤ t ∧ t ≤ s'.clock := by
  suffices hold : e.createdAt ≤ s.clock ∧ s.db.StartedBy e.jobRunId e.createdAt ∧
      ∀ t, e.resolvedAt = some t → e.createdAt ≤ t ∧ t ≤ s.clock by
    obtain ⟨hcreated, hstart, hres⟩ := hold
    have hclock := step_clock h
    refine ⟨hcreated.trans hclock, hT.started_keep hI h hstart, fun t ht => ?_⟩
    exact ⟨(hres t ht).1, (hres t ht).2.trans hclock⟩
  obtain ⟨-, hdb⟩ | ⟨t, ht, hc⟩ := step_db h
  · rw [hdb] at he
    exact hT.entries e he
  · have hat := hT.txn_at ha ht
    obtain ⟨e₀, he₀, rfl⟩ | ⟨clearsWorker, now, rfl⟩ := Txn.entry_cases hc he
    · obtain ⟨hcreated, hstart, hres⟩ := hT.entries e₀ he₀
      cases t with
      | resolve id now resolvedBy =>
        obtain rfl : now = s.clock := hat
        simp only [Txn.setEntry]
        split
        · refine ⟨hcreated, hstart, fun t ht => ?_⟩
          cases ht
          exact ⟨hcreated, le_rfl⟩
        · exact ⟨hcreated, hstart, hres⟩
      | _ => exact ⟨hcreated, hstart, hres⟩
    · obtain ⟨-, hnow, hopen⟩ := hat
      rw [hnow, hopen]
      exact ⟨le_rfl, hT.buried h ht, fun t ht => by cases ht⟩

theorem Ordered.step_held (hT : Ordered s) (hI : Owned s) (ha : a.Stamps (· ≤ s.clock))
    (h : s.step env a = some s') {w : Nat} {x : UUID} (hx : s'.Holds w x) :
    s'.db.StartedBy x s'.clock := by
  refine Db.StartedBy.mono ?_ (step_clock h)
  unfold Holds at hx
  obtain hsame | ⟨b, t, rfl, ht, hst⟩ := executor_cases h w
  · rw [hsame] at hx
    exact hT.started_keep hI h (hT.held hx)
  · obtain hn | ⟨hsame, -⟩ | ⟨y, r, n, l, hp, rfl, hr, -⟩ := (Executor.step_move hst).run?_cases
    · rw [hn] at hx
      cases hx
    · rw [hsame] at hx
      exact hT.started_keep hI h (hT.held hx)
    · -- The run is claimed in this step.
      rw [hp] at hx
      cases hx
      obtain ⟨hn, -⟩ | ⟨t, ht', hc⟩ := step_db h
      · rw [hn] at ht
        cases ht
      · rw [ht'] at ht
        cases ht
        have hnow : n = s.clock := hT.txn_at ha ht'
        refine ⟨_, n, Txn.run?_set hc hr, ?_, hnow.le⟩
        rw [Txn.setRun, if_pos (Db.run?_id hr)]
        rfl

theorem Ordered.step_taken (hT : Ordered s) (hI : Owned s) (hR : RowsWellFormed s)
    (h : s.step env a = some s') {v : Nat} {x : UUID} (hx : s'.Takes v x) :
    s'.db.StartedBy x s'.clock := by
  refine Db.StartedBy.mono ?_ (step_clock h)
  refine hT.started_keep hI h ?_
  unfold Takes at hx
  obtain hsame | ⟨b, t, rfl, ht, hst⟩ := recovery_cases h v
  · rw [hsame] at hx
    exact hT.taken hx
  · have hm := Recovery.step_move hst
    cases hp : (s'.recoveries v).phase with
    | claimed y job n b =>
      rw [hp] at hx hm
      cases hx
      obtain ⟨since, r, j, -, hr, hrunning, -⟩ := hm.claimed
      obtain ⟨t₀, ht₀⟩ := Option.isSome_iff_exists.mp ((hR hr).started hrunning)
      exact ⟨r, t₀, hr, ht₀, ((hT.runs hr).started t₀ ht₀).2⟩
    | _ =>
      rw [hp] at hx
      cases hx

theorem Ordered.step (hT : Ordered s) (hI : Owned s) (hR : RowsWellFormed s) (hC : s.db.Chain)
    (hlock : 0 ≤ env.settings.executorLockTimeoutS) (ha : a.Stamps (· ≤ s.clock))
    (h : s.step env a = some s') : Ordered s' where
  epoch := hT.epoch.trans (step_clock h)
  runs := hT.step_runs hI hR hlock ha h
  jobs := hT.step_jobs ha h
  attempts := hT.step_attempts hI hC ha h
  keys := hT.step_keys hI ha h
  entries _ he := hT.step_entries hI ha h he
  held := hT.step_held hI ha h
  taken := hT.step_taken hI hR h
  stamped k := by
    have hs := stamped_step hT.stamped (le_refl s.clock) h k
    exact hs.mono fun hx => hx.trans (step_clock h)
  scans v := by
    refine le_trans ?_ (step_clock h)
    obtain hsame | ⟨b, t, -, -, hst⟩ := recovery_cases h v
    · rw [hsame]
      exact hT.scans v
    · obtain he | he | he := Recovery.step_now hst
      · rw [he]
        exact hT.scans v
      · exact he.le
      · rw [he]
        exact hT.epoch

end Sys

namespace Demo

end Demo

end PaymentScheduler
