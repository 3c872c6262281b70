import PaymentScheduler.System.Ownership

/-!
# The columns of the run rows

A row of `job_runs` is well formed (`JobRun.WellFormed`) when its lock, its start and its finish
agree with its status. The statements of the workers set different subsets of these columns, and
the cancellation of an orphan leaves the lock as it is. What carries the invariant is that every
statement that writes a status writes the columns of that status too, apart from two, which find
the row PENDING: the claim keeps `finished_at`, and the cancellation keeps `lock_expires_at`.

- `Guard.setRun_wellFormed`: a transaction keeps the rows well formed.
- `Sys.txn_fresh`: the runs that a transaction inserts are `JobRun.Fresh`.
- `Sys.reachable_wellFormed`: every row of every reachable state is well formed.
-/

namespace PaymentScheduler

namespace JobRun

/-- The lock, the start and the finish of a row agree with its status. -/
structure WellFormed (r : JobRun) : Prop where
  lock : r.lockExpiresAt.isSome = true ↔ r.status = .running
  finished : r.finishedAt.isSome = true ↔
    r.status = .succeeded ∨ r.status = .failed ∨ r.status = .dead
  started : r.status = .running → r.startedAt.isSome = true

/-- A row as it is inserted: PENDING, not locked and not finished. -/
def Fresh (r : JobRun) : Prop :=
  r.status = .pending ∧ r.lockExpiresAt = none ∧ r.finishedAt = none

variable {r : JobRun}

theorem Fresh.wellFormed (h : r.Fresh) : r.WellFormed := by
  obtain ⟨hs, hl, hf⟩ := h
  constructor <;> simp [hs, hl, hf]

theorem WellFormed.of_pending (h : r.WellFormed) (hs : r.status = .pending) : r.Fresh := by
  have hl := h.lock
  have hf := h.finished
  simp only [hs, reduceCtorEq, or_self, iff_false, Option.not_isSome_iff_eq_none] at hl hf
  exact ⟨hs, hl, hf⟩

theorem wellFormed_claim (h : r.Fresh) (w : String) (now lock : Time) :
    (r.claim w now lock).WellFormed := by
  constructor <;> simp [claim, h.2.2]

theorem wellFormed_cancel (h : r.Fresh) (dep : UUID) (now : Time) :
    (r.cancel dep now).WellFormed := by
  constructor <;> simp [cancel, h.2.1]

theorem wellFormed_succeed (r : JobRun) (p : Option String) (now : Time) :
    (r.succeed p now).WellFormed := by
  constructor <;> simp [succeed]

theorem wellFormed_fail (r : JobRun) (e : String) (now : Time) : (r.fail e now).WellFormed := by
  constructor <;> simp [fail]

theorem wellFormed_reclaim (r : JobRun) (now : Time) : (r.reclaim now).WellFormed := by
  constructor <;> simp [reclaim]

theorem wellFormed_die (r : JobRun) (e : String) (c : Bool) (now : Time) :
    (r.die e c now).WellFormed := by
  constructor <;> simp [die]

/-- The RUNNING rows are those that recovery finds once their lock has expired. -/
theorem WellFormed.running_iff (h : r.WellFormed) :
    r.status = .running ↔ ∃ t, Recovery.isStuck t r = true := by
  unfold Recovery.isStuck
  constructor
  · intro hs
    obtain ⟨l, hl⟩ := Option.isSome_iff_exists.mp (h.lock.mpr hs)
    refine ⟨l + 1, ?_⟩
    simp [hs, hl]
  · rintro ⟨t, ht⟩
    exact (of_decide_eq_true ht).1

end JobRun

namespace Txn

variable {db : Db} {t : Txn} {x : UUID} {r : JobRun}

/-- A transaction that finds what it relies on keeps a row well formed. -/
theorem Guard.setRun_wellFormed (hg : t.Guard db) (hr : db.run? x = some r) (h : r.WellFormed) :
    (t.setRun db r).WellFormed := by
  cases t with
  | claim run workerId now lock =>
    obtain ⟨r₀, hr₀, hp⟩ := hg
    simp only [setRun]
    split
    · rename_i hid
      rw [← hid, Db.run?_id hr, hr] at hr₀
      cases hr₀
      exact JobRun.wellFormed_claim (h.of_pending hp) workerId now lock
    · exact h
  | persistSuccess k run b =>
    simp only [setRun]
    split
    · exact r.wellFormed_succeed _ _
    · exact h
  | markDagCancelled run now =>
    simp only [setRun]
    split
    · exact r.wellFormed_fail _ now
    · exact h
  | scheduleRetry run error now next =>
    simp only [setRun]
    split
    · exact r.wellFormed_fail error now
    · exact h
  | moveToDlq e clearsWorker now =>
    simp only [setRun]
    split
    · exact r.wellFormed_die _ clearsWorker now
    · exact h
  | reclaim run now =>
    simp only [setRun]
    split
    · exact r.wellFormed_reclaim now
    · exact h
  | cancelOrphan job dep now =>
    simp only [setRun]
    split
    · rename_i hc
      exact JobRun.wellFormed_cancel (h.of_pending hc.2) dep now
    · exact h
  | _ => exact h

end Txn

theorem Executor.Move.newRuns_fresh {env : Env} {w : Nat} {db : Db} {now : Time}
    {p p' : Executor.Phase} {a : Executor.Action} {t : Txn}
    (h : Executor.Move env w db now p a p' (some t)) {r : JobRun} (hr : r ∈ t.newRuns) :
    r.Fresh := by
  cases h with
  | claim | cancelDag => cases hr
  | persist ht =>
    obtain ⟨v, -, rfl⟩ := Option.map_eq_some_iff.mp ht
    cases hr
  | fail ht =>
    obtain ⟨-, -, retryAfter, rfl⟩ | rfl := Executor.handleFailure_cases ht
    · rw [List.mem_singleton.mp hr]
      exact ⟨rfl, rfl, rfl⟩
    · cases hr

theorem Recovery.Move.newRuns_fresh {db : Db} {now : Time} {p p' : Recovery.Phase}
    {a : Recovery.Action} {t : Txn} (h : Recovery.Move db now p a p' (some t)) {r : JobRun}
    (hr : r ∈ t.newRuns) : r.Fresh := by
  cases h with
  | reclaim | abandon | cancel => cases hr
  | route =>
    unfold Recovery.route at hr
    split at hr
    · cases hr
    · rw [List.mem_singleton.mp hr]
      exact ⟨rfl, rfl, rfl⟩

namespace Sys

variable {env : Env} {s s' : Sys}

theorem Intake.newRuns_fresh {t : Txn} (h : Intake (some t)) {r : JobRun} (hr : r ∈ t.newRuns) :
    r.Fresh := by
  cases t with
  | schedule ws =>
    obtain ⟨w, -, rfl⟩ := List.mem_map.mp hr
    exact ⟨rfl, rfl, rfl⟩
  | produce j runId =>
    rw [List.mem_singleton.mp hr]
    exact ⟨rfl, rfl, rfl⟩
  | insertAttempt | scheduleRetry => cases h
  | _ => cases hr

/-- The runs that a step inserts are fresh. -/
theorem txn_fresh {a : Action} (h : s.step env a = some s') {t : Txn} (ht : s.txn? env a = some t)
    {r : JobRun} (hr : r ∈ t.newRuns) : r.Fresh := by
  induction a using step_kind with
  | execute w b =>
    obtain ⟨st, t', db', hst, ht', -, -⟩ := step_execute h
    rw [ht] at ht'
    subst ht'
    exact (Executor.step_move hst).newRuns_fresh hr
  | recover v b =>
    obtain ⟨st, t', db', hst, ht', -, -⟩ := step_recover h
    rw [ht] at ht'
    subst ht'
    exact (Recovery.step_move hst).newRuns_fresh hr
  | other he hv =>
    have hi := (step_intake h he hv).1
    rw [ht] at hi
    exact hi.newRuns_fresh hr

/-- The rows of the runs are well formed. -/
def RowsWellFormed (s : Sys) : Prop := ∀ {x r}, s.db.run? x = some r → r.WellFormed

theorem RowsWellFormed.step (hR : RowsWellFormed s) (hI : Owned s) {a : Action}
    (h : s.step env a = some s') : RowsWellFormed s' := by
  intro x r' hr'
  obtain ⟨-, hdb⟩ | ⟨t, ht, hc⟩ := step_db h
  · rw [hdb] at hr'
    exact hR hr'
  · obtain ⟨r, hr, rfl⟩ | ⟨-, hn⟩ := Txn.run?_cases hc hr'
    · exact (hI.guard h ht).setRun_wellFormed hr (hR hr)
    · exact (txn_fresh h ht hn).wellFormed

/-- In every reachable state, under every interleaving: each row is well formed, and the RUNNING
rows are those that recovery can find. -/
theorem reachable_wellFormed (env : Env) {s : Sys} (h : Reachable env s) :
    ∀ r ∈ s.db.jobRuns, r.WellFormed ∧
      (r.status = .running ↔ ∃ t, Recovery.isStuck t r = true) := by
  have hinv : Owned s ∧ RowsWellFormed s := by
    refine Lts.Reach.inv (I := fun s => Owned s ∧ RowsWellFormed s) ?_ ?_ h
    · rintro s a s' ⟨hI, hR⟩ hs
      exact ⟨hI.step hs, hR.step hI hs⟩
    · exact ⟨Owned.init, fun hr => by cases hr⟩
  intro r hr
  have hwf := hinv.2 (hinv.1.wf.run?_mem.mp hr)
  exact ⟨hwf, hwf.running_iff⟩

end Sys

namespace Demo

/-- After the late write of a slow executor: the run that recovery had failed has SUCCEEDED, and
holds no lock. -/
theorem lateWrite_wellFormed : ∃ s, Sys.Reachable env s ∧
    (∃ r ∈ s.db.jobRuns, r.status = .succeeded ∧ r.errorMessage.isSome = true) ∧
    ∀ r ∈ s.db.jobRuns, r.WellFormed ∧
      (r.status = .running ↔ ∃ t, Recovery.isStuck t r = true) := by
  let acts : List Action := opening policy ++ reclaimed ++
    [.execute 0 (.call true (.returned response)), .execute 0 .persist]
  have heval : ((Lts.run (Sys.step env) Sys.init acts).any fun s =>
      s.db.jobRuns.any fun r => r.status = .succeeded ∧ r.errorMessage.isSome) = true := by
    decide +kernel
  obtain ⟨s, hr, hrow⟩ := Lts.exists_run heval
  refine ⟨s, ⟨acts, hr⟩, ?_, Sys.reachable_wellFormed env ⟨acts, hr⟩⟩
  obtain ⟨r, hmem, h⟩ := List.any_eq_true.mp hrow
  exact ⟨r, hmem, of_decide_eq_true h⟩

end Demo

end PaymentScheduler
