import PaymentScheduler.Db.Effect

/-!
# What a transaction relies on

No transaction checks the status of the run that it writes, except for the claim and for the
compare-and-set of the recovery worker. `Txn.Guard` is what is true of the rows when a worker
commits a transaction; that the workers establish it is proved in
`PaymentScheduler/System/Ownership.lean`. Under it:

- `Guard.newRuns_pending`, `Guard.setRun_isLive`: an inserted run is PENDING, and a run that is
  neither PENDING nor RUNNING stays so.
- `Keyed.step`: a run with a key is SUCCEEDED or DEAD and its job is closed; a SUCCEEDED run has a
  key with its payment id (`Db.Keyed`).
-/

namespace PaymentScheduler

namespace Db

variable (db : Db)

/-- A run that an executor may be working on: it is not PENDING, and it has no key. -/
def Held (x : UUID) : Prop :=
  ∃ r, db.run? x = some r ∧ r.status ≠ .pending ∧ ∀ n, db.key? x n = none

/-- The columns of a loaded run that never change, and the subscription of its job. -/
def Agrees (run : JobRun) (subscriptionId : UUID) : Prop :=
  ∃ r j, db.run? run.id = some r ∧ r.jobId = run.jobId ∧ r.attempt = run.attempt ∧
    db.job? run.jobId = some j ∧ j.subscriptionId = subscriptionId

/-- A run that a recovery worker has taken. -/
def Taken (x job : UUID) (n : Int) (subscriptionId : UUID) : Prop :=
  ∃ r j, db.run? x = some r ∧ r.jobId = job ∧ r.attempt = n ∧ r.status.isLive = false ∧
    db.job? job = some j ∧ j.subscriptionId = subscriptionId

/-- Keys, SUCCEEDED runs and closed jobs. -/
structure Keyed : Prop where
  keyed : ∀ {x n k}, db.key? x n = some k → ∃ r j, db.run? x = some r ∧ r.attempt = n ∧
    (r.status = .succeeded ∨ r.status = .dead) ∧ db.job? r.jobId = some j ∧ j.status.isOpen = false
  succeeded : ∀ {x r}, db.run? x = some r → r.status = .succeeded →
    ∃ k, db.key? x r.attempt = some k ∧ k.bunqPaymentId = r.bunqPaymentId

end Db

/-- `next` is the next attempt after `r`, to be inserted. -/
def JobRun.Next (r next : JobRun) : Prop :=
  next.jobId = r.jobId ∧ next.attempt = r.attempt + 1 ∧ next.status = .pending

namespace Txn

/-- What is true of the rows when a transaction is committed. -/
def Guard (db : Db) : Txn → Prop
  | claim run _ _ _ => ∃ r, db.run? run = some r ∧ r.status = .pending
  | persistSuccess k run b =>
    k.jobRunId = run.id ∧ k.attempt = run.attempt ∧ db.Held run.id ∧ db.Agrees run b
  | markDagCancelled run _ => db.Held run.id ∧ ∃ b, db.Agrees run b
  | scheduleRetry run _ _ next => db.Held run ∧ ∃ r, db.run? run = some r ∧ r.Next next
  | moveToDlq e clearsWorker _ =>
    (clearsWorker = false → db.Held e.jobRunId) ∧
      ∃ r, db.run? e.jobRunId = some r ∧ r.status ≠ .pending ∧ r.jobId = e.jobId ∧
        (clearsWorker = true → r.status.isLive = false)
  | reclaim run _ => ∃ r, db.run? run = some r ∧ r.status = .running
  | insertAttempt next => ∃ x r, db.run? x = some r ∧ r.status.isLive = false ∧ r.Next next
  | produce j _ => j.status.isOpen = true
  | _ => True

variable {db db' : Db} {t : Txn} {x : UUID}

theorem Guard.newRuns_pending (hg : t.Guard db) {r : JobRun} (h : r ∈ t.newRuns) :
    r.status = .pending := by
  cases t with
  | scheduleRetry run error now next =>
    obtain ⟨-, r₀, -, -, -, hn⟩ := hg
    rw [List.mem_singleton.mp h]
    exact hn
  | insertAttempt next =>
    obtain ⟨y, r₀, -, -, -, -, hn⟩ := hg
    rw [List.mem_singleton.mp h]
    exact hn
  | schedule ws =>
    obtain ⟨w, -, rfl⟩ := List.mem_map.mp h
    rfl
  | produce j runId =>
    rw [List.mem_singleton.mp h]
    rfl
  | _ => cases h

/-- A run that is neither PENDING nor RUNNING stays so. -/
theorem Guard.setRun_isLive (hg : t.Guard db) {r : JobRun} (hr : db.run? x = some r)
    (h : r.status.isLive = false) : (t.setRun db r).status.isLive = false := by
  cases t with
  | claim run workerId now lock =>
    simp only [setRun]
    split
    · rename_i hid
      obtain ⟨r₀, hr₀, hp⟩ := hg
      rw [← hid, Db.run?_id hr, hr] at hr₀
      cases hr₀
      rw [hp] at h
      cases h
    · exact h
  | _ =>
    simp only [setRun]
    first
      | exact h
      | split <;> first | exact h | rfl

/-- The status of a SUCCEEDED or DEAD run that has a key is SUCCEEDED or DEAD after a
transaction. -/
theorem Guard.setRun_keyed (hg : t.Guard db) {r : JobRun} {n : Int} {k : IdempotencyKeyRecord}
    (hr : db.run? x = some r) (hk : db.key? x n = some k)
    (h : r.status = .succeeded ∨ r.status = .dead) :
    (t.setRun db r).status = .succeeded ∨ (t.setRun db r).status = .dead := by
  have hid := Db.run?_id hr
  -- An executor holds no run with a key.
  have hheld : ¬ db.Held x := by
    rintro ⟨_, -, -, hn⟩
    rw [hn n] at hk
    cases hk
  cases t with
  | claim run workerId now lock =>
    simp only [setRun]
    split
    · rename_i hrun
      obtain ⟨r₀, hr₀, hp⟩ := hg
      rw [← hrun, hid, hr] at hr₀
      cases hr₀
      rw [hp] at h
      exact absurd h (by decide)
    · exact h
  | persistSuccess k run b =>
    simp only [setRun]
    split
    · exact .inl rfl
    · exact h
  | markDagCancelled run now =>
    simp only [setRun]
    split
    · rename_i hrun
      rw [← hid, hrun] at hheld
      exact absurd hg.1 hheld
    · exact h
  | scheduleRetry run error now next =>
    simp only [setRun]
    split
    · rename_i hrun
      rw [← hid, hrun] at hheld
      exact absurd hg.1 hheld
    · exact h
  | moveToDlq e clearsWorker now =>
    simp only [setRun]
    split
    · exact .inr rfl
    · exact h
  | reclaim run now =>
    simp only [setRun]
    split
    · rename_i hrun
      obtain ⟨r₀, hr₀, hp⟩ := hg
      rw [← hrun, hid, hr] at hr₀
      cases hr₀
      rw [hp] at h
      exact absurd h (by decide)
    · exact h
  | cancelOrphan job dep now =>
    simp only [setRun]
    split
    · rename_i hp
      rw [hp.2] at h
      exact absurd h (by decide)
    · exact h
  | _ => exact h

/-- A run is SUCCEEDED after a transaction if it was, or if its success has been recorded. -/
theorem setRun_succeeded {r : JobRun} (h : (t.setRun db r).status = .succeeded) :
    t.setRun db r = r ∨
    ∃ k run b, t = persistSuccess k run b ∧ r.id = run.id ∧
      db.key? k.jobRunId k.attempt = none ∧
      t.setRun db r = r.succeed k.bunqPaymentId k.createdAt := by
  cases t with
  | persistSuccess k run b =>
    by_cases hc : r.id = run.id ∧ db.key? k.jobRunId k.attempt = none
    · exact .inr ⟨k, run, b, rfl, hc.1, hc.2, if_pos hc⟩
    · exact .inl (if_neg hc)
  | _ =>
    simp only [setRun] at h ⊢
    first
      | exact .inl trivial
      | split at h
        · cases h
        · rename_i hc
          exact .inl (if_neg hc)

end Txn

namespace Db

variable {db db' : Db} {t : Txn} {x : UUID}

theorem Held.keep (h : db.Held x) (ht : t.apply db = some db')
    (hk : ∀ k run b, t = .persistSuccess k run b → k.jobRunId ≠ x) : db'.Held x := by
  obtain ⟨r, hr, hp, hn⟩ := h
  refine ⟨_, Txn.run?_set ht hr, fun hs => hp (Txn.setRun_pending hs), fun n => ?_⟩
  obtain he | ⟨k, run, b, rfl, hx, -⟩ := Txn.key?_cases (x := x) (n := n) ht
  · rw [he, hn n]
  · exact absurd hx (hk k run b rfl)

theorem Agrees.keep {run : JobRun} {b : UUID} (h : db.Agrees run b) (ht : t.apply db = some db') :
    db'.Agrees run b := by
  obtain ⟨r, j, hr, hj, hn, hjob, hb⟩ := h
  refine ⟨_, _, Txn.run?_set ht hr, ?_, ?_, Txn.job?_set ht hjob, ?_⟩
  · rw [Txn.setRun_jobId, hj]
  · rw [Txn.setRun_attempt, hn]
  · rw [(Txn.setJob_frame j).2.1, hb]

theorem Taken.keep {job b : UUID} {n : Int} (h : db.Taken x job n b) (hg : t.Guard db)
    (ht : t.apply db = some db') : db'.Taken x job n b := by
  obtain ⟨r, j, hr, hj, hn, hl, hjob, hb⟩ := h
  refine ⟨_, _, Txn.run?_set ht hr, ?_, ?_, hg.setRun_isLive hr hl, Txn.job?_set ht hjob, ?_⟩
  · rw [Txn.setRun_jobId, hj]
  · rw [Txn.setRun_attempt, hn]
  · rw [(Txn.setJob_frame j).2.1, hb]

/-- A closed job stays closed. -/
theorem closed_keep {j : ScheduledJob} (h : j.status.isOpen = false) :
    (t.setJob db j).status.isOpen = false := by
  cases ho : (t.setJob db j).status.isOpen with
  | false => rfl
  | true =>
    rw [Txn.setJob_isOpen ho, h] at ho
    cases ho

theorem Keyed.empty : Keyed {} := by
  constructor
  · intro x n k h
    cases h
  · intro x r h
    cases h

theorem Keyed.step (hk : db.Keyed) (hg : t.Guard db) (h : t.apply db = some db') : db'.Keyed := by
  constructor
  · intro x n k hkey
    obtain he | ⟨k', run, b, rfl, hx, hn, hnone, hkey'⟩ := Txn.key?_cases (x := x) (n := n) h
    · rw [he] at hkey
      obtain ⟨r, j, hr, hn, hs, hj, hc⟩ := hk.keyed hkey
      refine ⟨t.setRun db r, t.setJob db j, Txn.run?_set h hr, ?_, hg.setRun_keyed hr hkey hs, ?_,
        closed_keep hc⟩
      · rw [Txn.setRun_attempt, hn]
      · rw [Txn.setRun_jobId]
        exact Txn.job?_set h hj
    · -- The key is the one that the transaction has inserted: run SUCCEEDED, job DONE.
      obtain ⟨hid, ha, -, r, j, hr, hj, hn', hjob, -⟩ := hg
      have hxr : x = run.id := hx.symm.trans hid
      subst hxr
      refine ⟨_, Txn.setJob db j (.persistSuccess k' run b), Txn.run?_set h hr, ?_, .inl ?_, ?_, ?_⟩
      · rw [Txn.setRun_attempt, hn', ← ha, hn]
      · rw [Txn.setRun, if_pos ⟨run?_id hr, by rw [hid, hn, hnone]⟩]
        rfl
      · rw [Txn.setRun_jobId, hj]
        exact Txn.job?_set h hjob
      · rw [Txn.setJob, if_pos ⟨job?_id hjob, by rw [hid, hn, hnone]⟩]
        rfl
  · intro x r' hr' hs
    obtain ⟨r, hr, rfl⟩ | ⟨-, hnew⟩ := Txn.run?_cases h hr'
    · rw [Txn.setRun_attempt]
      obtain he | ⟨k, run, b, rfl, hrun, hnone, he⟩ := Txn.setRun_succeeded hs
      · rw [he] at hs ⊢
        obtain ⟨k, hkey, hp⟩ := hk.succeeded hr hs
        exact ⟨k, Txn.key?_keep h hkey, hp⟩
      · obtain ⟨hid, ha, -, r₀, -, hr₀, -, hn, -⟩ := hg
        rw [← hrun, run?_id hr, hr] at hr₀
        cases hr₀
        refine ⟨k, ?_, by rw [he]; rfl⟩
        rw [hn, ← ha, ← run?_id hr, hrun, ← hid]
        exact Txn.key?_persistSuccess h hnone
    · rw [hg.newRuns_pending hnew] at hs
      cases hs

end Db

end PaymentScheduler
