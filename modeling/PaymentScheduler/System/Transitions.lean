import PaymentScheduler.System.Ownership
import PaymentScheduler.Domain.StateMachine

/-!
# The state machine of the runs

The workers never consult `VALID_RUN_TRANSITIONS`: their last writes update a run by its id,
whatever its status is. `ValidWrites` says that a step of a worker makes valid transitions only.
It fails exactly where a write comes too late (`Txn.Timely`): after a recovery worker has taken
the run of a slow executor, one of the two overwrites what the other has committed.

- `Guard.valid_iff`: a transaction that finds what it relies on is valid iff it is timely.
- `along_validWrites_iff`: the same for every run of the system.
-/

namespace PaymentScheduler

/-- The action of an executor or of a recovery worker. -/
def Action.isWorker : Action → Bool
  | execute .. | recover .. => true
  | _ => false

/-- What a worker writes changes the status of a run along the table only. -/
def Sys.ValidWrites (s : Sys) (a : Action) (s' : Sys) : Prop :=
  a.isWorker = true → ∀ r ∈ s.db.jobRuns, ∀ r' ∈ s'.db.jobRuns, r'.id = r.id →
    r'.status ≠ r.status → canTransitionTo r.status r'.status = true

instance (s : Sys) (a : Action) (s' : Sys) : Decidable (s.ValidWrites a s') := by
  unfold Sys.ValidWrites
  infer_instance

namespace Db

variable {db : Db} {x : UUID} {r : JobRun}

/-- The run of an executor is neither PENDING nor SUCCEEDED. -/
theorem Held.status (h : db.Held x) (hk : db.Keyed) (hr : db.run? x = some r) :
    r.status = .running ∨ r.status = .failed ∨ r.status = .dead := by
  obtain ⟨r', hr', hp, hn⟩ := h
  rw [hr] at hr'
  cases hr'
  have hs : r.status ≠ .succeeded := by
    intro hs
    obtain ⟨k, hkey, -⟩ := hk.succeeded hr hs
    rw [hn] at hkey
    cases hkey
  revert hp hs
  cases r.status <;> simp

end Db

namespace Txn

/-- The write does not come too late: a success finds the run RUNNING, a failure does not find it
DEAD, and the dead letter of a recovery worker does not find it SUCCEEDED. -/
def Timely (db : Db) : Txn → Prop
  | persistSuccess _ run _ => ∀ r, db.run? run.id = some r → r.status = .running
  | markDagCancelled run _ => ∀ r, db.run? run.id = some r → r.status ≠ .dead
  | scheduleRetry run _ _ _ => ∀ r, db.run? run = some r → r.status ≠ .dead
  | moveToDlq e true _ => ∀ r, db.run? e.jobRunId = some r → r.status ≠ .succeeded
  | _ => True

/-- A transaction changes statuses along the table only. -/
def Valid (db : Db) (t : Txn) : Prop :=
  ∀ x r, db.run? x = some r → (t.setRun db r).status ≠ r.status →
    canTransitionTo r.status (t.setRun db r).status = true

variable {db : Db} {t : Txn} {x : UUID} {c : JobRunStatus}

theorem valid_of_keep (h : ∀ r, t.setRun db r = r) : t.Valid db := by
  intro x r _ hne
  rw [h] at hne
  exact absurd rfl hne

/-- A transaction that writes the status `c` to one run. -/
theorem valid_iff (h : ∀ r, (t.setRun db r).status = if r.id = x then c else r.status) :
    t.Valid db ↔ ∀ r, db.run? x = some r → r.status ≠ c → canTransitionTo r.status c = true := by
  constructor
  · intro hv r hr hc
    have := hv x r hr
    rw [h, if_pos (Db.run?_id hr)] at this
    exact this hc.symm
  · intro hv y r hr hne
    rw [h] at hne ⊢
    split at hne
    · rename_i hid
      rw [if_pos hid]
      rw [← Db.run?_id hr, hid] at hr
      exact hv r hr hne.symm
    · exact absurd rfl hne

/-- For a transaction that finds what it relies on, valid and timely are the same. -/
theorem Guard.valid_iff (hk : db.Keyed) (hg : t.Guard db) : t.Valid db ↔ t.Timely db := by
  cases t with
  | claim run workerId now lock =>
    obtain ⟨r₀, hr₀, hp⟩ := hg
    refine iff_of_true ((Txn.valid_iff (x := run) (c := .running) fun r => ?_).mpr ?_) trivial
    · simp only [setRun]
      split <;> rfl
    · intro r hr _
      rw [hr₀] at hr
      cases hr
      rw [hp]
      rfl
  | persistSuccess k run b =>
    obtain ⟨hid, ha, hh, -⟩ := hg
    have hn : db.key? k.jobRunId k.attempt = none := by
      obtain ⟨_, -, -, hn⟩ := hh
      rw [hid, hn]
    refine (Txn.valid_iff (x := run.id) (c := .succeeded) fun r => ?_).trans ?_
    · simp only [setRun, hn, and_true]
      split <;> rfl
    · refine forall_congr' fun r => forall_congr' fun hr => ?_
      obtain hs | hs | hs := hh.status hk hr <;> rw [hs] <;> decide
  | markDagCancelled run now =>
    obtain ⟨hh, -⟩ := hg
    refine (Txn.valid_iff (x := run.id) (c := .failed) fun r => ?_).trans ?_
    · simp only [setRun]
      split <;> rfl
    · refine forall_congr' fun r => forall_congr' fun hr => ?_
      obtain hs | hs | hs := hh.status hk hr <;> rw [hs] <;> decide
  | scheduleRetry run error now next =>
    obtain ⟨hh, -⟩ := hg
    refine (Txn.valid_iff (x := run) (c := .failed) fun r => ?_).trans ?_
    · simp only [setRun]
      split <;> rfl
    · refine forall_congr' fun r => forall_congr' fun hr => ?_
      obtain hs | hs | hs := hh.status hk hr <;> rw [hs] <;> decide
  | moveToDlq e clearsWorker now =>
    obtain ⟨hh, r₀, hr₀, -, -, hl⟩ := hg
    refine (Txn.valid_iff (x := e.jobRunId) (c := .dead) fun r => ?_).trans ?_
    · simp only [setRun]
      split <;> rfl
    · cases clearsWorker with
      | false =>
        refine iff_of_true (fun r hr hne => ?_) trivial
        obtain hs | hs | hs := (hh rfl).status hk hr
        · rw [hs]
          rfl
        · rw [hs]
          rfl
        · exact absurd hs hne
      | true =>
        refine forall_congr' fun r => forall_congr' fun hr => ?_
        rw [hr₀] at hr
        cases hr
        have hl := hl rfl
        revert hl
        cases r₀.status <;> decide
  | reclaim run now =>
    obtain ⟨r₀, hr₀, hp⟩ := hg
    refine iff_of_true ((Txn.valid_iff (x := run) (c := .failed) fun r => ?_).mpr ?_) trivial
    · simp only [setRun]
      split <;> rfl
    · intro r hr _
      rw [hr₀] at hr
      cases hr
      rw [hp]
      rfl
  | cancelOrphan job dep now =>
    refine iff_of_true (fun y r hr hne => ?_) trivial
    simp only [setRun] at hne ⊢
    split at hne
    · rename_i hp
      rw [if_pos hp, hp.2]
      rfl
    · exact absurd rfl hne
  | _ => exact iff_of_true (valid_of_keep fun _ => rfl) trivial

end Txn

namespace Sys

variable {env : Env} {s s' : Sys}

/-- A step of a worker is valid iff its transaction is. -/
theorem Owned.validWrites_iff (hI : Owned s) {a : Action} (h : s.step env a = some s')
    (ha : a.isWorker = true) :
    s.ValidWrites a s' ↔ ∀ t, s.txn? env a = some t → t.Valid s.db := by
  have hI' := hI.step h
  constructor
  · intro hv t ht x r hr hne
    have hc := step_commits h
    rw [ht] at hc
    have hset := Txn.run?_set hc hr
    refine hv ha r (Table.get?_mem hr) _ (Table.get?_mem hset) ?_ hne
    exact Txn.setRun_id r
  · intro hv _ r hr r' hr' hid hne
    rw [hI.wf.run?_mem] at hr
    rw [hI'.wf.run?_mem, hid] at hr'
    obtain ⟨ht, hdb⟩ | ⟨t, ht, hc⟩ := step_db h
    · rw [hdb, hr] at hr'
      cases hr'
      exact absurd rfl hne
    · rw [Txn.run?_set hc hr] at hr'
      cases hr'
      exact hv t ht _ r hr hne

theorem Intake.timely {t : Txn} (h : Intake (some t)) (db : Db) : t.Timely db := by
  cases t <;> trivial

/-- A step makes valid transitions only iff its write does not come too late. -/
theorem Owned.validWrites_iff_timely (hI : Owned s) {a : Action} (h : s.step env a = some s') :
    s.ValidWrites a s' ↔ OnCommit env Txn.Timely s a s' := by
  by_cases ha : a.isWorker = true
  · refine (hI.validWrites_iff h ha).trans ?_
    exact forall_congr' fun t => forall_congr' fun ht => (hI.guard h ht).valid_iff hI.keyed
  · refine iff_of_true (fun h => absurd h ha) fun t ht => ?_
    have hi := (step_intake h (fun w b he => ha (by rw [he]; rfl))
      (fun v b he => ha (by rw [he]; rfl))).1
    rw [ht] at hi
    exact Intake.timely hi s.db

/-- In every run of the system: the workers make valid transitions only iff no write comes too
late. -/
theorem along_validWrites_iff (env : Env) (as : List Action) :
    Lts.Along (step env) ValidWrites init as ↔
      Lts.Along (step env) (OnCommit env Txn.Timely) init as :=
  Lts.along_congr (fun hI hs => hI.step hs) (fun hI hs => hI.validWrites_iff_timely hs) Owned.init

end Sys

namespace Demo

/-- The lock expires while bunq is slow; the run is FAILED, and then the executor records the
success. -/
def lateSuccess : List Action :=
  opening policy ++ reclaimed ++
    [.execute 0 (.call true (.returned response)), .execute 0 .persist]

theorem lateSuccess_invalid : ¬ Lts.Along (Sys.step env) Sys.ValidWrites Sys.init lateSuccess := by
  decide +kernel

end Demo

end PaymentScheduler
