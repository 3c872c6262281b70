import PaymentScheduler.Db.Letters
import PaymentScheduler.Db.Subscriptions
import PaymentScheduler.Lib.Growth
import PaymentScheduler.System.Exposure

/-!
# The tables as a history

Nothing deletes a row. A later state has every row of an earlier one, with the columns that say what
it is about, and its status may only have gone forward: a run never gets back to PENDING or RUNNING,
a closed job is not opened again, a resolved dead letter stays resolved. Keys and payments do not
change at all.

- `JobRun.Evolves`, `ScheduledJob.Evolves`, `DeadLetterEntry.Evolves`: one row.
- `Db.Extends.apply`: the rows after a transaction.
- `history_kept`: any run of the system, from any state.
-/

namespace PaymentScheduler

/-- PENDING, RUNNING, and then the others. -/
def JobRunStatus.rank : JobRunStatus → Nat
  | pending => 0
  | running => 1
  | succeeded | failed | dead => 2

theorem JobRunStatus.rank_le (st : JobRunStatus) : st.rank ≤ 2 := by cases st <;> decide

/-- What a row of `job_runs` may become. -/
structure JobRun.Evolves (r r' : JobRun) : Prop where
  /-- Everything but what the workers write. -/
  columns :
    { r' with
      workerId := r.workerId
      lockExpiresAt := r.lockExpiresAt
      status := r.status
      bunqPaymentId := r.bunqPaymentId
      errorMessage := r.errorMessage
      startedAt := r.startedAt
      finishedAt := r.finishedAt } = r
  status : r.status.rank ≤ r'.status.rank

/-- What a row of `scheduled_jobs` may become. -/
structure ScheduledJob.Evolves (j j' : ScheduledJob) : Prop where
  /-- Everything but the status. -/
  columns : { j' with status := j.status } = j
  closed : j.status.isOpen = false → j'.status.isOpen = false

/-- What a row of `dead_letter_queue` may become. -/
structure DeadLetterEntry.Evolves (e e' : DeadLetterEntry) : Prop where
  /-- Everything but the resolution. -/
  columns : { e' with resolvedAt := e.resolvedAt, resolvedBy := e.resolvedBy } = e
  resolved : e.resolvedAt.isSome = true → e'.resolvedAt.isSome = true

/-- `db'` comes after `db`. -/
structure Db.Extends (db db' : Db) : Prop where
  runs : ∀ {x r}, db.run? x = some r → ∃ r', db'.run? x = some r' ∧ r.Evolves r'
  jobs : ∀ {x j}, db.job? x = some j → ∃ j', db'.job? x = some j' ∧ j.Evolves j'
  subs : ∀ {x b}, db.sub? x = some b → ∃ b', db'.sub? x = some b' ∧ b'.createdAt = b.createdAt
  keys : ∀ {x n k}, db.key? x n = some k → db'.key? x n = some k
  letters : Grown DeadLetterEntry.Evolves db.deadLetterQueue db'.deadLetterQueue

namespace JobRun

theorem Evolves.refl (r : JobRun) : r.Evolves r := ⟨rfl, le_rfl⟩

theorem Evolves.trans {r r' r'' : JobRun} (h : r.Evolves r') (h' : r'.Evolves r'') :
    r.Evolves r'' where
  columns := by
    rw [← h.columns, ← h'.columns]
  status := h.status.trans h'.status

theorem Evolves.createdAt {r r' : JobRun} (h : r.Evolves r') : r'.createdAt = r.createdAt := by
  conv_rhs => rw [← h.columns]

theorem Evolves.retryAfter {r r' : JobRun} (h : r.Evolves r') : r'.retryAfter = r.retryAfter := by
  conv_rhs => rw [← h.columns]

end JobRun

namespace ScheduledJob

theorem Evolves.refl (j : ScheduledJob) : j.Evolves j := ⟨rfl, fun h => h⟩

theorem Evolves.trans {j j' j'' : ScheduledJob} (h : j.Evolves j') (h' : j'.Evolves j'') :
    j.Evolves j'' where
  columns := by
    rw [← h.columns, ← h'.columns]
  closed hc := h'.closed (h.closed hc)

theorem Evolves.frame {j j' : ScheduledJob} (h : j.Evolves j') :
    j'.subscriptionId = j.subscriptionId ∧ j'.scheduledFor = j.scheduledFor := by
  constructor <;> (conv_rhs => rw [← h.columns])

end ScheduledJob

namespace DeadLetterEntry

theorem Evolves.refl (e : DeadLetterEntry) : e.Evolves e := ⟨rfl, fun h => h⟩

theorem Evolves.trans {e e' e'' : DeadLetterEntry} (h : e.Evolves e') (h' : e'.Evolves e'') :
    e.Evolves e'' where
  columns := by
    rw [← h.columns, ← h'.columns]
  resolved hr := h'.resolved (h.resolved hr)

theorem Evolves.frame {e e' : DeadLetterEntry} (h : e.Evolves e') :
    e'.id = e.id ∧ e'.subscriptionId = e.subscriptionId ∧ e'.createdAt = e.createdAt := by
  refine ⟨?_, ?_, ?_⟩ <;> (conv_rhs => rw [← h.columns])

end DeadLetterEntry

namespace Db

variable {db db' db'' : Db}

theorem Extends.refl (db : Db) : db.Extends db where
  runs {_ r} hr := ⟨r, hr, .refl r⟩
  jobs {_ j} hj := ⟨j, hj, .refl j⟩
  subs {_ b} hb := ⟨b, hb, rfl⟩
  keys hk := hk
  letters := .refl .refl _

theorem Extends.trans (h : db.Extends db') (h' : db'.Extends db'') : db.Extends db'' where
  runs hr := by
    obtain ⟨r', hr', he⟩ := h.runs hr
    obtain ⟨r'', hr'', he'⟩ := h'.runs hr'
    exact ⟨r'', hr'', he.trans he'⟩
  jobs hj := by
    obtain ⟨j', hj', he⟩ := h.jobs hj
    obtain ⟨j'', hj'', he'⟩ := h'.jobs hj'
    exact ⟨j'', hj'', he.trans he'⟩
  subs hb := by
    obtain ⟨b', hb', he⟩ := h.subs hb
    obtain ⟨b'', hb'', he'⟩ := h'.subs hb'
    exact ⟨b'', hb'', he'.trans he⟩
  keys hk := h'.keys (h.keys hk)
  letters := h.letters.trans .trans h'.letters

end Db

namespace Txn

variable {db db' : Db} {t : Txn} {r : JobRun} {j : ScheduledJob} {b : Subscription}

/-- A run goes back only by a claim of one that is not PENDING. -/
theorem setRun_rank (hclaim : ∀ w n lock, t = .claim r.id w n lock → r.status = .pending) :
    r.status.rank ≤ (t.setRun db r).status.rank := by
  cases t with
  | claim run workerId n lock =>
    simp only [setRun]
    split
    · rename_i hid
      rw [hclaim workerId n lock (by rw [hid])]
      exact Nat.zero_le _
    · exact le_rfl
  | persistSuccess | markDagCancelled | scheduleRetry | moveToDlq | reclaim | cancelOrphan =>
    simp only [setRun]
    split
    · exact r.status.rank_le
    · exact le_rfl
  | _ => exact le_rfl

theorem setRun_evolves (hclaim : ∀ w n lock, t = .claim r.id w n lock → r.status = .pending) :
    r.Evolves (t.setRun db r) where
  columns := by cases t <;> simp only [setRun] <;> (try split) <;> rfl
  status := setRun_rank hclaim

theorem setJob_evolves : j.Evolves (t.setJob db j) where
  columns := by cases t <;> simp only [setJob] <;> (try split) <;> rfl
  closed hc := Db.closed_keep hc

theorem setEntry_evolves (e : DeadLetterEntry) : e.Evolves (t.setEntry e) where
  columns := by
    cases t with
    | resolve id now resolvedBy =>
      simp only [setEntry]
      split <;> rfl
    | _ => rfl
  resolved hr := by
    cases t with
    | resolve id now resolvedBy =>
      simp only [setEntry]
      split
      · rfl
      · exact hr
    | _ => exact hr

theorem advanceAll_createdAt (ws : List WindowWrite) (b : Subscription) :
    (Db.advanceAll ws b).createdAt = b.createdAt := by
  induction ws generalizing b with
  | nil => rfl
  | cons w ws ih =>
    by_cases hb : b.id = w.subscriptionId
    · rw [Db.advanceAll_cons_of_eq hb, ih]
      cases w.advance <;> rfl
    · rw [Db.advanceAll_cons_of_ne hb, ih]

theorem setSub_createdAt : (t.setSub db b).createdAt = b.createdAt := by
  cases t with
  | schedule ws => exact advanceAll_createdAt ws b
  | moveToDlq e clearsWorker now =>
    simp only [setSub, Subscription.countFailure]
    split
    · split <;> rfl
    · rfl
  | _ => simp only [setSub] <;> (try split) <;> rfl

/-- The rows after a transaction whose claim has found its run PENDING. -/
theorem extends_apply (h : t.apply db = some db')
    (hclaim : ∀ x w n lock, t = .claim x w n lock →
      ∃ r, db.run? x = some r ∧ r.status = .pending) : db.Extends db' where
  runs {x r} hr := by
    refine ⟨_, run?_set h hr, setRun_evolves fun w n lock ht => ?_⟩
    obtain ⟨r', hr', hp⟩ := hclaim _ w n lock ht
    rw [Db.run?_id hr, hr] at hr'
    cases hr'
    exact hp
  jobs hj := ⟨_, job?_set h hj, setJob_evolves⟩
  subs hb := ⟨_, sub?_set h hb, setSub_createdAt⟩
  keys hk := key?_keep h hk
  letters := by
    rw [entries_apply h]
    exact .of_map (fun e _ => setEntry_evolves e) _

end Txn

/-- A claim finds its run PENDING. -/
theorem Executor.Move.claim_pending {env : Env} {w : Nat} {db : Db} {now n lock : Time}
    {p p' : Phase} {a : Action} {x : UUID} {id : String}
    (h : Move env w db now p a p' (some (.claim x id n lock))) :
    ∃ r, db.run? x = some r ∧ r.status = .pending := by
  generalize ht : some (Txn.claim x id n lock) = t at h
  cases h with
  | claim hr hp =>
    cases ht
    exact ⟨_, hr, hp⟩
  | persist he =>
    obtain ⟨v, -, rfl⟩ := Option.map_eq_some_iff.mp he
    cases ht
  | fail he =>
    obtain ⟨-, -, retryAfter, rfl⟩ | rfl := Executor.handleFailure_cases he <;> cases ht
  | _ => cases ht

namespace Sys

variable {env : Env} {s s' s'' : Sys} {a : Action}

/-- `s'` comes after `s`. -/
structure Extends (s s' : Sys) : Prop where
  db : s.db.Extends s'.db
  payments : s.payments <+: s'.payments
  clock : s.clock ≤ s'.clock

theorem Extends.refl (s : Sys) : s.Extends s := ⟨.refl _, List.prefix_rfl, le_rfl⟩

theorem Extends.trans (h : s.Extends s') (h' : s'.Extends s'') : s.Extends s'' where
  db := h.db.trans h'.db
  payments := h.payments.trans h'.payments
  clock := h.clock.trans h'.clock

theorem payments_prefix (h : s.step env a = some s') : s.payments <+: s'.payments := by
  obtain he | ⟨w, c, config, -, he⟩ := step_payments h
  · rw [he]
  · rw [he]
    unfold pay
    split
    · exact List.prefix_rfl
    · exact List.prefix_append _ _

theorem step_extends (h : s.step env a = some s') : s.Extends s' where
  db := by
    obtain ⟨-, hdb⟩ | ⟨t, ht, hc⟩ := step_db h
    · rw [hdb]
      exact .refl _
    · refine Txn.extends_apply hc ?_
      rintro x id n lock rfl
      obtain ⟨w, b, st, rfl, hst⟩ := execute_of_txn? ht rfl
      exact (Executor.step_move hst).claim_pending
  payments := payments_prefix h
  clock := step_clock h

theorem run_extends {as : List Action} (hr : Lts.run (step env) s as = some s') : s.Extends s' :=
  Lts.run_rel Extends.refl .trans step_extends hr

/-- Whatever the workers and the requests do, from any state: every row is kept, with all columns
that the workers do not write; no run goes back to PENDING or RUNNING, no closed job is opened, no
dead letter is unresolved; the keys are never changed, and neither are the payments. -/
theorem history_kept (env : Env) (s s' : Sys) (as : List Action)
    (hr : Lts.run (step env) s as = some s') : s.Extends s' := run_extends hr

end Sys

namespace Demo

theorem retried_history : ∃ s s', Lts.run (Sys.step env) Sys.init (opening policy) = some s ∧
    Lts.run (Sys.step env) s (reclaimed ++ [.recover 0 (.route nextId)]) = some s' ∧
    s.db.jobRuns.length = 1 ∧ s'.db.jobRuns.length = 2 ∧ s.Extends s' := by
  have heval : (Lts.run (Sys.step env) Sys.init (opening policy)).any (fun s =>
      s.db.jobRuns.length = 1 ∧
        (Lts.run (Sys.step env) s (reclaimed ++ [.recover 0 (.route nextId)])).any fun s' =>
          s'.db.jobRuns.length = 2) = true := by decide +kernel
  obtain ⟨s, hs, hlen⟩ := Lts.exists_run heval
  obtain ⟨hone, hrest⟩ := of_decide_eq_true hlen
  obtain ⟨s', hs', htwo⟩ := Lts.exists_run hrest
  exact ⟨s, s', hs, hs', hone, of_decide_eq_true htwo, Sys.history_kept env s s' _ hs'⟩

end Demo

end PaymentScheduler
