import PaymentScheduler.Db.Rows
import PaymentScheduler.System.Listings
import PaymentScheduler.System.References
import PaymentScheduler.System.Windows
import PaymentScheduler.Worker.Routing

/-!
# Each subscription by itself

The workers, the schedulers and the requests write one database, but a transaction works on the rows
of one subscription, and a batch of a scheduler is one window after the other. So the rows of a
subscription are what its own transactions make of them, in the order of their commits, on tables
without the rows of any other: the system is the product of systems of one subscription each.

- `Txn.part?`: what a transaction is for a subscription.
- `Txn.rowsOf_apply`: it commits the same on the rows of the subscription;
  `Txn.rowsOf_apply_of_not`: the others keep them.
- `Sys.subscriptions_isolated`: the run of each subscription in a run of the system.
-/

namespace PaymentScheduler

/-! ## The transactions -/

namespace Txn

variable (db : Db) (c : UUID)

/-- The transaction is for the subscription `c`. -/
def concerns : Txn → Bool
  | claim run .. | scheduleRetry run .. | reclaim run _ => db.hasRun c run
  | persistSuccess _ run _ | markDagCancelled run _ => db.hasRun c run.id
  | moveToDlq e .. => db.hasRun c e.jobRunId
  | insertAttempt next => db.hasJob c next.jobId
  | cancelOrphan job .. => db.hasJob c job
  | schedule ws => ws.any fun w => w.subscriptionId = c
  | createSubscription b => b.id = c
  | updateSubscription id _ | resume id _ => id = c
  | resolve id .. => (db.entry? id).any fun e => db.hasRun c e.jobRunId
  | produce j _ => j.subscriptionId = c

/-- A batch without the windows of the other subscriptions. -/
def part : Txn → Txn
  | schedule ws => schedule (ws.filter fun w => w.subscriptionId = c)
  | t => t

/-- What the transaction is for the subscription `c`, if anything. -/
def part? (t : Txn) : Option Txn := if t.concerns db c then some (t.part c) else none

variable {db c} {db' : Db} {t : Txn} {c' : UUID}

/-- The transactions are for one subscription, apart from those of a scheduler. -/
theorem concerns_inj (hs : ∀ ws, t ≠ schedule ws) (h : t.concerns db c = true)
    (h' : t.concerns db c' = true) : c = c' := by
  cases t with
  | schedule ws => exact absurd rfl (hs ws)
  | claim | scheduleRetry | reclaim | persistSuccess | markDagCancelled | moveToDlq =>
    exact Db.hasRun_inj h h'
  | insertAttempt | cancelOrphan => exact Db.hasJob_inj h h'
  | resolve id now resolvedBy =>
    obtain ⟨e, he, hc⟩ := (Option.any_eq_true _ _).mp h
    obtain ⟨e', he', hc'⟩ := (Option.any_eq_true _ _).mp h'
    rw [he] at he'
    cases he'
    exact Db.hasRun_inj hc hc'
  | createSubscription | updateSubscription | resume | produce =>
    exact (of_decide_eq_true h).symm.trans (of_decide_eq_true h')

/-! The updates of the transactions. -/

section Update

variable {run : JobRun} {x b d : UUID} {now lock : Time} {text : String}

theorem rowsOf_claim :
    (db.claim x text now lock).rowsOf c = (db.rowsOf c).claim x text now lock :=
  Db.rowsOf_updateRun (fun _ => rfl) fun _ => rfl

theorem rowsOf_reclaim : (db.reclaim x now).rowsOf c = (db.rowsOf c).reclaim x now :=
  Db.rowsOf_updateRun (fun _ => rfl) fun _ => rfl

theorem rowsOf_fail : (db.updateRun x fun r => r.fail text now).rowsOf c =
    (db.rowsOf c).updateRun x fun r => r.fail text now :=
  Db.rowsOf_updateRun (fun _ => rfl) fun _ => rfl

theorem rowsOf_die {clearsWorker : Bool} :
    (db.updateRun x fun r => r.die text clearsWorker now).rowsOf c =
      (db.rowsOf c).updateRun x fun r => r.die text clearsWorker now :=
  Db.rowsOf_updateRun (fun _ => rfl) fun _ => rfl

theorem rowsOf_change {changes : SubscriptionChanges} :
    (db.updateSub x fun b => b.change changes).rowsOf c =
      (db.rowsOf c).updateSub x fun b => b.change changes :=
  Db.rowsOf_updateSub fun _ => rfl

theorem rowsOf_resume : (db.resume x now).rowsOf c = (db.rowsOf c).resume x now :=
  Db.rowsOf_updateSub fun _ => rfl

theorem rowsOf_resolve : (db.resolve x now text).rowsOf c = (db.rowsOf c).resolve x now text :=
  Db.rowsOf_updateEntry fun _ => rfl

theorem rowsOf_recordSuccess {k : IdempotencyKeyRecord} :
    (db.recordSuccess k run b).rowsOf c = (db.rowsOf c).recordSuccess k run b := by
  unfold Db.recordSuccess
  rw [Db.rowsOf_updateSub, Db.rowsOf_updateJob, Db.rowsOf_updateRun]
  all_goals exact fun _ => rfl

theorem rowsOf_markDagCancelled :
    (db.markDagCancelled run now).rowsOf c = (db.rowsOf c).markDagCancelled run now := by
  unfold Db.markDagCancelled
  rw [Db.rowsOf_updateJob, Db.rowsOf_updateRun]
  all_goals exact fun _ => rfl

theorem rowsOf_countFailure :
    (db.countFailure b now).rowsOf c = (db.rowsOf c).countFailure b now := by
  unfold Db.countFailure
  rw [Db.rowsOf_updateSub, Db.rowsOf_updateSub]
  · exact fun _ => rfl
  · exact fun x => by split <;> rfl

theorem rowsOf_cancelOrphan :
    (db.cancelOrphan x d now).rowsOf c = (db.rowsOf c).cancelOrphan x d now := by
  unfold Db.cancelOrphan
  rw [Db.rowsOf_updateRuns, Db.rowsOf_updateJob]
  all_goals exact fun _ => rfl

end Update

/-! The windows of a batch. -/

section Schedule

variable {env : Env} {w : WindowWrite} {ws : List WindowWrite}

theorem rowsOf_advance :
    (db.updateSub w.subscriptionId fun b => b.advance w.advance).rowsOf c =
      (db.rowsOf c).updateSub w.subscriptionId fun b => b.advance w.advance :=
  Db.rowsOf_updateSub fun b => by cases w.advance <;> rfl

theorem rowsOf_window (hw : db.Wf) (hf : db.Fingerprinted env)
    (hh : Function.Injective env.hexdigest)
    (hfp : w.fingerprint = JobFingerprint.forJob env w.subscriptionId w.scheduledFor)
    (hc : w.subscriptionId = c) (h : db.createJobForSubscription w = some db') :
    (db.rowsOf c).createJobForSubscription w = some (db'.rowsOf c) := by
  -- The fingerprint of the window is that of no job of another subscription.
  have hsame : ∀ j₀ ∈ db.scheduledJobs, j₀.fingerprint = w.job.fingerprint →
      j₀.subscriptionId = c := by
    intro j₀ hj₀ he
    rw [hf j₀ hj₀, show w.job.fingerprint = w.fingerprint from rfl, hfp] at he
    rw [(JobFingerprint.forJob_inj hh he).1, hc]
  obtain ⟨db₁, rfl, ⟨rfl, hins⟩ | ⟨hins, hrun⟩⟩ := Db.createJobForSubscription_cases h
  · rw [Db.createJobForSubscription, hw.rowsOf_insertJob hc hsame hins,
      rowsOf_advance]
    rfl
  · have hjob : (db.addJob w.job).hasJob c w.job.id = true := by
      obtain ⟨h', -⟩ | ⟨-, -, -, -, hj, -⟩ := Db.insertJob_cases hins
      · cases h'
      · rw [Db.hasJob_of_job? (by rw [Db.job?_addJob, hj, if_pos rfl]; rfl)]
        exact decide_eq_true hc
    have hrow := (hw.insertJob hins).rowsOf_insertRun hjob hrun
    rw [Db.createJobForSubscription, hw.rowsOf_insertJob hc hsame hins, rowsOf_advance]
    show (((db.addJob w.job).rowsOf c).insertRun (firstRun w.job w.runId)).map _ = _
    rw [hrow]
    rfl

theorem rowsOf_window_of_ne (hw : db.Wf) (hc : w.subscriptionId ≠ c)
    (h : db.createJobForSubscription w = some db') : db'.rowsOf c = db.rowsOf c := by
  obtain ⟨db₁, rfl, hins⟩ := Db.createJobForSubscription_cases h
  rw [rowsOf_advance, Db.updateSub_rowsOf hc]
  obtain ⟨rfl, -⟩ | ⟨hins, hrun⟩ := hins
  · rfl
  · have hjob : (db.addJob w.job).hasJob c w.job.id = false := by
      obtain ⟨h', -⟩ | ⟨-, -, -, -, hj, -⟩ := Db.insertJob_cases hins
      · cases h'
      · rw [Db.hasJob_of_job? (by rw [Db.job?_addJob, hj, if_pos rfl]; rfl)]
        exact decide_eq_false hc
    rw [(hw.insertJob hins).rowsOf_insertRun_of_not hjob hrun, hw.rowsOf_addJob]
    exact if_neg hc

/-- A batch is, for a subscription, the batch of its windows. -/
theorem rowsOf_schedule (hw : db.Wf) (hf : db.Fingerprinted env)
    (hh : Function.Injective env.hexdigest)
    (hfp : ∀ w ∈ ws, w.fingerprint = JobFingerprint.forJob env w.subscriptionId w.scheduledFor)
    (h : db.schedule ws = some db') :
    (db.rowsOf c).schedule (ws.filter fun w => w.subscriptionId = c) = some (db'.rowsOf c) := by
  induction ws generalizing db with
  | nil =>
    cases h
    rfl
  | cons w ws ih =>
    obtain ⟨db₁, h₁, h⟩ := Option.bind_eq_some_iff.mp h
    have hw₁ := hw.createJobForSubscription h₁
    have h₁' : db.schedule [w] = some db₁ := by
      rw [Db.schedule, h₁]
      rfl
    have hf₁ : db₁.Fingerprinted env := by
      refine hf.schedule (fun w' hw' => ?_) h₁'
      rw [List.mem_singleton.mp hw']
      exact hfp w List.mem_cons_self
    have ih := ih hw₁ hf₁ (fun w' hw' => hfp w' (List.mem_cons_of_mem _ hw')) h
    by_cases hc : w.subscriptionId = c
    · rw [List.filter_cons_of_pos (by simpa using hc), Db.schedule,
        rowsOf_window hw hf hh (hfp w List.mem_cons_self) hc h₁]
      exact ih
    · rw [List.filter_cons_of_neg (by simpa using hc), ← rowsOf_window_of_ne hw hc h₁]
      exact ih

end Schedule

/-- What the workers and the schedulers see to: a dead letter counts for the subscription of its
run, and a batch has the fingerprints of its windows. -/
structure Addressed (env : Env) (db : Db) (t : Txn) : Prop where
  entry : ∀ {e clearsWorker now}, t = moveToDlq e clearsWorker now →
    db.hasRun e.subscriptionId e.jobRunId = true
  windows : ∀ {ws}, t = schedule ws → ∀ w ∈ ws,
    w.fingerprint = JobFingerprint.forJob env w.subscriptionId w.scheduledFor

section Apply

variable {env : Env} (hw : db.Wf) (hu : Table.Unique (·.id) db.deadLetterQueue)
  (hf : db.Fingerprinted env) (hh : Function.Injective env.hexdigest) (hg : t.Guard db)
  (ha : t.Addressed env db) (h : t.apply db = some db')

include hw hf hh hg ha h in
/-- A transaction for a subscription commits the same on its rows. -/
theorem rowsOf_apply (hc : t.concerns db c = true) :
    (t.part c).apply (db.rowsOf c) = some (db'.rowsOf c) := by
  cases t with
  | claim run workerId now lock =>
    cases h
    exact congrArg some rowsOf_claim.symm
  | reclaim run now =>
    cases h
    exact congrArg some rowsOf_reclaim.symm
  | markDagCancelled run now =>
    cases h
    exact congrArg some rowsOf_markDagCancelled.symm
  | cancelOrphan job dep now =>
    cases h
    exact congrArg some rowsOf_cancelOrphan.symm
  | updateSubscription id changes =>
    cases h
    exact congrArg some rowsOf_change.symm
  | resume id next =>
    cases h
    exact congrArg some rowsOf_resume.symm
  | resolve id now resolvedBy =>
    cases h
    exact congrArg some rowsOf_resolve.symm
  | persistSuccess k run b =>
    obtain ⟨hid, -, -, -⟩ := hg
    obtain ⟨⟨ok, db₁⟩, h₁, rfl⟩ := Option.map_eq_some_iff.mp h
    have hkey := Db.rowsOf_insertKey (by rw [hid]; exact hc) h₁
    show ((db.rowsOf c).insertKey k).map _ = _
    rw [hkey]
    cases ok with
    | false => rfl
    | true => exact congrArg some rowsOf_recordSuccess.symm
  | scheduleRetry run error now next =>
    obtain ⟨-, r, hr, hj, -, -⟩ := hg
    have hrun : db.hasJob c next.jobId = true := by
      rw [hj, ← Db.hasRun_of_run? hr]
      exact hc
    have hw₁ : (db.updateRun run fun r => r.fail error now).Wf :=
      hw.updateRun (fun _ => rfl) (fun _ => rfl) fun _ => rfl
    have hrow := hw₁.rowsOf_insertRun hrun h
    rw [rowsOf_fail] at hrow
    exact hrow
  | insertAttempt next => exact hw.rowsOf_insertRun hc h
  | moveToDlq e clearsWorker now =>
    obtain ⟨-, r, hr, -, -, -⟩ := hg
    obtain ⟨db₁, h₁, -⟩ := Option.map_eq_some_iff.mp h
    have hid : db.entry? e.id = none := (Db.insertEntry_cases h₁).2.1
    have hid' : Db.entry? (db.rowsOf c) e.id = none := Table.get?_filter_of_none hid
    have hrun : (db.updateRun e.jobRunId fun r => r.die e.failureReason clearsWorker now).hasRun c
        e.jobRunId = true := by
      rw [Db.hasRun_of_run? (by rw [Db.run?_die, if_pos rfl, hr]; rfl)]
      rwa [concerns, Db.hasRun_of_run? hr] at hc
    show (db.rowsOf c).moveToDlq e clearsWorker now = _
    rw [Db.moveToDlq_fresh hid' (Db.run?_rowsOf hr hc), Db.moveToDlq_cases h,
      rowsOf_countFailure, Db.rowsOf_addEntry, if_pos hrun, rowsOf_die]
  | schedule ws => exact rowsOf_schedule hw hf hh (ha.windows rfl) h
  | createSubscription b =>
    obtain ⟨rfl, hb⟩ := Db.insertSub_cases h
    have hnone : (db.rowsOf c).sub? b.id = none := Table.get?_filter_of_none hb
    show (db.rowsOf c).insertSub b = _
    rw [Db.rowsOf_addSub, if_pos (of_decide_eq_true hc), Db.insertSub, hnone]
    rfl
  | produce j runId =>
    obtain ⟨hins, hrun⟩ := Db.produce_cases h
    have hjob : (db.addJob j).hasJob c j.id = true := by rwa [Db.hasJob_addJob_self hins]
    have hrow := (hw.insertJob hins).rowsOf_insertRun hjob hrun
    show ((db.rowsOf c).insertJob j).bind _ = _
    rw [hw.rowsOf_insertJob (of_decide_eq_true hc) ?_ hins]
    · exact hrow
    · obtain ⟨h', -⟩ | ⟨-, -, hnone, -⟩ := Db.insertJob_cases hins
      · cases h'
      · exact fun j₀ hj₀ he => absurd he (hnone j₀ hj₀)

include hw hu hf hh hg ha h in
/-- The other transactions keep the rows of the subscription. -/
theorem rowsOf_apply_of_not (hc : t.concerns db c = false) : db'.rowsOf c = db.rowsOf c := by
  cases t with
  | claim run workerId now lock =>
    cases h
    exact rowsOf_claim.trans (hw.updateRun_rowsOf hc)
  | reclaim run now =>
    cases h
    exact rowsOf_reclaim.trans (hw.updateRun_rowsOf hc)
  | markDagCancelled run now =>
    obtain ⟨-, b, r, j, hr, hj, -, -, -⟩ := hg
    cases h
    have hjob : db.hasJob c run.jobId = false := by rwa [← hj, ← Db.hasRun_of_run? hr]
    refine rowsOf_markDagCancelled.trans ?_
    unfold Db.markDagCancelled
    rw [hw.updateRun_rowsOf hc, hw.updateJob_rowsOf hjob]
  | cancelOrphan job dep now =>
    cases h
    refine rowsOf_cancelOrphan.trans ?_
    unfold Db.cancelOrphan
    rw [hw.updateJob_rowsOf hc]
    refine Db.updateRuns_rowsOf fun r hr => ?_
    rw [(of_decide_eq_true hr).1]
    exact hc
  | updateSubscription id changes =>
    cases h
    exact rowsOf_change.trans (Db.updateSub_rowsOf (of_decide_eq_false hc))
  | resume id next =>
    cases h
    exact rowsOf_resume.trans (Db.updateSub_rowsOf (of_decide_eq_false hc))
  | resolve id now resolvedBy =>
    cases h
    exact rowsOf_resolve.trans (Db.updateEntry_rowsOf hu hc)
  | persistSuccess k run b =>
    obtain ⟨hid, -, -, r, j, hr, hj, -, hjob, hb⟩ := hg
    obtain ⟨rfl, -⟩ | ⟨rfl, -⟩ := Db.persistSuccess_cases h
    · rfl
    · have hrun : db.hasJob c run.jobId = false := by rwa [← hj, ← Db.hasRun_of_run? hr]
      have hsub : b ≠ c := by
        rw [← hb]
        rw [Db.hasJob_of_job? hjob] at hrun
        exact of_decide_eq_false hrun
      have hne : ¬ db.hasRun c run.id = true := Bool.eq_false_iff.mp hc
      rw [rowsOf_recordSuccess, Db.rowsOf_addKey, hid, if_neg hne]
      unfold Db.recordSuccess
      rw [hw.updateRun_rowsOf hc, hw.updateJob_rowsOf hrun, Db.updateSub_rowsOf hsub]
  | scheduleRetry run error now next =>
    obtain ⟨-, r, hr, hj, -, -⟩ := hg
    have hrun : db.hasJob c next.jobId = false := by
      rw [hj, ← Db.hasRun_of_run? hr]
      exact hc
    have hw₁ : (db.updateRun run fun r => r.fail error now).Wf :=
      hw.updateRun (fun _ => rfl) (fun _ => rfl) fun _ => rfl
    rw [hw₁.rowsOf_insertRun_of_not hrun h, rowsOf_fail, hw.updateRun_rowsOf hc]
  | insertAttempt next => exact hw.rowsOf_insertRun_of_not hc h
  | moveToDlq e clearsWorker now =>
    obtain ⟨-, r, hr, -, -, -⟩ := hg
    have hrun : (db.updateRun e.jobRunId fun r => r.die e.failureReason clearsWorker now).hasRun c
        e.jobRunId = false := by
      rw [Db.hasRun_of_run? (by rw [Db.run?_die, if_pos rfl, hr]; rfl)]
      rwa [concerns, Db.hasRun_of_run? hr] at hc
    have hsub : e.subscriptionId ≠ c := by
      intro hsub
      have hown := ha.entry rfl
      rw [hsub, show db.hasRun c e.jobRunId = false from hc] at hown
      cases hown
    rw [Db.moveToDlq_cases h, rowsOf_countFailure, Db.rowsOf_addEntry,
      if_neg (by rw [hrun]; decide), rowsOf_die, hw.updateRun_rowsOf hc]
    unfold Db.countFailure
    rw [Db.updateSub_rowsOf hsub, Db.updateSub_rowsOf hsub]
  | schedule ws =>
    have hrow := rowsOf_schedule (c := c) hw hf hh (ha.windows rfl) h
    have hnil : (ws.filter fun w => w.subscriptionId = c) = [] :=
      List.filter_eq_nil_iff.mpr (List.any_eq_false.mp hc)
    rw [hnil] at hrow
    exact (Option.some.inj hrow).symm
  | createSubscription b =>
    rw [(Db.insertSub_cases h).1, Db.rowsOf_addSub, if_neg (of_decide_eq_false hc)]
  | produce j runId =>
    obtain ⟨hins, hrun⟩ := Db.produce_cases h
    have hjob : (db.addJob j).hasJob c j.id = false := by rwa [Db.hasJob_addJob_self hins]
    rw [(hw.insertJob hins).rowsOf_insertRun_of_not hjob hrun, hw.rowsOf_addJob,
      if_neg (of_decide_eq_false hc)]

include hw hu hf hh hg ha h in
theorem commits_part :
    (db.rowsOf c).Commits (t.part? db c) (db'.rowsOf c) := by
  unfold part?
  cases hc : t.concerns db c with
  | false => exact rowsOf_apply_of_not hw hu hf hh hg ha h hc
  | true => exact rowsOf_apply hw hf hh hg ha h hc

end Apply

/-- The fingerprints, after a transaction that inserts jobs with the fingerprints of their
windows. -/
theorem fingerprinted_apply {env : Env} (hw : db.Wf) (hf : db.Fingerprinted env)
    (hnew : ∀ j ∈ t.newJobs,
      j.fingerprint = JobFingerprint.forJob env j.subscriptionId j.scheduledFor)
    (h : t.apply db = some db') : db'.Fingerprinted env := by
  intro j hj
  rw [(Txn.wf hw h).job?_mem] at hj
  obtain ⟨j₀, hj₀, rfl⟩ | ⟨-, hj⟩ := Txn.job?_cases h hj
  · obtain ⟨-, hs, ht, hp, -⟩ := Txn.setJob_frame j₀
    rw [hs, ht, hp]
    exact hf j₀ (Table.get?_mem hj₀)
  · exact hnew j hj

end Txn

/-! ## The system -/

/-- Another producer takes the fingerprint of the window, as the schedulers do. -/
def Action.Fingerprints (env : Env) : Action → Prop
  | produce j _ => j.fingerprint = JobFingerprint.forJob env j.subscriptionId j.scheduledFor
  | _ => True

namespace Sys

variable {env : Env} {s s' : Sys} {a : Action} {c : UUID}

/-- What a step commits for the subscription `c`, if anything. -/
def part? (env : Env) (c : UUID) (s : Sys) (a : Action) : Option Txn :=
  (s.txn? env a).bind fun t => t.part? s.db c

theorem Owned.addressed (hI : Owned s) (hL : Locking env s) {t : Txn}
    (ht : s.txn? env a = some t) : t.Addressed env s.db where
  entry := by
    rintro e clearsWorker now rfl
    obtain ⟨k, b, st, rfl, hst⟩ | ⟨w, b, st, rfl, hst⟩ | ⟨v, b, st, rfl, hst⟩ |
      ⟨r, b, st, rfl, hst⟩ | ⟨j, runId, -, he⟩ := txn?_cases ht
    · obtain ⟨ws, he⟩ := Scheduler.step_txn hst
      cases he
    · obtain ⟨c, hload, hf, -⟩ := (Executor.step_move hst).letter
      obtain ⟨r, j, hr, hj, -, hjob, hsub⟩ := hI.agrees hload
      rw [hf.run, hf.subscription, Db.hasRun_of_run? hr, hj, Db.hasJob_of_job? hjob]
      exact decide_eq_true hsub
    · obtain ⟨x, j, n, b, hp, hf, -⟩ := (Recovery.step_move hst).letter
      obtain ⟨r, j, hr, hj, -, -, hjob, hsub⟩ := hI.taken hp
      rw [hf.run, hf.subscription, Db.hasRun_of_run? hr, hj, Db.hasJob_of_job? hjob]
      exact decide_eq_true hsub
    · obtain ⟨_, he⟩ | ⟨_, _, he⟩ | ⟨_, _, he⟩ | ⟨_, _, he⟩ := Api.step_txn hst <;> cases he
    · cases he
  windows := by
    rintro ws rfl w hw
    obtain ⟨k, hws⟩ := batch_writes ht
    have hok := hL.ok k
    have hmem := hws w hw
    cases hp : s.schedulers k with
    | opened epoch since todo writes =>
      rw [hp] at hok hmem
      obtain ⟨b, -, -, -, hfp⟩ := hok.2 w hmem
      exact hfp
    | _ =>
      rw [hp] at hmem
      cases hmem

/-- The workers agree with the rows that they write, and the fingerprints with the windows. -/
structure Separate (env : Env) (s : Sys) : Prop where
  owned : Owned s
  locking : Locking env s
  fingerprints : s.db.Fingerprinted env
  entryIds : Table.Unique (·.id) s.db.deadLetterQueue

theorem Separate.init : Separate env Sys.init :=
  ⟨Owned.init, Locking.init, nofun, List.nodup_nil⟩

theorem Separate.step (hS : Separate env s) (ha : a.Fingerprints env)
    (h : s.step env a = some s') : Separate env s' := by
  refine ⟨hS.owned.step h, hS.locking.step hS.owned.wf h, ?_, entryIds_step h hS.entryIds⟩
  obtain ⟨-, hdb⟩ | ⟨t, ht, hc⟩ := step_db h
  · rw [hdb]
    exact hS.fingerprints
  · refine Txn.fingerprinted_apply hS.owned.wf hS.fingerprints (fun j hj => ?_) hc
    have haddr := hS.owned.addressed hS.locking ht
    cases t with
    | schedule ws =>
      obtain ⟨w, hw, rfl⟩ := List.mem_map.mp hj
      exact haddr.windows rfl w hw
    | produce j' runId =>
      rw [List.mem_singleton.mp hj]
      obtain ⟨k, b, st, rfl, hst⟩ | ⟨w, b, st, rfl, hst⟩ | ⟨v, b, st, rfl, hst⟩ |
        ⟨r, b, st, rfl, hst⟩ | ⟨j'', runId', rfl, he⟩ := txn?_cases ht
      · obtain ⟨ws, he⟩ := Scheduler.step_txn hst
        cases he
      · have hw := (Executor.step_move hst).works
        cases hw
      · have hw := (Recovery.step_move hst).works
        cases hw
      · obtain ⟨_, he⟩ | ⟨_, _, he⟩ | ⟨_, _, he⟩ | ⟨_, _, he⟩ := Api.step_txn hst <;> cases he
      · cases he
        exact ha
    | _ => cases hj

/-- A step, on the rows of one subscription. -/
theorem Separate.rowsOf_step (hS : Separate env s) (hh : Function.Injective env.hexdigest)
    (h : s.step env a = some s') :
    Lts.run Txn.apply (s.db.rowsOf c) (s.part? env c a).toList = some (s'.db.rowsOf c) := by
  unfold part?
  obtain ⟨ht, hdb⟩ | ⟨t, ht, hc⟩ := step_db h
  · rw [ht, hdb]
    rfl
  · have hpart := Txn.commits_part (c := c) hS.owned.wf hS.entryIds hS.fingerprints hh
      (hS.owned.guard h ht) (hS.owned.addressed hS.locking ht) hc
    rw [ht, Option.bind_some]
    cases hp : t.part? s.db c with
    | none =>
      rw [hp] at hpart
      exact congrArg some hpart.symm
    | some t' =>
      rw [hp] at hpart
      exact Lts.run_cons.mpr ⟨_, hpart, rfl⟩

/-- In every run of the system, each row belongs to one subscription, each step of a worker, a
request or a producer is for one subscription, and the rows of a subscription are what its own
transactions make of them, in their order, without the rows of the others. -/
theorem subscriptions_isolated (env : Env) (hh : Function.Injective env.hexdigest)
    (as bs : List Action) (hp : ∀ a ∈ as ++ bs, a.Fingerprints env)
    (hr : Lts.run (step env) init as = some s) (hs : Lts.run (step env) s bs = some s') :
    s.db.Parted ∧
      (∀ a t c c', s.txn? env a = some t → a.scheduler? = none →
        t.concerns s.db c = true → t.concerns s.db c' = true → c = c') ∧
      ∀ c, Lts.run Txn.apply (s.db.rowsOf c)
        (Lts.trace (step env) (fun s a _ => (s.part? env c a).toList) s bs) =
          some (s'.db.rowsOf c) := by
  have hS : Separate env s := by
    refine Lts.run_inv_along (I := Separate env) (P := fun _ a _ => a.Fingerprints env)
      (fun hI ha h => hI.step ha h) .init ?_ hr
    exact Lts.along_of_mem fun a ha => hp a (List.mem_append_left _ ha)
  refine ⟨hS.owned.wf.parted, fun a t c c' ht ha => Txn.concerns_inj ?_, fun c => ?_⟩
  · rintro ws rfl
    obtain ⟨k, b, st, rfl, -⟩ := schedule_of_txn? ht
    cases ha
  · exact Lts.run_trace (g := fun s : Sys => s.db.rowsOf c) (I := Separate env)
      (fun hI ha h => ⟨hI.step ha h, hI.rowsOf_step hh h⟩) hS
      (fun a ha => hp a (List.mem_append_right _ ha)) hs

end Sys

namespace Demo

def neighbourId : UUID := 0x00000000000040008000000000000006
def neighbourJobId : UUID := 0x00000000000040008000000000000007
def neighbourRunId : UUID := 0x00000000000040008000000000000008

/-- The digests of the two jobs and of the key; the digests of all strings differ. -/
def neighbourEnv : Env :=
  { env with
    hexdigest :=
      ((Equiv.swap "00000000-0000-4000-8000-000000000001:2024-06-01T07:01:00+00:00"
        "b8eee4b5a6f2bf81c07a41b299014705a1e64baddf16cee3e3e34d2a3da0791c").trans
      (Equiv.swap "00000000-0000-4000-8000-000000000006:2024-06-01T07:01:00+00:00"
        "c9bf3fd2d8e1652db9d0e40eee835127b4e242208041c2fcb2727ceb4d357024")).trans
      (Equiv.swap "00000000-0000-4000-8000-000000000003:1"
        "5d81077246d15d2b97923cd249b7f02e6e4743f477e232e798c37abcfad3306d") }

/-- Two subscriptions, whose jobs are created by one batch. -/
def neighbours : List Action :=
  [.advance start,
    .request 0 (.begin (.create (body policy) subId)),
    .request 1 (.begin (.create (body policy) neighbourId)),
    .schedule 0 .start,
    .schedule 0 (.select 1 [subId, neighbourId] []),
    .schedule 0 (.process jobId runId),
    .schedule 0 (.process neighbourJobId neighbourRunId),
    .schedule 0 .commit]

/-- The run of the first one is paid, and the second one is paused. -/
def paidNextDoor : List Action :=
  [.execute 0 (.fetch [runId, neighbourRunId] []),
    .execute 0 (.claim false),
    .request 2 (.begin (.update neighbourId { status := some "PAUSED" })),
    .execute 0 .load,
    .execute 0 .findKey,
    .request 2 .commit,
    .execute 0 (.call true (.returned response)),
    .execute 0 .persist]

/-- What the steps commit for a subscription. -/
def commitsOf (c : UUID) (s : Sys) : List Txn :=
  Lts.trace (Sys.step neighbourEnv) (fun s a _ => (s.part? neighbourEnv c a).toList) s paidNextDoor

theorem neighbours_isolated : ∃ s s',
    Lts.run (Sys.step neighbourEnv) Sys.init neighbours = some s ∧
    Lts.run (Sys.step neighbourEnv) s paidNextDoor = some s' ∧
    ((commitsOf subId s).length = 2 ∧ (commitsOf neighbourId s).length = 1) ∧
    s.db.Parted ∧
      (∀ a t c c', s.txn? neighbourEnv a = some t → a.scheduler? = none →
        t.concerns s.db c = true → t.concerns s.db c' = true → c = c') ∧
      ∀ c, Lts.run Txn.apply (s.db.rowsOf c) (commitsOf c s) = some (s'.db.rowsOf c) := by
  have heval : (Lts.run (Sys.step neighbourEnv) Sys.init neighbours).any (fun s =>
      (Lts.run (Sys.step neighbourEnv) s paidNextDoor).isSome ∧
        (commitsOf subId s).length = 2 ∧ (commitsOf neighbourId s).length = 1) = true := by
    decide +kernel
  obtain ⟨s, hr, hs⟩ := Lts.exists_run heval
  obtain ⟨hs, hlen⟩ := of_decide_eq_true hs
  obtain ⟨s', hs⟩ := Option.isSome_iff_exists.mp hs
  have hp : ∀ a ∈ neighbours ++ paidNextDoor, a.Fingerprints neighbourEnv := by
    simp [neighbours, paidNextDoor, Action.Fingerprints]
  exact ⟨s, s', hr, hs, hlen,
    Sys.subscriptions_isolated neighbourEnv (Equiv.injective _) neighbours paidNextDoor hp hr hs⟩

end Demo

end PaymentScheduler
