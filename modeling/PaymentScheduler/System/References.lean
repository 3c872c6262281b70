import PaymentScheduler.Db.Letters
import PaymentScheduler.System.Exposure

/-!
# What the keys and the dead letters refer to

A dead letter copies the ids of the job and of the subscription, without foreign keys, and the
attempt and the configuration, from what its worker has read before; it is written a transaction
later, and so is a key. The copies are those of the run in every later state: no transaction writes
these columns of a run or a job, and no run goes back to PENDING or RUNNING.

- `Executor.Move.letter`, `Recovery.Move.letter`: the dead letters of the two workers.
- `Letters.step`: they stay true, whatever is committed later.
- `records_refer`: the keys and the dead letters of every reachable state.
-/

namespace PaymentScheduler

theorem length_truncate_le (n : Nat) (s : String) : (truncate n s).length ≤ n := by
  simp [truncate]

/-- A dead letter of the run `x`, as it is inserted. -/
structure DeadLetterEntry.Fresh (e : DeadLetterEntry) (x j : UUID) (n : Int) (b : Subscription) :
    Prop where
  run : e.jobRunId = x
  job : e.jobId = j
  subscription : e.subscriptionId = b.id
  attempt : e.payloadSnapshot.attempt = n
  config : e.payloadSnapshot.paymentConfig = b.paymentConfig
  reason : e.failureReason.length ≤ errorMessageMaxLen
  unresolved : e.resolvedAt = none ∧ e.resolvedBy = none

/-- An executor buries the run that it has loaded, under its own name. -/
theorem Executor.Move.letter {env : Env} {w : Nat} {db : Db} {now n : Time}
    {p p' : Executor.Phase} {a : Executor.Action} {e : DeadLetterEntry} {clearsWorker : Bool}
    (h : Executor.Move env w db now p a p' (some (.moveToDlq e clearsWorker n))) :
    ∃ c, p.loaded? = some c ∧ e.Fresh c.run.id c.run.jobId c.run.attempt c.subscription ∧
      e.errorClass = none ∧ e.payloadSnapshot.workerId = some (env.workerId w) := by
  cases h with
  | @fail c error retryable rnd newId _ ht =>
    obtain ⟨-, -, retryAfter, he⟩ | he := Executor.handleFailure_cases ht <;> cases he
    exact ⟨c, rfl, ⟨rfl, rfl, rfl, rfl, rfl, length_truncate_le _ _, rfl, rfl⟩, rfl, rfl⟩
  | persist ht =>
    obtain ⟨v, -, he⟩ := Option.map_eq_some_iff.mp ht
    cases he

/-- The key of a success is that of the run. -/
theorem Executor.Move.persistSuccess_key {env : Env} {w : Nat} {db : Db} {now : Time}
    {p p' : Executor.Phase} {a : Executor.Action} {k : IdempotencyKeyRecord} {run : JobRun}
    {b : UUID} (h : Executor.Move env w db now p a p' (some (.persistSuccess k run b))) :
    k.key = IdempotencyKey.forRun env k.jobRunId k.attempt := by
  cases h with
  | persist ht =>
    obtain ⟨v, -, he⟩ := Option.map_eq_some_iff.mp ht
    cases he
    rfl
  | fail ht => obtain ⟨-, -, retryAfter, he⟩ | he := Executor.handleFailure_cases ht <;> cases he

/-- A recovery worker buries the run that it has taken, in nobody's name. -/
theorem Recovery.Move.letter {db : Db} {now n : Time} {p p' : Recovery.Phase}
    {a : Recovery.Action} {e : DeadLetterEntry} {clearsWorker : Bool}
    (h : Recovery.Move db now p a p' (some (.moveToDlq e clearsWorker n))) :
    ∃ x j k b, p = .claimed x j k b ∧ e.Fresh x j k b ∧
      e.errorClass = some "StuckRunRecovery" ∧ e.payloadSnapshot.workerId = none := by
  generalize ht : some (Txn.moveToDlq e clearsWorker n) = t at h
  cases h with
  | @route x j k b newId =>
    unfold Recovery.route at ht
    split at ht <;> cases ht
    exact ⟨x, j, k, b, rfl, ⟨rfl, rfl, rfl, rfl, rfl, length_truncate_le _ _, rfl, rfl⟩, rfl, rfl⟩
  | _ => cases ht

/-- A dead letter agrees with its run, its job and the worker that has written it. -/
structure Db.Buries (env : Env) (as : List Action) (db : Db) (e : DeadLetterEntry) : Prop where
  run : db.Taken e.jobRunId e.jobId e.payloadSnapshot.attempt e.subscriptionId
  /-- A request of the run has brought the configuration. -/
  config : ∃ a ∈ as, ∃ p, a.paymentConfig? = some p ∧ e.payloadSnapshot.paymentConfig = p.modelDump
  reason : e.failureReason.length ≤ errorMessageMaxLen
  worker : (e.errorClass = none ∧ ∃ w, e.payloadSnapshot.workerId = some (env.workerId w)) ∨
    (e.errorClass = some "StuckRunRecovery" ∧ e.payloadSnapshot.workerId = none)
  resolved : e.resolvedAt.isSome = e.resolvedBy.isSome

/-- A key agrees with its run. -/
def Db.Proves (env : Env) (db : Db) (k : IdempotencyKeyRecord) : Prop :=
  k.key = IdempotencyKey.forRun env k.jobRunId k.attempt ∧
    ∃ r j, db.run? k.jobRunId = some r ∧ r.attempt = k.attempt ∧ r.status.isLive = false ∧
      db.job? r.jobId = some j ∧ j.status.isOpen = false

section Db

variable {env : Env} {as : List Action} {db db' : Db} {t : Txn} {e : DeadLetterEntry} {x j : UUID}
  {n : Int} {b : Subscription}

/-- What a transaction makes of a dead letter is true of what it makes of the run. -/
theorem Db.Buries.keep (h : db.Buries env as e) (hg : t.Guard db) (hc : t.apply db = some db') :
    db'.Buries env as (t.setEntry e) := by
  obtain ⟨-, hrun, hjob, hsub, hreason, hclass, hpayload, -⟩ := t.setEntry_frame e
  constructor
  · rw [hrun, hjob, hsub, hpayload]
    exact h.run.keep hg hc
  · rw [hpayload]
    exact h.config
  · rw [hreason]
    exact h.reason
  · rw [hclass, hpayload]
    exact h.worker
  · cases t with
    | resolve id now resolvedBy =>
      simp only [Txn.setEntry]
      split
      · rfl
      · exact h.resolved
    | _ => exact h.resolved

/-- A dead letter is true when it is inserted. -/
theorem DeadLetterEntry.Fresh.buries (hf : e.Fresh x j n b) (hrun : db.Taken x j n b.id)
    (hconfig : Brought as b.paymentConfig)
    (hworker : (e.errorClass = none ∧ ∃ w, e.payloadSnapshot.workerId = some (env.workerId w)) ∨
      (e.errorClass = some "StuckRunRecovery" ∧ e.payloadSnapshot.workerId = none)) :
    db.Buries env as e where
  run := by
    rw [hf.run, hf.job, hf.attempt, hf.subscription]
    exact hrun
  config := by
    rw [hf.config]
    exact hconfig
  reason := hf.reason
  worker := hworker
  resolved := by simp [hf.unresolved]

end Db

namespace Sys

variable {env : Env} {s s' : Sys} {as : List Action} {a : Action}

/-- The dead letters are true, and so are the texts of the keys. -/
structure Letters (env : Env) (as : List Action) (s : Sys) : Prop where
  entries : ∀ e ∈ s.db.deadLetterQueue, s.db.Buries env as e
  keys : ∀ {x n k}, s.db.key? x n = some k → k.key = IdempotencyKey.forRun env x n
  /-- A recovery worker has read a subscription of the API. -/
  claimed : ∀ {v x j n b}, (s.recoveries v).phase = .claimed x j n b → Brought as b.paymentConfig

theorem Letters.init : Letters env as Sys.init where
  entries e he := by cases he
  keys h := by cases h
  claimed h := by cases h

/-- The dead letter of a step is true after it. -/
theorem Letters.buried (hL : Letters env as s) (hI : Owned s) (hB : Brings as s)
    (h : s.step env a = some s') {e : DeadLetterEntry} {clearsWorker : Bool} {now : Time}
    (ht : s.txn? env a = some (.moveToDlq e clearsWorker now)) : s'.db.Buries env as e := by
  have hc : Txn.apply s.db (.moveToDlq e clearsWorker now) = some s'.db := by
    have hcom := step_commits h
    rwa [ht] at hcom
  induction a using step_kind with
  | execute w b =>
    obtain ⟨st, t', db', hst, ht', -, -⟩ := step_execute h
    rw [ht] at ht'
    subst ht'
    obtain ⟨c, hload, hf, hclass, hworker⟩ := (Executor.step_move hst).letter
    refine hf.buries ?_ (hB.loaded hload) (.inl ⟨hclass, w, hworker⟩)
    -- The run is DEAD.
    obtain ⟨r, j, hr, hj, hn, hjob, hsub⟩ := hI.agrees hload
    refine ⟨_, _, Txn.run?_set hc hr, ?_, ?_, ?_, Txn.job?_set hc hjob, ?_⟩
    · rw [Txn.setRun_jobId, hj]
    · rw [Txn.setRun_attempt, hn]
    · rw [Txn.setRun, hf.run, if_pos (Db.run?_id hr)]
      rfl
    · rw [(Txn.setJob_frame j).2.1, hsub]
  | recover v b =>
    obtain ⟨st, t', db', hst, ht', -, -⟩ := step_recover h
    rw [ht] at ht'
    subst ht'
    obtain ⟨x, j, n, b, hp, hf, hclass, hworker⟩ := (Recovery.step_move hst).letter
    exact hf.buries ((hI.taken hp).keep (hI.guard h ht) hc) (hL.claimed hp)
      (.inr ⟨hclass, hworker⟩)
  | other he hr =>
    have hi := (step_intake h he hr).1
    rw [ht] at hi
    exact False.elim hi

theorem Letters.step_entries (hL : Letters env as s) (hI : Owned s) (hB : Brings as s)
    (h : s.step env a = some s') {e : DeadLetterEntry} (he : e ∈ s'.db.deadLetterQueue) :
    s'.db.Buries env as e := by
  obtain ⟨-, hdb⟩ | ⟨t, ht, hc⟩ := step_db h
  · rw [hdb] at he ⊢
    exact hL.entries e he
  · obtain ⟨e₀, he₀, rfl⟩ | ⟨clearsWorker, now, rfl⟩ := Txn.entry_cases hc he
    · exact (hL.entries e₀ he₀).keep (hI.guard h ht) hc
    · exact hL.buried hI hB h ht

theorem Letters.step_keys (hL : Letters env as s) (h : s.step env a = some s') {x : UUID} {n : Int}
    {k : IdempotencyKeyRecord} (hk : s'.db.key? x n = some k) :
    k.key = IdempotencyKey.forRun env x n := by
  obtain ⟨-, hdb⟩ | ⟨t, ht, hc⟩ := step_db h
  · rw [hdb] at hk
    exact hL.keys hk
  · obtain he | ⟨k', run, b, rfl, rfl, rfl, -, hk'⟩ := Txn.key?_cases (x := x) (n := n) hc
    · rw [he] at hk
      exact hL.keys hk
    · rw [hk'] at hk
      cases hk
      obtain ⟨w, b', st, rfl, hst⟩ := execute_of_txn? ht rfl
      exact (Executor.step_move hst).persistSuccess_key

theorem Letters.step_claimed (hL : Letters env as s) (hB : Brings as s)
    (h : s.step env a = some s') {v : Nat} {x j : UUID} {n : Int} {b : Subscription}
    (hp : (s'.recoveries v).phase = .claimed x j n b) : Brought as b.paymentConfig := by
  obtain hsame | ⟨b', t, rfl, -, hst⟩ := recovery_cases h v
  · rw [hsame] at hp
    exact hL.claimed hp
  · have hm := Recovery.step_move hst
    rw [hp] at hm
    generalize (s.recoveries v).phase = p at hm
    cases hm with
    | look hp hp' => cases hp'
    | reclaim hr hs hj hb => exact hB.subs hb

theorem Letters.step (hL : Letters env as s) (hI : Owned s) (hB : Brings as s)
    (h : s.step env a = some s') : Letters env as s' where
  entries _ he := hL.step_entries hI hB h he
  keys hk := hL.step_keys h hk
  claimed hp := hL.step_claimed hB h hp

theorem run_letters (hr : Lts.run (step env) init as = some s) : Letters env as s := by
  have hinv : Owned s ∧ Brings as s ∧ Letters env as s := by
    refine Lts.run_inv_along (I := fun s => Owned s ∧ Brings as s ∧ Letters env as s)
      (P := fun _ a _ => a ∈ as) ?_ ?_ (Lts.along_of_mem fun _ ha => ha) hr
    · rintro s a s' ⟨hI, hB, hL⟩ ha hs
      exact ⟨hI.step hs, hB.step ha hs, hL.step hI hB hs⟩
    · exact ⟨Owned.init, .init, .init⟩
  exact hinv.2.2

/-- The key of a run is the hash of its text. -/
theorem Reachable.key_text (h : Reachable env s) {x : UUID} {n : Int} {k : IdempotencyKeyRecord}
    (hk : s.db.key? x n = some k) : k.key = IdempotencyKey.forRun env x n := by
  obtain ⟨as, hr⟩ := h
  exact (run_letters hr).keys hk

/-- In every reachable state, each dead letter names an existing run that is over, its job, the
subscription of that job and its attempt, with a configuration that a request of the run has
brought, a reason of 2000 characters at most and the worker that has given up; it is resolved at a
time if and only if by somebody. And each key is that of an existing run that is over, whose job is
closed. -/
theorem records_refer (env : Env) (as : List Action)
    (hr : Lts.run (step env) init as = some s) :
    (∀ e ∈ s.db.deadLetterQueue, s.db.Buries env as e) ∧
      ∀ k ∈ s.db.idempotencyKeys, s.db.Proves env k := by
  have hs : Reachable env s := ⟨as, hr⟩
  have hI := hs.owned
  have hL := run_letters hr
  refine ⟨hL.entries, fun k hk => ?_⟩
  have hrow := hI.wf.key?_mem.mp hk
  obtain ⟨r, j, hr, hn, hs, hj, hclosed⟩ := hI.keyed.keyed hrow
  refine ⟨hL.keys hrow, r, j, hr, hn, ?_, hj, hclosed⟩
  obtain hs | hs := hs <;> rw [hs] <;> rfl

end Sys

namespace Demo

/-- The recovery worker buries the only attempt, and then its executor records the success. -/
def buriedAndPaid : List Action :=
  opening single ++ reclaimed ++
    [.recover 0 (.route entryId), .execute 0 (.call true (.returned response)), .execute 0 .persist]

theorem buriedAndPaid_refers : ∃ s, Lts.run (Sys.step env) Sys.init buriedAndPaid = some s ∧
    s.db.deadLetterQueue.length = 1 ∧ s.db.idempotencyKeys.length = 1 ∧
    ((∀ e ∈ s.db.deadLetterQueue, s.db.Buries env buriedAndPaid e) ∧
      ∀ k ∈ s.db.idempotencyKeys, s.db.Proves env k) := by
  have heval : (Lts.run (Sys.step env) Sys.init buriedAndPaid).any (fun s =>
      s.db.deadLetterQueue.length = 1 ∧ s.db.idempotencyKeys.length = 1) = true := by
    decide +kernel
  obtain ⟨s, hr, hlen⟩ := Lts.exists_run heval
  obtain ⟨hletter, hkey⟩ := of_decide_eq_true hlen
  exact ⟨s, hr, hletter, hkey, Sys.records_refer env buriedAndPaid hr⟩

end Demo

end PaymentScheduler
