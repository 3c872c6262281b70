import PaymentScheduler.Db.Wf
import PaymentScheduler.Domain.Keys

/-!
# Migration 0004

`0004_idempotency_key_attempt.py` adds the columns `attempt` and `bunq_payment_id` to
`idempotency_keys`, with the constraint `uq_idempotency_run_attempt`. At revision 0003 the run and
the attempt of a record are in its hashed key only. The new column gets the server default 1 in
every row.

- `Rev0003.upgrade_wf`: the migration succeeds, and the new rows satisfy the constraints.
- `Rev0003.key?_upgraded`: what `_find_idempotency_key` finds afterwards.
- `Rev0003.findable_iff`: it finds the record of every run that had one iff these runs have the
  attempt 1.
-/

namespace PaymentScheduler

/-- A row of `idempotency_keys` at revision 0003. -/
structure KeyRow0003 where
  key : String
  jobRunId : UUID
  createdAt : Time
  deriving DecidableEq

/-- The rows at revision 0003, under its constraints: the tables that the migration leaves as they
are, and the keys. -/
structure Rev0003 where
  subscriptions : List Subscription := []
  scheduledJobs : List ScheduledJob := []
  jobRuns : List JobRun := []
  deadLetterQueue : List DeadLetterEntry := []
  idempotencyKeys : List KeyRow0003 := []
  /-- The constraints on the other tables. -/
  wf : Db.Wf
    { subscriptions := subscriptions
      scheduledJobs := scheduledJobs
      jobRuns := jobRuns
      deadLetterQueue := deadLetterQueue }
  /-- The primary key of `idempotency_keys`. -/
  keys : Table.Unique (·.key) idempotencyKeys
  /-- The foreign key to `job_runs`. -/
  keyRun : ∀ k ∈ idempotencyKeys, ∃ r ∈ jobRuns, r.id = k.jobRunId

namespace Rev0003

/-- `op.add_column("idempotency_keys", "attempt", server_default="1")`; the default is removed
again afterwards. -/
def addAttempt (rows : List KeyRow0003) : List (KeyRow0003 × Int) := rows.map fun k => (k, 1)

/-- `op.add_column("idempotency_keys", "bunq_payment_id")`. -/
def addBunqPaymentId (rows : List (KeyRow0003 × Int)) : List IdempotencyKeyRecord :=
  rows.map fun (k, attempt) =>
    { key := k.key
      jobRunId := k.jobRunId
      attempt := attempt
      bunqPaymentId := none
      createdAt := k.createdAt }

/-- `op.create_unique_constraint`: an error where two rows agree. -/
def createUniqueConstraint {ρ κ : Type} [DecidableEq κ] (key : ρ → κ) (rows : List ρ) :
    Option (List ρ) :=
  if Table.Unique key rows then some rows else none

variable (d : Rev0003) {env : Env}

/-- `upgrade`. -/
def upgrade : Option Db :=
  (createUniqueConstraint (fun k : IdempotencyKeyRecord => (k.jobRunId, k.attempt))
    (addBunqPaymentId (addAttempt d.idempotencyKeys))).map fun rows =>
    { subscriptions := d.subscriptions
      scheduledJobs := d.scheduledJobs
      jobRuns := d.jobRuns
      idempotencyKeys := rows
      deadLetterQueue := d.deadLetterQueue }

/-- The records were written for runs: the key is the one of the run and its attempt. -/
def KeysOfRuns (env : Env) : Prop :=
  ∀ k ∈ d.idempotencyKeys, ∃ r ∈ d.jobRuns, r.id = k.jobRunId ∧
    k.key = IdempotencyKey.forRun env r.id r.attempt

/-- The run `r` has the record `k`. -/
def Has (r : JobRun) (k : KeyRow0003) : Prop :=
  r ∈ d.jobRuns ∧ k ∈ d.idempotencyKeys ∧ k.jobRunId = r.id

/-- The row that the migration makes of a record. -/
def upgraded (k : KeyRow0003) : IdempotencyKeyRecord :=
  { key := k.key
    jobRunId := k.jobRunId
    attempt := 1
    bunqPaymentId := none
    createdAt := k.createdAt }

theorem addColumns_eq (rows : List KeyRow0003) :
    addBunqPaymentId (addAttempt rows) = rows.map upgraded := by
  unfold addBunqPaymentId addAttempt
  rw [List.map_map]
  rfl

variable {d}

/-- A run has one record, whose key is that of the run and its attempt. -/
theorem KeysOfRuns.key_eq (hk : d.KeysOfRuns env) {r : JobRun} {k : KeyRow0003} (h : d.Has r k) :
    k.key = IdempotencyKey.forRun env r.id r.attempt := by
  obtain ⟨r', hr', hid, hkey⟩ := hk k h.2.1
  have hrr : r' = r := List.inj_on_of_nodup_map d.wf.runIds hr' h.1 (hid.trans h.2.2)
  rw [hkey, hrr]

theorem KeysOfRuns.unique (hk : d.KeysOfRuns env) {k k' : KeyRow0003}
    (hmem : k ∈ d.idempotencyKeys) (hmem' : k' ∈ d.idempotencyKeys)
    (hrun : k.jobRunId = k'.jobRunId) : k = k' := by
  obtain ⟨r, hr, hid, hkey⟩ := hk k hmem
  have hkey' := hk.key_eq (r := r) ⟨hr, hmem', by rw [← hrun, hid]⟩
  exact List.inj_on_of_nodup_map d.keys hmem hmem' (by rw [hkey, hkey'])

/-- The new constraint holds: with one record for each run, the attempt does not matter. -/
theorem KeysOfRuns.unique_upgraded (hk : d.KeysOfRuns env) :
    Table.Unique (fun k : IdempotencyKeyRecord => (k.jobRunId, k.attempt))
      (d.idempotencyKeys.map upgraded) := by
  unfold Table.Unique
  rw [List.map_map]
  refine List.Nodup.map_on (fun k hk' k' hk'' heq => ?_) (d.keys.of_map _)
  exact hk.unique hk' hk'' (congrArg Prod.fst heq)

/-- The database after the migration. -/
theorem KeysOfRuns.upgrade_eq (hk : d.KeysOfRuns env) :
    d.upgrade = some
      { subscriptions := d.subscriptions
        scheduledJobs := d.scheduledJobs
        jobRuns := d.jobRuns
        idempotencyKeys := d.idempotencyKeys.map upgraded
        deadLetterQueue := d.deadLetterQueue } := by
  unfold upgrade createUniqueConstraint
  rw [addColumns_eq, if_pos hk.unique_upgraded]
  rfl

/-- The migration succeeds, and the new rows satisfy the constraints of the schema. -/
theorem upgrade_wf (hk : d.KeysOfRuns env) : ∃ db, d.upgrade = some db ∧ db.Wf := by
  refine ⟨_, hk.upgrade_eq, { d.wf with keyAttempts := hk.unique_upgraded, keyRun := ?_ }⟩
  intro k hk'
  obtain ⟨k₀, hk₀, rfl⟩ := List.mem_map.mp hk'
  obtain ⟨r, hr, hid⟩ := d.keyRun k₀ hk₀
  rw [show (upgraded k₀).jobRunId = r.id from hid.symm]
  exact ⟨r, d.wf.run?_mem.mp hr⟩

/-- What `_find_idempotency_key` finds for a run that had a record: it looks for the attempt of the
run, and every row has the attempt 1. -/
theorem key?_upgraded (hk : d.KeysOfRuns env) {db : Db} (hdb : d.upgrade = some db) {r : JobRun}
    {k : KeyRow0003} (h : d.Has r k) :
    db.key? r.id r.attempt = if r.attempt = 1 then some (upgraded k) else none := by
  rw [hk.upgrade_eq] at hdb
  cases hdb
  unfold Db.key?
  split
  · rename_i hone
    rw [hone, ← h.2.2]
    exact Table.get?_of_mem hk.unique_upgraded (List.mem_map_of_mem h.2.1)
  · rename_i hone
    refine Table.get?_none.mpr fun k' hk' heq => hone ?_
    obtain ⟨k₀, -, rfl⟩ := List.mem_map.mp hk'
    exact (congrArg Prod.snd heq).symm

variable (d) in
/-- The migration succeeds, and afterwards the executor finds the record of every run that had
one. -/
def KeepsFindable : Prop :=
  ∃ db, d.upgrade = some db ∧
    ∀ r k, d.Has r k → ∃ k', db.key? r.id r.attempt = some k' ∧ k'.key = k.key

/-- The records stay findable iff each run that has one has the attempt 1. -/
theorem findable_iff (env : Env) (d : Rev0003) (hk : d.KeysOfRuns env) :
    d.KeepsFindable ↔ ∀ r k, d.Has r k → r.attempt = 1 := by
  obtain ⟨db, hdb, -⟩ := upgrade_wf hk
  constructor
  · rintro ⟨db', hdb', hfind⟩ r k h
    obtain ⟨k', hk', -⟩ := hfind r k h
    rw [key?_upgraded hk hdb' h] at hk'
    by_contra hne
    rw [if_neg hne] at hk'
    cases hk'
  · intro hone
    refine ⟨db, hdb, fun r k h => ⟨upgraded k, ?_, rfl⟩⟩
    rw [key?_upgraded hk hdb h, if_pos (hone r k h)]

end Rev0003

namespace Demo

/-- A run of the given attempt that has a record. -/
def rev0003 (attempt : Int) : Rev0003 where
  subscriptions :=
    [{ id := 0x00000000000040008000000000000001
       name := "Rent"
       description := none
       cronExpression := "* * * * *"
       timezone := "UTC"
       nextFireAt := some (seconds 1717225260)
       paymentConfig := []
       retryPolicy := ({} : RetryPolicy).toDict
       createdAt := seconds 1717225200 }]
  scheduledJobs :=
    [{ id := 0x00000000000040008000000000000002
       subscriptionId := 0x00000000000040008000000000000001
       scheduledFor := seconds 1717225200
       fingerprint := ""
       status := .done
       createdAt := seconds 1717225200 }]
  jobRuns :=
    [{ id := 0x00000000000040008000000000000003
       jobId := 0x00000000000040008000000000000002
       attempt := attempt
       status := .succeeded
       createdAt := seconds 1717225200 }]
  idempotencyKeys :=
    [{ key := IdempotencyKey.forRun keyEnv 0x00000000000040008000000000000003 attempt
       jobRunId := 0x00000000000040008000000000000003
       createdAt := seconds 1717225200 }]
  wf := by
    refine ⟨List.nodup_singleton _, List.nodup_singleton _, List.nodup_singleton _,
      List.nodup_singleton _, List.nodup_nil, ?_, ?_, ?_, ?_⟩
    · intro j hj
      rw [List.mem_singleton.mp hj]
      exact ⟨_, rfl⟩
    · intro r hr
      rw [List.mem_singleton.mp hr]
      exact ⟨_, rfl⟩
    · intro k hk
      cases hk
    · intro e he
      cases he
  keys := List.nodup_singleton _
  keyRun := by
    intro k hk
    rw [List.mem_singleton.mp hk]
    exact ⟨_, List.mem_singleton_self _, rfl⟩

theorem rev0003_keysOfRuns (attempt : Int) : (rev0003 attempt).KeysOfRuns keyEnv := by
  intro k hk
  rw [List.mem_singleton.mp hk]
  exact ⟨_, List.mem_singleton_self _, rfl, rfl⟩

theorem firstAttempt_findable : (rev0003 1).KeepsFindable := by
  refine (Rev0003.findable_iff keyEnv (rev0003 1) (rev0003_keysOfRuns 1)).mpr ?_
  rintro r k ⟨hr, -, -⟩
  rw [List.mem_singleton.mp hr]

/-- The record of attempt 11 is not found any more. -/
theorem attempt_11_not_findable :
    ¬ ∀ (env : Env) (d : Rev0003), d.KeysOfRuns env → d.KeepsFindable := by
  intro h
  obtain ⟨db, hdb, hfind⟩ := h keyEnv (rev0003 11) (rev0003_keysOfRuns 11)
  obtain ⟨k', hk', -⟩ := hfind _ _
    ⟨List.mem_singleton_self _, List.mem_singleton_self _, rfl⟩
  rw [(rev0003_keysOfRuns 11).upgrade_eq] at hdb
  cases hdb
  cases hk'

end Demo

end PaymentScheduler
