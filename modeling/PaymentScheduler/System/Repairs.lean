import PaymentScheduler.Domain.Keys
import PaymentScheduler.Lib.Paging
import PaymentScheduler.System.Batches
import PaymentScheduler.System.References
import PaymentScheduler.System.Rows
import PaymentScheduler.System.Windows
import PaymentScheduler.Worker.Routing

/-!
# Every run can be settled

Wherever the workers have been stopped, one executor and one recovery worker, restarted, can settle
every run of the database, if bunq creates the payments and answers (`Action.Repairs`): no reachable
state is a dead end.

While the two are alone, the system is a `Node`: the rows, the clock and their states. Each round
starts and ends at rest, and takes down the work that is left (`Db.work`): the executor settles a
PENDING run (`Node.settle_pending`), the recovery worker takes a RUNNING one and buries it or
inserts its next attempt (`Node.settle_running`).

- `Sys.runs_settled`: from each reachable state there is such a run, after which no run is PENDING
  or RUNNING.
-/

namespace PaymentScheduler

/-! ## The actions -/

/-- No claim finds the row locked, no error is raised, and each call of bunq returns `ok`. -/
def Executor.Action.Repairs (ok : Json) : Executor.Action → Prop
  | .claim locked => locked = false
  | .call created o => created = true ∧ o = .returned ok
  | .error => False
  | _ => True

/-- The actions of the executor 0 and of the recovery worker 0, which can be restarted (`crash`).
The schedulers only roll back. -/
def Action.Repairs (ok : Json) : Action → Prop
  | .advance _ => True
  | .schedule _ a => a = .abort
  | .execute w a => w = 0 ∧ a.Repairs ok
  | .recover v _ => v = 0
  | .request .. | .produce .. => False

/-! ## The work that is left -/

/-- A RUNNING run can cost the recovery worker a further attempt. -/
def JobRun.work (r : JobRun) : Nat :=
  match r.status with
  | .pending => 1
  | .running => 2
  | .succeeded | .failed | .dead => 0

theorem JobRun.work_eq_zero {r : JobRun} : r.work = 0 ↔ r.status.isLive = false := by
  unfold JobRun.work
  cases r.status <;> simp [JobRunStatus.isLive]

namespace Db

def work (db : Db) : Nat := (db.jobRuns.map JobRun.work).sum

/-- The number of the rows whose uuids the workers draw. -/
def size (db : Db) : Nat := db.jobRuns.length + db.deadLetterQueue.length

variable {db db' : Db} {x : UUID} {r : JobRun}

theorem work_eq_zero : db.work = 0 ↔ ∀ r ∈ db.jobRuns, r.status.isLive = false := by
  simp only [work, List.sum_eq_zero_iff, List.forall_mem_map, JobRun.work_eq_zero]

theorem work_updateRun (hwf : db.Wf) (hr : db.run? x = some r) (f : JobRun → JobRun) :
    (db.updateRun x f).work + r.work = db.work + (f r).work :=
  Table.sum_updateKey JobRun.work f hwf.runIds hr

theorem size_updateRun (f : JobRun → JobRun) : (db.updateRun x f).size = db.size := by
  simp [size, updateRun, updateRuns, Table.updateWhere]

/-- There are more uuids than rows. -/
theorem exists_fresh (h : db.size < 2 ^ 128) :
    ∃ u : UUID, db.run? u = none ∧ db.entry? u = none := by
  let used := db.jobRuns.map (·.id) ++ db.deadLetterQueue.map (·.id)
  have hcard : used.toFinset.card < ((Finset.range (2 ^ 128)).image (BitVec.ofNat 128)).card := by
    rw [Finset.card_image_of_injOn, Finset.card_range]
    · refine (List.toFinset_card_le _).trans_lt ?_
      simpa [used, size] using h
    · intro m hm n hn he
      have hmn := congrArg BitVec.toNat he
      rw [BitVec.toNat_ofNat, BitVec.toNat_ofNat, Nat.mod_eq_of_lt (Finset.mem_range.mp hm),
        Nat.mod_eq_of_lt (Finset.mem_range.mp hn)] at hmn
      exact hmn
  obtain ⟨u, -, hu⟩ := Finset.exists_mem_notMem_of_card_lt_card hcard
  rw [List.mem_toFinset, List.mem_append, not_or] at hu
  refine ⟨u, Table.get?_none.mpr fun r hr hid => hu.1 ?_,
    Table.get?_none.mpr fun e he hid => hu.2 ?_⟩
  · exact List.mem_map.mpr ⟨r, hr, hid⟩
  · exact List.mem_map.mpr ⟨e, he, hid⟩

/-! ### The transactions -/

/-- The dead letter of a run that exists, under a fresh uuid, is written. -/
theorem exists_moveToDlq {e : DeadLetterEntry} {c : Bool} {t : Time} (hwf : db.Wf)
    (hr : db.run? e.jobRunId = some r) (he : db.entry? e.id = none) :
    ∃ db', db.moveToDlq e c t = some db' ∧ db'.work + r.work = db.work ∧
      db'.size = db.size + 1 := by
  let f (r : JobRun) := r.die e.failureReason c t
  have hwork : (db.updateRun e.jobRunId f).work + r.work = db.work := work_updateRun hwf hr f
  have hsize : (db.updateRun e.jobRunId f).size = db.size := size_updateRun f
  refine ⟨((db.updateRun e.jobRunId f).addEntry e).countFailure e.subscriptionId t,
    moveToDlq_fresh he hr, hwork, ?_⟩
  simp only [size] at hsize ⊢
  simp only [countFailure, updateSub, addEntry, List.length_append, List.length_singleton]
  omega

/-- The success of a run without a key is written, where its key is that of no other attempt. -/
theorem exists_persistSuccess {k : IdempotencyKeyRecord} {run : JobRun} {b : UUID} (hwf : db.Wf)
    (hr : db.run? k.jobRunId = some r) (hid : run.id = k.jobRunId)
    (hk : db.key? k.jobRunId k.attempt = none)
    (htext : ∀ a ∈ db.idempotencyKeys, a.key = k.key →
      a.jobRunId = k.jobRunId ∧ a.attempt = k.attempt) :
    ∃ db', db.persistSuccess k run b = some db' ∧ db'.work + r.work = db.work ∧
      db'.size = db.size := by
  have hany : (db.idempotencyKeys.any fun a => a.key = k.key) = false := by
    refine List.any_eq_false.mpr fun a ha he => ?_
    obtain ⟨hrun, hattempt⟩ := htext a ha (of_decide_eq_true he)
    have hrow := hwf.key?_mem.mp ha
    rw [hrun, hattempt, hk] at hrow
    cases hrow
  let f (r : JobRun) := r.succeed k.bunqPaymentId k.createdAt
  have hwork : (db.updateRun run.id f).work + r.work = db.work := work_updateRun hwf (hid ▸ hr) f
  have hsize : (db.updateRun run.id f).size = db.size := size_updateRun f
  refine ⟨(db.addKey k).recordSuccess k run b, ?_, hwork, hsize⟩
  rw [persistSuccess, insertKey, hk, hr, hany]
  rfl

/-- The next attempt is inserted under a fresh uuid, unless the job has a run of that attempt. -/
theorem exists_insertRun {next : JobRun} (hn : db.run? next.id = none)
    (hj : (db.job? next.jobId).isSome = true) :
    ∃ db', db.insertRun next = some db' ∧ db'.work ≤ db.work + next.work ∧
      db'.size + db'.work ≤ db.size + db.work + 1 + next.work := by
  refine ⟨_, insertRun_fresh hn hj, ?_⟩
  split
  · exact ⟨by omega, by omega⟩
  · simp only [work, size, addRun, List.map_append, List.sum_append, List.map_singleton,
      List.sum_singleton, List.length_append, List.length_singleton]
    exact ⟨le_rfl, by omega⟩

end Db

/-! ## The node -/

/-- The executor 0 and the recovery worker 0, alone with the database. -/
structure Node where
  db : Db
  clock : Time
  executor : Executor.State := {}
  recovery : Recovery.State := {}

namespace Node

/-- The rows after the transaction of a step. -/
def commit (db : Db) (t : Option Txn) : Option Db := t.elim (some db) (·.apply db)

/-- A step of the system in which only the two take part. -/
def step (env : Env) (n : Node) : Action → Option Node
  | .advance t => if n.clock ≤ t then some { n with clock := t } else none
  | .execute 0 a =>
    (Executor.step env 0 n.db n.clock n.executor a).bind fun (st, t) =>
      (commit n.db t).map fun db => { n with db := db, executor := st }
  | .recover 0 a =>
    (Recovery.step n.db n.clock n.recovery a).bind fun (st, t) =>
      (commit n.db t).map fun db => { n with db := db, recovery := st }
  | _ => none

end Node

/-- What the two see of the system. -/
def Sys.node (s : Sys) : Node where
  db := s.db
  clock := s.clock
  executor := s.executors 0
  recovery := s.recoveries 0

namespace Sys

variable {env : Env} {s : Sys} {n : Node} {a : Action}

/-- Where no scheduler has locked a row, a transaction commits. -/
theorem commit_of_locks {t : Option Txn} {db : Db} (hl : s.locks = [])
    (h : Node.commit s.db t = some db) : s.commit none t = some { s with db := db } := by
  cases t with
  | none =>
    cases h
    rfl
  | some t =>
    have hfree : s.unlocked none t.subs = true := by simp [unlocked, hl]
    rw [commit, hfree, if_pos rfl, show t.apply s.db = some db from h]
    rfl

/-- The system follows the node while no scheduler has locked a row. -/
theorem step_of_node (hl : s.locks = []) (h : s.node.step env a = some n) :
    ∃ s', s.step env a = some s' ∧ s'.locks = [] ∧ s'.node = n := by
  unfold Node.step at h
  split at h
  · rename_i t
    split at h
    · rename_i hle
      cases h
      have hplan : s.plan env (.advance t) = some ({ s with clock := t }, none) := if_pos hle
      exact ⟨{ s with clock := t }, by rw [step, hplan]; rfl, hl, rfl⟩
    · cases h
  · rename_i a
    obtain ⟨⟨st, t⟩, hst, h⟩ := Option.bind_eq_some_iff.mp h
    obtain ⟨db, hdb, rfl⟩ := Option.map_eq_some_iff.mp h
    let s₁ : Sys := { s with
      executors := Function.update s.executors 0 st
      payments := s.paymentsAfter env (s.executors 0).phase a }
    have hplan : s.plan env (.execute 0 a) = some (s₁, t) := by
      rw [plan, show Executor.step env 0 s.db s.clock (s.executors 0) a = some (st, t) from hst]
      rfl
    refine ⟨{ s₁ with db := db }, ?_, hl, ?_⟩
    · rw [step, hplan]
      exact commit_of_locks hl hdb
    · simp [node, s₁]
  · rename_i a
    obtain ⟨⟨st, t⟩, hst, h⟩ := Option.bind_eq_some_iff.mp h
    obtain ⟨db, hdb, rfl⟩ := Option.map_eq_some_iff.mp h
    let s₁ : Sys := { s with recoveries := Function.update s.recoveries 0 st }
    have hplan : s.plan env (.recover 0 a) = some (s₁, t) := by
      rw [plan, show Recovery.step s.db s.clock (s.recoveries 0) a = some (st, t) from hst]
      rfl
    refine ⟨{ s₁ with db := db }, ?_, hl, ?_⟩
    · rw [step, hplan]
      exact commit_of_locks hl hdb
    · simp [node, s₁]
  · cases h

end Sys

/-! ## The executor's round -/

namespace Node

variable {env : Env} {ok : Json} {n n' : Node} {a : Action} {db db' : Db}

theorem execute_eq {a : Executor.Action} {st : Executor.State} {t : Option Txn}
    (h : Executor.step env 0 n.db n.clock n.executor a = some (st, t))
    (hc : commit n.db t = some db') :
    n.step env (.execute 0 a) = some { n with db := db', executor := st } := by
  simp only [step, h, Option.bind_some, hc, Option.map_some]

theorem recover_eq {a : Recovery.Action} {st : Recovery.State} {t : Option Txn}
    (h : Recovery.step n.db n.clock n.recovery a = some (st, t)) (hc : commit n.db t = some db') :
    n.step env (.recover 0 a) = some { n with db := db', recovery := st } := by
  simp only [step, h, Option.bind_some, hc, Option.map_some]

/-- The node can come to rest with less work than in `db`, and room for what is left. -/
def Improves (env : Env) (ok : Json) (db : Db) (n : Node) : Prop :=
  ∃ n', Lts.Leads (step env) (Action.Repairs ok) n n' ∧
    n'.executor = {} ∧ n'.recovery = {} ∧ n'.db.work < db.work ∧
    n'.db.size + n'.db.work ≤ db.size + db.work

theorem Improves.step (ha : a.Repairs ok) (hs : n.step env a = some n')
    (h : Improves env ok db n') : Improves env ok db n := by
  obtain ⟨n'', hn, h⟩ := h
  exact ⟨n'', hn.head ha hs, h⟩

/-- The two are restarted. -/
theorem Improves.rest (hw : n.db.work < db.work)
    (hs : n.db.size + n.db.work ≤ db.size + db.work) : Improves env ok db n := by
  have he : n.step env (.execute 0 .crash) = some { n with executor := {} } := rfl
  have hr : Node.step env { n with executor := {} } (.recover 0 .crash) =
      some { n with executor := {}, recovery := {} } := rfl
  exact ⟨_, .head (a := .execute 0 .crash) ⟨rfl, trivial⟩ he
    (.head (a := .recover 0 .crash) rfl hr .refl), rfl, rfl, hw, hs⟩

/-- The executor works on the run `c.run`, which it has claimed in `db`. -/
structure Working (env : Env) (db db' : Db) (c : Executor.Loaded) : Prop where
  wf : db'.Wf
  run : db'.run? c.run.id = some c.run
  work : c.run.work = 2
  key : db'.key? c.run.id c.run.attempt = none
  texts : ∀ a ∈ db'.idempotencyKeys, a.key = IdempotencyKey.forRun env a.jobRunId a.attempt
  total : db'.work = db.work + 1
  size : db'.size = db.size
  room : db.size < 2 ^ 128

variable {c : Executor.Loaded} {config : PaymentConfig} {t : Time} {todo : List UUID}

/-- The run has been settled. -/
theorem Working.settled (hW : Working env db db' c) (hw : n.db.work + c.run.work = db'.work)
    (hs : n.db.size ≤ db'.size + 1) : Improves env ok db n := by
  have hwork := hW.work
  have htotal := hW.total
  have hsize := hW.size
  exact .rest (by omega) (by omega)

/-- A failure that is not retried is buried. -/
theorem Working.failing (hW : Working env db db' c) {error : String} :
    Improves env ok db
      { db := db', clock := t, executor := { todo := todo, phase := .failing c error false } } := by
  obtain ⟨u, -, hu⟩ := Db.exists_fresh (hW.size ▸ hW.room)
  obtain ⟨db'', hc, hwork, hsize⟩ : ∃ db'',
      (Executor.moveToDlq env 0 t c error u).apply db' = some db'' ∧
        db''.work + c.run.work = db'.work ∧ db''.size = db'.size + 1 :=
    Db.exists_moveToDlq hW.wf hW.run hu
  have htxn : Executor.handleFailure env 0 t c error false 0 u =
      some (Executor.moveToDlq env 0 t c error u) := by
    rw [Executor.handleFailure, if_neg (by simp)]
  have hstep : Executor.step env 0 db' t { todo := todo, phase := .failing c error false }
      (.fail 0 u) = some ({ todo := todo }, some (Executor.moveToDlq env 0 t c error u)) := by
    simp [Executor.step, htxn]
  exact .step (a := .execute 0 (.fail 0 u)) ⟨rfl, trivial⟩ (execute_eq hstep hc)
    (hW.settled hwork hsize.le)

/-- Dependencies that are not DONE cancel the job. -/
theorem Working.cancelling (hW : Working env db db' c) :
    Improves env ok db
      { db := db', clock := t, executor := { todo := todo, phase := .cancelling c } } := by
  let f (r : JobRun) := r.fail "DAG dependency not satisfied" t
  have hwork : (db'.updateRun c.run.id f).work + c.run.work = db'.work :=
    Db.work_updateRun hW.wf hW.run f
  have hsize : (db'.updateRun c.run.id f).size = db'.size := Db.size_updateRun f
  exact .step (a := .execute 0 .cancelDag) ⟨rfl, trivial⟩ (execute_eq rfl rfl)
    (hW.settled hwork (hsize.le.trans (Nat.le_succ _)))

/-- The payment is made, and its id is recorded. -/
theorem Working.finding (hW : Working env db db' c) (hh : Function.Injective env.hexdigest)
    {id : Json} {v : Option String} (hid : Executor.paymentId ok = .ok id)
    (hv : varchar? id = some v) :
    Improves env ok db
      { db := db', clock := t, executor := { todo := todo, phase := .finding c config } } := by
  let k : IdempotencyKeyRecord :=
    { key := IdempotencyKey.forRun env c.run.id c.run.attempt
      jobRunId := c.run.id
      attempt := c.run.attempt
      bunqPaymentId := v
      createdAt := t }
  obtain ⟨db'', hc, hwork, hsize⟩ : ∃ db'',
      db'.persistSuccess k c.run c.subscription.id = some db'' ∧
        db''.work + c.run.work = db'.work ∧ db''.size = db'.size := by
    refine Db.exists_persistSuccess hW.wf hW.run rfl hW.key fun a ha he => ?_
    rw [hW.texts a ha] at he
    exact idempotency_text_inj (hh he)
  have hfind : Executor.step env 0 db' t { todo := todo, phase := .finding c config } .findKey =
      some ({ todo := todo, phase := .calling c config }, none) := by
    simp [Executor.step, hW.key]
  have hcall : Executor.step env 0 db' t { todo := todo, phase := .calling c config }
      (.call true (.returned ok)) = some ({ todo := todo, phase := .persisting c id }, none) := by
    simp [Executor.step, Executor.afterCall, hid]
  have hpersist : Executor.step env 0 db' t { todo := todo, phase := .persisting c id } .persist =
      some ({ todo := todo }, some (.persistSuccess k c.run c.subscription.id)) := by
    simp [Executor.step, Executor.persistSuccess, hv, k]
  exact .step (a := .execute 0 .findKey) ⟨rfl, trivial⟩ (execute_eq hfind rfl)
    (.step (a := .execute 0 (.call true (.returned ok))) ⟨rfl, rfl, rfl⟩ (execute_eq hcall rfl)
      (.step (a := .execute 0 .persist) ⟨rfl, trivial⟩ (execute_eq hpersist hc)
        (hW.settled hwork (hsize.le.trans (Nat.le_succ _)))))

/-- The executor settles the run that it has claimed. -/
theorem Working.claimed (hW : Working env db db' c) (hh : Function.Injective env.hexdigest)
    {id : Json} {v : Option String} (hid : Executor.paymentId ok = .ok id)
    (hv : varchar? id = some v) {x : UUID} (hload : Executor.loadRun db' x = some c) :
    Improves env ok db
      { db := db', clock := t, executor := { todo := todo, phase := .claimed x } } := by
  refine .step (a := .execute 0 .load) ⟨rfl, trivial⟩ (execute_eq rfl rfl) ?_
  simp only [Executor.executeRun, hload]
  split
  · exact hW.failing
  · rename_i config _
    split
    · exact hW.finding hh hid hv
    · refine .step (a := .execute 0 .checkDeps) ⟨rfl, trivial⟩ (execute_eq rfl rfl) ?_
      simp only
      split
      · exact hW.finding hh hid hv
      · exact hW.cancelling

/-- The rows from which a round starts. -/
structure Ready (env : Env) (db : Db) : Prop where
  wf : db.Wf
  keyed : db.Keyed
  rows : ∀ r ∈ db.jobRuns, r.WellFormed
  texts : ∀ a ∈ db.idempotencyKeys, a.key = IdempotencyKey.forRun env a.jobRunId a.attempt
  room : db.size < 2 ^ 128

/-- At the time at which a PENDING run is due, a fetch finds one. -/
theorem Ready.exists_fetch (hR : Ready env db) (hb : 0 < env.settings.executorBatchSize)
    {r : JobRun} (hr : r ∈ db.jobRuns) (hp : r.status = .pending) (now : Time) :
    ∃ t order rest r', now ≤ t ∧
      Executor.fetchPendingRunIds env db t order [] = some (r'.id :: rest) ∧
      db.run? r'.id = some r' ∧ r'.status = .pending := by
  let t : Time := max now (r.retryAfter.getD now)
  have hready : (r.retryAfter.all fun u => decide (u ≤ t)) = true := by
    cases hl : r.retryAfter with
    | none => rfl
    | some u =>
      rw [Option.all_some, decide_eq_true_eq]
      exact le_max_of_le_right (by rw [hl]; exact le_rfl)
  obtain ⟨r', rows, order, hsel, hmem, hdue⟩ := Table.exists_select_cons
    (p := fun r : JobRun =>
      decide (r.status = .pending ∧ (r.retryAfter.all fun u => decide (u ≤ t)) ∧ r.id ∉ []))
    (k := fun r : JobRun => r.createdAt) hR.wf.runIds hb hr (by simp [hp, hready])
  exact ⟨t, order, rows.map (·.id), r', le_max_left _ _,
    Option.map_eq_some_iff.mpr ⟨_, hsel, rfl⟩, hR.wf.run?_mem.mp hmem, (of_decide_eq_true hdue).1⟩

/-- The claim of a PENDING run: what the executor loads next. -/
theorem Ready.claim (hR : Ready env db) {r : JobRun} (hr : db.run? r.id = some r)
    (hp : r.status = .pending) (t : Time) :
    ∃ lock c, Executor.processRun env 0 db t r.id false =
        (.claimed r.id, some (.claim r.id (env.workerId 0) t lock)) ∧
      Executor.loadRun (db.claim r.id (env.workerId 0) t lock) r.id = some c ∧
      Working env db (db.claim r.id (env.workerId 0) t lock) c := by
  obtain ⟨j, hj⟩ := hR.wf.runJob r (Table.get?_mem hr)
  obtain ⟨b, hb⟩ := hR.wf.jobSub j (Table.get?_mem hj)
  let lock := t + seconds env.settings.executorLockTimeoutS
  let db' := db.claim r.id (env.workerId 0) t lock
  have hrun : db'.run? r.id = some (r.claim (env.workerId 0) t lock) := by
    rw [Db.run?_claim, if_pos rfl, hr]
    rfl
  have hjob : db'.job? (r.claim (env.workerId 0) t lock).jobId = some j := hj
  have hsub : db'.sub? j.subscriptionId = some b := hb
  refine ⟨lock, ⟨r.claim (env.workerId 0) t lock, j, b⟩, ?_, ?_, ?_⟩
  · simp [Executor.processRun, hr, hp, hj, hb, lock]
  · simp only [Executor.loadRun, Option.bind_eq_bind]
    rw [hrun, Option.bind_some, hjob, Option.bind_some, hsub]
    rfl
  constructor
  · exact hR.wf.updateRun (fun _ => rfl) (fun _ => rfl) fun _ => rfl
  · exact hrun
  · rfl
  · -- A run with a key is over.
    refine Option.eq_none_iff_forall_ne_some.mpr fun k hk => ?_
    have hk : db.key? r.id r.attempt = some k := hk
    obtain ⟨r', -, hr', -, hover, -⟩ := hR.keyed.keyed hk
    rw [hr] at hr'
    cases hr'
    rw [hp] at hover
    obtain hover | hover := hover <;> cases hover
  · exact hR.texts
  · have hwork := Db.work_updateRun hR.wf hr fun r => r.claim (env.workerId 0) t lock
    have hone : r.work = 1 := by rw [JobRun.work, hp]
    have htwo : (r.claim (env.workerId 0) t lock).work = 2 := rfl
    change (db.updateRun r.id fun r => r.claim (env.workerId 0) t lock).work = db.work + 1
    omega
  · exact Db.size_updateRun _
  · exact hR.room

/-- A round of the executor, where a run is PENDING. -/
theorem Ready.settle_pending (hR : Ready env db) (hb : 0 < env.settings.executorBatchSize)
    (hh : Function.Injective env.hexdigest) {id : Json} {v : Option String}
    (hid : Executor.paymentId ok = .ok id) (hv : varchar? id = some v) {r : JobRun}
    (hr : r ∈ db.jobRuns) (hp : r.status = .pending) {now : Time} :
    Improves env ok db { db := db, clock := now } := by
  obtain ⟨t, order, rest, r', hle, hfetch, hr', hp'⟩ := hR.exists_fetch hb hr hp now
  obtain ⟨lock, c, hclaim, hload, hW⟩ := hR.claim hr' hp' t
  have hadvance : Node.step env { db := db, clock := now } (.advance t) =
      some { db := db, clock := t } := if_pos hle
  have hfetched : Executor.step env 0 db t {} (.fetch order []) =
      some ({ todo := r'.id :: rest }, none) := by
    simp [Executor.step, hfetch]
  have hclaimed : Executor.step env 0 db t { todo := r'.id :: rest } (.claim false) =
      some ({ todo := rest, phase := .claimed r'.id },
        some (.claim r'.id (env.workerId 0) t lock)) := by
    simp [Executor.step, hclaim]
  exact .step (a := .advance t) trivial hadvance
    (.step (a := .execute 0 (.fetch order [])) ⟨rfl, trivial⟩ (execute_eq hfetched rfl)
      (.step (a := .execute 0 (.claim false)) ⟨rfl, rfl⟩ (execute_eq hclaimed rfl)
        (hW.claimed hh hid hv hload)))

/-! ## The recovery worker's round -/

/-- When the lock of a RUNNING run has expired, a scan finds one. -/
theorem Ready.exists_scan (hR : Ready env db) {r : JobRun} (hr : r ∈ db.jobRuns)
    (hp : r.status = .running) (now : Time) :
    ∃ t order rest r', now ≤ t ∧ Recovery.stuckRuns db t order = some (r'.id :: rest) ∧
      db.run? r'.id = some r' ∧ Recovery.isStuck t r' = true := by
  obtain ⟨t₀, hstuck⟩ := (hR.rows r hr).running_iff.mp hp
  let t : Time := max now t₀
  obtain ⟨r', rows, order, hsel, hmem, hs⟩ := Table.exists_select_cons (p := Recovery.isStuck t)
    (k := fun r : JobRun => r.lockExpiresAt.getD 0) hR.wf.runIds (by decide : 0 < 50) hr
    (Recovery.isStuck_mono (le_max_right _ _) hstuck)
  exact ⟨t, order, rows.map (·.id), r', le_max_left _ _,
    Option.map_eq_some_iff.mpr ⟨_, hsel, rfl⟩, hR.wf.run?_mem.mp hmem, hs⟩

/-- A run that the recovery worker has taken is buried, or has its next attempt. -/
theorem Ready.route (hR : Ready env db) {r : JobRun} {b : Subscription}
    (hr : db.run? r.id = some r) (hs : r.status = .running) {since t : Time} {stuck : List UUID} :
    Improves env ok db
      { db := db.reclaim r.id since
        clock := t
        recovery :=
          { now := since
            stuck := stuck
            phase := .claimed r.id r.jobId r.attempt b } } := by
  let f (r : JobRun) := r.reclaim since
  let db' := db.reclaim r.id since
  have hwf : db'.Wf := hR.wf.updateRun (fun _ => rfl) (fun _ => rfl) fun _ => rfl
  have hrun : db'.run? r.id = some (f r) := by
    rw [Db.run?_reclaim, if_pos rfl, hr]
    rfl
  have hwork : db'.work + 2 = db.work := by
    have htwo : r.work = 2 := by rw [JobRun.work, hs]
    have := Db.work_updateRun hR.wf hr f
    rwa [htwo] at this
  have hsize : db'.size = db.size := Db.size_updateRun f
  obtain ⟨u, hu, hu'⟩ := Db.exists_fresh (hsize ▸ hR.room)
  obtain ⟨db'', hc, hw'', hs''⟩ : ∃ db'', (Recovery.route t r.id r.jobId r.attempt b u).apply db' =
      some db'' ∧ db''.work < db.work ∧ db''.size + db''.work ≤ db.size + db.work := by
    unfold Recovery.route
    split
    · obtain ⟨db'', hc, hw'', hs''⟩ : ∃ db'',
          (Recovery.moveToDlq t r.id r.jobId r.attempt b _ u).apply db' = some db'' ∧
            db''.work + (f r).work = db'.work ∧ db''.size = db'.size + 1 :=
        Db.exists_moveToDlq hwf hrun hu'
      exact ⟨db'', hc, by omega, by omega⟩
    · obtain ⟨j, hj⟩ := hR.wf.runJob r (Table.get?_mem hr)
      have hjob : (db'.job? r.jobId).isSome = true := by
        rw [show db'.job? r.jobId = db.job? r.jobId from rfl, hj]
        rfl
      let next : JobRun := { id := u, jobId := r.jobId, attempt := r.attempt + 1, createdAt := t }
      have hone : next.work = 1 := rfl
      have hnone : db'.run? next.id = none := hu
      obtain ⟨db'', hc, hw'', hs''⟩ := Db.exists_insertRun hnone hjob
      exact ⟨db'', hc, by omega, by omega⟩
  exact .step (a := .recover 0 (.route u)) rfl (recover_eq rfl hc) (.rest hw'' hs'')

/-- A round of the recovery worker, where a run is RUNNING. -/
theorem Ready.settle_running (hR : Ready env db) {r : JobRun} (hr : r ∈ db.jobRuns)
    (hp : r.status = .running) {now : Time} :
    Improves env ok db { db := db, clock := now } := by
  obtain ⟨t, order, rest, r', hle, hscan, hr', hs⟩ := hR.exists_scan hr hp now
  obtain ⟨j, hj⟩ := hR.wf.runJob r' (Table.get?_mem hr')
  obtain ⟨b, hb⟩ := hR.wf.jobSub j (Table.get?_mem hj)
  have hadvance : Node.step env { db := db, clock := now } (.advance t) =
      some { db := db, clock := t } := if_pos hle
  have hscanned : Recovery.step db t {} (.scanStuck order) =
      some ({ now := t, stuck := r'.id :: rest }, none) := by
    simp [Recovery.step, hscan]
  have hreclaimed : Recovery.step db t { now := t, stuck := r'.id :: rest } .reclaim =
      some ({ now := t, stuck := rest, phase := .claimed r'.id r'.jobId r'.attempt b },
        some (.reclaim r'.id t)) := by
    simp [Recovery.step, Recovery.recoverSingleRunById, hr', hs, hj, hb]
  have hrunning : r'.status = .running := (of_decide_eq_true hs).1
  exact .step (a := .advance t) trivial hadvance
    (.step (a := .recover 0 (.scanStuck order)) rfl (recover_eq hscanned rfl)
      (.step (a := .recover 0 .reclaim) rfl (recover_eq hreclaimed rfl)
        (hR.route hr' hrunning)))

end Node

/-! ## The system -/

theorem Scheduler.step_abort {env : Env} {db : Db} {now : Time} (st : Scheduler.State) :
    Scheduler.step env db now st .abort = some (.idle, none) := by
  rcases st with _ | _ | ⟨_, _, _ | _, _⟩ <;> rfl

namespace Sys

variable {env : Env} {ok : Json} {s s' : Sys}

/-- A chain of the node is one of the system. -/
theorem leads_of_node {n : Node} (hl : s.locks = [])
    (h : Lts.Leads (Node.step env) (Action.Repairs ok) s.node n) :
    ∃ s', Lts.Leads (step env) (Action.Repairs ok) s s' ∧ s'.locks = [] ∧ s'.node = n := by
  refine Lts.Leads.lift (R := fun (s : Sys) n => s.locks = [] ∧ s.node = n) ?_ h ⟨hl, rfl⟩
  rintro n a t s ⟨hl, rfl⟩ ha hst
  obtain ⟨s', hs, hl', hn⟩ := step_of_node hl hst
  exact ⟨a, s', ha, hs, hl', hn⟩

/-- The schedulers roll back until no row is locked. -/
theorem leads_unlocked (env : Env) (ok : Json) (s : Sys) :
    ∃ s', Lts.Leads (step env) (Action.Repairs ok) s s' ∧ s'.node = s.node ∧ s'.locks = [] := by
  refine Lts.Leads.of_measure (I := fun s' : Sys => s'.node = s.node)
    (fun s : Sys => s.locks.length) ?_ rfl
  intro s₁ hnode
  cases hlocks : s₁.locks with
  | nil => exact .inl rfl
  | cons kl rest =>
    obtain ⟨k, l⟩ := kl
    let s₂ : Sys := { s₁ with
      schedulers := Function.update s₁.schedulers k .idle
      locks := (s₁.locks.filter fun q => q.1 ≠ k) ++ [] }
    have hstep : s₁.step env (.schedule k .abort) = some s₂ := by
      rw [step, plan, Scheduler.step_abort]
      rfl
    refine .inr ⟨s₂, .head (a := .schedule k .abort) rfl hstep .refl, hnode, ?_⟩
    simp only [s₂, hlocks, List.append_nil, List.filter_cons, ne_eq, not_true_eq_false,
      decide_false, Bool.false_eq_true, if_false, List.length_cons]
    exact Nat.lt_succ_of_le (List.length_filter_le _ _)

/-- The two workers are restarted, and no row of a subscription is locked. -/
structure AtRest (env : Env) (s : Sys) : Prop where
  reachable : Reachable env s
  locks : s.locks = []
  executor : s.executors 0 = {}
  recovery : s.recoveries 0 = {}
  room : s.db.size + s.db.work ≤ 2 ^ 128

theorem Reachable.ready (h : Reachable env s) (hroom : s.db.size < 2 ^ 128) :
    Node.Ready env s.db := by
  have hrows : Owned s ∧ RowsWellFormed s := by
    refine Lts.Reach.inv (I := fun s => Owned s ∧ RowsWellFormed s) ?_ ?_ h
    · rintro s a s' ⟨hI, hR⟩ hs
      exact ⟨hI.step hs, hR.step hI hs⟩
    · exact ⟨Owned.init, fun hr => by cases hr⟩
  have hI := h.owned
  exact
    { wf := hI.wf
      keyed := hI.keyed
      rows := fun r hr => hrows.2 (hI.wf.run?_mem.mp hr)
      texts := fun a ha => h.key_text (hI.wf.key?_mem.mp ha)
      room := hroom }

/-- A round: while a run is PENDING or RUNNING, one of the two can settle a run. -/
theorem AtRest.round (hA : AtRest env s) (hb : 0 < env.settings.executorBatchSize)
    (hh : Function.Injective env.hexdigest) {id : Json} {v : Option String}
    (hid : Executor.paymentId ok = .ok id) (hv : varchar? id = some v) :
    (∀ r ∈ s.db.jobRuns, r.status.isLive = false) ∨
      ∃ s', Lts.Leads (step env) (Action.Repairs ok) s s' ∧ AtRest env s' ∧
        s'.db.work < s.db.work := by
  by_cases hzero : s.db.work = 0
  · exact .inl (Db.work_eq_zero.mp hzero)
  have hroom := hA.room
  have hready := hA.reachable.ready (by omega)
  obtain ⟨r, hr, hlive⟩ : ∃ r ∈ s.db.jobRuns, ¬ r.status.isLive = false := by
    simpa only [not_forall, exists_prop] using mt Db.work_eq_zero.mpr hzero
  have hnode : s.node = { db := s.db, clock := s.clock } := by
    simp only [node, hA.executor, hA.recovery]
  have himproves : Node.Improves env ok s.db s.node := by
    rw [hnode]
    cases hs : r.status with
    | pending => exact hready.settle_pending hb hh hid hv hr hs
    | running => exact hready.settle_running hr hs
    | succeeded | failed | dead =>
      rw [hs] at hlive
      exact absurd rfl hlive
  obtain ⟨n, hn, hexec, hrec, hwork, hsize⟩ := himproves
  obtain ⟨s', hleads, hlocks, rfl⟩ := leads_of_node hA.locks hn
  obtain ⟨as, -, hrun⟩ := hleads.exists_run
  exact .inr ⟨s', hleads, ⟨hA.reachable.trans hrun, hlocks, hexec, hrec, hsize.trans hroom⟩, hwork⟩

/-- From every reachable state, wherever the workers have been stopped, there is a run of one
executor and one recovery worker, both restarted, after which no run is PENDING or RUNNING: if bunq
answers each call with an id that the driver takes, the hash has no collisions, and there are uuids
left for the attempts and the dead letters. -/
theorem runs_settled (env : Env) (hb : 0 < env.settings.executorBatchSize)
    (hh : Function.Injective env.hexdigest) {ok id : Json} {v : Option String}
    (hid : Executor.paymentId ok = .ok id) (hv : varchar? id = some v) (as : List Action)
    (hr : Lts.run (step env) init as = some s) (hroom : s.db.size + s.db.work ≤ 2 ^ 128) :
    ∃ bs s', (∀ a ∈ bs, a.Repairs ok) ∧ Lts.run (step env) s bs = some s' ∧
      ∀ r ∈ s'.db.jobRuns, r.status.isLive = false := by
  obtain ⟨s₁, hfree, hnode, hlocks⟩ := leads_unlocked env ok s
  -- The restarts.
  have hrest : Lts.Leads (Node.step env) (Action.Repairs ok) s₁.node
      { db := s.db, clock := s.clock } := by
    rw [hnode]
    exact .head (a := .execute 0 .crash) ⟨rfl, trivial⟩ rfl
      (.head (a := .recover 0 .crash) rfl rfl .refl)
  obtain ⟨s₂, hcrash, hlocks₂, hnode₂⟩ := leads_of_node hlocks hrest
  have hdb : s₂.db = s.db := congrArg Node.db hnode₂
  have hleads := Relation.ReflTransGen.trans hfree hcrash
  obtain ⟨bs, -, hrun⟩ := Lts.Leads.exists_run hleads
  have hA : AtRest env s₂ :=
    { reachable := Lts.Reach.trans ⟨as, hr⟩ hrun
      locks := hlocks₂
      executor := congrArg Node.executor hnode₂
      recovery := congrArg Node.recovery hnode₂
      room := by rwa [hdb] }
  obtain ⟨s', hsettle, -, hsettled⟩ := Lts.Leads.of_measure (I := AtRest env)
    (fun s => s.db.work) (fun hA => hA.round hb hh hid hv) hA
  obtain ⟨bs', hrepairs, hrun'⟩ := Lts.Leads.exists_run (Relation.ReflTransGen.trans hleads hsettle)
  exact ⟨bs', s', hrepairs, hrun', hsettled⟩

end Sys

namespace Demo

/-- The executor calls bunq, and a scheduler has locked the subscription. -/
def halted : List Action :=
  opening policy ++ [.advance (start + seconds 60), .schedule 1 .start,
    .schedule 1 (.select 2 [subId] [])]

theorem halted_settled : ∃ s, Lts.run (Sys.step windowEnv) Sys.init halted = some s ∧
    (s.locks = [(1, subId)] ∧ s.db.work = 2) ∧
    ∃ bs s', (∀ a ∈ bs, a.Repairs response) ∧ Lts.run (Sys.step windowEnv) s bs = some s' ∧
      ∀ r ∈ s'.db.jobRuns, r.status.isLive = false := by
  have heval : (Lts.run (Sys.step windowEnv) Sys.init halted).any (fun s =>
      s.locks = [(1, subId)] ∧ s.db.work = 2 ∧ s.db.size + s.db.work ≤ 2 ^ 128) = true := by
    decide +kernel
  obtain ⟨s, hr, hs⟩ := Lts.exists_run heval
  obtain ⟨hlocks, hwork, hroom⟩ := of_decide_eq_true hs
  have hid : Executor.paymentId response = .ok (.str "42") := rfl
  have hv : varchar? (.str "42") = some (some "42") := rfl
  exact ⟨s, hr, ⟨hlocks, hwork⟩, Sys.runs_settled windowEnv (by decide) (Equiv.injective _) hid hv
    halted hr hroom⟩

end Demo

end PaymentScheduler
