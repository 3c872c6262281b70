import PaymentScheduler.Worker.Executor
import PaymentScheduler.Worker.Recovery
import PaymentScheduler.Worker.Scheduler
import PaymentScheduler.Api.Requests
import PaymentScheduler.Lib.Lts

/-!
# The system

The committed rows, bunq, one monotone clock, and any number of schedulers, executors, recovery
workers and requests, each in a state of its own. An action is one step of one of them; what it
commits is one transaction (`commit`), which waits where another transaction holds a row that it
updates: only the scheduler keeps rows locked over several steps (`locks`).

bunq keeps one payment for each idempotency key. A call can create the payment at any moment until
it ends, whatever the executor gets to see of it (`Outcome`).
-/

namespace PaymentScheduler

/-- A payment of bunq: its key, the run and the job that it was created for, and what was paid. -/
structure Payment where
  key : String
  jobRunId : UUID
  jobId : UUID
  config : PaymentConfig

structure Sys where
  db : Db := {}
  clock : Time := 0
  payments : List Payment := []
  /-- The rows of `subscriptions` that the open transaction of a scheduler has locked. -/
  locks : List (Nat × UUID) := []
  schedulers : Nat → Scheduler.State := fun _ => .idle
  executors : Nat → Executor.State := fun _ => {}
  recoveries : Nat → Recovery.State := fun _ => {}
  requests : Nat → Api.State := fun _ => .idle

inductive Action where
  | advance (t : Time)
  | schedule (k : Nat) (a : Scheduler.Action)
  | execute (w : Nat) (a : Executor.Action)
  | recover (v : Nat) (a : Recovery.Action)
  | request (r : Nat) (a : Api.Action)
  /-- Another producer inserts a job and its first run, the uuid of which is `runId`. -/
  | produce (j : ScheduledJob) (runId : UUID)

/-- The scheduler that takes an action. -/
def Action.scheduler? : Action → Option Nat
  | schedule k _ => some k
  | _ => none

/-- The empty database, and no worker at work. -/
def Sys.init : Sys := {}

/-- bunq keeps the first payment of a key. -/
def pay (ps : List Payment) (p : Payment) : List Payment :=
  if ps.any fun q => q.key = p.key then ps else ps ++ [p]

/-- The rows that a scheduler has locked. -/
def Scheduler.held : Scheduler.State → List UUID
  | .opened _ _ todo writes => todo.map (·.id) ++ writes.map (·.subscriptionId)
  | _ => []

namespace Sys

/-- No other transaction than that of the scheduler `k?` has locked one of the rows. -/
def unlocked (s : Sys) (k? : Option Nat) (rows : List UUID) : Bool :=
  rows.all fun i => s.locks.all fun (k, l) => l ≠ i ∨ some k = k?

/-- The transaction of a step, if it commits one. Its texts are not checked, as they are in
`Txn.commit`: the worker whose text is refused takes its step `error`. -/
def commit (s : Sys) (k? : Option Nat) : Option Txn → Option Sys
  | none => some s
  | some t =>
    if s.unlocked k? t.subs then (t.apply s.db).map fun db => { s with db := db } else none

/-- The payments after an action of an executor in the phase `p`. -/
def paymentsAfter (env : Env) (s : Sys) (p : Executor.Phase) : Executor.Action → List Payment
  | .call true _ =>
    match p with
    | .calling c config =>
      pay s.payments
        { key := IdempotencyKey.forRun env c.run.id c.run.attempt
          jobRunId := c.run.id
          jobId := c.run.jobId
          config := config }
    | _ => s.payments
  | _ => s.payments

/-- The transaction of an action, and the state before its commit. -/
def plan (env : Env) (s : Sys) : Action → Option (Sys × Option Txn)
  | .advance t => if s.clock ≤ t then some ({ s with clock := t }, none) else none
  | .schedule k a =>
    (Scheduler.step env s.db s.clock (s.schedulers k) a).bind fun (st, t) =>
      if s.unlocked (some k) (Scheduler.held st) then
        some ({ s with
          schedulers := Function.update s.schedulers k st
          locks := (s.locks.filter fun (h, _) => h ≠ k) ++
            (Scheduler.held st).map fun i => (k, i) }, t)
      else none
  | .execute w a =>
    (Executor.step env w s.db s.clock (s.executors w) a).map fun (st, t) =>
      ({ s with
        executors := Function.update s.executors w st
        payments := s.paymentsAfter env (s.executors w).phase a }, t)
  | .recover v a =>
    (Recovery.step s.db s.clock (s.recoveries v) a).map fun (st, t) =>
      ({ s with recoveries := Function.update s.recoveries v st }, t)
  | .request r a =>
    (Api.step env s.db s.clock (s.requests r) a).map fun (st, t) =>
      ({ s with requests := Function.update s.requests r st }, t)
  | .produce j runId =>
    if j.status.isOpen then some (s, some (.produce j runId)) else none

/-- One step of the system. -/
def step (env : Env) (s : Sys) (a : Action) : Option Sys :=
  (s.plan env a).bind fun (s', t) => s'.commit a.scheduler? t

/-- The transaction of an action. -/
def txn? (env : Env) (s : Sys) (a : Action) : Option Txn := (s.plan env a).bind (·.2)

/-- The transaction that a step commits, if any, satisfies `P` on the rows that it finds. -/
def OnCommit (env : Env) (P : Db → Txn → Prop) (s : Sys) (a : Action) (_ : Sys) : Prop :=
  ∀ t, s.txn? env a = some t → P s.db t

/-- A state that the system reaches. -/
def Reachable (env : Env) (s : Sys) : Prop := Lts.Reach (step env) init s

end Sys

/-! ## A deployment

The settings are the defaults. `hexdigest` gives the SHA-256 digests of the strings that occur,
and `getNext` is `croniter`'s answer for `* * * * *` in UTC. -/

namespace Demo

def subId : UUID := 0x00000000000040008000000000000001
def jobId : UUID := 0x00000000000040008000000000000002
def runId : UUID := 0x00000000000040008000000000000003
def nextId : UUID := 0x00000000000040008000000000000004
def entryId : UUID := 0x00000000000040008000000000000005

def digests : List (String × String) :=
  [("00000000-0000-4000-8000-000000000001:2024-06-01T07:01:00+00:00",
      "b8eee4b5a6f2bf81c07a41b299014705a1e64baddf16cee3e3e34d2a3da0791c"),
    ("00000000-0000-4000-8000-000000000003:1",
      "5d81077246d15d2b97923cd249b7f02e6e4743f477e232e798c37abcfad3306d"),
    ("00000000-0000-4000-8000-000000000004:2",
      "73fd719ad43d944d2777e51505645762a94bac53756789fc4ed68136e3028daf")]

def env : Env where
  hexdigest s := (digests.lookup s).getD s
  repr _ := ""
  pytzTimezone zone := if zone = "UTC" then some "UTC" else none
  getNext expression _ t := if expression = "* * * * *" then some (t / seconds 60 * seconds 60 +
    seconds 60) else none
  isValid expression := expression = "* * * * *"
  allTimezones := ["UTC"]
  workerId w := "worker-" ++ toString w

/-- 2024-06-01 07:00:00 UTC. -/
def start : Time := seconds 1717225200

/-- The default policy, and the one of a single attempt. -/
def policy : RetryPolicySchema := {}

def single : RetryPolicySchema := { maxAttempts := 1 }

def config : PaymentConfigSchema where
  amount := "12.50"
  counterpartyIban := "NL91ABNA0417164300"
  counterpartyName := "B. Jansen"

/-- A subscription of one payment each minute, with the given number of attempts. -/
def body (policy : RetryPolicySchema) : SubscriptionCreate where
  name := "Rent"
  cronExpression := "* * * * *"
  paymentConfig := config
  retryPolicy := policy

/-- bunq's answer, with the payment id 42. -/
def response : Json := .obj [("Response", .arr [.obj [("Id", .obj [("id", .str "42")])]])]

/-- Until the first run of the first job is claimed by executor 0, which calls bunq. -/
def opening (policy : RetryPolicySchema) : List Action :=
  [.advance start,
    .request 0 (.begin (.create (body policy) subId)),
    .schedule 0 .start,
    .schedule 0 (.select 1 [subId] []),
    .schedule 0 (.process jobId runId),
    .schedule 0 .commit,
    .execute 0 (.fetch [runId] []),
    .execute 0 (.claim false),
    .execute 0 .load,
    .execute 0 .findKey]

/-- The lock of the run expires, and recovery worker 0 takes the run. -/
def reclaimed : List Action :=
  [.advance (start + seconds 301),
    .recover 0 (.scanStuck [runId]),
    .recover 0 .reclaim]

end Demo

/-- The transactions of executors and recovery workers. -/
def Txn.works : Txn → Bool
  | claim .. | persistSuccess .. | markDagCancelled .. | scheduleRetry .. | moveToDlq .. => true
  | reclaim .. | insertAttempt .. | cancelOrphan .. => true
  | _ => false

/-- The transactions of requests. -/
def Txn.isRequest : Txn → Bool
  | createSubscription _ | updateSubscription .. | resume .. | resolve .. => true
  | _ => false

theorem Txn.isRequest_of_works {t : Txn} (h : t.works = true) : t.isRequest = false := by
  cases t <;> first | rfl | cases h

theorem Executor.Move.works {env : Env} {w : Nat} {db : Db} {now : Time} {p p' : Executor.Phase}
    {a : Executor.Action} {t : Txn} (h : Executor.Move env w db now p a p' (some t)) :
    t.works = true := by
  cases h with
  | persist ht =>
    obtain ⟨v, -, rfl⟩ := Option.map_eq_some_iff.mp ht
    rfl
  | fail ht => obtain ⟨-, -, retryAfter, rfl⟩ | rfl := Executor.handleFailure_cases ht <;> rfl
  | _ => rfl

theorem Recovery.Move.works {db : Db} {now : Time} {p p' : Recovery.Phase} {a : Recovery.Action}
    {t : Txn} (h : Recovery.Move db now p a p' (some t)) : t.works = true := by
  cases h with
  | route =>
    unfold Recovery.route
    split <;> rfl
  | _ => rfl

/-- The transactions of executors that recovery workers do not have. -/
def Txn.executes : Txn → Bool
  | claim .. | persistSuccess .. | markDagCancelled .. | scheduleRetry .. => true
  | _ => false

theorem Recovery.Move.not_executes {db : Db} {now : Time} {p p' : Recovery.Phase}
    {a : Recovery.Action} {t : Txn} (h : Recovery.Move db now p a p' (some t)) :
    t.executes = false := by
  cases h with
  | route =>
    unfold Recovery.route
    split <;> rfl
  | _ => rfl

/-- The rows after the transaction of a step, if it commits one. -/
def Db.Commits (db : Db) (t : Option Txn) (db' : Db) : Prop :=
  match t with
  | none => db' = db
  | some t => t.apply db = some db'

namespace Sys

variable {env : Env} {s s' : Sys}

theorem commit_cases {k? : Option Nat} {t : Option Txn} (h : s.commit k? t = some s') :
    ∃ db', s.db.Commits t db' ∧ s' = { s with db := db' } := by
  cases t with
  | none =>
    cases h
    exact ⟨s.db, rfl, rfl⟩
  | some t =>
    simp only [commit] at h
    split at h
    · obtain ⟨db', ht, rfl⟩ := Option.map_eq_some_iff.mp h
      exact ⟨db', ht, rfl⟩
    · cases h

/-- What a step of an executor changes. -/
theorem step_execute {w : Nat} {a : Executor.Action} (h : s.step env (.execute w a) = some s') :
    ∃ st t db', Executor.step env w s.db s.clock (s.executors w) a = some (st, t) ∧
      s.txn? env (.execute w a) = t ∧ s.db.Commits t db' ∧
      s' = { s with
        db := db'
        executors := Function.update s.executors w st
        payments := s.paymentsAfter env (s.executors w).phase a } := by
  obtain ⟨⟨s₁, t⟩, hp, h⟩ := Option.bind_eq_some_iff.mp h
  obtain ⟨⟨st, t'⟩, hst, he⟩ := Option.map_eq_some_iff.mp hp
  cases he
  obtain ⟨db', hc, rfl⟩ := commit_cases h
  refine ⟨st, t, db', hst, ?_, hc, rfl⟩
  simp [txn?, hp]

/-- What a step of a recovery worker changes. -/
theorem step_recover {v : Nat} {a : Recovery.Action} (h : s.step env (.recover v a) = some s') :
    ∃ st t db', Recovery.step s.db s.clock (s.recoveries v) a = some (st, t) ∧
      s.txn? env (.recover v a) = t ∧ s.db.Commits t db' ∧
      s' = { s with db := db', recoveries := Function.update s.recoveries v st } := by
  obtain ⟨⟨s₁, t⟩, hp, h⟩ := Option.bind_eq_some_iff.mp h
  obtain ⟨⟨st, t'⟩, hst, he⟩ := Option.map_eq_some_iff.mp hp
  cases he
  obtain ⟨db', hc, rfl⟩ := commit_cases h
  refine ⟨st, t, db', hst, ?_, hc, rfl⟩
  simp [txn?, hp]

/-- What a step of a request changes. -/
theorem step_request {r : Nat} {b : Api.Action} (h : s.step env (.request r b) = some s') :
    ∃ t, Api.step env s.db s.clock (s.requests r) b = some (s'.requests r, t) ∧
      s.txn? env (.request r b) = t ∧ s.db.Commits t s'.db := by
  obtain ⟨⟨s₁, t⟩, hp, h⟩ := Option.bind_eq_some_iff.mp h
  obtain ⟨⟨st, t'⟩, hst, he⟩ := Option.map_eq_some_iff.mp hp
  cases he
  obtain ⟨db', hc, rfl⟩ := commit_cases h
  refine ⟨t, ?_, ?_, hc⟩
  · simpa using hst
  · simp [txn?, hp]

/-- The transactions that come from the schedulers, the requests and the other producers. -/
def Intake : Option Txn → Prop
  | none => True
  | some (.schedule _) | some (.createSubscription _) | some (.updateSubscription ..)
  | some (.resume ..) | some (.resolve ..) => True
  | some (.produce j _) => j.status.isOpen = true
  | some _ => False

/-- The other actions keep the executors, the recovery workers and bunq. -/
theorem step_intake {a : Action} (h : s.step env a = some s') (he : ∀ w b, a ≠ .execute w b)
    (hr : ∀ v b, a ≠ .recover v b) :
    Intake (s.txn? env a) ∧ s.db.Commits (s.txn? env a) s'.db ∧ s'.executors = s.executors ∧
      s'.recoveries = s.recoveries ∧ s'.payments = s.payments := by
  obtain ⟨⟨s₁, t⟩, hp, h⟩ := Option.bind_eq_some_iff.mp h
  have ht : s.txn? env a = t := by simp [txn?, hp]
  obtain ⟨db', hc, rfl⟩ := commit_cases h
  rw [ht]
  cases a with
  | advance n =>
    simp only [plan] at hp
    split at hp <;> cases hp
    exact ⟨trivial, hc, rfl, rfl, rfl⟩
  | schedule k b =>
    obtain ⟨⟨st, t'⟩, hst, hp⟩ := Option.bind_eq_some_iff.mp hp
    dsimp only at hp
    split at hp <;> cases hp
    refine ⟨?_, hc, rfl, rfl, rfl⟩
    cases t with
    | none => trivial
    | some t =>
      obtain ⟨ws, rfl⟩ := Scheduler.step_txn hst
      trivial
  | execute w b => exact absurd rfl (he w b)
  | recover v b => exact absurd rfl (hr v b)
  | request r b =>
    obtain ⟨⟨st, t'⟩, hst, he⟩ := Option.map_eq_some_iff.mp hp
    cases he
    refine ⟨?_, hc, rfl, rfl, rfl⟩
    cases t with
    | none => trivial
    | some t =>
      rcases Api.step_txn hst with ⟨b, rfl⟩ | ⟨id, c, rfl⟩ | ⟨id, n, rfl⟩ | ⟨id, by', rfl⟩ <;>
        trivial
  | produce j runId =>
    simp only [plan] at hp
    split at hp
    · rename_i hj
      cases hp
      exact ⟨hj, hc, rfl, rfl, rfl⟩
    · cases hp

/-- The transaction of an action is one of the worker or the request that takes it. -/
theorem txn?_cases {a : Action} {t : Txn} (h : s.txn? env a = some t) :
    (∃ k b st, a = .schedule k b ∧
      Scheduler.step env s.db s.clock (s.schedulers k) b = some (st, some t)) ∨
    (∃ w b st, a = .execute w b ∧
      Executor.step env w s.db s.clock (s.executors w) b = some (st, some t)) ∨
    (∃ v b st, a = .recover v b ∧
      Recovery.step s.db s.clock (s.recoveries v) b = some (st, some t)) ∨
    (∃ r b st, a = .request r b ∧
      Api.step env s.db s.clock (s.requests r) b = some (st, some t)) ∨
    ∃ j runId, a = .produce j runId ∧ t = .produce j runId := by
  obtain ⟨⟨s₁, t'⟩, hp, he⟩ := Option.bind_eq_some_iff.mp h
  cases he
  cases a with
  | advance n =>
    simp only [plan] at hp
    split at hp <;> cases hp
  | schedule k b =>
    obtain ⟨⟨st, t'⟩, hst, hp⟩ := Option.bind_eq_some_iff.mp hp
    dsimp only at hp
    split at hp <;> cases hp
    exact .inl ⟨k, b, st, rfl, hst⟩
  | execute w b =>
    obtain ⟨⟨st, t'⟩, hst, he⟩ := Option.map_eq_some_iff.mp hp
    cases he
    exact .inr (.inl ⟨w, b, st, rfl, hst⟩)
  | recover v b =>
    obtain ⟨⟨st, t'⟩, hst, he⟩ := Option.map_eq_some_iff.mp hp
    cases he
    exact .inr (.inr (.inl ⟨v, b, st, rfl, hst⟩))
  | request r b =>
    obtain ⟨⟨st, t'⟩, hst, he⟩ := Option.map_eq_some_iff.mp hp
    cases he
    exact .inr (.inr (.inr (.inl ⟨r, b, st, rfl, hst⟩)))
  | produce j runId =>
    simp only [plan] at hp
    split at hp <;> cases hp
    exact .inr (.inr (.inr (.inr ⟨j, runId, rfl, rfl⟩)))

/-- The batches come from schedulers. -/
theorem schedule_of_txn? {a : Action} {ws : List WindowWrite}
    (h : s.txn? env a = some (.schedule ws)) : ∃ k b st, a = .schedule k b ∧
      Scheduler.step env s.db s.clock (s.schedulers k) b = some (st, some (.schedule ws)) := by
  obtain hsched | ⟨w, b, st, rfl, hst⟩ | ⟨v, b, st, rfl, hst⟩ | ⟨r, b, st, rfl, hst⟩ |
    ⟨j, runId, rfl, he⟩ := txn?_cases h
  · exact hsched
  · cases (Executor.step_move hst).works
  · cases (Recovery.step_move hst).works
  · obtain ⟨b, he⟩ | ⟨id, c, he⟩ | ⟨id, n, he⟩ | ⟨id, by', he⟩ := Api.step_txn hst <;> cases he
  · cases he

/-- The transactions of the requests come from requests. -/
theorem request_of_txn? {a : Action} {t : Txn} (h : s.txn? env a = some t)
    (ht : t.isRequest = true) : ∃ r b st, a = .request r b ∧
      Api.step env s.db s.clock (s.requests r) b = some (st, some t) := by
  obtain ⟨k, b, st, rfl, hst⟩ | ⟨w, b, st, rfl, hst⟩ | ⟨v, b, st, rfl, hst⟩ | hreq |
    ⟨j, runId, rfl, rfl⟩ := txn?_cases h
  · obtain ⟨ws, rfl⟩ := Scheduler.step_txn hst
    cases ht
  · rw [Txn.isRequest_of_works (Executor.step_move hst).works] at ht
    cases ht
  · rw [Txn.isRequest_of_works (Recovery.step_move hst).works] at ht
    cases ht
  · exact hreq
  · cases ht

/-- The transactions of the executors come from executors. -/
theorem execute_of_txn? {a : Action} {t : Txn} (h : s.txn? env a = some t)
    (ht : t.executes = true) :
    ∃ w b st, a = .execute w b ∧
      Executor.step env w s.db s.clock (s.executors w) b = some (st, some t) := by
  obtain ⟨k, b, st, rfl, hst⟩ | hex | ⟨v, b, st, rfl, hst⟩ | ⟨r, b, st, rfl, hst⟩ |
    ⟨j, runId, rfl, rfl⟩ := txn?_cases h
  · obtain ⟨ws, rfl⟩ := Scheduler.step_txn hst
    cases ht
  · exact hex
  · rw [(Recovery.step_move hst).not_executes] at ht
    cases ht
  · obtain ⟨b, rfl⟩ | ⟨id, c, rfl⟩ | ⟨id, n, rfl⟩ | ⟨id, by', rfl⟩ := Api.step_txn hst <;> cases ht
  · cases ht

/-- A request changes by its own steps only. -/
theorem request_cases {a : Action} (h : s.step env a = some s') (r : Nat) :
    s'.requests r = s.requests r ∨ ∃ b t, a = .request r b ∧
      Api.step env s.db s.clock (s.requests r) b = some (s'.requests r, t) := by
  obtain ⟨⟨s₁, t⟩, hp, h⟩ := Option.bind_eq_some_iff.mp h
  obtain ⟨db', -, rfl⟩ := commit_cases h
  cases a with
  | request r' b =>
    obtain ⟨⟨st, t'⟩, hst, he⟩ := Option.map_eq_some_iff.mp hp
    cases he
    by_cases hr : r = r'
    · subst hr
      simp only [Function.update_self]
      exact .inr ⟨b, t, rfl, hst⟩
    · exact .inl (Function.update_of_ne hr _ _)
  | advance n =>
    simp only [plan] at hp
    split at hp <;> cases hp
    exact .inl rfl
  | schedule k b =>
    obtain ⟨⟨st, t'⟩, -, hp⟩ := Option.bind_eq_some_iff.mp hp
    dsimp only at hp
    split at hp <;> cases hp
    exact .inl rfl
  | produce j runId =>
    simp only [plan] at hp
    split at hp <;> cases hp
    exact .inl rfl
  | _ =>
    obtain ⟨⟨st, t'⟩, -, he⟩ := Option.map_eq_some_iff.mp hp
    cases he
    exact .inl rfl

/-- The clock does not go back. -/
theorem step_clock {a : Action} (h : s.step env a = some s') : s.clock ≤ s'.clock := by
  obtain ⟨⟨s₁, t⟩, hp, h⟩ := Option.bind_eq_some_iff.mp h
  obtain ⟨db', -, rfl⟩ := commit_cases h
  cases a with
  | advance n =>
    simp only [plan] at hp
    split at hp
    · rename_i hle
      cases hp
      exact hle
    · cases hp
  | schedule k b =>
    obtain ⟨⟨st, t'⟩, -, hp⟩ := Option.bind_eq_some_iff.mp hp
    dsimp only at hp
    split at hp <;> cases hp
    exact le_rfl
  | produce j runId =>
    simp only [plan] at hp
    split at hp <;> cases hp
    exact le_rfl
  | _ =>
    obtain ⟨⟨st, t'⟩, -, he⟩ := Option.map_eq_some_iff.mp hp
    cases he
    exact le_rfl

end Sys

end PaymentScheduler
