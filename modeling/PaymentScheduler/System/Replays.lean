import PaymentScheduler.System.Claims

/-!
# Replays

`_find_idempotency_key` is there to complete a run that has been paid. But the record that it finds
also is what `_persist_success` conflicts with: the insert does nothing, and the run stays as the
claim has left it.

- `Replaying.step`: what an executor does with such a run.
- `replay_never_completes`: every processing of every such run.
-/

namespace PaymentScheduler

/-- The actions of an executor on its present run. -/
def Executor.Action.continues : Executor.Action → Bool
  | fetch .. | claim _ => false
  | _ => true

/-- The actions of an executor on a run that has a record, without an error. -/
def Executor.replay (c : Loaded) : List Action := .claim false :: prelude c ++ [.persist]

theorem Executor.continues_of_mem {c : Loaded} {b : Action} (h : b ∈ prelude c ++ [.persist]) :
    b.continues = true := by
  unfold prelude at h
  split at h <;> simp only [List.cons_append, List.nil_append, List.mem_cons, List.not_mem_nil,
    or_false] at h
  · obtain rfl | rfl | rfl := h <;> rfl
  · obtain rfl | rfl | rfl | rfl := h <;> rfl

/-- A record of the key: nothing is written. -/
theorem Db.persistSuccess_conflict {db : Db} {k p : IdempotencyKeyRecord} {run : JobRun} {b : UUID}
    (h : db.key? k.jobRunId k.attempt = some p) : db.persistSuccess k run b = some db := by
  simp [persistSuccess, insertKey, h]

namespace Sys

variable {env : Env} {s s' : Sys} {a : Action} {w : Nat} {c : Executor.Loaded}
  {config : PaymentConfig} {k : IdempotencyKeyRecord}

/-- The executor `w` is about to process a run that is PENDING and due, with a valid configuration
and its dependencies done, and there is a record with a payment id for its attempt. -/
structure Replayable (env : Env) (s : Sys) (w : Nat) (c : Executor.Loaded) (config : PaymentConfig)
    (k : IdempotencyKeyRecord) : Prop where
  idle : (s.executors w).phase = .idle
  next : (s.executors w).todo.head? = some c.run.id
  loaded : Executor.loadRun s.db c.run.id = some c
  pending : c.run.status = .pending
  due : ∀ t, c.run.retryAfter = some t → t ≤ s.clock
  valid : PaymentConfig.fromDict env c.subscription.paymentConfig = .ok config
  done : c.job.dependsOn = [] ∨ Executor.checkDagDependencies s.db c.job.dependsOn = true
  key : s.db.key? c.run.id c.run.attempt = some k
  paid : ∃ id, k.bunqPaymentId = some id ∧ isVarchar id = true

/-- The run is completed: nothing has been paid, the keys are the same, the run is SUCCEEDED with
the stored payment id and without a lock, the job is DONE and the counter is reset. -/
structure Completed (s s' : Sys) (c : Executor.Loaded) (k : IdempotencyKeyRecord) : Prop where
  payments : s'.payments = s.payments
  keys : s'.db.idempotencyKeys = s.db.idempotencyKeys
  run : ∃ r, s'.db.run? c.run.id = some r ∧ r.status = .succeeded ∧
    r.bunqPaymentId = k.bunqPaymentId ∧ r.lockExpiresAt = none
  job : ∃ j, s'.db.job? c.job.id = some j ∧ j.status = .done
  subscription : ∃ b, s'.db.sub? c.subscription.id = some b ∧ b.consecutiveFailures = 0

/-- The run as the executor `w` has claimed it. -/
def claimedBy (env : Env) (s : Sys) (w : Nat) (c : Executor.Loaded) : Executor.Loaded :=
  let lock := s.clock + seconds env.settings.executorLockTimeoutS
  { c with run := c.run.claim (env.workerId w) s.clock lock }

/-- The points of an executor that processes a run with a record `k`. -/
inductive ReplayPhase (c : Executor.Loaded) (config : PaymentConfig) (k : IdempotencyKeyRecord) :
    Executor.Phase → Prop where
  | claimed : ReplayPhase c config k (.claimed c.run.id)
  | checking : ReplayPhase c config k (.checking c config)
  | finding : ReplayPhase c config k (.finding c config)
  | persisting : ReplayPhase c config k (.persisting c (k.bunqPaymentId.elim .null .str))
  | idle : ReplayPhase c config k .idle

/-- After the claim in `s₀`: nothing is written, and nothing is paid. -/
structure Replaying (env : Env) (s₀ : Sys) (w : Nat) (c : Executor.Loaded) (config : PaymentConfig)
    (k : IdempotencyKeyRecord) (s : Sys) : Prop where
  db : s.db = s₀.db.claim c.run.id (env.workerId w) s₀.clock
    (s₀.clock + seconds env.settings.executorLockTimeoutS)
  payments : s.payments = s₀.payments
  locks : s.locks = s₀.locks
  phase : ReplayPhase (claimedBy env s₀ w c) config k (s.executors w).phase

/-- The step of the claim. -/
theorem Replayable.step_claim (hR : Replayable env s w c config k) :
    ∃ rest, Executor.step env w s.db s.clock (s.executors w) (.claim false) =
      some ({ todo := rest, phase := .claimed c.run.id },
        some (.claim c.run.id (env.workerId w) s.clock
          (s.clock + seconds env.settings.executorLockTimeoutS))) := by
  obtain ⟨hr, hj, hb⟩ := Executor.loadRun_eq hR.loaded
  have hnext := hR.next
  cases htodo : (s.executors w).todo with
  | nil =>
    rw [htodo] at hnext
    cases hnext
  | cons x rest =>
    rw [htodo, List.head?_cons, Option.some.injEq] at hnext
    subst hnext
    refine ⟨rest, ?_⟩
    simp only [Executor.step, htodo, hR.idle, Executor.processRun, hr, hR.pending, true_and,
      if_true, hj, hb, Option.bind_some]

theorem Replayable.claim (hR : Replayable env s w c config k)
    (h : s.step env (.execute w (.claim false)) = some s') : Replaying env s w c config k s' := by
  obtain ⟨rest, hclaim⟩ := hR.step_claim
  obtain ⟨st, t, db', hst, ht, hc, rfl⟩ := step_execute h
  rw [hclaim] at hst
  cases hst
  refine ⟨(Option.some.inj hc).symm, rfl, rfl, ?_⟩
  simp only [Function.update_self]
  exact (.claimed : ReplayPhase (claimedBy env s w c) config k _)

/-- The rows that the executor reads are those of before the claim, apart from the run. -/
theorem Replayable.claimedBy_loaded {s₀ : Sys} (hR : Replayable env s₀ w c config k)
    (hs : Replaying env s₀ w c config k s) :
    Executor.loadRun s.db c.run.id = some (claimedBy env s₀ w c) := by
  obtain ⟨hr, hj, hb⟩ := Executor.loadRun_eq hR.loaded
  have hrun : s.db.run? c.run.id = some (claimedBy env s₀ w c).run := by
    rw [hs.db, Db.run?_claim, if_pos rfl, hr]
    rfl
  have hjob : s.db.job? c.run.jobId = some c.job := by
    rw [hs.db]
    exact hj
  have hsub : s.db.sub? c.job.subscriptionId = some c.subscription := by
    rw [hs.db]
    exact hb
  unfold Executor.loadRun
  simp only [hrun, Option.bind_eq_bind, Option.bind_some,
    show (claimedBy env s₀ w c).run.jobId = c.run.jobId from rfl, hjob, hsub]
  rfl

/-- The next phase. -/
theorem Replayable.step_phase {s₀ : Sys} (hR : Replayable env s₀ w c config k)
    (hs : Replaying env s₀ w c config k s) {b : Executor.Action} (hb : b.continues = true)
    {st : Executor.State} {t : Option Txn}
    (hst : Executor.step env w s.db s.clock (s.executors w) b = some (st, t)) :
    ReplayPhase (claimedBy env s₀ w c) config k st.phase ∧
      (t = none ∨ ∃ k' run b', t = some (.persistSuccess k' run b') ∧
        s.db.key? k'.jobRunId k'.attempt = some k) ∧
      ∀ created o, b ≠ .call created o := by
  have hkey : s.db.key? c.run.id c.run.attempt = some k := by
    rw [hs.db]
    exact hR.key
  have hdone : Executor.checkDagDependencies s.db c.job.dependsOn = true := by
    rw [hs.db]
    obtain hnil | hdone := hR.done
    · simp [Executor.checkDagDependencies, hnil]
    · exact hdone
  have hphase := hs.phase
  generalize hst₀ : s.executors w = st₀ at hst hphase
  obtain ⟨todo, p⟩ := st₀
  cases b with
  | fetch order skip => cases hb
  | claim locked => cases hb
  | load =>
    cases hphase <;> cases hst
    refine ⟨?_, .inl rfl, fun _ _ he => by cases he⟩
    have hload := hR.claimedBy_loaded hs
    simp only [Executor.executeRun]
    rw [show (claimedBy env s₀ w c).run.id = c.run.id from rfl, hload]
    dsimp only
    rw [show (claimedBy env s₀ w c).subscription = c.subscription from rfl, hR.valid]
    dsimp only
    split
    · exact .finding
    · exact .checking
  | checkDeps =>
    cases hphase <;> cases hst
    refine ⟨?_, .inl rfl, fun _ _ he => by cases he⟩
    dsimp only
    rw [show (claimedBy env s₀ w c).job = c.job from rfl, if_pos hdone]
    exact .finding
  | findKey =>
    cases hphase <;> cases hst
    refine ⟨?_, .inl rfl, fun _ _ he => by cases he⟩
    dsimp only
    rw [show (claimedBy env s₀ w c).run.id = c.run.id from rfl,
      show (claimedBy env s₀ w c).run.attempt = c.run.attempt from rfl, hkey]
    exact .persisting
  | persist =>
    cases hphase <;> simp only [Executor.step] at hst <;> try cases hst
    obtain ⟨t', ht, he⟩ := Option.map_eq_some_iff.mp hst
    cases he
    obtain ⟨v, -, rfl⟩ := Option.map_eq_some_iff.mp ht
    exact ⟨.idle, .inr ⟨_, _, _, rfl, hkey⟩, fun _ _ he => by cases he⟩
  | error =>
    cases hst
    exact ⟨.idle, .inl rfl, fun _ _ he => by cases he⟩
  | crash =>
    cases hst
    exact ⟨.idle, .inl rfl, fun _ _ he => by cases he⟩
  | cancelDag => cases hphase <;> cases hst
  | call created o => cases hphase <;> cases hst
  | fail rnd newId => cases hphase <;> cases hst

/-- Nothing is written and nothing is paid while the executor processes the run. -/
theorem Replaying.step {s₀ : Sys} (hs : Replaying env s₀ w c config k s)
    (hR : Replayable env s₀ w c config k) {b : Executor.Action} (hb : b.continues = true)
    (h : s.step env (.execute w b) = some s') : Replaying env s₀ w c config k s' := by
  obtain ⟨st, t, db', hst, -, hc, rfl⟩ := step_execute h
  obtain ⟨hphase, ht, hcall⟩ := hR.step_phase hs hb hst
  have hdb : db' = s.db := by
    obtain rfl | ⟨k', run, b', rfl, hk⟩ := ht
    · exact hc
    · have hc' : s.db.persistSuccess k' run b' = some db' := hc
      rw [Db.persistSuccess_conflict hk] at hc'
      exact (Option.some.inj hc').symm
  have hpay : s.paymentsAfter env (s.executors w).phase b = s.payments := by
    cases b with
    | call created o => exact absurd rfl (hcall created o)
    | _ => rfl
  exact ⟨hdb.trans hs.db, hpay.trans hs.payments, hs.locks, by simpa using hphase⟩

theorem Replaying.run {s₀ : Sys} (hs : Replaying env s₀ w c config k s)
    (hR : Replayable env s₀ w c config k) {as : List Action}
    (has : ∀ a ∈ as, ∃ b : Executor.Action, a = .execute w b ∧ b.continues = true)
    (hr : Lts.run (Sys.step env) s as = some s') : Replaying env s₀ w c config k s' := by
  refine Lts.run_inv_along
    (P := fun _ a _ => ∃ b : Executor.Action, a = .execute w b ∧ b.continues = true)
    (fun {u a u'} hu hp hstep => ?_) hs (Lts.along_of_mem has) hr
  obtain ⟨b, rfl, hb⟩ := hp
  exact hu.step hR hb hstep

theorem ReplayPhase.not_calling {p : Executor.Phase} (h : ReplayPhase c config k p) :
    p.calling? = none := by
  cases h <;> rfl

/-- The run stays RUNNING. -/
theorem Replaying.running {s₀ : Sys} (hs : Replaying env s₀ w c config k s)
    (hR : Replayable env s₀ w c config k) :
    ∃ r, s.db.run? c.run.id = some r ∧ r.status = .running ∧ r.lockExpiresAt ≠ none :=
  ⟨_, (Executor.loadRun_eq (hR.claimedBy_loaded hs)).1, rfl, Option.some_ne_none _⟩

theorem Replaying.not_completed {s₀ : Sys} (hs : Replaying env s₀ w c config k s)
    (hR : Replayable env s₀ w c config k) : ¬ Completed s₀ s c k := by
  intro hC
  obtain ⟨r, hr, hrunning, -⟩ := hs.running hR
  obtain ⟨r', hr', hsucceeded, -⟩ := hC.run
  rw [hr] at hr'
  cases hr'
  rw [hrunning] at hsucceeded
  cases hsucceeded

/-- The run of a processing. -/
theorem Replayable.run (hR : Replayable env s w c config k) {as : List Action}
    (has : ∀ a ∈ as, ∃ b : Executor.Action, a = .execute w b ∧ b.continues = true)
    (hr : Lts.run (Sys.step env) s (.execute w (.claim false) :: as) = some s') :
    Replaying env s w c config k s' := by
  obtain ⟨s₁, h₁, hr⟩ := Lts.run_cons.mp hr
  exact (hR.claim h₁).run hR has hr

/-! ## The normal case -/

/-- Where no scheduler has locked a row, what an executor is going to do can be done. -/
theorem step_execute_of {b : Executor.Action} {st : Executor.State} {t : Option Txn} {db' : Db}
    (hl : s.locks = []) (hst : Executor.step env w s.db s.clock (s.executors w) b = some (st, t))
    (hc : s.db.Commits t db') :
    ∃ s', s.step env (.execute w b) = some s' ∧ s'.executors w = st := by
  cases t with
  | none => exact ⟨_, step_execute_quiet hst, by simp⟩
  | some t =>
    have hc' : t.apply s.db = some db' := hc
    simp [Sys.step, plan, hst, commit, unlocked, hl, hc']

/-- The record is found. -/
theorem Replaying.step_findKey {s₀ : Sys} (hs : Replaying env s₀ w c config k s)
    (hR : Replayable env s₀ w c config k)
    (hp : (s.executors w).phase = .finding (claimedBy env s₀ w c) config) :
    ∃ s', s.step env (.execute w .findKey) = some s' ∧ (s'.executors w).phase =
      .persisting (claimedBy env s₀ w c) (k.bunqPaymentId.elim .null .str) := by
  have hkey : s.db.key? (claimedBy env s₀ w c).run.id (claimedBy env s₀ w c).run.attempt =
      some k := by
    rw [hs.db]
    exact hR.key
  have hst : Executor.step env w s.db s.clock (s.executors w) .findKey =
      some ({ s.executors w with
        phase := .persisting (claimedBy env s₀ w c) (k.bunqPaymentId.elim .null .str) },
        none) := by
    simp only [Executor.step, hp, hkey]
  exact ⟨_, step_execute_quiet hst, by simp⟩

/-- The insert of the key does nothing. -/
theorem Replaying.step_persist {s₀ : Sys} (hs : Replaying env s₀ w c config k s)
    (hR : Replayable env s₀ w c config k) (hl : s₀.locks = [])
    (hp : (s.executors w).phase =
      .persisting (claimedBy env s₀ w c) (k.bunqPaymentId.elim .null .str)) :
    ∃ s', s.step env (.execute w .persist) = some s' ∧ (s'.executors w).phase = .idle := by
  obtain ⟨id, hid, hvarchar⟩ := hR.paid
  have hv : varchar? (k.bunqPaymentId.elim .null .str) = some (some id) := by
    rw [hid]
    exact if_pos hvarchar
  obtain ⟨t, ht, hconflict⟩ : ∃ t, Executor.persistSuccess env s.clock (claimedBy env s₀ w c)
      (k.bunqPaymentId.elim .null .str) = some t ∧ t.apply s.db = some s.db := by
    rw [Executor.persistSuccess, hv]
    refine ⟨_, rfl, Db.persistSuccess_conflict (p := k) ?_⟩
    rw [hs.db]
    exact hR.key
  have hst : Executor.step env w s.db s.clock (s.executors w) .persist =
      some ({ s.executors w with phase := .idle }, some t) := by
    simp only [Executor.step, hp, ht, Option.map_some]
  obtain ⟨s', hs', hst'⟩ := step_execute_of (hs.locks.trans hl) hst hconflict
  exact ⟨s', hs', by rw [hst']⟩

/-- The normal processing of the run. -/
theorem Replayable.exists_run (hR : Replayable env s w c config k) (hl : s.locks = []) :
    ∃ s', Lts.run (Sys.step env) s ((Executor.replay c).map (.execute w)) = some s' ∧
      (s'.executors w).phase = .idle := by
  obtain ⟨rest, hclaim⟩ := hR.step_claim
  obtain ⟨s₁, h₁, hst₁⟩ := step_execute_of hl hclaim rfl
  have hs₁ := hR.claim h₁
  have hp₁ : (s₁.executors w).phase = .claimed c.run.id := by rw [hst₁]
  obtain ⟨s₂, h₂, -, hp₂⟩ := step_load env hp₁
  have hs₂ := hs₁.step hR rfl h₂
  simp only [Executor.executeRun, hR.claimedBy_loaded hs₁,
    show (claimedBy env s w c).subscription = c.subscription from rfl, hR.valid,
    show (claimedBy env s w c).job = c.job from rfl] at hp₂
  by_cases hdeps : c.job.dependsOn = []
  · rw [if_pos hdeps] at hp₂
    obtain ⟨s₃, h₃, hp₃⟩ := hs₂.step_findKey hR hp₂
    obtain ⟨s₄, h₄, hp₄⟩ := (hs₂.step hR rfl h₃).step_persist hR hl hp₃
    refine ⟨s₄, ?_, hp₄⟩
    simp [Executor.replay, Executor.prelude, hdeps, Lts.run, h₁, h₂, h₃, h₄]
  · rw [if_neg hdeps] at hp₂
    obtain ⟨s₃, h₃, hp₃⟩ := step_checkDeps env hp₂
    have hs₃ := hs₂.step hR rfl h₃
    have hdone :
        Executor.checkDagDependencies s₂.db (claimedBy env s w c).job.dependsOn = true := by
      rw [hs₂.db]
      exact hR.done.resolve_left hdeps
    rw [if_pos hdone] at hp₃
    obtain ⟨s₄, h₄, hp₄⟩ := hs₃.step_findKey hR hp₃
    obtain ⟨s₅, h₅, hp₅⟩ := (hs₃.step hR rfl h₄).step_persist hR hl hp₄
    refine ⟨s₅, ?_, hp₅⟩
    simp [Executor.replay, Executor.prelude, hdeps, Lts.run, h₁, h₂, h₃, h₄, h₅]

/-- However an executor processes a run whose payment is recorded: it does not call
`create_payment`, and the run is not completed, but stays RUNNING with the lock of the claim. -/
theorem replay_never_completes {env : Env} {s : Sys} {w : Nat} {c : Executor.Loaded}
    {config : PaymentConfig} {k : IdempotencyKeyRecord} (hR : Replayable env s w c config k) :
    (∀ as s', (∀ a ∈ as, ∃ b : Executor.Action, a = .execute w b ∧ b.continues = true) →
      Lts.run (step env) s (.execute w (.claim false) :: as) = some s' →
      (s'.executors w).phase.calling? = none ∧ s'.payments = s.payments ∧
      s'.db.idempotencyKeys = s.db.idempotencyKeys ∧
      (∃ r, s'.db.run? c.run.id = some r ∧ r.status = .running ∧ r.lockExpiresAt ≠ none) ∧
      ¬ Completed s s' c k) ∧
    (s.locks = [] → ∃ s', Lts.run (step env) s ((Executor.replay c).map (.execute w)) = some s' ∧
      (s'.executors w).phase = .idle) := by
  refine ⟨fun as s' has hr => ?_, hR.exists_run⟩
  have hs := hR.run has hr
  exact ⟨hs.phase.not_calling, hs.payments, by rw [hs.db]; rfl, hs.running hR, hs.not_completed hR⟩

end Sys

namespace Demo

/-- The first run has been paid and is set PENDING again; executor 0 has fetched it. -/
def replayed : Option Sys :=
  let paid := opening policy ++ [.execute 0 (.call true (.returned response)), .execute 0 .persist]
  (Lts.run (Sys.step env) Sys.init paid).bind fun s =>
    let db := s.db.updateRun runId fun r => { r with status := .pending, lockExpiresAt := none }
    { s with db := db }.step env (.execute 0 (.fetch [runId] []))

theorem exists_replayable : ∃ s c config k, replayed = some s ∧ s.locks = [] ∧
    Sys.Replayable env s 0 c config k := by
  have heval : (replayed.any fun s => s.locks = [] && (s.executors 0).phase.run?.isNone &&
      (s.executors 0).todo.head? = some runId &&
      (Executor.loadRun s.db runId).any fun c => c.run.status = .pending &&
        c.run.retryAfter.isNone && c.job.dependsOn = [] &&
        (PaymentConfig.fromDict env c.subscription.paymentConfig).toOption.isSome &&
        (s.db.key? runId c.run.attempt).any fun k =>
          k.bunqPaymentId.any isVarchar) = true := by decide +kernel
  obtain ⟨s, hs, hp⟩ := (Option.any_eq_true _ _).mp heval
  simp only [Bool.and_eq_true, decide_eq_true_eq, Option.any_eq_true,
    Option.isNone_iff_eq_none] at hp
  obtain ⟨⟨⟨hlocks, hidle⟩, htodo⟩, c, hload, hrun, k, hk, hpaid⟩ := hp
  obtain ⟨⟨⟨hpending, hafter⟩, hdeps⟩, hvalid⟩ := hrun
  have hid : c.run.id = runId := Db.run?_id (Executor.loadRun_eq hload).1
  obtain ⟨config, hconfig⟩ : ∃ config,
      PaymentConfig.fromDict env c.subscription.paymentConfig = .ok config := by
    cases hc : PaymentConfig.fromDict env c.subscription.paymentConfig with
    | ok config => exact ⟨config, rfl⟩
    | error exc =>
      rw [hc] at hvalid
      cases hvalid
  refine ⟨s, c, config, k, hs, hlocks, ?_, ?_, ?_, hpending, ?_, hconfig, .inl hdeps, ?_, hpaid⟩
  · cases hp : (s.executors 0).phase <;> rw [hp] at hidle <;> first | rfl | cases hidle
  · rw [hid]
    exact htodo
  · rwa [hid]
  · intro t ht
    rw [hafter] at ht
    cases ht
  · rwa [hid]

theorem replayed_stays_running : ∃ s c config k, replayed = some s ∧
    (∀ as s', (∀ a ∈ as, ∃ b : Executor.Action, a = .execute 0 b ∧ b.continues = true) →
      Lts.run (Sys.step env) s (.execute 0 (.claim false) :: as) = some s' →
      (s'.executors 0).phase.calling? = none ∧ s'.payments = s.payments ∧
      s'.db.idempotencyKeys = s.db.idempotencyKeys ∧
      (∃ r, s'.db.run? c.run.id = some r ∧ r.status = .running ∧ r.lockExpiresAt ≠ none) ∧
      ¬ Sys.Completed s s' c k) ∧
    PaymentConfig.fromDict env c.subscription.paymentConfig = .ok config := by
  obtain ⟨s, c, config, k, hs, -, hR⟩ := exists_replayable
  exact ⟨s, c, config, k, hs, (Sys.replay_never_completes hR).1, hR.valid⟩

theorem replayed_not_completed :
    ¬ ∀ s w c config k, Sys.Replayable env s w c config k → s.locks = [] →
      ∀ s', Lts.run (Sys.step env) s ((Executor.replay c).map (.execute w)) = some s' →
        Sys.Completed s s' c k := by
  intro h
  obtain ⟨s, c, config, k, -, hlocks, hR⟩ := exists_replayable
  obtain ⟨s', hr, -⟩ := hR.exists_run hlocks
  have hs : Sys.Replaying env s 0 c config k s' := by
    refine hR.run (fun a ha => ?_) hr
    obtain ⟨b, hb, rfl⟩ := List.mem_map.mp ha
    exact ⟨b, rfl, Executor.continues_of_mem hb⟩
  exact hs.not_completed hR (h s 0 c config k hR hlocks s' hr)

end Demo

end PaymentScheduler
