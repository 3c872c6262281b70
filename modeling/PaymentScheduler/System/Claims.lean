import PaymentScheduler.System.Finality

/-!
# Claims of a cancelled subscription

The status of a subscription is read by the scheduler only. An executor loads the row, and looks
at the configuration and the retry policy; so the runs that a subscription has when it is cancelled
are executed like those of an ACTIVE one.

- `Executor.step_withStatus`: no step of an executor depends on a status.
- `Sys.Owned.pays_iff`: which claims call `create_payment`.
- `Sys.cancelled_claims`: every run of the system, with the jobs that are created.
-/

namespace PaymentScheduler

/-! ## Other statuses -/

/-- The subscription with the status that `f` gives. -/
def Subscription.withStatus (f : UUID → SubscriptionStatus) (b : Subscription) : Subscription :=
  { b with status := f b.id }

/-- The rows with the statuses that `f` gives. -/
def Db.withStatus (f : UUID → SubscriptionStatus) (db : Db) : Db :=
  { db with subscriptions := db.subscriptions.map (·.withStatus f) }

theorem Db.withStatus_sub? (f : UUID → SubscriptionStatus) (db : Db) (x : UUID) :
    (db.withStatus f).sub? x = (db.sub? x).map (·.withStatus f) :=
  Table.get?_map fun _ => rfl

namespace Executor

variable (f : UUID → SubscriptionStatus)

def Loaded.withStatus (c : Loaded) : Loaded :=
  { c with subscription := c.subscription.withStatus f }

def Phase.withStatus : Phase → Phase
  | idle => idle
  | claimed run => claimed run
  | checking c config => checking (c.withStatus f) config
  | cancelling c => cancelling (c.withStatus f)
  | finding c config => finding (c.withStatus f) config
  | calling c config => calling (c.withStatus f) config
  | persisting c id => persisting (c.withStatus f) id
  | failing c error retryable => failing (c.withStatus f) error retryable

def State.withStatus (st : State) : State := { st with phase := st.phase.withStatus f }

variable (env : Env) (w : Nat) (db : Db) (now : Time)

theorem processRun_withStatus (run : UUID) (locked : Bool) :
    processRun env w (db.withStatus f) now run locked =
      Prod.map (Phase.withStatus f) id (processRun env w db now run locked) := by
  unfold processRun
  rw [show (db.withStatus f).run? run = db.run? run from rfl]
  cases db.run? run with
  | none => rfl
  | some r =>
    dsimp only
    rw [show (db.withStatus f).job? r.jobId = db.job? r.jobId from rfl]
    split
    · cases db.job? r.jobId with
      | none => rfl
      | some j =>
        simp only [Option.bind_some, db.withStatus_sub?]
        cases db.sub? j.subscriptionId <;> rfl
    · rfl

theorem loadRun_withStatus (run : UUID) :
    loadRun (db.withStatus f) run = (loadRun db run).map (·.withStatus f) := by
  unfold loadRun
  rw [show (db.withStatus f).run? run = db.run? run from rfl]
  cases db.run? run with
  | none => rfl
  | some r =>
    simp only [Option.bind_eq_bind, Option.bind_some]
    rw [show (db.withStatus f).job? r.jobId = db.job? r.jobId from rfl]
    cases db.job? r.jobId with
    | none => rfl
    | some j =>
      simp only [Option.bind_some, db.withStatus_sub?]
      cases db.sub? j.subscriptionId <;> rfl

theorem executeRun_withStatus (run : UUID) :
    executeRun env (db.withStatus f) run = (executeRun env db run).withStatus f := by
  unfold executeRun
  rw [loadRun_withStatus]
  cases loadRun db run with
  | none => rfl
  | some c =>
    dsimp only [Option.map_some]
    rw [show (c.withStatus f).subscription.paymentConfig = c.subscription.paymentConfig from rfl]
    split
    · rfl
    · split <;> simp_all [Loaded.withStatus, Phase.withStatus]

theorem afterCall_withStatus (c : Loaded) (o : Outcome) :
    afterCall (c.withStatus f) o = (afterCall c o).withStatus f := by
  cases o with
  | returned response =>
    simp only [afterCall]
    split <;> rfl
  | _ => rfl

/-- With other statuses, an executor takes the same step, and commits the same transaction. -/
theorem step_withStatus (st : State) (a : Action) :
    step env w (db.withStatus f) now (st.withStatus f) a =
      (step env w db now st a).map (Prod.map (State.withStatus f) id) := by
  obtain ⟨todo, p⟩ := st
  cases a with
  | fetch order skip =>
    cases todo <;> cases p <;> try rfl
    simp only [step, State.withStatus, Phase.withStatus, Option.map_map]
    rfl
  | claim locked =>
    cases todo <;> cases p <;> try rfl
    simp only [step, State.withStatus, Phase.withStatus, processRun_withStatus]
    rfl
  | load =>
    cases p <;> try rfl
    simp only [step, State.withStatus, Phase.withStatus, executeRun_withStatus]
    rfl
  | checkDeps =>
    cases p with
    | checking c config =>
      simp only [step, State.withStatus, Phase.withStatus, Loaded.withStatus, Option.map_some]
      rw [show checkDagDependencies (db.withStatus f) = checkDagDependencies db from rfl]
      cases hdeps : checkDagDependencies db c.job.dependsOn <;>
        simp [Phase.withStatus, Loaded.withStatus, State.withStatus]
    | _ => rfl
  | cancelDag => cases p <;> rfl
  | findKey =>
    cases p with
    | finding c config =>
      simp only [step, State.withStatus, Phase.withStatus, Option.map_some, Prod.map, id]
      rw [show (db.withStatus f).key? = db.key? from rfl]
      simp only [Loaded.withStatus]
      split <;> rfl
    | _ => rfl
  | call created o =>
    cases p <;> try rfl
    simp only [step, State.withStatus, Phase.withStatus, afterCall_withStatus]
    rfl
  | persist =>
    cases p <;> try rfl
    simp only [step, State.withStatus, Phase.withStatus, Option.map_map]
    rfl
  | fail rnd newId =>
    cases p <;> try rfl
    simp only [step, State.withStatus, Phase.withStatus]
    split
    · simp only [Option.map_map]
      rfl
    · rfl
  | _ => rfl

/-- What an executor does between the claim and the call. -/
def prelude (c : Loaded) : List Action :=
  if c.job.dependsOn = [] then [.load, .findKey] else [.load, .checkDeps, .findKey]

end Executor

namespace Sys

variable {env : Env} {s s' : Sys} {a : Action}

/-- A step of an executor without a transaction. -/
theorem step_execute_quiet {w : Nat} {a : Executor.Action} {st : Executor.State}
    (h : Executor.step env w s.db s.clock (s.executors w) a = some (st, none)) :
    s.step env (.execute w a) = some { s with
      executors := Function.update s.executors w st
      payments := s.paymentsAfter env (s.executors w).phase a } := by
  simp [step, plan, h, commit]

/-- An executor that has claimed a run calls `create_payment`, in its next steps, iff the
configuration is valid and the dependencies are done. -/
def PaysClaims (env : Env) (s : Sys) : Prop :=
  ∀ w x c config, (s.executors w).phase = .claimed x → Executor.loadRun s.db x = some c →
    ((∃ s', Lts.run (step env) s ((Executor.prelude c).map (.execute w)) = some s' ∧
      (s'.executors w).phase = .calling c config) ↔
    PaymentConfig.fromDict env c.subscription.paymentConfig = .ok config ∧
      (c.job.dependsOn = [] ∨ Executor.checkDagDependencies s.db c.job.dependsOn = true))

/-- A run that executors hold has no key, so the call is not spared. -/
theorem Owned.finding_key (hI : Owned s) {w : Nat} {c : Executor.Loaded} {config : PaymentConfig}
    (hp : (s.executors w).phase = .finding c config) :
    s.db.key? c.run.id c.run.attempt = none := by
  obtain ⟨-, -, -, hkey⟩ := hI.held (loaded?_holds (s := s) (w := w) (c := c) (by rw [hp]; rfl))
  exact hkey _

variable (env) in
/-- The look at the keys leads to the call. -/
theorem Owned.step_findKey (hI : Owned s) {w : Nat} {c : Executor.Loaded} {config : PaymentConfig}
    (hp : (s.executors w).phase = .finding c config) :
    ∃ s', s.step env (.execute w .findKey) = some s' ∧
      (s'.executors w).phase = .calling c config := by
  have hst : Executor.step env w s.db s.clock (s.executors w) .findKey =
      some ({ s.executors w with phase := .calling c config }, none) := by
    simp only [Executor.step, hp, hI.finding_key hp]
  exact ⟨_, step_execute_quiet hst, by simp⟩

variable (env) in
/-- The check of the dependencies leads on iff they are done. -/
theorem step_checkDeps {w : Nat} {c : Executor.Loaded} {config : PaymentConfig}
    (hp : (s.executors w).phase = .checking c config) :
    ∃ s', s.step env (.execute w .checkDeps) = some s' ∧ (s'.executors w).phase =
      if Executor.checkDagDependencies s.db c.job.dependsOn then .finding c config
      else .cancelling c := by
  have hst : Executor.step env w s.db s.clock (s.executors w) .checkDeps =
      some ({ s.executors w with
        phase := if Executor.checkDagDependencies s.db c.job.dependsOn then .finding c config
          else .cancelling c }, none) := by
    simp only [Executor.step, hp]
  exact ⟨_, step_execute_quiet hst, by simp⟩

variable (env) in
theorem step_load {w : Nat} {x : UUID} (hp : (s.executors w).phase = .claimed x) :
    ∃ s', s.step env (.execute w .load) = some s' ∧ s'.db = s.db ∧
      (s'.executors w).phase = Executor.executeRun env s.db x := by
  have hst : Executor.step env w s.db s.clock (s.executors w) .load =
      some ({ s.executors w with phase := Executor.executeRun env s.db x }, none) := by
    simp only [Executor.step, hp]
  exact ⟨_, step_execute_quiet hst, rfl, by simp⟩

theorem step_execute_none {w : Nat} {a : Executor.Action}
    (h : Executor.step env w s.db s.clock (s.executors w) a = none) :
    s.step env (.execute w a) = none := by
  simp [Sys.step, plan, h]

theorem Owned.paysClaims (hI : Owned s) : PaysClaims env s := by
  intro w x c config hp hc
  obtain ⟨s₁, h₁, hdb₁, hp₁⟩ := step_load env hp
  have hI₁ := hI.step h₁
  rw [Executor.executeRun, hc] at hp₁
  cases hconfig : PaymentConfig.fromDict env c.subscription.paymentConfig with
  | error exc =>
    -- The configuration is rejected: the next step of the list is not possible.
    simp only [hconfig] at hp₁
    refine iff_of_false ?_ (fun h => by cases h.1)
    rintro ⟨s', hr, -⟩
    by_cases hdeps : c.job.dependsOn = []
    · have hnone : s₁.step env (.execute w .findKey) = none :=
        step_execute_none (by simp only [Executor.step, hp₁])
      simp only [Executor.prelude, if_pos hdeps, List.map_cons, List.map_nil, Lts.run, h₁, hnone,
        Option.bind_some, Option.bind_none] at hr
      cases hr
    · have hnone : s₁.step env (.execute w .checkDeps) = none :=
        step_execute_none (by simp only [Executor.step, hp₁])
      simp only [Executor.prelude, if_neg hdeps, List.map_cons, List.map_nil, Lts.run, h₁, hnone,
        Option.bind_some, Option.bind_none] at hr
      cases hr
  | ok config' =>
    simp only [hconfig] at hp₁
    by_cases hdeps : c.job.dependsOn = []
    · rw [if_pos hdeps] at hp₁
      obtain ⟨s₂, h₂, hp₂⟩ := hI₁.step_findKey env hp₁
      simp only [Executor.prelude, if_pos hdeps, List.map_cons, List.map_nil, Lts.run, h₁, h₂,
        Option.bind_some, Option.some.injEq, exists_eq_left', hp₂]
      simp [hdeps]
    · rw [if_neg hdeps] at hp₁
      obtain ⟨s₂, h₂, hp₂⟩ := step_checkDeps env hp₁
      rw [hdb₁] at hp₂
      simp only [Executor.prelude, if_neg hdeps, List.map_cons, List.map_nil, Lts.run, h₁, h₂,
        Option.bind_some]
      split at hp₂
      · rename_i hdone
        obtain ⟨s₃, h₃, hp₃⟩ := (hI₁.step h₂).step_findKey env hp₂
        simp only [h₃, Option.bind_some, Option.some.injEq, exists_eq_left', hp₃]
        simp [hdone]
      · rename_i hopen
        have hnone : s₂.step env (.execute w .findKey) = none :=
          step_execute_none (by simp only [Executor.step, hp₂])
        simp [hnone, hdeps, hopen]

/-- The subscription of the run `x` is CANCELLED. -/
def cancelledFor (s : Sys) (x : UUID) : Bool :=
  (s.db.run? x).any fun r => (s.db.job? r.jobId).any fun j =>
    (s.db.sub? j.subscriptionId).any fun b => b.status = .cancelled

/-- The step inserts no job for a CANCELLED subscription, unless it is one of another producer. -/
def CreatesNone (s : Sys) (a : Action) (s' : Sys) : Prop :=
  a.produces = false → ∀ j ∈ s'.db.scheduledJobs, Cancelled j.subscriptionId s →
    ∃ j₀, s.db.job? j.id = some j₀

theorem Locking.createsNone (hL : Locking env s) (hI : Owned s) (h : s.step env a = some s') :
    CreatesNone s a s' := by
  rintro hp j hj ⟨b, hb, hcancelled⟩
  rw [(hI.step h).wf.job?_mem] at hj
  by_contra hnew
  have hnone : s.db.job? j.id = none := Option.eq_none_iff_forall_ne_some.mpr fun j₀ hj₀ =>
    hnew ⟨j₀, hj₀⟩
  obtain ⟨k, w, hw, rfl⟩ := newJob_write h hp hnone hj
  obtain ⟨b₀, hb₀, hactive, -⟩ := hL.write_row hw
  rw [show w.job.subscriptionId = w.subscriptionId from rfl, hb₀] at hb
  cases hb
  rw [hcancelled] at hactive
  cases hactive

/-- In every run of the system, no job is created for a CANCELLED subscription; an executor that has
claimed a run calls `create_payment` iff the configuration is valid and the dependencies are done;
and whatever the statuses are, its steps and transactions are the same. -/
theorem cancelled_claims (env : Env) (as : List Action) :
    Lts.Along (step env) CreatesNone init as ∧ Lts.Always (step env) (PaysClaims env) init as ∧
      ∀ f w db now st a,
        Executor.step env w (db.withStatus f) now (st.withStatus f) a =
          (Executor.step env w db now st a).map (Prod.map (Executor.State.withStatus f) id) := by
  have hstep : ∀ {s a s'}, Owned s ∧ Locking env s → True → Sys.step env s a = some s' →
      Owned s' ∧ Locking env s' := fun hI _ h => ⟨hI.1.step h, hI.2.step hI.1.wf h⟩
  have hall : Lts.Along (Sys.step env) (fun _ _ _ => True) init as :=
    Lts.along_of_mem fun _ _ => trivial
  refine ⟨?_, ?_, fun f => Executor.step_withStatus f env⟩
  · exact Lts.Along.of_inv hstep (fun hI _ h => hI.2.createsNone hI.1 h)
      ⟨Owned.init, Locking.init⟩ hall
  · exact Lts.always_of_along hstep (fun hI => hI.1.paysClaims) ⟨Owned.init, Locking.init⟩ hall

end Sys

namespace Demo

/-- The first run is claimed after its subscription has been deleted. -/
def claimedLate : List Action :=
  [.advance start,
    .request 0 (.begin (.create (body policy) subId)),
    .schedule 0 .start,
    .schedule 0 (.select 1 [subId] []),
    .schedule 0 (.process jobId runId),
    .schedule 0 .commit,
    .request 1 (.begin (.delete subId)),
    .request 1 .commit,
    .execute 0 (.fetch [runId] [])]

theorem claimedLate_pays :
    ¬ ∀ s s₁ s' w x as, Sys.Reachable env s →
      s.step env (.execute w (.claim false)) = some s₁ → s₁.Holds w x → s.cancelledFor x = true →
      Lts.run (Sys.step env) s₁ as = some s' →
      (∀ a ∈ as, ∀ locked, a ≠ .execute w (.claim locked)) →
      (s'.executors w).phase.calling?.isNone = true := by
  intro h
  have heval : ((Lts.run (Sys.step env) Sys.init claimedLate).any fun s =>
      s.cancelledFor runId &&
      (s.step env (.execute 0 (.claim false))).any fun s₁ =>
        (s₁.executors 0).phase.run? = some runId &&
        (Lts.run (Sys.step env) s₁ [.execute 0 .load, .execute 0 .findKey]).any fun s' =>
          !(s'.executors 0).phase.calling?.isNone) = true := by decide +kernel
  obtain ⟨s, hr, hp⟩ := Lts.exists_run heval
  obtain ⟨hx, hp⟩ := Bool.and_eq_true_iff.mp hp
  obtain ⟨s₁, h₁, hp⟩ := (Option.any_eq_true _ _).mp hp
  obtain ⟨hheld, hp⟩ := Bool.and_eq_true_iff.mp hp
  obtain ⟨s', hr', hcall⟩ := Lts.exists_run hp
  have hheld : (s₁.executors 0).phase.run? = some runId := of_decide_eq_true hheld
  rw [h s s₁ s' 0 runId _ ⟨claimedLate, hr⟩ h₁ hheld hx hr' (by simp)] at hcall
  cases hcall

end Demo

end PaymentScheduler
