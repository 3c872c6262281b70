import PaymentScheduler.System.Ownership
import PaymentScheduler.Db.Chain

/-!
# Retries

`Db.Chain` holds of every reachable state (`Reachable.chain`). Each worker decides on a next attempt
with the retry policy that it has read before, and it has read it after the job was created: a
bound of `max_attempts` since then is a bound of the attempts (`Capped`).

- `Executor.Move.next`, `Recovery.Move.next`: where a next attempt comes from.
- `Capped.step`: what the workers have read, and the attempts, stay below the bound.
- `attempts_of_run`: the attempts of a job, in every run of the system.
-/

namespace PaymentScheduler

/-- `max_attempts` of the retry policy of a subscription. -/
def Subscription.maxAttempts (b : Subscription) : Int :=
  (RetryPolicy.fromDict b.retryPolicy).maxAttempts

/-- A next attempt of an executor: the one after the run that it has loaded, whose retries are not
exhausted. -/
theorem Executor.Move.next {env : Env} {w : Nat} {db : Db} {now : Time} {p p' : Executor.Phase}
    {a : Executor.Action} {t : Txn} {next : JobRun}
    (h : Executor.Move env w db now p a p' (some t)) (hn : t.next? = some next) :
    ∃ c error, p = .failing c error true ∧ next.jobId = c.run.jobId ∧
      next.attempt = c.run.attempt + 1 ∧ c.run.attempt < c.subscription.maxAttempts := by
  cases h with
  | @fail c error retryable rnd newId _ ht =>
    obtain ⟨rfl, hex, retryAfter, rfl⟩ | rfl := Executor.handleFailure_cases ht
    · cases hn
      refine ⟨c, error, rfl, rfl, rfl, ?_⟩
      simpa [RetryPolicy.isExhausted, Subscription.maxAttempts] using hex
    · cases hn
  | persist ht =>
    obtain ⟨v, -, rfl⟩ := Option.map_eq_some_iff.mp ht
    cases hn
  | _ => cases hn

/-- A next attempt of a recovery worker: the one after the run that it has taken, whose retries are
not exhausted. -/
theorem Recovery.Move.next {db : Db} {now : Time} {p p' : Recovery.Phase} {a : Recovery.Action}
    {t : Txn} {next : JobRun} (h : Recovery.Move db now p a p' (some t))
    (hn : t.next? = some next) :
    ∃ x b, p = .claimed x next.jobId (next.attempt - 1) b ∧ next.attempt - 1 < b.maxAttempts := by
  cases h with
  | @route run job attempt b newId =>
    unfold Recovery.route at hn
    split at hn
    · cases hn
    · rename_i hex
      cases hn
      refine ⟨run, b, by simp, ?_⟩
      simpa [RetryPolicy.isExhausted, Subscription.maxAttempts] using hex
  | _ => cases hn

namespace Sys

variable {env : Env} {s s' : Sys} {a : Action} {j : UUID} {M : Int}

theorem Owned.chain (hI : Owned s) (hc : s.db.Chain) (h : s.step env a = some s') :
    s'.db.Chain := by
  have hg := fun t => hI.guard h (t := t)
  obtain ⟨ht, hdb⟩ | ⟨t, ht, hcom⟩ := step_db h
  · rwa [hdb]
  · exact hc.step hI.wf (hg t ht) hcom

/-- The attempts of every job are numbered from 1 in every reachable state. -/
theorem Reachable.chain (h : Reachable env s) : s.db.Chain := by
  have hinv : Owned s ∧ s.db.Chain := by
    refine Lts.Reach.inv (I := fun s => Owned s ∧ s.db.Chain) (fun hI hs => ?_)
      ⟨Owned.init, Db.Chain.empty⟩ h
    exact ⟨hI.1.step hs, hI.1.chain hI.2 hs⟩
  exact hinv.2

/-! ## The bound -/

/-- `max_attempts` of the subscription of the job `j` is at most `M`, once the job exists. -/
def Cap (M : Int) (j : UUID) (s : Sys) : Prop :=
  ∀ job ∈ s.db.scheduledJobs, job.id = j →
    ∀ b ∈ s.db.subscriptions, b.id = job.subscriptionId → b.maxAttempts ≤ M

instance : DecidablePred (Cap M j) := fun s => by
  unfold Cap
  infer_instance

/-- The attempts of the job `j`, and the policies that workers have read for it, are below the
bound. -/
structure Capped (M : Int) (j : UUID) (s : Sys) : Prop where
  runs : ∀ {x r}, s.db.run? x = some r → r.jobId = j → r.attempt ≤ M
  loaded : ∀ {w c}, (s.executors w).phase.loaded? = some c → c.run.jobId = j →
    c.subscription.maxAttempts ≤ M
  claimed : ∀ {v x n b}, (s.recoveries v).phase = .claimed x j n b → b.maxAttempts ≤ M

theorem Capped.init : Capped M j Sys.init := by
  constructor
  · intro x r h
    cases h
  · intro w c h
    cases h
  · intro v x n b h
    cases h

/-- The policy of a subscription that is read through the job is below the bound. -/
theorem Cap.read (hq : Cap M j s) {job : ScheduledJob} {b : Subscription}
    (hj : s.db.job? j = some job) (hb : s.db.sub? job.subscriptionId = some b) :
    b.maxAttempts ≤ M :=
  hq job (Table.get?_mem hj) (Db.job?_id hj) b (Table.get?_mem hb) (Db.sub?_id hb)

/-- A next attempt of the job is below the bound. -/
theorem Capped.next (hk : Capped M j s) (h : s.step env a = some s') {t : Txn}
    (ht : s.txn? env a = some t) {next : JobRun} (hn : t.next? = some next)
    (hj : next.jobId = j) : next.attempt ≤ M := by
  induction a using step_kind with
  | execute w b =>
    obtain ⟨st, t', db', hst, ht', -, -⟩ := Sys.step_execute h
    rw [ht] at ht'
    subst ht'
    obtain ⟨c, error, hp, hjob, ha, hlt⟩ := (Executor.step_move hst).next hn
    have hcap := hk.loaded (w := w) (c := c) (by rw [hp]; rfl) (hjob.symm.trans hj)
    omega
  | recover v b =>
    obtain ⟨st, t', db', hst, ht', -, -⟩ := Sys.step_recover h
    rw [ht] at ht'
    subst ht'
    obtain ⟨x, b, hp, hlt⟩ := (Recovery.step_move hst).next hn
    rw [hj] at hp
    have hcap := hk.claimed hp
    omega
  | other he hr =>
    have hi := (step_intake h he hr).1
    rw [ht] at hi
    cases t <;> first | exact False.elim hi | cases hn

theorem Capped.step (hk : Capped M j s) (hI : Owned s) (hM : 1 ≤ M) (hq : Cap M j s)
    (h : s.step env a = some s') : Capped M j s' := by
  have hruns : ∀ {x r}, s'.db.run? x = some r → r.jobId = j → r.attempt ≤ M := by
    intro x r hr hj
    obtain ⟨ht, hdb⟩ | ⟨t, ht, hcom⟩ := step_db h
    · rw [hdb] at hr
      exact hk.runs hr hj
    · obtain ⟨r₀, hr₀, rfl⟩ | ⟨hx, -⟩ := Txn.run?_cases hcom hr
      · rw [Txn.setRun_jobId] at hj
        rw [Txn.setRun_attempt]
        exact hk.runs hr₀ hj
      · obtain ⟨hn, -⟩ | ⟨h1, -⟩ := Txn.newRun_cases hI.wf hcom hx hr
        · exact hk.next h ht hn hj
        · omega
  induction a using step_kind with
  | execute w b =>
    obtain ⟨st, t, db', hst, -, -, rfl⟩ := Sys.step_execute h
    refine ⟨hruns, fun {v c} hl hj => ?_, hk.claimed⟩
    by_cases hv : v = w
    · subst hv
      obtain ⟨-, hl | hl⟩ := (Executor.step_move hst).loaded?_cases (by simpa using hl)
      · exact hk.loaded hl hj
      · obtain ⟨-, hjob, hb⟩ := Executor.loadRun_eq hl
        rw [hj] at hjob
        exact hq.read hjob hb
    · exact hk.loaded (w := v) (by simpa [hv] using hl) hj
  | recover v b =>
    obtain ⟨st, t, db', hst, -, -, rfl⟩ := Sys.step_recover h
    refine ⟨hruns, hk.loaded, fun {u x n b₀} hp => ?_⟩
    by_cases hu : u = v
    · subst hu
      have hm := Recovery.step_move hst
      rw [show st.phase = .claimed x j n b₀ by simpa using hp] at hm
      generalize (s.recoveries u).phase = p at hm
      cases hm with
      | look hp hp' => cases hp'
      | reclaim hr hs hj hb => exact hq.read hj hb
    · exact hk.claimed (v := u) (by simpa [hu] using hp)
  | other he hr =>
    obtain ⟨-, -, hex, hre, -⟩ := step_intake h he hr
    refine ⟨hruns, fun {w c} hl => ?_, fun {v x n b} hp => ?_⟩
    · rw [hex] at hl
      exact hk.loaded hl
    · rw [hre] at hp
      exact hk.claimed hp

/-- In every run of the system, the attempts of a job are exactly 1, …, k with 1 ≤ k, only attempt k
may be PENDING or RUNNING, and k is at most every bound that `max_attempts` has not exceeded since
the job was created. -/
theorem attempts_of_run {as : List Action} (h : Lts.run (step env) init as = some s)
    {job : ScheduledJob} (hj : s.db.job? j = some job) :
    ∃ k : Nat, 1 ≤ k ∧ (s.db.attempts j).Perm ((List.range k).map fun i : Nat => (i : Int) + 1) ∧
      (∀ r ∈ s.db.jobRuns, r.jobId = j → r.status.isLive = true → r.attempt = k) ∧
      ∀ M : Int, 1 ≤ M → Lts.Always (step env) (Cap M j) init as → (k : Int) ≤ M := by
  have hI : Owned s := Reachable.owned ⟨as, h⟩
  have hc : s.db.Chain := Reachable.chain ⟨as, h⟩
  obtain ⟨x, r, hl, rfl⟩ := hc.exists_latest hI.wf hj
  have hpos := hc.pos hl.1
  refine ⟨r.attempt.toNat, by omega, hc.attempts_perm hI.wf hl, ?_, ?_⟩
  · intro r' hr' hj' hlive
    rw [hI.wf.run?_mem] at hr'
    have h₁ := hl.2 _ r' hr' hj'
    have h₂ := hc.last hr' hlive hl.1 hj'.symm
    omega
  · intro M hM hA
    have hk : Owned s ∧ Capped M r.jobId s := by
      refine Lts.run_inv_always (I := fun s => Owned s ∧ Capped M r.jobId s)
        (fun hI hq _ hs => ?_) ⟨Owned.init, Capped.init⟩ hA h
      exact ⟨hI.1.step hs, hI.2.step hI.1 hM hq hs⟩
    have := hk.2.runs hl.1 rfl
    omega

end Sys

namespace Demo

/-- The recovery worker takes the first attempt and inserts the second one. -/
def retried : List Action := opening policy ++ reclaimed ++ [.recover 0 (.route nextId)]

theorem retried_attempts : ∃ s, Lts.run (Sys.step env) Sys.init retried = some s ∧
    ∃ k : Nat, 1 ≤ k ∧
      (s.db.attempts jobId).Perm ((List.range k).map fun i : Nat => (i : Int) + 1) ∧
      (∀ r ∈ s.db.jobRuns, r.jobId = jobId → r.status.isLive = true → r.attempt = k) ∧
      ∀ M : Int, 1 ≤ M → Lts.Always (Sys.step env) (Sys.Cap M jobId) Sys.init retried →
        (k : Int) ≤ M := by
  have heval : (Lts.run (Sys.step env) Sys.init retried).any
      (fun s => (s.db.job? jobId).isSome) = true := by decide +kernel
  obtain ⟨s, hs, hj⟩ := Lts.exists_run heval
  obtain ⟨job, hj⟩ := Option.isSome_iff_exists.mp hj
  exact ⟨s, hs, Sys.attempts_of_run hs hj⟩

/-- `max_attempts` is 5 from the creation of the job on. -/
example : Lts.Always (Sys.step env) (Sys.Cap 5 jobId) Sys.init retried := by decide +kernel

end Demo

end PaymentScheduler
