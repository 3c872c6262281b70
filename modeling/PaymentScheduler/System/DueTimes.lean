import PaymentScheduler.System.Columns
import PaymentScheduler.System.Windows

/-!
# When a payment runs

The due time of a run is tested in the fetch only: `Timely` relates what each worker has read to the
rows and to the clock, which does not go back. The time between two attempts is the delay of the
retry policy, in whole microseconds.

- `Timely.step`: an executor claims no run before its `retry_after`, and a scheduler creates no job
  earlier than the lookahead before its window.
- `Policies.step`: the policies that the API has let in bound the delays.
- `no_early_payment`: every run of the system.
-/

namespace PaymentScheduler

/-- The job that another producer inserts. -/
def Action.produced? : Action → Option UUID
  | produce j _ => some j.id
  | _ => none

/-- No transaction writes `retry_after` of a run that is there. -/
theorem Txn.setRun_retryAfter {db : Db} {t : Txn} (r : JobRun) :
    (t.setRun db r).retryAfter = r.retryAfter := by
  cases t <;> simp only [setRun] <;> split <;> rfl

/-- A policy of the API. -/
theorem RetryPolicySchema.paced (p : RetryPolicySchema) :
    (RetryPolicy.fromDict p.modelDump).Paced :=
  ⟨p.baseBackoffS_ge, p.maxBackoffS_ge⟩

namespace Executor

variable {env : Env} {w : Nat} {db : Db} {now : Time} {st st' : State} {a : Action}
  {t : Option Txn} {x : UUID}

/-- The runs of a batch are due. -/
theorem fetchPendingRunIds_due {order skip ids : List UUID} (hw : db.Wf)
    (h : fetchPendingRunIds env db now order skip = some ids) (hx : x ∈ ids) :
    ∃ r, db.run? x = some r ∧ ∀ l, r.retryAfter = some l → l ≤ now := by
  obtain ⟨rows, hrows, rfl⟩ := Option.map_eq_some_iff.mp h
  obtain ⟨r, hr, rfl⟩ := List.mem_map.mp hx
  obtain ⟨hr, hdue⟩ := Table.mem_select hw.runIds hrows hr
  simp only [decide_eq_true_eq] at hdue
  refine ⟨r, hw.run?_mem.mp hr, fun l hl => ?_⟩
  simpa [hl] using hdue.2.1

/-- A batch is a rest of the last one, or has just been fetched. -/
theorem step_todo (h : step env w db now st a = some (st', t)) :
    (∀ x ∈ st'.todo, x ∈ st.todo) ∨
      ∃ order skip, fetchPendingRunIds env db now order skip = some st'.todo := by
  obtain ⟨todo, p⟩ := st
  cases a with
  | fetch order skip =>
    simp only [step] at h
    split at h
    · obtain ⟨ids, hids, he⟩ := Option.map_eq_some_iff.mp h
      cases he
      exact .inr ⟨order, skip, hids⟩
    · cases h
  | claim locked =>
    simp only [step] at h
    split at h
    · cases h
      exact .inl fun x hx => List.mem_cons_of_mem _ hx
    · cases h
  | call created o =>
    cases p <;> cases h
    cases o with
    | crashed => exact .inl fun x hx => absurd hx List.not_mem_nil
    | _ => exact .inl fun x hx => hx
  | persist =>
    cases p <;> simp only [step] at h <;> try cases h
    obtain ⟨t', ht, he⟩ := Option.map_eq_some_iff.mp h
    cases he
    exact .inl fun x hx => hx
  | fail rnd newId =>
    cases p <;> simp only [step] at h <;> try cases h
    split at h
    · obtain ⟨t', ht, he⟩ := Option.map_eq_some_iff.mp h
      cases he
      exact .inl fun x hx => hx
    · cases h
  | error =>
    cases h
    exact .inl fun x hx => hx
  | crash =>
    cases h
    exact .inl fun x hx => absurd hx List.not_mem_nil
  | _ =>
    cases p <;> cases h
    exact .inl fun x hx => hx

/-- Only the action of that name claims a run. -/
theorem Move.claims {p p' : Phase} {workerId : String} {n lock : Time}
    (h : Move env w db now p a p' (some (.claim x workerId n lock))) :
    ∃ locked, a = .claim locked := by
  generalize ht : some (Txn.claim x workerId n lock) = t at h
  cases h with
  | @claim _ _ locked => exact ⟨locked, rfl⟩
  | persist hp =>
    obtain ⟨v, -, rfl⟩ := Option.map_eq_some_iff.mp hp
    cases ht
  | fail hf => obtain ⟨-, -, retryAfter, rfl⟩ | rfl := handleFailure_cases hf <;> cases ht
  | _ => cases ht

/-- Only the handling of a failure inserts a retry. -/
theorem Move.retries {p p' : Phase} {error : String} {n : Time} {next : JobRun}
    (h : Move env w db now p a p' (some (.scheduleRetry x error n next))) :
    ∃ rnd newId, a = .fail rnd newId := by
  generalize ht : some (Txn.scheduleRetry x error n next) = t at h
  cases h with
  | @fail _ _ _ rnd newId => exact ⟨rnd, newId, rfl⟩
  | persist hp =>
    obtain ⟨v, -, rfl⟩ := Option.map_eq_some_iff.mp hp
    cases ht
  | _ => cases ht

/-- A claim takes the next run of the batch, at the present time. -/
theorem step_claim {workerId : String} {n lock : Time}
    (h : step env w db now st a = some (st', some (.claim x workerId n lock))) :
    x ∈ st.todo ∧ n = now ∧ ∃ r j, db.run? x = some r ∧ db.job? r.jobId = some j := by
  obtain ⟨locked, rfl⟩ := (step_move h).claims
  simp only [step] at h
  split at h
  · rename_i run rest htodo hidle
    have ht := congrArg Prod.snd (Option.some.inj h)
    simp only [processRun] at ht
    split at ht
    · rename_i r hr
      split at ht
      · split at ht
        · rename_i b hb
          obtain ⟨j, hj, -⟩ := Option.bind_eq_some_iff.mp hb
          cases ht
          exact ⟨by simp [htodo], rfl, r, j, hr, hj⟩
        · cases ht
      · cases ht
    · cases ht
  · cases h

end Executor

/-- A retry is prepared from the loaded policy, for a random number of `random.random()`. -/
theorem Executor.step_retry {env : Env} {w : Nat} {db : Db} {now n : Time} {st st' : State}
    {a : Action} {x : UUID} {error : String} {next : JobRun}
    (h : step env w db now st a = some (st', some (.scheduleRetry x error n next))) :
    ∃ c rnd l, st.phase.loaded? = some c ∧ 0 ≤ rnd ∧ rnd < 1 ∧ n = now ∧
      next.jobId = c.run.jobId ∧ next.attempt = c.run.attempt + 1 ∧ next.retryAfter = some l ∧
      addSeconds now ((RetryPolicy.fromDict c.subscription.retryPolicy).nextDelayS
        c.run.attempt rnd) = some l := by
  obtain ⟨rnd, newId, rfl⟩ := (step_move h).retries
  simp only [step] at h
  split at h
  · rename_i c error' retryable hp
    split at h
    · rename_i hrnd
      obtain ⟨t, ht, he⟩ := Option.map_eq_some_iff.mp h
      cases he
      simp only [handleFailure] at ht
      split at ht
      · obtain ⟨l, hl, he⟩ := Option.map_eq_some_iff.mp ht
        cases he
        exact ⟨c, rnd, l, by rw [hp]; rfl, hrnd.1, hrnd.2, rfl, rfl, rfl, rfl, hl⟩
      · cases ht
    · cases h
  · cases h

/-- `l` is a due time after a failure of the attempt `n` at the time `t`: the delay is at least half
of the one of the policy, in whole microseconds. -/
structure RetryPolicy.Due (p : RetryPolicy) (n : Int) (t l : Time) : Prop where
  lower : t + roundHalfEven (p.backoff n / 2 * 1000000) ≤ l
  upper : l ≤ t + roundHalfEven (p.backoff n * 1000000)
  exact : p.jitter = false → l = t + roundHalfEven (p.backoff n * 1000000)

theorem RetryPolicy.Paced.due {p : RetryPolicy} (hp : p.Paced) {n : Int} {t l : Time} {rnd : ℚ}
    (h₀ : 0 ≤ rnd) (h₁ : rnd < 1) (h : addSeconds t (p.nextDelayS n rnd) = some l) :
    p.Due n t l := by
  obtain ⟨hlo, hhi⟩ := hp.nextDelayS_mem n h₀ h₁
  rw [addSeconds_eq h]
  refine ⟨?_, ?_, fun hj => ?_⟩
  · exact Int.add_le_add_left (roundHalfEven_mono (by linarith)) t
  · exact Int.add_le_add_left (roundHalfEven_mono (by linarith)) t
  · rw [RetryPolicy.nextDelayS_of_not_jitter hj]

/-- What a scheduler has read and is going to write is in the lookahead of the present time. -/
def Scheduler.Phase.Ahead (env : Env) (now : Time) : Scheduler.Phase → Prop
  | idle => True
  | started t => t ≤ now
  | opened _ _ todo writes =>
    (∀ b ∈ todo, ∀ f, b.nextFireAt = some f → f ≤ Scheduler.lookaheadCutoff env now) ∧
      ∀ w ∈ writes, w.scheduledFor ≤ Scheduler.lookaheadCutoff env now

namespace Scheduler

variable {env : Env} {db : Db} {now now' : Time} {st st' : State} {a : Action} {t : Option Txn}

variable (env) in
theorem lookaheadCutoff_mono : Monotone (lookaheadCutoff env) := by
  intro t t' h
  exact Int.add_le_add_right h _

theorem Phase.Ahead.mono {p : Phase} (h : p.Ahead env now) (hle : now ≤ now') :
    p.Ahead env now' := by
  have hcut := lookaheadCutoff_mono env hle
  cases p with
  | idle => trivial
  | started t => exact le_trans (show t ≤ now from h) hle
  | opened epoch since todo writes =>
    exact ⟨fun b hb f hf => (h.1 b hb f hf).trans hcut, fun w hw => (h.2 w hw).trans hcut⟩

/-- The selected subscriptions are due in the lookahead of the tick. -/
theorem dueSubscriptions_due {t : Time} {order skip : List UUID} {subs : List Subscription}
    {b : Subscription} {f : Time} (hw : db.Wf)
    (h : dueSubscriptions env db t order skip = some subs) (hb : b ∈ subs)
    (hf : b.nextFireAt = some f) : f ≤ lookaheadCutoff env t := by
  obtain ⟨-, hdue⟩ := Table.mem_select hw.subIds h hb
  simp only [decide_eq_true_eq] at hdue
  simpa [hf] using hdue.2.1

theorem step_ahead (hw : db.Wf) (hp : st.Ahead env now)
    (h : step env db now st a = some (st', t)) :
    st'.Ahead env now ∧
      ∀ ws, t = some (.schedule ws) → ∀ w ∈ ws, w.scheduledFor ≤ lookaheadCutoff env now := by
  cases step_move h with
  | start => exact ⟨le_refl now, nofun⟩
  | select hs =>
    have hcut := lookaheadCutoff_mono env hp
    exact ⟨⟨fun b hb f hf => (dueSubscriptions_due hw hs hb hf).trans hcut, nofun⟩, nofun⟩
  | @process epoch since b todo writes jobId runId =>
    refine ⟨⟨fun b' hb' => hp.1 b' (List.mem_cons_of_mem b hb'), fun w hw' => ?_⟩, nofun⟩
    rcases List.mem_append.mp hw' with hw' | hw'
    · exact hp.2 w hw'
    · obtain ⟨f, hf, rfl⟩ := Option.map_eq_some_iff.mp (Option.mem_toList.mp hw')
      exact hp.1 b List.mem_cons_self f hf
  | commit =>
    refine ⟨trivial, fun ws hws => ?_⟩
    cases hws
    exact hp.2
  | abort => exact ⟨trivial, nofun⟩

end Scheduler

namespace Sys

variable {env : Env} {s s' : Sys} {a : Action} {p : UUID → Prop}

/-- What the executors wait for is due, and what the schedulers create is in the lookahead; `p` are
the jobs of other producers. -/
structure Timely (env : Env) (p : UUID → Prop) (s : Sys) : Prop where
  waiting : ∀ w, ∀ x ∈ (s.executors w).todo, ∃ r, s.db.run? x = some r ∧
    ∀ t, r.retryAfter = some t → t ≤ s.clock
  jobs : ∀ {x j}, s.db.job? x = some j → ¬ p x →
    j.scheduledFor ≤ Scheduler.lookaheadCutoff env s.clock
  schedulers : ∀ k, (s.schedulers k).Ahead env s.clock

theorem Timely.init : Timely env p Sys.init := by
  refine ⟨?_, ?_, fun k => trivial⟩
  · intro w x hx
    cases hx
  · intro x j hj
    cases hj

/-- A step keeps `retry_after` of the runs that are there. -/
theorem retryAfter_step (h : s.step env a = some s') {x : UUID} {r : JobRun}
    (hr : s.db.run? x = some r) :
    ∃ r', s'.db.run? x = some r' ∧ r'.retryAfter = r.retryAfter := by
  obtain ⟨ht, hdb⟩ | ⟨t, ht, hc⟩ := step_db h
  · rw [hdb]
    exact ⟨r, hr, rfl⟩
  · exact ⟨_, Txn.run?_set hc hr, Txn.setRun_retryAfter r⟩

/-- A new job of a step comes from a batch in the lookahead, or from another producer. -/
theorem Timely.newJob (hI : Timely env p s) (hw : s.db.Wf) (hp : ∀ x, a.produced? = some x → p x)
    (h : s.step env a = some s') {t : Txn} (ht : s.txn? env a = some t) {j : ScheduledJob}
    (hj : j ∈ t.newJobs) (hx : ¬ p j.id) :
    j.scheduledFor ≤ Scheduler.lookaheadCutoff env s.clock := by
  by_cases hs : ∃ k b, a = .schedule k b
  · obtain ⟨k, b, rfl⟩ := hs
    obtain ⟨st, t', db', hst, ht', -⟩ := step_schedule h
    rw [ht] at ht'
    subst ht'
    obtain ⟨ws, rfl⟩ := Scheduler.step_txn hst
    obtain ⟨w, hw', rfl⟩ := List.mem_map.mp hj
    exact (Scheduler.step_ahead hw (hI.schedulers k) hst).2 ws rfl w hw'
  · cases a with
    | schedule k b => exact absurd ⟨k, b, rfl⟩ hs
    | produce j' runId =>
      have hplan := ht
      simp only [txn?, plan] at hplan
      split at hplan
      · cases hplan
        rw [List.mem_singleton.mp hj] at hx
        exact absurd (hp _ rfl) hx
      · cases hplan
    | _ =>
      rw [newJobs_nil h (fun _ _ ha => by cases ha) rfl ht] at hj
      cases hj

/-- The invariant holds of every step. -/
theorem Timely.step (hI : Timely env p s) (hO : Owned s) (hp : ∀ x, a.produced? = some x → p x)
    (h : s.step env a = some s') : Timely env p s' := by
  have hclock := step_clock h
  have hkeep : ∀ {x}, (∃ r, s.db.run? x = some r ∧ ∀ t, r.retryAfter = some t → t ≤ s.clock) →
      ∃ r, s'.db.run? x = some r ∧ ∀ t, r.retryAfter = some t → t ≤ s'.clock := by
    rintro x ⟨r, hr, hle⟩
    obtain ⟨r', hr', he⟩ := retryAfter_step h hr
    exact ⟨r', hr', fun t ht => (hle t (he ▸ ht)).trans hclock⟩
  refine ⟨fun w x hx => hkeep ?_, fun {x j} hj hx => ?_, fun k => ?_⟩
  · obtain hsame | ⟨b, t, rfl, -, hst⟩ := executor_cases h w
    · rw [hsame] at hx
      exact hI.waiting w x hx
    · obtain htodo | ⟨order, skip, hids⟩ := Executor.step_todo hst
      · exact hI.waiting w x (htodo x hx)
      · exact Executor.fetchPendingRunIds_due hO.wf hids hx
  · refine le_trans ?_ (Scheduler.lookaheadCutoff_mono env hclock)
    obtain ⟨ht, hdb⟩ | ⟨t, ht, hc⟩ := step_db h
    · rw [hdb] at hj
      exact hI.jobs hj hx
    · obtain ⟨j₀, hj₀, rfl⟩ | ⟨-, hnew⟩ := Txn.job?_cases hc hj
      · rw [(Txn.setJob_frame j₀).2.2.1]
        exact hI.jobs hj₀ hx
      · rw [← Db.job?_id hj] at hx
        exact hI.newJob hO.wf hp h ht hnew hx
  · by_cases hk : ∃ b, a = .schedule k b
    · obtain ⟨b, rfl⟩ := hk
      obtain ⟨st, t, db', hst, -, -, -, rfl⟩ := step_schedule h
      simp only [Function.update_self]
      exact (Scheduler.step_ahead hO.wf (hI.schedulers k) hst).1
    · rw [step_scheduler (fun b he => hk ⟨b, he⟩) h]
      exact (hI.schedulers k).mono hclock

/-! ## The policies -/

/-- The retry policies that are stored, that the executors have loaded and that requests are going
to store have the bounds of `RetryPolicySchema`. -/
structure Policies (s : Sys) : Prop where
  subs : ∀ {x b}, s.db.sub? x = some b → (RetryPolicy.fromDict b.retryPolicy).Paced
  loaded : ∀ {w c}, (s.executors w).phase.loaded? = some c →
    (RetryPolicy.fromDict c.subscription.retryPolicy).Paced
  updates : ∀ {r id c status d}, s.requests r = .updating id c status → c.retryPolicy = some d →
    (RetryPolicy.fromDict d).Paced

theorem policies_iff :
    Policies s ↔ Column.retryPolicy.Kept (fun d => (RetryPolicy.fromDict d).Paced) s :=
  ⟨fun h => ⟨h.subs, h.loaded, h.updates⟩, fun h => ⟨h.subs, h.loaded, h.updates⟩⟩

theorem Policies.init : Policies Sys.init := policies_iff.mpr .init

theorem Policies.step (hI : Policies s) (h : s.step env a = some s') : Policies s' := by
  refine policies_iff.mpr ((policies_iff.mp hI).step ⟨?_, ?_⟩ h)
  · rintro r body id b - hb
    obtain ⟨next, -, rfl⟩ := Option.map_eq_some_iff.mp hb
    exact body.retryPolicy.paced
  · rintro r id body b c d - hc hd
    have hd : c.retryPolicy = some d := hd
    rw [(Api.changesOf_eq hc).retryPolicy] at hd
    obtain ⟨p, -, rfl⟩ := Option.map_eq_some_iff.mp hd
    exact p.paced

/-! ## Every run of the system -/

/-- The step of a claim. -/
theorem Timely.claim (hI : Timely env p s) {x : UUID}
    {workerId : String} {t lock : Time}
    (ht : s.txn? env a = some (.claim x workerId t lock)) :
    t = s.clock ∧ ∃ r j, s.db.run? x = some r ∧ s.db.job? r.jobId = some j ∧
      (∀ l, r.retryAfter = some l → l ≤ t) ∧
      (¬ p j.id → j.scheduledFor ≤ Scheduler.lookaheadCutoff env t) := by
  obtain ⟨w, b, st, rfl, hst⟩ := execute_of_txn? ht rfl
  obtain ⟨hx, rfl, r, j, hr, hj⟩ := Executor.step_claim hst
  obtain ⟨r', hr', hle⟩ := hI.waiting w x hx
  rw [hr] at hr'
  cases hr'
  refine ⟨rfl, r, j, hr, hj, hle, fun hp => hI.jobs hj ?_⟩
  rwa [← Db.job?_id hj]

/-- The step of a retry. -/
theorem Policies.retry (hI : Policies s) {x : UUID} {error : String}
    {t : Time} {next : JobRun} (ht : s.txn? env a = some (.scheduleRetry x error t next)) :
    t = s.clock ∧ ∃ w c l, (s.executors w).phase.loaded? = some c ∧ next.jobId = c.run.jobId ∧
      next.attempt = c.run.attempt + 1 ∧ next.retryAfter = some l ∧
      (RetryPolicy.fromDict c.subscription.retryPolicy).Due c.run.attempt t l ∧
      Monotone (RetryPolicy.fromDict c.subscription.retryPolicy).backoff := by
  obtain ⟨w, b, st, rfl, hst⟩ := execute_of_txn? ht rfl
  obtain ⟨c, rnd, l, hc, h₀, h₁, rfl, hj, ha, hl, hadd⟩ := Executor.step_retry hst
  have hp := hI.loaded hc
  exact ⟨rfl, w, c, l, hc, hj, ha, hl, hp.due h₀ h₁ hadd, hp.backoff_mono⟩

/-- In every run: no claim is earlier than `retry_after`, nor, of a job that no other producer has
inserted, earlier than the lookahead before its window; a retry is due after the delay of its
policy, which does not decrease from attempt to attempt; and `retry_after` of a run never
changes. -/
theorem no_early_payment {as : List Action} (hr : Lts.run (step env) init as = some s)
    (h : s.step env a = some s') :
    (∀ x workerId t lock, s.txn? env a = some (.claim x workerId t lock) →
      t = s.clock ∧ ∃ r j, s.db.run? x = some r ∧ s.db.job? r.jobId = some j ∧
        (∀ l, r.retryAfter = some l → l ≤ t) ∧
        ((∀ b ∈ as, b.produced? ≠ some j.id) →
          j.scheduledFor ≤ Scheduler.lookaheadCutoff env t)) ∧
    (∀ x error t next, s.txn? env a = some (.scheduleRetry x error t next) →
      t = s.clock ∧ ∃ w c l, (s.executors w).phase.loaded? = some c ∧ next.jobId = c.run.jobId ∧
        next.attempt = c.run.attempt + 1 ∧ next.retryAfter = some l ∧
        (RetryPolicy.fromDict c.subscription.retryPolicy).Due c.run.attempt t l ∧
        Monotone (RetryPolicy.fromDict c.subscription.retryPolicy).backoff) ∧
    ∀ x r, s.db.run? x = some r →
      ∃ r', s'.db.run? x = some r' ∧ r'.retryAfter = r.retryAfter := by
  have htimely : Owned s ∧ Timely env (fun x => ∃ b ∈ as, b.produced? = some x) s := by
    refine Lts.run_inv_along
      (I := fun s => Owned s ∧ Timely env (fun x => ∃ b ∈ as, b.produced? = some x) s)
      (P := fun _ a _ => a ∈ as) (fun hI ha hs => ?_) ⟨Owned.init, Timely.init⟩
      (Lts.along_of_mem fun a ha => ha) hr
    exact ⟨hI.1.step hs, hI.2.step hI.1 (fun x hx => ⟨_, ha, hx⟩) hs⟩
  have hpolicies : Policies s := Lts.run_inv (I := Policies) Policies.step Policies.init hr
  refine ⟨fun x workerId t lock ht => ?_, fun x error t next ht => hpolicies.retry ht,
    fun x r hx => retryAfter_step h hx⟩
  obtain ⟨hclock, r, j, hrun, hj, hle, hjob⟩ := htimely.2.claim ht
  refine ⟨hclock, r, j, hrun, hj, hle, fun hno => hjob ?_⟩
  rintro ⟨b, hb, hp⟩
  exact hno b hb hp

end Sys

namespace Demo

/-- The first attempt fails, and the second one is the next run of executor 0. -/
def secondDue : List Action :=
  opening policy ++
    [.execute 0 (.call false (.raised ⟨.bunqTransientError, "503"⟩)),
      .execute 0 (.fail (1 / 3) nextId),
      .advance (start + seconds 50),
      .execute 0 (.fetch [nextId] [])]

/-- The second attempt is claimed 50 s after the first one failed, 10 s after its due time. -/
theorem secondDue_claim : ∃ s r, Lts.run (Sys.step env) Sys.init secondDue = some s ∧
    s.db.run? nextId = some r ∧ r.retryAfter = some (start + seconds 40) ∧
    start + seconds 40 ≤ s.clock := by
  have heval : (Lts.run (Sys.step env) Sys.init secondDue).any (fun s =>
      (s.db.run? nextId).any (fun r => r.retryAfter = some (start + seconds 40)) ∧
      (s.step env (.execute 0 (.claim false))).isSome ∧
      (s.txn? env (.execute 0 (.claim false))).any fun
        | .claim x _ _ _ => x = nextId
        | _ => false) = true := by
    decide +kernel
  obtain ⟨s, hs, hp⟩ := Lts.exists_run heval
  simp only [decide_eq_true_eq] at hp
  obtain ⟨hr, hstep, ht⟩ := hp
  obtain ⟨r, hr, hl⟩ := (Option.any_eq_true _ _).mp hr
  obtain ⟨s', hs'⟩ := Option.isSome_iff_exists.mp hstep
  obtain ⟨t, ht, he⟩ := (Option.any_eq_true _ _).mp ht
  simp only [decide_eq_true_eq] at hl
  cases t with
  | claim x workerId t lock =>
    simp only [decide_eq_true_eq] at he
    subst he
    obtain ⟨rfl, r', j, hr', -, hle, -⟩ := (Sys.no_early_payment hs hs').1 _ _ _ _ ht
    rw [hr] at hr'
    cases hr'
    exact ⟨s, r, hs, hr, hl, hle _ hl⟩
  | _ => cases he

/-- A policy of which the delays are not a whole number of microseconds when they are halved. -/
def odd : RetryPolicySchema where
  baseBackoffS := 1000001 / 1000000
  maxAttempts_ge := policy.maxAttempts_ge
  maxAttempts_le := policy.maxAttempts_le
  baseBackoffS_ge := by norm_num
  maxBackoffS_ge := policy.maxBackoffS_ge

/-- The first attempt has failed with an error that is retried. -/
def oddFailed : List Action :=
  opening odd ++ [.execute 0 (.call false (.raised ⟨.bunqTransientError, "503"⟩))]

/-- The retry is due half a microsecond before half of the delay has passed. -/
theorem oddFailed_retry : ∃ s s' x error t next l,
    Lts.run (Sys.step env) Sys.init oddFailed = some s ∧
    s.step env (.execute 0 (.fail 0 nextId)) = some s' ∧
    s.txn? env (.execute 0 (.fail 0 nextId)) = some (.scheduleRetry x error t next) ∧
    s'.db.run? nextId = some next ∧ next.retryAfter = some l ∧
    (l : ℚ) < t + (RetryPolicy.fromDict odd.modelDump).backoff 1 / 2 * 1000000 := by
  have heval : (Lts.run (Sys.step env) Sys.init oddFailed).any (fun s =>
      (s.step env (.execute 0 (.fail 0 nextId))).any fun s' =>
        (s.txn? env (.execute 0 (.fail 0 nextId))).any fun
          | .scheduleRetry _ _ t next => s'.db.run? nextId = some next ∧
            next.retryAfter.any fun l : Time =>
              (l : ℚ) < t + (RetryPolicy.fromDict odd.modelDump).backoff 1 / 2 * 1000000
          | _ => false) = true := by
    decide +kernel
  obtain ⟨s, hs, hp⟩ := Lts.exists_run heval
  obtain ⟨s', hs', hp⟩ := (Option.any_eq_true _ _).mp hp
  obtain ⟨t, ht, hp⟩ := (Option.any_eq_true _ _).mp hp
  cases t with
  | scheduleRetry x error t next =>
    simp only [decide_eq_true_eq] at hp
    obtain ⟨hrow, hp⟩ := hp
    obtain ⟨l, hl, hlt⟩ := (Option.any_eq_true _ _).mp hp
    exact ⟨s, s', x, error, t, next, l, hs, hs', ht, hrow, hl, of_decide_eq_true hlt⟩
  | _ => cases hp

end Demo

end PaymentScheduler
