import PaymentScheduler.System.Configs
import PaymentScheduler.System.Payments

/-!
# How much a job can cost

A job may have several payments: each of its attempts is a payment of its own for bunq. bunq creates
a payment of a key once, and the key is made of the run, so a run has one payment at most, whatever
the hash (`Booked.once`). And no request brings a retry policy of more than 20 attempts.

- `Booked.step`: each payment has its run, and pays what a request has brought.
- `Capped.attempts_le`: a job has 20 attempts at most.
- `payments_bounded`: the payments of every reachable state.
-/

namespace PaymentScheduler

/-- What is going to be paid, until the call has returned. -/
def Executor.Phase.config? : Phase → Option (Loaded × PaymentConfig)
  | checking c config | finding c config | calling c config => some (c, config)
  | _ => none

/-- An executor pays what `from_dict` has made of the configuration that it has loaded. -/
theorem Executor.step_config {env : Env} {w : Nat} {db : Db} {now : Time} {st st' : State}
    {a : Action} {t : Option Txn} {c : Loaded} {config : PaymentConfig}
    (h : step env w db now st a = some (st', t)) (hc : st'.phase.config? = some (c, config)) :
    st.phase.config? = some (c, config) ∨ (∃ x, loadRun db x = some c) ∧
      PaymentConfig.fromDict env c.subscription.paymentConfig = .ok config := by
  by_cases ha : a = .load
  · subst ha
    simp only [step] at h
    split at h
    · rename_i run _
      cases h
      right
      simp only [executeRun] at hc
      split at hc
      · cases hc
      · rename_i c' hload
        split at hc
        · cases hc
        · rename_i config' hconfig
          split at hc <;> (cases hc; exact ⟨⟨run, hload⟩, hconfig⟩)
    · cases h
  · have hm := step_move h
    generalize st.phase = p at hm ⊢
    generalize st'.phase = p' at hm hc
    cases hm with
    | load => exact absurd rfl ha
    | depsDone | pay => exact .inl hc
    | _ => cases hc

/-- The configuration that `from_dict` makes of one that a request of the run `as` has brought. -/
def PaymentConfig.BroughtBy (env : Env) (as : List Action) (config : PaymentConfig) : Prop :=
  ∃ a ∈ as, ∃ p, a.paymentConfig? = some p ∧ fromDict env p.modelDump = .ok config

/-- The run of a payment. -/
def Db.Books (env : Env) (db : Db) (p : Payment) : Prop :=
  ∃ r, db.run? p.jobRunId = some r ∧ r.jobId = p.jobId ∧ r.status ≠ .pending ∧
    p.key = IdempotencyKey.forRun env r.id r.attempt

theorem Db.Books.apply {env : Env} {db db' : Db} {t : Txn} {p : Payment} (h : db.Books env p)
    (hc : t.apply db = some db') : db'.Books env p := by
  obtain ⟨r, hr, hj, hp, hkey⟩ := h
  refine ⟨_, Txn.run?_set hc hr, ?_, fun hp' => hp (Txn.setRun_pending hp'), ?_⟩
  · rw [Txn.setRun_jobId, hj]
  · rw [Txn.setRun_id, Txn.setRun_attempt, hkey]

namespace Sys

variable {env : Env} {s s' : Sys} {as : List Action} {a : Action} {j : UUID}

/-- Each payment has a run of its own. -/
structure Booked (env : Env) (as : List Action) (s : Sys) : Prop where
  ready : ∀ {w c config}, (s.executors w).phase.config? = some (c, config) →
    config.BroughtBy env as
  books : ∀ {p}, p ∈ s.payments → s.db.Books env p ∧ p.config.BroughtBy env as
  once : (s.payments.map (·.jobRunId)).Nodup

theorem Booked.init : Booked env as Sys.init where
  ready h := by cases h
  books h := by cases h
  once := List.nodup_nil

theorem Booked.step_ready (hK : Booked env as s) (hB : Brings as s) (h : s.step env a = some s')
    {w : Nat} {c : Executor.Loaded} {config : PaymentConfig}
    (hc : (s'.executors w).phase.config? = some (c, config)) : config.BroughtBy env as := by
  obtain hsame | ⟨b, t, rfl, -, hst⟩ := executor_cases h w
  · rw [hsame] at hc
    exact hK.ready hc
  · obtain hold | ⟨⟨x, hload⟩, hconfig⟩ := Executor.step_config hst hc
    · exact hK.ready hold
    · obtain ⟨a, ha, p, hp, hd⟩ := hB.subs (Executor.loadRun_eq hload).2.2
      have hd : c.subscription.paymentConfig = p.modelDump := hd
      exact ⟨a, ha, p, hp, hd ▸ hconfig⟩

/-- The payments after a step: those of before, or with the one of a call. -/
theorem step_payments (h : s.step env a = some s') : s'.payments = s.payments ∨
    ∃ w c config, (s.executors w).phase = .calling c config ∧
      s'.payments = pay s.payments
        { key := IdempotencyKey.forRun env c.run.id c.run.attempt
          jobRunId := c.run.id
          jobId := c.run.jobId
          config := config } := by
  induction a using step_kind with
  | execute w b =>
    obtain ⟨st, t, db', -, -, -, rfl⟩ := step_execute h
    obtain he | ⟨c, config, hp, he⟩ := paymentsAfter_cases env s (s.executors w).phase b
    · exact .inl he
    · exact .inr ⟨w, c, config, hp, he⟩
  | recover v b =>
    obtain ⟨st, t, db', -, -, -, rfl⟩ := step_recover h
    exact .inl rfl
  | other he hr => exact .inl (step_intake h he hr).2.2.2.2

/-- A call of bunq is booked on the run that the executor holds. -/
theorem Owned.books_call (hI : Owned s) (env : Env) {w : Nat} {c : Executor.Loaded}
    {config : PaymentConfig} (hp : (s.executors w).phase = .calling c config) :
    s.db.Books env
      { key := IdempotencyKey.forRun env c.run.id c.run.attempt
        jobRunId := c.run.id
        jobId := c.run.jobId
        config := config } := by
  have hload : (s.executors w).phase.loaded? = some c := by
    rw [hp]
    rfl
  obtain ⟨r, -, hr, hj, hn, -⟩ := hI.agrees hload
  obtain ⟨r', hr', hs, -⟩ := hI.held (loaded?_holds hload)
  rw [hr] at hr'
  cases hr'
  exact ⟨r, hr, hj, hs, by rw [Db.run?_id hr, hn]⟩

theorem Booked.step (hK : Booked env as s) (hI : Owned s) (hB : Brings as s)
    (h : s.step env a = some s') : Booked env as s' := by
  have hbooks : ∀ {p}, s.db.Books env p → s'.db.Books env p := by
    intro p hp
    obtain ⟨-, hdb⟩ | ⟨t, -, hc⟩ := step_db h
    · rwa [hdb]
    · exact hp.apply hc
  refine ⟨fun hc => hK.step_ready hB h hc, fun {p} hp => ?_, ?_⟩
  · obtain he | ⟨w, c, config, hph, he⟩ := step_payments h
    · rw [he] at hp
      exact ⟨hbooks (hK.books hp).1, (hK.books hp).2⟩
    · rw [he] at hp
      obtain hp | rfl := mem_pay hp
      · exact ⟨hbooks (hK.books hp).1, (hK.books hp).2⟩
      · exact ⟨hbooks (hI.books_call env hph), hK.ready (w := w) (c := c) (by rw [hph]; rfl)⟩
  · obtain he | ⟨w, c, config, hph, he⟩ := step_payments h
    · rw [he]
      exact hK.once
    · rw [he]
      unfold pay
      split
      · exact hK.once
      · rename_i hnew
        rw [List.map_append, List.map_singleton]
        refine List.nodup_append.mpr ⟨hK.once, List.nodup_singleton _, fun x hx y hy he => hnew ?_⟩
        -- A payment of the same run has the same key.
        obtain rfl := List.mem_singleton.mp hy
        subst he
        obtain ⟨p, hp, hrun⟩ := List.mem_map.mp hx
        obtain ⟨r, hr, -, -, hkey⟩ := (hK.books hp).1
        obtain ⟨r', hr', -, -, hkey'⟩ := hI.books_call env hph
        dsimp only at hr'
        rw [hrun, hr'] at hr
        cases hr
        exact List.any_eq_true.mpr ⟨p, hp, decide_eq_true (hkey.trans hkey'.symm)⟩

/-! ## The attempts of a job -/

/-- `max_attempts` of the subscriptions is at most 20. -/
abbrev Limited (s : Sys) : Prop :=
  Column.retryPolicy.Kept (fun d => (RetryPolicy.fromDict d).maxAttempts ≤ 20) s

theorem Limited.step (hL : Limited s) (h : s.step env a = some s') : Limited s' := by
  refine Column.Kept.step hL ⟨?_, ?_⟩ h
  · rintro r body id b - hb
    obtain ⟨next, -, rfl⟩ := Option.map_eq_some_iff.mp hb
    exact body.retryPolicy.maxAttempts_le
  · rintro r id body b c d - hc hd
    have hd : c.retryPolicy = some d := hd
    rw [(Api.changesOf_eq hc).retryPolicy] at hd
    obtain ⟨p, -, rfl⟩ := Option.map_eq_some_iff.mp hd
    exact p.maxAttempts_le

theorem Limited.cap (hL : Limited s) (hw : s.db.Wf) : Cap 20 j s :=
  fun _ _ _ _ hb _ => hL.subs (hw.sub?_mem.mp hb)

/-- A job whose attempts are below 20 has 20 of them at most. -/
theorem Capped.attempts_le (hk : Capped 20 j s) (hI : Owned s) (hc : s.db.Chain) :
    (s.db.attempts j).length ≤ 20 := by
  have hsub : s.db.attempts j ⊆ (List.range 20).map fun i : Nat => (i : Int) + 1 := by
    intro n hn
    obtain ⟨x, r, hr, hj, rfl⟩ := hI.wf.mem_attempts.mp hn
    have hpos := hc.pos hr
    have hle := hk.runs hr hj
    exact List.mem_map.mpr ⟨(r.attempt - 1).toNat, List.mem_range.mpr (by omega), by omega⟩
  have hle := ((hI.wf.attempts_nodup j).subperm hsub).length_le
  simpa using hle

/-- In every reachable state, each payment has a run of its own, which an executor has claimed,
and pays a configuration that a request of the run has brought and `from_dict` has accepted. So the
payments of a job are at most its claimed runs, and at most 20. -/
theorem payments_bounded (env : Env) (as : List Action)
    (hr : Lts.run (step env) init as = some s) :
    (∀ p ∈ s.payments, s.db.Books env p ∧ p.config.BroughtBy env as) ∧
      (s.payments.map (·.jobRunId)).Nodup ∧
      ∀ j, (s.paymentsOf j).length ≤
          s.db.jobRuns.countP (fun r => r.jobId = j ∧ r.status ≠ .pending) ∧
        (s.paymentsOf j).length ≤ 20 := by
  obtain ⟨hI, -, hK⟩ : Owned s ∧ Brings as s ∧ Booked env as s := by
    refine Lts.run_inv_along (I := fun s => Owned s ∧ Brings as s ∧ Booked env as s)
      (P := fun _ a _ => a ∈ as) ?_ ?_ (Lts.along_of_mem fun _ ha => ha) hr
    · rintro s a s' ⟨hI, hB, hK⟩ ha h
      exact ⟨hI.step h, hB.step ha h, hK.step hI hB h⟩
    · exact ⟨Owned.init, .init, .init⟩
  have hcapped : ∀ j, Capped 20 j s := by
    refine (Lts.run_inv (I := fun s => Owned s ∧ Limited s ∧ ∀ j, Capped 20 j s) ?_ ?_ hr).2.2
    · rintro s a s' ⟨hI, hL, hk⟩ h
      exact ⟨hI.step h, hL.step h, fun j => (hk j).step hI (by decide) (hL.cap hI.wf) h⟩
    · exact ⟨Owned.init, .init, fun j => Capped.init⟩
  have hclaimed : ∀ j, (s.paymentsOf j).length ≤
      s.db.jobRuns.countP fun r => r.jobId = j ∧ r.status ≠ .pending := by
    intro j
    have hnodup : ((s.paymentsOf j).map (·.jobRunId)).Nodup :=
      hK.once.sublist (List.filter_sublist.map _)
    have hsub : (s.paymentsOf j).map (·.jobRunId) ⊆
        (s.db.jobRuns.filter fun r => r.jobId = j ∧ r.status ≠ .pending).map (·.id) := by
      intro x hx
      obtain ⟨p, hp, rfl⟩ := List.mem_map.mp hx
      obtain ⟨hp, hj⟩ := List.mem_filter.mp hp
      obtain ⟨r, hr, hjob, hs, -⟩ := (hK.books hp).1
      refine List.mem_map.mpr ⟨r, List.mem_filter.mpr ⟨Table.get?_mem hr, ?_⟩, Db.run?_id hr⟩
      exact decide_eq_true ⟨hjob.trans (of_decide_eq_true hj), hs⟩
    have hle := (hnodup.subperm hsub).length_le
    rwa [List.length_map, List.length_map, ← List.countP_eq_length_filter] at hle
  refine ⟨fun p hp => hK.books hp, hK.once, fun j => ⟨hclaimed j, (hclaimed j).trans ?_⟩⟩
  -- The claimed runs are among all attempts.
  have hruns := (hcapped j).attempts_le hI (Reachable.chain ⟨as, hr⟩)
  rw [Db.attempts, List.length_map, ← List.countP_eq_length_filter] at hruns
  refine le_trans (List.countP_mono_left fun r _ hr => ?_) hruns
  exact decide_eq_true (of_decide_eq_true hr).1

end Sys

namespace Demo

theorem ambiguousCall_bounded : ∃ s, Lts.run (Sys.step env) Sys.init ambiguousCall = some s ∧
    s.payments.length = 2 ∧
    ((∀ p ∈ s.payments, s.db.Books env p ∧ p.config.BroughtBy env ambiguousCall) ∧
      (s.payments.map (·.jobRunId)).Nodup ∧
      ∀ j, (s.paymentsOf j).length ≤
          s.db.jobRuns.countP (fun r => r.jobId = j ∧ r.status ≠ .pending) ∧
        (s.paymentsOf j).length ≤ 20) := by
  have heval : (Lts.run (Sys.step env) Sys.init ambiguousCall).any
      (fun s => s.payments.length = 2) = true := by decide +kernel
  obtain ⟨s, hr, htwo⟩ := Lts.exists_run heval
  exact ⟨s, hr, of_decide_eq_true htwo, Sys.payments_bounded env ambiguousCall hr⟩

end Demo

end PaymentScheduler
