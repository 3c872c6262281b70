import PaymentScheduler.System.Attempts

/-!
# One payment for a job

The idempotency key of a call is made of the run and its attempt, and a retry is a new run: bunq
cannot tell that it is the same payment. A job has one payment only as long as each next attempt is
inserted when the earlier attempts have not been paid and cannot be paid any more (`Sys.Settled`).
The code does not see to it: it retries a call whose outcome it does not know, and it takes a run
from an executor that may still be calling.

- `pay_jobs`: a call adds a payment of its job at most.
- `Single`: only the last attempt of a job is paid, or may be paid.
- `one_payment_per_job`: in every run of the system whose steps are `Settled`, a job has at most
  one payment.
-/

namespace PaymentScheduler

/-- The payments of a job. -/
def Sys.paymentsOf (s : Sys) (j : UUID) : List Payment := s.payments.filter fun p => p.jobId = j

theorem mem_pay {ps : List Payment} {p q : Payment} (h : q ∈ pay ps p) : q ∈ ps ∨ q = p := by
  unfold pay at h
  split at h
  · exact .inl h
  · rcases List.mem_append.mp h with h | h
    · exact .inl h
    · exact .inr (List.mem_singleton.mp h)

/-- A call with a new key adds a payment of its job only; one with a key that has a payment adds
nothing. -/
theorem pay_jobs {ps : List Payment} {p : Payment} {j : UUID}
    (h : ∀ q ∈ ps, q.jobId = p.jobId → q.key = p.key)
    (hone : (ps.filter fun q => q.jobId = j).length ≤ 1) :
    ((pay ps p).filter fun q => q.jobId = j).length ≤ 1 := by
  unfold pay
  split
  · exact hone
  · rename_i hnew
    rw [List.filter_append]
    by_cases hj : p.jobId = j
    · have hnil : (ps.filter fun q => q.jobId = j) = [] := by
        refine List.filter_eq_nil_iff.mpr fun q hq hqj => hnew ?_
        have hkey := h q hq (by rw [hj]; simpa using hqj)
        exact List.any_eq_true.mpr ⟨q, hq, by simpa using hkey⟩
      simp [hnil, hj]
    · simpa [hj] using hone

/-- An executor that may pay for a run could do so before, or has just claimed the PENDING run. -/
theorem Executor.Move.mayPay {env : Env} {w : Nat} {db : Db} {now : Time}
    {p p' : Executor.Phase} {a : Executor.Action} {t : Option Txn}
    (h : Executor.Move env w db now p a p' t) (hp : p'.mayPay = true) :
    (p.mayPay = true ∧ p.run? = p'.run? ∧ t = none) ∨
      ∃ x r, p'.run? = some x ∧ db.run? x = some r ∧ r.status = .pending := by
  cases h with
  | claim hr hpend => exact .inr ⟨_, _, rfl, hr, hpend⟩
  | load hc hp' =>
    have hid := Db.run?_id (Executor.loadRun_eq hc).1
    obtain rfl | rfl := hp' <;> exact .inl ⟨rfl, congrArg some hid.symm, rfl⟩
  | depsDone | pay => exact .inl ⟨rfl, rfl, rfl⟩
  | _ => cases hp

namespace Sys

/-- Where the next attempt of a job is inserted, no attempt of the job has been paid, and no
executor has a call for one of them ahead or under way. -/
def Settled (env : Env) (s : Sys) (a : Action) (_ : Sys) : Prop :=
  ∀ t next, s.txn? env a = some t → t.next? = some next →
    (∀ r ∈ s.db.jobRuns, r.jobId = next.jobId → r.attempt ≠ next.attempt) →
    (∀ p ∈ s.payments, p.jobId ≠ next.jobId) ∧
      ∀ w x r, s.Holds w x → (s.executors w).phase.mayPay = true → s.db.run? x = some r →
        r.jobId ≠ next.jobId

/-- Only the last attempt of a job is paid, or may be paid. -/
structure Single (env : Env) (s : Sys) : Prop where
  latest : ∀ {w x}, s.Holds w x → (s.executors w).phase.mayPay = true → ∃ r, s.db.Latest x r
  paid : ∀ {p}, p ∈ s.payments → ∃ r, s.db.Latest p.jobRunId r ∧ r.jobId = p.jobId ∧
    p.key = IdempotencyKey.forRun env p.jobRunId r.attempt
  one : ∀ {j}, (s.paymentsOf j).length ≤ 1

theorem Single.init {env : Env} : Single env Sys.init := by
  constructor
  · intro w x h
    cases h
  · intro p h
    cases h
  · intro j
    exact Nat.zero_le _

variable {env : Env} {s s' : Sys} {a : Action} {x : UUID} {r : JobRun}

/-- The last attempt of a job is still the last one after a step, unless the next attempt has been
inserted. -/
theorem Owned.latest_step (hI : Owned s) (hc : s.db.Chain) (h : s.step env a = some s')
    (hl : s.db.Latest x r)
    (hno : ∀ t next, s.txn? env a = some t → t.next? = some next → next.jobId = r.jobId →
      ∃ r₀ ∈ s.db.jobRuns, r₀.jobId = next.jobId ∧ r₀.attempt = next.attempt) :
    ∃ r', s'.db.Latest x r' ∧ r'.jobId = r.jobId ∧ r'.attempt = r.attempt := by
  obtain ⟨ht, hdb⟩ | ⟨t, ht, hcom⟩ := step_db h
  · rw [hdb]
    exact ⟨r, hl, rfl, rfl⟩
  · obtain hl' | ⟨y, r', hn, hy, hl', hj⟩ := hl.step hc hI.wf (hI.guard h ht) hcom
    · exact ⟨_, hl', Txn.setRun_jobId r, Txn.setRun_attempt r⟩
    · obtain ⟨r₀, hr₀, hj₀, ha₀⟩ := hno t r' ht hn hj
      rw [hI.wf.run?_mem] at hr₀
      exact absurd ha₀ (Txn.newRun_fresh hI.wf hcom hy hl'.1 hr₀ hj₀)

/-- The payments after a step of an executor: those of before, or with the one of its call. -/
theorem paymentsAfter_cases (env : Env) (s : Sys) (p : Executor.Phase) (b : Executor.Action) :
    s.paymentsAfter env p b = s.payments ∨
    ∃ c config, p = .calling c config ∧ s.paymentsAfter env p b = pay s.payments
      { key := IdempotencyKey.forRun env c.run.id c.run.attempt
        jobRunId := c.run.id
        jobId := c.run.jobId
        config := config } := by
  unfold paymentsAfter
  split
  · split
    · exact .inr ⟨_, _, rfl, rfl⟩
    · exact .inl rfl
  · exact .inl rfl

/-- An attempt that is paid has no next attempt inserted. -/
theorem Single.paid_step (hs : Single env s) (hI : Owned s) (hc : s.db.Chain)
    (hq : Settled env s a s') (h : s.step env a = some s') {p : Payment} (hp : p ∈ s.payments) :
    ∃ r, s'.db.Latest p.jobRunId r ∧ r.jobId = p.jobId ∧
      p.key = IdempotencyKey.forRun env p.jobRunId r.attempt := by
  obtain ⟨r, hl, hj, hkey⟩ := hs.paid hp
  obtain ⟨r', hl', hj', ha'⟩ := hI.latest_step hc h hl fun t next ht hn hnj => by
    by_contra hno
    push Not at hno
    exact (hq t next ht hn hno).1 p hp (hj.symm.trans hnj.symm)
  exact ⟨r', hl', hj'.trans hj, by rw [ha', hkey]⟩

/-- An attempt that may be paid has no next attempt inserted. -/
theorem Single.mayPay_step (hs : Single env s) (hI : Owned s) (hc : s.db.Chain)
    (hq : Settled env s a s') (h : s.step env a = some s') {w : Nat} (hx : s.Holds w x)
    (hp : (s.executors w).phase.mayPay = true) : ∃ r, s'.db.Latest x r := by
  obtain ⟨r, hl⟩ := hs.latest hx hp
  obtain ⟨r', hl', -⟩ := hI.latest_step hc h hl fun t next ht hn hnj => by
    by_contra hno
    push Not at hno
    exact (hq t next ht hn hno).2 w x r hx hp hl.1 hnj.symm
  exact ⟨r', hl'⟩

section Execute

variable {w : Nat} {b : Executor.Action}

theorem Single.latest_execute (hs : Single env s) (hI : Owned s) (hc : s.db.Chain)
    (hq : Settled env s (.execute w b) s') (h : s.step env (.execute w b) = some s') {v : Nat}
    (hx : s'.Holds v x) (hp : (s'.executors v).phase.mayPay = true) :
    ∃ r, s'.db.Latest x r := by
  obtain ⟨st, t, db', hst, ht, hcom, rfl⟩ := Sys.step_execute h
  have hm := Executor.step_move hst
  by_cases hv : v = w
  · subst hv
    simp only [Holds, Function.update_self] at hx hp
    obtain ⟨hp₀, hx₀, -⟩ | ⟨y, r, hy, hr, hpend⟩ := hm.mayPay hp
    · exact hs.mayPay_step hI hc hq h (hx₀.trans hx) hp₀
    · -- A PENDING run is the last attempt of its job, and a claim inserts none.
      rw [hx] at hy
      cases hy
      have hl : s.db.Latest x r := by
        refine ⟨hr, fun z r' hr' hj => hc.last hr ?_ hr' hj⟩
        rw [hpend]
        rfl
      obtain ⟨r', hl', -⟩ := hI.latest_step hc h hl fun t' next ht' hn _ => by
        exfalso
        rw [ht] at ht'
        subst ht'
        obtain ⟨c, error, hp₀, -⟩ := hm.next hn
        generalize (s.executors v).phase = p at hm hp₀
        generalize st.phase = p' at hm hx
        subst hp₀
        cases hm
        cases hx
      exact ⟨r', hl'⟩
  · have hex : Function.update s.executors w st v = s.executors v := by simp [hv]
    simp only [Holds, hex] at hx hp
    exact hs.mayPay_step hI hc hq h hx hp

theorem Single.paid_execute (hs : Single env s) (hI : Owned s) (hc : s.db.Chain)
    (hq : Settled env s (.execute w b) s') (h : s.step env (.execute w b) = some s') {p : Payment}
    (hp : p ∈ s'.payments) : ∃ r, s'.db.Latest p.jobRunId r ∧ r.jobId = p.jobId ∧
      p.key = IdempotencyKey.forRun env p.jobRunId r.attempt := by
  obtain ⟨st, t, db', hst, ht, hcom, rfl⟩ := Sys.step_execute h
  obtain he | ⟨c, config, hp₀, he⟩ := paymentsAfter_cases env s (s.executors w).phase b
  · exact hs.paid_step hI hc hq h (by rwa [he] at hp)
  · dsimp only at hp
    rw [he] at hp
    obtain hp | rfl := mem_pay hp
    · exact hs.paid_step hI hc hq h hp
    · have hload : (s.executors w).phase.loaded? = some c := by rw [hp₀]; rfl
      obtain ⟨r', hl'⟩ := hs.mayPay_step hI hc hq h (loaded?_holds hload) (by rw [hp₀]; rfl)
      obtain ⟨r₀, j, hr₀, hj₀, ha₀, -⟩ := hcom.agrees (hI.agrees hload)
      rw [hl'.1] at hr₀
      cases hr₀
      exact ⟨r', hl', hj₀, by rw [ha₀]⟩

theorem Single.one_execute (hs : Single env s) (hI : Owned s)
    (h : s.step env (.execute w b) = some s') {j : UUID} : (s'.paymentsOf j).length ≤ 1 := by
  obtain ⟨st, t, db', -, -, -, rfl⟩ := Sys.step_execute h
  obtain he | ⟨c, config, hp₀, he⟩ := paymentsAfter_cases env s (s.executors w).phase b
  · unfold paymentsOf
    rw [he]
    exact hs.one
  · unfold paymentsOf
    rw [he]
    refine pay_jobs (fun q hq' hj => ?_) hs.one
    -- Both are for the last attempt of the job, so with the same key.
    have hload : (s.executors w).phase.loaded? = some c := by rw [hp₀]; rfl
    obtain ⟨r₁, hl₁⟩ := hs.latest (loaded?_holds hload) (by rw [hp₀]; rfl)
    obtain ⟨r₀, j, hr₀, hj₀, ha₀, -⟩ := hI.agrees hload
    rw [hl₁.1] at hr₀
    cases hr₀
    obtain ⟨r₂, hl₂, hj₂, hkey⟩ := hs.paid hq'
    have hrun := hl₂.unique hI.wf hl₁ (by rw [hj₂, hj, hj₀])
    have hrow := hl₂.1
    rw [hrun, hl₁.1] at hrow
    cases hrow
    rw [hkey, hrun, ha₀]

end Execute

/-- A settled step pays and lets pay for the last attempt of a job only. -/
theorem Single.step (hs : Single env s) (hI : Owned s) (hc : s.db.Chain)
    (hq : Settled env s a s') (h : s.step env a = some s') : Single env s' := by
  induction a using step_kind with
  | execute w b =>
    exact ⟨hs.latest_execute hI hc hq h, hs.paid_execute hI hc hq h, hs.one_execute hI h⟩
  | recover v b =>
    have hmay := fun {w x} => hs.mayPay_step (w := w) (x := x) hI hc hq h
    have hpaid := fun {p} => hs.paid_step (p := p) hI hc hq h
    obtain ⟨st, t, db', -, -, -, rfl⟩ := Sys.step_recover h
    exact ⟨hmay, hpaid, hs.one⟩
  | other he hr =>
    obtain ⟨-, -, hex, -, hpay⟩ := step_intake h he hr
    refine ⟨fun {w x} hx hp => ?_, fun {p} hp => ?_, fun {j} => ?_⟩
    · rw [Holds, hex] at hx
      rw [hex] at hp
      exact hs.mayPay_step hI hc hq h hx hp
    · rw [hpay] at hp
      exact hs.paid_step hI hc hq h hp
    · unfold paymentsOf
      rw [hpay]
      exact hs.one

/-- In every run of the system whose steps are `Settled`, no job ever has two payments. -/
theorem one_payment_per_job (env : Env) (as : List Action)
    (hA : Lts.Along (step env) (Settled env) init as) :
    Lts.Always (step env) (fun s => ∀ j, (s.paymentsOf j).length ≤ 1) init as := by
  refine Lts.always_of_along (I := fun s => Owned s ∧ s.db.Chain ∧ Single env s)
    (fun hI hq hs => ?_) (fun hI j => hI.2.2.one) ⟨Owned.init, Db.Chain.empty, Single.init⟩ hA
  obtain ⟨hI, hc, hsingle⟩ := hI
  exact ⟨hI.step hs, hI.chain hc hs, hsingle.step hI hc hq hs⟩

end Sys

namespace Demo

/-- Executor 0 retries after the first call, which has ended with the given outcome, and pays. -/
def retriedCall (created : Bool) (exc : PyException) : List Action :=
  opening policy ++
    [.execute 0 (.call created (.raised exc)), .execute 0 (.fail 0 nextId),
      .advance (start + seconds 100), .execute 0 (.fetch [nextId] []),
      .execute 0 (.claim false), .execute 0 .load, .execute 0 .findKey,
      .execute 0 (.call true (.returned response)), .execute 0 .persist]

/-- bunq is overloaded at the first call. -/
def refusedCall : List Action :=
  retriedCall false ⟨.bunqTransientError, "Transient bunq error 503: "⟩

theorem refusedCall_pays_once : Lts.Always (Sys.step env)
    (fun s => ∀ j, (s.paymentsOf j).length ≤ 1) Sys.init refusedCall := by
  refine Sys.one_payment_per_job env refusedCall ?_
  have heval : Lts.Along (Sys.step env) (fun s a _ =>
      ((s.txn? env a).bind (·.next?)).isNone = true ∨
        (s.payments.length = 0 ∧ (s.executors 0).phase.mayPay = false)) Sys.init refusedCall := by
    decide +kernel
  have hother : Lts.Along (Sys.step env) (fun s _ _ =>
      (fun n => s.executors (n + 1)) = fun _ => {}) Sys.init refusedCall := by
    refine Lts.along_frame (p := fun a => ∀ n b, a ≠ .execute (n + 1) b) (fun hp h => ?_) rfl ?_
    · funext n
      exact Sys.step_executor (hp n) h
    · simp [refusedCall, retriedCall, opening]
  refine (heval.and hother).mono fun hP t next ht hn _ => ?_
  obtain ⟨hnone | ⟨hpay, hidle⟩, hex⟩ := hP
  · rw [ht] at hnone
    simp [hn] at hnone
  · rw [List.length_eq_zero_iff.mp hpay]
    refine ⟨nofun, fun w x r hx hp => ?_⟩
    cases w with
    | zero =>
      rw [hidle] at hp
      cases hp
    | succ n =>
      rw [show _ = _ from congrFun hex n] at hp
      cases hp

/-- bunq creates the payment of the first call, and the connection breaks before the answer. -/
def ambiguousCall : List Action :=
  retriedCall true ⟨.bunqAmbiguousError, "Network error calling bunq (payment outcome unknown): "⟩

theorem ambiguousCall_pays_twice : ¬ Lts.Always (Sys.step env)
    (fun s => ∀ j, (s.paymentsOf j).length ≤ 1) Sys.init ambiguousCall := by
  intro hA
  have heval : (Lts.run (Sys.step env) Sys.init ambiguousCall).any (fun s =>
      (s.paymentsOf jobId).length = 2) = true := by decide +kernel
  obtain ⟨s, hr, hs⟩ := Lts.exists_run heval
  have hle := (hA.last hr) jobId
  have htwo := of_decide_eq_true hs
  omega

end Demo

end PaymentScheduler
