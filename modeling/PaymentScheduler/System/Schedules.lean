import PaymentScheduler.System.Reactivations

/-!
# `next_fire_at` and the schedule

`next_fire_at` repeats what `cron_expression` and `timezone` say. The scheduler computes it from a
row that it has locked; a request computes it from a row that it has read before, and writes the
columns of its body only.

- `step_timed_iff`: one step keeps every ACTIVE subscription on its schedule iff its transaction
  leaves the updated one on it.
- `Coherent`: a way of using the API under which all transactions do.
- `next_fire_of_schedule`: both, for every run of the system.
-/

namespace PaymentScheduler

/-- `f` is an occurrence of the expression in the timezone. -/
def Env.Occurs (env : Env) (cronExpression timezone : String) (f : Time) : Prop :=
  ∃ zone t, env.pytzTimezone timezone = some zone ∧ env.getNext cronExpression zone t = some f

/-- `next_fire_at` is an occurrence of the stored expression in the stored timezone. -/
def Subscription.OnSchedule (env : Env) (b : Subscription) : Prop :=
  ∃ f, b.nextFireAt = some f ∧ env.Occurs b.cronExpression b.timezone f

/-- A resume of `b` sets an occurrence of its schedule. A PATCH that leaves `b` ACTIVE sets, or
leaves, an occurrence of the schedule that it leaves. -/
def Txn.KeepsSchedule (env : Env) (b : Subscription) : Txn → Prop
  | resume id n => id = b.id → env.Occurs b.cronExpression b.timezone n
  | updateSubscription id c => id = b.id → c.status.getD b.status = .active →
      ∃ f, c.nextFireAt.or b.nextFireAt = some f ∧
        env.Occurs (c.cronExpression.getD b.cronExpression) (c.timezone.getD b.timezone) f
  | _ => True

theorem Txn.keepsSchedule_of_edits {env : Env} {b : Subscription} {t : Txn}
    (h : t.edits b.id = false) : t.KeepsSchedule env b := by
  cases t with
  | resume id n => exact fun he => absurd he (of_decide_eq_false h)
  | updateSubscription id c => exact fun he => absurd he (of_decide_eq_false h)
  | _ => trivial

theorem Api.computeNextFire_occurs {env : Env} {now n : Time} {cronExpression timezone : String}
    (h : computeNextFire env now cronExpression timezone = some n) :
    env.Occurs cronExpression timezone n := by
  obtain ⟨zone, hz, hn⟩ := Option.bind_eq_some_iff.mp h
  exact ⟨zone, now, hz, hn⟩

/-- The request is going to write a time that it has computed for the subscription `x`. -/
def Api.State.computes (x : UUID) : Api.State → Bool
  | updating id c _ => id = x ∧ c.nextFireAt.isSome
  | resuming id _ => id = x
  | _ => false

/-- The time is an occurrence of the schedule that the request is going to leave of `b`. -/
def Api.State.Agrees (env : Env) (b : Subscription) : Api.State → Prop
  | updating _ c _ => ∀ n, c.nextFireAt = some n →
      env.Occurs (c.cronExpression.getD b.cronExpression) (c.timezone.getD b.timezone) n
  | resuming _ n => env.Occurs b.cronExpression b.timezone n
  | _ => True

theorem Api.State.Agrees.congr {env : Env} {st : Api.State} {b b' : Subscription}
    (h : st.Agrees env b)
    (hcron : b'.cronExpression = b.cronExpression) (hzone : b'.timezone = b.timezone) :
    st.Agrees env b' := by
  cases st with
  | updating id c status =>
    intro n hn
    rw [hcron, hzone]
    exact h n hn
  | resuming id n =>
    rw [Api.State.Agrees, hcron, hzone]
    exact h
  | _ => trivial

namespace Sys

variable {env : Env} {s s' : Sys} {a : Action} {x : UUID}

/-! ## Ticks -/

/-- The times that the schedulers are going to set are those of `_next_fire`. -/
def Computed (env : Env) (s : Sys) : Prop :=
  ∀ k w n, w ∈ (s.schedulers k).writes → w.advance = .nextFireAt n →
    ∃ b t, s.db.sub? w.subscriptionId = some b ∧ Scheduler.nextFire env t b = some n

theorem Computed.step (hC : Computed env s) (hL : Locking env s) (h : s.step env a = some s') :
    Computed env s' := by
  intro k w n hw hn
  obtain ⟨hw, hrow⟩ | ⟨hdb, b, epoch, since, jobId, runId, hb, -, hpre⟩ := hL.writes_cases h hw
  · obtain ⟨b, t, hb, hnext⟩ := hC k w n hw hn
    exact ⟨b, t, hrow b hb, hnext⟩
  · rw [hdb]
    obtain ⟨fireAt, -, rfl⟩ := Option.map_eq_some_iff.mp hpre
    dsimp only at hn
    split at hn
    · rename_i t ht
      cases hn
      exact ⟨b, s.clock, hb, ht⟩
    · cases hn

/-- Where the timezone is known, a tick sets an occurrence of the stored schedule. -/
theorem nextFire_occurs {b : Subscription} {f t n : Time}
    (hb : env.Occurs b.cronExpression b.timezone f) (hn : Scheduler.nextFire env t b = some n) :
    env.Occurs b.cronExpression b.timezone n := by
  obtain ⟨zone, -, hz, -⟩ := hb
  rw [Scheduler.nextFire, hz] at hn
  exact ⟨zone, t, hz, hn⟩

/-- A new subscription is on its schedule. -/
theorem create_onSchedule {b : Subscription} (ht : s.txn? env a = some (.createSubscription b)) :
    b.OnSchedule env := by
  obtain ⟨r, b', st, rfl, hst⟩ := request_of_txn? ht rfl
  obtain ⟨body, id, rfl, hb⟩ := Api.step_creating hst
  obtain ⟨n, hn, rfl⟩ := Option.map_eq_some_iff.mp hb
  exact ⟨n, rfl, Api.computeNextFire_occurs hn⟩

/-! ## ACTIVE subscriptions -/

/-- Every ACTIVE subscription is on its schedule. -/
def Timed (env : Env) (db : Db) : Prop :=
  ∀ x b, db.sub? x = some b → b.status = .active → b.OnSchedule env

/-- One transaction on one subscription. -/
theorem Timed.setSub_iff (hT : Timed env s.db) (hC : Computed env s) {t : Txn}
    (ht : s.txn? env a = some t) {b : Subscription} (hb : s.db.sub? b.id = some b) :
    t.KeepsSchedule env b ↔
      ((t.setSub s.db b).status = .active → (t.setSub s.db b).OnSchedule env) := by
  have hre := t.setSub_retimes s.db b
  generalize t.setSub s.db b = b' at hre
  cases hre with
  | keep he hid hcron hzone hnext hactive =>
    refine iff_of_true (Txn.keepsSchedule_of_edits he) fun h => ?_
    obtain ⟨f, hf, hocc⟩ := hT _ b hb (hactive h)
    exact ⟨f, hnext.trans hf, by rwa [hcron, hzone]⟩
  | @advance ws w n _ hw hx ha hid hcron hzone hnext hactive =>
    refine iff_of_true trivial fun h => ⟨n, hnext, ?_⟩
    obtain ⟨k, hws⟩ := batch_writes ht
    obtain ⟨b₀, t, hb₀, hfire⟩ := hC k w n (hws w hw) ha
    rw [hx, hb] at hb₀
    cases hb₀
    obtain ⟨f, -, hf⟩ := hT _ b hb (hactive h)
    rw [hcron, hzone]
    exact nextFire_occurs hf hfire
  | @resume n =>
    constructor
    · exact fun h _ => ⟨n, rfl, h rfl⟩
    · intro h _
      obtain ⟨f, hf, hocc⟩ := h rfl
      cases hf
      exact hocc
  | change => exact forall_prop_of_true rfl

/-- The transaction keeps the subscriptions on their schedules. -/
def KeepsSchedules (env : Env) (db : Db) (t : Txn) : Prop :=
  ∀ x b, db.sub? x = some b → t.KeepsSchedule env b

theorem step_timed_iff (hC : Computed env s) (hT : Timed env s.db) (h : s.step env a = some s') :
    OnCommit env (KeepsSchedules env) s a s' ↔ Timed env s'.db := by
  refine onCommit_iff h hT fun t ht hc => ⟨fun hk x b hb hactive => ?_, fun hT' x b hb => ?_⟩
  · obtain ⟨b₀, hb₀, rfl⟩ | ⟨-, rfl⟩ := Txn.sub?_cases hc hb
    · have hid := Db.sub?_id hb₀
      subst hid
      exact (hT.setSub_iff hC ht hb₀).mp (hk _ b₀ hb₀) hactive
    · exact create_onSchedule ht
  · have hid := Db.sub?_id hb
    subst hid
    exact (hT.setSub_iff hC ht hb).mpr (hT' _ _ (Txn.sub?_set hc hb))

/-! ## A way of using the API -/

/-- No PATCH brings a timezone without an expression, or an empty one; and where one changes the
schedule of a subscription, no other request is going to write a time that it has computed for it
before. -/
structure Coherent (env : Env) (s : Sys) (a : Action) (_ : Sys) : Prop where
  patch : ∀ {r id body tz}, a = .request r (.begin (.update id body)) → body.timezone = some tz →
    tz ≠ "" ∧ body.cronExpression ≠ none
  alone : ∀ {id c}, s.txn? env a = some (.updateSubscription id c) →
    c.cronExpression ≠ none ∨ c.timezone ≠ none → ∀ r, a ≠ .request r .commit →
    (s.requests r).computes id = false

/-- What is stored, and what requests are going to write, is on schedule. -/
structure OnSchedules (env : Env) (s : Sys) : Prop where
  subs : ∀ {x b}, s.db.sub? x = some b → b.OnSchedule env
  pending : ∀ {r id}, (s.requests r).computes id = true →
    ∃ b, s.db.sub? id = some b ∧ (s.requests r).Agrees env b
  changes : ∀ {r id c status}, s.requests r = .updating id c status → c.nextFireAt = none →
    c.cronExpression = none ∧ c.timezone = none

theorem OnSchedules.init : OnSchedules env Sys.init := by
  refine ⟨?_, ?_, ?_⟩
  · intro x b h
    cases h
  · intro r id h
    cases h
  · intro r id c status h
    cases h

/-- The schedule that a transaction leaves. -/
theorem OnSchedules.setSub (hS : OnSchedules env s) (hC : Computed env s) {t : Txn}
    (ht : s.txn? env a = some t) {b : Subscription} (hb : s.db.sub? b.id = some b) :
    (t.setSub s.db b).OnSchedule env := by
  obtain ⟨f, hf, hocc⟩ := hS.subs hb
  have hre := t.setSub_retimes s.db b
  generalize t.setSub s.db b = b' at hre
  cases hre with
  | keep he hid hcron hzone hnext hactive =>
    exact ⟨f, hnext.trans hf, by rwa [hcron, hzone]⟩
  | @advance ws w n _ hw hx ha hid hcron hzone hnext hactive =>
    obtain ⟨k, hws⟩ := batch_writes ht
    obtain ⟨b₀, t, hb₀, hfire⟩ := hC k w n (hws w hw) ha
    rw [hx, hb] at hb₀
    cases hb₀
    refine ⟨n, hnext, ?_⟩
    rw [hcron, hzone]
    exact nextFire_occurs hocc hfire
  | @resume n =>
    obtain ⟨r, b', st, rfl, hst⟩ := request_of_txn? ht rfl
    have hr := Api.step_resume hst
    have hcomputes : (s.requests r).computes b.id = true := by simp [hr, Api.State.computes]
    obtain ⟨b₀, hb₀, hagrees⟩ := hS.pending hcomputes
    rw [hb] at hb₀
    cases hb₀
    rw [hr] at hagrees
    exact ⟨n, rfl, hagrees⟩
  | @change c =>
    obtain ⟨r, b', st, rfl, hst⟩ := request_of_txn? ht rfl
    obtain ⟨status, hr⟩ := Api.step_update hst
    cases hn : c.nextFireAt with
    | none =>
      obtain ⟨hcron, hzone⟩ := hS.changes hr hn
      exact ⟨f, by simp [Subscription.change, hn, hf],
        by simpa [Subscription.change, hcron, hzone] using hocc⟩
    | some n =>
      have hcomputes : (s.requests r).computes b.id = true := by
        simp [hr, Api.State.computes, hn]
      obtain ⟨b₀, hb₀, hagrees⟩ := hS.pending hcomputes
      rw [hb] at hb₀
      cases hb₀
      rw [hr] at hagrees
      exact ⟨n, by simp [Subscription.change, hn], hagrees n hn⟩

/-- The transactions of coherent requests keep the schedules. -/
theorem OnSchedules.keeps (hS : OnSchedules env s) (hC : Computed env s) {t : Txn}
    (ht : s.txn? env a = some t) : KeepsSchedules env s.db t := by
  intro x b hb
  have hid := Db.sub?_id hb
  subst hid
  have hset := hS.setSub hC ht hb
  cases t with
  | resume id n =>
    rintro rfl
    rw [Txn.setSub, if_pos rfl] at hset
    obtain ⟨f, hf, hocc⟩ := hset
    cases hf
    exact hocc
  | updateSubscription id c =>
    rintro rfl -
    rwa [Txn.setSub, if_pos rfl] at hset
  | _ => trivial

/-- A request that begins has computed the time from the row that it has read. -/
theorem begin_agrees {st : Api.State} {b' : Api.Action} {t : Option Txn} {r : Nat}
    (ha : Coherent env s (.request r b') s')
    (hst : Api.step env s.db s.clock (s.requests r) b' = some (st, t))
    (hx : st.computes x = true) : t = none ∧ ∃ b, s.db.sub? x = some b ∧ st.Agrees env b := by
  generalize s.requests r = st₀ at hst
  cases st with
  | updating id c status =>
    simp only [Api.State.computes, decide_eq_true_eq] at hx
    obtain ⟨rfl, hsome⟩ := hx
    cases Api.step_move hst with
    | @update _ body b c hb hc =>
      refine ⟨rfl, b, hb, fun n hn => ?_⟩
      have hp := Api.changesOf_eq hc
      rw [hp.nextFireAt] at hn
      obtain ⟨cron, hcron, hn⟩ := Option.bind_eq_some_iff.mp hn
      rw [hp.cronExpression, hp.timezone, hcron, Option.getD_some]
      have hzone : Api.patchTimezone b body = body.timezone.getD b.timezone := by
        unfold Api.patchTimezone
        cases htz : body.timezone with
        | none => rfl
        | some tz => exact if_neg (ha.patch rfl htz).1
      rw [hzone] at hn
      exact Api.computeNextFire_occurs hn
    | delete => cases hsome
  | resuming id n =>
    obtain rfl : id = x := of_decide_eq_true hx
    cases Api.step_move hst with
    | resume hb hn => exact ⟨rfl, _, hb, Api.computeNextFire_occurs hn⟩
  | _ => cases hx

/-- The row of a subscription after a step of another request, as far as its schedule goes. -/
theorem Coherent.row (ha : Coherent env s a s') (h : s.step env a = some s') {r : Nat}
    (hr : a ≠ .request r .commit) {id : UUID} (hx : (s.requests r).computes id = true)
    {b : Subscription} (hb : s.db.sub? id = some b) :
    ∃ b', s'.db.sub? id = some b' ∧ b'.cronExpression = b.cronExpression ∧
      b'.timezone = b.timezone := by
  obtain ⟨-, hdb⟩ | ⟨t, ht, hc⟩ := step_db h
  · exact ⟨b, by rwa [hdb], rfl, rfl⟩
  · refine ⟨_, Txn.sub?_set hc hb, ?_⟩
    have hid := Db.sub?_id hb
    subst hid
    have hre := t.setSub_retimes s.db b
    generalize t.setSub s.db b = b' at hre
    cases hre with
    | keep he hid hcron hzone hnext hactive => exact ⟨hcron, hzone⟩
    | advance hw hx ha hid hcron hzone hnext hactive => exact ⟨hcron, hzone⟩
    | resume => exact ⟨rfl, rfl⟩
    | @change c =>
      have hnone : c.cronExpression = none ∧ c.timezone = none := by
        by_contra hne
        rw [not_and_or] at hne
        have := ha.alone ht hne r hr
        rw [hx] at this
        cases this
      simp [Subscription.change, hnone]

theorem OnSchedules.step (hS : OnSchedules env s) (hC : Computed env s)
    (ha : Coherent env s a s') (h : s.step env a = some s') : OnSchedules env s' := by
  refine ⟨fun {x b} hb => ?_, fun {r id} hx => ?_, fun {r id c status} hup hn => ?_⟩
  · obtain ⟨-, hdb⟩ | ⟨t, ht, hc⟩ := step_db h
    · rw [hdb] at hb
      exact hS.subs hb
    · obtain ⟨b₀, hb₀, rfl⟩ | ⟨-, rfl⟩ := Txn.sub?_cases hc hb
      · have hid := Db.sub?_id hb₀
        subst hid
        exact hS.setSub hC ht hb₀
      · exact create_onSchedule ht
  · by_cases hr : ∃ b, a = .request r b
    · obtain ⟨b, rfl⟩ := hr
      obtain ⟨t, hst, -, hdb⟩ := step_request h
      obtain ⟨rfl, hrow⟩ := begin_agrees ha hst hx
      rwa [show s'.db = s.db from hdb]
    · obtain hold | ⟨b, t, rfl, -⟩ := request_cases h r
      · rw [hold] at hx ⊢
        obtain ⟨b, hb, hagrees⟩ := hS.pending hx
        obtain ⟨b', hb', hcron, hzone⟩ := ha.row h (fun he => hr ⟨_, he⟩) hx hb
        exact ⟨b', hb', hagrees.congr hcron hzone⟩
      · exact absurd ⟨b, rfl⟩ hr
  · obtain hold | ⟨b', t, rfl, hst⟩ := request_cases h r
    · rw [hold] at hup
      exact hS.changes hup hn
    · rw [hup] at hst
      obtain ⟨b, body, rfl, -, hc⟩ | ⟨-, rfl⟩ := Api.step_updating hst
      · have hp := Api.changesOf_eq hc
        have hcron : c.cronExpression = none := by
          have := hp.computed
          rw [hn] at this
          simpa using this.symm
        refine ⟨hcron, ?_⟩
        by_contra hzone
        obtain ⟨tz, htz⟩ := Option.ne_none_iff_exists'.mp hzone
        rw [hp.timezone] at htz
        rw [hp.cronExpression] at hcron
        exact (ha.patch rfl htz).2 hcron
      · exact ⟨rfl, rfl⟩

theorem Computed.init : Computed env Sys.init := by
  intro k w n hw
  cases hw

/-- In every run of the system, every ACTIVE subscription is on its schedule in every state iff each
resume and each PATCH leaves the ones that it updates on theirs; and this is so where the API is
used coherently. -/
theorem next_fire_of_schedule (env : Env) (as : List Action) :
    (Lts.Along (step env) (OnCommit env (KeepsSchedules env)) init as ↔
      Lts.Always (step env) (fun s => ∀ b ∈ s.db.subscriptions, b.status = .active →
        b.OnSchedule env) init as) ∧
    (Lts.Along (step env) (Coherent env) init as →
      Lts.Along (step env) (OnCommit env (KeepsSchedules env)) init as) := by
  have hstep : ∀ {s a s'}, Owned s ∧ Locking env s ∧ Computed env s → step env s a = some s' →
      Owned s' ∧ Locking env s' ∧ Computed env s' := fun hI h =>
    ⟨hI.1.step h, hI.2.1.step hI.1.wf h, hI.2.2.step hI.2.1 h⟩
  have hinit : Owned init ∧ Locking env init ∧ Computed env init :=
    ⟨Owned.init, Locking.init, Computed.init⟩
  have hrows {s : Sys} (hI : Owned s) : Timed env s.db ↔
      ∀ b ∈ s.db.subscriptions, b.status = .active → b.OnSchedule env :=
    ⟨fun h b hb => h b.id b (hI.wf.sub?_mem.mp hb), fun h _ b hb => h b (Table.get?_mem hb)⟩
  constructor
  · refine Lts.along_iff_always (I := fun s => Owned s ∧ Locking env s ∧ Computed env s) hstep
      (fun hI hT h => ?_) hinit (fun b hb => by cases hb)
    rw [← hrows (hstep hI h).1]
    exact step_timed_iff hI.2.2 ((hrows hI.1).mpr hT) h
  · intro hco
    refine Lts.Along.of_inv
      (I := fun s => (Owned s ∧ Locking env s ∧ Computed env s) ∧ OnSchedules env s)
      (fun hI ha h => ⟨hstep hI.1 h, hI.2.step hI.1.2.2 ha h⟩)
      (fun hI _ _ t ht => hI.2.keeps hI.1.2.2 ht) ⟨hinit, OnSchedules.init⟩ hco

end Sys

namespace Demo

/-- 24 hours. -/
def day : Time := seconds 86400

/-- 09:00 of a day in UTC or in Tokyo, nine hours ahead. -/
def dailyEnv : Env :=
  { env with
    pytzTimezone := fun zone => if zone = "UTC" ∨ zone = "Asia/Tokyo" then some zone else none
    getNext := fun expression zone t =>
      if expression = "0 9 * * *" then
        let first := if zone = "Asia/Tokyo" then 0 else seconds 32400
        some ((t - first) / day * day + day + first)
      else none
    isValid := fun expression => expression = "0 9 * * *"
    allTimezones := ["UTC", "Asia/Tokyo"] }

/-- A PATCH of the expression and the timezone, and a tick at the first occurrence in Tokyo. -/
def moved : List Action :=
  [.advance start,
    .request 0 (.begin (.create { body policy with cronExpression := "0 9 * * *" } subId)),
    .request 1 (.begin (.update subId
      { cronExpression := some "0 9 * * *", timezone := some "Asia/Tokyo" })),
    .request 1 .commit,
    .advance (seconds 1717286400),
    .schedule 0 .start,
    .schedule 0 (.select 1 [subId] []),
    .schedule 0 (.process jobId runId),
    .schedule 0 .commit]

/-- Request 0 creates the subscription, and all others are request 1. -/
theorem moved_requests {r : Nat} {b : Api.Action} (h : Action.request r b ∈ moved) :
    (∃ body id, b = .begin (.create body id)) ∨ r = 1 := by
  simp only [moved, List.mem_cons, Action.request.injEq, reduceCtorEq, List.not_mem_nil, or_false,
    false_or] at h
  obtain ⟨-, rfl⟩ | ⟨rfl, -⟩ | ⟨rfl, -⟩ := h
  · exact .inl ⟨_, _, rfl⟩
  · exact .inr rfl
  · exact .inr rfl

theorem moved_coherent :
    Lts.Along (Sys.step dailyEnv) (Sys.Coherent dailyEnv) Sys.init moved := by
  -- No request but 1 is going to write a time.
  refine Lts.Along.of_inv (I := fun s => ∀ r x, r ≠ 1 → (s.requests r).computes x = false)
    (P := fun _ a _ => a ∈ moved) (fun {s a s'} hI ha h r x hr => ?_) (fun {s a s'} hI ha h => ?_)
    (fun _ _ _ => rfl) (Lts.along_of_mem fun _ ha => ha)
  · obtain hsame | ⟨b, t, rfl, hst⟩ := Sys.request_cases h r
    · rw [hsame]
      exact hI r x hr
    · obtain ⟨body, id, rfl⟩ := (moved_requests ha).resolve_right hr
      generalize s'.requests r = st' at hst ⊢
      generalize s.requests r = st at hst
      cases Api.step_move hst <;> rfl
  · refine ⟨fun {r id body tz} he htz => ?_, fun {id c} ht _ r hr => hI r id ?_⟩
    · subst he
      simp only [moved, List.mem_cons, Action.request.injEq, reduceCtorEq, List.not_mem_nil,
        or_false, false_or, and_false, Api.Action.begin.injEq, Api.Request.update.injEq] at ha
      obtain ⟨-, -, rfl⟩ := ha
      cases htz
      exact ⟨by decide, by decide⟩
    · rintro rfl
      obtain ⟨r', b', st, rfl, hst⟩ := Sys.request_of_txn? ht rfl
      generalize s.requests r' = st₀ at hst
      cases Api.step_move hst with
      | commitUpdate =>
        obtain ⟨body, x, he⟩ | rfl := moved_requests ha
        · cases he
        · exact hr rfl

theorem moved_on_schedule : ∃ s, Lts.run (Sys.step dailyEnv) Sys.init moved = some s ∧
    (s.db.scheduledJobs.map (·.scheduledFor) = [seconds 1717286400] ∧
      s.db.subscriptions.map (·.timezone) = ["Asia/Tokyo"]) ∧
    Lts.Always (Sys.step dailyEnv) (fun s => ∀ b ∈ s.db.subscriptions, b.status = .active →
      b.OnSchedule dailyEnv) Sys.init moved := by
  have heval : (Lts.run (Sys.step dailyEnv) Sys.init moved).any (fun s =>
      s.db.scheduledJobs.map (·.scheduledFor) = [seconds 1717286400] ∧
        s.db.subscriptions.map (·.timezone) = ["Asia/Tokyo"]) = true := by
    decide +kernel
  obtain ⟨s, hr, hs⟩ := Lts.exists_run heval
  obtain ⟨halways, hkeeps⟩ := Sys.next_fire_of_schedule dailyEnv moved
  exact ⟨s, hr, of_decide_eq_true hs, halways.mp (hkeeps moved_coherent)⟩

/-- A PATCH of the timezone alone. -/
def relocated : List Action :=
  [.advance start,
    .request 0 (.begin (.create { body policy with cronExpression := "0 9 * * *" } subId)),
    .request 1 (.begin (.update subId { timezone := some "Asia/Tokyo" })),
    .request 1 .commit]

theorem relocated_off_schedule :
    ¬ ∀ as s, Lts.run (Sys.step dailyEnv) Sys.init as = some s →
      ∀ b ∈ s.db.subscriptions, b.status = .active → b.OnSchedule dailyEnv := by
  intro h
  have heval : ((Lts.run (Sys.step dailyEnv) Sys.init relocated).any fun s =>
      s.db.subscriptions.any fun b => b.status = .active ∧ b.cronExpression = "0 9 * * *" ∧
        b.timezone = "Asia/Tokyo" ∧ b.nextFireAt.all fun f => f % day ≠ 0) = true := by
    decide +kernel
  obtain ⟨s, hr, hp⟩ := Lts.exists_run heval
  obtain ⟨b, hb, hp⟩ := List.any_eq_true.mp hp
  simp only [decide_eq_true_eq] at hp
  obtain ⟨hactive, hcron, hzone, hoff⟩ := hp
  obtain ⟨f, hf, zone, t, hz, hn⟩ := h relocated s hr b hb hactive
  rw [hf, Option.all_some, decide_eq_true_eq] at hoff
  -- In Tokyo every occurrence is at 00:00 UTC.
  have hzone' : zone = "Asia/Tokyo" := by
    rw [hzone] at hz
    simpa [dailyEnv] using hz.symm
  subst hzone'
  rw [hcron] at hn
  simp only [dailyEnv, if_true, Int.sub_zero, Int.add_zero, Option.some.injEq] at hn
  refine hoff ?_
  rw [← hn, Int.add_emod_right]
  exact Int.mul_emod_left _ _

end Demo

end PaymentScheduler
