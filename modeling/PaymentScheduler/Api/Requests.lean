import PaymentScheduler.Db.Txn

/-!
# `app/api/routes`

The requests that write: `POST /subscriptions`, `PATCH`, `DELETE` and `resume` of a subscription,
and `resolve` of a dead letter. A handler reads its row without a lock and updates it later, so a
request is a read (`begin`) and a `commit`; the session commits when the handler returns. The
schemas carry the bounds that pydantic checks.
-/

namespace PaymentScheduler

/-- `RetryPolicySchema`. -/
structure RetryPolicySchema where
  maxAttempts : Int := 5
  baseBackoffS : ℚ := 60
  maxBackoffS : ℚ := 3600
  jitter : Bool := true
  maxAttempts_ge : 1 ≤ maxAttempts := by decide
  maxAttempts_le : maxAttempts ≤ 20 := by decide
  baseBackoffS_ge : 1 ≤ baseBackoffS := by decide
  maxBackoffS_ge : 60 ≤ maxBackoffS := by decide

/-- `model_dump`. -/
def RetryPolicySchema.modelDump (p : RetryPolicySchema) : RetryPolicyDoc :=
  { maxAttempts := some p.maxAttempts
    baseBackoffS := some p.baseBackoffS
    maxBackoffS := some p.maxBackoffS
    jitter := some p.jitter }

/-- `PaymentConfigSchema`. -/
structure PaymentConfigSchema where
  amount : String
  currency : String := "EUR"
  counterpartyIban : String
  counterpartyName : String
  description : String := ""
  monetaryAccountId : Option Int := none
  currency_length : currency.length = 3 := by decide

/-- `model_dump`. -/
def PaymentConfigSchema.modelDump (p : PaymentConfigSchema) : Dict :=
  [("amount", .str p.amount), ("currency", .str p.currency),
    ("counterparty_iban", .str p.counterpartyIban), ("counterparty_name", .str p.counterpartyName),
    ("description", .str p.description),
    ("monetary_account_id", p.monetaryAccountId.elim .null .int)]

/-- `SubscriptionCreate`. -/
structure SubscriptionCreate where
  name : String
  description : Option String := none
  cronExpression : String
  timezone : String := "UTC"
  paymentConfig : PaymentConfigSchema
  retryPolicy : RetryPolicySchema := {}

/-- `SubscriptionUpdate`. -/
structure SubscriptionUpdate where
  name : Option String := none
  description : Option String := none
  cronExpression : Option String := none
  timezone : Option String := none
  paymentConfig : Option PaymentConfigSchema := none
  retryPolicy : Option RetryPolicySchema := none
  status : Option String := none

namespace Api

/-- The point that a request has reached. -/
inductive State where
  | idle
  /-- Before the `UPDATE`; `status` is the one of the response. -/
  | updating (id : UUID) (c : SubscriptionChanges) (status : Nat)
  | resuming (id : UUID) (nextFire : Time)
  | resolving (id : UUID) (resolvedBy : String)
  /-- The response has been sent. -/
  | responded (status : Nat)

/-- A request. -/
inductive Request where
  /-- `id` is the fresh uuid. -/
  | create (body : SubscriptionCreate) (id : UUID)
  | update (id : UUID) (body : SubscriptionUpdate)
  | delete (id : UUID)
  | resume (id : UUID)
  | resolve (id : UUID) (resolvedBy : String)

inductive Action where
  | begin (r : Request)
  | commit
  /-- A database error. -/
  | abort

variable (env : Env) (db : Db) (now : Time)

/-- `compute_next_fire`: `none` is an exception. -/
def computeNextFire (cronExpression timezone : String) : Option Time :=
  (env.pytzTimezone timezone).bind fun zone => env.getNext cronExpression zone now

/-- The checks of `SubscriptionCreate`. -/
def createValid (body : SubscriptionCreate) : Bool :=
  1 ≤ body.name.length ∧ body.name.length ≤ 255 ∧ env.isValid body.cronExpression ∧
    body.timezone ∈ env.allTimezones

/-- `create_subscription`. -/
def createSubscription (body : SubscriptionCreate) (id : UUID) : Option Subscription :=
  (computeNextFire env now body.cronExpression body.timezone).map fun nextFire =>
    { id := id
      name := body.name
      description := body.description
      cronExpression := body.cronExpression
      timezone := body.timezone
      nextFireAt := some nextFire
      paymentConfig := body.paymentConfig.modelDump
      retryPolicy := body.retryPolicy.modelDump
      createdAt := now }

/-- The allowed values of `status`, in upper case. -/
def allowedStatus : String → Option SubscriptionStatus
  | "ACTIVE" => some .active
  | "PAUSED" => some .paused
  | "CANCELLED" => some .cancelled
  | _ => none

/-- `update_subscription` up to the `UPDATE`, or the status of the error response. -/
def changesOf (b : Subscription) (body : SubscriptionUpdate) : Except Nat SubscriptionChanges := do
  let nextFire ←
    match body.cronExpression with
    | none => .ok none
    | some cron =>
      let timezone := match body.timezone with
        | some tz => if tz = "" then b.timezone else tz
        | none => b.timezone
      match computeNextFire env now cron timezone with
      | some t => .ok (some t)
      | none => .error 500
  let status ←
    match body.status with
    | none => .ok none
    | some s =>
      match allowedStatus (upper s) with
      | some status => .ok (some status)
      | none => .error 422
  return {
    name := body.name
    description := body.description
    cronExpression := body.cronExpression
    nextFireAt := nextFire
    timezone := body.timezone
    paymentConfig := body.paymentConfig.map (·.modelDump)
    retryPolicy := body.retryPolicy.map (·.modelDump)
    status := status
    pausedAt := if status = some .paused then some now else none }

/-- A handler up to its `UPDATE`, which is in the next state, or to its response. -/
def begin : Request → State × Option Txn
  | .create body id =>
    if createValid env body then
      match createSubscription env now body id with
      | some b => (.responded 201, some (.createSubscription b))
      | none => (.responded 500, none)
    else (.responded 422, none)
  | .update id body =>
    if body.cronExpression.all env.isValid then
      match db.sub? id with
      | none => (.responded 404, none)
      | some b =>
        match changesOf env now b body with
        | .ok c => if c.isEmpty then (.responded 200, none) else (.updating id c 200, none)
        | .error status => (.responded status, none)
    else (.responded 422, none)
  | .delete id =>
    match db.sub? id with
    | none => (.responded 404, none)
    | some _ => (.updating id { status := some .cancelled } 204, none)
  | .resume id =>
    match db.sub? id with
    | none => (.responded 404, none)
    | some b =>
      match computeNextFire env now b.cronExpression b.timezone with
      | some nextFire => (.resuming id nextFire, none)
      | none => (.responded 500, none)
  | .resolve id resolvedBy =>
    match db.entry? id with
    | none => (.responded 404, none)
    | some e =>
      if e.resolvedAt.isSome then (.responded 409, none) else (.resolving id resolvedBy, none)

/-- A step of a request: its next state, and the transaction that it commits. -/
def step : State → Action → Option (State × Option Txn)
  | .idle, .begin r => some (begin env db now r)
  | .updating id c status, .commit => some (.responded status, some (.updateSubscription id c))
  | .resuming id nextFire, .commit => some (.responded 200, some (.resume id nextFire))
  | .resolving id resolvedBy, .commit => some (.responded 200, some (.resolve id now resolvedBy))
  | .updating .., .abort | .resuming .., .abort | .resolving .., .abort =>
    some (.responded 500, none)
  | _, _ => none

/-- The steps of a request, one constructor for each. -/
inductive Move : State → Action → State → Option Txn → Prop where
  | create {body id b} (hb : createSubscription env now body id = some b) :
    Move .idle (.begin (.create body id)) (.responded 201) (some (.createSubscription b))
  | update {id body b c} (hb : db.sub? id = some b) (hc : changesOf env now b body = .ok c) :
    Move .idle (.begin (.update id body)) (.updating id c 200) none
  | delete {id b} (hb : db.sub? id = some b) :
    Move .idle (.begin (.delete id)) (.updating id { status := some .cancelled } 204) none
  | resume {id b nextFire} (hb : db.sub? id = some b)
    (hn : computeNextFire env now b.cronExpression b.timezone = some nextFire) :
    Move .idle (.begin (.resume id)) (.resuming id nextFire) none
  | resolve {id resolvedBy} :
    Move .idle (.begin (.resolve id resolvedBy)) (.resolving id resolvedBy) none
  /-- A response without a write, of an error or of a PATCH without changes. -/
  | respond {st a status} : Move st a (.responded status) none
  | commitUpdate {id c status} :
    Move (.updating id c status) .commit (.responded status) (some (.updateSubscription id c))
  | commitResume {id nextFire} :
    Move (.resuming id nextFire) .commit (.responded 200) (some (.resume id nextFire))
  | commitResolve {id resolvedBy} :
    Move (.resolving id resolvedBy) .commit (.responded 200) (some (.resolve id now resolvedBy))

variable {env db now}

theorem begin_move {r : Request} {st : State} {t : Option Txn} (h : begin env db now r = (st, t)) :
    Move env db now .idle (.begin r) st t := by
  cases r with
  | create body id =>
    simp only [begin] at h
    split at h
    · split at h
      · rename_i b hb
        cases h
        exact .create hb
      · cases h
        exact .respond
    · cases h
      exact .respond
  | update id body =>
    simp only [begin] at h
    split at h
    · split at h
      · cases h
        exact .respond
      · rename_i b hb
        split at h
        · rename_i c hc
          split at h
          · cases h
            exact .respond
          · cases h
            exact .update hb hc
        · cases h
          exact .respond
    · cases h
      exact .respond
  | delete id =>
    simp only [begin] at h
    split at h
    · cases h
      exact .respond
    · rename_i b hb
      cases h
      exact .delete hb
  | resume id =>
    simp only [begin] at h
    split at h
    · cases h
      exact .respond
    · rename_i b hb
      split at h
      · rename_i nextFire hn
        cases h
        exact .resume hb hn
      · cases h
        exact .respond
  | resolve id resolvedBy =>
    simp only [begin] at h
    split at h
    · cases h
      exact .respond
    · split at h
      · cases h
        exact .respond
      · cases h
        exact .resolve

theorem step_move {st st' : State} {a : Action} {t : Option Txn}
    (h : step env db now st a = some (st', t)) : Move env db now st a st' t := by
  unfold step at h
  split at h
  · exact begin_move (Option.some.inj h)
  · cases h
    exact .commitUpdate
  · cases h
    exact .commitResume
  · cases h
    exact .commitResolve
  · cases h
    exact .respond
  · cases h
    exact .respond
  · cases h
    exact .respond
  · cases h

/-- The transactions of the requests write `subscriptions` and `dead_letter_queue` only. -/
theorem step_txn {st st' : State} {a : Action} {t : Txn}
    (h : step env db now st a = some (st', some t)) :
    (∃ b, t = .createSubscription b) ∨ (∃ id c, t = .updateSubscription id c) ∨
      (∃ id nextFire, t = .resume id nextFire) ∨
      ∃ id resolvedBy, t = .resolve id now resolvedBy := by
  cases step_move h with
  | create => exact .inl ⟨_, rfl⟩
  | commitUpdate => exact .inr (.inl ⟨_, _, rfl⟩)
  | commitResume => exact .inr (.inr (.inl ⟨_, _, rfl⟩))
  | commitResolve => exact .inr (.inr (.inr ⟨_, _, rfl⟩))

/-- A created subscription is ACTIVE, and fires next at the first occurrence. -/
theorem step_create {st st' : State} {a : Action} {b : Subscription}
    (h : step env db now st a = some (st', some (.createSubscription b))) :
    b.status = .active ∧ b.consecutiveFailures = 0 ∧ b.pausedAt = none ∧
      ∃ f, b.nextFireAt = some f ∧ env.getNext b.cronExpression
        ((env.pytzTimezone b.timezone).getD "UTC") now = some f := by
  cases step_move h with
  | create hb =>
    obtain ⟨next, hnext, rfl⟩ := Option.map_eq_some_iff.mp hb
    obtain ⟨zone, hz, hnext⟩ := Option.bind_eq_some_iff.mp hnext
    exact ⟨rfl, rfl, rfl, next, rfl, by simp [hz, hnext]⟩

/-- The timezone that a PATCH request computes `next_fire_at` with. -/
def patchTimezone (b : Subscription) (body : SubscriptionUpdate) : String :=
  match body.timezone with
  | some tz => if tz = "" then b.timezone else tz
  | none => b.timezone

/-- The changes of a PATCH request. -/
structure Patches (env : Env) (now : Time) (b : Subscription) (body : SubscriptionUpdate)
    (c : SubscriptionChanges) : Prop where
  cronExpression : c.cronExpression = body.cronExpression
  timezone : c.timezone = body.timezone
  paymentConfig : c.paymentConfig = body.paymentConfig.map (·.modelDump)
  retryPolicy : c.retryPolicy = body.retryPolicy.map (·.modelDump)
  pausedAt : c.pausedAt = if c.status = some .paused then some now else none
  /-- `next_fire_at` goes with `cron_expression`. -/
  nextFireAt : c.nextFireAt = body.cronExpression.bind fun cron =>
    computeNextFire env now cron (patchTimezone b body)
  computed : c.nextFireAt.isSome = c.cronExpression.isSome
  status : c.status.isSome = body.status.isSome

theorem changesOf_eq {b : Subscription} {body : SubscriptionUpdate} {c : SubscriptionChanges}
    (h : changesOf env now b body = .ok c) : Patches env now b body c := by
  obtain ⟨name, description, cron, tz, config, policy, status⟩ := body
  simp only [changesOf, bind, Except.bind] at h
  -- The computation of `next_fire_at`, and then the check of the status.
  cases cron with
  | none =>
    cases status with
    | none =>
      cases h
      exact ⟨rfl, rfl, rfl, rfl, rfl, rfl, rfl, rfl⟩
    | some status =>
      dsimp only at h
      split at h
      · cases h
        exact ⟨rfl, rfl, rfl, rfl, rfl, rfl, rfl, rfl⟩
      · cases h
  | some cron =>
    dsimp only at h
    split at h
    · rename_i t ht
      have hn : some t = computeNextFire env now cron
          (patchTimezone b ⟨name, description, some cron, tz, config, policy, status⟩) := by
        rw [← ht]
        rfl
      cases status with
      | none =>
        cases h
        exact ⟨rfl, rfl, rfl, rfl, rfl, hn, rfl, rfl⟩
      | some status =>
        dsimp only at h
        split at h
        · cases h
          exact ⟨rfl, rfl, rfl, rfl, rfl, hn, rfl, rfl⟩
        · cases h
    · cases h

/-- A created subscription comes from a POST. -/
theorem step_creating {st st' : State} {a : Action} {b : Subscription}
    (h : step env db now st a = some (st', some (.createSubscription b))) :
    ∃ body id, a = .begin (.create body id) ∧ createSubscription env now body id = some b := by
  cases step_move h with
  | create hb => exact ⟨_, _, rfl, hb⟩

/-- The `UPDATE` of a request is that of a PATCH or of a DELETE. -/
theorem step_updating {st : State} {a : Action} {t : Option Txn} {id : UUID}
    {c : SubscriptionChanges} {status : Nat}
    (h : step env db now st a = some (.updating id c status, t)) :
    (∃ b body, a = .begin (.update id body) ∧ db.sub? id = some b ∧
      changesOf env now b body = .ok c) ∨
    a = .begin (.delete id) ∧ c = { status := some .cancelled } := by
  cases step_move h with
  | update hb hc => exact .inl ⟨_, _, rfl, hb, hc⟩
  | delete => exact .inr ⟨rfl, rfl⟩

/-- A committed `UPDATE` is the one that the request has prepared. -/
theorem step_update {st st' : State} {a : Action} {id : UUID} {c : SubscriptionChanges}
    (h : step env db now st a = some (st', some (.updateSubscription id c))) :
    ∃ status, st = .updating id c status := by
  cases step_move h with
  | commitUpdate => exact ⟨_, rfl⟩

/-- A committed resume is the one that the request has prepared. -/
theorem step_resume {st st' : State} {a : Action} {id : UUID} {n : Time}
    (h : step env db now st a = some (st', some (.resume id n))) : st = .resuming id n := by
  cases step_move h with
  | commitResume => rfl

end Api

end PaymentScheduler
