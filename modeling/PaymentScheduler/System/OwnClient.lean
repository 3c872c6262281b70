import PaymentScheduler.Bunq.Client
import PaymentScheduler.System.Basic

/-!
# The executor's own client

Without an injected client, `_execute_run` builds `BunqClient(get_settings())` and calls
`create_payment(payment_config=…, idempotency_key=…)` on it. Neither call fits its signature, and
the `TypeError` is an ordinary exception for the executor: the run fails and is retried.

- `ownClient_never_pays`: no configuration and no run is ever paid so.
-/

namespace PaymentScheduler

/-- The request pays what the configuration says, under the key of the run. -/
structure BunqClient.Post.Pays (env : Env) (run : JobRun) (config : PaymentConfig)
    (p : Post) : Prop where
  account : p.accountId = if config.monetaryAccountId.truthy then config.monetaryAccountId
    else .int env.settings.bunqMonetaryAccountId
  amount : p.amount = config.amount.str
  currency : p.currency = config.currency
  iban : p.counterpartyIban = config.counterpartyIban
  name : p.counterpartyName = config.counterpartyName
  description : p.description = config.description
  key : p.clientRequestId = IdempotencyKey.forRun env run.id run.attempt

namespace Executor

/-- How a call of `create_payment` has ended. -/
def Outcome.ofResult : Except PyException Json → Outcome
  | .ok response => .returned response
  | .error exc => .raised exc

variable (env : Env) (bunq : BunqClient.Transport) (db : Db)

/-- `BunqClient(get_settings())`, and `create_payment` on it: the requests, and the end. -/
def callOwnClient (run : JobRun) (config : PaymentConfig) :
    Option (List BunqClient.Post × Except PyException Json) :=
  match BunqClient.initSignature.bind [.self, .settings env.settings] [] with
  | .error exc => some ([], .error exc)
  | .ok _ =>
    BunqClient.createPayment env bunq [.self]
      [("payment_config", .config config),
        ("idempotency_key", .json (.str (IdempotencyKey.forRun env run.id run.attempt)))]

/-- `_execute_run` from `_find_idempotency_key` to the end of the call. -/
def findAndCall (c : Loaded) (config : PaymentConfig) : Option (List BunqClient.Post × Phase) :=
  match db.key? c.run.id c.run.attempt with
  | some k => some ([], .persisting c (k.bunqPaymentId.elim .null .str))
  | none =>
    (callOwnClient env bunq c.run config).map fun (posts, r) => (posts, afterCall c (.ofResult r))

/-- `_execute_run` of a claimed run to the end of the call: the requests to bunq, and the next
point. -/
def executeOwnClient (run : UUID) : Option (List BunqClient.Post × Phase) :=
  match executeRun env db run with
  | .finding c config => findAndCall env bunq db c config
  | .checking c config =>
    if checkDagDependencies db c.job.dependsOn then findAndCall env bunq db c config
    else some ([], .cancelling c)
  | p => some ([], p)

variable {env bunq db}

theorem callOwnClient_eq (run : JobRun) (config : PaymentConfig) :
    callOwnClient env bunq run config = some ([], .error
      (typeError "BunqClient.__init__() takes 1 positional argument but 2 were given")) := by
  rw [callOwnClient, BunqClient.initClient_settings]

/-- For every run that is to be paid, nothing is sent to bunq, and the run fails with a `TypeError`
that counts as retryable. -/
theorem ownClient_never_pays {run : UUID} {c : Loaded} {config : PaymentConfig}
    (hload : loadRun db run = some c)
    (hconfig : PaymentConfig.fromDict env c.subscription.paymentConfig = .ok config)
    (hdeps : checkDagDependencies db c.job.dependsOn = true)
    (hkey : db.key? c.run.id c.run.attempt = none) :
    executeOwnClient env bunq db run = some ([], .failing c
        "BunqClient.__init__() takes 1 positional argument but 2 were given" true) ∧
      ¬ ∃ p next, executeOwnClient env bunq db run = some ([p], next) ∧
        p.Pays env c.run config := by
  have hfind : findAndCall env bunq db c config = some ([], .failing c
      "BunqClient.__init__() takes 1 positional argument but 2 were given" true) := by
    rw [findAndCall, hkey]
    dsimp only
    rw [callOwnClient_eq]
    rfl
  have hexec : executeOwnClient env bunq db run = some ([], .failing c
      "BunqClient.__init__() takes 1 positional argument but 2 were given" true) := by
    unfold executeOwnClient executeRun
    simp only [hload, hconfig]
    by_cases hnil : c.job.dependsOn = []
    · simp only [if_pos hnil]
      exact hfind
    · simp only [if_neg hnil, hdeps, if_true]
      exact hfind
  refine ⟨hexec, ?_⟩
  rintro ⟨p, next, hp, -⟩
  rw [hexec] at hp
  cases hp

end Executor

namespace Demo

/-- bunq accepts every payment. -/
def accepting : BunqClient.Transport := fun _ =>
  .response { statusCode := 200, text := "", json := .ok response }

/-- The first run has been claimed by executor 0. -/
def claimed : List Action := (opening policy).take 8

/-- The claimed run is to be paid: its configuration is valid, and it has no key. -/
def payable (s : Sys) : Bool :=
  decide ((s.executors 0).phase.run? = some runId) && (Executor.loadRun s.db runId).any fun c =>
    (PaymentConfig.fromDict env c.subscription.paymentConfig).isOk &&
      Executor.checkDagDependencies s.db c.job.dependsOn &&
      (s.db.key? c.run.id c.run.attempt).isNone

theorem claimed_never_pays : ∃ s c config, Lts.run (Sys.step env) Sys.init claimed = some s ∧
    (s.executors 0).phase.run? = some runId ∧ Executor.loadRun s.db runId = some c ∧
    PaymentConfig.fromDict env c.subscription.paymentConfig = .ok config ∧
    Executor.executeOwnClient env accepting s.db runId = some ([], .failing c
        "BunqClient.__init__() takes 1 positional argument but 2 were given" true) ∧
      ¬ ∃ p next, Executor.executeOwnClient env accepting s.db runId = some ([p], next) ∧
        p.Pays env c.run config := by
  obtain ⟨s, hs, hp⟩ := Lts.exists_run
    (show (Lts.run (Sys.step env) Sys.init claimed).any payable = true by decide +kernel)
  simp only [payable, Bool.and_eq_true, decide_eq_true_eq, Option.any_eq_true] at hp
  obtain ⟨hrun, c, hload, ⟨hconfig, hdeps⟩, hkey⟩ := hp
  obtain ⟨config, hconfig⟩ : ∃ config,
      PaymentConfig.fromDict env c.subscription.paymentConfig = .ok config := by
    cases hc : PaymentConfig.fromDict env c.subscription.paymentConfig with
    | ok config => exact ⟨config, rfl⟩
    | error exc => simp [hc, Except.isOk, Except.toBool] at hconfig
  exact ⟨s, c, config, hs, hrun, hload, hconfig,
    Executor.ownClient_never_pays hload hconfig hdeps (Option.isNone_iff_eq_none.mp hkey)⟩

/-- bunq would accept the payment, but it gets no request. -/
theorem claimed_unpaid : ∃ s, Lts.run (Sys.step env) Sys.init claimed = some s ∧
    payable s = true ∧ ¬ ∃ p next,
      Executor.executeOwnClient env accepting s.db runId = some ([p], next) := by
  have heval : (Lts.run (Sys.step env) Sys.init claimed).any (fun s => payable s &&
      (Executor.executeOwnClient env accepting s.db runId).any fun (posts, _) =>
        posts.isEmpty) = true := by decide +kernel
  obtain ⟨s, hs, hp⟩ := Lts.exists_run heval
  obtain ⟨hpay, hp⟩ := (Bool.and_eq_true _ _).mp hp
  refine ⟨s, hs, hpay, ?_⟩
  rintro ⟨p, next, he⟩
  rw [he] at hp
  cases hp

end Demo

end PaymentScheduler
