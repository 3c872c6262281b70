import PaymentScheduler.Domain.Validation
import PaymentScheduler.System.Columns

/-!
# The payment configurations of the API

`PaymentConfigSchema` checks the currency only: its amount, IBAN and name are any strings. What the
API stores (`modelDump`) is accepted by `PaymentConfig.from_dict` exactly where these three can be
paid (`PaymentConfigSchema.Payable`).

- `PaymentConfig.accepted_modelDump_iff`: one configuration.
- `Sys.Brings`: the configurations of a run are those that its requests bring.
- `Sys.stored_configs_accepted`: where all requests bring such configurations, all stored ones are
  accepted, and no executor rejects one.
- `Sys.api_validation_iff`: both.
-/

namespace PaymentScheduler

/-- The amount is a positive number, and neither the IBAN nor the name is blank. -/
def PaymentConfigSchema.Payable (p : PaymentConfigSchema) : Prop :=
  (∃ amount, Decimal.parse p.amount = some amount ∧ amount.nonpositive? = some false) ∧
    strip p.counterpartyIban ≠ "" ∧ strip p.counterpartyName ≠ ""

/-- `from_dict` accepts what the API stores if and only if it can be paid. -/
theorem PaymentConfig.accepted_modelDump_iff {env : Env} (p : PaymentConfigSchema) :
    Accepted env p.modelDump ↔ p.Payable := by
  have hmissing : ¬ ∃ f ∈ requiredFields, p.modelDump.lookup f = none :=
    fun h => missing_iff.mpr h rfl
  have hamount : field p.modelDump "amount" .null = .str p.amount := rfl
  have hiban : field p.modelDump "counterparty_iban" .null = .str p.counterpartyIban := rfl
  have hname : field p.modelDump "counterparty_name" .null = .str p.counterpartyName := rfl
  have hcurrency : field p.modelDump "currency" (.str "EUR") = .str p.currency := rfl
  have h3 := p.currency_length
  rw [accepted_iff, and_iff_right hmissing, hamount, hiban, hname, hcurrency]
  simp [AcceptsAmount, AcceptsText, AcceptsCurrency, PaymentConfigSchema.Payable, Json.decimal?, h3]

/-- The configuration that a request brings. -/
def Api.Request.paymentConfig? : Api.Request → Option PaymentConfigSchema
  | .create body _ => some body.paymentConfig
  | .update _ body => body.paymentConfig
  | _ => none

/-- The configuration of the request that an action begins. -/
def Action.paymentConfig? : Action → Option PaymentConfigSchema
  | .request _ (.begin r) => r.paymentConfig?
  | _ => none

/-- The document is that of a configuration which one of the actions brings. -/
def Brought (as : List Action) (d : Dict) : Prop :=
  ∃ a ∈ as, ∃ p, a.paymentConfig? = some p ∧ d = p.modelDump

namespace Sys

variable {env : Env} {s s' : Sys}

/-- The configurations that are stored, loaded or about to be stored are those that the actions
bring. -/
abbrev Brings (as : List Action) (s : Sys) : Prop := Column.paymentConfig.Kept (Brought as) s

theorem Brings.step {as : List Action} {a : Action} (hB : Brings as s) (ha : a ∈ as)
    (h : s.step env a = some s') : Brings as s' := by
  refine Column.Kept.step hB ⟨?_, ?_⟩ h
  · rintro r body id b rfl hb
    obtain ⟨next, -, rfl⟩ := Option.map_eq_some_iff.mp hb
    exact ⟨_, ha, body.paymentConfig, rfl, rfl⟩
  · rintro r id body b c d rfl hc hd
    have hd : c.paymentConfig = some d := hd
    rw [(Api.changesOf_eq hc).paymentConfig] at hd
    obtain ⟨p, hp, rfl⟩ := Option.map_eq_some_iff.mp hd
    exact ⟨_, ha, p, hp, rfl⟩

/-- The configurations that are stored, loaded or about to be stored are accepted. -/
abbrev Configured (env : Env) (s : Sys) : Prop :=
  Column.paymentConfig.Kept (PaymentConfig.Accepted env) s

theorem Configured.step {a : Action} (hI : Configured env s)
    (ha : ∀ p, a.paymentConfig? = some p → p.Payable) (h : s.step env a = some s') :
    Configured env s' := by
  refine Column.Kept.step hI ⟨?_, ?_⟩ h
  · rintro r body id b rfl hb
    obtain ⟨next, -, rfl⟩ := Option.map_eq_some_iff.mp hb
    exact (PaymentConfig.accepted_modelDump_iff _).mpr (ha _ rfl)
  · rintro r id body b c d rfl hc hd
    have hd : c.paymentConfig = some d := hd
    rw [(Api.changesOf_eq hc).paymentConfig] at hd
    obtain ⟨p, hp, rfl⟩ := Option.map_eq_some_iff.mp hd
    exact (PaymentConfig.accepted_modelDump_iff p).mpr (ha p hp)

/-- An executor rejects no configuration that is accepted. -/
theorem Configured.load {w : Nat} (hI : Configured env s)
    (h : s.step env (.execute w .load) = some s') {c : Executor.Loaded} {error : String}
    {retryable : Bool} : (s'.executors w).phase ≠ .failing c error retryable := by
  intro hp
  obtain ⟨st, t, db', hst, -, -, rfl⟩ := step_execute h
  simp only [Function.update_self] at hp
  cases hph : (s.executors w).phase with
  | claimed run =>
    simp only [Executor.step, hph, Option.some.injEq, Prod.mk.injEq] at hst
    obtain ⟨rfl, -⟩ := hst
    simp only [Executor.executeRun] at hp
    split at hp
    · cases hp
    · rename_i c' hc
      obtain ⟨config, hok⟩ := hI.subs (Executor.loadRun_eq hc).2.2
      have hok : PaymentConfig.fromDict env c'.subscription.paymentConfig = .ok config := hok
      rw [hok] at hp
      dsimp only at hp
      split at hp <;> cases hp
  | _ =>
    simp only [Executor.step, hph] at hst
    cases hst

/-- In every run whose requests bring configurations that can be paid, the stored configurations are
accepted, and no executor rejects one. -/
theorem stored_configs_accepted {as : List Action} (hr : Lts.run (step env) init as = some s)
    (ha : ∀ a ∈ as, ∀ p, a.paymentConfig? = some p → p.Payable) : Configured env s :=
  Lts.run_inv_along (P := fun _ a _ => ∀ p, a.paymentConfig? = some p → p.Payable)
    (fun hI ha h => hI.step ha h) .init (Lts.along_of_mem ha) hr

/-- `from_dict` accepts a configuration of the API exactly where it can be paid; and where all
requests of a run bring such configurations, it accepts every stored one, and no executor
rejects one. -/
theorem api_validation_iff (env : Env) :
    (∀ p : PaymentConfigSchema, PaymentConfig.Accepted env p.modelDump ↔ p.Payable) ∧
      ∀ as s, Lts.run (step env) init as = some s →
        (∀ a ∈ as, ∀ p, a.paymentConfig? = some p → p.Payable) →
        (∀ b ∈ s.db.subscriptions, PaymentConfig.Accepted env b.paymentConfig) ∧
          ∀ w s' c error retryable, s.step env (.execute w .load) = some s' →
            (s'.executors w).phase ≠ .failing c error retryable := by
  refine ⟨PaymentConfig.accepted_modelDump_iff, fun as s hr ha => ?_⟩
  have hI := stored_configs_accepted hr ha
  refine ⟨fun b hb => ?_, fun w s' c error retryable h => hI.load h⟩
  exact hI.subs ((Reachable.owned ⟨as, hr⟩).wf.sub?_mem.mp hb)

end Sys

namespace Demo

/-- A configuration of the API with an amount that is no number. -/
def wordAmount : PaymentConfigSchema where
  amount := "twelve"
  counterpartyIban := "NL91ABNA0417164300"
  counterpartyName := "B. Jansen"
  currency_length := config.currency_length

theorem wordAmount_rejected :
    ¬ ∀ p : PaymentConfigSchema, PaymentConfig.Accepted env p.modelDump := by
  intro h
  obtain ⟨⟨amount, hparse, -⟩, -⟩ :=
    (PaymentConfig.accepted_modelDump_iff wordAmount).mp (h wordAmount)
  have hnone : Decimal.parse wordAmount.amount = none := by decide +kernel
  rw [hnone] at hparse
  cases hparse

end Demo

end PaymentScheduler
