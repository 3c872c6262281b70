import PaymentScheduler.Config
import PaymentScheduler.Py.Call

/-!
# `PaymentConfig`

The validated payment configuration, built from the JSONB dict of a subscription. The fields may
hold any JSON value: an `InvalidOperation` (a NaN amount), an `AttributeError` or a `TypeError`
escapes where the code applies an operation that the value does not have.
-/

namespace PaymentScheduler

/-- `PaymentConfig`, once built. -/
structure PaymentConfig where
  amount : Decimal
  currency : String
  counterpartyIban : String
  counterpartyName : String
  description : Json
  monetaryAccountId : Json

namespace PaymentConfig

/-- `REQUIRED_FIELDS`. -/
def requiredFields : List String := ["amount", "counterparty_iban", "counterparty_name"]

/-- The check of `amount`. -/
def checkAmount (env : Env) (amount : Json) : Except PyException Decimal :=
  match amount.decimal? with
  | none =>
    .error (valueError ("payment_config.amount is not a valid decimal: " ++ env.repr amount))
  | some parsed =>
    match parsed.nonpositive? with
    | none => .error ⟨.invalidOperation, "[<class 'decimal.InvalidOperation'>]"⟩
    | some true =>
      .error (valueError ("payment_config.amount must be positive, got " ++ env.repr amount))
    | some false => .ok parsed

/-- `not v or not v.strip()`, and the stripped value. -/
def checkText (field : String) (v : Json) : Except PyException String :=
  let required := valueError ("payment_config." ++ field ++ " is required")
  if v.truthy then
    match v with
    | .str s => if strip s = "" then .error required else .ok (strip s)
    | _ => .error (attributeError s!"'{v.typeName}' object has no attribute 'strip'")
  else .error required

def checkCounterpartyIban : Json → Except PyException String := checkText "counterparty_iban"

def checkCounterpartyName : Json → Except PyException String := checkText "counterparty_name"

/-- `len(currency) != 3`, and the upper case. -/
def checkCurrency (env : Env) (currency : Json) : Except PyException String :=
  match currency.len? with
  | none => .error (typeError s!"object of type '{currency.typeName}' has no len()")
  | some n =>
    if n ≠ 3 then
      .error (valueError
        ("payment_config.currency must be a 3-char ISO code, got " ++ env.repr currency))
    else
      match currency with
      | .str s => .ok (upper s)
      | _ => .error (attributeError s!"'{currency.typeName}' object has no attribute 'upper'")

/-- `__init__`. -/
def init (env : Env) (amount counterpartyIban counterpartyName currency description
    monetaryAccountId : Json) : Except PyException PaymentConfig := do
  let parsed ← checkAmount env amount
  let iban ← checkCounterpartyIban counterpartyIban
  let name ← checkCounterpartyName counterpartyName
  let code ← checkCurrency env currency
  return {
    amount := parsed
    currency := code
    counterpartyIban := iban
    counterpartyName := name
    description := description
    monetaryAccountId := monetaryAccountId }

/-- `from_dict`. -/
def fromDict (env : Env) (d : Dict) : Except PyException PaymentConfig :=
  let missing := requiredFields.filter fun f => (d.lookup f).isNone
  if missing ≠ [] then
    .error (valueError ("payment_config missing required fields: [" ++
      ", ".intercalate (missing.map fun f => "'" ++ f ++ "'") ++ "]"))
  else
    let get (f : String) (default : Json) := (d.lookup f).getD default
    init env (get "amount" .null) (get "counterparty_iban" .null) (get "counterparty_name" .null)
      (get "currency" (.str "EUR")) (get "description" (.str "")) (get "monetary_account_id" .null)

end PaymentConfig

end PaymentScheduler
