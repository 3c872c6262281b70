import PaymentScheduler.Domain.PaymentConfig

/-!
# `app/infrastructure/bunq/client.py`

`BunqClient` with the signatures of its methods, the request that `create_payment` sends, and what
it makes of the answer. The answer of bunq, or the `httpx` exception, is a function of the request
(`Transport`).

- `respond`: the answer as a return value or an exception.
- `initClient_settings`: the constructor takes no settings.
- `bind_paymentConfig`: `create_payment` takes no `payment_config`.
-/

namespace PaymentScheduler

/-- The values that are passed to `BunqClient`. -/
inductive PyValue where
  /-- The instance that a method is called on. -/
  | self
  | settings (s : Settings)
  | config (c : PaymentConfig)
  | decimal (d : Decimal)
  | json (v : Json)

namespace PyValue

def decimal? : PyValue → Option Decimal
  | decimal d => some d
  | _ => none

def json? : PyValue → Option Json
  | json v => some v
  | _ => none

def str? : PyValue → Option String
  | json (.str s) => some s
  | _ => none

end PyValue

/-- `v.get(k, default)`. -/
def Json.get (v : Json) (k : String) (default : Json) : Except PyException Json :=
  match v with
  | obj fields => .ok ((fields.lookup k).getD default)
  | _ => .error (attributeError s!"'{v.typeName}' object has no attribute 'get'")

namespace BunqClient

/-- A request to `/monetary-account/{account_id}/payment`. -/
structure Post where
  accountId : Json
  /-- `amount.value` and `amount.currency`. -/
  amount : String
  currency : String
  /-- `counterparty_alias`, of the type IBAN. -/
  counterpartyIban : String
  counterpartyName : String
  description : Json
  /-- `X-Bunq-Client-Request-Id`. -/
  clientRequestId : String

/-- `httpx.Response`: `json` is `response.json()`. -/
structure Response where
  statusCode : Nat
  text : String
  json : Except PyException Json

/-- How a request ends. -/
inductive Answer where
  | response (r : Response)
  /-- A `ConnectError`, `TimeoutException` or `NetworkError`. -/
  | networkError (text : String)
  /-- Another exception. -/
  | raised (exc : PyException)

abbrev Transport := Post → Answer

/-- `_TRANSIENT_STATUS_CODES`. -/
def transientStatusCodes : List Nat := [429, 500, 502, 503, 504]

/-- The payment id that is logged: `data.get("Response", [{}])[0].get("Id", {}).get("id", …)`. -/
def loggedId (data : Json) : Except PyException Json := do
  let responses ← data.get "Response" (.arr [.obj []])
  let first ← responses.getFirst
  let id ← first.get "Id" (.obj [])
  id.get "id" (.str "unknown")

/-- What `create_payment` makes of the answer. -/
def respond : Answer → Except PyException Json
  | .networkError text =>
    .error ⟨.bunqAmbiguousError, "Network error calling bunq (payment outcome unknown): " ++ text⟩
  | .raised exc => .error exc
  | .response r =>
    if r.statusCode = 200 ∨ r.statusCode = 201 then
      match r.json with
      | .error exc => .error exc
      | .ok data => (loggedId data).map fun _ => data
    else if r.statusCode ∈ transientStatusCodes then
      .error ⟨.bunqTransientError, s!"Transient bunq error {r.statusCode}: " ++ truncate 200 r.text⟩
    else
      .error ⟨.bunqPaymentError, s!"bunq API error {r.statusCode}: " ++ truncate 500 r.text⟩

/-- `__init__(self)`. -/
def initSignature : Signature PyValue where
  name := "BunqClient.__init__"
  positional := [{ name := "self" }]

/-- `create_payment(self, *, …)`. -/
def createPaymentSignature : Signature PyValue where
  name := "BunqClient.create_payment"
  positional := [{ name := "self" }]
  keywordOnly :=
    [{ name := "idempotency_key" }, { name := "amount" }, { name := "currency" },
      { name := "counterparty_iban" }, { name := "counterparty_name" }, { name := "description" },
      { name := "monetary_account_id", default := some (.json .null) }]

/-- The request of `create_payment`, for arguments of the annotated types. -/
def post (env : Env) (args : List (String × PyValue)) : Option Post := do
  let idempotencyKey ← (args.lookup "idempotency_key").bind (·.str?)
  let amount ← (args.lookup "amount").bind (·.decimal?)
  let currency ← (args.lookup "currency").bind (·.str?)
  let iban ← (args.lookup "counterparty_iban").bind (·.str?)
  let name ← (args.lookup "counterparty_name").bind (·.str?)
  let description ← (args.lookup "description").bind (·.json?)
  let account ← (args.lookup "monetary_account_id").bind (·.json?)
  return {
    accountId := if account.truthy then account else .int env.settings.bunqMonetaryAccountId
    amount := amount.str
    currency := currency
    counterpartyIban := iban
    counterpartyName := name
    description := description
    clientRequestId := idempotencyKey }

/-- A call of `create_payment`: the requests that it sends, and its end. `none`: an argument is not
of the annotated type. -/
def createPayment (env : Env) (bunq : Transport) (args : List PyValue)
    (kwargs : List (String × PyValue)) : Option (List Post × Except PyException Json) :=
  match createPaymentSignature.bind args kwargs with
  | .error exc => some ([], .error exc)
  | .ok bound => (post env bound).map fun p => ([p], respond (bunq p))

/-- The constructor takes no settings. -/
theorem initClient_settings (s : Settings) :
    initSignature.bind [.self, .settings s] [] =
      .error (typeError "BunqClient.__init__() takes 1 positional argument but 2 were given") := by
  have htext : initSignature.tooMany 2 0 =
      "BunqClient.__init__() takes 1 positional argument but 2 were given" := by decide +kernel
  rw [← htext]
  exact Signature.bind_tooMany (Nat.lt_succ_self 1)

/-- `create_payment` takes the fields of a configuration, not the configuration. -/
theorem bind_paymentConfig (c : PaymentConfig) (key : String) :
    createPaymentSignature.bind [.self]
        [("payment_config", .config c), ("idempotency_key", .json (.str key))] =
      .error (typeError
        "BunqClient.create_payment() got an unexpected keyword argument 'payment_config'") := by
  refine (Signature.bind_unexpected (v := PyValue.config c) (k := "payment_config") rfl).trans ?_
  refine congrArg (fun text => Except.error (typeError text)) ?_
  decide +kernel

end BunqClient

end PaymentScheduler
