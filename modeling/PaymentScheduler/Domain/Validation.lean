import PaymentScheduler.Domain.PaymentConfig

/-!
# The validation of a payment configuration

`PaymentConfig.from_dict` is to raise a `ValueError`, or to return a configuration that can be paid
(`Returns`, `PaymentConfig.Valid`). A check refuses a value with a `ValueError`, accepts it, or
applies an operation that the value does not have; the fields are checked one after the other.

- `returns_checkAmount`, `returns_checkText`, `returns_checkCurrency`: one check.
- `returns_fromDict_iff`: `from_dict` on every dictionary.
- `accepted_iff`: the dictionaries that it accepts.
-/

namespace PaymentScheduler

/-- A call raises a `ValueError`, or returns a value of `P`. -/
def Returns {α : Type*} (P : α → Prop) : Except PyException α → Prop
  | .error exc => exc.cls = .valueError
  | .ok a => P a

theorem returns_bind {α β : Type} {P : β → Prop} {x : Except PyException α}
    {f : α → Except PyException β} :
    Returns P (x >>= f) ↔ Returns (fun a => Returns P (f a)) x := by
  cases x <;> rfl

namespace Decimal

def isFinite : Decimal → Bool
  | finite .. => true
  | infinity _ | nan _ _ => false

/-- A finite number above zero. -/
def isPositive : Decimal → Bool
  | finite negative coefficient _ => !negative && coefficient ≠ 0
  | infinity _ | nan _ _ => false

/-- A number that is not at most zero is positive, or infinite. -/
theorem isPositive_iff {d : Decimal} (h : d.nonpositive? = some false) :
    d.isPositive = true ↔ d.isFinite = true := by
  cases d with
  | finite negative coefficient exponent =>
    refine iff_of_true ?_ rfl
    simpa [nonpositive?, isPositive] using h
  | infinity negative => exact iff_of_false Bool.false_ne_true Bool.false_ne_true
  | nan negative signaling => cases h

end Decimal

namespace PaymentConfig

/-- A configuration that can be paid. -/
structure Valid (c : PaymentConfig) : Prop where
  amount : c.amount.isPositive = true
  iban_ne : c.counterpartyIban ≠ ""
  iban : Trimmed c.counterpartyIban
  name_ne : c.counterpartyName ≠ ""
  name : Trimmed c.counterpartyName
  currency : c.currency.length = 3

/-! ## The fields -/

/-- The amount is no number, or not positive. -/
def RefusesAmount (amount : Json) : Prop :=
  amount.decimal? = none ∨ ∃ d, amount.decimal? = some d ∧ d.nonpositive? = some true

/-- The amount is the number `d`, which is positive. -/
def AcceptsAmount (amount : Json) (d : Decimal) : Prop :=
  amount.decimal? = some d ∧ d.nonpositive? = some false

/-- The text is empty or blank, or another value that is false. -/
def RefusesText (v : Json) : Prop := v.truthy = false ∨ ∃ s, v = .str s ∧ strip s = ""

/-- The text is the string `s`, which is not blank. -/
def AcceptsText (v : Json) (s : String) : Prop := v = .str s ∧ strip s ≠ ""

/-- The currency has a length, and it is not 3. -/
def RefusesCurrency (currency : Json) : Prop := ∃ n, currency.len? = some n ∧ n ≠ 3

/-- The currency is the string `s`, of 3 characters. -/
def AcceptsCurrency (currency : Json) (s : String) : Prop := currency = .str s ∧ s.length = 3

variable {env : Env}

theorem returns_checkAmount {P : Decimal → Prop} {amount : Json} :
    Returns P (checkAmount env amount) ↔
      RefusesAmount amount ∨ ∃ d, AcceptsAmount amount d ∧ P d := by
  unfold RefusesAmount AcceptsAmount
  cases hd : amount.decimal? with
  | none => simp [checkAmount, hd, Returns, valueError]
  | some d =>
    cases hn : d.nonpositive? with
    | none => simp [checkAmount, hd, hn, Returns]
    | some nonpositive => cases nonpositive <;> simp [checkAmount, hd, hn, Returns, valueError]

theorem returns_checkText {P : String → Prop} {field : String} {v : Json} :
    Returns P (checkText field v) ↔
      RefusesText v ∨ ∃ s, AcceptsText v s ∧ P (strip s) := by
  unfold RefusesText AcceptsText
  cases ht : v.truthy with
  | false => simp [checkText, ht, Returns, valueError]
  | true =>
    cases v with
    | str s => by_cases hs : strip s = "" <;> simp [checkText, ht, hs, Returns, valueError]
    | _ => simp [checkText, ht, Returns, attributeError]

theorem returns_checkCurrency {P : String → Prop} {currency : Json} :
    Returns P (checkCurrency env currency) ↔
      RefusesCurrency currency ∨ ∃ s, AcceptsCurrency currency s ∧ P (upper s) := by
  unfold RefusesCurrency AcceptsCurrency
  cases hn : currency.len? with
  | none => cases currency <;> simp_all [checkCurrency, Json.len?, Returns, typeError]
  | some n =>
    by_cases h3 : n = 3
    · subst h3
      cases currency with
      | str s =>
        have hs : s.length = 3 := Option.some.inj hn
        simp [checkCurrency, Json.len?, hs, Returns]
      | _ => simp [checkCurrency, hn, Returns, attributeError]
    · simp [checkCurrency, hn, h3, Returns, valueError]

/-! ## The dictionary -/

/-- The value of a field, as `from_dict` passes it on. -/
def field (d : Dict) (f : String) (default : Json) : Json := (d.lookup f).getD default

/-- `__init__` on the fields: the first one that is not accepted is refused. Where all are accepted,
`P` holds of the values that are built from them. -/
def InOrder (P : Decimal → String → String → String → Prop) (d : Dict) : Prop :=
  RefusesAmount (field d "amount" .null) ∨ ∃ amount, AcceptsAmount (field d "amount" .null) amount ∧
    (RefusesText (field d "counterparty_iban" .null) ∨
      ∃ iban, AcceptsText (field d "counterparty_iban" .null) iban ∧
        (RefusesText (field d "counterparty_name" .null) ∨
          ∃ name, AcceptsText (field d "counterparty_name" .null) name ∧
            (RefusesCurrency (field d "currency" (.str "EUR")) ∨
              ∃ currency, AcceptsCurrency (field d "currency" (.str "EUR")) currency ∧
                P amount (strip iban) (strip name) (upper currency))))

/-- A required field is missing, or the first field that is not accepted is refused; where all are
accepted, the amount is finite and the currency has 3 characters in upper case. -/
def Orderly (d : Dict) : Prop :=
  (∃ f ∈ requiredFields, d.lookup f = none) ∨
    InOrder (fun amount _ _ currency => amount.isFinite = true ∧ currency.length = 3) d

theorem missing_iff {d : Dict} : requiredFields.filter (fun f => (d.lookup f).isNone) ≠ [] ↔
    ∃ f ∈ requiredFields, d.lookup f = none := by
  simp only [ne_eq, List.filter_eq_nil_iff, Option.isNone_iff_eq_none, not_forall, not_not,
    exists_prop]

/-- A configuration that is built from accepted values is valid if its amount is finite and its
currency has 3 characters. -/
theorem valid_iff {c : PaymentConfig} {amount iban name : Json} {i n : String}
    (ha : AcceptsAmount amount c.amount) (hi : AcceptsText iban i) (hn : AcceptsText name n)
    (hci : c.counterpartyIban = strip i) (hcn : c.counterpartyName = strip n) :
    c.Valid ↔ c.amount.isFinite = true ∧ c.currency.length = 3 := by
  rw [← Decimal.isPositive_iff ha.2]
  constructor
  · exact fun h => ⟨h.amount, h.currency⟩
  · rintro ⟨hamount, hcurrency⟩
    exact
      { amount := hamount
        iban_ne := hci ▸ hi.2
        iban := hci ▸ strip_trimmed i
        name_ne := hcn ▸ hn.2
        name := hcn ▸ strip_trimmed n
        currency := hcurrency }

/-- `from_dict` raises a `ValueError` or returns a configuration that can be paid, exactly for the
orderly dictionaries. -/
theorem returns_fromDict_iff (env : Env) (d : Dict) :
    Returns Valid (fromDict env d) ↔ Orderly d := by
  unfold fromDict Orderly
  dsimp only
  by_cases hm : requiredFields.filter (fun f => (d.lookup f).isNone) = []
  · rw [if_neg (not_not_intro hm), or_iff_right fun h => missing_iff.mpr h hm]
    unfold init checkCounterpartyIban checkCounterpartyName InOrder
    simp only [returns_bind, returns_checkAmount, returns_checkText, returns_checkCurrency]
    refine or_congr Iff.rfl (exists_congr fun amount => and_congr_right fun ha => ?_)
    refine or_congr Iff.rfl (exists_congr fun iban => and_congr_right fun hi => ?_)
    refine or_congr Iff.rfl (exists_congr fun name => and_congr_right fun hn => ?_)
    refine or_congr Iff.rfl (exists_congr fun currency => and_congr_right fun _ => ?_)
    exact valid_iff ha hi hn rfl rfl
  · rw [if_pos hm]
    exact iff_of_true rfl (.inl (missing_iff.mp hm))

/-- A NaN amount. -/
def nanAmount : Dict :=
  [("amount", .str "NaN"), ("counterparty_iban", .str "NL91ABNA0417164300"),
    ("counterparty_name", .str "B. Jansen")]

theorem nanAmount_escapes :
    ¬ ∀ (env : Env) (d : Dict), Returns Valid (fromDict env d) := by
  intro h
  let env : Env :=
    { hexdigest := id
      repr := fun _ => ""
      pytzTimezone := some
      getNext := fun _ _ _ => none
      isValid := fun _ => true
      allTimezones := []
      workerId := fun _ => "" }
  have hesc : fromDict env nanAmount =
      .error ⟨.invalidOperation, "[<class 'decimal.InvalidOperation'>]"⟩ := by rfl
  have hr := h env nanAmount
  rw [hesc] at hr
  cases hr

/-! ## Acceptance -/

/-- `from_dict` accepts the dictionary. -/
def Accepted (env : Env) (d : Dict) : Prop := ∃ c, fromDict env d = .ok c

theorem exists_ok_bind {α β : Type} {x : Except PyException α} {f : α → Except PyException β} :
    (∃ b, x >>= f = .ok b) ↔ ∃ a, x = .ok a ∧ ∃ b, f a = .ok b := by
  cases x <;> simp [bind, Except.bind]

theorem checkAmount_ok_iff {amount : Json} {d : Decimal} :
    checkAmount env amount = .ok d ↔ AcceptsAmount amount d := by
  unfold checkAmount AcceptsAmount
  cases hd : amount.decimal? with
  | none => simp
  | some d' =>
    have hne (hn : d'.nonpositive? ≠ some false) :
        ¬ (some d' = some d ∧ d.nonpositive? = some false) := by
      rintro ⟨he, hpos⟩
      cases he
      exact hn hpos
    dsimp only
    split
    · rename_i hn
      exact iff_of_false (by simp) (hne (by rw [hn]; simp))
    · rename_i hn
      exact iff_of_false (by simp) (hne (by rw [hn]; simp))
    · rename_i hn
      constructor
      · intro he
        cases he
        exact ⟨rfl, hn⟩
      · rintro ⟨he, -⟩
        cases he
        rfl

theorem strip_empty : strip "" = "" := by decide

theorem exists_checkText_ok (field : String) {v : Json} :
    (∃ t, checkText field v = .ok t) ↔ ∃ s, AcceptsText v s := by
  unfold AcceptsText
  cases ht : v.truthy with
  | false =>
    cases v with
    | str s =>
      have hs : s = "" := by simpa [Json.truthy] using ht
      simp [checkText, hs, strip_empty, Json.truthy]
    | _ => simp [checkText, ht]
  | true =>
    cases v with
    | str s => by_cases hs : strip s = "" <;> simp [checkText, ht, hs]
    | _ => simp [checkText, ht]

theorem exists_checkCurrency_ok (env : Env) {currency : Json} :
    (∃ t, checkCurrency env currency = .ok t) ↔ ∃ s, AcceptsCurrency currency s := by
  unfold AcceptsCurrency
  cases currency with
  | str s => by_cases hs : s.length = 3 <;> simp [checkCurrency, Json.len?, hs]
  | arr xs => by_cases hs : xs.length = 3 <;> simp [checkCurrency, Json.len?, hs]
  | obj fields => by_cases hs : fields.length = 3 <;> simp [checkCurrency, Json.len?, hs]
  | _ => simp [checkCurrency, Json.len?]

/-- `from_dict` accepts a dictionary if and only if each field is accepted. -/
theorem accepted_iff {d : Dict} :
    Accepted env d ↔ (¬ ∃ f ∈ requiredFields, d.lookup f = none) ∧
      (∃ amount, AcceptsAmount (field d "amount" .null) amount) ∧
      (∃ iban, AcceptsText (field d "counterparty_iban" .null) iban) ∧
      (∃ name, AcceptsText (field d "counterparty_name" .null) name) ∧
      ∃ currency, AcceptsCurrency (field d "currency" (.str "EUR")) currency := by
  unfold Accepted fromDict
  dsimp only
  rw [← missing_iff]
  by_cases hm : requiredFields.filter (fun f => (d.lookup f).isNone) = []
  · rw [if_neg (not_not_intro hm)]
    unfold init checkCounterpartyIban checkCounterpartyName
    simp only [exists_ok_bind, checkAmount_ok_iff]
    rw [← exists_checkText_ok "counterparty_iban",
      ← exists_checkText_ok "counterparty_name", ← exists_checkCurrency_ok env]
    constructor
    · rintro ⟨amount, ha, iban, hi, name, hn, currency, hc, -⟩
      exact ⟨not_not_intro hm, ⟨amount, ha⟩, ⟨iban, hi⟩, ⟨name, hn⟩, ⟨currency, hc⟩⟩
    · rintro ⟨-, ⟨amount, ha⟩, ⟨iban, hi⟩, ⟨name, hn⟩, ⟨currency, hc⟩⟩
      exact ⟨amount, ha, iban, hi, name, hn, currency, hc, _, rfl⟩
  · rw [if_pos hm]
    exact iff_of_false (by simp) fun h => h.1 hm

end PaymentConfig

end PaymentScheduler
