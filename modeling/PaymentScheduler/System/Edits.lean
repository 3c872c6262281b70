import PaymentScheduler.System.NextFires

/-!
# What clients have set

A column of `subscriptions` that only requests write (`Column`) is a register: its value is the one
that the last committed POST or PATCH has set. A PATCH writes only the columns of its body, so of
two PATCH requests that overlap neither undoes the other, although both have read the row before
either writes it; and no tick, no worker, no DELETE and no resume sets such a column.

- `Sys.columns_last_set`: the value of each such column in each reachable state.
-/

namespace PaymentScheduler

namespace Column

/-- `name`. -/
def name : Column String where
  get b := b.name
  patch c := c.name
  advance b a := by cases a <;> rfl
  countFailure b now := by
    unfold Subscription.countFailure
    split <;> rfl
  succeed b := rfl
  resume b nextFire := rfl
  change b c := rfl
  delete := rfl

/-- `description`: a PATCH cannot set it to NULL. -/
def description : Column (Option String) where
  get b := b.description
  patch c := c.description.map some
  advance b a := by cases a <;> rfl
  countFailure b now := by
    unfold Subscription.countFailure
    split <;> rfl
  succeed b := rfl
  resume b nextFire := rfl
  change b c := by
    unfold Subscription.change
    cases c.description <;> rfl
  delete := rfl

variable {δ : Type} (col : Column δ) {db db' : Db} {t : Txn} {x : UUID} {b : Subscription}

/-- The value that a transaction sets in the column of the subscription `x`. -/
def sets (x : UUID) : Txn → Option δ
  | .createSubscription b => if b.id = x then some (col.get b) else none
  | .updateSubscription id c => if id = x then col.patch c else none
  | _ => none

/-- The value that the run of a list of actions has set last. -/
def lastSet (env : Env) (x : UUID) (as : List Action) : Option δ :=
  Lts.history (Sys.step env) (fun d s a _ => ((s.txn? env a).bind (col.sets x)).or d) none Sys.init
    as

/-- A row keeps its value, or has the one that is set. -/
theorem get_setSub (hnew : ∀ y, t = .createSubscription y → y.id ≠ b.id) :
    col.get (t.setSub db b) = (col.sets b.id t).getD (col.get b) := by
  have hkeep (hn : col.sets b.id t = none)
      (hu : ∀ id c, t ≠ .updateSubscription id c) :
      col.get (t.setSub db b) = (col.sets b.id t).getD (col.get b) := by
    obtain he | ⟨id, c, d, rfl, -⟩ := col.setSub_cases db t b
    · rw [he, hn, Option.getD_none]
    · exact absurd rfl (hu id c)
  cases t with
  | createSubscription y => exact hkeep (if_neg (hnew y rfl)) (fun _ _ h => by cases h)
  | updateSubscription id c =>
    simp only [Txn.setSub, sets]
    by_cases hid : b.id = id
    · rw [if_pos hid, if_pos hid.symm, col.change]
    · rw [if_neg hid, if_neg (Ne.symm hid), Option.getD_none]
  | _ => exact hkeep rfl (fun _ _ h => by cases h)

/-- The column of `x` after a transaction, where a PATCH finds its row. -/
theorem get?_apply (hc : t.apply db = some db')
    (hrow : ∀ id c, t = .updateSubscription id c → ∃ b, db.sub? id = some b) :
    (db'.sub? x).map col.get = (col.sets x t).or ((db.sub? x).map col.get) := by
  cases hx : db.sub? x with
  | some b =>
    have hid : b.id = x := Db.sub?_id hx
    have hnew : ∀ y, t = .createSubscription y → y.id ≠ b.id := by
      rintro y rfl hy
      have hfree := (Db.insertSub_cases hc).2
      rw [hy, hid, hx] at hfree
      cases hfree
    rw [Txn.sub?_set hc hx, Option.map_some, Option.map_some, col.get_setSub hnew, hid]
    cases col.sets x t <;> rfl
  | none =>
    cases hx' : db'.sub? x with
    | some b =>
      obtain ⟨b₀, hb₀, -⟩ | ⟨-, rfl⟩ := Txn.sub?_cases hc hx'
      · rw [hx] at hb₀
        cases hb₀
      · simp [sets, Db.sub?_id hx']
    | none =>
      have hset : col.sets x t = none := by
        cases t with
        | createSubscription y =>
          refine if_neg fun hy => ?_
          rw [(Db.insertSub_cases hc).1, Db.sub?_addSub, hx, if_pos hy] at hx'
          cases hx'
        | updateSubscription id c =>
          refine if_neg fun hid => ?_
          obtain ⟨b, hb⟩ := hrow id c rfl
          rw [hid, hx] at hb
          cases hb
        | _ => rfl
      rw [hset]
      rfl

end Column

namespace Sys

variable {env : Env} {s s' : Sys} {a : Action}

/-- The row that a request is going to update is there. -/
def FindsRow (s : Sys) : Prop :=
  ∀ {r id c status}, s.requests r = .updating id c status → ∃ b, s.db.sub? id = some b

theorem FindsRow.step (hF : FindsRow s) (h : s.step env a = some s') : FindsRow s' := by
  -- A row stays where it is.
  have hkeep : ∀ {id b}, s.db.sub? id = some b → ∃ b', s'.db.sub? id = some b' := by
    intro id b hb
    obtain ⟨-, hdb⟩ | ⟨t, -, hc⟩ := step_db h
    · exact ⟨b, by rw [hdb, hb]⟩
    · exact ⟨_, Txn.sub?_set hc hb⟩
  intro r id c status hr
  obtain he | ⟨b', t, rfl, hst⟩ := request_cases h r
  · rw [he] at hr
    obtain ⟨b, hb⟩ := hF hr
    exact hkeep hb
  · rw [hr] at hst
    obtain ⟨b, body, -, hb, -⟩ | ⟨rfl, -⟩ := Api.step_updating hst
    · exact hkeep hb
    · have hm := Api.step_move hst
      generalize s.requests r = st at hm
      cases hm with
      | delete hb => exact hkeep hb

/-- In every reachable state, under every interleaving, a column that clients own has the value that
the last committed POST or PATCH has set, if the subscription exists. -/
theorem columns_last_set (env : Env) {δ : Type} (col : Column δ) (x : UUID) (as : List Action)
    (hr : Lts.run (step env) init as = some s) :
    (s.db.sub? x).map col.get = col.lastSet env x as := by
  have hinv : FindsRow s ∧ (s.db.sub? x).map col.get = col.lastSet env x as := by
    refine Lts.run_inv_history
      (I := fun s d => FindsRow s ∧ (s.db.sub? x).map col.get = d) ?_ ⟨?_, rfl⟩ hr
    · rintro s a s' d ⟨hF, rfl⟩ h
      refine ⟨hF.step h, ?_⟩
      obtain ⟨ht, hdb⟩ | ⟨t, ht, hc⟩ := step_db h
      · rw [ht, hdb]
        rfl
      · rw [ht, Option.bind_some]
        refine col.get?_apply hc ?_
        rintro id c rfl
        obtain ⟨r, b, st, rfl, hst⟩ := request_of_txn? ht rfl
        obtain ⟨status, hup⟩ := Api.step_update hst
        exact hF hup
    · intro r id c status hup
      cases hup
  exact hinv.2

end Sys

namespace Demo

/-- Two PATCH requests have read the row before either writes it: the one of the name commits last,
and then a tick, and the one of the description in between. -/
def overlappingEdits : List Action :=
  [.advance start,
    .request 0 (.begin (.create (body policy) subId)),
    .request 1 (.begin (.update subId { name := some "Flat" })),
    .request 2 (.begin (.update subId { description := some "June" })),
    .request 2 .commit,
    .schedule 0 .start,
    .schedule 0 (.select 1 [subId] []),
    .schedule 0 (.process jobId runId),
    .schedule 0 .commit,
    .request 1 .commit]

theorem overlappingEdits_kept : ∃ s, Lts.run (Sys.step env) Sys.init overlappingEdits = some s ∧
    ((s.db.sub? subId).map Column.name.get = some "Flat" ∧
      (s.db.sub? subId).map Column.description.get = some (some "June")) ∧
    (s.db.sub? subId).map Column.name.get =
      Column.name.lastSet env subId overlappingEdits := by
  have heval : (Lts.run (Sys.step env) Sys.init overlappingEdits).any (fun s =>
      (s.db.sub? subId).map Column.name.get = some "Flat" ∧
        (s.db.sub? subId).map Column.description.get = some (some "June")) = true := by
    decide +kernel
  obtain ⟨s, hr, hs⟩ := Lts.exists_run heval
  exact ⟨s, hr, of_decide_eq_true hs, Sys.columns_last_set env Column.name subId _ hr⟩

end Demo

end PaymentScheduler
