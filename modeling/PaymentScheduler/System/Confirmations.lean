import PaymentScheduler.System.OwnClient
import PaymentScheduler.System.Attempts
import PaymentScheduler.System.Transitions

/-!
# Confirmed payments

bunq has answered 200 or 201, so the payment exists. The body decides what is written: an id that
the driver takes is recorded; one that it does not take leaves the run RUNNING; and a body without
an id is an ordinary exception, which is retried.

- `paymentId_eq_ok`: the bodies with an id.
- `afterCall_confirmed`: where `_execute_run` goes on.
- `recorded_iff`: exactly which answers are recorded, in every reachable state.
-/

namespace PaymentScheduler

/-- The value has `Response[0].Id.id`, and it is `id`. -/
def Json.Carries (data id : Json) : Prop :=
  ∃ fields first rest ids, data = .obj fields ∧
    fields.lookup "Response" = some (.arr (.obj first :: rest)) ∧
    first.lookup "Id" = some (.obj ids) ∧ ids.lookup "id" = some id

/-- `str(id)` of an integer or a string. -/
def Json.idText? : Json → Option String
  | int n => some (toString n)
  | str s => some s
  | _ => none

/-- The body of the answer is JSON that has the id. -/
def BunqClient.Response.Carries (r : Response) (id : Json) : Prop :=
  ∃ data, r.json = .ok data ∧ data.Carries id

/-! ## Results of Python expressions -/

section Results

variable {α β : Type} {x : Except PyException α} {f : α → Except PyException β} {b : β}

theorem bind_eq_ok : x >>= f = .ok b ↔ ∃ a, x = .ok a ∧ f a = .ok b := by
  cases x <;> simp [bind, Except.bind]

/-- The executor retries after each exception of `x`. -/
def Retried (x : Except PyException α) : Prop :=
  ∀ exc, x = .error exc → Executor.isRetryable exc.cls = true

theorem Retried.bind (hx : Retried x) (hf : ∀ a, Retried (f a)) : Retried (x >>= f) := by
  cases x with
  | ok a => exact hf a
  | error exc =>
    intro exc' he
    cases he
    exact hx exc rfl

end Results

namespace Json

variable {v x : Json} {k : String}

theorem getItem_eq_ok :
    v.getItem k = .ok x ↔ ∃ fields, v = .obj fields ∧ fields.lookup k = some x := by
  cases v with
  | obj fields =>
    simp only [getItem, obj.injEq, exists_eq_left']
    cases fields.lookup k <;> simp
  | _ => simp [getItem]

theorem getFirst_eq_ok {fields : List (String × Json)} :
    v.getFirst = .ok (.obj fields) ↔ ∃ rest, v = .arr (.obj fields :: rest) := by
  unfold getFirst
  split
  · simp
  · simp
  · split <;> simp
  · simp
  · rename_i hne _ _ _
    simp only [reduceCtorEq, false_iff, not_exists]
    rintro rest rfl
    exact hne _ _ rfl

theorem getItem_retried : Retried (v.getItem k) := by
  intro exc h
  unfold getItem at h
  split at h
  · split at h <;> cases h
    rfl
  all_goals cases h; rfl

theorem getFirst_retried : Retried v.getFirst := by
  intro exc h
  unfold getFirst at h
  split at h
  · cases h
  · cases h; rfl
  · split at h <;> cases h
    rfl
  all_goals cases h; rfl

theorem get_retried {default : Json} : Retried (v.get k default) := by
  intro exc h
  unfold Json.get at h
  split at h <;> cases h
  rfl

end Json

namespace Executor

variable {env : Env} {w : Nat} {now : Time} {c : Loaded} {data id : Json}
  {r : BunqClient.Response}

theorem paymentId_eq_ok : paymentId data = .ok id ↔ data.Carries id := by
  simp only [paymentId, bind_eq_ok, Json.getItem_eq_ok, Json.Carries]
  constructor
  · rintro ⟨_, ⟨fields, rfl, hr⟩, _, hf, _, ⟨first, rfl, hi⟩, ids, rfl, h⟩
    obtain ⟨rest, rfl⟩ := Json.getFirst_eq_ok.mp hf
    exact ⟨fields, first, rest, ids, rfl, hr, hi, h⟩
  · rintro ⟨fields, first, rest, ids, rfl, hr, hi, h⟩
    exact ⟨_, ⟨fields, rfl, hr⟩, _, Json.getFirst_eq_ok.mpr ⟨rest, rfl⟩, _, ⟨first, rfl, hi⟩, ids,
      rfl, h⟩

/-- The id that is logged is there where the id is. -/
theorem loggedId_of_carries (h : data.Carries id) : BunqClient.loggedId data = .ok id := by
  obtain ⟨fields, first, rest, ids, rfl, hr, hi, h⟩ := h
  simp [BunqClient.loggedId, Json.get, hr, Json.getFirst, hi, h, bind, Except.bind]

theorem loggedId_retried : Retried (BunqClient.loggedId data) :=
  Json.get_retried.bind fun _ => Json.getFirst_retried.bind fun _ => Json.get_retried.bind fun _ =>
    Json.get_retried

theorem paymentId_retried : Retried (paymentId data) :=
  Json.getItem_retried.bind fun _ => Json.getFirst_retried.bind fun _ =>
    Json.getItem_retried.bind fun _ => Json.getItem_retried

/-- `_execute_run` after an answer that confirms the payment. -/
theorem afterCall_confirmed (hcode : r.statusCode = 200 ∨ r.statusCode = 201) :
    (∃ id, r.Carries id ∧
      afterCall c (.ofResult (BunqClient.respond (.response r))) = .persisting c id) ∨
    (∀ id, ¬ r.Carries id) ∧ ∃ error retryable,
      afterCall c (.ofResult (BunqClient.respond (.response r))) = .failing c error retryable ∧
        (Retried r.json → retryable = true) := by
  simp only [BunqClient.respond, if_pos hcode]
  cases hjson : r.json with
  | error exc =>
    refine .inr ⟨?_, exc.text, isRetryable exc.cls, rfl, fun h => h exc rfl⟩
    rintro id ⟨data, hdata, -⟩
    rw [hjson] at hdata
    cases hdata
  | ok data =>
    cases hid : paymentId data with
    | ok id =>
      have hcar := paymentId_eq_ok.mp hid
      refine .inl ⟨id, ⟨data, hjson, hcar⟩, ?_⟩
      simp [loggedId_of_carries hcar, Except.map, Outcome.ofResult, afterCall, hid]
    | error exc =>
      refine .inr ⟨?_, ?_⟩
      · rintro id ⟨data', hdata, hcar⟩
        rw [hjson] at hdata
        cases hdata
        rw [paymentId_eq_ok.mpr hcar] at hid
        cases hid
      · cases hlog : BunqClient.loggedId data with
        | ok id' =>
          refine ⟨exc.text, isRetryable exc.cls, ?_, fun _ => paymentId_retried exc hid⟩
          simp [hlog, Except.map, Outcome.ofResult, afterCall, hid]
        | error exc' =>
          refine ⟨exc'.text, isRetryable exc'.cls, ?_, fun _ => loggedId_retried exc' hlog⟩
          simp [hlog, Except.map, Outcome.ofResult, afterCall]

/-- What `_execute_run` writes after the call: `none` is the exception of the driver, or of the
date. -/
def lastTxn (env : Env) (w : Nat) (now : Time) (rnd : ℚ) (newId : UUID) : Phase → Option Txn
  | .persisting c id => persistSuccess env now c id
  | .failing c error retryable => handleFailure env w now c error retryable rnd newId
  | _ => none

/-- The last step of `_execute_run` after the call, with the database available. -/
def lastAction (env : Env) (w : Nat) (now : Time) (rnd : ℚ) (newId : UUID) (p : Phase) : Action :=
  match p, lastTxn env w now rnd newId p with
  | .persisting .., some _ => .persist
  | .failing .., some _ => .fail rnd newId
  | _, _ => .error

/-- The answer is recorded: its id is a string of the column, or `null` or of another type; or it
has none, and there is no attempt left, or no date for it. -/
structure Loaded.Records (c : Loaded) (now : Time) (rnd : ℚ) (r : BunqClient.Response) :
    Prop where
  id : ∀ id, r.Carries id → (∀ n, id ≠ .int n) ∧ ∀ s, id = .str s → isVarchar s = true
  noId : (∀ id, ¬ r.Carries id) →
    (RetryPolicy.fromDict c.subscription.retryPolicy).isExhausted c.run.attempt = true ∨
      addSeconds now ((RetryPolicy.fromDict c.subscription.retryPolicy).nextDelayS c.run.attempt
        rnd) = none

end Executor

namespace Sys

variable {env : Env} {s s' : Sys} {w : Nat} {c : Executor.Loaded} {r : BunqClient.Response}

/-- What is to become of a confirmed payment: an id is recorded with the run, which is SUCCEEDED;
without one, no new attempt of the job is inserted. -/
structure Recorded (s s' : Sys) (c : Executor.Loaded) (r : BunqClient.Response) : Prop where
  paid : ∀ id text, r.Carries id → id.idText? = some text →
    ∃ run, s'.db.run? c.run.id = some run ∧ run.status = .succeeded ∧
      run.bunqPaymentId = some text
  kept : (∀ id, r.Carries id → id.idText? = none) → ∀ x run, s.db.run? x = none →
    s'.db.run? x = some run → run.jobId ≠ c.run.jobId

/-- The lock of the run is in force. -/
def LockInForce (s : Sys) (x : UUID) : Prop :=
  ∃ run, s.db.run? x = some run ∧ run.status = .running ∧
    ∃ l, run.lockExpiresAt = some l ∧ s.clock ≤ l

theorem carries_unique {id id' : Json} (h : r.Carries id) (h' : r.Carries id') : id = id' := by
  obtain ⟨data, hdata, hcar⟩ := h
  obtain ⟨data', hdata', hcar'⟩ := h'
  rw [hdata] at hdata'
  cases hdata'
  rw [← Executor.paymentId_eq_ok] at hcar hcar'
  rw [hcar] at hcar'
  exact Except.ok.inj hcar'

/-- The last step of an executor commits its write, or nothing. -/
theorem step_last {rnd : ℚ} {newId : UUID} (h : s.step env (.execute w
      (Executor.lastAction env w s.clock rnd newId (s.executors w).phase)) = some s') :
    s.db.Commits (Executor.lastTxn env w s.clock rnd newId (s.executors w).phase) s'.db := by
  obtain ⟨st, t, db', hst, -, hc, rfl⟩ := step_execute h
  generalize s.executors w = e at hst
  obtain ⟨todo, p⟩ := e
  suffices ht : t = Executor.lastTxn env w s.clock rnd newId p by rwa [← ht]
  cases p with
  | persisting c id =>
    simp only [Executor.lastAction, Executor.lastTxn] at hst ⊢
    cases ht : Executor.persistSuccess env s.clock c id with
    | none =>
      rw [ht] at hst
      cases hst
      rfl
    | some t' =>
      simp only [ht, Executor.step, Option.map_some] at hst
      cases hst
      rfl
  | failing c error retryable =>
    simp only [Executor.lastAction, Executor.lastTxn] at hst ⊢
    cases ht : Executor.handleFailure env w s.clock c error retryable rnd newId with
    | none =>
      rw [ht] at hst
      cases hst
      rfl
    | some t' =>
      simp only [ht, Executor.step, Option.map_some] at hst
      split at hst <;> cases hst
      rfl
  | _ =>
    cases hst
    rfl

/-- The run that an executor holds, after `_persist_success`. -/
theorem Owned.persist_run (hI : Owned s) (hx : s.Holds w c.run.id) {now : Time} {id : Json}
    {t : Txn} (ht : Executor.persistSuccess env now c id = some t) {db' : Db}
    (hc : t.apply s.db = some db') :
    ∃ v run, varchar? id = some v ∧ db'.run? c.run.id = some run ∧ run.status = .succeeded ∧
      run.bunqPaymentId = v := by
  obtain ⟨v, hv, rfl⟩ := Option.map_eq_some_iff.mp ht
  obtain ⟨row, hrow, -, hnone⟩ := hI.held hx
  obtain ⟨-, k₀, hk₀⟩ | ⟨rfl, -, -⟩ := Db.persistSuccess_cases hc
  · rw [hnone] at hk₀
    cases hk₀
  · refine ⟨v, row.succeed v now, hv, ?_, rfl, rfl⟩
    rw [Db.run?_recordSuccess]
    simp [hrow]

/-- A step that inserts no run. -/
theorem newRun_none {t : Option Txn} {db db' : Db} (hc : db.Commits t db')
    (hnil : ∀ t', t = some t' → t'.newRuns = []) {x : UUID} {run : JobRun}
    (hx : db.run? x = none) : db'.run? x ≠ some run := by
  intro hrun
  cases t with
  | none =>
    rw [show db' = db from hc, hx] at hrun
    cases hrun
  | some t =>
    have hnew := Txn.run?_new hc hx hrun
    rw [hnil t rfl] at hnew
    cases hnew

/-- After the call, an executor has the id of the answer, or fails. -/
inductive Confirmed (env : Env) (s s' : Sys) (w : Nat) (c : Executor.Loaded)
    (r : BunqClient.Response) (rnd : ℚ) (newId : UUID) : Prop where
  | paid {id} (hcar : r.Carries id) (hl : (s.executors w).phase.loaded? = some c)
    (hc : s.db.Commits (Executor.persistSuccess env s.clock c id) s'.db)
  | unread {error retryable} (hno : ∀ id, ¬ r.Carries id)
    (hretry : Retried r.json → retryable = true) (hl : (s.executors w).phase.loaded? = some c)
    (hc : s.db.Commits (Executor.handleFailure env w s.clock c error retryable rnd newId) s'.db)

theorem confirmed_of_step {rnd : ℚ} {newId : UUID} (hcode : r.statusCode = 200 ∨ r.statusCode = 201)
    (hp : (s.executors w).phase =
      Executor.afterCall c (.ofResult (BunqClient.respond (.response r))))
    (h : s.step env (.execute w
      (Executor.lastAction env w s.clock rnd newId (s.executors w).phase)) = some s') :
    Confirmed env s s' w c r rnd newId := by
  have hc := step_last h
  obtain ⟨id, hcar, hph⟩ | ⟨hno, error, retryable, hph, hretry⟩ :=
    Executor.afterCall_confirmed hcode (c := c)
  · rw [hp, hph] at hc
    exact .paid hcar (by rw [hp, hph]; rfl) hc
  · rw [hp, hph] at hc
    exact .unread hno hretry (by rw [hp, hph]; rfl) hc

/-- The condition is enough. -/
theorem Confirmed.recorded {rnd : ℚ} {newId : UUID} (hC : Confirmed env s s' w c r rnd newId)
    (hI : Owned s) (hrec : c.Records s.clock rnd r) : Recorded s s' c r := by
  cases hC with
  | @paid id hcar hl hc =>
    refine ⟨fun id' text hcar' htext => ?_, fun _ x run hn hrun =>
      absurd hrun (newRun_none hc (fun t ht => ?_) hn)⟩
    · obtain rfl := carries_unique hcar' hcar
      have hstr : id' = .str text := by
        cases id' with
        | str s₀ => exact congrArg _ (Option.some.inj htext)
        | int n => exact absurd rfl ((hrec.id _ hcar).1 n)
        | _ => cases htext
      subst hstr
      have hv : varchar? (.str text) = some (some text) := if_pos ((hrec.id _ hcar).2 text rfl)
      cases ht : Executor.persistSuccess env s.clock c (.str text) with
      | none => simp [Executor.persistSuccess, hv] at ht
      | some t =>
        rw [ht] at hc
        obtain ⟨v, run, hv', hrun, hstatus, hpay⟩ := hI.persist_run (loaded?_holds hl) ht hc
        rw [hv] at hv'
        cases hv'
        exact ⟨run, hrun, hstatus, hpay⟩
    · obtain ⟨v, -, rfl⟩ := Option.map_eq_some_iff.mp ht
      rfl
  | @unread error retryable hno _ _ hc =>
    refine ⟨fun id _ hcar => absurd hcar (hno id), fun _ x run hn hrun =>
      absurd hrun (newRun_none hc (fun t ht => ?_) hn)⟩
    unfold Executor.handleFailure at ht
    dsimp only at ht
    split at ht
    · rename_i hretry
      obtain ⟨retryAfter, hdate, -⟩ := Option.map_eq_some_iff.mp ht
      obtain hexh | hnone := hrec.noId hno
      · rw [hretry.2] at hexh
        cases hexh
      · rw [hnone] at hdate
        cases hdate
    · cases ht
      rfl

/-- The condition is necessary, as long as the lock is in force. -/
theorem Confirmed.records {rnd : ℚ} {newId : UUID} (hC : Confirmed env s s' w c r rnd newId)
    (hI : Owned s) (hchain : s.db.Chain) (hjson : Retried r.json)
    (hlock : s.LockInForce c.run.id) (hR : Recorded s s' c r) :
    c.Records s.clock rnd r := by
  obtain ⟨row, hrow, hrunning, -⟩ := hlock
  cases hC with
  | @paid id hcar hl hc =>
    -- The driver has taken the id of a run that is SUCCEEDED.
    have htaken : ∀ text, id.idText? = some text → varchar? id ≠ none := by
      intro text htext hnone
      obtain ⟨run, hrun, hstatus, -⟩ := hR.paid id text hcar htext
      rw [Executor.persistSuccess, hnone] at hc
      rw [show s'.db = s.db from hc, hrow] at hrun
      cases hrun
      rw [hrunning] at hstatus
      cases hstatus
    refine ⟨fun id' hcar' => ?_, fun hno => absurd hcar (hno id)⟩
    obtain rfl := carries_unique hcar' hcar
    constructor
    · rintro n rfl
      exact htaken _ rfl rfl
    · rintro text rfl
      by_contra hlong
      exact htaken text rfl (if_neg hlong)
  | @unread error retryable hno hretry hl hc =>
    refine ⟨fun id hcar => absurd hcar (hno id), fun _ => ?_⟩
    by_contra hleft
    rw [not_or] at hleft
    obtain ⟨hexh, hdate⟩ := hleft
    obtain ⟨retryAfter, hdate⟩ := Option.ne_none_iff_exists'.mp hdate
    have ht : Executor.handleFailure env w s.clock c error retryable rnd newId = some
        (.scheduleRetry c.run.id (truncate errorMessageMaxLen error) s.clock
          { id := newId
            jobId := c.run.jobId
            attempt := c.run.attempt + 1
            retryAfter := some retryAfter
            createdAt := s.clock }) := by
      simp only [Executor.handleFailure, hretry hjson, Bool.eq_false_iff.mpr hexh, true_and,
        if_true, hdate, Option.map_some]
    rw [ht] at hc
    obtain ⟨row', -, hrow', hjob, hattempt, -⟩ := hI.agrees hl
    rw [hrow] at hrow'
    cases hrow'
    obtain ⟨-, r₀, hr₀, hj₀, ha₀⟩ | ⟨hadd, -, hfresh, -⟩ := Db.insertRun_cases hc
    · -- The run is RUNNING, so there is no later attempt.
      obtain ⟨r₁, hr₁, rfl⟩ := Table.mem_updateWhere.mp hr₀
      have hkeep : r₁.jobId = c.run.jobId ∧ r₁.attempt = c.run.attempt + 1 := by
        split at hj₀ <;> split at ha₀ <;> exact ⟨hj₀, ha₀⟩
      have hle := hchain.last hrow (by rw [hrunning]; rfl) (hI.wf.run?_mem.mp hr₁)
        (hkeep.1.trans hjob.symm)
      rw [hkeep.2, hattempt] at hle
      omega
    · have hnone : s.db.run? newId = none := by
        rw [Db.run?_updateRun fun r => r.fail_id _ _] at hfresh
        split at hfresh <;> simpa using hfresh
      have hnew : s'.db.run? newId = some
          { id := newId
            jobId := c.run.jobId
            attempt := c.run.attempt + 1
            retryAfter := some retryAfter
            createdAt := s.clock } := by
        rw [hadd, Db.run?_addRun, hfresh]
        simp
      exact hR.kept (fun id hcar => absurd hcar (hno id)) newId _ hnone hnew rfl

theorem phase_after_call {config : PaymentConfig} {created : Bool} {o : Executor.Outcome}
    (hp : (s.executors w).phase = .calling c config)
    (h : s.step env (.execute w (.call created o)) = some s') :
    (s'.executors w).phase = Executor.afterCall c o := by
  obtain ⟨st, t, db', hst, -, -, rfl⟩ := step_execute h
  simp only [Executor.step, hp, Option.some.injEq, Prod.mk.injEq] at hst
  simp only [Function.update_self, ← hst.1]

/-- bunq confirms the payment of a call, in any reachable state; then others act, and then
`_execute_run` ends. If its lock is still in force, the payment is recorded iff the answer meets the
condition; if it does, also without the lock. -/
theorem recorded_iff (env : Env) {s s₁ s₂ s₃ : Sys} (hs : Reachable env s)
    {config : PaymentConfig} (hp : (s.executors w).phase = .calling c config)
    (hcode : r.statusCode = 200 ∨ r.statusCode = 201) (hjson : Retried r.json)
    (h₁ : s.step env (.execute w (.call true (.ofResult (BunqClient.respond (.response r))))) =
      some s₁)
    {as : List Action} (has : ∀ a ∈ as, ∀ b, a ≠ .execute w b)
    (h₂ : Lts.run (step env) s₁ as = some s₂) {rnd : ℚ} {newId : UUID}
    (h₃ : s₂.step env (.execute w
      (Executor.lastAction env w s₂.clock rnd newId (s₂.executors w).phase)) = some s₃) :
    (s₂.LockInForce c.run.id → (Recorded s₂ s₃ c r ↔ c.Records s₂.clock rnd r)) ∧
      (c.Records s₂.clock rnd r → Recorded s₂ s₃ c r) := by
  have hreach : Reachable env s₂ := hs.trans (Lts.run_cons.mpr ⟨s₁, h₁, h₂⟩)
  have hph : (s₂.executors w).phase =
      Executor.afterCall c (.ofResult (BunqClient.respond (.response r))) := by
    have hkeep : s₂.executors w = s₁.executors w :=
      Lts.run_frame (f := fun u => u.executors w) (fun ha h => step_executor ha h) has h₂
    rw [hkeep, phase_after_call hp h₁]
  have hC := confirmed_of_step hcode hph h₃
  exact ⟨fun hlock => ⟨hC.records hreach.owned hreach.chain hjson hlock, hC.recorded hreach.owned⟩,
    hC.recorded hreach.owned⟩

end Sys

namespace Demo

/-- bunq's answer with the id 42, as a string or as a number. -/
def answer (id : Json) : BunqClient.Response where
  statusCode := 200
  text := ""
  json := .ok (.obj [("Response", .arr [.obj [("Id", .obj [("id", id)])]])])

theorem answer_carries (id : Json) : (answer id).Carries id :=
  ⟨_, rfl, _, _, _, _, rfl, rfl, rfl, rfl⟩

theorem answer_retried (id : Json) : Retried (answer id).json := fun exc h => by cases h

/-- bunq confirms the payment of the first run to executor 0, which ends. -/
theorem exists_confirmed {id : Json} (hid : id = .str "42" ∨ id = .int 42) :
    ∃ s c config s₁ s₃, Lts.run (Sys.step env) Sys.init (opening policy) = some s ∧
      (s.executors 0).phase = .calling c config ∧
      s.step env (.execute 0 (.call true
        (.ofResult (BunqClient.respond (.response (answer id)))))) = some s₁ ∧
      s₁.LockInForce c.run.id ∧
      s₁.step env (.execute 0
        (Executor.lastAction env 0 s₁.clock 0 nextId (s₁.executors 0).phase)) = some s₃ := by
  have heval : ((Lts.run (Sys.step env) Sys.init (opening policy)).any fun s =>
      ((s.executors 0).phase.calling?.any fun c => c.run.id = runId) &&
      [Json.str "42", .int 42].all fun id =>
        (s.step env (.execute 0 (.call true
          (.ofResult (BunqClient.respond (.response (answer id))))))).any fun s₁ =>
        ((s₁.db.run? runId).any fun run => run.status = .running &&
          run.lockExpiresAt.any fun l => s₁.clock ≤ l) &&
        (s₁.step env (.execute 0
          (Executor.lastAction env 0 s₁.clock 0 nextId (s₁.executors 0).phase))).isSome) =
      true := by
    decide +kernel
  obtain ⟨s, hr, hp⟩ := Lts.exists_run heval
  obtain ⟨hcall, hp⟩ := Bool.and_eq_true_iff.mp hp
  have hmem : id ∈ [Json.str "42", .int 42] := by
    obtain rfl | rfl := hid <;> simp
  obtain ⟨s₁, hs₁, hp⟩ := (Option.any_eq_true _ _).mp (List.all_eq_true.mp hp id hmem)
  simp only [Bool.and_eq_true, Option.any_eq_true, decide_eq_true_eq] at hp
  obtain ⟨⟨run, hrun, hstatus, l, hl, hle⟩, hlast⟩ := hp
  obtain ⟨s₃, hs₃⟩ := Option.isSome_iff_exists.mp hlast
  obtain ⟨c, hcalling, hc⟩ := (Option.any_eq_true _ _).mp hcall
  rw [decide_eq_true_eq] at hc
  cases hph : (s.executors 0).phase <;> rw [hph] at hcalling <;> cases hcalling
  exact ⟨s, c, _, s₁, s₃, hr, hph, hs₁, ⟨run, by rwa [hc], hstatus, l, hl, hle⟩, hs₃⟩

theorem string_id_recorded : ∃ s s₁ s₃ c,
    Lts.run (Sys.step env) Sys.init (opening policy) = some s ∧ s₁.LockInForce c.run.id ∧
    s₁.step env (.execute 0
      (Executor.lastAction env 0 s₁.clock 0 nextId (s₁.executors 0).phase)) = some s₃ ∧
    (s₁.LockInForce c.run.id → (Sys.Recorded s₁ s₃ c (answer (.str "42")) ↔
      c.Records s₁.clock 0 (answer (.str "42")))) ∧
    (c.Records s₁.clock 0 (answer (.str "42")) → Sys.Recorded s₁ s₃ c (answer (.str "42"))) := by
  obtain ⟨s, c, config, s₁, s₃, hr, hp, h₁, hlock, h₃⟩ := exists_confirmed (.inl rfl)
  have hreach : Sys.Reachable env s := ⟨_, hr⟩
  have hcode : (answer (.str "42")).statusCode = 200 ∨ (answer (.str "42")).statusCode = 201 :=
    .inl rfl
  have h₂ : Lts.run (Sys.step env) s₁ [] = some s₁ := rfl
  have hothers : ∀ a ∈ ([] : List Action), ∀ b, a ≠ .execute 0 b := fun a ha => by cases ha
  exact ⟨s, s₁, s₃, c, hr, hlock, h₃,
    Sys.recorded_iff env hreach hp hcode (answer_retried _) h₁ hothers h₂ h₃⟩

theorem integer_id_not_recorded :
    ¬ ∀ s s₁ s₃ w c config r rnd newId, Sys.Reachable env s →
      (s.executors w).phase = .calling c config → r.statusCode = 200 ∨ r.statusCode = 201 →
      s.step env (.execute w (.call true (.ofResult (BunqClient.respond (.response r))))) =
        some s₁ →
      s₁.LockInForce c.run.id →
      s₁.step env (.execute w
        (Executor.lastAction env w s₁.clock rnd newId (s₁.executors w).phase)) = some s₃ →
      Sys.Recorded s₁ s₃ c r := by
  intro h
  obtain ⟨s, c, config, s₁, s₃, hr, hp, h₁, hlock, h₃⟩ := exists_confirmed (.inr rfl)
  have hreach : Sys.Reachable env s := ⟨_, hr⟩
  have hcode : (answer (.int 42)).statusCode = 200 ∨ (answer (.int 42)).statusCode = 201 :=
    .inl rfl
  have hR := h s s₁ s₃ 0 c config _ 0 nextId hreach hp hcode h₁ hlock h₃
  have hreach₁ : Sys.Reachable env s₁ := hreach.next h₁
  have hrec := (Sys.confirmed_of_step hcode (Sys.phase_after_call hp h₁) h₃).records hreach₁.owned
    hreach₁.chain (answer_retried _) hlock hR
  exact (hrec.id _ (answer_carries (.int 42))).1 42 rfl

end Demo

end PaymentScheduler
