import PaymentScheduler.Db.Alike
import PaymentScheduler.Worker.Executor
import PaymentScheduler.Worker.Recovery
import PaymentScheduler.Worker.Retries

/-!
# A failed attempt in the executor and in recovery

`_handle_failure` routes a failed attempt in one transaction. `_recover_single_run_by_id` takes the
run first, so that it is FAILED for a moment, and routes it in a second transaction.

- `Db.RoutedAlike`: two databases that differ in what the two write differently only.
- `Txn.SameDecision`: the next attempt in both, or a dead letter in both.
- `RoutesAlike`: the two decide alike and lead to alike databases.
- `routesAlike_of_text`, `RoutesAlike.text`: the text of the error is all that they depend on.
- `routes_alike_iff`: for every run that is RUNNING with an expired lock.
-/

namespace PaymentScheduler

/-- A routed run: its text, its worker and the time of its end are forgotten. -/
def JobRun.unsigned (r : JobRun) : JobRun :=
  { r.timeless with workerId := none, errorMessage := none }

/-- A new attempt: its uuid, the time of its insert and its delay are forgotten. -/
def JobRun.undated (r : JobRun) : JobRun := { r with id := 0, retryAfter := none, createdAt := 0 }

/-- A new dead letter: its uuid, the time of its insert, its texts and its worker are forgotten. -/
def DeadLetterEntry.unsigned (e : DeadLetterEntry) : DeadLetterEntry :=
  { e.nameless with
    failureReason := ""
    errorClass := none
    payloadSnapshot := { e.payloadSnapshot with workerId := none } }

namespace Db

variable (old : Db)

/-- A run, up to what may differ. -/
def routedRun (run : UUID) (r : JobRun) : JobRun :=
  if r.id = run then r.unsigned else if (old.run? r.id).isSome then r else r.undated

/-- A dead letter, up to what may differ. -/
def routedEntry (e : DeadLetterEntry) : DeadLetterEntry :=
  if (old.entry? e.id).isSome then e else e.unsigned

/-- `db` and `db'` have the same rows in the same order, up to the texts, the worker and the times
of the routed run, to the time of the pause of its subscription, and to the texts, the worker, the
uuids, the times and the delay in the rows that are not in `old`. -/
structure RoutedAlike (run sub : UUID) (db db' : Db) : Prop where
  subscriptions : Table.updateWhere (fun b => b.id = sub) (·.timeless) db.subscriptions =
    Table.updateWhere (fun b => b.id = sub) (·.timeless) db'.subscriptions
  scheduledJobs : db.scheduledJobs = db'.scheduledJobs
  jobRuns : db.jobRuns.map (old.routedRun run) = db'.jobRuns.map (old.routedRun run)
  idempotencyKeys : db.idempotencyKeys = db'.idempotencyKeys
  deadLetterQueue :
    db.deadLetterQueue.map old.routedEntry = db'.deadLetterQueue.map old.routedEntry

variable {old} {db : Db} {run sub : UUID} {f g : JobRun → JobRun}

/-- Two updates of the run that agree up to what may differ. -/
theorem routedRun_updateRun (hf : ∀ r, (f r).id = r.id) (hg : ∀ r, (g r).id = r.id)
    (hfg : ∀ r, (f r).unsigned = (g r).unsigned) :
    (db.updateRun run f).jobRuns.map (old.routedRun run) =
      (db.updateRun run g).jobRuns.map (old.routedRun run) := by
  unfold updateRun updateRuns Table.updateWhere
  simp only [List.map_map]
  refine List.map_congr_left fun r _ => ?_
  simp only [Function.comp_apply, decide_eq_true_eq]
  split
  · rename_i hid
    unfold routedRun
    rw [if_pos (by rw [hf, hid]), if_pos (by rw [hg, hid]), hfg]
  · rfl

variable (old run) in
/-- What is kept of a row. -/
theorem routedRun_frame (r : JobRun) : (old.routedRun run r).jobId = r.jobId ∧
    (old.routedRun run r).attempt = r.attempt ∧ (old.routedRun run r).status = r.status := by
  unfold routedRun
  split
  · exact ⟨rfl, rfl, rfl⟩
  · split <;> exact ⟨rfl, rfl, rfl⟩

/-- The run has the same status in alike databases. -/
theorem RoutedAlike.status {db' : Db} {r r' : JobRun} (h : old.RoutedAlike run sub db db')
    (hw : db'.Wf) (hr : db.run? run = some r) (hr' : db'.run? run = some r')
    (hj : r'.jobId = r.jobId) (ha : r'.attempt = r.attempt) : r'.status = r.status := by
  have hmem : old.routedRun run r ∈ db'.jobRuns.map (old.routedRun run) :=
    h.jobRuns ▸ List.mem_map_of_mem (Table.get?_mem hr)
  obtain ⟨x, hx, he⟩ := List.mem_map.mp hmem
  obtain ⟨hjx, hax, hsx⟩ := routedRun_frame old run x
  obtain ⟨hjr, har, hsr⟩ := routedRun_frame old run r
  rw [he, hjr] at hjx
  rw [he, har] at hax
  rw [he, hsr] at hsx
  have hget := hw.run?_mem.mp hx
  rw [hw.run_unique hget hr' (hjx.symm.trans hj.symm) (hax.symm.trans ha.symm), hr'] at hget
  rw [Option.some.inj hget, hsx]

/-- The insert of an attempt with a fresh uuid does nothing, or adds the row. -/
theorem insertRun_fresh {r : JobRun} (hid : db.run? r.id = none)
    (hj : (db.job? r.jobId).isSome = true) :
    db.insertRun r = some (if db.jobRuns.any (sameAttempt r) then db else db.addRun r) := by
  unfold insertRun
  split
  · rfl
  · rw [if_neg (by simp [hid, Option.isSome_iff_ne_none.mp hj])]

/-- An update keeps the attempts that exist. -/
theorem any_sameAttempt_updateRun {r : JobRun} (hj : ∀ r, (f r).jobId = r.jobId)
    (ha : ∀ r, (f r).attempt = r.attempt) :
    (db.updateRun run f).jobRuns.any (sameAttempt r) = db.jobRuns.any (sameAttempt r) := by
  unfold updateRun updateRuns Table.updateWhere
  rw [List.any_map]
  congr 1
  funext r'
  simp only [Function.comp_apply, sameAttempt]
  split
  · rw [hj, ha]
  · rfl

/-- The run fails, and the next attempt is inserted under a fresh uuid. -/
theorem insertRun_updateRun {r : JobRun} (hf : ∀ r, (f r).id = r.id)
    (hjob : ∀ r, (f r).jobId = r.jobId) (ha : ∀ r, (f r).attempt = r.attempt)
    (hid : db.run? r.id = none) (hj : (db.job? r.jobId).isSome = true) :
    (db.updateRun run f).insertRun r = some
      (if db.jobRuns.any (sameAttempt r) then db.updateRun run f
        else (db.updateRun run f).addRun r) := by
  have hid' : (db.updateRun run f).run? r.id = none := by
    rw [run?_updateRun hf, hid]
    split <;> rfl
  rw [insertRun_fresh hid' hj, any_sameAttempt_updateRun hjob ha]

/-- A dead letter under a fresh uuid. -/
theorem moveToDlq_fresh {e : DeadLetterEntry} {clearsWorker : Bool} {now : Time} {r : JobRun}
    (hid : db.entry? e.id = none) (hr : db.run? e.jobRunId = some r) :
    db.moveToDlq e clearsWorker now = some
      (((db.updateRun e.jobRunId fun r => r.die e.failureReason clearsWorker now).addEntry
        e).countFailure e.subscriptionId now) := by
  have hrun : ((db.updateRun e.jobRunId fun r =>
      r.die e.failureReason clearsWorker now).run? e.jobRunId).isNone = false := by
    rw [run?_die, if_pos rfl, hr]
    rfl
  have hentry : Db.entry? (db.updateRun e.jobRunId fun r =>
      r.die e.failureReason clearsWorker now) e.id = none := hid
  unfold moveToDlq insertEntry
  rw [if_neg (by simp [hrun, hentry])]
  rfl

/-- The dead letters of the two routes. -/
theorem routedAlike_dead {r : JobRun} {e e' : DeadLetterEntry} {now now' t : Time} {txn txn' : Txn}
    (ht : txn = .moveToDlq e false now) (ht' : txn' = .moveToDlq e' true now')
    (hid : old.entry? e.id = none) (hid' : old.entry? e'.id = none)
    (hrun : e.jobRunId = run) (hrun' : e'.jobRunId = run) (hsub : e.subscriptionId = sub)
    (hsub' : e'.subscriptionId = sub) (he : e.unsigned = e'.unsigned)
    (hr : old.run? run = some r) :
    ∃ db db', txn.apply old = some db ∧ txn'.apply (old.reclaim run t) = some db' ∧
      old.RoutedAlike run sub db db' := by
  subst hrun hsub ht ht'
  have hr' : (old.reclaim e.jobRunId t).run? e'.jobRunId = some (r.reclaim t) := by
    rw [hrun', run?_reclaim, if_pos rfl, hr]
    rfl
  refine ⟨_, _, moveToDlq_fresh hid hr, moveToDlq_fresh hid' hr', ?_⟩
  constructor
  · rw [Recovered.countFailure_subscriptions, Recovered.countFailure_subscriptions, hsub']
    simp only [Table.updateWhere_updateWhere, Subscription.countFailure_id, implies_true,
      Subscription.timeless_countFailure]
    rfl
  · rfl
  · have htwice : ((old.reclaim e.jobRunId t).updateRun e.jobRunId fun r =>
        r.die e'.failureReason true now').jobRuns =
        (old.updateRun e.jobRunId fun r =>
          (r.reclaim t).die e'.failureReason true now').jobRuns :=
      Table.updateWhere_updateWhere fun _ => rfl
    show (old.updateRun _ _).jobRuns.map _ = ((old.reclaim _ t).updateRun _ _).jobRuns.map _
    rw [hrun', htwice]
    exact routedRun_updateRun (fun _ => rfl) (fun _ => rfl) fun _ => rfl
  · rfl
  · show (old.deadLetterQueue ++ [e]).map _ = (old.deadLetterQueue ++ [e']).map _
    rw [List.map_append, List.map_append, List.map_singleton, List.map_singleton]
    unfold routedEntry
    rw [hid, hid', he]
    rfl

/-- The retries of the two routes. -/
theorem routedAlike_retry {r : JobRun} (sub : UUID) (error : String) (now t : Time)
    (next next' : JobRun) (hr : old.run? run = some r) (hid : old.run? next.id = none)
    (hid' : old.run? next'.id = none) (hj : (old.job? next.jobId).isSome = true)
    (hjob : next'.jobId = next.jobId) (hatt : next'.attempt = next.attempt)
    (hnext : next.undated = next'.undated) :
    ∃ db db', (Txn.scheduleRetry run error now next).apply old = some db ∧
      (Txn.insertAttempt next').apply (old.reclaim run t) = some db' ∧
      old.RoutedAlike run sub db db' := by
  have hne {x : UUID} (hx : old.run? x = none) : x ≠ run := by
    rintro rfl
    rw [hr] at hx
    cases hx
  have hsame : sameAttempt next' = sameAttempt next := by
    funext r
    simp only [sameAttempt, hjob, hatt]
  have hupd : (old.updateRun run fun r => r.fail error now).jobRuns.map (old.routedRun run) =
      (old.reclaim run t).jobRuns.map (old.routedRun run) :=
    routedRun_updateRun (fun _ => rfl) (fun _ => rfl) fun _ => rfl
  refine ⟨_, _, insertRun_updateRun (fun _ => rfl) (fun _ => rfl) (fun _ => rfl) hid hj,
    insertRun_updateRun (fun _ => rfl) (fun _ => rfl) (fun _ => rfl) hid' (by rwa [hjob]), ?_⟩
  rw [hsame]
  split
  · exact ⟨rfl, rfl, hupd, rfl, rfl⟩
  · refine ⟨rfl, rfl, ?_, rfl, rfl⟩
    show ((old.updateRun _ _).jobRuns ++ [next]).map _ =
      ((old.reclaim _ t).jobRuns ++ [next']).map _
    rw [List.map_append, List.map_append, hupd, List.map_singleton, List.map_singleton]
    unfold routedRun
    rw [if_neg (hne hid), if_neg (hne hid'), hid, hid', hnext]
    rfl

end Db

namespace Txn

/-- The attempt after `n` as a PENDING run of the job in both, or a dead letter of the run in
both. -/
def SameDecision (run job : UUID) (n : Int) : Txn → Txn → Prop
  | scheduleRetry _ _ _ next, insertAttempt next' =>
    (next.jobId = job ∧ next.attempt = n + 1 ∧ next.status = .pending) ∧
      next'.jobId = job ∧ next'.attempt = n + 1 ∧ next'.status = .pending
  | moveToDlq e _ _, moveToDlq e' _ _ => e.jobRunId = run ∧ e'.jobRunId = run
  | _, _ => False

end Txn

/-- What an executor loads of a run. -/
theorem Db.Wf.loadRun {db : Db} (hw : db.Wf) {run : UUID} {r : JobRun}
    (hr : db.run? run = some r) : ∃ c, Executor.loadRun db run = some c ∧ c.run = r := by
  obtain ⟨j, hj⟩ := hw.runJob r (Table.get?_mem hr)
  obtain ⟨b, hb⟩ := hw.jobSub j (Table.get?_mem hj)
  refine ⟨{ run := r, job := j, subscription := b }, ?_, rfl⟩
  simp [Executor.loadRun, hr, hj, hb]

/-- The text of a dead letter of the recovery worker has no character from outside. -/
theorem Recovery.route_storable (now : Time) (run job : UUID) (attempt : Int) (b : Subscription)
    (newId : UUID) : (route now run job attempt b newId).storable = true := by
  have htext : isText
      s!"Exhausted after {attempt} attempts (recovered from stuck RUNNING state)" = true := by
    refine isText_append.mpr ⟨isText_append.mpr ⟨by decide, isText_int attempt⟩, by decide⟩
  unfold route
  split
  · simpa [moveToDlq, Txn.storable, Txn.errorTexts] using isText_truncate htext
  · rfl

/-- `_handle_failure` of a retryable error and `_recover_single_run_by_id` decide alike, and lead to
alike databases; a transaction that fails leaves the rows as they are. -/
def RoutesAlike (env : Env) (w : Nat) (db : Db) (run : UUID) (c : Executor.Loaded) (error : String)
    (rnd : ℚ) (t now now' : Time) (newId newId' : UUID) : Prop :=
  let routed := Recovery.route now' run c.run.jobId c.run.attempt c.subscription newId'
  ∃ txn reclaimed dbR,
    Executor.handleFailure env w now c error true rnd newId = some txn ∧
    Recovery.recoverSingleRunById db t run =
      (.claimed run c.run.jobId c.run.attempt c.subscription, some (.reclaim run t)) ∧
    (Txn.reclaim run t).commit db = some reclaimed ∧
    routed.commit reclaimed = some dbR ∧
    Txn.SameDecision run c.run.jobId c.run.attempt txn routed ∧
    db.RoutedAlike run c.subscription.id ((txn.commit db).getD db) dbR

variable {env : Env} {w : Nat} {db : Db} {run : UUID} {c : Executor.Loaded} {error : String}
  {rnd : ℚ} {t now now' : Time} {newId newId' : UUID}

/-- Where its text is stored, `_handle_failure` leads to what recovery leads to. -/
theorem routesAlike_of_text (hc : Executor.loadRun db run = some c)
    (hs : Recovery.isStuck t c.run = true)
    (hdate : (RetryPolicy.fromDict c.subscription.retryPolicy).isExhausted c.run.attempt = false →
      (addSeconds now ((RetryPolicy.fromDict c.subscription.retryPolicy).nextDelayS c.run.attempt
        rnd)).isSome = true)
    (hrun : db.run? newId = none) (hrun' : db.run? newId' = none)
    (hentry : db.entry? newId = none) (hentry' : db.entry? newId' = none)
    (htext : isText (truncate errorMessageMaxLen error) = true) :
    RoutesAlike env w db run c error rnd t now now' newId newId' := by
  obtain ⟨hr, hj, hb⟩ := Executor.loadRun_eq hc
  have hid : c.run.id = run := Db.run?_id hr
  have hclaimed : Recovery.recoverSingleRunById db t run =
      (.claimed run c.run.jobId c.run.attempt c.subscription, some (.reclaim run t)) := by
    simp [Recovery.recoverSingleRunById, hr, hs, hj, hb]
  -- The two ask the same policy about the same attempt.
  suffices halike : ∃ txn dbE dbR,
      Executor.handleFailure env w now c error true rnd newId = some txn ∧ txn.apply db = some dbE ∧
      (Recovery.route now' run c.run.jobId c.run.attempt c.subscription newId').apply
        (db.reclaim run t) = some dbR ∧
      Txn.SameDecision run c.run.jobId c.run.attempt txn
        (Recovery.route now' run c.run.jobId c.run.attempt c.subscription newId') ∧
      db.RoutedAlike run c.subscription.id dbE dbR by
    obtain ⟨txn, dbE, dbR, hE, happE, happR, hsame, halike⟩ := halike
    refine ⟨txn, _, dbR, hE, hclaimed, rfl, ?_, hsame, ?_⟩
    · rw [Txn.commit_of_storable (Recovery.route_storable ..), happR]
    · rwa [Txn.commit_of_storable ((Executor.handleFailure_storable hE).trans htext), happE]
  cases hex : (RetryPolicy.fromDict c.subscription.retryPolicy).isExhausted c.run.attempt with
  | true =>
    have hE : Executor.handleFailure env w now c error true rnd newId =
        some (Executor.moveToDlq env w now c error newId) := by
      simp [Executor.handleFailure, hex]
    have hR : Recovery.route now' run c.run.jobId c.run.attempt c.subscription newId' =
        Recovery.moveToDlq now' run c.run.jobId c.run.attempt c.subscription
          s!"Exhausted after {c.run.attempt} attempts (recovered from stuck RUNNING state)"
          newId' := if_pos hex
    rw [hR]
    obtain ⟨dbE, dbR, happE, happR, halike⟩ := Db.routedAlike_dead (t := t)
      (rfl : Executor.moveToDlq env w now c error newId = .moveToDlq _ false now)
      (rfl : Recovery.moveToDlq now' run c.run.jobId c.run.attempt c.subscription
        s!"Exhausted after {c.run.attempt} attempts (recovered from stuck RUNNING state)"
        newId' = .moveToDlq _ true now') hentry hentry' hid rfl rfl rfl (by rw [← hid]; rfl) hr
    exact ⟨_, dbE, dbR, hE, happE, happR, ⟨hid, rfl⟩, halike⟩
  | false =>
    obtain ⟨retryAfter, hretry⟩ := Option.isSome_iff_exists.mp (hdate hex)
    have hE : Executor.handleFailure env w now c error true rnd newId =
        some (.scheduleRetry run (truncate errorMessageMaxLen error) now
          { c.run.nextAttempt newId now with retryAfter := some retryAfter }) := by
      rw [← hid]
      simp [Executor.handleFailure, hex, hretry, JobRun.nextAttempt]
    have hR : Recovery.route now' run c.run.jobId c.run.attempt c.subscription newId' =
        .insertAttempt (c.run.nextAttempt newId' now') := if_neg (by simp [hex])
    rw [hR]
    obtain ⟨dbE, dbR, happE, happR, halike⟩ := Db.routedAlike_retry c.subscription.id
      (truncate errorMessageMaxLen error) now t
      { c.run.nextAttempt newId now with retryAfter := some retryAfter }
      (c.run.nextAttempt newId' now') hr hrun hrun'
      (Option.isSome_iff_exists.mpr ⟨_, hj⟩) rfl rfl rfl
    exact ⟨_, dbE, dbR, hE, happE, happR, ⟨⟨rfl, rfl, rfl⟩, rfl, rfl, rfl⟩, halike⟩

/-- Recovery leaves no run RUNNING that it has taken. -/
theorem Recovery.setRun_route {old : Db} {job : UUID} {n : Int} {b : Subscription} {r : JobRun}
    (h : r.status ≠ .running) :
    ((route now run job n b newId).setRun old r).status ≠ .running := by
  unfold route moveToDlq
  split
  · simp only [Txn.setRun]
    split
    · simp
    · exact h
  · exact h

/-- A text that is refused leaves the run RUNNING, which recovery ends. -/
theorem RoutesAlike.text (hw : db.Wf) (hc : Executor.loadRun db run = some c)
    (hs : Recovery.isStuck t c.run = true)
    (h : RoutesAlike env w db run c error rnd t now now' newId newId') :
    isText (truncate errorMessageMaxLen error) = true := by
  obtain ⟨hr, -, -⟩ := Executor.loadRun_eq hc
  obtain ⟨txn, reclaimed, dbR, hE, -, hreclaimed, hR, -, halike⟩ := h
  by_contra hnul
  have hroll : txn.commit db = none :=
    Txn.commit_of_not_storable ((Executor.handleFailure_storable hE).trans (by simpa using hnul))
  rw [hroll] at halike
  have hrunning : c.run.status = .running := by
    simp only [Recovery.isStuck, decide_eq_true_eq] at hs
    exact hs.1
  obtain rfl : db.reclaim run t = reclaimed := Option.some.inj hreclaimed
  have hr₁ : (db.reclaim run t).run? run = some (c.run.reclaim t) := by
    rw [Db.run?_reclaim, if_pos rfl, hr]
    rfl
  rw [Txn.commit_of_storable (Recovery.route_storable ..)] at hR
  have hwR : dbR.Wf := Txn.wf (Txn.wf (t := .reclaim run t) hw rfl) hR
  have hrR := Txn.run?_set hR hr₁
  have hstatus := halike.status hwR hr hrR (Txn.setRun_jobId _) (Txn.setRun_attempt _)
  exact Recovery.setRun_route (by simp) (hstatus.trans hrunning)

/-- For a run that is RUNNING and whose lock has expired: `_handle_failure` of a retryable error and
`_recover_single_run_by_id` decide alike and lead to alike databases, where the date of the retry,
if there is one, is in the range of `datetime`, exactly if what is kept of the error text has no
NUL. -/
theorem routes_alike_iff (env : Env) (w : Nat) {db : Db} (hw : db.Wf) {run : UUID} {r : JobRun}
    {t : Time} (hr : db.run? run = some r) (hs : Recovery.isStuck t r = true) :
    ∃ c, Executor.loadRun db run = some c ∧
      ∀ (error : String) (now now' : Time) (rnd : ℚ) (newId newId' : UUID),
        ((RetryPolicy.fromDict c.subscription.retryPolicy).isExhausted r.attempt = false →
          (addSeconds now ((RetryPolicy.fromDict c.subscription.retryPolicy).nextDelayS r.attempt
            rnd)).isSome = true) →
        db.run? newId = none → db.run? newId' = none → db.entry? newId = none →
        db.entry? newId' = none →
        (RoutesAlike env w db run c error rnd t now now' newId newId' ↔
          isText (truncate errorMessageMaxLen error) = true) := by
  obtain ⟨c, hc, rfl⟩ := hw.loadRun hr
  refine ⟨c, hc, fun error now now' rnd newId newId' hdate hrun hrun' hentry hentry' => ?_⟩
  exact ⟨RoutesAlike.text hw hc hs,
    routesAlike_of_text hc hs hdate hrun hrun' hentry hentry'⟩

namespace Demo

/-- A run of the given attempt that is RUNNING, under the default policy. -/
def expiredDb (attempt : Int) : Db where
  subscriptions :=
    [{ id := 0x00000000000040008000000000000001
       name := "Rent"
       description := none
       cronExpression := "* * * * *"
       timezone := "UTC"
       nextFireAt := some (seconds 1717225320)
       paymentConfig := []
       retryPolicy := ({} : RetryPolicy).toDict
       createdAt := seconds 1717225200 }]
  scheduledJobs :=
    [{ id := 0x00000000000040008000000000000002
       subscriptionId := 0x00000000000040008000000000000001
       scheduledFor := seconds 1717225260
       fingerprint := ""
       status := .ready
       createdAt := seconds 1717225260 }]
  jobRuns :=
    [{ id := 0x00000000000040008000000000000003
       jobId := 0x00000000000040008000000000000002
       attempt := attempt
       status := .running
       workerId := some "worker-0"
       lockExpiresAt := some (seconds 1717225560)
       createdAt := seconds 1717225260
       startedAt := some (seconds 1717225260) }]

theorem expiredDb_wf (attempt : Int) : (expiredDb attempt).Wf := by
  refine ⟨List.nodup_singleton _, List.nodup_singleton _, List.nodup_singleton _,
    List.nodup_singleton _, List.nodup_nil, ?_, ?_, ?_, ?_⟩
  · intro j hj
    rw [List.mem_singleton.mp hj]
    exact ⟨_, rfl⟩
  · intro r hr
    rw [List.mem_singleton.mp hr]
    exact ⟨_, rfl⟩
  · intro k hk
    cases hk
  · intro e he
    cases he

/-- The run of `expiredDb`. -/
def expiredId : UUID := 0x00000000000040008000000000000003

/-- A timeout of the attempt `n`, which recovery finds 40 seconds after the lock has expired. -/
def TimeoutAlike (n : Int) : Prop :=
  ∃ c, Executor.loadRun (expiredDb n) expiredId = some c ∧
    RoutesAlike retryEnv 0 (expiredDb n) expiredId c "timeout" 0 (seconds 1717225600)
      (seconds 1717225600) (seconds 1717225601) 4 5

/-- The first attempt is retried by both, and the fifth is buried by both. -/
theorem timeout_alike : TimeoutAlike 1 ∧ TimeoutAlike 5 := by
  have halike (n : Int) (hdate : (addSeconds (seconds 1717225600)
      ((RetryPolicy.fromDict ({} : RetryPolicy).toDict).nextDelayS n 0)).isSome = true) :
      TimeoutAlike n := by
    obtain ⟨c, hc, h⟩ := routes_alike_iff retryEnv 0 (expiredDb_wf n) (t := seconds 1717225600)
      (rfl : (expiredDb n).run? expiredId = some _) rfl
    refine ⟨c, hc, (h "timeout" (seconds 1717225600) (seconds 1717225601) 0 4 5 (fun _ => ?_) rfl
      rfl rfl rfl).mpr (by decide)⟩
    cases hc
    exact hdate
  exact ⟨halike 1 (by decide +kernel), halike 5 (by decide +kernel)⟩

/-- A status 503 whose body starts with NUL: the executor does not record the failure, and recovery
does. -/
theorem nulBody_unlike : ¬ ∀ (env : Env) (w : Nat) (db : Db) (run : UUID) (r : JobRun) (t : Time),
    db.Wf → db.run? run = some r → Recovery.isStuck t r = true →
    ∃ c, Executor.loadRun db run = some c ∧
      ∀ (error : String) (now now' : Time) (rnd : ℚ) (newId newId' : UUID),
        ((RetryPolicy.fromDict c.subscription.retryPolicy).isExhausted r.attempt = false →
          (addSeconds now ((RetryPolicy.fromDict c.subscription.retryPolicy).nextDelayS r.attempt
            rnd)).isSome = true) →
        db.run? newId = none → db.run? newId' = none → db.entry? newId = none →
        db.entry? newId' = none →
        RoutesAlike env w db run c error rnd t now now' newId newId' := by
  intro h
  obtain ⟨c, hc, h⟩ := h retryEnv 0 (expiredDb 1) expiredId _ (seconds 1717225600) (expiredDb_wf 1)
    rfl rfl
  have hdate : (addSeconds (seconds 1717225600)
      ((RetryPolicy.fromDict c.subscription.retryPolicy).nextDelayS 1 0)).isSome = true := by
    cases hc
    decide +kernel
  have halike := h "Transient bunq error 503: \x00" (seconds 1717225600) (seconds 1717225601) 0 4 5
    (fun _ => hdate) rfl rfl rfl rfl
  have htext := halike.text (expiredDb_wf 1) hc (by cases hc; rfl)
  exact absurd htext (by decide)

end Demo

end PaymentScheduler
