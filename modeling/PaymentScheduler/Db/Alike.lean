import PaymentScheduler.Db.Subscriptions

/-!
# Rows up to uuids and timestamps

Two databases that come from one (`old`) by different runs are alike if their tables have the same
rows, up to the uuids of the rows that are new, to the timestamps, and to the order in which the new
rows were inserted.
-/

namespace PaymentScheduler

/-- The time of the pause is forgotten. -/
def Subscription.timeless (b : Subscription) : Subscription :=
  { b with pausedAt := b.pausedAt.map fun _ => 0 }

/-- The time of the end is forgotten. -/
def JobRun.timeless (r : JobRun) : JobRun := { r with finishedAt := r.finishedAt.map fun _ => 0 }

/-- A new row: its uuid and the time of its insert are forgotten. -/
def JobRun.nameless (r : JobRun) : JobRun := { r.timeless with id := 0, createdAt := 0 }

/-- A new row: its uuid and the time of its insert are forgotten. -/
def DeadLetterEntry.nameless (e : DeadLetterEntry) : DeadLetterEntry :=
  { e with id := 0, createdAt := 0 }

/-- The next attempt after a run, with the uuid `id`. -/
def JobRun.nextAttempt (r : JobRun) (id : UUID) (now : Time) : JobRun :=
  { id := id, jobId := r.jobId, attempt := r.attempt + 1, createdAt := now }

namespace Db

/-- A run, up to what may differ. -/
def plainRun (old : Db) (r : JobRun) : JobRun :=
  if (old.run? r.id).isSome then r.timeless else r.nameless

/-- A dead letter, up to what may differ. -/
def plainEntry (old : Db) (e : DeadLetterEntry) : DeadLetterEntry :=
  if (old.entry? e.id).isSome then e else e.nameless

/-- `db` and `db'` are the same database, up to the uuids of the rows that are not in `old` and to
timestamps. -/
structure Alike (old db db' : Db) : Prop where
  subscriptions : db.subscriptions.map (·.timeless) = db'.subscriptions.map (·.timeless)
  scheduledJobs : db.scheduledJobs = db'.scheduledJobs
  jobRuns : (db.jobRuns.map old.plainRun).Perm (db'.jobRuns.map old.plainRun)
  idempotencyKeys : db.idempotencyKeys = db'.idempotencyKeys
  deadLetterQueue :
    (db.deadLetterQueue.map old.plainEntry).Perm (db'.deadLetterQueue.map old.plainEntry)

end Db

@[simp] theorem Subscription.timeless_id (b : Subscription) : b.timeless.id = b.id := rfl

@[simp] theorem JobRun.timeless_id (r : JobRun) : r.timeless.id = r.id := rfl

theorem Subscription.timeless_countFailure (b : Subscription) (now : Time) :
    (b.countFailure now).timeless = b.timeless.countFailure 0 := by
  unfold countFailure timeless
  split <;> rfl

theorem JobRun.timeless_reclaim (r : JobRun) (now : Time) :
    (r.reclaim now).timeless = r.timeless.reclaim 0 := rfl

theorem JobRun.timeless_die (r : JobRun) (reason : String) (c : Bool) (now : Time) :
    (r.die reason c now).timeless = r.timeless.die reason c 0 := rfl

/-! ## What the recovery of a set of runs makes of a database -/

namespace Db

variable (old : Db)

/-- The subscription of the job of a run. -/
def owner? (r : JobRun) : Option Subscription :=
  (old.job? r.jobId).bind fun j => old.sub? j.subscriptionId

/-- The recovery of a run moves it to the dead letter queue. -/
def doomed (x : UUID) : Bool :=
  (old.run? x).any fun r => (old.owner? r).any fun b =>
    (RetryPolicy.fromDict b.retryPolicy).isExhausted r.attempt

def exhausted (attempt : Int) : String :=
  truncate errorMessageMaxLen
    s!"Exhausted after {attempt} attempts (recovered from stuck RUNNING state)"

/-- A run, where those of `taken` are taken and those of `done` are routed as well. -/
def staged (taken done : List UUID) (r : JobRun) : JobRun :=
  if r.id ∈ done ∧ old.doomed r.id = true then
    (r.reclaim 0).die (exhausted r.attempt) true 0
  else if r.id ∈ taken then r.reclaim 0 else r

/-- The next attempt of a run that is retried, if there is none yet. -/
def successor? (x : UUID) : Option JobRun :=
  (old.run? x).bind fun r =>
    if old.doomed x ∨ old.jobRuns.any (sameAttempt (r.nextAttempt 0 0)) then none
    else some (r.nextAttempt 0 0)

/-- The dead letter of a run that is not retried. -/
def letter? (x : UUID) : Option DeadLetterEntry :=
  (old.run? x).bind fun r => (old.owner? r).bind fun b =>
    if old.doomed x then
      some
        { id := 0
          jobRunId := x
          jobId := r.jobId
          subscriptionId := b.id
          failureReason := exhausted r.attempt
          errorClass := some "StuckRunRecovery"
          payloadSnapshot :=
            { paymentConfig := b.paymentConfig
              attempt := r.attempt
              workerId := none }
          createdAt := 0 }
    else none

/-- How many of the runs are dead letters of a subscription. -/
def deaths (done : List UUID) (i : UUID) : Nat :=
  done.countP fun x => old.doomed x ∧ ((old.run? x).bind old.owner?).any fun b => b.id = i

/-- A subscription after these dead letters. -/
def charged (done : List UUID) (b : Subscription) : Subscription :=
  (fun b => b.countFailure 0)^[old.deaths done b.id] b

/-- What `db` has become of `old`: the runs of `taken` are taken, and those of `done` are routed, in
this order. -/
structure Recovered (old : Db) (taken done : List UUID) (db : Db) : Prop where
  wf : db.Wf
  subscriptions : db.subscriptions.map (·.timeless) =
    old.subscriptions.map fun b => old.charged done b.timeless
  scheduledJobs : db.scheduledJobs = old.scheduledJobs
  idempotencyKeys : db.idempotencyKeys = old.idempotencyKeys
  jobRuns : ∃ olds fresh, db.jobRuns = olds ++ fresh ∧
    olds.map (·.timeless) = (old.jobRuns.map fun r => old.staged taken done r.timeless) ∧
    fresh.map (·.nameless) = done.filterMap old.successor? ∧ ∀ r ∈ fresh, old.run? r.id = none
  deadLetterQueue : ∃ fresh, db.deadLetterQueue = old.deadLetterQueue ++ fresh ∧
    fresh.map (·.nameless) = done.filterMap old.letter? ∧ ∀ e ∈ fresh, old.entry? e.id = none

variable {old} {db db' : Db} {taken done : List UUID} {x : UUID} {r₀ : JobRun}

@[simp] theorem staged_id (r : JobRun) : (old.staged taken done r).id = r.id := by
  unfold staged
  split
  · rfl
  · split <;> rfl

variable (old taken done) in
theorem staged_frame (r : JobRun) : (old.staged taken done r).jobId = r.jobId ∧
    (old.staged taken done r).attempt = r.attempt := by
  unfold staged
  split
  · exact ⟨rfl, rfl⟩
  · split <;> exact ⟨rfl, rfl⟩

variable (old done) in
theorem charged_frame (b : Subscription) : (old.charged done b).id = b.id ∧
    (old.charged done b).retryPolicy = b.retryPolicy ∧
    (old.charged done b).paymentConfig = b.paymentConfig := by
  unfold charged
  generalize old.deaths done b.id = n
  induction n with
  | zero => exact ⟨rfl, rfl, rfl⟩
  | succ n ih =>
    rw [Function.iterate_succ_apply', Subscription.countFailure_id]
    obtain ⟨hp, hc⟩ := Subscription.countFailure_frame
      ((fun b : Subscription => b.countFailure 0)^[n] b) 0
    exact ⟨ih.1, hp.trans ih.2.1, hc.trans ih.2.2⟩

namespace Recovered

theorem init (hw : old.Wf) : Recovered old [] [] old where
  wf := hw
  subscriptions := by
    refine List.map_congr_left fun b _ => ?_
    simp [charged, deaths]
  scheduledJobs := rfl
  idempotencyKeys := rfl
  jobRuns := by
    have hsame : old.jobRuns.map (·.timeless) =
        old.jobRuns.map fun r => old.staged [] [] r.timeless := by
      refine List.map_congr_left fun r _ => ?_
      simp [staged]
    exact ⟨old.jobRuns, [], (List.append_nil _).symm, hsame, rfl, by simp⟩
  deadLetterQueue := ⟨[], (List.append_nil _).symm, rfl, by simp⟩

/-- A run of `old`, as it is now. -/
theorem run? (h : Recovered old taken done db) (hx : old.run? x = some r₀) :
    ∃ r, db.run? x = some r ∧ r.timeless = old.staged taken done r₀.timeless := by
  obtain ⟨olds, fresh, hruns, holds, -, -⟩ := h.jobRuns
  have hmap : (Table.get? (·.id) olds x).map (·.timeless) =
      some (old.staged taken done r₀.timeless) := by
    rw [← Table.get?_map (g := JobRun.timeless) (fun _ => rfl), holds,
      Table.get?_map (g := fun r => old.staged taken done r.timeless) (fun r => by simp),
      show Table.get? (·.id) old.jobRuns x = some r₀ from hx]
    rfl
  obtain ⟨r, hr, ht⟩ := Option.map_eq_some_iff.mp hmap
  refine ⟨r, ?_, ht⟩
  rw [Db.run?, hruns]
  exact Table.get?_append_of_some hr

/-- A subscription of `old`, as it is now. -/
theorem sub? (h : Recovered old taken done db) {i : UUID} {b₀ : Subscription}
    (hb : old.sub? i = some b₀) :
    ∃ b, db.sub? i = some b ∧ b.id = b₀.id ∧ b.retryPolicy = b₀.retryPolicy ∧
      b.paymentConfig = b₀.paymentConfig := by
  have hmap : (db.sub? i).map (·.timeless) = some (old.charged done b₀.timeless) := by
    rw [Db.sub?, ← Table.get?_map (g := Subscription.timeless) (fun _ => rfl), h.subscriptions,
      Table.get?_map (g := fun b => old.charged done b.timeless) (fun b => by simp [charged_frame]),
      show Table.get? (·.id) old.subscriptions i = some b₀ from hb]
    rfl
  obtain ⟨b, hb', ht⟩ := Option.map_eq_some_iff.mp hmap
  obtain ⟨hi, hp, hc⟩ := charged_frame old done b₀.timeless
  rw [← ht] at hi hp hc
  exact ⟨b, hb', hi, hp, hc⟩

/-- The row of a run of `old` is among the first ones, and the update of it leaves the new ones. -/
theorem updateRun (h : Recovered old taken done db) (hx : old.run? x = some r₀)
    (f f' : JobRun → JobRun) (hf : ∀ r, (f r).timeless = f' r.timeless) :
    ∃ olds fresh, (db.updateRun x f).jobRuns = olds ++ fresh ∧
      olds.map (·.timeless) = (old.jobRuns.map fun r =>
        if r.id = x then f' (old.staged taken done r.timeless)
        else old.staged taken done r.timeless) ∧
      fresh.map (·.nameless) = done.filterMap old.successor? ∧
      ∀ r ∈ fresh, old.run? r.id = none := by
  obtain ⟨olds, fresh, hruns, holds, hfresh, hnew⟩ := h.jobRuns
  refine ⟨Table.updateWhere (fun r => r.id = x) f olds, fresh, ?_, ?_, hfresh, hnew⟩
  · have hkeep : Table.updateWhere (fun r => r.id = x) f fresh = fresh := by
      refine Table.updateWhere_of_forall fun r hr => decide_eq_false ?_
      rintro rfl
      rw [hnew r hr] at hx
      cases hx
    conv_rhs => rw [← hkeep]
    rw [Db.updateRun, updateRuns, hruns]
    exact List.map_append
  · have hmap : (Table.updateWhere (fun r : JobRun => r.id = x) f olds).map (·.timeless) =
        Table.updateWhere (fun r => r.id = x) f' (olds.map (·.timeless)) :=
      Table.map_updateWhere_comm (fun _ => rfl) hf
    rw [hmap, holds, Table.updateWhere, List.map_map]
    refine List.map_congr_left fun r _ => ?_
    simp

/-- A run is taken. -/
theorem reclaim (h : Recovered old taken done db) (hx : old.run? x = some r₀) (hxt : x ∉ taken)
    (hxd : x ∉ done) (now : Time) : Recovered old (taken ++ [x]) done (db.reclaim x now) where
  wf := Txn.wf (t := .reclaim x now) h.wf rfl
  subscriptions := h.subscriptions
  scheduledJobs := h.scheduledJobs
  idempotencyKeys := h.idempotencyKeys
  deadLetterQueue := h.deadLetterQueue
  jobRuns := by
    obtain ⟨olds, fresh, hruns, holds, hrest⟩ :=
      h.updateRun hx (·.reclaim now) (·.reclaim 0) fun r => r.timeless_reclaim now
    refine ⟨olds, fresh, hruns, holds.trans (List.map_congr_left fun r _ => ?_), hrest⟩
    by_cases hr : r.id = x
    · subst hr
      simp [staged, hxt, hxd]
    · have hmem : r.timeless.id ∈ taken ++ [x] ↔ r.timeless.id ∈ taken := by simp [hr]
      simp only [if_neg hr, staged, hmem]

/-- The columns by which two attempts are compared. -/
theorem mem_olds {olds : List JobRun}
    (holds : olds.map (·.timeless) = old.jobRuns.map fun r => old.staged taken done r.timeless)
    {j : UUID} {n : Int} : (∃ r ∈ olds, r.jobId = j ∧ r.attempt = n) ↔
      ∃ r ∈ old.jobRuns, r.jobId = j ∧ r.attempt = n := by
  have hcols : olds.map (fun r => (r.jobId, r.attempt)) =
      old.jobRuns.map fun r => (r.jobId, r.attempt) := by
    have hmap := congrArg (List.map fun r : JobRun => (r.jobId, r.attempt)) holds
    rw [List.map_map, List.map_map] at hmap
    refine hmap.trans (List.map_congr_left fun r _ => ?_)
    obtain ⟨hj, ha⟩ := staged_frame old taken done r.timeless
    simp only [Function.comp_apply, hj, ha]
    rfl
  have hmem := congrArg (fun l => (j, n) ∈ l) hcols
  simpa using hmem

theorem deaths_append (done : List UUID) (x i : UUID) : old.deaths (done ++ [x]) i =
    old.deaths done i + if old.doomed x = true ∧
      (((old.run? x).bind old.owner?).any fun b => b.id = i) = true then 1 else 0 := by
  simp [deaths, List.countP_append, List.countP_singleton]

/-- The routing of another run leaves a run as it is. -/
theorem staged_append_of_ne {r : JobRun} (h : r.id ≠ x) :
    old.staged taken (done ++ [x]) r = old.staged taken done r := by
  have hmem : r.id ∈ done ++ [x] ↔ r.id ∈ done := by simp [h]
  exact if_congr (and_congr_left fun _ => hmem) rfl rfl

variable (taken done) in
/-- A run that is retried leaves the rows of `old` as they are. -/
theorem live_append (hlive : old.doomed x = false) :
    old.staged taken (done ++ [x]) = old.staged taken done ∧
      old.charged (done ++ [x]) = old.charged done := by
  constructor
  · funext r
    by_cases hr : r.id = x
    · simp only [staged, hr, hlive, Bool.false_eq_true, and_false, if_false]
    · exact staged_append_of_ne hr
  · funext b
    simp [charged, deaths, hlive]

/-- No other run of `old` has the same next attempt. -/
theorem not_mem_fresh (hw : old.Wf) (hx : old.run? x = some r₀) (hxd : x ∉ done)
    {fresh : List JobRun} (hfresh : fresh.map (·.nameless) = done.filterMap old.successor?) :
    ∀ r ∈ fresh, r.jobId = r₀.jobId → r.attempt ≠ r₀.attempt + 1 := by
  intro r hr hj ha
  have hmem : r.nameless ∈ done.filterMap old.successor? := by
    rw [← hfresh]
    exact List.mem_map_of_mem hr
  obtain ⟨y, hy, hs⟩ := List.mem_filterMap.mp hmem
  obtain ⟨r', hr', hs⟩ := Option.bind_eq_some_iff.mp hs
  split at hs
  · cases hs
  · have hnext : r'.nextAttempt 0 0 = r.nameless := Option.some.inj hs
    have hj' : (r'.nextAttempt 0 0).jobId = r.nameless.jobId := by rw [hnext]
    have ha' : (r'.nextAttempt 0 0).attempt = r.nameless.attempt := by rw [hnext]
    have hattempt : r'.attempt = r₀.attempt := add_right_cancel (ha'.trans ha)
    have hyx : y = x := hw.run_unique hr' hx (hj'.trans hj) hattempt
    exact hxd (hyx ▸ hy)

/-- The next attempt is inserted, unless there was one in `old`. -/
theorem insertRun (hw : old.Wf) (h : Recovered old taken done db) (hx : old.run? x = some r₀)
    (hxd : x ∉ done) (hlive : old.doomed x = false) {newId : UUID} {now : Time}
    (hi : db.insertRun (r₀.nextAttempt newId now) = some db') :
    (old.successor? x = none ∧ db' = db) ∨
      (old.successor? x = some (r₀.nextAttempt 0 0) ∧ db' = db.addRun (r₀.nextAttempt newId now) ∧
        old.run? newId = none) := by
  obtain ⟨olds, fresh, hruns, holds, hfresh, hnew⟩ := h.jobRuns
  have hsucc : old.successor? x =
      if old.jobRuns.any (sameAttempt (r₀.nextAttempt 0 0)) then none
      else some (r₀.nextAttempt 0 0) := by
    simp [successor?, hx, hlive]
  obtain ⟨rfl, r₁, hr₁, hj, ha⟩ | ⟨rfl, ha, hid, -⟩ := insertRun_cases hi
  · left
    have hold : ∃ r ∈ old.jobRuns, r.jobId = r₀.jobId ∧ r.attempt = r₀.attempt + 1 := by
      rw [hruns, List.mem_append] at hr₁
      rcases hr₁ with hr₁ | hr₁
      · exact (mem_olds holds).mp ⟨r₁, hr₁, hj, ha⟩
      · exact absurd ha (not_mem_fresh hw hx hxd hfresh r₁ hr₁ hj)
    obtain ⟨r, hr, hj, ha⟩ := hold
    refine ⟨?_, rfl⟩
    rw [hsucc, if_pos]
    refine List.any_eq_true.mpr ⟨r, hr, ?_⟩
    simp [sameAttempt, JobRun.nextAttempt, hj, ha]
  · right
    refine ⟨?_, rfl, ?_⟩
    · rw [hsucc, if_neg]
      rintro hany
      obtain ⟨r, hr, hs⟩ := List.any_eq_true.mp hany
      simp only [sameAttempt, decide_eq_true_eq] at hs
      obtain ⟨r', hr', hj', ha'⟩ := (mem_olds holds).mpr ⟨r, hr, hs.1.symm, hs.2.symm⟩
      refine ha r' ?_ hj' ha'
      rw [hruns]
      exact List.mem_append_left _ hr'
    · cases hn : old.run? newId with
      | none => rfl
      | some r =>
        obtain ⟨r', hr', -⟩ := h.run? hn
        have hnone : db.run? newId = none := hid
        rw [hnone] at hr'
        cases hr'

/-- A run is retried. -/
theorem retry (hw : old.Wf) (h : Recovered old taken done db) (hx : old.run? x = some r₀)
    (hxd : x ∉ done) (hlive : old.doomed x = false) {newId : UUID} {now : Time}
    (hi : db.insertRun (r₀.nextAttempt newId now) = some db') :
    Recovered old taken (done ++ [x]) db' := by
  have hwf : db'.Wf := h.wf.insertRun hi
  obtain ⟨hstaged, hcharged⟩ := live_append taken done hlive
  have hletters : (done ++ [x]).filterMap old.letter? = done.filterMap old.letter? := by
    simp [List.filterMap_append, letter?, hx, hlive]
  obtain ⟨olds, fresh, hruns, holds, hfresh, hnew⟩ := h.jobRuns
  have hrest := insertRun hw h hx hxd hlive hi
  have hsame : db'.subscriptions = db.subscriptions ∧ db'.scheduledJobs = db.scheduledJobs ∧
      db'.idempotencyKeys = db.idempotencyKeys ∧ db'.deadLetterQueue = db.deadLetterQueue := by
    obtain ⟨-, rfl⟩ | ⟨-, rfl, -⟩ := hrest <;> exact ⟨rfl, rfl, rfl, rfl⟩
  obtain ⟨hsubs, hjobs, hkeys, hdlq⟩ := hsame
  refine ⟨hwf, ?_, hjobs.trans h.scheduledJobs, hkeys.trans h.idempotencyKeys, ?_, ?_⟩
  · rw [hsubs, hcharged]
    exact h.subscriptions
  · rw [hstaged]
    obtain ⟨hs, rfl⟩ | ⟨hs, rfl, hid⟩ := hrest
    · refine ⟨olds, fresh, hruns, holds, ?_, hnew⟩
      rw [hfresh, List.filterMap_append]
      simp [hs]
    · refine ⟨olds, fresh ++ [r₀.nextAttempt newId now], ?_, holds, ?_, ?_⟩
      · rw [addRun, hruns, List.append_assoc]
      · rw [List.map_append, hfresh, List.filterMap_append]
        simp [hs, JobRun.nextAttempt, JobRun.nameless, JobRun.timeless]
      · intro r hr
        rcases List.mem_append.mp hr with hr | hr
        · exact hnew r hr
        · rw [List.mem_singleton.mp hr]
          exact hid
  · rw [hdlq, hletters]
    exact h.deadLetterQueue

/-- The counter update, as one update of the table. -/
theorem countFailure_subscriptions {i : UUID} {now : Time} :
    (db.countFailure i now).subscriptions =
      Table.updateWhere (fun b => b.id = i) (·.countFailure now) db.subscriptions := by
  unfold Db.countFailure updateSub
  exact Table.updateWhere_updateWhere fun _ => rfl

/-- A dead letter of a run charges the subscription of its job. -/
theorem charge (h : Recovered old taken done db) (hx : old.run? x = some r₀)
    (hdead : old.doomed x = true) {b₀ : Subscription} (hb₀ : old.owner? r₀ = some b₀)
    (now : Time) : (db.countFailure b₀.id now).subscriptions.map (·.timeless) =
      old.subscriptions.map fun b => old.charged (done ++ [x]) b.timeless := by
  have hmap : (db.countFailure b₀.id now).subscriptions.map (·.timeless) =
      Table.updateWhere (fun b => b.id = b₀.id) (·.countFailure 0)
        (db.subscriptions.map (·.timeless)) := by
    rw [countFailure_subscriptions]
    exact Table.map_updateWhere_comm (fun _ => rfl) fun b => b.timeless_countFailure now
  rw [hmap, h.subscriptions, Table.updateWhere, List.map_map]
  refine List.map_congr_left fun b _ => ?_
  have hcount : old.deaths (done ++ [x]) b.id =
      old.deaths done b.id + if b.id = b₀.id then 1 else 0 := by
    simp [deaths_append, hdead, hx, hb₀, eq_comm]
  simp only [Function.comp_apply, charged_frame, Subscription.timeless_id, decide_eq_true_eq]
  by_cases hb : b.id = b₀.id
  · simp only [if_pos hb, charged, Subscription.timeless_id, hcount,
      Function.iterate_succ_apply']
  · simp only [if_neg hb, charged, Subscription.timeless_id, hcount, Nat.add_zero]

/-- A run that was taken becomes DEAD. -/
theorem bury (h : Recovered old taken done db) (hw : old.Wf) (hx : old.run? x = some r₀)
    (hxt : x ∈ taken) (hxd : x ∉ done) (hdead : old.doomed x = true) (now : Time) :
    ∃ olds fresh,
      (db.updateRun x fun r => r.die (exhausted r₀.attempt) true now).jobRuns = olds ++ fresh ∧
      olds.map (·.timeless) =
        (old.jobRuns.map fun r => old.staged taken (done ++ [x]) r.timeless) ∧
      fresh.map (·.nameless) = (done ++ [x]).filterMap old.successor? ∧
      ∀ r ∈ fresh, old.run? r.id = none := by
  have hsucc : (done ++ [x]).filterMap old.successor? = done.filterMap old.successor? := by
    simp [List.filterMap_append, successor?, hx, hdead]
  obtain ⟨olds, fresh, hruns, holds, hrest⟩ :=
    h.updateRun hx (·.die (exhausted r₀.attempt) true now)
      (·.die (exhausted r₀.attempt) true 0) fun r => r.timeless_die _ true now
  rw [hsucc]
  refine ⟨olds, fresh, hruns, holds.trans (List.map_congr_left fun r hr => ?_), hrest⟩
  by_cases hrx : r.id = x
  · have hr₀ : r = r₀ := by
      have hmem := hw.run?_mem.mp hr
      rw [hrx, hx] at hmem
      exact (Option.some.inj hmem).symm
    subst hr₀
    simp only [staged, JobRun.timeless_id, hrx, hxt, hxd, hdead, false_and, if_true, if_false,
      List.mem_append, List.mem_singleton, or_true, and_self]
    rfl
  · exact (if_neg hrx).trans (staged_append_of_ne (r := r.timeless) hrx).symm

/-- A run is moved to the dead letter queue. -/
theorem die (hw : old.Wf) (h : Recovered old taken done db) (hx : old.run? x = some r₀)
    (hxt : x ∈ taken) (hxd : x ∉ done) {e : DeadLetterEntry} {now : Time}
    (hl : old.letter? x = some e.nameless) (ht : db.moveToDlq e true now = some db') :
    Recovered old taken (done ++ [x]) db' := by
  have hwf : db'.Wf := h.wf.moveToDlq ht
  obtain ⟨letters, hq, hfresh, hnew⟩ := h.deadLetterQueue
  have hid : old.entry? e.id = none := by
    obtain ⟨db₁, h₁, -⟩ := Option.map_eq_some_iff.mp ht
    have hnone : Table.get? (·.id) db.deadLetterQueue e.id = none := (insertEntry_cases h₁).2.1
    rw [hq, Table.get?_append, Option.or_eq_none_iff] at hnone
    exact hnone.1
  have hletters : (done ++ [x]).filterMap old.letter? =
      done.filterMap old.letter? ++ [e.nameless] := by
    simp [List.filterMap_append, hl]
  -- The columns of the letter.
  simp only [letter?, hx, Option.bind_some] at hl
  obtain ⟨b₀, hb₀, hl⟩ := Option.bind_eq_some_iff.mp hl
  split at hl
  · rename_i hdead
    have hrun : e.jobRunId = x := (congrArg DeadLetterEntry.jobRunId (Option.some.inj hl)).symm
    have hsub : e.subscriptionId = b₀.id :=
      (congrArg DeadLetterEntry.subscriptionId (Option.some.inj hl)).symm
    have hreason : e.failureReason = exhausted r₀.attempt :=
      (congrArg DeadLetterEntry.failureReason (Option.some.inj hl)).symm
    rw [moveToDlq_cases ht, hrun, hsub, hreason] at hwf ⊢
    refine ⟨hwf, h.charge hx hdead hb₀ now, h.scheduledJobs, h.idempotencyKeys,
      h.bury hw hx hxt hxd hdead now, letters ++ [e], ?_, ?_, ?_⟩
    · show db.deadLetterQueue ++ [e] = _
      rw [hq, List.append_assoc]
    · rw [hletters, List.map_append, hfresh, List.map_singleton]
    · intro e' he'
      rcases List.mem_append.mp he' with he' | he'
      · exact hnew e' he'
      · rw [List.mem_singleton.mp he']
        exact hid
  · cases hl

/-! ## The order of the runs does not matter -/

theorem plainRuns (h : Recovered old taken done db) : db.jobRuns.map old.plainRun =
    (old.jobRuns.map fun r => old.staged taken done r.timeless) ++
      done.filterMap old.successor? := by
  obtain ⟨olds, fresh, hruns, holds, hfresh, hnew⟩ := h.jobRuns
  have hids : olds.map (·.id) = old.jobRuns.map (·.id) := by
    have hmap := congrArg (List.map fun r : JobRun => r.id) holds
    simpa [List.map_map, Function.comp_def] using hmap
  rw [hruns, List.map_append, ← holds, ← hfresh]
  congr 1
  · refine List.map_congr_left fun r hr => if_pos ?_
    have hmem : r.id ∈ old.jobRuns.map (·.id) := hids ▸ List.mem_map_of_mem hr
    obtain ⟨r₀, hr₀, he⟩ := List.mem_map.mp hmem
    obtain ⟨r', hr'⟩ := Table.exists_get? (·.id) hr₀
    exact Option.isSome_iff_exists.mpr ⟨r', by rw [← he]; exact hr'⟩
  · exact List.map_congr_left fun r hr => if_neg (by simp [hnew r hr])

theorem plainEntries (h : Recovered old taken done db) : db.deadLetterQueue.map old.plainEntry =
    old.deadLetterQueue ++ done.filterMap old.letter? := by
  obtain ⟨fresh, hq, hfresh, hnew⟩ := h.deadLetterQueue
  rw [hq, List.map_append, ← hfresh]
  congr 1
  · conv_rhs => rw [← List.map_id old.deadLetterQueue]
    refine List.map_congr_left fun e he => if_pos ?_
    obtain ⟨e', he'⟩ := Table.exists_get? (·.id) he
    exact Option.isSome_iff_exists.mpr ⟨e', he'⟩
  · exact List.map_congr_left fun e he => if_neg (by simp [hnew e he])

/-- Two recoveries of the same runs, in any order, give the same rows. -/
theorem alike {taken' done' : List UUID} (h : Recovered old taken done db)
    (h' : Recovered old taken' done' db') (htaken : ∀ x, x ∈ taken ↔ x ∈ taken')
    (hdone : done.Perm done') : Alike old db db' where
  subscriptions := by
    rw [h.subscriptions, h'.subscriptions]
    refine List.map_congr_left fun b _ => ?_
    simp only [charged, deaths, hdone.countP_eq]
  scheduledJobs := h.scheduledJobs.trans h'.scheduledJobs.symm
  jobRuns := by
    have hstaged : old.staged taken done = old.staged taken' done' := by
      funext r
      simp only [staged, htaken, hdone.mem_iff]
    rw [h.plainRuns, h'.plainRuns, hstaged]
    exact (hdone.filterMap _).append_left _
  idempotencyKeys := h.idempotencyKeys.trans h'.idempotencyKeys.symm
  deadLetterQueue := by
    rw [h.plainEntries, h'.plainEntries]
    exact (hdone.filterMap _).append_left _

end Recovered

end Db

end PaymentScheduler
