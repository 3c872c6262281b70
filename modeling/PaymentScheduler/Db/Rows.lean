import PaymentScheduler.Db.Wf

/-!
# The rows of a subscription

A job belongs to the subscription that it refers to, a run to that of its job, and a key and a dead
letter to that of their run. So the tables fall into the rows of the single subscriptions
(`Db.rowsOf`).

- `Wf.parted`: every row belongs to exactly one subscription.
- `rowsOf_updateSub` and the lemmas after it: an update, on the rows of a subscription;
  `updateSub_rowsOf` and those after it: an update that finds none of them.
- `Wf.rowsOf_insertRun`, `Wf.rowsOf_insertJob`, `rowsOf_insertKey`: an insert under the constraints
  succeeds among these rows as it does in the whole tables.
-/

namespace PaymentScheduler

namespace Db

variable (db : Db) (c : UUID)

/-- The job `x` is one of the subscription `c`. -/
def hasJob (x : UUID) : Bool := (db.job? x).any fun j => j.subscriptionId = c

/-- The run `x` is one of the subscription `c`. -/
def hasRun (x : UUID) : Bool := (db.run? x).any fun r => db.hasJob c r.jobId

/-- The rows of the subscription `c`, in all tables. -/
def rowsOf : Db where
  subscriptions := db.subscriptions.filter fun b => b.id = c
  scheduledJobs := db.scheduledJobs.filter fun j => j.subscriptionId = c
  jobRuns := db.jobRuns.filter fun r => db.hasJob c r.jobId
  idempotencyKeys := db.idempotencyKeys.filter fun k => db.hasRun c k.jobRunId
  deadLetterQueue := db.deadLetterQueue.filter fun e => db.hasRun c e.jobRunId

/-- Every row belongs to exactly one subscription. -/
structure Parted (db : Db) : Prop where
  subscriptions : ∀ b ∈ db.subscriptions, ∃! c, b ∈ (db.rowsOf c).subscriptions
  scheduledJobs : ∀ j ∈ db.scheduledJobs, ∃! c, j ∈ (db.rowsOf c).scheduledJobs
  jobRuns : ∀ r ∈ db.jobRuns, ∃! c, r ∈ (db.rowsOf c).jobRuns
  idempotencyKeys : ∀ k ∈ db.idempotencyKeys, ∃! c, k ∈ (db.rowsOf c).idempotencyKeys
  deadLetterQueue : ∀ e ∈ db.deadLetterQueue, ∃! c, e ∈ (db.rowsOf c).deadLetterQueue

variable {db c} {db' : Db} {c' x i : UUID}

theorem hasJob_iff : db.hasJob c x = true ↔ ∃ j, db.job? x = some j ∧ j.subscriptionId = c := by
  simp [hasJob, Option.any_eq_true]

theorem hasRun_iff :
    db.hasRun c x = true ↔ ∃ r, db.run? x = some r ∧ db.hasJob c r.jobId = true := by
  simp [hasRun, Option.any_eq_true]

theorem hasJob_of_job? {j : ScheduledJob} (hj : db.job? x = some j) :
    db.hasJob c x = decide (j.subscriptionId = c) := by
  simp [hasJob, hj]

theorem hasRun_of_run? {r : JobRun} (hr : db.run? x = some r) :
    db.hasRun c x = db.hasJob c r.jobId := by
  simp [hasRun, hr]

/-! ## One subscription for each row -/

theorem hasJob_inj (h : db.hasJob c x = true) (h' : db.hasJob c' x = true) : c = c' := by
  obtain ⟨j, hj, rfl⟩ := hasJob_iff.mp h
  obtain ⟨j', hj', rfl⟩ := hasJob_iff.mp h'
  rw [hj] at hj'
  cases hj'
  rfl

theorem hasRun_inj (h : db.hasRun c x = true) (h' : db.hasRun c' x = true) : c = c' := by
  obtain ⟨r, hr, hj⟩ := hasRun_iff.mp h
  obtain ⟨r', hr', hj'⟩ := hasRun_iff.mp h'
  rw [hr] at hr'
  cases hr'
  exact hasJob_inj hj hj'

theorem Wf.exists_hasRun (hw : db.Wf) {r : JobRun} (hr : db.run? x = some r) :
    ∃ c, db.hasRun c x = true := by
  obtain ⟨j, hj⟩ := hw.runJob r (Table.get?_mem hr)
  exact ⟨j.subscriptionId, hasRun_iff.mpr ⟨r, hr, hasJob_iff.mpr ⟨j, hj, rfl⟩⟩⟩

theorem Wf.parted (hw : db.Wf) : db.Parted where
  subscriptions b hb := ⟨b.id, by simp [rowsOf, hb], fun c hc => by simp_all [rowsOf]⟩
  scheduledJobs j hj := ⟨j.subscriptionId, by simp [rowsOf, hj], fun c hc => by simp_all [rowsOf]⟩
  jobRuns r hr := by
    obtain ⟨c, hc⟩ := hw.exists_hasRun (hw.run?_mem.mp hr)
    rw [hasRun_of_run? (hw.run?_mem.mp hr)] at hc
    exact ⟨c, List.mem_filter.mpr ⟨hr, hc⟩, fun c' h' => hasJob_inj (List.mem_filter.mp h').2 hc⟩
  idempotencyKeys k hk := by
    obtain ⟨r, hr⟩ := hw.keyRun k hk
    obtain ⟨c, hc⟩ := hw.exists_hasRun hr
    exact ⟨c, List.mem_filter.mpr ⟨hk, hc⟩, fun c' h' => hasRun_inj (List.mem_filter.mp h').2 hc⟩
  deadLetterQueue e he := by
    obtain ⟨r, hr⟩ := hw.entryRun e he
    obtain ⟨c, hc⟩ := hw.exists_hasRun hr
    exact ⟨c, List.mem_filter.mpr ⟨he, hc⟩, fun c' h' => hasRun_inj (List.mem_filter.mp h').2 hc⟩

/-! ## Statements -/

theorem tables_ext {d d' : Db} (hb : d.subscriptions = d'.subscriptions)
    (hj : d.scheduledJobs = d'.scheduledJobs) (hr : d.jobRuns = d'.jobRuns)
    (hk : d.idempotencyKeys = d'.idempotencyKeys) (he : d.deadLetterQueue = d'.deadLetterQueue) :
    d = d' := by
  cases d
  cases d'
  simp_all

section Update

variable {b : Subscription → Subscription} {j : ScheduledJob → ScheduledJob} {p : JobRun → Bool}
  {r : JobRun → JobRun} {e : DeadLetterEntry → DeadLetterEntry}

theorem rowsOf_updateSub (hi : ∀ x, (b x).id = x.id) :
    (db.updateSub i b).rowsOf c = (db.rowsOf c).updateSub i b :=
  tables_ext (Table.filter_updateWhere_comm fun x => by rw [hi]) rfl rfl rfl rfl

theorem rowsOf_updateJob (hi : ∀ x, (j x).id = x.id)
    (hb : ∀ x, (j x).subscriptionId = x.subscriptionId) :
    (db.updateJob i j).rowsOf c = (db.rowsOf c).updateJob i j := by
  have hjob : (db.updateJob i j).hasJob c = db.hasJob c := by
    funext x
    unfold hasJob
    rw [job?_updateJob hi]
    split <;> cases db.job? x <;> simp [hb]
  have hrun : (db.updateJob i j).hasRun c = db.hasRun c := by
    unfold hasRun
    rw [hjob]
    rfl
  unfold rowsOf
  rw [hjob, hrun]
  exact tables_ext rfl (Table.filter_updateWhere_comm fun x => by rw [hb]) rfl rfl rfl

theorem rowsOf_updateRuns (hi : ∀ x, (r x).id = x.id) (hj : ∀ x, (r x).jobId = x.jobId) :
    (db.updateRuns p r).rowsOf c = (db.rowsOf c).updateRuns p r := by
  have hrun : (db.updateRuns p r).hasRun c = db.hasRun c := by
    funext x
    unfold hasRun
    rw [run?_updateRuns hi]
    cases db.run? x with
    | none => rfl
    | some y =>
      show db.hasJob c (if p y then r y else y).jobId = db.hasJob c y.jobId
      split
      · rw [hj]
      · rfl
  unfold rowsOf
  rw [hrun]
  refine tables_ext rfl rfl (Table.filter_updateWhere_comm fun x => ?_) rfl rfl
  show db.hasJob c (r x).jobId = db.hasJob c x.jobId
  rw [hj]

theorem rowsOf_updateRun (hi : ∀ x, (r x).id = x.id) (hj : ∀ x, (r x).jobId = x.jobId) :
    (db.updateRun i r).rowsOf c = (db.rowsOf c).updateRun i r :=
  rowsOf_updateRuns hi hj

theorem rowsOf_updateEntry (hr : ∀ x, (e x).jobRunId = x.jobRunId) :
    (db.updateEntry i e).rowsOf c = (db.rowsOf c).updateEntry i e := by
  refine tables_ext rfl rfl rfl rfl (Table.filter_updateWhere_comm fun x => ?_)
  show db.hasRun c (e x).jobRunId = db.hasRun c x.jobRunId
  rw [hr]

/-! An update of rows of the other subscriptions. -/

theorem updateSub_rowsOf (hi : i ≠ c) : (db.rowsOf c).updateSub i b = db.rowsOf c := by
  refine tables_ext (Table.updateWhere_of_forall fun x hx => ?_) rfl rfl rfl rfl
  have hid : x.id = c := by simpa using (List.mem_filter.mp hx).2
  simp [hid, hi.symm]

theorem Wf.updateJob_rowsOf (hw : db.Wf) (hi : db.hasJob c i = false) :
    (db.rowsOf c).updateJob i j = db.rowsOf c := by
  refine tables_ext rfl (Table.updateWhere_of_forall fun x hx => ?_) rfl rfl rfl
  obtain ⟨hx, hc⟩ := List.mem_filter.mp hx
  refine decide_eq_false fun hid => ?_
  rw [← hid, hasJob_of_job? (hw.job?_mem.mp hx), hc] at hi
  cases hi

theorem updateRuns_rowsOf (hp : ∀ x, p x = true → db.hasJob c x.jobId = false) :
    (db.rowsOf c).updateRuns p r = db.rowsOf c := by
  refine tables_ext rfl rfl (Table.updateWhere_of_forall fun x hx => ?_) rfl rfl
  have hc : db.hasJob c x.jobId = true := (List.mem_filter.mp hx).2
  by_contra hx'
  rw [hp x (by simpa using hx')] at hc
  cases hc

theorem Wf.updateRun_rowsOf (hw : db.Wf) (hi : db.hasRun c i = false) :
    (db.rowsOf c).updateRun i r = db.rowsOf c := by
  refine tables_ext rfl rfl (Table.updateWhere_of_forall fun x hx => ?_) rfl rfl
  obtain ⟨hx, hc⟩ := List.mem_filter.mp hx
  refine decide_eq_false fun hid => ?_
  rw [← hid, hasRun_of_run? (hw.run?_mem.mp hx), hc] at hi
  cases hi

theorem updateEntry_rowsOf (hu : Table.Unique (·.id) db.deadLetterQueue)
    (hi : (db.entry? i).any (fun x => db.hasRun c x.jobRunId) = false) :
    (db.rowsOf c).updateEntry i e = db.rowsOf c := by
  refine tables_ext rfl rfl rfl rfl (Table.updateWhere_of_forall fun x hx => ?_)
  obtain ⟨hx, hc⟩ := List.mem_filter.mp hx
  refine decide_eq_false fun hid => ?_
  have hrow : db.entry? i = some x := by
    rw [← hid]
    exact Table.get?_of_mem hu hx
  rw [hrow, Option.any_some, hc] at hi
  cases hi

end Update

section Insert

variable {b : Subscription} {j : ScheduledJob} {r : JobRun} {k : IdempotencyKeyRecord}
  {e : DeadLetterEntry}

theorem rowsOf_addSub : (db.addSub b).rowsOf c =
    if b.id = c then (db.rowsOf c).addSub b else db.rowsOf c := by
  by_cases hc : b.id = c
  · rw [if_pos hc]
    exact tables_ext (Table.filter_append_pos (decide_eq_true hc)) rfl rfl rfl rfl
  · rw [if_neg hc]
    exact tables_ext (Table.filter_append_neg (by simpa using hc)) rfl rfl rfl rfl

/-- The keys and the dead letters belong to runs that exist. -/
theorem Wf.filter_hasRun (hw : db.Wf) {q : UUID → Bool}
    (hq : ∀ {x y}, db.run? x = some y → q x = db.hasRun c x) :
    db.idempotencyKeys.filter (fun k => q k.jobRunId) = (db.rowsOf c).idempotencyKeys ∧
      db.deadLetterQueue.filter (fun e => q e.jobRunId) = (db.rowsOf c).deadLetterQueue := by
  constructor
  · refine List.filter_congr fun k hk => ?_
    obtain ⟨y, hy⟩ := hw.keyRun k hk
    exact hq hy
  · refine List.filter_congr fun e he => ?_
    obtain ⟨y, hy⟩ := hw.entryRun e he
    exact hq hy

/-- A new job has no runs. -/
theorem Wf.hasJob_addJob (hw : db.Wf) : ∀ r ∈ db.jobRuns,
    (db.addJob j).hasJob c r.jobId = db.hasJob c r.jobId := by
  intro r hr
  obtain ⟨j₀, hj₀⟩ := hw.runJob r hr
  rw [hasJob_of_job? hj₀, hasJob_of_job? (by rw [job?_addJob, hj₀]; rfl)]

theorem Wf.rowsOf_addJob (hw : db.Wf) : (db.addJob j).rowsOf c =
    if j.subscriptionId = c then (db.rowsOf c).addJob j else db.rowsOf c := by
  have hrun : ∀ {x y}, db.run? x = some y → (db.addJob j).hasRun c x = db.hasRun c x := by
    intro x y hy
    rw [hasRun_of_run? hy, ← hw.hasJob_addJob (j := j) y (Table.get?_mem hy)]
    exact hasRun_of_run? hy
  have hruns : db.jobRuns.filter (fun r => (db.addJob j).hasJob c r.jobId) =
      db.jobRuns.filter fun r => db.hasJob c r.jobId := List.filter_congr hw.hasJob_addJob
  obtain ⟨hkeys, hdlq⟩ := hw.filter_hasRun hrun
  by_cases hc : j.subscriptionId = c
  · rw [if_pos hc]
    exact tables_ext rfl (Table.filter_append_pos (decide_eq_true hc)) hruns hkeys hdlq
  · rw [if_neg hc]
    exact tables_ext rfl (Table.filter_append_neg (by simpa using hc)) hruns hkeys hdlq

theorem Wf.rowsOf_addRun (hw : db.Wf) : (db.addRun r).rowsOf c =
    if db.hasJob c r.jobId then (db.rowsOf c).addRun r else db.rowsOf c := by
  -- A new run has neither keys nor dead letters.
  have hrun : ∀ {x y}, db.run? x = some y → (db.addRun r).hasRun c x = db.hasRun c x := by
    intro x y hy
    rw [hasRun_of_run? hy]
    exact hasRun_of_run? (by rw [run?_addRun, hy]; rfl)
  obtain ⟨hkeys, hdlq⟩ := hw.filter_hasRun hrun
  by_cases hc : db.hasJob c r.jobId = true
  · rw [if_pos hc]
    exact tables_ext rfl rfl (Table.filter_append_pos hc) hkeys hdlq
  · rw [if_neg hc]
    exact tables_ext rfl rfl (Table.filter_append_neg hc) hkeys hdlq

theorem rowsOf_addKey : (db.addKey k).rowsOf c =
    if db.hasRun c k.jobRunId then (db.rowsOf c).addKey k else db.rowsOf c := by
  by_cases hc : db.hasRun c k.jobRunId = true
  · rw [if_pos hc]
    exact tables_ext rfl rfl rfl (Table.filter_append_pos hc) rfl
  · rw [if_neg hc]
    exact tables_ext rfl rfl rfl (Table.filter_append_neg hc) rfl

theorem rowsOf_addEntry : (db.addEntry e).rowsOf c =
    if db.hasRun c e.jobRunId then (db.rowsOf c).addEntry e else db.rowsOf c := by
  by_cases hc : db.hasRun c e.jobRunId = true
  · rw [if_pos hc]
    exact tables_ext rfl rfl rfl rfl (Table.filter_append_pos hc)
  · rw [if_neg hc]
    exact tables_ext rfl rfl rfl rfl (Table.filter_append_neg hc)

/-- A job that is inserted. -/
theorem hasJob_addJob_self (h : db.insertJob j = some (true, db.addJob j)) :
    (db.addJob j).hasJob c j.id = decide (j.subscriptionId = c) := by
  obtain ⟨h', -⟩ | ⟨-, -, -, -, hj, -⟩ := insertJob_cases h
  · cases h'
  · exact hasJob_of_job? (by rw [job?_addJob, hj, if_pos rfl]; rfl)

theorem sub?_rowsOf (hb : db.sub? c = some b) : (db.rowsOf c).sub? c = some b :=
  Table.get?_filter_of_some hb (decide_eq_true (sub?_id hb))

theorem job?_rowsOf (h : db.job? x = some j) (hc : db.hasJob c x = true) :
    (db.rowsOf c).job? x = some j :=
  Table.get?_filter_of_some h (by rwa [hasJob_of_job? h] at hc)

theorem run?_rowsOf (h : db.run? x = some r) (hc : db.hasRun c x = true) :
    (db.rowsOf c).run? x = some r :=
  Table.get?_filter_of_some h (by rwa [hasRun_of_run? h] at hc)

/-- The insert of a run, among the rows of its subscription. -/
theorem Wf.rowsOf_insertRun (hw : db.Wf) (hc : db.hasJob c r.jobId = true)
    (h : db.insertRun r = some db') : (db.rowsOf c).insertRun r = some (db'.rowsOf c) := by
  obtain ⟨rfl, r₀, hr₀, hj, ha⟩ | ⟨rfl, hnone, hr, j, hjob⟩ := insertRun_cases h
  · rw [Db.insertRun, if_pos]
    refine List.any_eq_true.mpr ⟨r₀, List.mem_filter.mpr ⟨hr₀, by rwa [hj]⟩, ?_⟩
    simp [sameAttempt, hj, ha]
  · rw [hw.rowsOf_addRun, if_pos hc, Db.insertRun, if_neg, if_neg]
    · have hr' : (db.rowsOf c).run? r.id = none := Table.get?_filter_of_none hr
      simp [hr', job?_rowsOf hjob hc]
    · simp only [List.any_eq_true, sameAttempt, decide_eq_true_eq, not_exists, not_and]
      exact fun r₀ hr₀ hj ha => hnone r₀ (List.mem_filter.mp hr₀).1 hj.symm ha.symm

theorem Wf.rowsOf_insertRun_of_not (hw : db.Wf) (hc : db.hasJob c r.jobId = false)
    (h : db.insertRun r = some db') : db'.rowsOf c = db.rowsOf c := by
  obtain ⟨rfl, -⟩ | ⟨rfl, -⟩ := insertRun_cases h
  · rfl
  · rw [hw.rowsOf_addRun, if_neg (by simp [hc])]

/-- The insert of a job, among the rows of its subscription, where the others have other
fingerprints. -/
theorem Wf.rowsOf_insertJob (hw : db.Wf) (hc : j.subscriptionId = c) {ok : Bool}
    (hf : ∀ j₀ ∈ db.scheduledJobs, j₀.fingerprint = j.fingerprint → j₀.subscriptionId = c)
    (h : db.insertJob j = some (ok, db')) :
    (db.rowsOf c).insertJob j = some (ok, db'.rowsOf c) := by
  subst hc
  obtain ⟨rfl, rfl, j₀, hj₀, he⟩ | ⟨rfl, rfl, hnone, hwin, hj, b, hb⟩ := insertJob_cases h
  · rw [Db.insertJob, if_pos]
    exact List.any_eq_true.mpr
      ⟨j₀, List.mem_filter.mpr ⟨hj₀, decide_eq_true (hf j₀ hj₀ he)⟩, decide_eq_true he⟩
  · rw [hw.rowsOf_addJob, if_pos rfl, Db.insertJob, if_neg, if_neg]
    · have hj' : (db.rowsOf j.subscriptionId).job? j.id = none := Table.get?_filter_of_none hj
      simp only [hj', sub?_rowsOf hb, Option.isSome_none, Bool.false_eq_true, false_or, not_or,
        List.any_eq_true, sameWindow, decide_eq_true_eq, not_exists, not_and]
      refine ⟨fun j₀ hj₀ hs ht => hwin j₀ (List.mem_filter.mp hj₀).1 ⟨hs.symm, ht.symm⟩, ?_⟩
      simp
    · simp only [List.any_eq_true, decide_eq_true_eq, not_exists, not_and]
      exact fun j₀ hj₀ => hnone j₀ (List.mem_filter.mp hj₀).1

/-- The insert of a key, among the rows of the subscription of its run. -/
theorem rowsOf_insertKey (hc : db.hasRun c k.jobRunId = true) {ok : Bool}
    (h : db.insertKey k = some (ok, db')) :
    (db.rowsOf c).insertKey k = some (ok, db'.rowsOf c) := by
  unfold insertKey at h
  split at h
  · rename_i hs
    cases h
    obtain ⟨k₀, hk₀⟩ := Option.isSome_iff_exists.mp hs
    have hrun : k₀.jobRunId = k.jobRunId := congrArg Prod.fst (Table.get?_key hk₀)
    have hrow : (db.rowsOf c).key? k.jobRunId k.attempt = some k₀ := by
      refine Table.get?_filter_of_some hk₀ ?_
      rwa [hrun]
    rw [insertKey, hrow]
    rfl
  · rename_i hs
    split at h
    · cases h
    · rename_i hn
      cases h
      have hnone : db.key? k.jobRunId k.attempt = none := by simpa using hs
      have hk : (db.rowsOf c).key? k.jobRunId k.attempt = none :=
        Table.get?_filter_of_none hnone
      rw [rowsOf_addKey, if_pos hc, insertKey, hk, if_neg (by simp), if_neg]
      simp only [not_or, List.any_eq_true, decide_eq_true_eq, not_exists, not_and] at hn ⊢
      refine ⟨fun a ha => hn.1 a (List.mem_filter.mp ha).1, ?_⟩
      obtain ⟨r, hr, -⟩ := hasRun_iff.mp hc
      simp [run?_rowsOf hr hc]

end Insert

end Db

end PaymentScheduler
