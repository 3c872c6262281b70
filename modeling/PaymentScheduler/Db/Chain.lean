import Mathlib
import PaymentScheduler.Db.Guard

/-!
# The attempts of a job

Two workers insert the next attempt of a job, one of them in a transaction of its own, and either
may come late. `Db.Chain`: the attempts of a job are numbered from 1 without a gap, and only the
last one may be PENDING or RUNNING. It holds because a next attempt is inserted after a run that is
neither (`Guard.next`), and because an attempt that exists is not inserted again.

- `Db.Grows`: a scheduler inserts a job with its first run.
- `Chain.step`: a transaction keeps the numbering.
- `Latest.step`: the last attempt after a transaction.
- `Chain.attempts_perm`: the numbers of the attempts of a job.
-/

namespace PaymentScheduler

namespace Db

/-- From `d` to `d'` rows are inserted only, and each job with its first run. -/
structure Grows (d d' : Db) : Prop where
  runs : ∀ {x r}, d.run? x = some r → d'.run? x = some r
  jobs : ∀ {x j}, d.job? x = some j → d'.job? x = some j
  newRun : ∀ {x r}, d.run? x = none → d'.run? x = some r →
    r.attempt = 1 ∧ d.job? r.jobId = none
  newJob : ∀ {x j}, d.job? x = none → d'.job? x = some j →
    ∃ y r, d'.run? y = some r ∧ r.jobId = x ∧ r.attempt = 1

variable {db db' : Db} {x : UUID} {r : JobRun}

theorem Grows.of_eq (hr : ∀ {x}, db'.run? x = db.run? x) (hj : ∀ {x}, db'.job? x = db.job? x) :
    Grows db db' := by
  constructor
  · intro x r h
    rw [hr, h]
  · intro x j h
    rw [hj, h]
  · intro x r hn h
    rw [hr, hn] at h
    cases h
  · intro x j hn h
    rw [hj, hn] at h
    cases h

theorem Grows.trans {a b c : Db} (h₁ : Grows a b) (h₂ : Grows b c) : Grows a c := by
  constructor
  · exact fun h => h₂.runs (h₁.runs h)
  · exact fun h => h₂.jobs (h₁.jobs h)
  · intro x r hn h
    cases hb : b.run? x with
    | some r' =>
      have := h₂.runs hb
      rw [h] at this
      cases this
      exact h₁.newRun hn hb
    | none =>
      obtain ⟨ha, hj⟩ := h₂.newRun hb h
      refine ⟨ha, ?_⟩
      cases hj' : a.job? r.jobId with
      | none => rfl
      | some j =>
        rw [h₁.jobs hj'] at hj
        cases hj
  · intro x j hn h
    cases hb : b.job? x with
    | some j' =>
      obtain ⟨y, r, hr, hj, ha⟩ := h₁.newJob hn hb
      exact ⟨y, r, h₂.runs hr, hj, ha⟩
    | none => exact h₂.newJob hb h

/-- A new job and its first run. -/
theorem Grows.insert (hw : db.Wf) {j : ScheduledJob} {runId : UUID}
    (hj : db.insertJob j = some (true, db.addJob j))
    (hr : (db.addJob j).insertRun (firstRun j runId) = some db') : Grows db db' := by
  have hnew : db.job? j.id = none := by
    obtain ⟨hf, -⟩ | ⟨-, -, -, -, hn, -⟩ := insertJob_cases hj
    · cases hf
    · exact hn
  constructor
  · exact fun h => insertRun_keep hr h
  · intro y j₀ h
    rw [insertRun_job? hr]
    exact addJob_keep h
  · intro y r hn h
    rw [insertRun_new hr hn h]
    exact ⟨rfl, hnew⟩
  · intro y j₀ hn h
    rw [insertRun_job? hr] at h
    have hid := job?_id h
    rw [addJob_new hn h] at hid
    obtain ⟨z, r, hz, hzj, hza⟩ := insertRun_exists (hw.insertJob hj) hr
    exact ⟨z, r, hz, hzj.trans hid, hza⟩

theorem Grows.schedule (hw : db.Wf) {ws : List WindowWrite} (h : db.schedule ws = some db') :
    Grows db db' := by
  induction ws generalizing db with
  | nil =>
    cases h
    exact .of_eq rfl rfl
  | cons w ws ih =>
    obtain ⟨db₁, h₁, h⟩ := Option.bind_eq_some_iff.mp h
    refine .trans ?_ (ih (hw.createJobForSubscription h₁) h)
    obtain ⟨db₂, rfl, ⟨rfl, -⟩ | ⟨hj, hr⟩⟩ := createJobForSubscription_cases h₁
    · exact .of_eq rfl rfl
    · exact (Grows.insert hw hj hr).trans (.of_eq rfl rfl)

end Db

namespace Txn

variable {db db' : Db} {t : Txn} {x : UUID} {r : JobRun}

/-- The next attempt that a transaction inserts, if the attempt does not exist. -/
def next? : Txn → Option JobRun
  | scheduleRetry _ _ _ next => some next
  | insertAttempt next => some next
  | _ => none

theorem grows_of_newJob (hw : db.Wf) (h : t.apply db = some db') {j : ScheduledJob}
    (hj : j ∈ t.newJobs) : Db.Grows db db' := by
  cases t with
  | schedule ws => exact .schedule hw h
  | produce j' runId =>
    obtain ⟨h₁, h₂⟩ := Db.produce_cases h
    exact .insert hw h₁ h₂
  | _ => cases hj

/-- An inserted run is the next attempt, or the first run of a new job. -/
theorem newRun_cases (hw : db.Wf) (h : t.apply db = some db') (hx : db.run? x = none)
    (hr : db'.run? x = some r) :
    (t.next? = some r ∧ t.newRuns = [r]) ∨ (r.attempt = 1 ∧ db.job? r.jobId = none) := by
  have hnew := run?_new h hx hr
  cases t with
  | scheduleRetry run error now next =>
    rw [List.mem_singleton.mp hnew]
    exact .inl ⟨rfl, rfl⟩
  | insertAttempt next =>
    rw [List.mem_singleton.mp hnew]
    exact .inl ⟨rfl, rfl⟩
  | schedule ws => exact .inr ((Db.Grows.schedule hw h).newRun hx hr)
  | produce j runId =>
    obtain ⟨h₁, h₂⟩ := Db.produce_cases h
    exact .inr ((Db.Grows.insert hw h₁ h₂).newRun hx hr)
  | _ => cases hnew

/-- A next attempt is inserted after a run that is not PENDING or RUNNING any more. -/
theorem Guard.next (hg : t.Guard db) (hn : t.next? = some r) :
    ∃ y r₀, db.run? y = some r₀ ∧ r₀.Next r ∧ (t.setRun db r₀).status.isLive = false := by
  cases t with
  | scheduleRetry run error now next =>
    cases hn
    obtain ⟨-, r₀, hr₀, hnext⟩ := hg
    refine ⟨run, r₀, hr₀, hnext, ?_⟩
    rw [setRun, if_pos (Db.run?_id hr₀)]
    rfl
  | insertAttempt next =>
    cases hn
    obtain ⟨y, r₀, hr₀, hl, hnext⟩ := hg
    exact ⟨y, r₀, hr₀, hnext, hl⟩
  | _ => cases hn

/-- The next attempt is there after the transaction. -/
theorem next_exists (hw : db.Wf) (h : t.apply db = some db') (hn : t.next? = some r) :
    ∃ y r', db'.run? y = some r' ∧ r'.jobId = r.jobId ∧ r'.attempt = r.attempt := by
  cases t with
  | scheduleRetry run error now next =>
    cases hn
    refine Db.insertRun_exists ?_ h
    exact Db.Wf.updateRun hw (fun _ => rfl) (fun _ => rfl) fun _ => rfl
  | insertAttempt next =>
    cases hn
    exact Db.insertRun_exists hw h
  | _ => cases hn

/-- An inserted run is the only one of its job and attempt. -/
theorem newRun_fresh (hw : db.Wf) (h : t.apply db = some db') (hx : db.run? x = none)
    (hr : db'.run? x = some r) {y : UUID} {r₀ : JobRun} (hr₀ : db.run? y = some r₀)
    (hj : r₀.jobId = r.jobId) : r₀.attempt ≠ r.attempt := by
  intro ha
  have hset := run?_set h hr₀
  have hyx : y = x := by
    refine (Txn.wf hw h).run_unique hset hr ?_ ?_
    · rw [setRun_jobId, hj]
    · rw [setRun_attempt, ha]
  rw [hyx, hx] at hr₀
  cases hr₀

end Txn

namespace Db

/-- The attempts of each job are numbered from 1 without a gap, and only the last one may be
PENDING or RUNNING. -/
structure Chain (db : Db) : Prop where
  pos : ∀ {x r}, db.run? x = some r → 1 ≤ r.attempt
  prev : ∀ {x r}, db.run? x = some r → 1 < r.attempt →
    ∃ y r', db.run? y = some r' ∧ r'.jobId = r.jobId ∧ r'.attempt + 1 = r.attempt
  first : ∀ {j job}, db.job? j = some job → ∃ x r, db.run? x = some r ∧ r.jobId = j ∧ r.attempt = 1
  last : ∀ {x y r r'}, db.run? x = some r → r.status.isLive = true → db.run? y = some r' →
    r'.jobId = r.jobId → r'.attempt ≤ r.attempt

variable {db db' : Db} {t : Txn} {x : UUID} {r : JobRun}

theorem Chain.empty : Chain {} := by
  constructor
  · intro x r h
    cases h
  · intro x r h
    cases h
  · intro j job h
    cases h
  · intro x y r r' h
    cases h

/-- Every number up to that of a run is the number of a run of the job. -/
theorem Chain.downward (hc : db.Chain) (hr : db.run? x = some r) {n : Int} (h1 : 1 ≤ n)
    (hn : n ≤ r.attempt) : ∃ y r', db.run? y = some r' ∧ r'.jobId = r.jobId ∧ r'.attempt = n := by
  obtain ⟨d, hd⟩ : ∃ d : Nat, r.attempt = n + d := ⟨(r.attempt - n).toNat, by omega⟩
  induction d generalizing x r with
  | zero => exact ⟨x, r, hr, rfl, by omega⟩
  | succ d ih =>
    obtain ⟨y, r₁, hr₁, hj₁, ha₁⟩ := hc.prev hr (by omega)
    obtain ⟨z, r₂, hr₂, hj₂, ha₂⟩ := ih hr₁ (by omega) (by omega)
    exact ⟨z, r₂, hr₂, hj₂.trans hj₁, ha₂⟩

/-- The next attempt that a transaction really inserts comes after all others. -/
theorem Chain.newRun_last (hc : db.Chain) (hw : db.Wf) (hg : t.Guard db)
    (h : t.apply db = some db') (hx : db.run? x = none) (hr : db'.run? x = some r)
    (hn : t.next? = some r) {y : UUID} {r₀ : JobRun} (hr₀ : db.run? y = some r₀)
    (hj : r₀.jobId = r.jobId) : r₀.attempt < r.attempt := by
  obtain ⟨z, r₁, hr₁, ⟨hj₁, ha₁, -⟩, -⟩ := hg.next hn
  have hpos := hc.pos hr₁
  by_contra hle
  obtain ⟨u, r₂, hr₂, hj₂, ha₂⟩ := hc.downward hr₀ (n := r.attempt) (by omega) (by omega)
  exact Txn.newRun_fresh hw h hx hr hr₂ (hj₂.trans hj) ha₂

theorem Chain.step (hc : db.Chain) (hw : db.Wf) (hg : t.Guard db) (h : t.apply db = some db') :
    db'.Chain := by
  -- The job of an inserted first run has no run of before.
  have hfirst : ∀ {j : UUID} {y r₀}, db.job? j = none → db.run? y = some r₀ → r₀.jobId ≠ j := by
    rintro _ y r₀ hnone hr₀ rfl
    obtain ⟨j, hj⟩ := hw.runJob r₀ (Table.get?_mem hr₀)
    rw [hnone] at hj
    cases hj
  constructor
  · intro x r' hr'
    obtain ⟨r, hr, rfl⟩ | ⟨hx, -⟩ := Txn.run?_cases h hr'
    · rw [Txn.setRun_attempt]
      exact hc.pos hr
    · obtain ⟨hn, -⟩ | ⟨h1, -⟩ := Txn.newRun_cases hw h hx hr'
      · obtain ⟨y, r₀, hr₀, ⟨-, ha, -⟩, -⟩ := hg.next hn
        have := hc.pos hr₀
        omega
      · omega
  · intro x r' hr' h1
    obtain ⟨r, hr, rfl⟩ | ⟨hx, -⟩ := Txn.run?_cases h hr'
    · rw [Txn.setRun_attempt] at h1 ⊢
      obtain ⟨y, r₀, hr₀, hj, ha⟩ := hc.prev hr h1
      refine ⟨y, _, Txn.run?_set h hr₀, ?_, ?_⟩
      · rw [Txn.setRun_jobId, Txn.setRun_jobId, hj]
      · rw [Txn.setRun_attempt, ha]
    · obtain ⟨hn, -⟩ | ⟨h1', -⟩ := Txn.newRun_cases hw h hx hr'
      · obtain ⟨y, r₀, hr₀, ⟨hj, ha, -⟩, -⟩ := hg.next hn
        refine ⟨y, _, Txn.run?_set h hr₀, ?_, ?_⟩
        · rw [Txn.setRun_jobId, hj]
        · rw [Txn.setRun_attempt, ha]
      · omega
  · intro j job' hj'
    obtain ⟨job, hj, -⟩ | ⟨hnone, hnew⟩ := Txn.job?_cases h hj'
    · obtain ⟨x, r, hr, hrj, ha⟩ := hc.first hj
      refine ⟨x, _, Txn.run?_set h hr, ?_, ?_⟩
      · rw [Txn.setRun_jobId, hrj]
      · rw [Txn.setRun_attempt, ha]
    · exact (Txn.grows_of_newJob hw h hnew).newJob hnone hj'
  · intro x y r₁ r₂ hr₁ hlive hr₂ hj
    obtain ⟨r, hr, rfl⟩ | ⟨hx, -⟩ := Txn.run?_cases h hr₁
    · have hlive₀ : r.status.isLive = true := by
        by_contra hl
        rw [hg.setRun_isLive hr (by simpa using hl)] at hlive
        cases hlive
      rw [Txn.setRun_jobId] at hj
      rw [Txn.setRun_attempt]
      obtain ⟨r', hr', rfl⟩ | ⟨hy, -⟩ := Txn.run?_cases h hr₂
      · rw [Txn.setRun_jobId] at hj
        rw [Txn.setRun_attempt]
        exact hc.last hr hlive₀ hr' hj
      · obtain ⟨hn, -⟩ | ⟨-, hnone⟩ := Txn.newRun_cases hw h hy hr₂
        · -- Before the next attempt there is a run that is not live, so not `r`.
          obtain ⟨z, r₀, hr₀, ⟨hj₀, ha₀, -⟩, hl₀⟩ := hg.next hn
          have hle := hc.last hr hlive₀ hr₀ (hj₀.symm.trans hj)
          have hne : r₀.attempt ≠ r.attempt := by
            intro ha
            have hzx := hw.run_unique hr₀ hr (hj₀.symm.trans hj) ha
            rw [hzx, hr] at hr₀
            cases hr₀
            rw [hl₀] at hlive
            cases hlive
          omega
        · exact absurd hj.symm (hfirst hnone hr)
    · obtain ⟨hn, hone⟩ | ⟨h1, hnone⟩ := Txn.newRun_cases hw h hx hr₁
      · obtain ⟨r', hr', rfl⟩ | ⟨-, hnew⟩ := Txn.run?_cases h hr₂
        · rw [Txn.setRun_jobId] at hj
          rw [Txn.setRun_attempt]
          have := hc.newRun_last hw hg h hx hr₁ hn hr' hj
          omega
        · rw [hone] at hnew
          rw [List.mem_singleton.mp hnew]
      · obtain ⟨r', hr', rfl⟩ | ⟨hy, -⟩ := Txn.run?_cases h hr₂
        · rw [Txn.setRun_jobId] at hj
          exact absurd hj (hfirst hnone hr')
        · obtain ⟨hn, hone⟩ | ⟨h1', -⟩ := Txn.newRun_cases hw h hy hr₂
          · have := Txn.run?_new h hx hr₁
            rw [hone] at this
            rw [List.mem_singleton.mp this]
          · omega

/-! ## The last attempt -/

/-- `r` is the last attempt of its job. -/
def Latest (db : Db) (x : UUID) (r : JobRun) : Prop :=
  db.run? x = some r ∧ ∀ y r', db.run? y = some r' → r'.jobId = r.jobId → r'.attempt ≤ r.attempt

theorem Latest.unique (hw : db.Wf) {y : UUID} {r' : JobRun} (hx : db.Latest x r)
    (hy : db.Latest y r') (hj : r.jobId = r'.jobId) : x = y := by
  have h₁ := hx.2 y r' hy.1 hj.symm
  have h₂ := hy.2 x r hx.1 hj
  exact hw.run_unique hx.1 hy.1 hj (by omega)

/-- After a transaction the last attempt is the same one, or the inserted next one. -/
theorem Latest.step (hl : db.Latest x r) (hc : db.Chain) (hw : db.Wf) (hg : t.Guard db)
    (h : t.apply db = some db') :
    db'.Latest x (t.setRun db r) ∨
      ∃ y r', t.next? = some r' ∧ db.run? y = none ∧ db'.Latest y r' ∧ r'.jobId = r.jobId := by
  by_cases hnew : ∃ y r', db.run? y = none ∧ db'.run? y = some r' ∧ r'.jobId = r.jobId
  · obtain ⟨y, r', hy, hr', hj⟩ := hnew
    obtain ⟨hn, hone⟩ | ⟨-, hnone⟩ := Txn.newRun_cases hw h hy hr'
    · refine .inr ⟨y, r', hn, hy, ⟨hr', fun z r₂ hr₂ hj₂ => ?_⟩, hj⟩
      obtain ⟨r₀, hr₀, rfl⟩ | ⟨-, hz⟩ := Txn.run?_cases h hr₂
      · rw [Txn.setRun_jobId] at hj₂
        rw [Txn.setRun_attempt]
        have := hc.newRun_last hw hg h hy hr' hn hr₀ hj₂
        omega
      · rw [hone] at hz
        rw [List.mem_singleton.mp hz]
    · obtain ⟨j, hjob⟩ := hw.runJob r (Table.get?_mem hl.1)
      rw [← hj, hnone] at hjob
      cases hjob
  · refine .inl ⟨Txn.run?_set h hl.1, fun z r₂ hr₂ hj₂ => ?_⟩
    rw [Txn.setRun_jobId] at hj₂
    rw [Txn.setRun_attempt]
    obtain ⟨r₀, hr₀, rfl⟩ | ⟨hz, -⟩ := Txn.run?_cases h hr₂
    · rw [Txn.setRun_jobId] at hj₂
      rw [Txn.setRun_attempt]
      exact hl.2 z r₀ hr₀ hj₂
    · exact absurd ⟨z, r₂, hz, hr₂, hj₂⟩ hnew

/-! ## The numbers of a job -/

/-- The attempt numbers of the runs of a job. -/
def attempts (db : Db) (j : UUID) : List Int :=
  (db.jobRuns.filter fun r => r.jobId = j).map (·.attempt)

theorem Wf.mem_attempts (hw : db.Wf) {j : UUID} {n : Int} :
    n ∈ db.attempts j ↔ ∃ x r, db.run? x = some r ∧ r.jobId = j ∧ r.attempt = n := by
  simp only [Db.attempts, List.mem_map, List.mem_filter, decide_eq_true_eq]
  constructor
  · rintro ⟨r, ⟨hr, hj⟩, ha⟩
    exact ⟨r.id, r, hw.run?_mem.mp hr, hj, ha⟩
  · rintro ⟨x, r, hr, hj, ha⟩
    exact ⟨r, ⟨Table.get?_mem hr, hj⟩, ha⟩

theorem Wf.attempts_nodup (hw : db.Wf) (j : UUID) : (db.attempts j).Nodup := by
  have hrows : db.jobRuns.Nodup := List.Nodup.of_map _ hw.runIds
  unfold Db.attempts
  refine List.Nodup.map_on (fun r hr r' hr' ha => ?_) (hrows.filter _)
  simp only [List.mem_filter, decide_eq_true_eq] at hr hr'
  refine List.inj_on_of_nodup_map hw.attempts hr.1 hr'.1 ?_
  simp [hr.2, hr'.2, ha]

/-- A job has a last attempt. -/
theorem Chain.exists_latest (hc : db.Chain) (hw : db.Wf) {j : UUID} {job : ScheduledJob}
    (hj : db.job? j = some job) : ∃ x r, db.Latest x r ∧ r.jobId = j := by
  obtain ⟨x₁, r₁, hr₁, hj₁, -⟩ := hc.first hj
  have hne : (db.attempts j).toFinset.Nonempty :=
    ⟨r₁.attempt, List.mem_toFinset.mpr (hw.mem_attempts.mpr ⟨x₁, r₁, hr₁, hj₁, rfl⟩)⟩
  obtain ⟨n, hn, hmax⟩ := Finset.exists_max_image _ id hne
  obtain ⟨x, r, hr, hrj, rfl⟩ := hw.mem_attempts.mp (List.mem_toFinset.mp hn)
  refine ⟨x, r, ⟨hr, fun y r' hr' hj' => ?_⟩, hrj⟩
  exact hmax _ (List.mem_toFinset.mpr (hw.mem_attempts.mpr ⟨y, r', hr', hj'.trans hrj, rfl⟩))

/-- The attempts up to the last one are exactly 1, …, k. -/
theorem Chain.attempts_perm (hc : db.Chain) (hw : db.Wf) (hl : db.Latest x r) :
    (db.attempts r.jobId).Perm ((List.range r.attempt.toNat).map fun i : Nat => (i : Int) + 1) := by
  have hinj : Function.Injective fun i : Nat => (i : Int) + 1 := by
    intro a b hab
    dsimp only at hab
    omega
  refine (List.perm_ext_iff_of_nodup (hw.attempts_nodup _) ?_).mpr fun n => ?_
  · exact List.nodup_range.map hinj
  · rw [hw.mem_attempts]
    simp only [List.mem_map, List.mem_range]
    constructor
    · rintro ⟨y, r', hr', hj, rfl⟩
      have h1 := hc.pos hr'
      have hle := hl.2 y r' hr' hj
      exact ⟨(r'.attempt - 1).toNat, by omega, by omega⟩
    · rintro ⟨i, hi, rfl⟩
      exact hc.downward hl.1 (by omega) (by omega)

end Db

end PaymentScheduler
