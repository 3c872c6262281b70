import Mathlib
import PaymentScheduler.System.Attempts
import PaymentScheduler.Db.Windows

/-!
# One job for each window

A scheduler locks the subscriptions that it has selected until it commits, so they are still ACTIVE,
with the same `next_fire_at`, when its jobs are inserted (`Scheduler.Phase.Ok`); no two schedulers
lock the same row. The leadership of a scheduler plays no part in it.

- `step_unlocked`: no step writes a subscription that another scheduler has locked.
- `Locking.step`: the locks; `Locking.write_row`: what a batch is for.
- `Scheduled.step`: the invariant.
- `one_job_per_window`: what is created, that no window has two jobs, and that a tick does not end
  on a duplicate, in every run of the system without other producers.
-/

namespace PaymentScheduler

/-- The action of another producer. -/
def Action.produces : Action → Bool
  | produce .. => true
  | _ => false

theorem Txn.newJobs_of_works {t : Txn} (h : t.works = true) : t.newJobs = [] := by
  cases t <;> first | rfl | cases h

namespace Scheduler

/-- What an open transaction has selected is still there, and what it is going to write is for
it. -/
def Phase.Ok (env : Env) (db : Db) : Phase → Prop
  | opened _ _ todo writes =>
    (∀ b ∈ todo, db.sub? b.id = some b ∧ b.status = .active) ∧
    ∀ w ∈ writes, ∃ b, db.sub? w.subscriptionId = some b ∧ b.status = .active ∧
      b.nextFireAt = some w.scheduledFor ∧
      w.fingerprint = JobFingerprint.forJob env w.subscriptionId w.scheduledFor
  | _ => True

variable {env : Env} {db db' : Db} {now : Time} {st st' : State} {a : Action} {t : Option Txn}

theorem Phase.Ok.keep {p : Phase} (hp : p.Ok env db)
    (h : ∀ i ∈ held p, ∀ b, db.sub? i = some b → db'.sub? i = some b) : p.Ok env db' := by
  cases p with
  | opened epoch since todo writes =>
    obtain ⟨htodo, hwrites⟩ := hp
    refine ⟨fun b hb => ⟨?_, (htodo b hb).2⟩, fun w hw => ?_⟩
    · exact h b.id (List.mem_append_left _ (List.mem_map_of_mem hb)) b (htodo b hb).1
    · obtain ⟨b, hsub, hrest⟩ := hwrites w hw
      exact ⟨b, h w.subscriptionId (List.mem_append_right _ (List.mem_map_of_mem hw)) b hsub, hrest⟩
  | _ => trivial

/-- A step of a scheduler, on the rows that it finds: it commits all its writes, or none. -/
theorem step_ok (hw : db.Wf) (hp : st.Ok env db) (h : step env db now st a = some (st', t)) :
    (t = none ∧ st'.Ok env db) ∨
      ∃ epoch since ws, st = .opened epoch since [] ws ∧ t = some (.schedule ws) ∧ st' = .idle := by
  cases step_move h with
  | start => exact .inl ⟨rfl, trivial⟩
  | select hs =>
    refine .inl ⟨rfl, fun b hb => ?_, nofun⟩
    obtain ⟨hmem, hdue⟩ := Table.mem_select hw.subIds hs hb
    simp only [decide_eq_true_eq] at hdue
    exact ⟨hw.sub?_mem.mp hmem, hdue.1⟩
  | @process epoch since b todo writes jobId runId =>
    obtain ⟨htodo, hwrites⟩ := hp
    obtain ⟨hsub, hact⟩ := htodo b List.mem_cons_self
    refine .inl ⟨rfl, fun b' hb' => htodo b' (List.mem_cons_of_mem _ hb'), fun w hw' => ?_⟩
    rcases List.mem_append.mp hw' with hw' | hw'
    · exact hwrites w hw'
    · rw [Option.mem_toList] at hw'
      obtain ⟨fireAt, hfire, rfl⟩ := Option.map_eq_some_iff.mp hw'
      exact ⟨b, hsub, hact, hfire, rfl⟩
  | @commit epoch since ws => exact .inr ⟨epoch, since, ws, rfl, rfl, rfl⟩
  | abort => exact .inl ⟨rfl, trivial⟩

/-- A scheduler takes each subscription once. -/
theorem step_distinct (hw : db.Wf) (hd : (held st).Nodup)
    (h : step env db now st a = some (st', t)) : (held st').Nodup := by
  cases step_move h with
  | select hs => simpa [held] using Table.nodup_select hw.subIds hs
  | @process epoch since b todo writes jobId runId =>
    -- The subscription moves from the rows to process to the writes.
    have hsub : ((createJobForSubscription env now epoch since b jobId runId).toList.map
        (·.subscriptionId)).Sublist [b.id] := by
      unfold createJobForSubscription
      cases b.nextFireAt <;> simp
    simp only [held, List.map_cons, List.cons_append] at hd
    simp only [held, List.map_append, ← List.append_assoc]
    have hperm := (List.perm_append_singleton b.id
      (todo.map (·.id) ++ writes.map (·.subscriptionId))).symm
    exact (hperm.nodup hd).sublist (List.Sublist.append_left hsub _)
  | _ => exact List.nodup_nil

end Scheduler

namespace Sys

variable {env : Env} {s s' : Sys} {a : Action}

/-! ## Locks -/

theorem unlocked_iff {k? : Option Nat} {rows : List UUID} :
    s.unlocked k? rows = true ↔ ∀ i ∈ rows, ∀ k, (k, i) ∈ s.locks → some k = k? := by
  simp only [unlocked, List.all_eq_true, decide_eq_true_eq, Prod.forall]
  constructor
  · intro h i hi k hk
    obtain hne | hk := h i hi k i hk
    · exact absurd rfl hne
    · exact hk
  · intro h i hi k l hk
    by_cases hl : l = i
    · subst hl
      exact .inr (h l hi k hk)
    · exact .inl hl

theorem commit_unlocked {k? : Option Nat} {t : Txn} (h : s.commit k? (some t) = some s') :
    s.unlocked k? t.subs = true := by
  simp only [commit] at h
  split at h
  · assumption
  · cases h

/-- What a step of a scheduler changes. -/
theorem step_schedule {k : Nat} {b : Scheduler.Action}
    (h : s.step env (.schedule k b) = some s') :
    ∃ st t db', Scheduler.step env s.db s.clock (s.schedulers k) b = some (st, t) ∧
      s.txn? env (.schedule k b) = t ∧ s.db.Commits t db' ∧
      s.unlocked (some k) (Scheduler.held st) = true ∧
      s' = { s with
        db := db'
        schedulers := Function.update s.schedulers k st
        locks := (s.locks.filter fun (h, _) => h ≠ k) ++
          (Scheduler.held st).map fun i => (k, i) } := by
  obtain ⟨⟨s₁, t⟩, hp, h⟩ := Option.bind_eq_some_iff.mp h
  have ht : s.txn? env (.schedule k b) = t := by simp [txn?, hp]
  obtain ⟨⟨st, t'⟩, hst, hp⟩ := Option.bind_eq_some_iff.mp hp
  dsimp only at hp
  split at hp
  · rename_i hul
    cases hp
    obtain ⟨db', hc, rfl⟩ := commit_cases h
    exact ⟨st, t, db', hst, ht, hc, hul, rfl⟩
  · cases hp

/-- The other steps keep the schedulers and their locks. -/
theorem step_locks (ha : ∀ k b, a ≠ .schedule k b) (h : s.step env a = some s') :
    s'.schedulers = s.schedulers ∧ s'.locks = s.locks := by
  obtain ⟨⟨s₁, t⟩, hp, h⟩ := Option.bind_eq_some_iff.mp h
  obtain ⟨db', -, rfl⟩ := commit_cases h
  cases a with
  | schedule k b => exact absurd rfl (ha k b)
  | advance n =>
    simp only [plan] at hp
    split at hp <;> cases hp
    exact ⟨rfl, rfl⟩
  | produce j runId =>
    simp only [plan] at hp
    split at hp <;> cases hp
    exact ⟨rfl, rfl⟩
  | _ =>
    obtain ⟨⟨st, t'⟩, -, he⟩ := Option.map_eq_some_iff.mp hp
    cases he
    exact ⟨rfl, rfl⟩

/-- A scheduler changes by its own steps only. -/
theorem step_scheduler {k : Nat} (ha : ∀ b, a ≠ .schedule k b) (h : s.step env a = some s') :
    s'.schedulers k = s.schedulers k := by
  by_cases hs : ∃ k' b, a = .schedule k' b
  · obtain ⟨k', b, rfl⟩ := hs
    obtain ⟨st, t, db', -, -, -, -, rfl⟩ := step_schedule h
    refine Function.update_of_ne ?_ _ _
    rintro rfl
    exact ha b rfl
  · rw [(step_locks (fun k' b he => hs ⟨k', b, he⟩) h).1]

/-- No step writes a subscription that another scheduler has locked. -/
theorem step_unlocked (h : s.step env a = some s') {t : Txn} (ht : s.txn? env a = some t) {k : Nat}
    {i : UUID} (hk : (k, i) ∈ s.locks) (hi : i ∈ t.subs) : a.scheduler? = some k := by
  obtain ⟨⟨s₁, t'⟩, hp, h⟩ := Option.bind_eq_some_iff.mp h
  have ht' : t' = some t := by simpa [txn?, hp] using ht
  subst ht'
  have hul := unlocked_iff.mp (commit_unlocked h) i hi k
  by_cases hs : a.scheduler? = some k
  · exact hs
  · refine (hul ?_).symm
    cases a with
    | schedule k' b =>
      obtain ⟨⟨st, t'⟩, -, hp⟩ := Option.bind_eq_some_iff.mp hp
      dsimp only at hp
      split at hp
      · cases hp
        refine List.mem_append_left _ (List.mem_filter.mpr ⟨hk, decide_eq_true ?_⟩)
        rintro rfl
        exact hs rfl
      · cases hp
    | advance n =>
      simp only [plan] at hp
      split at hp <;> cases hp
    | produce j runId =>
      simp only [plan] at hp
      split at hp <;> cases hp
      exact hk
    | _ =>
      obtain ⟨⟨st, t'⟩, -, he⟩ := Option.map_eq_some_iff.mp hp
      cases he
      exact hk

/-! ## The locks of the schedulers -/

/-- Schedulers have exclusive locks on what they have selected. -/
structure Locking (env : Env) (s : Sys) : Prop where
  ok : ∀ k, (s.schedulers k).Ok env s.db
  locked : ∀ {k i}, i ∈ Scheduler.held (s.schedulers k) → (k, i) ∈ s.locks
  exclusive : ∀ {k k' i}, (k, i) ∈ s.locks → (k', i) ∈ s.locks → k = k'
  distinct : ∀ k, (Scheduler.held (s.schedulers k)).Nodup

theorem Locking.init : Locking env Sys.init where
  ok k := trivial
  locked h := by cases h
  exclusive h := by cases h
  distinct k := List.nodup_nil

/-- What a scheduler has selected is kept by the steps of the others. -/
theorem Locking.sub?_keep (hL : Locking env s) (h : s.step env a = some s') {k : Nat}
    (ha : a.scheduler? ≠ some k) {i : UUID} (hi : i ∈ Scheduler.held (s.schedulers k))
    {b : Subscription} (hb : s.db.sub? i = some b) : s'.db.sub? i = some b := by
  obtain ⟨ht, hdb⟩ | ⟨t, ht, hc⟩ := step_db h
  · rwa [hdb]
  · refine Txn.sub?_keep hc (fun hmem => ?_) hb
    exact ha (step_unlocked h ht (hL.locked hi) hmem)

theorem Locking.step_schedule (hL : Locking env s) (hw : s.db.Wf) {k : Nat}
    {b : Scheduler.Action} (h : s.step env (.schedule k b) = some s') : Locking env s' := by
  have hkeep : ∀ {k' i b'}, k' ≠ k → i ∈ Scheduler.held (s.schedulers k') →
      s.db.sub? i = some b' → s'.db.sub? i = some b' :=
    fun hk hi hb => hL.sub?_keep h (fun he => hk (Option.some.inj he).symm) hi hb
  obtain ⟨st, t, db', hst, -, hc, hul, rfl⟩ := Sys.step_schedule h
  -- The locks of the other schedulers are not on rows that this one selects.
  have hfree : ∀ {k' i}, i ∈ Scheduler.held st → (k', i) ∈ s.locks → k' = k :=
    fun hi hk => Option.some.inj (unlocked_iff.mp hul _ hi _ hk)
  constructor
  · intro k'
    dsimp only
    by_cases hk : k' = k
    · subst hk
      rw [Function.update_self]
      obtain ⟨rfl, hok⟩ | ⟨-, -, -, -, -, rfl⟩ := Scheduler.step_ok hw (hL.ok k') hst
      · rwa [show db' = s.db from hc]
      · trivial
    · rw [Function.update_of_ne hk]
      exact (hL.ok k').keep fun i hi b' => hkeep hk hi
  · intro k' i hi
    dsimp only at hi
    by_cases hk : k' = k
    · subst hk
      rw [Function.update_self] at hi
      exact List.mem_append_right _ (List.mem_map_of_mem hi)
    · rw [Function.update_of_ne hk] at hi
      exact List.mem_append_left _ (List.mem_filter.mpr ⟨hL.locked hi, decide_eq_true hk⟩)
  · intro k₁ k₂ i h₁ h₂
    simp only [List.mem_append, List.mem_filter, List.mem_map, Prod.mk.injEq,
      decide_eq_true_eq] at h₁ h₂
    rcases h₁ with ⟨h₁, hk₁⟩ | ⟨i, hi, rfl, rfl⟩
    · rcases h₂ with ⟨h₂, -⟩ | ⟨i, hi, rfl, rfl⟩
      · exact hL.exclusive h₁ h₂
      · exact absurd (hfree hi h₁) hk₁
    · rcases h₂ with ⟨h₂, hk₂⟩ | ⟨_, _, rfl, _⟩
      · exact absurd (hfree hi h₂) hk₂
      · rfl
  · intro k'
    dsimp only
    by_cases hk : k' = k
    · subst hk
      rw [Function.update_self]
      exact Scheduler.step_distinct hw (hL.distinct k') hst
    · rw [Function.update_of_ne hk]
      exact hL.distinct k'

theorem Locking.step (hL : Locking env s) (hw : s.db.Wf) (h : s.step env a = some s') :
    Locking env s' := by
  by_cases ha : ∃ k b, a = .schedule k b
  · obtain ⟨k, b, rfl⟩ := ha
    exact hL.step_schedule hw h
  · have hsched : ∀ k, a.scheduler? ≠ some k := by
      intro k hk
      cases a <;> cases hk
      exact ha ⟨_, _, rfl⟩
    obtain ⟨hsc, hlo⟩ := step_locks (fun k b he => ha ⟨k, b, he⟩) h
    constructor
    · intro k
      rw [hsc]
      exact (hL.ok k).keep fun i hi b hb => hL.sub?_keep h (hsched k) hi hb
    · intro k i hi
      rw [hsc] at hi
      rw [hlo]
      exact hL.locked hi
    · intro k k' i hk hk'
      rw [hlo] at hk hk'
      exact hL.exclusive hk hk'
    · intro k
      rw [hsc]
      exact hL.distinct k

theorem Reachable.locking (h : Reachable env s) : Locking env s := by
  obtain ⟨as, hr⟩ := h
  exact (Lts.run_inv (I := fun s => Owned s ∧ Locking env s)
    (fun hI h => ⟨hI.1.step h, hI.2.step hI.1.wf h⟩) ⟨Owned.init, Locking.init⟩ hr).2

/-- What a scheduler is going to write is for a subscription that is ACTIVE, at its
`next_fire_at`. -/
theorem Locking.write_row (hL : Locking env s) {k : Nat} {w : WindowWrite}
    (hw : w ∈ (s.schedulers k).writes) : ∃ b, s.db.sub? w.subscriptionId = some b ∧
      b.status = .active ∧ b.nextFireAt = some w.scheduledFor := by
  have hok := hL.ok k
  cases hp : s.schedulers k with
  | opened epoch since todo ws =>
    rw [hp] at hok hw
    obtain ⟨b, hb, hact, hfire, -⟩ := hok.2 w hw
    exact ⟨b, hb, hact, hfire⟩
  | _ =>
    rw [hp] at hw
    cases hw

/-- A batch is what a scheduler has prepared. -/
theorem batch_writes {ws : List WindowWrite} (ht : s.txn? env a = some (.schedule ws)) :
    ∃ k, ∀ w ∈ ws, w ∈ (s.schedulers k).writes := by
  obtain ⟨k, b, st, rfl, hst⟩ := schedule_of_txn? ht
  generalize hp : s.schedulers k = p at hst
  cases Scheduler.step_move hst with
  | commit => exact ⟨k, fun w hw => by rwa [hp]⟩

theorem writes_held {p : Scheduler.Phase} {w : WindowWrite} (hw : w ∈ p.writes) :
    w.subscriptionId ∈ Scheduler.held p := by
  cases p with
  | opened epoch since todo writes =>
    exact List.mem_append_right _ (List.mem_map_of_mem hw)
  | _ => cases hw

/-- What a scheduler is going to write after a step, it was before, and the row of the subscription
is the same; or it has just prepared it from the row. -/
theorem Locking.writes_cases (hL : Locking env s) (h : s.step env a = some s') {k : Nat}
    {w : WindowWrite} (hw : w ∈ (s'.schedulers k).writes) :
    (w ∈ (s.schedulers k).writes ∧ ∀ b, s.db.sub? w.subscriptionId = some b →
      s'.db.sub? w.subscriptionId = some b) ∨
    s'.db = s.db ∧ ∃ b epoch since jobId runId, s.db.sub? b.id = some b ∧ b.status = .active ∧
      Scheduler.createJobForSubscription env s.clock epoch since b jobId runId = some w := by
  by_cases ha : ∃ b, a = .schedule k b
  swap
  · rw [step_scheduler (fun b he => ha ⟨b, he⟩) h] at hw
    refine .inl ⟨hw, fun b hb => hL.sub?_keep h (fun hk => ?_) (writes_held hw) hb⟩
    cases a <;> cases hk
    exact ha ⟨_, rfl⟩
  obtain ⟨b, rfl⟩ := ha
  obtain ⟨st, t, db', hst, -, hc, -, rfl⟩ := Sys.step_schedule h
  simp only [Function.update_self] at hw
  have hok := hL.ok k
  generalize hp : s.schedulers k = p at hst hok
  cases Scheduler.step_move hst with
  | @process epoch since b todo writes jobId runId =>
    rcases List.mem_append.mp hw with hw | hw
    · exact .inl ⟨hw, fun b' hb' => by rwa [show db' = s.db from hc]⟩
    · obtain ⟨hb, hactive⟩ := hok.1 b List.mem_cons_self
      exact .inr ⟨hc, b, epoch, since, jobId, runId, hb, hactive, Option.mem_toList.mp hw⟩
  | _ => cases hw

/-! ## The invariant -/

/-- Schedulers have exclusive locks on what they have selected, and each job has the fingerprint of
its own window. -/
structure Scheduled (env : Env) (s : Sys) : Prop where
  fingerprints : s.db.Fingerprinted env
  windows : Table.Unique ScheduledJob.window s.db.scheduledJobs
  ok : ∀ k, (s.schedulers k).Ok env s.db
  locked : ∀ {k i}, i ∈ Scheduler.held (s.schedulers k) → (k, i) ∈ s.locks
  exclusive : ∀ {k k' i}, (k, i) ∈ s.locks → (k', i) ∈ s.locks → k = k'
  distinct : ∀ k, (Scheduler.held (s.schedulers k)).Nodup

theorem Scheduled.locking (hS : Scheduled env s) : Locking env s :=
  ⟨hS.ok, hS.locked, hS.exclusive, hS.distinct⟩

theorem Locking.scheduled (hL : Locking env s) (hf : s.db.Fingerprinted env)
    (hu : Table.Unique ScheduledJob.window s.db.scheduledJobs) : Scheduled env s :=
  ⟨hf, hu, hL.ok, hL.locked, hL.exclusive, hL.distinct⟩

theorem Scheduled.init : Scheduled env Sys.init :=
  Locking.init.scheduled nofun List.nodup_nil

/-- The fingerprints, after a transaction that inserts no job. -/
theorem fingerprinted_keep {db db' : Db} {t : Txn} (hw : db.Wf) (hf : db.Fingerprinted env)
    (h : t.apply db = some db') (hn : t.newJobs = []) : db'.Fingerprinted env := by
  intro j hj
  rw [(Txn.wf hw h).job?_mem] at hj
  obtain ⟨j₀, hj₀, rfl⟩ | ⟨-, hnew⟩ := Txn.job?_cases h hj
  · rw [(Txn.setJob_frame j₀).2.1, (Txn.setJob_frame j₀).2.2.1, (Txn.setJob_frame j₀).2.2.2.1]
    exact hf j₀ (Table.get?_mem hj₀)
  · rw [hn] at hnew
    cases hnew

/-- Jobs are inserted by the schedulers and the other producers only. -/
theorem newJobs_nil (h : s.step env a = some s') (ha : ∀ k b, a ≠ .schedule k b)
    (hp : a.produces = false) {t : Txn} (ht : s.txn? env a = some t) : t.newJobs = [] := by
  induction a using step_kind with
  | execute w b =>
    obtain ⟨st, t', db', hst, ht', -, -⟩ := Sys.step_execute h
    rw [ht] at ht'
    subst ht'
    exact Txn.newJobs_of_works (Executor.step_move hst).works
  | recover v b =>
    obtain ⟨st, t', db', hst, ht', -, -⟩ := Sys.step_recover h
    rw [ht] at ht'
    subst ht'
    exact Txn.newJobs_of_works (Recovery.step_move hst).works
  | other he hr =>
    obtain ⟨⟨s₁, t'⟩, hpl, -⟩ := Option.bind_eq_some_iff.mp h
    have ht' : t' = some t := by simpa [txn?, hpl] using ht
    subst ht'
    cases a with
    | advance n =>
      simp only [plan] at hpl
      split at hpl <;> cases hpl
    | schedule k b => exact absurd rfl (ha k b)
    | execute w b => exact absurd rfl (he w b)
    | recover v b => exact absurd rfl (hr v b)
    | request r b =>
      obtain ⟨⟨st, t'⟩, hst, hx⟩ := Option.map_eq_some_iff.mp hpl
      cases hx
      rcases Api.step_txn hst with ⟨b, rfl⟩ | ⟨id, c, rfl⟩ | ⟨id, n, rfl⟩ | ⟨id, by', rfl⟩ <;> rfl
    | produce j runId => cases hp

/-- A new job is one of a batch, or comes from another producer. -/
theorem newJob_batch (h : s.step env a = some s') (hp : a.produces = false) {t : Txn}
    (ht : s.txn? env a = some t) {j : ScheduledJob} (hj : j ∈ t.newJobs) :
    ∃ ws, t = .schedule ws ∧ ∃ w ∈ ws, j = w.job := by
  by_cases ha : ∃ k b, a = .schedule k b
  · obtain ⟨k, b, rfl⟩ := ha
    obtain ⟨st, t', db', hst, ht', -, -, -⟩ := Sys.step_schedule h
    rw [ht] at ht'
    subst ht'
    obtain ⟨ws, rfl⟩ := Scheduler.step_txn hst
    obtain ⟨w, hw, rfl⟩ := List.mem_map.mp hj
    exact ⟨ws, rfl, w, hw, rfl⟩
  · rw [newJobs_nil h (fun k b he => ha ⟨k, b, he⟩) hp ht] at hj
    cases hj

/-- A new job is one that a scheduler was going to write, or comes from another producer. -/
theorem newJob_write (h : s.step env a = some s') (hp : a.produces = false) {x : UUID}
    {j : ScheduledJob} (hn : s.db.job? x = none) (hj : s'.db.job? x = some j) :
    ∃ k, ∃ w ∈ (s.schedulers k).writes, j = w.job := by
  obtain ⟨-, hdb⟩ | ⟨t, ht, hc⟩ := step_db h
  · rw [hdb, hn] at hj
    cases hj
  · obtain ⟨ws, rfl, w, hw, rfl⟩ := newJob_batch h hp ht (Txn.job?_new hc hn hj)
    obtain ⟨k, hws⟩ := batch_writes ht
    exact ⟨k, w, hws w hw, rfl⟩

/-- The fingerprints, after an action of anything but a scheduler. -/
theorem step_fingerprinted (hI : Owned s) (h : s.step env a = some s')
    (ha : ∀ k b, a ≠ .schedule k b) (hp : a.produces = false) (hf : s.db.Fingerprinted env) :
    s'.db.Fingerprinted env := by
  obtain ⟨ht, hdb⟩ | ⟨t, ht, hc⟩ := step_db h
  · rwa [hdb]
  · exact fingerprinted_keep hI.wf hf hc (newJobs_nil h ha hp ht)

theorem step_windows (hu : Table.Unique ScheduledJob.window s.db.scheduledJobs)
    (h : s.step env a = some s') : Table.Unique ScheduledJob.window s'.db.scheduledJobs := by
  obtain ⟨ht, hdb⟩ | ⟨t, ht, hc⟩ := step_db h
  · rwa [hdb]
  · exact Db.windows_apply hu hc

/-- The jobs after a step of a scheduler have the fingerprints of their windows. -/
theorem Scheduled.fingerprints_schedule (hS : Scheduled env s) (hI : Owned s) {k : Nat}
    {b : Scheduler.Action} (h : s.step env (.schedule k b) = some s') :
    s'.db.Fingerprinted env := by
  obtain ⟨st, t, db', hst, -, hc, -, rfl⟩ := step_schedule h
  obtain ⟨rfl, -⟩ | ⟨epoch, since, ws, hp, rfl, -⟩ := Scheduler.step_ok hI.wf (hS.ok k) hst
  · rw [show db' = s.db from hc]
    exact hS.fingerprints
  · have hok := hS.ok k
    rw [hp] at hok
    refine hS.fingerprints.schedule (fun w hw => ?_) hc
    obtain ⟨b, -, -, -, hfp⟩ := hok.2 w hw
    exact hfp

/-- The invariant holds of every step but those of other producers. -/
theorem Scheduled.step (hS : Scheduled env s) (hI : Owned s) (hp : a.produces = false)
    (h : s.step env a = some s') : Scheduled env s' := by
  refine (hS.locking.step hI.wf h).scheduled ?_ (step_windows hS.windows h)
  by_cases ha : ∃ k b, a = .schedule k b
  · obtain ⟨k, b, rfl⟩ := ha
    exact hS.fingerprints_schedule hI h
  · exact step_fingerprinted hI h (fun k b he => ha ⟨k, b, he⟩) hp hS.fingerprints

/-! ## The result -/

/-- Each new job is one of an ACTIVE subscription, at its `next_fire_at`, and comes with exactly one
run, its first attempt. -/
def CreatesJobs (s : Sys) (_ : Action) (s' : Sys) : Prop :=
  ∀ j ∈ s'.db.scheduledJobs, s.db.job? j.id = none →
    (∃ b ∈ s.db.subscriptions, b.id = j.subscriptionId ∧ b.status = .active ∧
      b.nextFireAt = some j.scheduledFor) ∧
    ∃ r ∈ s'.db.jobRuns, s.db.run? r.id = none ∧ r.jobId = j.id ∧ r.attempt = 1 ∧
      r.status = .pending ∧ ∀ r' ∈ s'.db.jobRuns, r'.jobId = j.id → r' = r

/-- The open transactions of the schedulers meet no duplicate: no insert fails on
`uq_job_per_window`, and where the uuids are fresh, the commit succeeds, and each window has its
job. -/
structure Unobstructed (env : Env) (s : Sys) : Prop where
  insert : ∀ {k epoch since todo done w rest db},
    s.schedulers k = .opened epoch since todo (done ++ w :: rest) →
    s.db.schedule done = some db → ¬ db.WindowConflict w.job
  commit : ∀ {k epoch since ws}, s.schedulers k = .opened epoch since [] ws →
    s.db.FreshIds ws → ∃ s', s.step env (.schedule k .commit) = some s' ∧
      ∀ w ∈ ws, ∃ j ∈ s'.db.scheduledJobs, j.window = w.window

/-- The new runs of a batch are PENDING. -/
theorem newRuns_pending {db db' : Db} {ws : List WindowWrite} (h : db.schedule ws = some db')
    {x : UUID} {r : JobRun} (hx : db.run? x = none) (hr : db'.run? x = some r) :
    r.status = .pending := by
  obtain ⟨w, -, rfl⟩ := (Db.schedule_run? h).2 r hx hr
  rfl

theorem Scheduled.createsJobs (hS : Scheduled env s) (hI : Owned s) (hc : s.db.Chain)
    (hp : a.produces = false) (h : s.step env a = some s') : CreatesJobs s a s' := by
  intro j hj hnone
  have hw' := (hI.step h).wf
  have hc' := hI.chain hc h
  rw [hw'.job?_mem] at hj
  obtain ⟨ht, hdb⟩ | ⟨t, ht, hcom⟩ := step_db h
  · rw [hdb, hnone] at hj
    cases hj
  · obtain ⟨ws, rfl, w, hw, rfl⟩ := newJob_batch h hp ht (Txn.job?_new hcom hnone hj)
    obtain ⟨k, hws⟩ := batch_writes ht
    obtain ⟨b, hb, hact, hfire⟩ := hS.locking.write_row (hws w hw)
    refine ⟨⟨b, Table.get?_mem hb, Db.sub?_id hb, hact, hfire⟩, ?_⟩
    -- The runs of the job are new.
    have hfresh : ∀ {x r}, s'.db.run? x = some r → r.jobId = w.job.id →
        s.db.run? x = none ∧ r.attempt = 1 := by
      intro x r hr hrj
      obtain ⟨r₀, hr₀, he⟩ | ⟨hx, -⟩ := Txn.run?_cases hcom hr
      · obtain ⟨j₀, hj₀⟩ := hI.wf.runJob r₀ (Table.get?_mem hr₀)
        rw [he, Txn.setRun_jobId] at hrj
        rw [hrj, hnone] at hj₀
        cases hj₀
      · obtain ⟨hn, -⟩ | ⟨h1, -⟩ := Txn.newRun_cases hI.wf hcom hx hr
        · cases hn
        · exact ⟨hx, h1⟩
    obtain ⟨x, r, hr, hrj, h1⟩ := hc'.first hj
    have hx := (hfresh hr hrj).1
    refine ⟨r, Table.get?_mem hr, by rwa [Db.run?_id hr], hrj, h1, newRuns_pending hcom hx hr, ?_⟩
    intro r' hr' hrj'
    rw [hw'.run?_mem] at hr'
    have hid := hw'.run_unique hr' hr (by rw [hrj', hrj]) (by rw [(hfresh hr' hrj').2, h1])
    rw [hid, hr] at hr'
    cases hr'
    rfl

theorem Scheduled.unobstructed (hS : Scheduled env s) (hI : Owned s)
    (hh : Function.Injective env.hexdigest) : Unobstructed env s := by
  constructor
  · intro k epoch since todo done w rest db hph hd
    have hok := hS.ok k
    rw [hph] at hok
    have hfp : ∀ w' ∈ done ++ w :: rest, w'.job.fingerprint =
        JobFingerprint.forJob env w'.job.subscriptionId w'.job.scheduledFor := by
      intro w' hw'
      obtain ⟨b, -, -, -, hfp⟩ := hok.2 w' hw'
      exact hfp
    have hf := hS.fingerprints.schedule (fun w' hw' => hfp w' (List.mem_append_left _ hw')) hd
    exact hf.no_conflict (hfp w (List.mem_append_right _ List.mem_cons_self))
  · intro k epoch since ws hph hfresh
    have hok := hS.ok k
    rw [hph] at hok
    obtain ⟨db', hdb, hall⟩ := Db.schedule_succeeds hI.wf hS.fingerprints hh
      (fun w hw => by
        obtain ⟨b, -, -, -, hfp⟩ := hok.2 w hw
        exact hfp)
      (fun w hw => by
        obtain ⟨b, hb, -⟩ := hok.2 w hw
        exact ⟨b, hb⟩) hfresh
    -- Its rows are locked by the scheduler itself only.
    have hul : ∀ i ∈ ws.map (·.subscriptionId), ∀ k', (k', i) ∈ s.locks → k' = k := by
      intro i hi k' hk'
      refine hS.exclusive hk' (hS.locked ?_)
      rw [hph]
      exact List.mem_append_right _ hi
    suffices hs' : ∃ s', s.step env (.schedule k .commit) = some s' ∧ s'.db = db' by
      obtain ⟨s', hs', rfl⟩ := hs'
      exact ⟨s', hs', hall⟩
    rw [Sys.step, plan, hph]
    simp only [Scheduler.step, Option.bind_some, Scheduler.held, unlocked, List.all_nil, if_true]
    rw [commit, if_pos]
    · rw [show (Txn.schedule ws).apply _ = some db' from hdb]
      exact ⟨_, rfl, rfl⟩
    · refine unlocked_iff.mpr fun i hi k' hk' => congrArg some (hul i hi k' ?_)
      simp only [List.map_nil, List.append_nil, List.mem_filter] at hk'
      exact hk'.1

/-- In every run of any number of schedulers, whether they lead or not, of executors, recovery
workers and requests: each job is created with one run, for an ACTIVE subscription at its
`next_fire_at`; no two jobs share a window; and no tick ends on a duplicate. -/
theorem one_job_per_window (env : Env) (hh : Function.Injective env.hexdigest) (as : List Action)
    (hno : ∀ a ∈ as, a.produces = false) :
    Lts.Along (step env) CreatesJobs init as ∧
      Lts.Always (step env) (fun s => Table.Unique ScheduledJob.window s.db.scheduledJobs ∧
        Unobstructed env s) init as := by
  have hP : Lts.Along (step env) (fun _ a _ => a.produces = false) init as :=
    Lts.along_of_mem hno
  constructor
  · refine Lts.Along.of_inv (I := fun s => Scheduled env s ∧ Owned s ∧ s.db.Chain)
      (fun hI hp h => ?_) (fun hI hp h => ?_) ⟨Scheduled.init, Owned.init, Db.Chain.empty⟩ hP
    · exact ⟨hI.1.step hI.2.1 hp h, hI.2.1.step h, hI.2.1.chain hI.2.2 h⟩
    · exact hI.1.createsJobs hI.2.1 hI.2.2 hp h
  · refine Lts.always_of_along (I := fun s => Scheduled env s ∧ Owned s ∧ s.db.Chain)
      (fun hI hp h => ?_) (fun hI => ?_) ⟨Scheduled.init, Owned.init, Db.Chain.empty⟩ hP
    · exact ⟨hI.1.step hI.2.1 hp h, hI.2.1.step h, hI.2.1.chain hI.2.2 h⟩
    · exact ⟨hI.1.windows, hI.1.unobstructed hI.2.1 hh⟩

end Sys

namespace Demo

/-- The digest of the first job; the digests of all strings differ. -/
def windowEnv : Env :=
  { env with
    hexdigest := Equiv.swap "00000000-0000-4000-8000-000000000001:2024-06-01T07:01:00+00:00"
      "b8eee4b5a6f2bf81c07a41b299014705a1e64baddf16cee3e3e34d2a3da0791c" }

/-- A deposed leader ticks while scheduler 0 does: the subscription is locked. -/
def overlapping : List Action :=
  [.advance start,
    .request 0 (.begin (.create (body policy) subId)),
    .schedule 0 .start,
    .schedule 1 .start,
    .schedule 0 (.select 2 [subId] []),
    .schedule 1 (.select 1 [] [subId]),
    .schedule 0 (.process jobId runId),
    .schedule 1 .commit,
    .schedule 0 .commit]

theorem overlapping_one_job :
    (∃ s, Lts.run (Sys.step windowEnv) Sys.init overlapping = some s ∧
      decide (s.db.scheduledJobs.length = 1) = true) ∧
    Lts.Along (Sys.step windowEnv) Sys.CreatesJobs Sys.init overlapping ∧
      Lts.Always (Sys.step windowEnv) (fun s =>
        Table.Unique ScheduledJob.window s.db.scheduledJobs ∧ Sys.Unobstructed windowEnv s)
        Sys.init overlapping := by
  refine ⟨Lts.exists_run (by decide +kernel), ?_⟩
  exact Sys.one_job_per_window windowEnv (Equiv.injective _) overlapping (by decide)

end Demo

end PaymentScheduler
