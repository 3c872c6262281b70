import PaymentScheduler.Lib.Cursor
import PaymentScheduler.System.Windows

/-!
# Skipped occurrences

`next_fire_at` of a subscription is a cursor over the occurrences of its cron expression
(`Cursor`): a tick serves it, and sets it to the first occurrence after the current time, not after
the window that it has served. `Tracks.step`: every step of the system is a step of the cursor.

- `served_iff_inTime`: after a run, every occurrence up to a time before `next_fire_at` has a job if
  and only if no tick that took the subscription found an occurrence between `next_fire_at` and the
  current time.
-/

namespace PaymentScheduler

/-- `occ` are the occurrences of a cron expression in a timezone: `get_next` gives the first one
after an instant. -/
def Env.Timetable (env : Env) (cronExpression timezone : String) (occ : Set Time) : Prop :=
  ∀ t o, env.getNext cronExpression ((env.pytzTimezone timezone).getD "UTC") t = some o ↔
    IsNext occ t o

namespace Sys

variable {env : Env} {s s' : Sys} {a : Action} {b₀ : Subscription} {c : Cursor Time}
  {occ : Set Time}

/-- The subscription that a scheduler takes up in a step. -/
def taken? (s : Sys) : Action → Option Subscription
  | .schedule k (.process ..) =>
    match s.schedulers k with
    | .opened _ _ (b :: _) _ => some b
    | _ => none
  | _ => none

/-- Where the step takes up the subscription `x`, no occurrence up to `h` lies after its
`next_fire_at` and not after the current time. -/
def InTime (occ : Set Time) (h : Time) (x : UUID) (s : Sys) (a : Action) (_ : Sys) : Prop :=
  ∀ b f, s.taken? a = some b → b.id = x → b.nextFireAt = some f →
    ∀ o ∈ occ, f < o → o ≤ s.clock → h < o

/-! ## The cursor of a subscription -/

/-- The cursor of the subscription that was created as `b₀`. -/
structure Tracks (b₀ : Subscription) (s : Sys) (c : Cursor Time) : Prop where
  row : ∃ b, s.db.sub? b₀.id = some b ∧ b.cronExpression = b₀.cronExpression ∧
    b.timezone = b₀.timezone ∧ b.nextFireAt = some c.due
  now : c.now = s.clock
  served : ∀ t, t ∈ c.served ↔ s.db.HasWindow (b₀.id, t)
  prepared : ∀ k, ∀ w ∈ (s.schedulers k).writes, w.subscriptionId = b₀.id →
    ∀ t, w.advance = .nextFireAt t → c.prepared = some t

/-- A step that leaves the subscription and its windows as they are. -/
theorem Tracks.wait (hT : Tracks b₀ s c) (hclock : s.clock ≤ s'.clock)
    (hrow : ∃ b, s'.db.sub? b₀.id = some b ∧ b.cronExpression = b₀.cronExpression ∧
      b.timezone = b₀.timezone ∧ b.nextFireAt = some c.due)
    (hwin : ∀ t, s'.db.HasWindow (b₀.id, t) ↔ s.db.HasWindow (b₀.id, t))
    (hwrites : ∀ k, ∀ w ∈ (s'.schedulers k).writes, w.subscriptionId = b₀.id →
      w ∈ (s.schedulers k).writes) :
    ∃ c', Cursor.Step occ c .wait c' ∧ Tracks b₀ s' c' := by
  refine ⟨{ c with now := s'.clock }, .wait ?_, hrow, rfl, fun t => ?_, fun k w hw hx => ?_⟩
  · rw [hT.now]
    exact hclock
  · rw [hwin]
    exact hT.served t
  · exact hT.prepared k w (hwrites k w hw hx) hx

/-- A scheduler that has the subscription is the only one. -/
theorem Scheduled.only (hS : Scheduled env s) {k k' : Nat} {i : UUID}
    (hk : i ∈ Scheduler.held (s.schedulers k)) (hk' : i ∈ Scheduler.held (s.schedulers k')) :
    k' = k :=
  hS.exclusive (hS.locked hk') (hS.locked hk)

/-- The steps of anything but a scheduler. -/
theorem Tracks.step_other (hT : Tracks b₀ s c) (hI : Owned s) (ha : ∀ k b, a ≠ .schedule k b)
    (hp : a.produces = false) (he : ∀ t, s.txn? env a = some t → t.edits b₀.id = false)
    (h : s.step env a = some s') : ∃ c', Cursor.Step occ c .wait c' ∧ Tracks b₀ s' c' := by
  obtain ⟨b, hb, hcron, hzone, hdue⟩ := hT.row
  refine hT.wait (step_clock h) ?_ (fun t => ?_) fun k w hw _ => ?_
  · obtain ⟨ht, hdb⟩ | ⟨t, ht, hc⟩ := step_db h
    · rw [hdb]
      exact hT.row
    · have hid := Db.sub?_id hb
      obtain ⟨h₁, h₂, h₃⟩ := t.setSub_timing (b := b) s.db (by rw [hid]; exact he t ht)
        fun ws hws => by
          have := newJobs_nil h ha hp ht
          rw [hws, Txn.newJobs, List.map_eq_nil_iff] at this
          simp [this]
      exact ⟨_, Txn.sub?_set hc hb, by rw [h₁, hcron], by rw [h₂, hzone], by rw [h₃, hdue]⟩
  · obtain ⟨ht, hdb⟩ | ⟨t, ht, hc⟩ := step_db h
    · rw [hdb]
    · exact Db.hasWindow_keep hI.wf hc (newJobs_nil h ha hp ht)
  · rwa [(step_locks ha h).1] at hw

/-- A scheduler takes up the subscription: the next position is computed from the clock. -/
theorem Tracks.step_process (hT : Tracks b₀ s c) (hS : Scheduled env s)
    (hocc : env.Timetable b₀.cronExpression b₀.timezone occ) {k epoch : Nat} {since : Time}
    {b : Subscription} {todo : List Subscription} {ws : List WindowWrite} {jobId runId : UUID}
    {locks : List (Nat × UUID)} (hph : s.schedulers k = .opened epoch since (b :: todo) ws)
    (hb : b.id = b₀.id)
    (hs' : s' = { s with
      schedulers := Function.update s.schedulers k (.opened epoch since todo (ws ++
        (Scheduler.createJobForSubscription env s.clock epoch since b jobId runId).toList))
      locks := locks }) :
    ∃ c', Cursor.Step occ c .prepare c' ∧ Tracks b₀ s' c' := by
  have hok := hS.ok k
  have hd := hS.distinct k
  rw [hph] at hok hd
  obtain ⟨b', hrow, hcron, hzone, hdue⟩ := hT.row
  -- The selected row is the one of the subscription.
  have hrow' := (hok.1 b List.mem_cons_self).1
  rw [hb, hrow] at hrow'
  cases hrow'
  have hheld : b₀.id ∈ Scheduler.held (s.schedulers k) := by
    rw [hph, ← hb]
    exact List.mem_cons_self
  refine ⟨{ c with prepared := Scheduler.nextFire env s.clock b }, .prepare fun o ho => ?_,
    ?_, ?_, ?_, fun k' w hw hx t ht => ?_⟩
  · rw [hT.now]
    rw [Scheduler.nextFire, hcron, hzone] at ho
    exact (hocc _ _).mp ho
  · rw [hs']
    exact ⟨b, hrow, hcron, hzone, hdue⟩
  · rw [hs']
    exact hT.now
  · rw [hs']
    exact hT.served
  · rw [hs'] at hw
    by_cases hk : k' = k
    · subst hk
      simp only [Function.update_self, Scheduler.Phase.writes, List.mem_append,
        Option.mem_toList] at hw
      rcases hw with hw | hw
      · -- The subscription would be taken twice.
        rw [Scheduler.held, List.map_cons, List.cons_append, List.nodup_cons] at hd
        refine absurd (List.mem_append_right _ ?_) hd.1
        rw [hb, ← hx]
        exact List.mem_map_of_mem hw
      · obtain ⟨fireAt, -, rfl⟩ := Option.map_eq_some_iff.mp hw
        dsimp only at ht
        split at ht
        · rename_i t' hnext
          cases ht
          exact hnext
        · cases ht
    · simp only [Function.update_of_ne hk] at hw
      refine absurd (hS.only hheld ?_) hk
      rw [← hx]
      exact writes_held hw

/-- The windows after the commit of a batch. -/
theorem Scheduled.hasWindow_commit (hS : Scheduled env s) (hh : Function.Injective env.hexdigest)
    {k epoch : Nat} {since : Time} {ws : List WindowWrite} {db' : Db}
    (hph : s.schedulers k = .opened epoch since [] ws) (hc : s.db.schedule ws = some db')
    {p : UUID × Time} : db'.HasWindow p ↔ s.db.HasWindow p ∨ ∃ w ∈ ws, p = w.window := by
  have hok := hS.ok k
  rw [hph] at hok
  refine Db.schedule_hasWindow hS.fingerprints hh (fun w hw => ?_) hc
  obtain ⟨b, -, -, -, hfp⟩ := hok.2 w hw
  exact hfp

/-- Once a scheduler is at rest, the writes are those of the others. -/
theorem writes_idle {k k' : Nat} {w : WindowWrite}
    (hs' : s'.schedulers = Function.update s.schedulers k .idle)
    (hw : w ∈ (s'.schedulers k').writes) : w ∈ (s.schedulers k').writes ∧ k' ≠ k := by
  rw [hs'] at hw
  by_cases hk : k' = k
  · subst hk
    simp [Scheduler.Phase.writes] at hw
  · rw [Function.update_of_ne hk] at hw
    exact ⟨hw, hk⟩

section Commit

variable {k epoch : Nat} {since : Time} {ws : List WindowWrite} {db' : Db}
  {locks : List (Nat × UUID)}

/-- A scheduler commits a batch without a write for the subscription. -/
theorem Tracks.commit_other (hT : Tracks b₀ s c) (hS : Scheduled env s)
    (hh : Function.Injective env.hexdigest)
    (hph : s.schedulers k = .opened epoch since [] ws) (hc : s.db.schedule ws = some db')
    (hs' : s' = { s with
      db := db'
      schedulers := Function.update s.schedulers k .idle
      locks := locks })
    (hx : ∀ w ∈ ws, w.subscriptionId ≠ b₀.id) :
    ∃ c', Cursor.Step occ c .wait c' ∧ Tracks b₀ s' c' := by
  obtain ⟨b, hrow, hcron, hzone, hdue⟩ := hT.row
  have hrow' : s'.db.sub? b₀.id = some b := by
    have hnot : b.id ∉ ws.map (·.subscriptionId) := by
      rw [Db.sub?_id hrow]
      intro hmem
      obtain ⟨w, hw, he⟩ := List.mem_map.mp hmem
      exact hx w hw he
    rw [hs', Db.schedule_sub? hc, hrow, Option.map_some, Db.advanceAll_of_not_mem hnot]
  refine hT.wait (by rw [hs']) ⟨b, hrow', hcron, hzone, hdue⟩ (fun t => ?_)
    fun k' w hw _ => (writes_idle (by rw [hs']) hw).1
  rw [hs', hS.hasWindow_commit hh hph hc, or_iff_left]
  rintro ⟨w, hw, he⟩
  exact hx w hw (Prod.mk.inj he).1.symm

/-- A scheduler commits a batch with a write for the subscription, which serves its window. -/
theorem Tracks.commit_serves (hT : Tracks b₀ s c) (hS : Scheduled env s)
    (hh : Function.Injective env.hexdigest)
    (hph : s.schedulers k = .opened epoch since [] ws) (hc : s.db.schedule ws = some db')
    (hs' : s' = { s with
      db := db'
      schedulers := Function.update s.schedulers k .idle
      locks := locks })
    {w : WindowWrite} (hw : w ∈ ws) (hx : w.subscriptionId = b₀.id) :
    ∃ e c', e ≠ .prepare ∧ Cursor.Step occ c e c' ∧ Tracks b₀ s' c' := by
  have hok := hS.ok k
  have hd := hS.distinct k
  rw [hph] at hok hd
  simp only [Scheduler.held, List.map_nil, List.nil_append] at hd
  have hheld : b₀.id ∈ Scheduler.held (s.schedulers k) := by
    rw [hph, ← hx]
    exact writes_held (p := .opened epoch since [] ws) hw
  obtain ⟨b, hrow, hcron, hzone, hdue⟩ := hT.row
  have hrow' : s'.db.sub? b₀.id = some (b.advance w.advance) := by
    have hid : b.id = w.subscriptionId := (Db.sub?_id hrow).trans hx.symm
    rw [hs', Db.schedule_sub? hc, hrow, Option.map_some, Db.advanceAll_of_mem hd hw hid]
  have hfire : w.scheduledFor = c.due := by
    obtain ⟨b', hb', -, hfire, -⟩ := hok.2 w hw
    rw [hx, hrow] at hb'
    cases hb'
    rw [hdue, Option.some.injEq] at hfire
    exact hfire.symm
  have hserved : ∀ t, t ∈ insert c.due c.served ↔ s'.db.HasWindow (b₀.id, t) := by
    intro t
    rw [hs', hS.hasWindow_commit hh hph hc, Set.mem_insert_iff, hT.served t, or_comm]
    refine or_congr_right ⟨?_, ?_⟩
    · rintro rfl
      exact ⟨w, hw, by rw [WindowWrite.window, hx, hfire]⟩
    · rintro ⟨w', hw', he⟩
      obtain ⟨he₁, rfl⟩ := Prod.mk.inj he
      rw [← hfire, List.inj_on_of_nodup_map hd hw' hw (he₁.symm.trans hx.symm)]
  have hnone : ∀ k', ∀ w' ∈ (s'.schedulers k').writes, w'.subscriptionId ≠ b₀.id := by
    intro k' w' hw' hx'
    obtain ⟨hw', hk⟩ := writes_idle (by rw [hs']) hw'
    refine hk (hS.only hheld ?_)
    rw [← hx']
    exact writes_held hw'
  have hnow : c.now = s'.clock := by
    rw [hs']
    exact hT.now
  cases hadv : w.advance with
  | nextFireAt t =>
    have hpre := hT.prepared k w (by rw [hph]; exact hw) hx t hadv
    rw [hadv] at hrow'
    exact ⟨.commit, _, (fun he => by cases he), .commit hpre, ⟨_, hrow', hcron, hzone, rfl⟩, hnow,
      hserved, fun k' w' hw' hx' => absurd hx' (hnone k' w' hw')⟩
  | pause now =>
    rw [hadv] at hrow'
    exact ⟨.serve, _, (fun he => by cases he), .serve, ⟨_, hrow', hcron, hzone, hdue⟩, hnow,
      hserved, fun k' w' hw' hx' => absurd hx' (hnone k' w' hw')⟩

/-- A scheduler commits its batch. -/
theorem Tracks.step_commit (hT : Tracks b₀ s c) (hS : Scheduled env s)
    (hh : Function.Injective env.hexdigest)
    (hph : s.schedulers k = .opened epoch since [] ws) (hc : s.db.schedule ws = some db')
    (hs' : s' = { s with
      db := db'
      schedulers := Function.update s.schedulers k .idle
      locks := locks }) :
    ∃ e c', e ≠ .prepare ∧ Cursor.Step occ c e c' ∧ Tracks b₀ s' c' := by
  by_cases hx : ∃ w ∈ ws, w.subscriptionId = b₀.id
  · obtain ⟨w, hw, hx⟩ := hx
    exact hT.commit_serves hS hh hph hc hs' hw hx
  · obtain ⟨c', hstep, hT'⟩ := hT.commit_other hS hh hph hc hs' fun w hw he => hx ⟨w, hw, he⟩
    exact ⟨.wait, c', (fun he => by cases he), hstep, hT'⟩

end Commit

/-- Every step of the system is a step of the cursor, and it prepares where the subscription is
taken up. -/
theorem Tracks.step (hT : Tracks b₀ s c) (hS : Scheduled env s) (hI : Owned s)
    (hh : Function.Injective env.hexdigest)
    (hocc : env.Timetable b₀.cronExpression b₀.timezone occ) (hp : a.produces = false)
    (he : ∀ t, s.txn? env a = some t → t.edits b₀.id = false) (h : s.step env a = some s') :
    ∃ e c', (e = .prepare ↔ ∃ b, s.taken? a = some b ∧ b.id = b₀.id) ∧
      Cursor.Step occ c e c' ∧ Tracks b₀ s' c' := by
  by_cases ha : ∃ k b, a = .schedule k b
  · obtain ⟨k, b, rfl⟩ := ha
    obtain ⟨st, t, db', hst, -, hc, -, rfl⟩ := Sys.step_schedule h
    have hm := Scheduler.step_move hst
    generalize hph : s.schedulers k = p at hm
    -- A step without a transaction and without writes of this scheduler.
    have hquiet {locks : List (Nat × UUID)} (hdb : db' = s.db)
        (hwrites : ∀ w ∈ st.writes, w.subscriptionId = b₀.id → w ∈ p.writes) :
        ∃ c', Cursor.Step occ c .wait c' ∧ Tracks b₀ { s with
          db := db'
          schedulers := Function.update s.schedulers k st
          locks := locks } c' := by
      subst hdb
      refine hT.wait le_rfl hT.row (fun t => Iff.rfl) fun k' w hw hx => ?_
      by_cases hk : k' = k
      · subst hk
        rw [hph]
        exact hwrites w (by simpa using hw) hx
      · simpa [hk] using hw
    cases hm with
    | start =>
      obtain ⟨c', hstep, hT'⟩ := hquiet hc fun w hw => by cases hw
      exact ⟨.wait, c', by simp [taken?], hstep, hT'⟩
    | select hs =>
      obtain ⟨c', hstep, hT'⟩ := hquiet hc fun w hw => by cases hw
      exact ⟨.wait, c', by simp [taken?], hstep, hT'⟩
    | abort =>
      obtain ⟨c', hstep, hT'⟩ := hquiet hc fun w hw => by cases hw
      exact ⟨.wait, c', by simp [taken?], hstep, hT'⟩
    | @process epoch since b todo ws jobId runId =>
      by_cases hb : b.id = b₀.id
      · rw [show db' = s.db from hc]
        obtain ⟨c', hstep, hT'⟩ := hT.step_process hS hocc hph hb rfl
        exact ⟨.prepare, c', by simp [taken?, hph, hb], hstep, hT'⟩
      · obtain ⟨c', hstep, hT'⟩ := hquiet hc fun w hw hx => by
          rcases List.mem_append.mp hw with hw | hw
          · exact hw
          · rw [Option.mem_toList] at hw
            obtain ⟨fireAt, -, rfl⟩ := Option.map_eq_some_iff.mp hw
            exact absurd hx hb
        exact ⟨.wait, c', by simp [taken?, hph, hb], hstep, hT'⟩
    | commit =>
      obtain ⟨e, c', hne, hstep, hT'⟩ := hT.step_commit hS hh hph hc rfl
      exact ⟨e, c', by simp [taken?, hne], hstep, hT'⟩
  · have ha' : ∀ k b, a ≠ .schedule k b := fun k b hab => ha ⟨k, b, hab⟩
    obtain ⟨c', hstep, hT'⟩ := hT.step_other hI ha' hp he h
    refine ⟨.wait, c', ?_, hstep, hT'⟩
    cases a with
    | schedule k b => exact absurd rfl (ha' k b)
    | _ => simp [taken?]

/-- The subscription is taken up at its cursor. -/
theorem Tracks.taken (hT : Tracks b₀ s c) (hS : Scheduled env s) {b : Subscription}
    (hb : s.taken? a = some b) (hid : b.id = b₀.id) : b.nextFireAt = some c.due := by
  unfold taken? at hb
  split at hb
  · rename_i k _ _
    split at hb
    · rename_i epoch since b' todo ws hph
      cases hb
      have hok := hS.ok k
      rw [hph] at hok
      obtain ⟨b', hrow, -, -, hdue⟩ := hT.row
      have hrow' := (hok.1 b List.mem_cons_self).1
      rw [hid, hrow] at hrow'
      cases hrow'
      exact hdue
    · cases hb
  · cases hb

theorem Tracks.inTime_iff (hT : Tracks b₀ s c) (hS : Scheduled env s) {h : Time} :
    InTime occ h b₀.id s a s' ↔
      ((∃ b, s.taken? a = some b ∧ b.id = b₀.id) → c.Punctual occ h) := by
  constructor
  · rintro hin ⟨b, hb, hid⟩ o ho hlt hle
    exact hin b c.due hb hid (hT.taken hS hb hid) o ho hlt (hle.trans_eq hT.now)
  · intro hpun b f hb hid hf o ho hlt hle
    rw [hT.taken hS hb hid] at hf
    cases hf
    exact hpun ⟨b, hb, hid⟩ o ho hlt (hle.trans_eq hT.now.symm)

/-- The step that creates a subscription. -/
theorem txn?_create (ht : s.txn? env a = some (.createSubscription b₀)) :
    (∀ k b, a ≠ .schedule k b) ∧ a.produces = false ∧
      ∃ f, b₀.nextFireAt = some f ∧ env.getNext b₀.cronExpression
        ((env.pytzTimezone b₀.timezone).getD "UTC") s.clock = some f := by
  obtain ⟨r, b, st, rfl, hst⟩ := request_of_txn? ht rfl
  exact ⟨nofun, rfl, (Api.step_create hst).2.2.2⟩

/-- The cursor of a new subscription. -/
theorem Tracks.create (hS : Scheduled env s) (hI : Owned s)
    (ht : s.txn? env a = some (.createSubscription b₀)) (h : s.step env a = some s') {f : Time}
    (hf : b₀.nextFireAt = some f) :
    Tracks b₀ s' { served := ∅, due := f, now := s'.clock } := by
  have ha := (txn?_create ht).1
  have hc := step_commits h
  rw [ht] at hc
  obtain ⟨hdb, hnone⟩ := Db.insertSub_cases hc
  refine ⟨⟨b₀, ?_, rfl, rfl, hf⟩, rfl, fun t => ⟨nofun, ?_⟩, fun k w hw hx => ?_⟩
  · rw [hdb, Db.sub?_addSub, hnone]
    simp
  · rintro ⟨j, hj, hwin⟩
    rw [hdb] at hj
    obtain ⟨b, hb⟩ := hI.wf.jobSub j hj
    rw [(Prod.mk.inj hwin).1, hnone] at hb
    cases hb
  · rw [(step_locks ha h).1] at hw
    have hok := hS.ok k
    cases hph : s.schedulers k with
    | opened epoch since todo ws =>
      rw [hph] at hok hw
      obtain ⟨b, hb, -⟩ := hok.2 w hw
      rw [hx, hnone] at hb
      cases hb
    | _ =>
      rw [hph] at hw
      cases hw

/-! ## The result -/

/-- A step that is not one of another producer, and no PATCH, DELETE or resume of the
subscription `x`. -/
def Untouched (env : Env) (x : UUID) (s : Sys) (a : Action) (_ : Sys) : Prop :=
  a.produces = false ∧ ∀ t, s.txn? env a = some t → t.edits x = false

instance (env : Env) (x : UUID) (s : Sys) (a : Action) (s' : Sys) :
    Decidable (Untouched env x s a s') :=
  decidable_of_iff (a.produces = false ∧ (s.txn? env a).all (fun t => t.edits x = false) = true)
    (by cases ht : s.txn? env a <;> simp [Untouched, ht])

/-- The invariant of the runs after the creation of `b₀`. -/
structure Follows (env : Env) (occ : Set Time) (b₀ : Subscription) (s : Sys)
    (c : Cursor Time) : Prop where
  scheduled : Scheduled env s
  owned : Owned s
  tracks : Tracks b₀ s c
  wf : c.Wf occ

theorem Follows.step (hF : Follows env occ b₀ s c) (hh : Function.Injective env.hexdigest)
    (hocc : env.Timetable b₀.cronExpression b₀.timezone occ) (hq : Untouched env b₀.id s a s')
    (h : s.step env a = some s') :
    ∃ e c', (e = .prepare ↔ ∃ b, s.taken? a = some b ∧ b.id = b₀.id) ∧
      Cursor.Step occ c e c' ∧ Follows env occ b₀ s' c' := by
  obtain ⟨e, c', hiff, hstep, hT⟩ := hF.tracks.step hF.scheduled hF.owned hh hocc hq.1 hq.2 h
  exact ⟨e, c', hiff, hstep, hF.scheduled.step hF.owned hq.1 h, hF.owned.step h, hT,
    hF.wf.step hstep⟩

theorem Follows.create (hS : Scheduled env s) (hI : Owned s)
    (hocc : env.Timetable b₀.cronExpression b₀.timezone occ)
    (ht : s.txn? env a = some (.createSubscription b₀)) (h : s.step env a = some s') :
    ∃ f, IsNext occ s.clock f ∧
      Follows env occ b₀ s' { served := ∅, due := f, now := s'.clock } := by
  obtain ⟨-, hp, f, hf, hnext⟩ := txn?_create ht
  have hn := (hocc _ _).mp hnext
  exact ⟨f, hn, hS.step hI hp h, hI.step h, .create hS hI ht h hf,
    ⟨⟨_, step_clock h, hn⟩, nofun, nofun⟩⟩

/-- After the creation of a subscription, without another PATCH, DELETE or resume of it, and
whatever the schedulers and the other workers do: up to any time `h` before its `next_fire_at`,
every occurrence since the creation has a job if and only if no tick has taken the subscription
after an occurrence beyond its `next_fire_at`. -/
theorem served_iff_inTime (env : Env) (hh : Function.Injective env.hexdigest) {occ : Set Time}
    {b : Subscription} {as₀ as : List Action} {a : Action} {s₀ s₁ s : Sys} {f h : Time}
    (hocc : env.Timetable b.cronExpression b.timezone occ)
    (hno : ∀ x ∈ as₀, x.produces = false) (hr₀ : Lts.run (step env) init as₀ = some s₀)
    (ht : s₀.txn? env a = some (.createSubscription b)) (h₁ : s₀.step env a = some s₁)
    (hq : Lts.Along (step env) (Untouched env b.id) s₁ as)
    (hr : Lts.run (step env) s₁ as = some s)
    (hf : (s.db.sub? b.id).bind (·.nextFireAt) = some f) (hlt : h < f) :
    (∀ o ∈ occ, s₀.clock < o → o ≤ h → s.db.HasWindow (b.id, o)) ↔
      Lts.Along (step env) (InTime occ h b.id) s₁ as := by
  have hstart : Scheduled env s₀ ∧ Owned s₀ := by
    refine Lts.run_inv_along (I := fun s => Scheduled env s ∧ Owned s)
      (P := fun _ x _ => x.produces = false) (fun hI hp hs => ?_) ⟨Scheduled.init, Owned.init⟩
      (Lts.along_of_mem hno) hr₀
    exact ⟨hI.1.step hI.2 hp hs, hI.2.step hs⟩
  obtain ⟨f₀, hnext, hF⟩ := Follows.create hstart.1 hstart.2 hocc ht h₁
  have hend : ∀ {c}, Follows env occ b s c → c.due = f := by
    intro c hc
    obtain ⟨b', hb', -, -, hdue⟩ := hc.tracks.row
    simpa [hb', hdue] using hf
  constructor
  · intro hall
    refine Lts.along_of_not_run
      (I := fun s => ∃ c, Follows env occ b s c ∧ s₀.clock < c.due)
      (B := fun s => ∃ o ∈ occ, s₀.clock < o ∧ o ≤ h ∧ ∃ c, Follows env occ b s c ∧ c.Lost o)
      (fun hI hp hs => ?_) (fun hB hp hs => ?_) (fun hI hp hs hn => ?_) ⟨_, hF, hnext.lt⟩ hq hr ?_
    · obtain ⟨c, hF, hlt⟩ := hI
      obtain ⟨e, c', -, hstep, hF'⟩ := hF.step hh hocc hp hs
      exact ⟨c', hF', hlt.trans_le (hF.wf.due_le hstep)⟩
    · obtain ⟨o, ho, hlt, hle, c, hF, hL⟩ := hB
      obtain ⟨e, c', -, hstep, hF'⟩ := hF.step hh hocc hp hs
      exact ⟨o, ho, hlt, hle, c', hF', hL.step hF.wf hstep⟩
    · obtain ⟨c, hF, hlt⟩ := hI
      rw [hF.tracks.inTime_iff hF.scheduled, Classical.not_imp] at hn
      obtain ⟨htaken, hn⟩ := hn
      simp only [Cursor.Punctual, not_forall, not_lt] at hn
      obtain ⟨o, ho, hdue, hnow, hle⟩ := hn
      obtain ⟨e, c', hiff, hstep, hF'⟩ := hF.step hh hocc hp hs
      rw [hiff.mpr htaken] at hstep
      exact ⟨o, ho, hlt.trans hdue, hle, c', hF', .of_prepare hF.wf hstep hdue hnow⟩
    · rintro ⟨o, ho, hlt, hle, c, hF, hL⟩
      exact hL.unserved ((hF.tracks.served o).mpr (hall o ho hlt hle))
  · intro hin o ho hlt hle
    obtain ⟨c, hF, hc⟩ : ∃ c, Follows env occ b s c ∧ c.Complete occ s₀.clock h := by
      refine Lts.run_inv_along
        (I := fun s => ∃ c, Follows env occ b s c ∧ c.Complete occ s₀.clock h)
        (fun hI hp hs => ?_) ⟨_, hF, ⟨fun o ho hlt hdue _ => ?_, nofun⟩⟩ (hq.and hin) hr
      · obtain ⟨c, hF, hc⟩ := hI
        obtain ⟨e, c', hiff, hstep, hF'⟩ := hF.step hh hocc hp.1 hs
        refine ⟨c', hF', hc.step hstep fun he => ?_⟩
        exact (hF.tracks.inTime_iff hF.scheduled).mp hp.2 (hiff.mp he)
      · exact absurd (hnext.gap ho hdue) (not_le.mpr hlt)
    refine (hF.tracks.served o).mp (hc.served o ho hlt ?_ hle)
    rw [hend hF]
    exact hle.trans_lt ‹h < f›

end Sys

namespace Demo

/-- The occurrences of `* * * * *`. -/
def minutes : Set Time := {t | t % seconds 60 = 0}

theorem isLeast_minute {t o : Int} :
    IsLeast {x : Int | x % 60000000 = 0 ∧ t < x} o ↔ t / 60000000 * 60000000 + 60000000 = o := by
  constructor
  · rintro ⟨⟨ho, hlt⟩, hle⟩
    have hmem : t / 60000000 * 60000000 + 60000000 ∈ {x : Int | x % 60000000 = 0 ∧ t < x} :=
      ⟨by omega, by omega⟩
    have := hle hmem
    omega
  · rintro rfl
    refine ⟨⟨by omega, by omega⟩, fun x hx => ?_⟩
    obtain ⟨hx, hlt⟩ := hx
    omega

theorem minutes_timetable : windowEnv.Timetable "* * * * *" "UTC" minutes := by
  intro t o
  refine Iff.trans ?_ isLeast_minute.symm
  simp only [windowEnv, env, if_true, Option.some.injEq]
  rfl

/-- The subscription is created at 07:00:00. -/
def creation : Action := .request 0 (.begin (.create (body policy) subId))

def rent : Subscription :=
  (Api.createSubscription windowEnv start (body policy) subId).get (by decide +kernel)

def beforeCreation : Sys := { Sys.init with clock := start }

def afterCreation : Sys := (beforeCreation.step windowEnv creation).get (by decide +kernel)

theorem creation_txn :
    beforeCreation.txn? windowEnv creation = some (.createSubscription rent) := by
  rfl

/-- A whole tick of scheduler 0 at the time `t`. -/
def tick (t : Time) (jobId runId : UUID) : List Action :=
  [.advance t,
    .schedule 0 .start,
    .schedule 0 (.select 1 [subId] []),
    .schedule 0 (.process jobId runId),
    .schedule 0 .commit]

/-- A tick before the first occurrence, and one after it. -/
def onTime : List Action :=
  tick (start + seconds 10) jobId runId ++ tick (start + seconds 65) nextId entryId

/-- No tick is late, and the payment of 07:01 has its job. -/
theorem onTime_serves : ∃ s, Lts.run (Sys.step windowEnv) afterCreation onTime = some s ∧
    (∀ o ∈ minutes, start < o → o ≤ start + seconds 65 → s.db.HasWindow (subId, o)) ∧
    start + seconds 60 ∈ minutes ∧
    Lts.Along (Sys.step windowEnv) (Sys.InTime minutes (start + seconds 65) subId) afterCreation
      onTime := by
  obtain ⟨s, hs, hp⟩ := Lts.exists_run
    (p := fun s : Sys => decide ((s.db.sub? subId).bind (·.nextFireAt) =
      some (start + seconds 120)) && s.db.scheduledJobs.any fun j =>
        decide (j.window = (subId, start + seconds 60)))
    (show (Lts.run (Sys.step windowEnv) afterCreation onTime).any _ = true by decide +kernel)
  obtain ⟨hf, hj⟩ := (Bool.and_eq_true _ _).mp hp
  obtain ⟨j, hj, hwin⟩ := List.any_eq_true.mp hj
  have hall : ∀ o ∈ minutes, start < o → o ≤ start + seconds 65 → s.db.HasWindow (subId, o) := by
    intro o ho hlt hle
    -- The only minute in between.
    obtain rfl : o = start + seconds 60 := by
      simp only [minutes, Set.mem_setOf_eq, start, seconds] at ho hlt hle ⊢
      unfold Time at *
      omega
    exact ⟨j, hj, of_decide_eq_true hwin⟩
  have hno : ∀ x ∈ [Action.advance start], x.produces = false := by decide
  refine ⟨s, hs, hall, rfl, ?_⟩
  exact (Sys.served_iff_inTime windowEnv (Equiv.injective _) (b := rent) minutes_timetable hno rfl
    creation_txn (Option.some_get _).symm (by decide +kernel) hs (of_decide_eq_true hf)
    (by decide)).mp hall

/-- The first tick is three minutes late: the payments of 07:02 and 07:03 have no job. -/
theorem slowTick_skips :
    windowEnv.Timetable rent.cronExpression rent.timezone minutes ∧
      Lts.run (Sys.step windowEnv) Sys.init [.advance start] = some beforeCreation ∧
      beforeCreation.txn? windowEnv creation = some (.createSubscription rent) ∧
      beforeCreation.step windowEnv creation = some afterCreation ∧
      ∃ s, Lts.run (Sys.step windowEnv) afterCreation (tick (start + seconds 180) jobId runId) =
          some s ∧
        (s.db.sub? subId).bind (·.nextFireAt) = some (start + seconds 240) ∧
        start + seconds 120 ∈ minutes ∧ ¬ s.db.HasWindow (subId, start + seconds 120) := by
  refine ⟨minutes_timetable, rfl, creation_txn, (Option.some_get _).symm, ?_⟩
  obtain ⟨s, hs, hp⟩ := Lts.exists_run
    (p := fun s : Sys => decide ((s.db.sub? subId).bind (·.nextFireAt) =
      some (start + seconds 240)) && s.db.scheduledJobs.all fun j =>
        decide (j.window ≠ (subId, start + seconds 120)))
    (show (Lts.run (Sys.step windowEnv) afterCreation
      (tick (start + seconds 180) jobId runId)).any _ = true by decide +kernel)
  obtain ⟨hf, hj⟩ := (Bool.and_eq_true _ _).mp hp
  refine ⟨s, hs, of_decide_eq_true hf, rfl, ?_⟩
  rintro ⟨j, hmem, hwin⟩
  exact of_decide_eq_true (List.all_eq_true.mp hj j hmem) hwin

end Demo

end PaymentScheduler
