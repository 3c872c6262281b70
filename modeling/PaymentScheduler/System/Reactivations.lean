import PaymentScheduler.System.Windows

/-!
# Reactivations

A job is created at the `next_fire_at` of its subscription. So no job after the reactivation at `r`
is for a window up to `r` as long as `next_fire_at` is after `r` (`Ahead`). The ticks keep that:
they compute the next time from the clock. A resume computes it again, but from the time at which it
has read the row; a PATCH to ACTIVE leaves the one of before the pause.

- `Ahead.step`: one step; `Ahead.reactivate`: the step that makes the subscription ACTIVE.
- `jobs_after_reactivation`: every run of the system.
-/

namespace PaymentScheduler

/-- `get_next` gives a time after the one that it starts from. -/
def Env.Advances (env : Env) : Prop :=
  ∀ expression zone t o, env.getNext expression zone t = some o → t < o

/-- The `next_fire_at` that a request sets for the subscription `x`, or leaves as it is, is after
`r`. -/
def Txn.FiresAfter (r : Time) (x : UUID) (db : Db) : Txn → Prop
  | resume id n => id = x → r < n
  | updateSubscription id c => id = x → ∀ b f, db.sub? x = some b →
      c.nextFireAt.or b.nextFireAt = some f → r < f
  | _ => True

namespace Sys

variable {env : Env} {s s' : Sys} {a : Action} {r : Time} {x : UUID}

/-- The subscription `x` fires after `r`, and schedulers are going to let it. -/
structure Ahead (r : Time) (x : UUID) (s : Sys) : Prop where
  clock : r ≤ s.clock
  next : ∀ {b f}, s.db.sub? x = some b → b.nextFireAt = some f → r < f
  writes : ∀ {k w n}, w ∈ (s.schedulers k).writes → w.subscriptionId = x →
    w.advance = .nextFireAt n → r < n

/-- The time that a scheduler computes is after the present one. -/
theorem createJobForSubscription_advance (hnext : env.Advances) {now : Time} {epoch : Nat}
    {since : Time} {b : Subscription} {jobId runId : UUID} {w : WindowWrite} {n : Time}
    (h : Scheduler.createJobForSubscription env now epoch since b jobId runId = some w)
    (hn : w.advance = .nextFireAt n) : now < n := by
  obtain ⟨fireAt, -, rfl⟩ := Option.map_eq_some_iff.mp h
  dsimp only at hn
  split at hn
  · rename_i t ht
    cases hn
    exact hnext _ _ _ _ ht
  · cases hn

/-- What schedulers are going to write after a step. -/
theorem Ahead.step_writes (hA : Ahead r x s) (hnext : env.Advances) (hL : Locking env s)
    (h : s.step env a = some s') {k : Nat} {w : WindowWrite} {n : Time}
    (hw : w ∈ (s'.schedulers k).writes) (hx : w.subscriptionId = x)
    (hn : w.advance = .nextFireAt n) : r < n := by
  obtain ⟨hw, -⟩ | ⟨-, b, epoch, since, jobId, runId, -, -, hb⟩ := hL.writes_cases h hw
  · exact hA.writes hw hx hn
  · exact hA.clock.trans_lt (createJobForSubscription_advance hnext hb hn)

/-- The `next_fire_at` after a transaction. -/
theorem Ahead.step_next (hA : Ahead r x s) (hnext : env.Advances) {t : Txn}
    (ht : s.txn? env a = some t) (hf : t.FiresAfter r x s.db) (hc : t.apply s.db = some s'.db)
    {b : Subscription} {f : Time} (hb : s'.db.sub? x = some b) (hbf : b.nextFireAt = some f) :
    r < f := by
  obtain ⟨b₀, hb₀, rfl⟩ | ⟨-, rfl⟩ := Txn.sub?_cases hc hb
  · have hid : b₀.id = x := Db.sub?_id hb₀
    generalize hb' : t.setSub s.db b₀ = b' at hbf
    have hre := t.setSub_retimes s.db b₀
    rw [hb'] at hre
    cases hre with
    | keep _ _ _ _ hkeep =>
      rw [hkeep] at hbf
      exact hA.next hb₀ hbf
    | advance hw hx ha _ _ _ hset =>
      rw [hset] at hbf
      cases hbf
      obtain ⟨k, hws⟩ := batch_writes ht
      exact hA.writes (hws _ hw) (hx.trans hid) ha
    | resume =>
      cases hbf
      exact hf hid
    | change => exact hf hid b₀ f hb₀ hbf
  · obtain ⟨q, b', st, rfl, hst⟩ := request_of_txn? ht rfl
    obtain ⟨-, -, -, n, hn, hget⟩ := Api.step_create hst
    rw [hn] at hbf
    cases hbf
    exact hA.clock.trans_lt (hnext _ _ _ _ hget)

/-- The requests for the subscription `x` that commit fire after `r`. -/
def FiresAfter (env : Env) (r : Time) (x : UUID) : Sys → Action → Sys → Prop :=
  OnCommit env fun db t => t.FiresAfter r x db

theorem Ahead.step (hA : Ahead r x s) (hnext : env.Advances) (hL : Locking env s)
    (hf : FiresAfter env r x s a s') (h : s.step env a = some s') : Ahead r x s' where
  clock := hA.clock.trans (step_clock h)
  next hb hbf := by
    obtain ⟨-, hdb⟩ | ⟨t, ht, hc⟩ := step_db h
    · rw [hdb] at hb
      exact hA.next hb hbf
    · exact hA.step_next hnext ht (hf t ht) hc hb hbf
  writes := hA.step_writes hnext hL h

/-- The step makes the subscription `x` ACTIVE, which was PAUSED or CANCELLED. -/
def Reactivates (x : UUID) (s s' : Sys) : Prop :=
  ∃ b b', s.db.sub? x = some b ∧ b.status ≠ .active ∧ s'.db.sub? x = some b' ∧ b'.status = .active

theorem reactivates_iff {x : UUID} : Reactivates x s s' ↔
    ((s.db.sub? x).any (fun b => b.status ≠ .active) &&
      (s'.db.sub? x).any fun b => b.status = .active) = true := by
  simp only [Reactivates, Bool.and_eq_true, Option.any_eq_true, decide_eq_true_eq]
  constructor
  · rintro ⟨b, b', hb, hne, hb', hactive⟩
    exact ⟨⟨b, hb, hne⟩, b', hb', hactive⟩
  · rintro ⟨⟨b, hb, hne⟩, b', hb', hactive⟩
    exact ⟨b, b', hb, hne, hb', hactive⟩

/-- A subscription that is not ACTIVE is not prepared by a scheduler, so after a reactivation only
what the request has set counts. -/
theorem Ahead.reactivate (hL : Locking env s) (h : s.step env a = some s')
    (hx : Reactivates x s s') (hf : FiresAfter env s.clock x s a s') : Ahead s.clock x s' := by
  obtain ⟨b, b', hb, hne, hb', hactive⟩ := hx
  obtain ⟨-, hdb⟩ | ⟨t, ht, hc⟩ := step_db h
  · rw [hdb, hb] at hb'
    cases hb'
    exact absurd hactive hne
  have hid : b.id = x := Db.sub?_id hb
  have hset : t.setSub s.db b = b' := by
    rw [Txn.sub?_set hc hb] at hb'
    exact Option.some.inj hb'
  have hre := t.setSub_retimes s.db b
  rw [hset] at hre
  have hnow := hf t ht
  refine ⟨step_clock h, fun {b₁ f} hb₁ hbf => ?_, fun {k w n} hw hx hn => ?_⟩
  · rw [hb'] at hb₁
    cases hb₁
    cases hre with
    | keep _ _ _ _ _ hstatus => exact absurd (hstatus hactive) hne
    | advance _ _ _ _ _ _ _ hstatus => exact absurd (hstatus hactive) hne
    | resume =>
      cases hbf
      exact hnow hid
    | change => exact hnow hid b f hb hbf
  · obtain ⟨hw, -⟩ | ⟨hdb, b₁, epoch, since, jobId, runId, -, -, hpre⟩ := hL.writes_cases h hw
    · obtain ⟨b₁, hb₁, hactive₁, -⟩ := hL.write_row hw
      rw [hx, hb] at hb₁
      cases hb₁
      exact absurd hactive₁ hne
    · rw [hdb, hb] at hb'
      cases hb'
      exact absurd hactive hne

/-- Each new job of the subscription `x` is for a window after `r`. -/
theorem Ahead.jobs (hA : Ahead r x s) (hL : Locking env s) (hp : a.produces = false)
    (h : s.step env a = some s') {j : ScheduledJob} {i : UUID} (hn : s.db.job? i = none)
    (hj : s'.db.job? i = some j) (hx : j.subscriptionId = x) : r < j.scheduledFor := by
  obtain ⟨k, w, hw, rfl⟩ := newJob_write h hp hn hj
  obtain ⟨b, hb, -, hfire⟩ := hL.write_row hw
  rw [show w.subscriptionId = x from hx] at hb
  exact hA.next hb hfire

/-- The jobs of the subscription `x` that are not in `db₀` are for windows after `r`. -/
def JobsAfter (db₀ : Db) (r : Time) (x : UUID) (s : Sys) : Prop :=
  ∀ i j, s.db.job? i = some j → j.subscriptionId = x → db₀.job? i = none → r < j.scheduledFor

theorem JobsAfter.step {db₀ : Db} (hJ : JobsAfter db₀ r x s) (hA : Ahead r x s)
    (hL : Locking env s) (hp : a.produces = false) (h : s.step env a = some s') :
    JobsAfter db₀ r x s' := by
  intro i j hj hx hn
  cases hi : s.db.job? i with
  | none => exact hA.jobs hL hp h hi hj hx
  | some j₀ =>
    -- The window of a job that is there is never written.
    have hkeep : j.subscriptionId = j₀.subscriptionId ∧ j.scheduledFor = j₀.scheduledFor := by
      obtain ⟨-, hdb⟩ | ⟨t, ht, hc⟩ := step_db h
      · rw [hdb, hi] at hj
        cases hj
        exact ⟨rfl, rfl⟩
      · rw [Txn.job?_set hc hi] at hj
        cases hj
        exact ⟨(Txn.setJob_frame j₀).2.1, (Txn.setJob_frame j₀).2.2.1⟩
    rw [hkeep.2]
    exact hJ i j₀ hi (hkeep.1.symm.trans hx) hn

/-- A request makes the subscription `x` ACTIVE at `r`: in every run from there without other
producers, where each request for `x` sets a `next_fire_at` after `r`, or leaves one, every new job
of `x` is for a window after `r`. -/
theorem jobs_after_reactivation (env : Env) (hnext : env.Advances) {s s' : Sys} {a : Action}
    (hs : Reachable env s) (h : s.step env a = some s') {x : UUID} (hx : Reactivates x s s')
    {as : List Action} (hno : ∀ a ∈ as, a.produces = false)
    (hf : Lts.Along (step env) (FiresAfter env s.clock x) s (a :: as)) {s'' : Sys}
    (hr : Lts.run (step env) s' as = some s'') :
    ∀ j ∈ s''.db.scheduledJobs, j.subscriptionId = x → s'.db.job? j.id = none →
      s.clock < j.scheduledFor := by
  obtain ⟨hfirst, hrest⟩ := hf s' h
  have hL' : Locking env s' := hs.locking.step hs.owned.wf h
  have hI' : Owned s' := hs.owned.step h
  obtain ⟨-, -, hI, hJ⟩ := Lts.run_inv_along
    (I := fun u => Ahead s.clock x u ∧ Locking env u ∧ Owned u ∧ JobsAfter s'.db s.clock x u)
    (fun hu hP hstep => ⟨hu.1.step hnext hu.2.1 hP.2 hstep, hu.2.1.step hu.2.2.1.wf hstep,
      hu.2.2.1.step hstep, hu.2.2.2.step hu.1 hu.2.1 hP.1 hstep⟩)
    ⟨Ahead.reactivate hs.locking h hx hfirst, hL', hI', fun i j hj _ hn => by
      rw [hj] at hn
      cases hn⟩
    ((Lts.along_of_mem hno).and hrest) hr
  intro j hj hjx hn
  rw [hI.wf.job?_mem] at hj
  exact hJ j.id j hj hjx hn

end Sys

namespace Demo

theorem env_advances : env.Advances := by
  intro expression zone t o h
  simp only [env] at h
  split at h
  · cases h
    have := Int.lt_ediv_add_one_mul_self t (show 0 < seconds 60 by decide)
    rw [Int.add_mul, Int.one_mul] at this
    exact this
  · cases h

/-- A subscription is paused. -/
def pausedLong : List Action :=
  [.advance start,
    .request 0 (.begin (.create (body policy) subId)),
    .request 1 (.begin (.update subId { status := some "PAUSED" })),
    .request 1 .commit,
    .advance (start + seconds 600)]

/-- A tick that serves the subscription. -/
def served : List Action :=
  [.schedule 0 .start, .schedule 0 (.select 1 [subId] []), .schedule 0 (.process jobId runId),
    .schedule 0 .commit]

/-- The transactions of a resume to a time after `r`, and of a tick. -/
def resumesAfter (r : Time) : Txn → Bool
  | .resume _ n => r < n
  | .schedule _ => true
  | _ => false

theorem firesAfter_of_resumesAfter {r : Time} {x : UUID} {db : Db} {t : Txn}
    (h : resumesAfter r t = true) : t.FiresAfter r x db := by
  cases t with
  | resume id n => exact fun _ => of_decide_eq_true h
  | schedule ws => trivial
  | _ => cases h

theorem resumed_serves_later :
    ∃ s s' s'',
      Lts.run (Sys.step env) Sys.init (pausedLong ++ [.request 2 (.begin (.resume subId))]) =
        some s ∧ s.step env (.request 2 .commit) = some s' ∧
      Lts.run (Sys.step env) s' served = some s'' ∧
      decide (s''.db.scheduledJobs.length = 1) = true ∧
      ∀ j ∈ s''.db.scheduledJobs, j.subscriptionId = subId → s'.db.job? j.id = none →
        s.clock < j.scheduledFor := by
  have heval : ((Lts.run (Sys.step env) Sys.init
      (pausedLong ++ [.request 2 (.begin (.resume subId))])).any fun s =>
      decide (Lts.Along (Sys.step env) (fun s₁ a _ => (s₁.txn? env a).all (resumesAfter s.clock)) s
        (.request 2 .commit :: served)) &&
      (s.step env (.request 2 .commit)).any fun s' =>
        ((s.db.sub? subId).any (fun b => b.status ≠ .active) &&
          (s'.db.sub? subId).any fun b => b.status = .active) &&
        (Lts.run (Sys.step env) s' served).any fun s'' => s''.db.scheduledJobs.length = 1) =
      true := by
    decide +kernel
  obtain ⟨s, hr, hp⟩ := Lts.exists_run heval
  obtain ⟨hlate, hp⟩ := Bool.and_eq_true_iff.mp hp
  obtain ⟨s', hs', hp⟩ := (Option.any_eq_true _ _).mp hp
  obtain ⟨hx, hp⟩ := Bool.and_eq_true_iff.mp hp
  obtain ⟨s'', hr', hjob⟩ := Lts.exists_run hp
  have hf : Lts.Along (Sys.step env) (Sys.FiresAfter env s.clock subId) s
      (.request 2 .commit :: served) := by
    refine (of_decide_eq_true hlate).mono fun hall t ht => ?_
    rw [ht] at hall
    exact firesAfter_of_resumesAfter hall
  exact ⟨s, s', s'', hr, hs', hr', hjob, Sys.jobs_after_reactivation env env_advances ⟨_, hr⟩ hs'
    (Sys.reactivates_iff.mpr hx) (by decide) hf hr'⟩

theorem patched_serves_elapsed :
    ¬ ∀ s s' s'' a x as, Sys.Reachable env s → s.step env a = some s' → Sys.Reactivates x s s' →
      (∀ a ∈ as, a.produces = false) → Lts.run (Sys.step env) s' as = some s'' →
      ∀ j ∈ s''.db.scheduledJobs, j.subscriptionId = x → s'.db.job? j.id = none →
        s.clock < j.scheduledFor := by
  intro h
  have heval : ((Lts.run (Sys.step env) Sys.init
      (pausedLong ++
        [.request 2 (.begin (.update subId { status := some "ACTIVE" }))])).any fun s =>
      (s.step env (.request 2 .commit)).any fun s' =>
        ((s.db.sub? subId).any (fun b => b.status ≠ .active) &&
          (s'.db.sub? subId).any fun b => b.status = .active) &&
        (Lts.run (Sys.step env) s' served).any fun s'' => s''.db.scheduledJobs.any fun j =>
          j.subscriptionId = subId && (s'.db.job? j.id).isNone && j.scheduledFor ≤ s.clock) =
      true := by decide +kernel
  obtain ⟨s, hr, hp⟩ := Lts.exists_run heval
  obtain ⟨s', hs', hp⟩ := (Option.any_eq_true _ _).mp hp
  obtain ⟨hx, hp⟩ := Bool.and_eq_true_iff.mp hp
  obtain ⟨s'', hr', hjob⟩ := Lts.exists_run hp
  obtain ⟨j, hj, hp⟩ := List.any_eq_true.mp hjob
  simp only [Bool.and_eq_true, decide_eq_true_eq, Option.isNone_iff_eq_none] at hp
  obtain ⟨⟨hjx, hn⟩, hle⟩ := hp
  have hlt := h s s' s'' _ subId served ⟨_, hr⟩ hs' (Sys.reactivates_iff.mpr hx) (by decide) hr' j
    hj hjx hn
  exact absurd hlt (not_lt.mpr hle)

end Demo

end PaymentScheduler
