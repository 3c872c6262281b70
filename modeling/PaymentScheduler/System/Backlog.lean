import PaymentScheduler.System.Reactivations

/-!
# The backlog of the scheduler

The backlog is what is due at an instant `t₀`; one scheduler ticks from `t₀` on, without errors, and
nothing else writes. `ORDER BY next_fire_at` puts the backlog before the rest of the lookahead, so a
tick takes all of it, or 100 subscriptions of it (`Phase.Takes`); and what it has taken does not
come back, since `get_next` advances (`Env.Advances`).

- `Phase.Takes.step`: what a scheduler has selected, before and after a step of it.
- `Db.backlog_schedule`: the backlog after a batch.
- `Clearing.step`, `Clearing.run`: what is left of the backlog.
- `backlog_cleared`: the number of ticks, and the jobs.
-/

namespace PaymentScheduler

/-- The subscription is ACTIVE and due at `t`. -/
def Subscription.dueAt (t : Time) (b : Subscription) : Bool :=
  b.status = .active ∧ b.nextFireAt.any fun f => f ≤ t

/-- The subscription is PAUSED, or fires after `t`. -/
def Subscription.Cleared (t : Time) (b : Subscription) : Prop :=
  b.status = .paused ∨ ∃ f, b.nextFireAt = some f ∧ t < f

/-- The advance leads past `t`. -/
def Advance.Clears (t : Time) : Advance → Prop
  | nextFireAt n => t < n
  | pause _ => True

/-- The steps of the scheduler `k` in ticks without errors, where no other transaction has locked a
row, and the time that passes. -/
def Action.ticks (k : Nat) : Action → Bool
  | advance _ => true
  | schedule k' (.select _ _ skip) => k' = k && skip.isEmpty
  | schedule _ .abort => false
  | schedule k' _ => k' = k
  | _ => false

/-- The end of a tick. -/
def Action.endsTick : Action → Bool
  | schedule _ .commit => true
  | _ => false

namespace Subscription

variable {t : Time} {b : Subscription} {a : Advance}

theorem dueAt_iff : b.dueAt t = true ↔ b.status = .active ∧ ∃ f, b.nextFireAt = some f ∧ f ≤ t := by
  simp [dueAt, Option.any_eq_true]

theorem Cleared.not_dueAt (h : b.Cleared t) : b.dueAt t = false := by
  rw [Bool.eq_false_iff]
  intro hdue
  obtain ⟨hactive, f, hf, hle⟩ := dueAt_iff.mp hdue
  obtain hp | ⟨f', hf', hlt⟩ := h
  · rw [hactive] at hp
    cases hp
  · rw [hf] at hf'
    cases hf'
    exact absurd hlt (not_lt.mpr hle)

theorem Cleared.of_advance (h : a.Clears t) : (b.advance a).Cleared t := by
  cases a with
  | nextFireAt n => exact .inr ⟨n, rfl, h⟩
  | pause now => exact .inl rfl

end Subscription

namespace Db

variable {db db' : Db} {t : Time} {x : UUID} {b : Subscription} {ws : List WindowWrite}

/-- The ids of what is due at `t`. -/
def backlog (t : Time) (db : Db) : Finset UUID :=
  ((db.subscriptions.filter (·.dueAt t)).map (·.id)).toFinset

theorem mem_backlog (hw : db.Wf) :
    x ∈ db.backlog t ↔ ∃ b, db.sub? x = some b ∧ b.dueAt t = true := by
  simp only [backlog, List.mem_toFinset, List.mem_map, List.mem_filter]
  constructor
  · rintro ⟨b, ⟨hb, hdue⟩, rfl⟩
    exact ⟨b, hw.sub?_mem.mp hb, hdue⟩
  · rintro ⟨b, hb, hdue⟩
    exact ⟨b, ⟨Table.get?_mem hb, hdue⟩, Db.sub?_id hb⟩

theorem card_backlog_le : (db.backlog t).card ≤ db.subscriptions.countP (·.dueAt t) := by
  refine (List.toFinset_card_le _).trans ?_
  rw [List.length_map, List.countP_eq_length_filter]

/-- A row after a batch: it advances where the batch has a write for it. -/
theorem schedule_row (h : db.schedule ws = some db') (hnd : (ws.map (·.subscriptionId)).Nodup)
    (hb : db.sub? x = some b) :
    (x ∉ ws.map (·.subscriptionId) ∧ db'.sub? x = some b) ∨
      ∃ w ∈ ws, w.subscriptionId = x ∧ db'.sub? x = some (b.advance w.advance) := by
  have hid : b.id = x := Db.sub?_id hb
  rw [schedule_sub? h, hb, Option.map_some]
  by_cases hx : x ∈ ws.map (·.subscriptionId)
  · obtain ⟨w, hw, hwx⟩ := List.mem_map.mp hx
    exact .inr ⟨w, hw, hwx, by rw [advanceAll_of_mem hnd hw (hid.trans hwx.symm)]⟩
  · exact .inl ⟨hx, by rw [advanceAll_of_not_mem (by rwa [hid])]⟩

/-- A batch takes its subscriptions out of the backlog, and adds none. -/
theorem backlog_schedule (hw : db.Wf) (h : db.schedule ws = some db')
    (hnd : (ws.map (·.subscriptionId)).Nodup) (hcl : ∀ w ∈ ws, w.advance.Clears t)
    (hx : x ∈ db'.backlog t) : x ∈ db.backlog t ∧ x ∉ ws.map (·.subscriptionId) := by
  have hw' : db'.Wf := Txn.wf (t := .schedule ws) hw h
  obtain ⟨b', hb', hdue⟩ := (mem_backlog hw').mp hx
  have hrow := schedule_sub? (x := x) h
  rw [hb'] at hrow
  obtain ⟨b, hb, -⟩ := Option.map_eq_some_iff.mp hrow.symm
  obtain ⟨hnot, hkeep⟩ | ⟨w, hws, -, hadv⟩ := schedule_row h hnd hb
  · rw [hb'] at hkeep
    cases hkeep
    exact ⟨(mem_backlog hw).mpr ⟨b', hb, hdue⟩, hnot⟩
  · rw [hb'] at hadv
    cases hadv
    rw [(Subscription.Cleared.of_advance (hcl w hws)).not_dueAt] at hdue
    cases hdue

end Db

namespace Scheduler

variable {env : Env} {db : Db} {now t₀ : Time} {st st' : State} {a : Action} {t : Option Txn}

/-- What a tick takes of the backlog: all of it, or 100 subscriptions of it and nothing else. -/
def Phase.Takes (t₀ : Time) (backlog : Finset UUID) : Phase → Prop
  | idle => True
  | started t => t₀ ≤ t
  | opened epoch since todo writes =>
    (∀ w ∈ writes, w.advance.Clears t₀) ∧
      ((∀ x ∈ backlog, x ∈ held (.opened epoch since todo writes)) ∨
        (held (.opened epoch since todo writes)).length = 100 ∧
          ∀ x ∈ held (.opened epoch since todo writes), x ∈ backlog)

theorem le_lookaheadCutoff (hla : 0 ≤ env.settings.schedulerLookaheadS) (t : Time) :
    t ≤ lookaheadCutoff env t := by
  have hround : roundHalfEven 0 ≤ roundHalfEven (env.settings.schedulerLookaheadS * 1000000) :=
    roundHalfEven_mono (by positivity)
  have hzero : roundHalfEven 0 = 0 := by decide +kernel
  rw [hzero] at hround
  exact Int.le_add_of_nonneg_right hround

/-- The selection of a tick. -/
theorem select_takes (hw : db.Wf) (hla : 0 ≤ env.settings.schedulerLookaheadS) {t : Time}
    (ht : t₀ ≤ t) {order : List UUID} {subs : List Subscription}
    (h : dueSubscriptions env db t order [] = some subs) (epoch : Nat) (since : Time) :
    (Phase.opened epoch since subs []).Takes t₀ (db.backlog t₀) := by
  refine ⟨nofun, ?_⟩
  simp only [held, List.map_nil, List.append_nil, List.length_map]
  obtain hall | ⟨hlen, hle⟩ := Table.select_le hw.subIds h t₀
  · refine .inl fun x hx => ?_
    obtain ⟨b, hb, hdue⟩ := (Db.mem_backlog hw).mp hx
    obtain ⟨hactive, f, hf, hft⟩ := Subscription.dueAt_iff.mp hdue
    have hcut : f ≤ lookaheadCutoff env t := hft.trans (ht.trans (le_lookaheadCutoff hla t))
    refine List.mem_map.mpr ⟨b, hall b (Table.get?_mem hb) ?_ ?_, Db.sub?_id hb⟩
    · simp [hactive, hf, hcut]
    · simpa [hf] using hft
  · refine .inr ⟨hlen, fun x hx => ?_⟩
    obtain ⟨b, hb, rfl⟩ := List.mem_map.mp hx
    obtain ⟨hmem, hdue⟩ := Table.mem_select hw.subIds h hb
    simp only [decide_eq_true_eq, Option.any_eq_true] at hdue
    obtain ⟨hactive, ⟨f, hf, -⟩, -⟩ := hdue
    have hft : f ≤ t₀ := by simpa [hf] using hle b hb
    exact (Db.mem_backlog hw).mpr
      ⟨b, hw.sub?_mem.mp hmem, Subscription.dueAt_iff.mpr ⟨hactive, f, hf, hft⟩⟩

/-- The write that is prepared for a subscription advances it past `t₀`. -/
theorem createJobForSubscription_clears (hnext : env.Advances) (hnow : t₀ ≤ now) {epoch : Nat}
    {since : Time} {b : Subscription} {jobId runId : UUID} {w : WindowWrite}
    (h : createJobForSubscription env now epoch since b jobId runId = some w) :
    w.advance.Clears t₀ := by
  cases hadv : w.advance with
  | nextFireAt n => exact hnow.trans_lt (Sys.createJobForSubscription_advance hnext h hadv)
  | pause t => trivial

/-- The next subscription moves from the rows to process to the writes; one without a
`next_fire_at` is not in the backlog. -/
theorem process_takes (hw : db.Wf) (hnext : env.Advances) (hnow : t₀ ≤ now) {epoch : Nat}
    {since : Time} {b : Subscription} {todo : List Subscription} {writes : List WindowWrite}
    {jobId runId : UUID} (hb : db.sub? b.id = some b)
    (h : (Phase.opened epoch since (b :: todo) writes).Takes t₀ (db.backlog t₀)) :
    (Phase.opened epoch since todo (writes ++
      (createJobForSubscription env now epoch since b jobId runId).toList)).Takes t₀
      (db.backlog t₀) := by
  obtain ⟨hcl, htakes⟩ := h
  refine ⟨fun w hw' => ?_, ?_⟩
  · rcases List.mem_append.mp hw' with hw' | hw'
    · exact hcl w hw'
    · exact createJobForSubscription_clears hnext hnow (Option.mem_toList.mp hw')
  cases hfire : b.nextFireAt with
  | none =>
    have hnot : b.id ∉ db.backlog t₀ := by
      intro hmem
      obtain ⟨b', hb', hdue⟩ := (Db.mem_backlog hw).mp hmem
      rw [hb] at hb'
      cases hb'
      obtain ⟨-, f, hf, -⟩ := Subscription.dueAt_iff.mp hdue
      rw [hfire] at hf
      cases hf
    simp only [createJobForSubscription, hfire, Option.map_none, Option.toList_none,
      List.append_nil]
    simp only [held, List.map_cons, List.cons_append, List.mem_cons] at htakes
    obtain hall | ⟨-, hin⟩ := htakes
    · refine .inl fun x hx => (hall x hx).resolve_left ?_
      rintro rfl
      exact hnot hx
    · exact absurd (hin b.id (.inl rfl)) hnot
  | some f =>
    have hperm : (held (.opened epoch since (b :: todo) writes)).Perm
        (held (.opened epoch since todo (writes ++
          (createJobForSubscription env now epoch since b jobId runId).toList))) := by
      simp only [createJobForSubscription, hfire, Option.map_some, Option.toList_some, held,
        List.map_cons, List.map_append, List.map_nil, List.cons_append, ← List.append_assoc]
      exact (List.perm_append_singleton _ _).symm
    simpa only [hperm.length_eq, hperm.mem_iff] using htakes

/-- A step of a scheduler, before its commit. -/
theorem Phase.Takes.step (hw : db.Wf) (hnext : env.Advances)
    (hla : 0 ≤ env.settings.schedulerLookaheadS) (hnow : t₀ ≤ now) (hok : st.Ok env db) {k : Nat}
    (ha : (PaymentScheduler.Action.schedule k a).ticks k = true)
    (h : Scheduler.step env db now st a = some (st', t))
    (hT : st.Takes t₀ (db.backlog t₀)) : t = none → st'.Takes t₀ (db.backlog t₀) := by
  intro ht
  cases step_move h with
  | start => exact hnow
  | @select t epoch order skip subs hs =>
    obtain rfl : skip = [] := by simpa [PaymentScheduler.Action.ticks] using ha
    exact select_takes hw hla hT hs epoch now
  | process => exact process_takes hw hnext hnow (hok.1 _ List.mem_cons_self).1 hT
  | commit => cases ht
  | abort => cases ha

end Scheduler

namespace Sys

variable {env : Env} {s₀ s s' : Sys} {t₀ : Time} {k n : Nat} {a : Action}

/-- `b` is no longer in the backlog, and the fingerprint of the window that was due has a job. -/
def Served (env : Env) (t₀ : Time) (db : Db) (b : Subscription) : Prop :=
  (∃ b', db.sub? b.id = some b' ∧ b'.Cleared t₀) ∧
    ∀ f, b.nextFireAt = some f →
      ∃ j ∈ db.scheduledJobs, j.fingerprint = JobFingerprint.forJob env b.id f

/-- `n` subscriptions of the backlog of `s₀` are left at most; all others are served. -/
structure Clearing (env : Env) (s₀ : Sys) (t₀ : Time) (k n : Nat) (s : Sys) : Prop where
  wf : s.db.Wf
  locking : Locking env s
  clock : t₀ ≤ s.clock
  takes : (s.schedulers k).Takes t₀ (s.db.backlog t₀)
  left : (s.db.backlog t₀).card ≤ n
  jobs : ∀ j ∈ s.db.scheduledJobs, j ∈ s₀.db.scheduledJobs ∨
    j.fingerprint = JobFingerprint.forJob env j.subscriptionId j.scheduledFor
  served : ∀ b ∈ s₀.db.subscriptions, b.dueAt t₀ = true →
    s.db.sub? b.id = some b ∨ Served env t₀ s.db b

/-- A batch serves what it is for. -/
theorem Served.schedule {db db' : Db} {ws : List WindowWrite} (h : db.schedule ws = some db')
    (hnd : (ws.map (·.subscriptionId)).Nodup)
    {epoch : Nat} {since : Time}
    (hok : (Scheduler.Phase.opened epoch since [] ws).Ok env db)
    (hcl : ∀ w ∈ ws, w.advance.Clears t₀) {b : Subscription}
    (hb : db.sub? b.id = some b ∨ Served env t₀ db b) :
    db'.sub? b.id = some b ∨ Served env t₀ db' b := by
  obtain hb | ⟨⟨b', hb', hclear⟩, hjob⟩ := hb
  · obtain ⟨-, hkeep⟩ | ⟨w, hw, hwb, hadv⟩ := Db.schedule_row h hnd hb
    · exact .inl hkeep
    · refine .inr ⟨⟨_, hadv, .of_advance (hcl w hw)⟩, fun f hf => ?_⟩
      obtain ⟨j, hj, hfp⟩ := Db.schedule_fingerprint h hw
      obtain ⟨b', hb', -, hfire, hwf⟩ := hok.2 w hw
      rw [hwb, hb] at hb'
      cases hb'
      rw [hf] at hfire
      cases hfire
      exact ⟨j, hj, by rw [hfp, hwf, hwb]⟩
  · refine .inr ⟨?_, fun f hf => ?_⟩
    · obtain ⟨-, hkeep⟩ | ⟨w, hw, -, hadv⟩ := Db.schedule_row h hnd hb'
      · exact ⟨b', hkeep, hclear⟩
      · exact ⟨_, hadv, .of_advance (hcl w hw)⟩
    · obtain ⟨j, hj, hfp⟩ := hjob f hf
      exact ⟨j, (Db.schedule_jobs h).1 hj, hfp⟩

/-- The end of a tick: 100 subscriptions fewer, or none left. -/
theorem Clearing.commit (hC : Clearing env s₀ t₀ k n s)
    (h : s.step env (.schedule k .commit) = some s') : Clearing env s₀ t₀ k (n - 100) s' := by
  have hL := hC.locking.step hC.wf h
  have hclock := hC.clock.trans (step_clock h)
  obtain ⟨st, t, db', hst, -, hc, -, rfl⟩ := step_schedule h
  have hok := hC.locking.ok k
  have hnd := hC.locking.distinct k
  have htakes := hC.takes
  generalize hp : s.schedulers k = p at hst hok hnd htakes
  cases Scheduler.step_move hst with
  | @commit epoch since ws =>
    obtain ⟨hcl, htakes⟩ := htakes
    simp only [Scheduler.held, List.map_nil, List.nil_append] at hnd htakes
    have hw' : db'.Wf := Txn.wf (t := .schedule ws) hC.wf hc
    have hsub : db'.backlog t₀ ⊆ s.db.backlog t₀ \ (ws.map (·.subscriptionId)).toFinset := by
      intro x hx
      have hx := Db.backlog_schedule hC.wf hc hnd hcl hx
      rw [Finset.mem_sdiff, List.mem_toFinset]
      exact hx
    refine ⟨hw', hL, hclock, ?_, ?_, fun j hj => ?_, fun b hb hdue => ?_⟩
    · simp [Scheduler.Phase.Takes]
    · obtain hall | ⟨hlen, hin⟩ := htakes
      · have hnone : db'.backlog t₀ = ∅ := by
          refine Finset.subset_empty.mp (hsub.trans fun x hx => ?_)
          rw [Finset.mem_sdiff, List.mem_toFinset] at hx
          exact absurd (hall x hx.1) hx.2
        simp [hnone]
      · have hcard := Finset.card_le_card hsub
        have hle := hC.left
        rw [Finset.card_sdiff_of_subset, List.toFinset_card_of_nodup hnd, hlen] at hcard
        · exact hcard.trans (Nat.sub_le_sub_right hle 100)
        · intro x hx
          exact hin x (List.mem_toFinset.mp hx)
    · obtain hj | ⟨w, hw, rfl⟩ := (Db.schedule_jobs hc).2 hj
      · exact hC.jobs j hj
      · obtain ⟨b, -, -, -, hfp⟩ := hok.2 w hw
        exact .inr hfp
    · exact Served.schedule hc hnd hok hcl (hC.served b hb hdue)

/-- A step of a tick before its end, or of the clock. -/
theorem Clearing.quiet (hC : Clearing env s₀ t₀ k n s) (hnext : env.Advances)
    (hla : 0 ≤ env.settings.schedulerLookaheadS) (ha : a.ticks k = true)
    (he : a.endsTick = false) (h : s.step env a = some s') : Clearing env s₀ t₀ k n s' := by
  have hL := hC.locking.step hC.wf h
  have hclock := hC.clock.trans (step_clock h)
  suffices hs : s'.db = s.db ∧ (s'.schedulers k).Takes t₀ (s.db.backlog t₀) by
    obtain ⟨hdb, htakes⟩ := hs
    rw [← hdb] at htakes
    refine ⟨?_, hL, hclock, htakes, ?_, ?_, ?_⟩ <;> rw [hdb]
    · exact hC.wf
    · exact hC.left
    · exact hC.jobs
    · exact hC.served
  cases a with
  | advance t =>
    obtain ⟨⟨s₁, t'⟩, hp, h⟩ := Option.bind_eq_some_iff.mp h
    simp only [plan] at hp
    split at hp <;> cases hp
    cases h
    exact ⟨rfl, hC.takes⟩
  | schedule k' b =>
    obtain rfl : k' = k := by cases b <;> simp_all [Action.ticks]
    obtain ⟨st, t, db', hst, -, hc, -, rfl⟩ := step_schedule h
    have hnone : t = none := by
      generalize s.schedulers k' = p at hst
      cases Scheduler.step_move hst with
      | commit => cases he
      | _ => rfl
    dsimp only
    rw [Function.update_self]
    refine ⟨?_, Scheduler.Phase.Takes.step hC.wf hnext hla hC.clock (hC.locking.ok k') ha hst
      hC.takes hnone⟩
    rw [hnone] at hc
    exact hc
  | _ => cases ha

theorem Clearing.step (hC : Clearing env s₀ t₀ k n s) (hnext : env.Advances)
    (hla : 0 ≤ env.settings.schedulerLookaheadS) (ha : a.ticks k = true)
    (h : s.step env a = some s') :
    Clearing env s₀ t₀ k (n - 100 * if a.endsTick then 1 else 0) s' := by
  cases he : a.endsTick with
  | false => exact hC.quiet hnext hla ha he h
  | true =>
    cases a with
    | schedule k' b =>
      cases b with
      | commit =>
        obtain rfl : k' = k := of_decide_eq_true ha
        exact hC.commit h
      | _ => cases he
    | _ => cases he

theorem Clearing.run (hC : Clearing env s₀ t₀ k n s) (hnext : env.Advances)
    (hla : 0 ≤ env.settings.schedulerLookaheadS) {as : List Action}
    (has : ∀ a ∈ as, a.ticks k = true) (hr : Lts.run (Sys.step env) s as = some s') :
    Clearing env s₀ t₀ k (n - 100 * as.countP (·.endsTick)) s' := by
  induction as generalizing s n with
  | nil =>
    cases hr
    exact hC
  | cons a as ih =>
    obtain ⟨s₁, h, hr⟩ := Lts.run_cons.mp hr
    have hC₁ := hC.step hnext hla (has a List.mem_cons_self) h
    have hC' := ih hC₁ (fun b hb => has b (List.mem_cons_of_mem a hb)) hr
    rw [List.countP_cons, Nat.add_comm, Nat.mul_add, ← Nat.sub_sub]
    exact hC'

/-- No scheduler is at work, and no row is locked. -/
structure SchedulersIdle (s : Sys) : Prop where
  idle : ∀ k, s.schedulers k = .idle
  locks : s.locks = []

theorem SchedulersIdle.clearing (hidle : s.SchedulersIdle) (hw : s.db.Wf) (ht : t₀ ≤ s.clock) :
    Clearing env s t₀ k (s.db.subscriptions.countP (·.dueAt t₀)) s where
  wf := hw
  locking :=
    { ok := fun k => by rw [hidle.idle k]; trivial
      locked := fun {k i} hi => by rw [hidle.idle k] at hi; cases hi
      exclusive := fun {k k' i} hi => by rw [hidle.locks] at hi; cases hi
      distinct := fun k => by rw [hidle.idle k]; exact List.nodup_nil }
  clock := ht
  takes := by rw [hidle.idle k]; trivial
  left := Db.card_backlog_le
  jobs j hj := .inl hj
  served b hb hdue := .inl (hw.sub?_mem.mp hb)

/-- From every state of the rows, with any number of subscriptions that are due at `t₀`: after a
tick for each hundred of them, or part of a hundred, each is PAUSED or fires after `t₀`, and there
is a job for its window that was due, unless the state had a job of another window under the
fingerprint of that one. -/
theorem backlog_cleared (env : Env) (hh : Function.Injective env.hexdigest) (hnext : env.Advances)
    (hla : 0 ≤ env.settings.schedulerLookaheadS) {s s' : Sys} (hw : s.db.Wf)
    (hidle : s.SchedulersIdle) {t₀ : Time} (ht : t₀ ≤ s.clock) {k : Nat} {as : List Action}
    (has : ∀ a ∈ as, a.ticks k = true) (hr : Lts.run (step env) s as = some s')
    (hn : (s.db.subscriptions.countP (·.dueAt t₀) + 99) / 100 ≤ as.countP (·.endsTick)) :
    ∀ b ∈ s.db.subscriptions, ∀ f, b.status = .active → b.nextFireAt = some f → f ≤ t₀ →
      (∃ b', s'.db.sub? b.id = some b' ∧ b'.Cleared t₀) ∧
        ((∀ j ∈ s.db.scheduledJobs, j.fingerprint = JobFingerprint.forJob env b.id f →
            j.window = (b.id, f)) →
          s'.db.HasWindow (b.id, f)) := by
  intro b hb f hactive hf hle
  have hdue : b.dueAt t₀ = true := Subscription.dueAt_iff.mpr ⟨hactive, f, hf, hle⟩
  have hstart : Clearing env s t₀ k _ s := hidle.clearing hw ht
  have hC := hstart.run hnext hla has hr
  have hnone : s'.db.backlog t₀ = ∅ := by
    have hcard := hC.left
    exact Finset.card_eq_zero.mp (by omega)
  obtain ⟨hrow, hjob⟩ : Served env t₀ s'.db b := by
    refine (hC.served b hb hdue).resolve_left fun hb' => ?_
    have hmem := (Db.mem_backlog hC.wf).mpr ⟨b, hb', hdue⟩
    rw [hnone] at hmem
    exact absurd hmem (Finset.notMem_empty _)
  refine ⟨hrow, fun hwin => ?_⟩
  obtain ⟨j, hj, hfp⟩ := hjob f hf
  obtain hj₀ | hown := hC.jobs j hj
  · exact ⟨j, hj, hwin j hj₀ hfp⟩
  · obtain ⟨hs, hft⟩ := JobFingerprint.forJob_inj hh (hown.symm.trans hfp)
    exact ⟨j, hj, by rw [ScheduledJob.window, hs, hft]⟩

end Sys

namespace Demo

/-- A subscription that is due at 07:01:00, the present time, and the jobs that are there. -/
def overdue (jobs : List ScheduledJob) : Sys where
  db :=
    { subscriptions :=
        [{ id := subId
           name := "Rent"
           description := none
           cronExpression := "* * * * *"
           timezone := "UTC"
           nextFireAt := some (start + seconds 60)
           paymentConfig := config.modelDump
           retryPolicy := policy.modelDump
           createdAt := start }]
      scheduledJobs := jobs }
  clock := start + seconds 60

/-- A job for 07:00:00 under the fingerprint of 07:01:00. -/
def squatter : ScheduledJob where
  id := entryId
  subscriptionId := subId
  scheduledFor := start
  fingerprint := JobFingerprint.forJob windowEnv subId (start + seconds 60)
  createdAt := start

/-- The lookahead ends a minute before the present time. -/
def backwardEnv : Env := { windowEnv with settings := { schedulerLookaheadS := -60 } }

/-- A tick that selects nothing. -/
def emptyTick : List Action :=
  [.schedule 0 .start, .schedule 0 (.select 1 [] []), .schedule 0 .commit]

theorem overdue_wf {jobs : List ScheduledJob} (h : jobs = [] ∨ jobs = [squatter]) :
    (overdue jobs).db.Wf where
  subIds := List.nodup_singleton _
  jobIds := by
    obtain rfl | rfl := h
    · exact List.nodup_nil
    · exact List.nodup_singleton _
  runIds := List.nodup_nil
  attempts := List.nodup_nil
  keyAttempts := List.nodup_nil
  jobSub j hj := by
    obtain rfl | rfl := h
    · cases hj
    · rw [List.mem_singleton.mp hj]
      exact ⟨_, rfl⟩
  runJob r hr := by cases hr
  keyRun k hk := by cases hk
  entryRun e he := by cases he

theorem overdue_idle (jobs : List ScheduledJob) : (overdue jobs).SchedulersIdle :=
  ⟨fun _ => rfl, rfl⟩

/-- A subscription that fires at `f`. -/
def firing (id : UUID) (f : Time) (status : SubscriptionStatus) : Subscription where
  id := id
  name := "Rent"
  description := none
  cronExpression := "* * * * *"
  timezone := "UTC"
  nextFireAt := some f
  paymentConfig := config.modelDump
  retryPolicy := policy.modelDump
  status := status
  createdAt := start

/-- At 07:01:00: two subscriptions are due, one is overdue, one fires within the lookahead, and one
is PAUSED. -/
def backlogged : Sys where
  db :=
    { subscriptions :=
        [firing subId (start + seconds 60) .active, firing 6 (start + seconds 60) .active,
          firing 7 start .active, firing 8 (start + seconds 120) .active, firing 9 start .paused] }
  clock := start + seconds 60

/-- The digests of the four jobs; the digests of all strings differ. -/
def backlogEnv : Env :=
  { env with
    hexdigest :=
      (((Equiv.swap "00000000-0000-4000-8000-000000000001:2024-06-01T07:01:00+00:00"
        "b8eee4b5a6f2bf81c07a41b299014705a1e64baddf16cee3e3e34d2a3da0791c").trans
      (Equiv.swap "00000000-0000-4000-8000-000000000006:2024-06-01T07:01:00+00:00"
        "c9bf3fd2d8e1652db9d0e40eee835127b4e242208041c2fcb2727ceb4d357024")).trans
      (Equiv.swap "00000000-0000-4000-8000-000000000007:2024-06-01T07:00:00+00:00"
        "eccab1cab41bfaa7525dbd2283987817356a5a81f6f5fd765fff23206d4af8bf")).trans
      (Equiv.swap "00000000-0000-4000-8000-000000000008:2024-06-01T07:02:00+00:00"
        "f9104a9433e8d2f6c19bd8de9c63b78319f5ca250c8f1c56580e8b29348d998b") }

/-- A tick that serves them, the two of 07:01:00 in either order. -/
def backlogTick : List Action :=
  [.schedule 0 .start, .schedule 0 (.select 1 [7, 6, subId, 8] []),
    .schedule 0 (.process 11 21), .schedule 0 (.process 12 22), .schedule 0 (.process 13 23),
    .schedule 0 (.process 14 24), .schedule 0 .commit]

theorem backlogged_wf : backlogged.db.Wf where
  subIds := by decide
  jobIds := List.nodup_nil
  runIds := List.nodup_nil
  attempts := List.nodup_nil
  keyAttempts := List.nodup_nil
  jobSub j hj := by cases hj
  runJob r hr := by cases hr
  keyRun k hk := by cases hk
  entryRun e he := by cases he

theorem backlogged_served : ∃ s', Lts.run (Sys.step backlogEnv) backlogged backlogTick = some s' ∧
    s'.db.scheduledJobs.length = 4 ∧
    ∀ b ∈ backlogged.db.subscriptions, ∀ f, b.status = .active → b.nextFireAt = some f →
      f ≤ start + seconds 60 →
      (∃ b', s'.db.sub? b.id = some b' ∧ b'.Cleared (start + seconds 60)) ∧
        ((∀ j ∈ backlogged.db.scheduledJobs,
            j.fingerprint = JobFingerprint.forJob backlogEnv b.id f → j.window = (b.id, f)) →
          s'.db.HasWindow (b.id, f)) := by
  have heval : (Lts.run (Sys.step backlogEnv) backlogged backlogTick).any (fun s' =>
      s'.db.scheduledJobs.length = 4) = true := by
    decide +kernel
  obtain ⟨s', hr, hlen⟩ := Lts.exists_run heval
  exact ⟨s', hr, of_decide_eq_true hlen, Sys.backlog_cleared backlogEnv (Equiv.injective _)
    env_advances (by decide) backlogged_wf ⟨fun _ => rfl, rfl⟩ le_rfl (k := 0) (by decide) hr
    (by decide)⟩

theorem overdue_not_served :
    (¬ ∀ s s' t₀ k as, s.db.Wf → s.SchedulersIdle → t₀ ≤ s.clock →
      (∀ a ∈ as, a.ticks k = true) →
      Lts.run (Sys.step windowEnv) s as = some s' →
      (s.db.subscriptions.countP (·.dueAt t₀) + 99) / 100 ≤ as.countP (·.endsTick) →
      ∀ b ∈ s.db.subscriptions, ∀ f, b.status = .active → b.nextFireAt = some f → f ≤ t₀ →
        s'.db.HasWindow (b.id, f)) ∧
    ¬ ∀ s s' t₀ k as, s.db.Wf → s.SchedulersIdle → t₀ ≤ s.clock →
      (∀ a ∈ as, a.ticks k = true) →
      Lts.run (Sys.step backwardEnv) s as = some s' →
      (s.db.subscriptions.countP (·.dueAt t₀) + 99) / 100 ≤ as.countP (·.endsTick) →
      ∀ b ∈ s.db.subscriptions, ∀ f, b.status = .active → b.nextFireAt = some f → f ≤ t₀ →
        ∃ b', s'.db.sub? b.id = some b' ∧ b'.Cleared t₀ := by
  constructor
  · intro h
    have heval : ((Lts.run (Sys.step windowEnv) (overdue [squatter]) served).any fun s' =>
        s'.db.scheduledJobs.all fun j => j.window ≠ (subId, start + seconds 60)) = true := by
      decide +kernel
    obtain ⟨s', hr, hp⟩ := Lts.exists_run heval
    obtain ⟨j, hj, hwin⟩ := h _ s' _ 0 served (overdue_wf (.inr rfl)) (overdue_idle _) le_rfl
      (by decide) hr (by decide) _ List.mem_cons_self _ rfl rfl le_rfl
    exact of_decide_eq_true (List.all_eq_true.mp hp j hj) hwin
  · intro h
    have heval : ((Lts.run (Sys.step backwardEnv) (overdue []) emptyTick).any fun s' =>
        (s'.db.sub? subId).all fun b => b.dueAt (start + seconds 60)) = true := by
      decide +kernel
    obtain ⟨s', hr, hp⟩ := Lts.exists_run heval
    obtain ⟨b', hb', hclear⟩ := h _ s' _ 0 emptyTick (overdue_wf (.inl rfl)) (overdue_idle _)
      le_rfl (by decide) hr (by decide) _ List.mem_cons_self _ rfl rfl le_rfl
    rw [show s'.db.sub? subId = some b' from hb', Option.all_some] at hp
    exact absurd hp (Bool.eq_false_iff.mp hclear.not_dueAt)

end Demo

end PaymentScheduler
