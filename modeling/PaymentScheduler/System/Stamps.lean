import PaymentScheduler.System.Windows
import PaymentScheduler.Db.Chain

/-!
# The times that the transactions write

With one monotone clock, a transaction writes the time of its commit, apart from two: a scheduler
stamps a job and its first run with the start of its transaction (`Phase.Stamped`), and a recovery
worker finishes a run with the time of its scan, which is after the expiry of the lock. `Txn.At`
says so of each transaction; `p` is what is known of the times of the insertions by schedulers and
other producers, such as `· ≤ now`. `Txn.Fits` compares the times of the claims and of the scans.

- `stamped_step`, `txn_at`, `txn_fits`: the schedulers after a step, and its transaction.
- `At.newRuns`, `At.newJobs`: the inserted rows.
-/

namespace PaymentScheduler

/-- The times that a transaction writes at the time `now`. -/
def Txn.At (p : Time → Prop) (now : Time) (db : Db) : Txn → Prop
  | claim _ _ n _ => n = now
  | persistSuccess k _ _ => k.createdAt = now
  | markDagCancelled _ n => n = now
  | scheduleRetry _ _ n next => n = now ∧ next.createdAt = now ∧ next.startedAt = none
  | moveToDlq e _ n => n = now ∧ e.createdAt = now ∧ e.resolvedAt = none
  | reclaim run n => ∃ r, db.run? run = some r ∧ Recovery.isStuck n r = true
  | insertAttempt next => next.createdAt = now ∧ next.startedAt = none
  | cancelOrphan _ _ n => n = now
  | schedule ws => ∀ w ∈ ws, p w.createdAt
  | createSubscription b => b.createdAt = now
  | resolve _ n _ => n = now
  | produce j _ => p j.createdAt
  | updateSubscription .. | resume .. => True

/-- A lock expires after its claim, and a scan is not ahead of the time `now`. -/
def Txn.Fits (now : Time) : Txn → Prop
  | claim _ _ n lock => n ≤ lock
  | reclaim _ n => n ≤ now
  | _ => True

/-- The stamps of a transaction that is open. -/
def Scheduler.Phase.Stamped (p : Time → Prop) : Scheduler.Phase → Prop
  | opened _ since _ writes => p since ∧ ∀ w ∈ writes, w.createdAt = since
  | _ => True

/-- The stamp of another producer. -/
def Action.Stamps (p : Time → Prop) : Action → Prop
  | produce j _ => p j.createdAt
  | _ => True

instance (p : Time → Prop) [DecidablePred p] : DecidablePred (Action.Stamps p)
  | .produce j _ => inferInstanceAs (Decidable (p j.createdAt))
  | .advance _ | .schedule .. | .execute .. | .recover .. | .request .. => isTrue trivial

namespace Txn

variable {p : Time → Prop} {now : Time} {db : Db} {t : Txn}

theorem At.newRuns (ha : t.At p now db) (hp : p now) {r : JobRun} (hr : r ∈ t.newRuns) :
    p r.createdAt ∧ r.startedAt = none := by
  cases t with
  | scheduleRetry run error n next =>
    obtain ⟨-, hc, hs⟩ := ha
    rw [List.mem_singleton.mp hr, hc]
    exact ⟨hp, hs⟩
  | insertAttempt next =>
    obtain ⟨hc, hs⟩ := ha
    rw [List.mem_singleton.mp hr, hc]
    exact ⟨hp, hs⟩
  | schedule ws =>
    obtain ⟨w, hw, rfl⟩ := List.mem_map.mp hr
    exact ⟨ha w hw, rfl⟩
  | produce j runId =>
    rw [List.mem_singleton.mp hr]
    exact ⟨ha, rfl⟩
  | _ => cases hr

theorem At.newJobs (ha : t.At p now db) {j : ScheduledJob} (hj : j ∈ t.newJobs) :
    p j.createdAt := by
  cases t with
  | schedule ws =>
    obtain ⟨w, hw, rfl⟩ := List.mem_map.mp hj
    exact ha w hw
  | produce j' runId =>
    rw [List.mem_singleton.mp hj]
    exact ha
  | _ => cases hj

/-- No transaction writes `created_at`. -/
theorem setRun_createdAt (r : JobRun) : (t.setRun db r).createdAt = r.createdAt := by
  cases t <;> simp only [setRun] <;> split <;> rfl

end Txn

theorem Scheduler.Phase.Stamped.mono {p q : Time → Prop} {st : Scheduler.Phase}
    (h : st.Stamped p) (hpq : ∀ {x}, p x → q x) : st.Stamped q := by
  cases st with
  | opened epoch since todo writes => exact ⟨hpq h.1, h.2⟩
  | _ => trivial

theorem Scheduler.step_stamped {env : Env} {db : Db} {now : Time} {p : Time → Prop}
    {st st' : State} {a : Action} {t : Option Txn} (hp : p now) (hs : st.Stamped p)
    (h : step env db now st a = some (st', t)) :
    st'.Stamped p ∧ ∀ ws, t = some (.schedule ws) → ∀ w ∈ ws, p w.createdAt := by
  cases step_move h with
  | start => exact ⟨trivial, nofun⟩
  | select => exact ⟨⟨hp, nofun⟩, nofun⟩
  | @process epoch since b todo writes jobId runId =>
    refine ⟨⟨hs.1, fun w hw => ?_⟩, nofun⟩
    rcases List.mem_append.mp hw with hw | hw
    · exact hs.2 w hw
    · obtain ⟨f, -, rfl⟩ := Option.map_eq_some_iff.mp (Option.mem_toList.mp hw)
      rfl
  | commit =>
    refine ⟨trivial, fun ws hws w hw => ?_⟩
    cases hws
    rw [hs.2 w hw]
    exact hs.1
  | abort => exact ⟨trivial, nofun⟩

theorem Executor.Move.at {env : Env} {w : Nat} {db : Db} {now : Time} {p : Time → Prop}
    {ph ph' : Executor.Phase} {a : Executor.Action} {t : Txn}
    (h : Executor.Move env w db now ph a ph' (some t)) : t.At p now db := by
  cases h with
  | claim | cancelDag => exact rfl
  | persist ht =>
    obtain ⟨v, -, rfl⟩ := Option.map_eq_some_iff.mp ht
    exact rfl
  | fail ht =>
    obtain ⟨-, -, retryAfter, rfl⟩ | rfl := Executor.handleFailure_cases ht
    · exact ⟨rfl, rfl, rfl⟩
    · exact ⟨rfl, rfl, rfl⟩

theorem Executor.Move.fits {env : Env} {w : Nat} {db : Db} {now : Time}
    (hlock : 0 ≤ env.settings.executorLockTimeoutS) {ph ph' : Executor.Phase}
    {a : Executor.Action} {t : Txn} (h : Executor.Move env w db now ph a ph' (some t)) :
    t.Fits now := by
  cases h with
  | claim =>
    have htimeout : 0 ≤ seconds env.settings.executorLockTimeoutS := by
      unfold seconds
      positivity
    exact Int.le_add_of_nonneg_right htimeout
  | cancelDag => trivial
  | persist ht =>
    obtain ⟨v, -, rfl⟩ := Option.map_eq_some_iff.mp ht
    trivial
  | fail ht => obtain ⟨-, -, retryAfter, rfl⟩ | rfl := Executor.handleFailure_cases ht <;> trivial

/-- A recovery worker writes the time of its scan with the compare-and-set, and the present time
with every other transaction. -/
theorem Recovery.step_at {db : Db} {now : Time} {p : Time → Prop} {st st' : Recovery.State}
    {a : Recovery.Action} {t : Txn} (h : Recovery.step db now st a = some (st', some t)) :
    t.At p now db ∧ ∀ x n, t = .reclaim x n → n = st.now := by
  obtain ⟨since, stuck, jobs, phase⟩ := st
  cases a with
  | reclaim =>
    simp only [step] at h
    split at h
    · have hr := congrArg Prod.snd (Option.some.inj h)
      simp only [recoverSingleRunById] at hr
      split at hr
      · rename_i r hrun
        split at hr
        · rename_i hs
          split at hr <;> cases hr <;> exact ⟨⟨r, hrun, hs⟩, fun x n he => by cases he; rfl⟩
        · cases hr
      · cases hr
    · cases h
  | route newId =>
    cases phase <;> cases h
    unfold Recovery.route
    split
    · exact ⟨⟨rfl, rfl, rfl⟩, fun x n he => by cases he⟩
    · exact ⟨⟨rfl, rfl⟩, fun x n he => by cases he⟩
  | cancel =>
    cases phase <;> cases h
    exact ⟨rfl, fun x n he => by cases he⟩
  | scanStuck order =>
    simp only [step] at h
    split at h
    · obtain ⟨ids, -, he⟩ := Option.map_eq_some_iff.mp h
      cases he
    · cases h
  | scanOrphans order =>
    simp only [step] at h
    split at h
    · obtain ⟨js, -, he⟩ := Option.map_eq_some_iff.mp h
      cases he
    · cases h
  | evaluate =>
    simp only [step] at h
    split at h <;> cases h
  | checkDep =>
    simp only [step] at h
    split at h
    · cases h
    · split at h <;> cases h
    · cases h
  | crash => cases h

/-- The time of a scan is that of the last one, the present one, or 0 of a new process. -/
theorem Recovery.step_now {db : Db} {now : Time} {st st' : Recovery.State} {a : Recovery.Action}
    {t : Option Txn} (h : Recovery.step db now st a = some (st', t)) :
    st'.now = st.now ∨ st'.now = now ∨ st'.now = 0 := by
  obtain ⟨since, stuck, jobs, phase⟩ := st
  cases a with
  | scanStuck order =>
    simp only [step] at h
    split at h
    · obtain ⟨ids, -, he⟩ := Option.map_eq_some_iff.mp h
      cases he
      exact .inr (.inl rfl)
    · cases h
  | scanOrphans order =>
    simp only [step] at h
    split at h
    · obtain ⟨js, -, he⟩ := Option.map_eq_some_iff.mp h
      cases he
      exact .inl rfl
    · cases h
  | checkDep =>
    simp only [step] at h
    split at h
    · cases h
      exact .inl rfl
    · split at h <;> cases h
      · exact .inl rfl
      · exact .inr (.inr rfl)
    · cases h
  | reclaim =>
    simp only [step] at h
    split at h <;> cases h
    exact .inl rfl
  | evaluate =>
    simp only [step] at h
    split at h <;> cases h
    exact .inl rfl
  | route newId =>
    cases phase <;> cases h
    exact .inl rfl
  | cancel =>
    cases phase <;> cases h
    exact .inl rfl
  | crash =>
    cases h
    exact .inr (.inr rfl)

namespace Sys

variable {env : Env} {s s' : Sys} {a : Action} {p : Time → Prop}

/-- The schedulers stamp with the times at which they have opened their transactions. -/
theorem stamped_step (hs : ∀ k, (s.schedulers k).Stamped p) (hp : p s.clock)
    (h : s.step env a = some s') (k : Nat) : (s'.schedulers k).Stamped p := by
  by_cases ha : ∃ b, a = .schedule k b
  · obtain ⟨b, rfl⟩ := ha
    obtain ⟨st, t, db', hst, -, -, -, rfl⟩ := step_schedule h
    dsimp only
    rw [Function.update_self]
    exact (Scheduler.step_stamped hp (hs k) hst).1
  · rw [step_scheduler (fun b hb => ha ⟨b, hb⟩) h]
    exact hs k

/-- The times that the transaction of a step writes. -/
theorem txn_at (hp : p s.clock) (hs : ∀ k, (s.schedulers k).Stamped p) (ha : a.Stamps p) {t : Txn}
    (ht : s.txn? env a = some t) : t.At p s.clock s.db := by
  obtain ⟨k, b, st, rfl, hst⟩ | ⟨w, b, st, rfl, hst⟩ | ⟨v, b, st, rfl, hst⟩ |
    ⟨r, b, st, rfl, hst⟩ | ⟨j, runId, rfl, rfl⟩ := txn?_cases ht
  · obtain ⟨ws, rfl⟩ := Scheduler.step_txn hst
    exact (Scheduler.step_stamped hp (hs k) hst).2 ws rfl
  · exact (Executor.step_move hst).at
  · exact (Recovery.step_at hst).1
  · obtain ⟨b', rfl⟩ | ⟨id, c, rfl⟩ | ⟨id, n, rfl⟩ | ⟨id, by', rfl⟩ := Api.step_txn hst
    · obtain ⟨body, id, -, hb⟩ := Api.step_creating hst
      obtain ⟨n, -, rfl⟩ := Option.map_eq_some_iff.mp hb
      exact rfl
    · trivial
    · trivial
    · exact rfl
  · exact ha

theorem txn_fits (hlock : 0 ≤ env.settings.executorLockTimeoutS)
    (hscan : ∀ v, (s.recoveries v).now ≤ s.clock) {t : Txn} (ht : s.txn? env a = some t) :
    t.Fits s.clock := by
  obtain ⟨k, b, st, rfl, hst⟩ | ⟨w, b, st, rfl, hst⟩ | ⟨v, b, st, rfl, hst⟩ |
    ⟨r, b, st, rfl, hst⟩ | ⟨j, runId, rfl, rfl⟩ := txn?_cases ht
  · obtain ⟨ws, rfl⟩ := Scheduler.step_txn hst
    trivial
  · exact (Executor.step_move hst).fits hlock
  · cases t with
    | reclaim x n =>
      have hn := (Recovery.step_at (p := fun _ => True) hst).2 x n rfl
      exact hn.le.trans (hscan v)
    | claim => cases (Recovery.step_move hst).not_executes
    | _ => trivial
  · obtain ⟨b', rfl⟩ | ⟨id, c, rfl⟩ | ⟨id, n, rfl⟩ | ⟨id, by', rfl⟩ := Api.step_txn hst <;> trivial
  · trivial

end Sys

end PaymentScheduler
