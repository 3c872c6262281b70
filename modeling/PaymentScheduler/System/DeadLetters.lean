import PaymentScheduler.System.Ownership

/-!
# The dead letter queue

Each of the two workers buries a run by its id, and `dead_letter_queue` has no unique constraint on
`job_run_id`. The queue mirrors the DEAD runs (`Db.Mirror`) as long as no last write of a run hits a
run that is DEAD already (`Txn.SparesDead`): a second dead letter would be a duplicate, and every
other write would leave the entry of the first behind.

- `Guard.setRun_dead_iff`: the writes that make and unmake DEAD runs.
- `Guard.mirror_iff`: a transaction keeps the mirror iff it spares the DEAD runs.
- `along_sparesDead_iff`: the same for every run of the system.
-/

namespace PaymentScheduler

/-- The number of dead letters of a run. -/
def Db.entryCount (db : Db) (x : UUID) : Nat := (db.deadLetterQueue.map (·.jobRunId)).count x

/-- Every DEAD run has exactly one dead letter, and no other run has one. -/
structure Db.Mirror (db : Db) : Prop where
  dead : ∀ r ∈ db.jobRuns, r.status = .dead → db.entryCount r.id = 1
  other : ∀ r ∈ db.jobRuns, r.status ≠ .dead → db.entryCount r.id = 0

instance (db : Db) : Decidable db.Mirror :=
  decidable_of_iff
    ((∀ r ∈ db.jobRuns, r.status = .dead → db.entryCount r.id = 1) ∧
      ∀ r ∈ db.jobRuns, r.status ≠ .dead → db.entryCount r.id = 0)
    ⟨fun ⟨hd, ho⟩ => ⟨hd, ho⟩, fun h => ⟨h.dead, h.other⟩⟩

namespace Txn

/-- The run that a transaction brings to an end, by the executor or by the dead letter of a
recovery worker. -/
def ended? : Txn → Option UUID
  | persistSuccess _ run _ => some run.id
  | markDagCancelled run _ => some run.id
  | scheduleRetry run .. => some run
  | moveToDlq e _ _ => some e.jobRunId
  | _ => none

/-- The run that a transaction brings to an end is not DEAD. -/
def SparesDead (db : Db) (t : Txn) : Prop :=
  ∀ x r, t.ended? = some x → db.run? x = some r → r.status ≠ .dead

variable {db db' : Db} {t : Txn} {x : UUID} {r : JobRun}

/-- A run that is brought to an end is there. -/
theorem Guard.ended?_run (hg : t.Guard db) (hx : t.ended? = some x) : ∃ r, db.run? x = some r := by
  cases t with
  | persistSuccess k run b =>
    cases hx
    obtain ⟨-, -, ⟨r, hr, -⟩, -⟩ := hg
    exact ⟨r, hr⟩
  | markDagCancelled run now =>
    cases hx
    obtain ⟨⟨r, hr, -⟩, -⟩ := hg
    exact ⟨r, hr⟩
  | scheduleRetry run error now next =>
    cases hx
    obtain ⟨⟨r, hr, -⟩, -⟩ := hg
    exact ⟨r, hr⟩
  | moveToDlq e clearsWorker now =>
    cases hx
    obtain ⟨-, r, hr, -⟩ := hg
    exact ⟨r, hr⟩
  | _ => cases hx

/-- A run is DEAD after a transaction iff the transaction buries it, or it was DEAD and has not
been brought to another end. -/
theorem Guard.setRun_dead_iff (hg : t.Guard db) (hr : db.run? x = some r) :
    (t.setRun db r).status = .dead ↔
      x ∈ t.deadRuns ∨ (r.status = .dead ∧ t.ended? ≠ some x) := by
  have hid := Db.run?_id hr
  subst hid
  cases t with
  | claim run workerId now lock =>
    obtain ⟨r₀, hr₀, hp⟩ := hg
    by_cases hrun : r.id = run
    · rw [← hrun, hr] at hr₀
      cases hr₀
      simp [setRun, deadRuns, hrun, hp]
    · simp [setRun, deadRuns, ended?, hrun]
  | persistSuccess k run b =>
    obtain ⟨hid, -, ⟨_, -, -, hn⟩, -⟩ := hg
    by_cases hrun : r.id = run.id
    · simp [setRun, deadRuns, ended?, hrun, hid, hn]
    · simp [setRun, deadRuns, ended?, hrun, Ne.symm hrun]
  | markDagCancelled run now =>
    by_cases hrun : r.id = run.id
    · simp [setRun, deadRuns, ended?, hrun]
    · simp [setRun, deadRuns, ended?, hrun, Ne.symm hrun]
  | scheduleRetry run error now next =>
    by_cases hrun : r.id = run
    · simp [setRun, deadRuns, ended?, hrun]
    · simp [setRun, deadRuns, ended?, hrun, Ne.symm hrun]
  | moveToDlq e clearsWorker now =>
    by_cases hrun : r.id = e.jobRunId
    · simp [setRun, deadRuns, hrun]
    · simp [setRun, deadRuns, ended?, hrun, Ne.symm hrun]
  | reclaim run now =>
    obtain ⟨r₀, hr₀, hp⟩ := hg
    by_cases hrun : r.id = run
    · rw [← hrun, hr] at hr₀
      cases hr₀
      simp [setRun, deadRuns, hrun, hp]
    · simp [setRun, deadRuns, ended?, hrun]
  | cancelOrphan job dep now =>
    by_cases hc : r.jobId = job ∧ r.status = .pending
    · simp [setRun, deadRuns, hc]
    · simp only [setRun, deadRuns, ended?, if_neg hc]
      simp
  | _ => simp [setRun, deadRuns, ended?]

/-- Only the end of a run is a dead letter, and one transaction writes at most one. -/
theorem deadRuns_count : t.deadRuns.count x = if x ∈ t.deadRuns then 1 else 0 := by
  cases t with
  | moveToDlq e clearsWorker now =>
    by_cases hx : e.jobRunId = x
    · simp [deadRuns, hx]
    · simp [deadRuns, hx, Ne.symm hx]
  | _ => rfl

theorem mem_deadRuns (h : x ∈ t.deadRuns) : t.ended? = some x := by
  cases t with
  | moveToDlq e clearsWorker now =>
    rw [List.mem_singleton.mp h]
    rfl
  | _ => cases h

end Txn

namespace Db

variable {db db' : Db} {t : Txn} {x : UUID}

theorem Mirror.empty : Mirror {} := by decide

theorem entryCount_apply (h : t.apply db = some db') :
    db'.entryCount x = db.entryCount x + if x ∈ t.deadRuns then 1 else 0 := by
  rw [← Txn.deadRuns_count]
  unfold entryCount
  rw [Txn.entryRuns_apply h, List.count_append]

/-- A run that is not there has no dead letter. -/
theorem Wf.entryCount_none (hw : db.Wf) (hx : db.run? x = none) : db.entryCount x = 0 := by
  refine List.count_eq_zero.mpr fun hm => ?_
  obtain ⟨e, he, rfl⟩ := List.mem_map.mp hm
  obtain ⟨r, hr⟩ := hw.entryRun e he
  rw [hx] at hr
  cases hr

/-- What the mirror says of one run. -/
theorem Mirror.count (hm : db.Mirror) {r : JobRun} (hr : db.run? x = some r) :
    db.entryCount x = if r.status = .dead then 1 else 0 := by
  have hid := run?_id hr
  subst hid
  split
  · rename_i hd
    exact hm.dead r (Table.get?_mem hr) hd
  · rename_i hd
    exact hm.other r (Table.get?_mem hr) hd

theorem Mirror.of_count (hw : db.Wf)
    (h : ∀ x r, db.run? x = some r → db.entryCount x = if r.status = .dead then 1 else 0) :
    db.Mirror := by
  constructor
  · intro r hr hd
    rw [h _ r (hw.run?_mem.mp hr), if_pos hd]
  · intro r hr hd
    rw [h _ r (hw.run?_mem.mp hr), if_neg hd]

/-- A transaction keeps the mirror iff it spares the DEAD runs. -/
theorem Mirror.step_iff (hm : db.Mirror) (hw : db.Wf) (hg : t.Guard db)
    (h : t.apply db = some db') : t.SparesDead db ↔ db'.Mirror := by
  constructor
  · intro hc
    refine .of_count (Txn.wf hw h) fun x r' hr' => ?_
    have hcount := entryCount_apply (x := x) h
    obtain ⟨r, hr, rfl⟩ | ⟨hx, hnew⟩ := Txn.run?_cases h hr'
    · have hdead := hg.setRun_dead_iff hr
      rw [hcount, hm.count hr]
      by_cases hb : x ∈ t.deadRuns
      · have hnd := hc x r (Txn.mem_deadRuns hb) hr
        simp [hb, hnd, hdead]
      · by_cases hd : r.status = .dead
        · have hne : t.ended? ≠ some x := fun he => hc x r he hr hd
          simp [hb, hd, hdead, hne]
        · simp [hb, hd, hdead]
    · -- An inserted run is PENDING, and nothing refers to it.
      have hb : x ∉ t.deadRuns := by
        intro hb
        obtain ⟨r, hr⟩ := hg.ended?_run (Txn.mem_deadRuns hb)
        rw [hx] at hr
        cases hr
      rw [hcount, hw.entryCount_none hx, hg.newRuns_pending hnew]
      simp [hb]
  · intro hm' x r hend hr hd
    have hcount := entryCount_apply (x := x) h
    have hdead := hg.setRun_dead_iff hr
    rw [hm'.count (Txn.run?_set h hr), hm.count hr, if_pos hd] at hcount
    by_cases hb : x ∈ t.deadRuns
    · rw [if_pos hb] at hcount
      split at hcount <;> omega
    · have hnd : (t.setRun db r).status ≠ .dead := by
        rw [Ne, hdead]
        simp [hb, hend]
      rw [if_neg hb, if_neg hnd] at hcount
      omega

end Db

namespace Sys

variable {env : Env} {s s' : Sys}

/-- A step keeps the mirror iff its transaction spares the DEAD runs. -/
theorem Owned.mirror_iff (hI : Owned s) (hm : s.db.Mirror) {a : Action}
    (h : s.step env a = some s') : OnCommit env Txn.SparesDead s a s' ↔ s'.db.Mirror := by
  refine onCommit_iff h hm fun t ht hc => ?_
  exact hm.step_iff hI.wf (hI.guard h ht) hc

/-- In every run of the system: the dead letter queue mirrors the DEAD runs in every state iff
no write brings a DEAD run to another end. -/
theorem along_sparesDead_iff (env : Env) (as : List Action) :
    Lts.Along (step env) (OnCommit env Txn.SparesDead) init as ↔
      Lts.Always (step env) (fun s => s.db.Mirror) init as :=
  Lts.along_iff_always (fun hI hs => hI.step hs) (fun hI hq hs => hI.mirror_iff hq hs) Owned.init
    Db.Mirror.empty

end Sys

namespace Demo

/-- The recovery worker takes the only attempt of a run and buries it, and then the executor
records its success. -/
def successAfterBurial : List Action :=
  opening single ++ reclaimed ++
    [.recover 0 (.route entryId), .execute 0 (.call true (.returned response)),
      .execute 0 .persist]

theorem successAfterBurial_no_mirror :
    ¬ Lts.Always (Sys.step env) (fun s => s.db.Mirror) Sys.init successAfterBurial := by
  decide +kernel

end Demo

end PaymentScheduler
