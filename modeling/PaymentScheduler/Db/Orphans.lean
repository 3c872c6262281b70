import PaymentScheduler.Db.Wf
import PaymentScheduler.Lib.Sweep
import PaymentScheduler.Worker.Recovery

/-!
# Orphaned jobs

`_evaluate_dag_job` stops at the first dependency that has a DEAD run: one such run cancels the job,
and two are a `MultipleResultsFound` (`verdict`). What it writes changes no verdict, since a
cancelled run was PENDING (`Swept.cancelOrphan`); so a scan after any number of cancellations is a
sweep of the same queue (`Swept.batch`), in which the jobs without a DEAD dependency are the
blockers.
-/

namespace PaymentScheduler

/-- A candidate of `_cancel_orphaned_dag_jobs`. -/
def ScheduledJob.hasOpenDeps (j : ScheduledJob) : Bool := j.status.isOpen ∧ j.dependsOn ≠ []

/-- How `_evaluate_dag_job` ends. -/
inductive Recovery.Verdict where
  | waits
  | cancels (dep : UUID)
  | raises
  deriving DecidableEq

namespace Db

variable {db db₀ : Db} {C : Finset UUID} {i : UUID} {j : ScheduledJob}

/-- The DEAD runs of a job. -/
def deadRuns (db : Db) (job : UUID) : List JobRun :=
  db.jobRuns.filter fun r => r.jobId = job ∧ r.status = .dead

/-- `_evaluate_dag_job`, for a list of dependencies. -/
def verdict (db : Db) : List UUID → Recovery.Verdict
  | [] => .waits
  | dep :: rest =>
    match db.job? dep with
    | none => db.verdict rest
    | some _ =>
      match db.deadRuns dep with
      | [] => db.verdict rest
      | [_] => .cancels dep
      | _ => .raises

/-- The jobs that the scan is about. -/
def candidates (db : Db) : List ScheduledJob := db.scheduledJobs.filter (·.hasOpenDeps)

/-- The candidates that an evaluation cancels. -/
def orphans (db : Db) : Finset ScheduledJob :=
  (db.candidates.filter fun j => db.verdict j.dependsOn ≠ .waits).toFinset

/-- The candidates that stay. -/
def waiting (db : Db) : Finset ScheduledJob :=
  (db.candidates.filter fun j => db.verdict j.dependsOn = .waits).toFinset

/-- A dependency of the job has a DEAD run. -/
def HasDeadDep (db : Db) (j : ScheduledJob) : Prop :=
  ∃ dep ∈ j.dependsOn, ∃ r ∈ db.jobRuns, r.jobId = dep ∧ r.status = .dead

/-- No evaluation raises: the first dependency of a job that has a DEAD run has no second one. -/
def EvaluatesAll (db : Db) : Prop := ∀ j ∈ db.candidates, db.verdict j.dependsOn ≠ .raises

theorem mem_candidates : j ∈ db.candidates ↔ j ∈ db.scheduledJobs ∧ j.hasOpenDeps = true :=
  List.mem_filter

theorem mem_orphans : j ∈ db.orphans ↔ j ∈ db.candidates ∧ db.verdict j.dependsOn ≠ .waits := by
  simp [orphans]

theorem mem_waiting : j ∈ db.waiting ↔ j ∈ db.candidates ∧ db.verdict j.dependsOn = .waits := by
  simp [waiting]

theorem orphans_disjoint_waiting : Disjoint db.orphans db.waiting := by
  rw [Finset.disjoint_left]
  exact fun j ho hw => (mem_orphans.mp ho).2 (mem_waiting.mp hw).2

/-- A job waits iff no dependency of it has a DEAD run. -/
theorem verdict_waits_iff (hw : db.Wf) {deps : List UUID} :
    db.verdict deps = .waits ↔ ∀ dep ∈ deps, db.deadRuns dep = [] := by
  induction deps with
  | nil => simp [verdict]
  | cons dep rest ih =>
    rw [List.forall_mem_cons, ← ih, verdict]
    cases hj : db.job? dep with
    | none =>
      -- The runs of a job have their job.
      have hnil : db.deadRuns dep = [] := by
        refine List.filter_eq_nil_iff.mpr fun r hr hdead => ?_
        simp only [decide_eq_true_eq] at hdead
        obtain ⟨j, hjr⟩ := hw.runJob r hr
        rw [hdead.1, hj] at hjr
        cases hjr
      simp [hnil]
    | some j =>
      dsimp only
      cases hd : db.deadRuns dep with
      | nil => simp
      | cons r rs => cases rs <;> simp

theorem hasDeadDep_iff (hw : db.Wf) : db.HasDeadDep j ↔ db.verdict j.dependsOn ≠ .waits := by
  rw [Ne, verdict_waits_iff hw]
  simp only [HasDeadDep, deadRuns, List.filter_eq_nil_iff, decide_eq_true_eq, not_forall, not_not,
    exists_prop]

/-! ## What a sweep leaves -/

/-- The rows of `db₀` with the jobs of `C` cancelled, as far as the scan reads them. -/
structure Swept (db₀ : Db) (C : Finset UUID) (db : Db) : Prop where
  wf : db.Wf
  jobs : db.scheduledJobs =
    db₀.scheduledJobs.map fun j => if j.id ∈ C then { j with status := .cancelled } else j
  dead : ∀ dep, db.deadRuns dep = db₀.deadRuns dep

theorem Swept.refl (hw : db.Wf) : Swept db ∅ db where
  wf := hw
  jobs := by simp
  dead _ := rfl

/-- The cancellation of a job, and of its PENDING runs. -/
theorem Swept.cancelOrphan (h : Swept db₀ C db) {dep : UUID} {now : Time} :
    Swept db₀ (insert i C) (db.cancelOrphan i dep now) where
  wf := Txn.wf (t := .cancelOrphan i dep now) h.wf rfl
  jobs := by
    show Table.updateWhere _ _ db.scheduledJobs = _
    rw [h.jobs, Table.updateWhere, List.map_map]
    refine List.map_congr_left fun j _ => ?_
    by_cases hi : j.id = i <;> by_cases hc : j.id ∈ C <;> simp [hi, hc] <;> simp_all
  dead d := by
    rw [← h.dead d]
    refine Table.filter_updateWhere fun r hr => ?_
    simp only [decide_eq_true_eq] at hr
    simp [hr.2]

theorem Swept.job? (h : Swept db₀ C db) (x : UUID) : db.job? x = (db₀.job? x).map fun j =>
    if j.id ∈ C then { j with status := .cancelled } else j := by
  unfold Db.job?
  rw [h.jobs, Table.get?_map]
  exact fun j => by split <;> rfl

theorem Swept.verdict (h : Swept db₀ C db) (deps : List UUID) :
    db.verdict deps = db₀.verdict deps := by
  induction deps with
  | nil => rfl
  | cons dep rest ih =>
    rw [Db.verdict, Db.verdict, h.job?, h.dead, ih]
    cases db₀.job? dep <;> rfl

theorem Swept.mem_candidates (h : Swept db₀ C db) :
    j ∈ db.candidates ↔ j ∈ db₀.candidates ∧ j.id ∉ C := by
  rw [Db.mem_candidates, Db.mem_candidates, h.jobs, List.mem_map]
  constructor
  · rintro ⟨⟨j₀, hj₀, rfl⟩, hopen⟩
    split at hopen
    · simp [ScheduledJob.hasOpenDeps, JobStatus.isOpen] at hopen
    · rename_i hc
      rw [if_neg hc]
      exact ⟨⟨hj₀, hopen⟩, hc⟩
  · rintro ⟨⟨hj, hopen⟩, hc⟩
    exact ⟨⟨j, hj, if_neg hc⟩, hopen⟩

/-- Jobs of `C` are orphans. -/
def OnlyOrphans (db₀ : Db) (C : Finset UUID) : Prop := ∀ i ∈ C, ∃ j ∈ db₀.orphans, j.id = i

theorem OnlyOrphans.waiting (hC : db₀.OnlyOrphans C) (hw : db₀.Wf) (hj : j ∈ db₀.waiting) :
    j.id ∉ C := by
  intro hc
  obtain ⟨j', hj', hid⟩ := hC j.id hc
  obtain ⟨hcand, hwaits⟩ := mem_waiting.mp hj
  obtain ⟨hcand', horphan⟩ := mem_orphans.mp hj'
  have he : j' = j := List.inj_on_of_nodup_map hw.jobIds (Db.mem_candidates.mp hcand').1
    (Db.mem_candidates.mp hcand).1 hid
  exact horphan (he ▸ hwaits)

/-- The orphans that are not cancelled. -/
def left (db₀ : Db) (C : Finset UUID) : Finset ScheduledJob := db₀.orphans.filter fun j => j.id ∉ C

theorem mem_left : j ∈ db₀.left C ↔ j ∈ db₀.orphans ∧ j.id ∉ C := Finset.mem_filter

/-- A selection of the scan is the head of the queue of what is left. -/
theorem Swept.batch (h : Swept db₀ C db) (hC : db₀.OnlyOrphans C) (hw : db₀.Wf)
    {order : List UUID} {rows : List ScheduledJob}
    (hs : Recovery.orphanCandidates db order = some rows) :
    Sweep.Batch (·.createdAt) 100 db₀.waiting (db₀.left C) rows.toFinset := by
  have hmem : ∀ {j}, j ∈ db.scheduledJobs ∧ j.hasOpenDeps = true ↔
      j ∈ db₀.left C ∪ db₀.waiting := by
    intro j
    rw [← Db.mem_candidates, h.mem_candidates, Finset.mem_union, mem_left, mem_orphans, mem_waiting]
    constructor
    · rintro ⟨hj, hc⟩
      by_cases hv : db₀.verdict j.dependsOn = .waits
      · exact .inr ⟨hj, hv⟩
      · exact .inl ⟨⟨hj, hv⟩, hc⟩
    · rintro (⟨⟨hj, -⟩, hc⟩ | hj)
      · exact ⟨hj, hc⟩
      · exact ⟨hj.1, hC.waiting hw (mem_waiting.mpr hj)⟩
  refine ⟨fun j hj => ?_, ?_, fun x => ?_⟩
  · exact hmem.mp (Table.mem_select h.wf.jobIds hs (List.mem_toFinset.mp hj))
  · exact (List.toFinset_card_le rows).trans (Table.length_select_le hs)
  · obtain hall | ⟨hlen, hle⟩ := Table.select_le h.wf.jobIds hs x
    · refine .inl fun j hj => List.mem_toFinset.mpr ?_
      obtain ⟨hj, hx⟩ := Sweep.mem_upTo.mp hj
      obtain ⟨hj, hopen⟩ := hmem.mpr hj
      exact hall j hj hopen hx
    · refine .inr ⟨?_, fun j hj => hle j (List.mem_toFinset.mp hj)⟩
      rw [List.toFinset_card_of_nodup, hlen]
      exact (Table.nodup_select h.wf.jobIds hs).of_map _

/-- The order by `created_at`, with the waiting jobs first among those of the same time. -/
def orphansLast (db : Db) (a b : ScheduledJob) : Bool :=
  a.createdAt < b.createdAt ∨ a.createdAt = b.createdAt ∧
    (db.verdict a.dependsOn = .waits ∨ db.verdict b.dependsOn ≠ .waits)

theorem orphansLast_trans {a b c : ScheduledJob} (hab : db.orphansLast a b = true)
    (hbc : db.orphansLast b c = true) : db.orphansLast a c = true := by
  simp only [orphansLast, decide_eq_true_eq] at *
  grind

theorem orphansLast_total (a b : ScheduledJob) :
    (db.orphansLast a b || db.orphansLast b a) = true := by
  simp only [orphansLast, Bool.or_eq_true, decide_eq_true_eq]
  grind

/-- There is a selection that puts the waiting jobs first among those of the same time. -/
theorem Swept.exists_batch (h : Swept db₀ C db) (hC : db₀.OnlyOrphans C) (hw : db₀.Wf) :
    ∃ order rows, Recovery.orphanCandidates db order = some rows ∧
      ∀ i ∈ db₀.left C, i ∈ rows.toFinset →
        Sweep.upTo (·.createdAt) db₀.waiting i.createdAt ⊆ rows.toFinset := by
  have hpair := @List.pairwise_mergeSort _ db₀.orphansLast (fun _ _ _ => orphansLast_trans)
    orphansLast_total db.candidates
  have hperm := List.mergeSort_perm db.candidates db₀.orphansLast
  generalize db.candidates.mergeSort db₀.orphansLast = all at hpair hperm
  have hsorted : all.Pairwise fun a b => a.createdAt ≤ b.createdAt := by
    refine hpair.imp fun hab => ?_
    simp only [orphansLast, decide_eq_true_eq] at hab
    exact hab.elim le_of_lt fun he => he.1.le
  refine ⟨_, _, Table.select_sorted h.wf.jobIds hperm hsorted, fun i hi hrow w hup => ?_⟩
  obtain ⟨hwait, hle⟩ := Sweep.mem_upTo.mp hup
  have hall : w ∈ all.take 100 ++ all.drop 100 := by
    rw [List.take_append_drop, hperm.mem_iff, h.mem_candidates]
    exact ⟨(mem_waiting.mp hwait).1, hC.waiting hw hwait⟩
  refine List.mem_toFinset.mpr ((List.mem_append.mp hall).resolve_right fun hdrop => ?_)
  -- A waiting job is not behind an orphan of its time.
  rw [← List.take_append_drop 100 all, List.pairwise_append] at hpair
  have hlast := hpair.2.2 i (List.mem_toFinset.mp hrow) w hdrop
  simp only [orphansLast, decide_eq_true_eq] at hlast
  obtain hlt | ⟨-, hi' | hw'⟩ := hlast
  · exact absurd hle (not_le.mpr hlt)
  · exact (mem_orphans.mp (mem_left.mp hi).1).2 hi'
  · exact hw' (mem_waiting.mp hwait).2

end Db

end PaymentScheduler
