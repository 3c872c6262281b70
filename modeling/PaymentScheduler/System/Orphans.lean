import PaymentScheduler.Db.Orphans
import PaymentScheduler.System.Ownership

/-!
# Calls of `_cancel_orphaned_dag_jobs`

A recovery worker that makes one call after the other, while nothing else writes. A call is a scan
and the evaluation of what it has selected; the worker is at rest before and after it. The proofs
follow the untouched orphans (`Sweeping.untouched`): a scan takes a batch of them, and the steps of
the evaluation none, because a selected orphan is cancelled if no evaluation raises.

- `Sweeping.step`, `Sweeping.scan`: what a step of a call does.
- `Sweeping.progress`: a call comes to its end.
- `Sweeping.run`: what the calls leave at most; `Sweeping.exists_calls`: and what they leave in the
  order that puts the waiting jobs first.
- `sweepsClean_iff`: the states in which `⌈n / 100⌉ + 1` calls reach every orphan.
-/

namespace PaymentScheduler

namespace Recovery

/-- The steps of `_cancel_orphaned_dag_jobs`. -/
def Action.sweeps : Action → Bool
  | scanOrphans _ | evaluate | checkDep | cancel => true
  | _ => false

/-- The first step of a call. -/
def Action.scans : Action → Bool
  | scanOrphans _ => true
  | _ => false

structure State.AtRest (st : State) : Prop where
  stuck : st.stuck = []
  jobs : st.jobs = []
  phase : st.phase = .idle

/-- The selected jobs that are still to evaluate. -/
def State.busy (st : State) : Finset UUID :=
  (st.jobs.map (·.id) ++ st.phase.job?.toList).toFinset

/-- The steps until the end of an evaluation, at most. -/
def Phase.work : Phase → Nat
  | idle | claimed .. => 0
  | evaluating _ deps => deps.length + 2
  | cancelling .. => 1

/-- The steps until the end of the call, at most. -/
def State.work (st : State) : Nat :=
  (st.jobs.map fun j => j.dependsOn.length + 3).sum + st.phase.work

variable {db : Db} {job dep : UUID} {rest : List UUID}

theorem State.atRest_iff {st : State} :
    st.AtRest ↔ st.stuck = [] ∧ st.jobs = [] ∧ st.phase.job? = none := by
  constructor
  · rintro ⟨hstuck, hjobs, hp⟩
    exact ⟨hstuck, hjobs, by rw [hp]; rfl⟩
  · rintro ⟨hstuck, hjobs, hp⟩
    refine ⟨hstuck, hjobs, ?_⟩
    cases hphase : st.phase <;> rw [hphase] at hp <;> first | rfl | cases hp

instance (st : State) : Decidable st.AtRest := decidable_of_iff _ State.atRest_iff.symm

variable (db job dep rest) in
/-- A round of the loop, by the verdict on the dependencies that are left. -/
theorem evaluateDagJob_verdict :
    (evaluateDagJob db job dep rest = some (.evaluating job rest) ∧
      db.verdict (dep :: rest) = db.verdict rest) ∨
    (evaluateDagJob db job dep rest = some (.cancelling job dep) ∧
      db.verdict (dep :: rest) = .cancels dep) ∨
    evaluateDagJob db job dep rest = none ∧ db.verdict (dep :: rest) = .raises := by
  unfold evaluateDagJob
  rw [Db.verdict]
  cases db.job? dep with
  | none => exact .inl ⟨rfl, rfl⟩
  | some j =>
    dsimp only
    rw [← Db.deadRuns]
    cases db.deadRuns dep with
    | nil => exact .inl ⟨rfl, rfl⟩
    | cons r rs =>
      cases rs with
      | nil => exact .inr (.inl ⟨rfl, rfl⟩)
      | cons r' rs => exact .inr (.inr ⟨rfl, rfl⟩)

/-- The `MultipleResultsFound` of an evaluation. -/
def Raises (db : Db) : Phase → Action → Prop
  | .evaluating job (dep :: rest), .checkDep => evaluateDagJob db job dep rest = none
  | _, _ => False

end Recovery

namespace Db

variable (db₀ : Db) (C : Finset UUID)

/-- The evaluation that a worker is in, by the verdict on its job. -/
def Evaluates : Recovery.Phase → Prop
  | .idle => True
  | .claimed .. => False
  | .evaluating job deps =>
    ∃ j ∈ db₀.candidates, j.id = job ∧ db₀.verdict j.dependsOn = db₀.verdict deps
  | .cancelling job dep =>
    ∃ j ∈ db₀.candidates, j.id = job ∧ db₀.verdict j.dependsOn = .cancels dep

/-- A worker in its calls from the rows `db₀`, after the cancellation of the jobs of `C`. -/
structure Sweeping (db : Db) (st : Recovery.State) : Prop where
  swept : db₀.Swept C db
  cancelled : ∀ i ∈ C, ∃ j ∈ db₀.candidates, ∃ dep, j.id = i ∧
    db₀.verdict j.dependsOn = .cancels dep
  stuck : st.stuck = []
  jobs : ∀ j ∈ st.jobs, j ∈ db₀.candidates
  phase : db₀.Evaluates st.phase

/-- The orphans that are neither cancelled nor selected. -/
def untouched (st : Recovery.State) : Finset ScheduledJob := db₀.left (C ∪ st.busy)

variable {db₀ C} {db db' : Db} {st st' : Recovery.State} {now : Time} {t : Option Txn}

theorem Sweeping.refl (hw : db.Wf) (hr : st.AtRest) : Sweeping db ∅ db st where
  swept := .refl hw
  cancelled i hi := by cases hi
  stuck := hr.stuck
  jobs j hj := by rw [hr.jobs] at hj; cases hj
  phase := by rw [hr.phase]; trivial

theorem Sweeping.onlyOrphans (h : Sweeping db₀ C db st) : db₀.OnlyOrphans C := by
  intro i hi
  obtain ⟨j, hj, dep, hid, hv⟩ := h.cancelled i hi
  refine ⟨j, mem_orphans.mpr ⟨hj, ?_⟩, hid⟩
  rw [hv]
  simp

/-- A candidate is found by its id. -/
theorem Wf.candidate_unique (hw : db₀.Wf) {j j' : ScheduledJob} (hj : j ∈ db₀.candidates)
    (hj' : j' ∈ db₀.candidates) (hid : j.id = j'.id) : j = j' :=
  List.inj_on_of_nodup_map hw.jobIds (mem_candidates.mp hj).1 (mem_candidates.mp hj').1 hid

/-- A job that waits is no orphan. -/
theorem left_insert_of_waits (hw : db₀.Wf) {j : ScheduledJob} (hj : j ∈ db₀.candidates)
    (hv : db₀.verdict j.dependsOn = .waits) : db₀.left (insert j.id C) = db₀.left C := by
  ext j'
  rw [mem_left, mem_left, Finset.mem_insert, not_or]
  refine and_congr_right fun ho => and_iff_right fun hid => ?_
  obtain ⟨hj', hv'⟩ := mem_orphans.mp ho
  rw [hw.candidate_unique hj' hj hid] at hv'
  exact hv' hv

theorem busy_cons {since : Time} {stuck : List UUID} {j : ScheduledJob} {js : List ScheduledJob} :
    (Recovery.State.mk since stuck (j :: js) .idle).busy =
      insert j.id (Recovery.State.mk since stuck js .idle).busy := by
  ext i
  simp [Recovery.State.busy, Recovery.Phase.job?]

theorem busy_of_job? {since : Time} {stuck : List UUID} {js : List ScheduledJob}
    {p : Recovery.Phase} {i : UUID} (hp : p.job? = some i) :
    (Recovery.State.mk since stuck js p).busy =
      insert i (Recovery.State.mk since stuck js .idle).busy := by
  have hidle : Recovery.Phase.idle.job? = none := rfl
  ext i'
  simp [Recovery.State.busy, hp, hidle]

theorem busy_of_atRest (hr : st.AtRest) : st.busy = ∅ := by
  simp [Recovery.State.busy, hr.jobs, hr.phase, Recovery.Phase.job?]

theorem untouched_of_atRest (hr : st.AtRest) : db₀.untouched C st = db₀.left C := by
  rw [untouched, busy_of_atRest hr, Finset.union_empty]

/-- A scan selects a batch of the untouched orphans. -/
theorem Sweeping.scan (hw : db₀.Wf) (h : Sweeping db₀ C db st) {order : List UUID}
    (hs : Recovery.step db now st (.scanOrphans order) = some (st', t)) :
    t = none ∧ st.AtRest ∧ Sweeping db₀ C db st' ∧
      ∃ rows, Recovery.orphanCandidates db order = some rows ∧
        db₀.untouched C st' = db₀.left C \ rows.toFinset := by
  simp only [Recovery.step] at hs
  split at hs
  · rename_i hstuck hjobs hphase
    obtain ⟨rows, hrows, he⟩ := Option.map_eq_some_iff.mp hs
    cases he
    have hmem : ∀ j ∈ rows, j ∈ db₀.candidates := fun j hj =>
      (h.swept.mem_candidates.mp (mem_candidates.mpr
        (Table.mem_select h.swept.wf.jobIds hrows hj))).1
    refine ⟨rfl, ⟨hstuck, hjobs, hphase⟩, { h with jobs := hmem }, rows, hrows, ?_⟩
    ext j
    simp only [untouched, Recovery.State.busy, hphase, Recovery.Phase.job?, Option.toList_none,
      List.append_nil, mem_left, Finset.mem_union, List.mem_toFinset, List.mem_map,
      Finset.mem_sdiff, not_or, not_exists, not_and, and_assoc]
    refine and_congr_right fun ho => and_congr_right fun _ => ?_
    refine ⟨fun hn hj => hn j hj rfl, fun hn j' hj' hid => hn ?_⟩
    rwa [← hw.candidate_unique (hmem j' hj') (mem_orphans.mp ho).1 hid]
  · cases hs

/-- Where every evaluation has a verdict, none raises. -/
theorem Sweeping.not_raises (h : Sweeping db₀ C db st) (hE : db₀.EvaluatesAll)
    {a : Recovery.Action} : ¬ Recovery.Raises db st.phase a := by
  have hphase := h.phase
  unfold Recovery.Raises
  split
  · rename_i job dep rest hp
    rw [hp] at hphase
    obtain ⟨j, hj, -, hv⟩ := hphase
    obtain ⟨he, -⟩ | ⟨he, -⟩ | ⟨-, hr⟩ := Recovery.evaluateDagJob_verdict db job dep
      rest
    · simp [he]
    · simp [he]
    · rw [h.swept.verdict] at hr
      exact absurd (hv.trans hr) (hE j hj)
  · exact not_false

/-- The next job is taken up. -/
theorem Sweeping.evaluate (h : Sweeping db₀ C db st)
    (hs : Recovery.step db now st .evaluate = some (st', t)) :
    t = none ∧ Sweeping db₀ C db st' ∧ db₀.untouched C st' = db₀.untouched C st := by
  obtain ⟨since, stuck, jobs, p⟩ := st
  simp only [Recovery.step] at hs
  split at hs
  · rename_i j rest
    cases hs
    have hmem := h.jobs j List.mem_cons_self
    refine ⟨rfl, { h with
      jobs := fun j' hj' => h.jobs j' (List.mem_cons_of_mem j hj')
      phase := ⟨j, hmem, rfl, rfl⟩ }, ?_⟩
    rw [untouched, busy_of_job? rfl, untouched, busy_cons]
  · cases hs

/-- A dependency is looked at; where that does not raise, no orphan is left out. -/
theorem Sweeping.checkDep (hw : db₀.Wf) (h : Sweeping db₀ C db st)
    (hs : Recovery.step db now st .checkDep = some (st', t)) :
    t = none ∧ Sweeping db₀ C db st' ∧
      (¬ Recovery.Raises db st.phase .checkDep → db₀.untouched C st' = db₀.untouched C st) := by
  obtain ⟨since, stuck, jobs, p⟩ := st
  have hstuck := h.stuck
  have hphase := h.phase
  simp only [Recovery.step] at hs
  split at hs
  · rename_i job
    cases hs
    obtain ⟨j, hj, rfl, hv⟩ := hphase
    refine ⟨rfl, { h with phase := trivial }, fun _ => ?_⟩
    -- The job of an evaluation that finds nothing waits.
    rw [untouched, untouched, busy_of_job? (p := .evaluating j.id []) rfl, Finset.union_insert]
    exact (left_insert_of_waits hw hj hv).symm
  · rename_i job dep rest
    obtain ⟨j, hj, hid, hv⟩ := hphase
    rw [← h.swept.verdict (dep :: rest)] at hv
    obtain ⟨he, hr⟩ | ⟨he, hr⟩ | ⟨he, -⟩ := Recovery.evaluateDagJob_verdict db job dep rest
    · rw [he] at hs
      cases hs
      rw [hr, h.swept.verdict] at hv
      exact ⟨rfl, { h with phase := ⟨j, hj, hid, hv⟩ }, fun _ => rfl⟩
    · rw [he] at hs
      cases hs
      exact ⟨rfl, { h with phase := ⟨j, hj, hid, hv.trans hr⟩ }, fun _ => rfl⟩
    · rw [he] at hs
      cases hs
      refine ⟨rfl, { h with stuck := rfl, jobs := ?_, phase := trivial }, fun hn => absurd he hn⟩
      intro j' hj'
      cases hj'
  · cases hs

/-- The job of the evaluation is cancelled. -/
theorem Sweeping.cancel (h : Sweeping db₀ C db st)
    (hs : Recovery.step db now st .cancel = some (st', t)) (hc : db.Commits t db') :
    ∃ C', Sweeping db₀ C' db' st' ∧ db₀.untouched C' st' = db₀.untouched C st := by
  obtain ⟨since, stuck, jobs, p⟩ := st
  have hphase := h.phase
  simp only [Recovery.step] at hs
  split at hs
  · rename_i job dep
    cases hs
    cases hc
    obtain ⟨j, hj, rfl, hv⟩ := hphase
    refine ⟨insert j.id C, { h with
      swept := h.swept.cancelOrphan
      cancelled := ?_
      phase := trivial }, ?_⟩
    · intro i hi
      obtain rfl | hi := Finset.mem_insert.mp hi
      · exact ⟨j, hj, dep, rfl, hv⟩
      · exact h.cancelled i hi
    · rw [untouched, untouched, busy_of_job? (p := .cancelling j.id dep) rfl,
        Finset.union_insert, Finset.insert_union]
  · cases hs

/-- A step of an evaluation cancels a selected orphan, or nothing; where it does not raise, no
orphan is left out. -/
theorem Sweeping.quiet (hw : db₀.Wf) (h : Sweeping db₀ C db st) {a : Recovery.Action}
    (ha : a.sweeps = true) (hq : a.scans = false)
    (hs : Recovery.step db now st a = some (st', t)) (hc : db.Commits t db') :
    ∃ C', Sweeping db₀ C' db' st' ∧
      (¬ Recovery.Raises db st.phase a → db₀.untouched C' st' = db₀.untouched C st) := by
  cases a with
  | scanOrphans order => cases hq
  | evaluate =>
    obtain ⟨rfl, h', hu⟩ := h.evaluate hs
    cases hc
    exact ⟨C, h', fun _ => hu⟩
  | checkDep =>
    obtain ⟨rfl, h', hu⟩ := h.checkDep hw hs
    cases hc
    exact ⟨C, h', hu⟩
  | cancel =>
    obtain ⟨C', h', hu⟩ := h.cancel hs hc
    exact ⟨C', h', fun _ => hu⟩
  | scanStuck | reclaim | route | crash => cases ha

/-- No open job has a dependency with a DEAD run. -/
def NoOrphans (db : Db) : Prop :=
  ∀ j ∈ db.scheduledJobs, j.status.isOpen = true → ¬ db.HasDeadDep j

/-- The orphans that are left are the open jobs with a dead dependency. -/
theorem Sweeping.noOrphans_iff (h : Sweeping db₀ C db st) : db.NoOrphans ↔ db₀.left C = ∅ := by
  rw [Finset.eq_empty_iff_forall_notMem]
  constructor
  · intro hno j hj
    obtain ⟨ho, hc⟩ := mem_left.mp hj
    obtain ⟨hcand, hv⟩ := mem_orphans.mp ho
    obtain ⟨hmem, hopen⟩ := mem_candidates.mp (h.swept.mem_candidates.mpr ⟨hcand, hc⟩)
    rw [← h.swept.verdict] at hv
    have hstatus : j.status.isOpen = true := (of_decide_eq_true hopen).1
    exact hno j hmem hstatus ((hasDeadDep_iff h.swept.wf).mpr hv)
  · intro hnone j hmem hopen hdead
    have hdeps : j.dependsOn ≠ [] := by
      rintro hnil
      obtain ⟨dep, hdep, -⟩ := hdead
      rw [hnil] at hdep
      cases hdep
    have hcand := mem_candidates.mpr ⟨hmem, decide_eq_true ⟨hopen, hdeps⟩⟩
    obtain ⟨hcand₀, hc⟩ := h.swept.mem_candidates.mp hcand
    rw [hasDeadDep_iff h.swept.wf, h.swept.verdict] at hdead
    exact hnone j (mem_left.mpr ⟨mem_orphans.mpr ⟨hcand₀, hdead⟩, hc⟩)

end Db

/-- The actions of the calls of the worker `v`, and those of the clock. -/
def Action.sweeps (v : Nat) : Action → Bool
  | advance _ => true
  | recover u a => u = v ∧ a.sweeps
  | _ => false

/-- The first action of a call. -/
def Action.scans : Action → Bool
  | recover _ a => a.scans
  | _ => false

namespace Sys

open Db (Sweeping)

variable {env : Env} {v : Nat} {s s' : Sys} {a : Action} {db₀ : Db} {C : Finset UUID} {m : Nat}

/-- A call of the worker `v` raises. -/
def Raises (v : Nat) (s : Sys) (a : Action) (_ : Sys) : Prop :=
  match a with
  | .recover _ a => Recovery.Raises s.db (s.recoveries v).phase a
  | _ => False

theorem not_raises (h : db₀.Sweeping C s.db (s.recoveries v)) (hE : db₀.EvaluatesAll) :
    ¬ Raises v s a s' := by
  cases a with
  | recover u b => exact h.not_raises hE
  | _ => exact not_false

/-- A step of a call, by the untouched orphans. -/
theorem sweeping_step (hw : db₀.Wf) (h : db₀.Sweeping C s.db (s.recoveries v))
    (ha : a.sweeps v = true) (hs : s.step env a = some s') :
    ∃ C', db₀.Sweeping C' s'.db (s'.recoveries v) ∧
      (a.scans = false → ¬ Raises v s a s' →
        db₀.untouched C' (s'.recoveries v) = db₀.untouched C (s.recoveries v)) ∧
      (a.scans = true → ∃ batch,
        Sweep.Batch (·.createdAt) 100 db₀.waiting (db₀.untouched C (s.recoveries v)) batch ∧
        db₀.untouched C' (s'.recoveries v) = db₀.untouched C (s.recoveries v) \ batch) := by
  cases a with
  | advance n =>
    obtain ⟨⟨s₁, t⟩, hp, hcm⟩ := Option.bind_eq_some_iff.mp hs
    simp only [plan] at hp
    split at hp <;> cases hp
    cases hcm
    refine ⟨C, h, fun _ _ => rfl, fun hscan => ?_⟩
    cases hscan
  | recover u b =>
    obtain ⟨rfl, hb⟩ := of_decide_eq_true ha
    obtain ⟨st, t, db', hst, -, hc, rfl⟩ := step_recover hs
    simp only [Function.update_self]
    cases hscan : b.scans with
    | false =>
      obtain ⟨C', h', hkeep⟩ := h.quiet hw hb hscan hst hc
      refine ⟨C', h', fun _ => hkeep, fun hscan' => ?_⟩
      rw [Action.scans, hscan] at hscan'
      cases hscan'
    | true =>
      cases b <;> cases hscan
      obtain ⟨rfl, hrest, h', rows, hrows, hleft⟩ := h.scan hw hst
      cases hc
      refine ⟨C, h', fun hscan' => ?_, fun _ => ⟨rows.toFinset, ?_, ?_⟩⟩
      · cases hscan'
      · rw [Db.untouched_of_atRest hrest]
        exact h.swept.batch h.onlyOrphans hw hrows
      · rw [hleft, Db.untouched_of_atRest hrest]
  | schedule | execute | request | produce => cases ha

/-- The orphans that no more than `m` scans have left out. -/
def Bounded (db₀ : Db) (m : Nat) (C : Finset UUID) (st : Recovery.State) : Prop :=
  Sweep.swept (·.createdAt) 100 db₀.orphans db₀.waiting m + (db₀.untouched C st).card ≤
    db₀.orphans.card

/-- What the calls of a run leave at most. -/
theorem sweeping_run (hw : db₀.Wf) (hE : db₀.EvaluatesAll) {as : List Action}
    (h : db₀.Sweeping C s.db (s.recoveries v)) (has : ∀ a ∈ as, a.sweeps v = true)
    (hm : Bounded db₀ m C (s.recoveries v)) (hr : Lts.run (step env) s as = some s') :
    Lts.Along (step env) (fun s a s' => ¬ Raises v s a s') s as ∧
      ∃ C', db₀.Sweeping C' s'.db (s'.recoveries v) ∧
        Bounded db₀ (m + as.countP Action.scans) C' (s'.recoveries v) := by
  induction as generalizing s C m with
  | nil =>
    cases hr
    exact ⟨trivial, C, h, hm⟩
  | cons a as ih =>
    obtain ⟨t, ht, hr⟩ := Lts.run_cons.mp hr
    obtain ⟨ha, has⟩ := List.forall_mem_cons.mp has
    obtain ⟨C', h', hquiet, hscan⟩ := sweeping_step hw h ha ht
    have hnot : ∀ u, ¬ Raises v s a u := fun u => not_raises h hE
    have hm' : Bounded db₀ (m + if a.scans = true then 1 else 0) C' (t.recoveries v) := by
      cases hc : a.scans with
      | false =>
        unfold Bounded
        rw [hquiet hc (hnot t)]
        exact hm
      | true =>
        obtain ⟨batch, hbatch, hleft⟩ := hscan hc
        unfold Bounded
        rw [hleft]
        exact hbatch.swept_add_le (Finset.filter_subset _ _) hm
    obtain ⟨halong, C'', h'', hm''⟩ := ih h' has hm' hr
    refine ⟨fun u hu => ?_, C'', h'', ?_⟩
    · rw [ht] at hu
      cases hu
      exact ⟨hnot _, halong⟩
    · rw [List.countP_cons, Nat.add_comm (as.countP _), ← Nat.add_assoc]
      exact hm''

/-! ## The calls that there are -/

variable (env) in
/-- A step of a recovery worker that locks no subscription is possible. -/
theorem step_recover_of {b : Recovery.Action} {st : Recovery.State} {t : Option Txn} {db' : Db}
    (hst : Recovery.step s.db s.clock (s.recoveries v) b = some (st, t))
    (hsubs : ∀ t', t = some t' → t'.subs = []) (hc : s.db.Commits t db') :
    ∃ s', s.step env (.recover v b) = some s' ∧ s'.db = db' ∧ s'.recoveries v = st := by
  cases t with
  | none =>
    cases hc
    simp [Sys.step, plan, hst, commit]
  | some t =>
    have hc' : t.apply s.db = some db' := hc
    simp [Sys.step, plan, hst, commit, unlocked, hsubs t rfl, hc']

/-- The next step of a call. -/
theorem sweeping_progress (env : Env) (h : db₀.Sweeping C s.db (s.recoveries v))
    (hrest : ¬ (s.recoveries v).AtRest) :
    ∃ a s', a.sweeps v = true ∧ a.scans = false ∧ s.step env a = some s' ∧
      (s'.recoveries v).work < (s.recoveries v).work := by
  generalize hst : s.recoveries v = st at h hrest ⊢
  obtain ⟨since, stuck, jobs, p⟩ := st
  obtain rfl : stuck = [] := h.stuck
  have hphase := h.phase
  suffices hstep : ∃ b st t db', b.sweeps = true ∧ b.scans = false ∧
      Recovery.step s.db s.clock (s.recoveries v) b = some (st, t) ∧
      (∀ t', t = some t' → t'.subs = []) ∧ s.db.Commits t db' ∧
      st.work < (Recovery.State.mk since [] jobs p).work by
    obtain ⟨b, st, t, db', hb, hq, hrec, hsubs, hc, hlt⟩ := hstep
    obtain ⟨s', hs', -, hst'⟩ := step_recover_of env hrec hsubs hc
    exact ⟨.recover v b, s', decide_eq_true ⟨rfl, hb⟩, hq, hs', by rwa [hst']⟩
  rw [hst]
  cases p with
  | idle =>
    cases jobs with
    | nil => exact absurd ⟨rfl, rfl, rfl⟩ hrest
    | cons j rest =>
      refine ⟨.evaluate, _, none, s.db, rfl, rfl, rfl, by simp, rfl, ?_⟩
      simp [Recovery.State.work, Recovery.Phase.work]
      omega
  | claimed => exact hphase.elim
  | evaluating job deps =>
    cases deps with
    | nil =>
      refine ⟨.checkDep, _, none, s.db, rfl, rfl, rfl, by simp, rfl, ?_⟩
      simp [Recovery.State.work, Recovery.Phase.work]
    | cons dep rest =>
      -- Whatever the verdict is, the dependency is done with.
      have hnext : ∃ st, Recovery.step s.db s.clock
          { now := since, jobs := jobs, phase := .evaluating job (dep :: rest) } .checkDep =
            some (st, none) ∧
          st.work < (Recovery.State.mk since [] jobs (.evaluating job (dep :: rest))).work := by
        obtain ⟨he, -⟩ | ⟨he, -⟩ | ⟨he, -⟩ := Recovery.evaluateDagJob_verdict s.db job
          dep rest
        all_goals
          simp only [Recovery.step, he]
          exact ⟨_, rfl, by simp [Recovery.State.work, Recovery.Phase.work]⟩
      obtain ⟨st, hrec, hlt⟩ := hnext
      exact ⟨.checkDep, st, none, s.db, rfl, rfl, hrec, by simp, rfl, hlt⟩
  | cancelling job dep =>
    refine ⟨.cancel, _, some _, _, rfl, rfl, rfl, ?_, rfl, ?_⟩
    · rintro t ⟨⟩
      rfl
    · simp [Recovery.State.work, Recovery.Phase.work]

/-- The actions are those of `m` calls. -/
def SweepCalls (v m : Nat) (as : List Action) : Prop :=
  (∀ a ∈ as, a.sweeps v = true) ∧ as.countP Action.scans = m

/-- After its scan, a call comes to its end. -/
theorem exists_evaluation (env : Env) (hw : db₀.Wf)
    (h : db₀.Sweeping C s.db (s.recoveries v)) : ∃ as s' C', SweepCalls v 0 as ∧
      Lts.run (step env) s as = some s' ∧ (s'.recoveries v).AtRest ∧
      db₀.Sweeping C' s'.db (s'.recoveries v) ∧
      (db₀.EvaluatesAll → db₀.left C' = db₀.untouched C (s.recoveries v)) := by
  obtain ⟨as, s', has, hr, ⟨C', h', hkeep⟩, hrest⟩ := Lts.exists_run_of_measure
    (step env) (p := fun a => a.sweeps v = true ∧ a.scans = false)
    (I := fun u => ∃ C', db₀.Sweeping C' u.db (u.recoveries v) ∧
      (db₀.EvaluatesAll → db₀.untouched C' (u.recoveries v) =
        db₀.untouched C (s.recoveries v)))
    (G := fun u => (u.recoveries v).AtRest) (fun u => (u.recoveries v).work)
    (fun {u} hu => by
      obtain ⟨C', h', hkeep⟩ := hu
      refine or_iff_not_imp_left.mpr fun hrest => ?_
      obtain ⟨a, u', ha, hq, hs, hlt⟩ := sweeping_progress env h' hrest
      obtain ⟨C'', h'', hquiet, -⟩ := sweeping_step hw h' ha hs
      exact ⟨a, u', ⟨ha, hq⟩, hs, ⟨C'', h'', fun hE =>
        (hquiet hq (not_raises h' hE)).trans (hkeep hE)⟩, hlt⟩)
    ⟨C, h, fun _ => rfl⟩
  refine ⟨as, s', C', ⟨fun a ha => (has a ha).1, ?_⟩, hr, hrest, h', fun hE => ?_⟩
  · exact List.countP_eq_zero.mpr fun a ha => by simp [(has a ha).2]
  · rw [← hkeep hE, Db.untouched_of_atRest hrest]

/-- There is a call for each selection. -/
theorem exists_call (env : Env) (hw : db₀.Wf) (h : db₀.Sweeping C s.db (s.recoveries v))
    (hrest : (s.recoveries v).AtRest) {order : List UUID} {rows : List ScheduledJob}
    (hrows : Recovery.orphanCandidates s.db order = some rows) :
    ∃ as s' C', SweepCalls v 1 as ∧ Lts.run (step env) s as = some s' ∧ (s'.recoveries v).AtRest ∧
      db₀.Sweeping C' s'.db (s'.recoveries v) ∧
      (db₀.EvaluatesAll → db₀.left C' = db₀.left C \ rows.toFinset) := by
  have hst : Recovery.step s.db s.clock (s.recoveries v) (.scanOrphans order) =
      some ({ s.recoveries v with jobs := rows }, none) := by
    simp [Recovery.step, hrest.stuck, hrest.jobs, hrest.phase, hrows]
  obtain ⟨s₁, hs₁, hdb, hrec⟩ := step_recover_of env hst (by simp) rfl
  obtain ⟨-, -, h₁, rows', hrows', hleft⟩ := h.scan hw hst
  rw [hrows] at hrows'
  cases hrows'
  rw [← hdb, ← hrec] at h₁
  rw [← hrec] at hleft
  obtain ⟨as, s', C', ⟨has, hcount⟩, hr, hrest', h', hkeep⟩ := exists_evaluation env hw h₁
  refine ⟨.recover v (.scanOrphans order) :: as, s', C', ⟨?_, ?_⟩,
    Lts.run_cons.mpr ⟨s₁, hs₁, hr⟩, hrest', h', fun hE => (hkeep hE).trans hleft⟩
  · exact List.forall_mem_cons.mpr ⟨decide_eq_true ⟨rfl, rfl⟩, has⟩
  · rw [List.countP_cons, hcount]
    rfl

/-- There are `m` calls, and without a raise they may leave as many orphans as the bound says: the
waiting jobs come first among those of the same time. -/
theorem exists_calls (env : Env) (hw : s.db.Wf) (hrest : (s.recoveries v).AtRest) (m : Nat) :
    ∃ as s' C, SweepCalls v m as ∧ Lts.run (step env) s as = some s' ∧ (s'.recoveries v).AtRest ∧
      s.db.Sweeping C s'.db (s'.recoveries v) ∧
      (s.db.EvaluatesAll →
        (∀ i ∈ s.db.orphans, i ∉ s.db.left C → ∀ j ∈ s.db.left C, i.createdAt ≤ j.createdAt) ∧
        s.db.orphans.card ≤
          Sweep.swept (·.createdAt) 100 s.db.orphans s.db.waiting m + (s.db.left C).card) := by
  induction m with
  | zero =>
    refine ⟨[], s, ∅, ⟨by simp, rfl⟩, rfl, hrest, .refl hw hrest, fun _ => ?_⟩
    have hall : s.db.left ∅ = s.db.orphans := by simp [Db.left]
    rw [hall]
    exact ⟨fun i hi hn => absurd hi hn, by omega⟩
  | succ m ih =>
    obtain ⟨as, s₁, C, ⟨has, hcount⟩, hr, hrest₁, h₁, hbound⟩ := ih
    obtain ⟨order, rows, hrows, hfirst⟩ := h₁.swept.exists_batch h₁.onlyOrphans hw
    obtain ⟨bs, s', C', ⟨hbs, hone⟩, hr', hrest', h', hleft⟩ :=
      exists_call env hw h₁ hrest₁ hrows
    refine ⟨as ++ bs, s', C', ⟨?_, ?_⟩, (Lts.run_append hr).trans hr', hrest', h', fun hE => ?_⟩
    · exact List.forall_mem_append.mpr ⟨has, hbs⟩
    · rw [List.countP_append, hcount, hone]
    · obtain ⟨hup, hcard⟩ := hbound hE
      have hbatch := h₁.swept.batch h₁.onlyOrphans hw hrows
      rw [hleft hE]
      exact ⟨hbatch.removed_le hup, hbatch.le_swept_add (Finset.filter_subset _ _)
        Db.orphans_disjoint_waiting hfirst hup hcard⟩

/-! ## Exactness -/

/-- However the rows of equal times are ordered: after `m` calls of the worker `v` without another
writer none has raised, and there are no orphans. -/
def SweepsClean (env : Env) (v m : Nat) (s : Sys) : Prop :=
  ∀ as s', SweepCalls v m as → Lts.run (step env) s as = some s' → (s'.recoveries v).AtRest →
    Lts.Along (step env) (fun s a s' => ¬ Raises v s a s') s as ∧ s'.db.NoOrphans

theorem sweepsClean_calls_iff (env : Env) {s : Sys} (hw : s.db.Wf)
    (hrest : (s.recoveries v).AtRest) (m : Nat) :
    SweepsClean env v m s ↔ s.db.EvaluatesAll ∧
      s.db.orphans.card ≤ Sweep.swept (·.createdAt) 100 s.db.orphans s.db.waiting m := by
  constructor
  · intro hclean
    obtain ⟨as, s', C, hcalls, hr, hrest', h', hbound⟩ := exists_calls env hw hrest m
    have hnone := h'.noOrphans_iff.mp (hclean as s' hcalls hr hrest').2
    have hE : s.db.EvaluatesAll := by
      intro j hj hv
      -- A job whose evaluation raises is never cancelled.
      have hleft : j ∈ s.db.left C := by
        refine Db.mem_left.mpr ⟨Db.mem_orphans.mpr ⟨hj, by simp [hv]⟩, fun hc => ?_⟩
        obtain ⟨j', hj', dep, hid, hv'⟩ := h'.cancelled _ hc
        rw [hw.candidate_unique hj' hj hid, hv] at hv'
        cases hv'
      rw [hnone] at hleft
      cases hleft
    refine ⟨hE, ?_⟩
    have hcard := (hbound hE).2
    rw [hnone, Finset.card_empty] at hcard
    exact hcard
  · rintro ⟨hE, hle⟩ as s' ⟨has, hcount⟩ hr hrest'
    have hstart : Bounded s.db 0 ∅ (s.recoveries v) := by
      unfold Bounded
      rw [Db.untouched_of_atRest hrest, Sweep.swept, Nat.zero_add]
      exact Finset.card_le_card (Finset.filter_subset _ _)
    obtain ⟨halong, C, h', hbound⟩ := sweeping_run hw hE (.refl hw hrest) has hstart hr
    refine ⟨halong, h'.noOrphans_iff.mpr ?_⟩
    unfold Bounded at hbound
    rw [Db.untouched_of_atRest hrest', hcount, Nat.zero_add] at hbound
    exact Finset.card_eq_zero.mp (by omega)

/-- For every database with `n` open jobs with dependencies: `⌈n / 100⌉ + 1` calls reach every
orphan and none raises iff no evaluation does, and the sweeps of the queue by `created_at`, in which
the waiting jobs stay, take all orphans. -/
theorem sweepsClean_iff (env : Env) (v : Nat) {s : Sys} (hw : s.db.Wf)
    (hrest : (s.recoveries v).AtRest) :
    SweepsClean env v ((s.db.candidates.length + 99) / 100 + 1) s ↔ s.db.EvaluatesAll ∧
      s.db.orphans.card ≤ Sweep.swept (·.createdAt) 100 s.db.orphans s.db.waiting
        ((s.db.candidates.length + 99) / 100 + 1) :=
  sweepsClean_calls_iff env hw hrest _

end Sys

namespace Demo

/-- A job that depends on another one, with the DEAD runs of the latter. -/
def orphaned (runs : List JobRun) : Sys where
  db :=
    { subscriptions :=
        [{ id := subId
           name := "Rent"
           description := none
           cronExpression := "* * * * *"
           timezone := "UTC"
           nextFireAt := some (start + seconds 120)
           paymentConfig := []
           retryPolicy := ({} : RetryPolicy).toDict
           createdAt := start }]
      scheduledJobs :=
        [{ id := jobId
           subscriptionId := subId
           scheduledFor := start
           fingerprint := ""
           status := .ready
           createdAt := start },
          { id := nextId
            subscriptionId := subId
            scheduledFor := start + seconds 60
            fingerprint := "next"
            dependsOn := [jobId]
            status := .blocked
            createdAt := start }]
      jobRuns := runs }
  clock := start + seconds 60

def deadRun (id : UUID) (attempt : Int) : JobRun :=
  { id := id, jobId := jobId, attempt := attempt, status := .dead, createdAt := start }

theorem orphaned_wf {runs : List JobRun} (hid : Table.Unique (·.id) runs)
    (ha : Table.Unique (fun r => (r.jobId, r.attempt)) runs)
    (hjob : ∀ r ∈ runs, r.jobId = jobId) : (orphaned runs).db.Wf where
  subIds := List.nodup_singleton _
  jobIds := (by decide : [jobId, nextId].Nodup)
  runIds := hid
  attempts := ha
  keyAttempts := List.nodup_nil
  jobSub j hj := by
    have : j.subscriptionId = subId := by
      fin_cases hj <;> rfl
    rw [this]
    exact ⟨_, rfl⟩
  runJob r hr := by
    rw [hjob r hr]
    exact ⟨_, rfl⟩
  keyRun k hk := by cases hk
  entryRun e he := by cases he

/-- The job `n` of `crowded`, which depends on `dep`: two are created at a time. -/
def dependent (dep : UUID) (n : Nat) : ScheduledJob where
  id := .ofNat 128 (100 + n)
  subscriptionId := subId
  scheduledFor := start + seconds (60 * (n + 2))
  fingerprint := UUID.str (.ofNat 128 (100 + n))
  dependsOn := [dep]
  status := .blocked
  createdAt := start + (n / 2 : Nat)

/-- 50 jobs that wait for a job without a DEAD run, and 70 orphans that were created after them. -/
def crowded : Sys where
  db :=
    { (orphaned [deadRun runId 1]).db with
      scheduledJobs :=
        [{ id := jobId
           subscriptionId := subId
           scheduledFor := start
           fingerprint := ""
           status := .ready
           createdAt := start },
          { id := nextId
            subscriptionId := subId
            scheduledFor := start + seconds 60
            fingerprint := "next"
            status := .ready
            createdAt := start }] ++
        (List.range 50).map (dependent nextId) ++
        (List.range' 50 70).map (dependent jobId) }
  clock := start + seconds 60

theorem crowded_wf : crowded.db.Wf where
  subIds := List.nodup_singleton _
  jobIds := by decide +kernel
  runIds := List.nodup_singleton _
  attempts := List.nodup_singleton _
  keyAttempts := List.nodup_nil
  jobSub := by
    have hall : (crowded.db.scheduledJobs.all fun j => j.subscriptionId = subId) = true := by
      decide +kernel
    intro j hj
    rw [of_decide_eq_true (List.all_eq_true.mp hall j hj)]
    exact ⟨_, rfl⟩
  runJob r hr := by
    rw [List.mem_singleton.mp hr]
    exact ⟨_, rfl⟩
  keyRun k hk := by cases hk
  entryRun e he := by cases he

/-- The first call reaches 50 orphans, and the second one the other 20. -/
theorem crowded_clean : crowded.db.waiting.card = 50 ∧ crowded.db.orphans.card = 70 ∧
    Sys.SweepsClean env 0 ((crowded.db.candidates.length + 99) / 100 + 1) crowded := by
  have hcalls : (crowded.db.candidates.length + 99) / 100 + 1 = 3 := by decide +kernel
  have horphans : crowded.db.orphans.card = 70 := by decide +kernel
  have hfirst : Sweep.reach (·.createdAt) 100 crowded.db.orphans crowded.db.waiting 0 = 50 := by
    decide +kernel
  have hsecond : Sweep.reach (·.createdAt) 100 crowded.db.orphans crowded.db.waiting 50 = 70 := by
    decide +kernel
  have hswept : Sweep.swept (·.createdAt) 100 crowded.db.orphans crowded.db.waiting 2 = 70 := by
    rw [Sweep.swept, Sweep.swept, Sweep.swept, hfirst, hsecond]
  refine ⟨by decide +kernel, horphans, ?_⟩
  refine (Sys.sweepsClean_iff env 0 crowded_wf ⟨rfl, rfl, rfl⟩).mpr ⟨?_, ?_⟩
  · unfold Db.EvaluatesAll
    decide +kernel
  · rw [hcalls, horphans, ← hswept]
    exact Sweep.swept_le_succ

/-- Two calls, which select the job. -/
def twoCalls : List Action :=
  [.recover 0 (.scanOrphans [nextId]), .recover 0 .evaluate, .recover 0 .checkDep,
    .recover 0 (.scanOrphans [nextId]), .recover 0 .evaluate, .recover 0 .checkDep]

/-- A late failure has left a second DEAD run: both calls raise. -/
theorem twoDeaths_not_clean : ¬ ∀ (env : Env) (v : Nat) (s : Sys), s.db.Wf →
    (s.recoveries v).AtRest →
    Sys.SweepsClean env v ((s.db.candidates.length + 99) / 100 + 1) s := by
  intro h
  have hclean := h env 0 (orphaned [deadRun runId 1, deadRun entryId 2])
    (orphaned_wf (by decide) (by decide) (by decide)) ⟨rfl, rfl, rfl⟩
  have heval : ((Lts.run (Sys.step env) (orphaned [deadRun runId 1, deadRun entryId 2])
      twoCalls).any fun s => decide (s.recoveries 0).AtRest &&
        s.db.scheduledJobs.any fun j => j.status.isOpen && j.dependsOn.any fun dep =>
          s.db.jobRuns.any fun r => r.jobId = dep ∧ r.status = .dead) = true := by
    decide +kernel
  obtain ⟨s, hr, hs⟩ := Lts.exists_run heval
  obtain ⟨hrest, hdead⟩ := Bool.and_eq_true_iff.mp hs
  obtain ⟨j, hj, hdead⟩ := List.any_eq_true.mp hdead
  obtain ⟨hopen, hdep⟩ := Bool.and_eq_true_iff.mp hdead
  obtain ⟨dep, hdep, hrun⟩ := List.any_eq_true.mp hdep
  obtain ⟨r, hr', hrun⟩ := List.any_eq_true.mp hrun
  have hno := (hclean twoCalls s ⟨by decide, by decide⟩ hr (of_decide_eq_true hrest)).2
  exact hno j hj hopen ⟨dep, hdep, r, hr', of_decide_eq_true hrun⟩

end Demo

end PaymentScheduler
