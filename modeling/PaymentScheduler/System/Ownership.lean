import PaymentScheduler.System.Basic
import PaymentScheduler.Db.Guard

/-!
# Who works on a run

The invariant of the system (`Owned`), in any interleaving:

- An executor holds a run from its claim until it has committed its last write or ended. No other
  executor holds it, it is not PENDING, and it has no key (`held`, `once`): only the holder can
  insert one.
- A recovery worker that has taken a run is the only one, and the run is neither PENDING nor
  RUNNING (`taken`, `takenOnce`). An executor may still hold it: that is where the writes of the two
  overlap.
- The constraints of the schema, and `Db.Keyed`.

`Owned.guard`: with it, every transaction finds what it relies on (`Txn.Guard`).
-/

namespace PaymentScheduler

namespace Sys

/-- The executor `w` holds the run `x`. -/
def Holds (s : Sys) (w : Nat) (x : UUID) : Prop := (s.executors w).phase.run? = some x

/-- The recovery worker `v` has taken the run `x`. -/
def Takes (s : Sys) (v : Nat) (x : UUID) : Prop := (s.recoveries v).phase.run? = some x

/-- The invariant. -/
structure Owned (s : Sys) : Prop where
  wf : s.db.Wf
  keyed : s.db.Keyed
  held : ∀ {w x}, s.Holds w x → s.db.Held x
  once : ∀ {w v x}, s.Holds w x → s.Holds v x → w = v
  agrees : ∀ {w c}, (s.executors w).phase.loaded? = some c → s.db.Agrees c.run c.subscription.id
  taken : ∀ {v x j n b}, (s.recoveries v).phase = .claimed x j n b → s.db.Taken x j n b.id
  takenOnce : ∀ {v u x}, s.Takes v x → s.Takes u x → v = u

theorem Owned.init : Owned Sys.init where
  wf := Db.Wf.empty
  keyed := Db.Keyed.empty
  held h := by cases h
  once h := by cases h
  agrees h := by cases h
  taken h := by cases h
  takenOnce h := by cases h

variable {env : Env} {s s' : Sys} {t : Option Txn} {db' : Db}

/-! ## Guards -/

theorem loaded?_holds {w : Nat} {c : Executor.Loaded}
    (h : (s.executors w).phase.loaded? = some c) : s.Holds w c.run.id := by
  unfold Holds
  cases hp : (s.executors w).phase <;> rw [hp] at h <;> cases h <;> rfl

theorem Owned.guard_execute (hI : Owned s) {w : Nat} {a : Executor.Action} {p p' : Executor.Phase}
    {t : Txn} (hp : (s.executors w).phase = p)
    (hm : Executor.Move env w s.db s.clock p a p' (some t)) : t.Guard s.db := by
  have hload : ∀ {c}, p.loaded? = some c → s.db.Held c.run.id ∧
      s.db.Agrees c.run c.subscription.id := by
    intro c hc
    rw [← hp] at hc
    exact ⟨hI.held (loaded?_holds hc), hI.agrees hc⟩
  cases hm with
  | claim hr hpend => exact ⟨_, hr, hpend⟩
  | cancelDag =>
    obtain ⟨hh, ha⟩ := hload rfl
    exact ⟨hh, _, ha⟩
  | persist ht =>
    obtain ⟨v, -, rfl⟩ := Option.map_eq_some_iff.mp ht
    obtain ⟨hh, ha⟩ := hload rfl
    exact ⟨rfl, rfl, hh, ha⟩
  | @fail c error retryable rnd newId _ ht =>
    obtain ⟨hh, ha⟩ := hload rfl
    obtain ⟨r, j, hr, hj, hn, -⟩ := ha
    obtain ⟨-, -, retryAfter, rfl⟩ | rfl := Executor.handleFailure_cases ht
    · exact ⟨hh, r, hr, by rw [hj], by rw [hn], rfl⟩
    · obtain ⟨r', hr', hs, -⟩ := hh
      rw [hr] at hr'
      cases hr'
      exact ⟨fun _ => hI.held (w := w) (by rw [Holds, hp]; rfl), r, hr, hs, hj, nofun⟩

theorem Owned.guard_recover (hI : Owned s) {v : Nat} {a : Recovery.Action}
    {p p' : Recovery.Phase} {t : Txn} (hp : (s.recoveries v).phase = p)
    (hm : Recovery.Move s.db s.clock p a p' (some t)) : t.Guard s.db := by
  cases hm with
  | reclaim hr hs =>
    simp only [Recovery.isStuck, decide_eq_true_eq] at hs
    exact ⟨_, hr, hs.1⟩
  | abandon hr hs =>
    simp only [Recovery.isStuck, decide_eq_true_eq] at hs
    exact ⟨_, hr, hs.1⟩
  | route =>
    obtain ⟨r, j, hr, hj, hn, hl, -⟩ := hI.taken hp
    unfold Recovery.route
    split
    · refine ⟨(fun hc => by cases hc), r, hr, ?_, hj, fun _ => hl⟩
      intro hs
      rw [hs] at hl
      cases hl
    · exact ⟨_, r, hr, hl, hj.symm, by rw [hn], rfl⟩
  | cancel => trivial

theorem Intake.guard {t : Txn} (h : Intake (some t)) (db : Db) : t.Guard db := by
  cases t <;> trivial

/-- A step is one of an executor, one of a recovery worker, or another one. -/
theorem step_kind {motive : Action → Prop} (a : Action)
    (execute : ∀ w b, motive (.execute w b)) (recover : ∀ v b, motive (.recover v b))
    (other : (∀ w b, a ≠ .execute w b) → (∀ v b, a ≠ .recover v b) → motive a) : motive a := by
  cases a with
  | execute w b => exact execute w b
  | recover v b => exact recover v b
  | _ => exact other nofun nofun

/-- An executor changes by its own steps only. -/
theorem step_executor {w : Nat} {a : Action} (hw : ∀ b, a ≠ .execute w b)
    (h : s.step env a = some s') : s'.executors w = s.executors w := by
  induction a using step_kind with
  | execute v b =>
    obtain ⟨st, t, db', -, -, -, rfl⟩ := step_execute h
    refine Function.update_of_ne ?_ _ _
    rintro rfl
    exact hw b rfl
  | recover v b =>
    obtain ⟨st, t, db', -, -, -, rfl⟩ := step_recover h
    rfl
  | other he hr => rw [(step_intake h he hr).2.2.1]

/-- A recovery worker changes by its own steps only. -/
theorem step_recovery {v : Nat} {a : Action} (hv : ∀ b, a ≠ .recover v b)
    (h : s.step env a = some s') : s'.recoveries v = s.recoveries v := by
  induction a using step_kind with
  | execute w b =>
    obtain ⟨st, t, db', -, -, -, rfl⟩ := step_execute h
    rfl
  | recover u b =>
    obtain ⟨st, t, db', -, -, -, rfl⟩ := step_recover h
    refine Function.update_of_ne ?_ _ _
    rintro rfl
    exact hv b rfl
  | other he hr => rw [(step_intake h he hr).2.2.2.1]

/-- A step commits the transaction of its action. -/
theorem step_commits {a : Action} (h : s.step env a = some s') :
    s.db.Commits (s.txn? env a) s'.db := by
  induction a using step_kind with
  | execute w b =>
    obtain ⟨st, t, db', -, ht, hc, rfl⟩ := step_execute h
    rwa [ht]
  | recover v b =>
    obtain ⟨st, t, db', -, ht, hc, rfl⟩ := step_recover h
    rwa [ht]
  | other he hr => exact (step_intake h he hr).2.1

/-- A step commits nothing, or one transaction. -/
theorem step_db {a : Action} (h : s.step env a = some s') :
    (s.txn? env a = none ∧ s'.db = s.db) ∨
      ∃ t, s.txn? env a = some t ∧ t.apply s.db = some s'.db := by
  have hc := step_commits h
  cases ht : s.txn? env a with
  | none =>
    rw [ht] at hc
    exact .inl ⟨rfl, hc⟩
  | some t =>
    rw [ht] at hc
    exact .inr ⟨t, rfl, hc⟩

/-- A step keeps `Q` iff its transaction satisfies `P`, where this is so for each transaction. -/
theorem onCommit_iff {P : Db → Txn → Prop} {Q : Db → Prop} {a : Action}
    (h : s.step env a = some s') (hq : Q s.db)
    (hP : ∀ t, s.txn? env a = some t → t.apply s.db = some s'.db → (P s.db t ↔ Q s'.db)) :
    OnCommit env P s a s' ↔ Q s'.db := by
  unfold OnCommit
  obtain ⟨ht, hdb⟩ | ⟨t, ht, hc⟩ := step_db h
  · rw [hdb]
    exact iff_of_true (fun t he => by rw [ht] at he; cases he) hq
  · rw [← hP t ht hc]
    constructor
    · exact fun hall => hall t ht
    · intro hp t' he
      rw [ht] at he
      cases he
      exact hp

/-- An executor keeps its state, or takes a step of its own. -/
theorem executor_cases {a : Action} (h : s.step env a = some s') (w : Nat) :
    s'.executors w = s.executors w ∨ ∃ b t, a = .execute w b ∧ s.txn? env a = t ∧
      Executor.step env w s.db s.clock (s.executors w) b = some (s'.executors w, t) := by
  by_cases ha : ∃ b, a = .execute w b
  · obtain ⟨b, rfl⟩ := ha
    obtain ⟨st, t, db', hst, ht, -, rfl⟩ := step_execute h
    simp only [Function.update_self]
    exact .inr ⟨b, t, rfl, ht, hst⟩
  · exact .inl (step_executor (fun b hb => ha ⟨b, hb⟩) h)

/-- A recovery worker keeps its state, or takes a step of its own. -/
theorem recovery_cases {a : Action} (h : s.step env a = some s') (v : Nat) :
    s'.recoveries v = s.recoveries v ∨ ∃ b t, a = .recover v b ∧ s.txn? env a = t ∧
      Recovery.step s.db s.clock (s.recoveries v) b = some (s'.recoveries v, t) := by
  by_cases ha : ∃ b, a = .recover v b
  · obtain ⟨b, rfl⟩ := ha
    obtain ⟨st, t, db', hst, ht, -, rfl⟩ := step_recover h
    simp only [Function.update_self]
    exact .inr ⟨b, t, rfl, ht, hst⟩
  · exact .inl (step_recovery (fun b hb => ha ⟨b, hb⟩) h)

/-- Every transaction finds what it relies on. -/
theorem Owned.guard (hI : Owned s) {a : Action} (h : s.step env a = some s') {t : Txn}
    (ht : s.txn? env a = some t) : t.Guard s.db := by
  induction a using step_kind with
  | execute w b =>
    obtain ⟨st, t', db', hst, ht', -, -⟩ := step_execute h
    rw [ht] at ht'
    subst ht'
    exact hI.guard_execute rfl (Executor.step_move hst)
  | recover v b =>
    obtain ⟨st, t', db', hst, ht', -, -⟩ := step_recover h
    rw [ht] at ht'
    subst ht'
    exact hI.guard_recover rfl (Recovery.step_move hst)
  | other he hr =>
    have hi := (step_intake h he hr).1
    rw [ht] at hi
    exact Intake.guard hi s.db

/-! ## Preservation -/

end Sys

section Commits

variable {db db' : Db} {t : Option Txn}

theorem Db.Commits.wf (hc : db.Commits t db') (h : db.Wf) : db'.Wf := by
  cases t with
  | none => rwa [show db' = db from hc]
  | some t => exact Txn.wf h hc

theorem Db.Commits.keyed (hc : db.Commits t db') (hg : ∀ t', t = some t' → t'.Guard db)
    (h : db.Keyed) : db'.Keyed := by
  cases t with
  | none => rwa [show db' = db from hc]
  | some t => exact h.step (hg t rfl) hc

theorem Db.Commits.held (hc : db.Commits t db') {x : UUID}
    (hk : ∀ k run b, t = some (.persistSuccess k run b) → k.jobRunId ≠ x) (h : db.Held x) :
    db'.Held x := by
  cases t with
  | none => rwa [show db' = db from hc]
  | some t => exact h.keep hc fun k run b ht => hk k run b (congrArg some ht)

theorem Db.Commits.agrees (hc : db.Commits t db') {run : JobRun} {b : UUID}
    (h : db.Agrees run b) : db'.Agrees run b := by
  cases t with
  | none => rwa [show db' = db from hc]
  | some t => exact h.keep hc

/-- A run stays there; it becomes neither PENDING nor live again. -/
theorem Db.Commits.run? (hc : db.Commits t db') {x : UUID} {r : JobRun} (hr : db.run? x = some r) :
    ∃ r', db'.run? x = some r' ∧ r'.jobId = r.jobId ∧ r'.attempt = r.attempt ∧
      (r'.status = .pending → r.status = .pending) ∧
      ((∀ t', t = some t' → t'.Guard db) → r.status.isLive = false → r'.status.isLive = false) := by
  cases t with
  | none =>
    rw [show db' = db from hc]
    exact ⟨r, hr, rfl, rfl, id, fun _ h => h⟩
  | some t =>
    exact ⟨_, Txn.run?_set hc hr, Txn.setRun_jobId r, Txn.setRun_attempt r, Txn.setRun_pending,
      fun hg h => (hg t rfl).setRun_isLive hr h⟩

theorem Db.Commits.taken (hc : db.Commits t db') (hg : ∀ t', t = some t' → t'.Guard db)
    {x j b : UUID} {n : Int} (h : db.Taken x j n b) : db'.Taken x j n b := by
  cases t with
  | none => rwa [show db' = db from hc]
  | some t => exact h.keep (hg t rfl) hc

end Commits

namespace Sys

variable {env : Env} {s s' : Sys}

theorem Owned.step_execute (hI : Owned s) {w : Nat} {a : Executor.Action}
    (h : s.step env (.execute w a) = some s') : Owned s' := by
  have hg := fun t => hI.guard h (t := t)
  obtain ⟨st, t, db', hst, ht, hc, rfl⟩ := Sys.step_execute h
  rw [ht] at hg
  have hm := Executor.step_move hst
  -- The other executors hold other runs, so no key is inserted for these.
  have hother : ∀ {v x}, v ≠ w → s.Holds v x → db'.Held x := by
    intro v x hv hx
    refine hc.held (fun k run b hk => ?_) (hI.held hx)
    rintro rfl
    subst hk
    obtain ⟨c, hl, rfl⟩ := hm.persistSuccess_run
    have hw := loaded?_holds hl
    rw [← (hg _ rfl).1] at hw
    exact hv (hI.once hx hw)
  -- The run that the executor holds after the step.
  have hmine : ∀ {x}, st.phase.run? = some x →
      db'.Held x ∧ ∀ v, v ≠ w → ¬ s.Holds v x := by
    intro x hx
    obtain hn | ⟨hsame, rfl⟩ | ⟨y, r, n, l, hp, rfl, hr, hpend⟩ := hm.run?_cases
    · rw [hn] at hx
      cases hx
    · have hw : s.Holds w x := by rw [Holds, ← hsame, hx]
      rw [show db' = s.db from hc]
      exact ⟨hI.held hw, fun v hv hvx => hv (hI.once hvx hw)⟩
    · rw [hp] at hx
      cases hx
      have hnone : ∀ m, s.db.key? x m = none := by
        intro m
        cases hk : s.db.key? x m with
        | none => rfl
        | some k =>
          obtain ⟨r', j, hr', -, hs, -⟩ := hI.keyed.keyed hk
          rw [hr] at hr'
          cases hr'
          rw [hpend] at hs
          exact absurd hs (by decide)
      refine ⟨⟨_, Txn.run?_set hc hr, ?_, fun m => ?_⟩, fun v hv hvx => ?_⟩
      · simp only [Txn.setRun, Db.run?_id hr, if_true]
        exact fun hs => by cases hs
      · obtain he | ⟨_, _, _, ht', -⟩ := Txn.key?_cases (x := x) (n := m) hc
        · rw [he, hnone m]
        · cases ht'
      · obtain ⟨r', hr', hs, -⟩ := hI.held hvx
        rw [hr] at hr'
        cases hr'
        exact hs hpend
  constructor
  · exact hc.wf hI.wf
  · exact hc.keyed hg hI.keyed
  · intro v x hx
    by_cases hv : v = w
    · subst hv
      exact (hmine (by simpa [Holds] using hx)).1
    · exact hother hv (by simpa [Holds, hv] using hx)
  · intro v u x hvx hux
    by_cases hv : v = w
    · by_cases hu : u = w
      · rw [hv, hu]
      · subst hv
        exact absurd (by simpa [Holds, hu] using hux)
          ((hmine (by simpa [Holds] using hvx)).2 u hu)
    · by_cases hu : u = w
      · subst hu
        exact absurd (by simpa [Holds, hv] using hvx)
          ((hmine (by simpa [Holds] using hux)).2 v hv)
      · exact hI.once (w := v) (by simpa [Holds, hv] using hvx) (by simpa [Holds, hu] using hux)
  · intro v c hl
    by_cases hv : v = w
    · subst hv
      obtain ⟨rfl, hl | hl⟩ := hm.loaded?_cases (by simpa using hl)
      · exact hc.agrees (hI.agrees hl)
      · obtain ⟨hr, hj, hb⟩ := Executor.loadRun_eq hl
        refine hc.agrees ⟨_, _, hr, rfl, rfl, hj, ?_⟩
        exact (Db.sub?_id hb).symm
    · exact hc.agrees (hI.agrees (w := v) (by simpa [hv] using hl))
  · exact fun hp => hc.taken hg (hI.taken hp)
  · exact hI.takenOnce

theorem Owned.step_recover (hI : Owned s) {v : Nat} {a : Recovery.Action}
    (h : s.step env (.recover v a) = some s') : Owned s' := by
  have hg := fun t => hI.guard h (t := t)
  obtain ⟨st, t, db', hst, ht, hc, rfl⟩ := Sys.step_recover h
  rw [ht] at hg
  have hm := Recovery.step_move hst
  have hheld : ∀ {x}, s.db.Held x → db'.Held x := by
    refine fun hx => hc.held (fun k run b hk => ?_) hx
    subst hk
    exact absurd hm Recovery.Move.not_persistSuccess
  -- A run that is newly taken was RUNNING, so no other worker has taken it.
  have hnew : ∀ {x j n b}, st.phase = .claimed x j n b →
      db'.Taken x j n b.id ∧ ∀ u, u ≠ v → ¬ s.Takes u x := by
    intro x j n b hp
    rw [hp] at hm
    obtain ⟨since, r, job, rfl, hr, hs, rfl, rfl, hj, hb⟩ := hm.claimed
    refine ⟨⟨_, _, Txn.run?_set hc hr, ?_, ?_, ?_, Txn.job?_set hc hj, hb⟩, fun u hu hux => ?_⟩
    · exact Txn.setRun_jobId r
    · exact Txn.setRun_attempt r
    · simp only [Txn.setRun, Db.run?_id hr, if_true]
      rfl
    · unfold Takes at hux
      cases hq : (s.recoveries u).phase <;> rw [hq] at hux <;> cases hux
      obtain ⟨r', _, hr', -, -, hl, -⟩ := hI.taken hq
      rw [hr] at hr'
      cases hr'
      rw [hs] at hl
      cases hl
  have hclaimed : ∀ {x}, st.phase.run? = some x → ∃ j n b, st.phase = .claimed x j n b := by
    intro x hx
    cases hp : st.phase <;> rw [hp] at hx <;> cases hx
    exact ⟨_, _, _, rfl⟩
  constructor
  · exact hc.wf hI.wf
  · exact hc.keyed hg hI.keyed
  · exact fun hx => hheld (hI.held hx)
  · exact hI.once
  · exact fun hl => hc.agrees (hI.agrees hl)
  · intro u x j n b hp
    by_cases hu : u = v
    · subst hu
      exact (hnew (by simpa using hp)).1
    · exact hc.taken hg (hI.taken (v := u) (by simpa [hu] using hp))
  · intro u u' x hux hux'
    by_cases hu : u = v
    · by_cases hu' : u' = v
      · rw [hu, hu']
      · subst hu
        obtain ⟨j, n, b, hp⟩ := hclaimed (by simpa [Takes] using hux)
        exact absurd (by simpa [Takes, hu'] using hux') ((hnew hp).2 u' hu')
    · by_cases hu' : u' = v
      · subst hu'
        obtain ⟨j, n, b, hp⟩ := hclaimed (by simpa [Takes] using hux')
        exact absurd (by simpa [Takes, hu] using hux) ((hnew hp).2 u hu)
      · exact hI.takenOnce (v := u) (by simpa [Takes, hu] using hux)
          (by simpa [Takes, hu'] using hux')

/-- The invariant holds of every step. -/
theorem Owned.step (hI : Owned s) {a : Action} (h : s.step env a = some s') : Owned s' := by
  induction a using step_kind with
  | execute w b => exact hI.step_execute h
  | recover v b => exact hI.step_recover h
  | other he hr =>
    have hg := fun t => hI.guard h (t := t)
    obtain ⟨hi, hc, hex, hre, -⟩ := step_intake h he hr
    constructor
    · exact hc.wf hI.wf
    · exact hc.keyed hg hI.keyed
    · intro w x hx
      refine hc.held (fun k run b hk => ?_) (hI.held (w := w) (by rwa [Holds, ← hex]))
      rw [hk] at hi
      cases hi
    · intro w v x hw hv
      exact hI.once (w := w) (by rwa [Holds, ← hex]) (by rwa [Holds, ← hex])
    · intro w c hl
      rw [hex] at hl
      exact hc.agrees (hI.agrees hl)
    · intro v x j n b hp
      rw [hre] at hp
      exact hc.taken hg (hI.taken hp)
    · intro v u x hv hu
      exact hI.takenOnce (v := v) (by rwa [Takes, ← hre]) (by rwa [Takes, ← hre])

/-- The invariant holds of every reachable state. -/
theorem Reachable.owned (h : Reachable env s) : Owned s := 
  h.inv (fun hI hs => hI.step hs) Owned.init

end Sys

end PaymentScheduler
