import PaymentScheduler.System.Ownership

/-!
# Each run is claimed once

An executor drops its locks between the fetch of the ids and the claim of one, so several executors
have the same id in their batches. Nothing puts an existing run back to PENDING, so one of them wins
the claim, calls bunq at most once, and at most one recovery worker takes the run from it.

Each of the three events of a run uses up what it needs: a PENDING row (`Claims`), a holder that has
not called yet (`Calls`), and a RUNNING row (`Recovers`).
-/

namespace PaymentScheduler

/-- The call of `create_payment` is still ahead. -/
def Executor.Phase.beforeCall : Executor.Phase → Bool
  | claimed _ | checking .. | finding .. => true
  | idle | cancelling _ | calling .. | persisting .. | failing .. => false

/-- An executor before its call was so before, or has just claimed a PENDING run. -/
theorem Executor.Move.beforeCall {env : Env} {w : Nat} {db : Db} {now : Time}
    {p p' : Executor.Phase} {a : Executor.Action} {t : Option Txn}
    (h : Executor.Move env w db now p a p' t) (hb : p'.beforeCall = true) :
    (p.beforeCall = true ∧ p.run? = p'.run?) ∨
      ∃ x r, p'.run? = some x ∧ db.run? x = some r ∧ r.status = .pending := by
  cases h with
  | claim hr hp => exact .inr ⟨_, _, rfl, hr, hp⟩
  | load hc hp =>
    have hid := Db.run?_id (Executor.loadRun_eq hc).1
    obtain rfl | rfl := hp <;> exact .inl ⟨rfl, congrArg some hid.symm⟩
  | depsDone => exact .inl ⟨rfl, rfl⟩
  | _ => cases hb

namespace Sys

/-! ## The events of a run -/

/-- The run `x` goes from PENDING to RUNNING. -/
def Claims (x : UUID) (s : Sys) (_ : Action) (s' : Sys) : Bool :=
  ((s.db.run? x).any fun r => r.status = .pending) &&
    (s'.db.run? x).any fun r => r.status = .running

/-- An executor calls `create_payment` for the run `x`. -/
def Calls (x : UUID) (_ : Sys) (a : Action) (s' : Sys) : Bool :=
  match a with
  | .execute w .findKey =>
    match (s'.executors w).phase with
    | .calling c _ => c.run.id = x
    | _ => false
  | _ => false

/-- A call of `_recover_single_run_by_id` for the run `x` returns True: it has routed the run, or
it has taken the run and found no subscription. -/
def Recovers (x : UUID) (s : Sys) (a : Action) (s' : Sys) : Bool :=
  match a with
  | .recover v (.route _) => (s.recoveries v).phase.run? = some x
  | .recover v .reclaim =>
    (s.recoveries v).stuck.head? = some x ∧
      ((s.db.run? x).any (Recovery.isStuck (s.recoveries v).now)) ∧
      (s'.recoveries v).phase.run? = none
  | _ => false

variable {env : Env} {s s' : Sys} {a : Action} {x : UUID}

/-! ## Claims -/

/-- The run is there, and not PENDING any more. -/
def Started (x : UUID) (s : Sys) : Prop := ∃ r, s.db.run? x = some r ∧ r.status ≠ .pending

theorem Started.step (hu : Started x s) (h : s.step env a = some s') : Started x s' := by
  obtain ⟨r, hr, hp⟩ := hu
  obtain ⟨r', hr', -, -, hp', -⟩ := (step_commits h).run? hr
  exact ⟨r', hr', fun hs => hp (hp' hs)⟩

theorem Started.not_claims (hu : Started x s) : Claims x s a s' = false := by
  obtain ⟨r, hr, hp⟩ := hu
  simp [Claims, hr, hp]

theorem claims_started (h : Claims x s a s' = true) : Started x s' := by
  cases hr : s'.db.run? x with
  | none => simp [Claims, hr] at h
  | some r =>
    simp only [Claims, hr, Option.any_some, Bool.and_eq_true, decide_eq_true_eq] at h
    refine ⟨r, hr, ?_⟩
    rw [h.2]
    nofun

/-! ## Calls -/

/-- The run has been started, and no executor that holds it is before its call. -/
def Called (x : UUID) (s : Sys) : Prop :=
  Started x s ∧ ∀ w, s.Holds w x → (s.executors w).phase.beforeCall = false

/-- The executor of a `findKey` action that leads to a call was before its call. -/
theorem calls_phase {w : Nat} {b : Executor.Action} {st : Executor.State} {t : Option Txn}
    (hst : Executor.step env w s.db s.clock (s.executors w) b = some (st, t))
    (hs : s'.executors w = st) (hc : Calls x s (.execute w b) s' = true) :
    st.phase.run? = some x ∧ st.phase.beforeCall = false ∧ s.Holds w x ∧
      (s.executors w).phase.beforeCall = true := by
  unfold Calls at hc
  cases b <;> try cases hc
  dsimp only at hc
  rw [hs] at hc
  have hm := Executor.step_move hst
  unfold Holds
  revert hm hc
  generalize st.phase = p'
  generalize (s.executors w).phase = p
  intro hc hm
  cases p' <;> try cases hc
  simp only [decide_eq_true_eq] at hc
  subst hc
  cases hm
  exact ⟨rfl, rfl, rfl, rfl⟩

theorem Called.step (hu : Called x s) (h : s.step env a = some s') :
    Called x s' ∧ Calls x s a s' = false := by
  obtain ⟨hstart, hb⟩ := hu
  have hstart' := hstart.step h
  induction a using step_kind with
  | execute w b =>
    obtain ⟨st, t, db', hst, -, -, rfl⟩ := Sys.step_execute h
    refine ⟨⟨hstart', fun v hv => ?_⟩, ?_⟩
    · by_cases hvw : v = w
      · subst hvw
        simp only [Holds, Function.update_self] at hv ⊢
        by_contra hne
        -- Only a claim of a PENDING run leads to a call.
        obtain ⟨hb', hr'⟩ | ⟨y, r, hy, hr, hp⟩ :=
          (Executor.step_move hst).beforeCall (by simpa using hne)
        · rw [hb v (hr'.trans hv)] at hb'
          cases hb'
        · rw [hv] at hy
          cases hy
          obtain ⟨r', hr', hp'⟩ := hstart
          rw [hr] at hr'
          cases hr'
          exact hp' hp
      · have hex : Function.update s.executors w st v = s.executors v := by simp [hvw]
        simp only [Holds, hex] at hv ⊢
        exact hb v hv
    · by_contra hc
      obtain ⟨-, -, hw, hb'⟩ := calls_phase hst (Function.update_self ..) (by simpa using hc)
      rw [hb w hw] at hb'
      cases hb'
  | recover v b =>
    obtain ⟨st, t, db', -, -, -, rfl⟩ := Sys.step_recover h
    exact ⟨⟨hstart', hb⟩, rfl⟩
  | other he hr =>
    obtain ⟨-, -, hex, -, -⟩ := step_intake h he hr
    refine ⟨⟨hstart', fun w hw => ?_⟩, ?_⟩
    · rw [hex]
      exact hb w (by rwa [Holds, ← hex])
    · cases a with
      | execute w b => exact absurd rfl (he w b)
      | _ => rfl

theorem Owned.calls_called (hI : Owned s) (h : s.step env a = some s')
    (hc : Calls x s a s' = true) : Called x s' := by
  have hI' := hI.step h
  induction a using step_kind with
  | execute w b =>
    obtain ⟨st, t, db', hst, -, -, hs⟩ := Sys.step_execute h
    have hex : s'.executors w = st := by
      rw [hs]
      exact Function.update_self ..
    obtain ⟨hx, hb, -, -⟩ := calls_phase hst hex hc
    have hw : s'.Holds w x := by rwa [Holds, hex]
    obtain ⟨r, hr, hp, -⟩ := hI'.held hw
    refine ⟨⟨r, hr, hp⟩, fun v hv => ?_⟩
    rw [hI'.once hv hw, hex]
    exact hb
  | recover v b => cases hc
  | other he hr =>
    cases a with
    | execute w b => exact absurd rfl (he w b)
    | _ => cases hc

/-! ## Recoveries -/

/-- The run is neither PENDING nor RUNNING, and no recovery worker has it. -/
def Recovered (x : UUID) (s : Sys) : Prop :=
  (∃ r, s.db.run? x = some r ∧ r.status.isLive = false) ∧ ∀ v, ¬ s.Takes v x

theorem Owned.recovered_step (hI : Owned s) (hu : Recovered x s) (h : s.step env a = some s') :
    Recovered x s' ∧ Recovers x s a s' = false := by
  obtain ⟨⟨r, hr, hl⟩, hn⟩ := hu
  obtain ⟨r', hr', -, -, -, hl'⟩ := (step_commits h).run? hr
  have hdone : ∃ r, s'.db.run? x = some r ∧ r.status.isLive = false :=
    ⟨r', hr', hl' (fun t => hI.guard h) hl⟩
  induction a using step_kind with
  | execute w b =>
    obtain ⟨st, t, db', -, -, -, rfl⟩ := Sys.step_execute h
    exact ⟨⟨hdone, hn⟩, rfl⟩
  | recover v b =>
    obtain ⟨st, t, db', hst, -, -, rfl⟩ := Sys.step_recover h
    refine ⟨⟨hdone, fun u hu => ?_⟩, ?_⟩
    · by_cases huv : u = v
      · subst huv
        simp only [Takes, Function.update_self] at hu
        cases hp : st.phase <;> rw [hp] at hu <;> cases hu
        have hm := Recovery.step_move hst
        rw [hp] at hm
        obtain ⟨since, r₀, -, -, hr₀, hs, -⟩ := hm.claimed
        rw [hr] at hr₀
        cases hr₀
        rw [hs] at hl
        cases hl
      · exact hn u (by simpa [Takes, huv] using hu)
    · cases b with
      | route newId => exact decide_eq_false (hn v)
      | reclaim =>
        refine decide_eq_false fun hc => ?_
        have hs := hc.2.1
        simp only [hr, Option.any_some, Recovery.isStuck, decide_eq_true_eq] at hs
        rw [hs.1] at hl
        cases hl
      | _ => rfl
  | other he hre =>
    obtain ⟨-, -, -, hrec, -⟩ := step_intake h he hre
    refine ⟨⟨hdone, fun v hv => hn v (by rwa [Takes, ← hrec])⟩, ?_⟩
    cases a with
    | recover v b => exact absurd rfl (hre v b)
    | _ => rfl

/-- A run that a recovery worker takes without a subscription is FAILED afterwards. -/
theorem reclaim_failed {v : Nat} {st : Recovery.State} {t : Option Txn} {db' : Db}
    (hst : Recovery.step s.db s.clock (s.recoveries v) .reclaim = some (st, t))
    (hc : s.db.Commits t db') (hx : (s.recoveries v).stuck.head? = some x) {r : JobRun}
    (hr : s.db.run? x = some r) (hs : Recovery.isStuck (s.recoveries v).now r = true) :
    ∃ r', db'.run? x = some r' ∧ r'.status = .failed := by
  have ht : t = some (.reclaim x (s.recoveries v).now) := by
    simp only [Recovery.step] at hst
    split at hst
    · rename_i y rest hy hp
      rw [hy] at hx
      cases hx
      cases hst
      unfold Recovery.recoverSingleRunById
      rw [hr]
      dsimp only
      rw [if_pos hs]
      split <;> rfl
    · cases hst
  subst ht
  refine ⟨_, Txn.run?_set hc hr, ?_⟩
  rw [Txn.setRun, if_pos (Db.run?_id hr)]
  rfl

theorem Owned.recovers_recovered (hI : Owned s) (h : s.step env a = some s')
    (hc : Recovers x s a s' = true) : Recovered x s' := by
  have hI' := hI.step h
  have hg := fun t => hI.guard h (t := t)
  have hcommit := step_commits h
  induction a using step_kind with
  | execute w b => cases hc
  | recover v b =>
    obtain ⟨st, t, db', hst, ht, hcom, rfl⟩ := Sys.step_recover h
    cases b with
    | route newId =>
      have htake : (s.recoveries v).phase.run? = some x := of_decide_eq_true hc
      have hidle : st.phase = .idle := by
        cases hp : (s.recoveries v).phase <;> simp [Recovery.step, hp] at hst
        rw [← hst.1]
      cases hp : (s.recoveries v).phase <;> rw [hp] at htake <;> cases htake
      obtain ⟨r, -, hr, -, -, hl, -⟩ := hI.taken hp
      obtain ⟨r', hr', -, -, -, hl'⟩ := hcommit.run? hr
      refine ⟨⟨r', hr', hl' hg hl⟩, fun u hu => ?_⟩
      by_cases huv : u = v
      · subst huv
        simp [Takes, hidle, Recovery.Phase.run?] at hu
      · have hux : s.Takes u x := by simpa [Takes, huv] using hu
        exact huv (hI.takenOnce hux (by rw [Takes, hp]; rfl))
    | reclaim =>
      obtain ⟨hx, hs, hnone⟩ := of_decide_eq_true hc
      obtain ⟨r, hr, hs⟩ := (Option.any_eq_true _ _).mp hs
      obtain ⟨r', hr', hs'⟩ := reclaim_failed hst hcom hx hr hs
      refine ⟨⟨r', hr', by rw [hs']; rfl⟩, fun u hu => ?_⟩
      by_cases huv : u = v
      · subst huv
        rw [Takes, hnone] at hu
        cases hu
      · have hux : s.Takes u x := by simpa [Takes, huv] using hu
        unfold Takes at hux
        cases hp : (s.recoveries u).phase <;> rw [hp] at hux <;> cases hux
        obtain ⟨r₀, -, hr₀, -, -, hl, -⟩ := hI.taken hp
        rw [hr] at hr₀
        cases hr₀
        simp only [Recovery.isStuck, decide_eq_true_eq] at hs
        rw [hs.1] at hl
        cases hl
    | _ => cases hc
  | other he hre =>
    cases a with
    | recover v b => exact absurd rfl (hre v b)
    | _ => cases hc

/-! ## Every run of the system -/

/-- In every run of the system, each row of `job_runs` is claimed at most once, `create_payment` is
called at most once for it, and at most one recovery of it returns True. -/
theorem count_events_le_one (env : Env) (x : UUID) (as : List Action) :
    Lts.count (step env) (Claims x) init as ≤ 1 ∧ Lts.count (step env) (Calls x) init as ≤ 1 ∧
      Lts.count (step env) (Recovers x) init as ≤ 1 := by
  refine ⟨?_, ?_, ?_⟩
  · refine Lts.count_le_one (I := Owned) (U := Started x) (fun hI hs => hI.step hs) ?_ ?_ Owned.init
    · exact fun _ hu hs => ⟨hu.step hs, hu.not_claims⟩
    · exact fun _ _ hc => claims_started hc
  · refine Lts.count_le_one (I := Owned) (U := Called x) (fun hI hs => hI.step hs) ?_ ?_ Owned.init
    · exact fun _ hu hs => hu.step hs
    · exact fun hI hs hc => hI.calls_called hs hc
  · refine Lts.count_le_one (I := Owned) (U := Recovered x) (fun hI hs => hI.step hs) ?_ ?_
      Owned.init
    · exact fun hI hu hs => hI.recovered_step hu hs
    · exact fun hI hs hc => hI.recovers_recovered hs hc

/-- A run of the system with all three events. -/
example : Lts.count (step Demo.env) (Claims Demo.runId) init (Demo.opening Demo.policy) = 1 ∧
    Lts.count (step Demo.env) (Calls Demo.runId) init (Demo.opening Demo.policy) = 1 ∧
    Lts.count (step Demo.env) (Recovers Demo.runId) init
      (Demo.opening Demo.policy ++ Demo.reclaimed ++ [.recover 0 (.route Demo.nextId)]) = 1 := by
  decide +kernel

end Sys

end PaymentScheduler
