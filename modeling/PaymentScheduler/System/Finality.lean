import PaymentScheduler.System.Windows

/-!
# Cancelled subscriptions

Jobs and runs outlive the cancellation of their subscription, and two operations write the status
without a look at the present one: a resume, and the dead letter that brings the counter of failures
to the threshold. A scheduler does not: it has locked the row while it was ACTIVE.

- `Txn.sparesCancelled_iff`: one transaction on a CANCELLED subscription.
- `Db.resume_eq_iff`: which resumes change nothing.
- `cancelled_final_iff`: every run of the system from a CANCELLED subscription.
-/

namespace PaymentScheduler

namespace Txn

variable {db : Db} {t : Txn} {b : Subscription}

/-- The transaction is no resume of `b`, no PATCH that sets its status, and no dead letter that
brings its counter to the threshold. -/
def SparesCancelled (b : Subscription) : Txn → Prop
  | resume id _ => id ≠ b.id
  | updateSubscription id c => id = b.id → ∀ status, c.status = some status → status = .cancelled
  | moveToDlq e _ _ => e.subscriptionId = b.id →
      b.consecutiveFailures + 1 < consecutiveFailurePauseThreshold
  | _ => True

/-- A resume finds the subscription PAUSED, or as it is going to leave it. -/
def ResumesPaused (db : Db) : Txn → Prop
  | resume id nextFire => ∀ b, db.sub? id = some b → b.status ≠ .paused → b.resume nextFire = b
  | _ => True

theorem countFailure_cancelled_iff (hb : b.status = .cancelled) (now : Time) :
    b.consecutiveFailures + 1 < consecutiveFailurePauseThreshold ↔
      (b.countFailure now).status = .cancelled := by
  unfold Subscription.countFailure
  split
  · rename_i hge
    exact iff_of_false (not_lt.mpr hge) (by simp)
  · rename_i hlt
    exact iff_of_true (not_le.mp hlt) hb

theorem change_cancelled_iff (hb : b.status = .cancelled) (c : SubscriptionChanges) :
    (∀ status, c.status = some status → status = .cancelled) ↔
      (b.change c).status = .cancelled := by
  cases hc : c.status with
  | none => simp [Subscription.change, hc, hb]
  | some status => simp [Subscription.change, hc]

/-- A transaction keeps a CANCELLED subscription CANCELLED iff it spares it, where batches are for
other subscriptions. -/
theorem sparesCancelled_iff (t : Txn) (db : Db) (hb : b.status = .cancelled)
    (hs : ∀ ws, t = .schedule ws → b.id ∉ ws.map (·.subscriptionId)) :
    t.SparesCancelled b ↔ (t.setSub db b).status = .cancelled := by
  cases t with
  | resume id nextFire =>
    simp only [SparesCancelled, setSub]
    split
    · rename_i he
      exact iff_of_false (fun hne => hne he.symm) (by simp [Subscription.resume])
    · rename_i hne
      exact iff_of_true (fun he => hne he.symm) hb
  | moveToDlq e clearsWorker now =>
    simp only [SparesCancelled, setSub]
    split
    · rename_i he
      rw [← countFailure_cancelled_iff hb now]
      exact forall_prop_of_true he.symm
    · rename_i hne
      exact iff_of_true (fun he => absurd he.symm hne) hb
  | persistSuccess k run s =>
    refine iff_of_true trivial ?_
    simp only [setSub]
    split <;> exact hb
  | schedule ws =>
    refine iff_of_true trivial ?_
    rw [setSub, Db.advanceAll_of_not_mem (hs ws rfl)]
    exact hb
  | updateSubscription id c =>
    simp only [SparesCancelled, setSub]
    split
    · rename_i he
      rw [← change_cancelled_iff hb]
      exact forall_prop_of_true he.symm
    · rename_i hne
      exact iff_of_true (fun he => absurd he.symm hne) hb
  | _ => exact iff_of_true trivial hb

end Txn

/-- A resume changes nothing iff the row is already as it is going to be. -/
theorem Db.resume_eq_iff {db : Db} (hw : db.Wf) {id : UUID} {nextFire : Time} {b : Subscription}
    (hb : db.sub? id = some b) : db.resume id nextFire = db ↔ b.resume nextFire = b := by
  have hid : b.id = id := Db.sub?_id hb
  constructor
  · intro h
    have hset := Txn.sub?_set (t := .resume id nextFire) rfl hb
    rw [h, hb, Txn.setSub, if_pos hid] at hset
    exact (Option.some.inj hset).symm
  · intro h
    have hrows : Table.updateWhere (fun b => decide (b.id = id)) (·.resume nextFire)
        db.subscriptions = db.subscriptions := by
      refine (List.map_congr_left fun b' hb' => ?_).trans (List.map_id _)
      split
      · rename_i he
        have hsame : b' = b := by
          rw [hw.sub?_mem, of_decide_eq_true he, hb] at hb'
          exact (Option.some.inj hb').symm
        exact hsame ▸ h
      · rfl
    exact congrArg (fun rows => { db with subscriptions := rows }) hrows

namespace Sys

variable {env : Env} {s s' : Sys} {a : Action}

/-- The subscription `x` is CANCELLED. -/
def Cancelled (x : UUID) (s : Sys) : Prop := ∃ b, s.db.sub? x = some b ∧ b.status = .cancelled

theorem cancelled_iff {x : UUID} :
    Cancelled x s ↔ ((s.db.sub? x).any fun b => b.status = .cancelled) = true := by
  simp [Cancelled, Option.any_eq_true]

/-- The step, if it is the write of a resume, finds a PAUSED subscription or changes nothing. -/
def ResumesOnlyPaused (env : Env) (s : Sys) (a : Action) (s' : Sys) : Prop :=
  ∀ id nextFire b, s.txn? env a = some (.resume id nextFire) → s.db.sub? id = some b →
    b.status ≠ .paused → s'.db = s.db

/-- The transaction spares the subscription `x`. -/
def Spares (x : UUID) (db : Db) (t : Txn) : Prop := ∀ b, db.sub? x = some b → t.SparesCancelled b

/-- One step from a CANCELLED subscription. -/
theorem step_cancelled_iff (hL : Locking env s) {x : UUID} (hx : Cancelled x s)
    (h : s.step env a = some s') : OnCommit env (Spares x) s a s' ↔ Cancelled x s' := by
  obtain ⟨b, hb, hcancelled⟩ := hx
  have hid : b.id = x := Db.sub?_id hb
  refine onCommit_iff (Q := fun db => ∃ b, db.sub? x = some b ∧ b.status = .cancelled) h
    ⟨b, hb, hcancelled⟩ fun t ht hc => ?_
  -- The batches of the schedulers are for ACTIVE subscriptions.
  have hbatch : ∀ ws, t = .schedule ws → b.id ∉ ws.map (·.subscriptionId) := by
    rintro ws rfl hmem
    obtain ⟨w, hw, he⟩ := List.mem_map.mp hmem
    obtain ⟨k, hws⟩ := batch_writes ht
    obtain ⟨b', hb', hactive, -⟩ := hL.write_row (hws w hw)
    rw [he, hid, hb] at hb'
    cases hb'
    rw [hcancelled] at hactive
    cases hactive
  have hiff := t.sparesCancelled_iff s.db hcancelled hbatch
  simp only [Spares, hb, Option.some.injEq, forall_eq', Txn.sub?_set hc hb, exists_eq_left', hiff]

/-- A step is no resume but of PAUSED subscriptions iff it changes nothing of the others. -/
theorem step_resumes_iff (hI : Owned s) (h : s.step env a = some s') :
    OnCommit env Txn.ResumesPaused s a s' ↔ ResumesOnlyPaused env s a s' := by
  constructor
  · intro hP id nextFire b ht hb hne
    obtain ⟨hn, -⟩ | ⟨t, ht', hc⟩ := step_db h
    · rw [hn] at ht
      cases ht
    · rw [ht'] at ht
      cases ht
      exact (Option.some.inj hc).symm.trans
        ((Db.resume_eq_iff hI.wf hb).mpr (hP _ ht' b hb hne))
  · intro hR t ht
    cases t with
    | resume id nextFire =>
      intro b hb hne
      obtain ⟨hn, -⟩ | ⟨t, ht', hc⟩ := step_db h
      · rw [hn] at ht
        cases ht
      · rw [ht'] at ht
        cases ht
        rw [← Db.resume_eq_iff hI.wf hb]
        exact (Option.some.inj hc).trans (hR id nextFire b ht' hb hne)
    | _ => trivial

/-- In every run of the system from a state where the subscription `x` is CANCELLED: it is CANCELLED
in every state, and resumes change nothing but PAUSED subscriptions, iff each transaction spares
`x` and each resume finds a PAUSED subscription, or one that is as the resume leaves it. -/
theorem cancelled_final_iff (env : Env) {s : Sys} (hs : Reachable env s) {x : UUID}
    (hx : Cancelled x s) (as : List Action) :
    Lts.Along (step env) (OnCommit env fun db t => Spares x db t ∧ t.ResumesPaused db) s as ↔
      Lts.Always (step env) (Cancelled x) s as ∧
        Lts.Along (step env) (ResumesOnlyPaused env) s as := by
  have hI : Owned s ∧ Locking env s := ⟨hs.owned, hs.locking⟩
  have hstep : ∀ {s a s'}, Owned s ∧ Locking env s → step env s a = some s' →
      Owned s' ∧ Locking env s' := fun hI h => ⟨hI.1.step h, hI.2.step hI.1.wf h⟩
  have hfinal : Lts.Along (step env) (OnCommit env (Spares x)) s as ↔
      Lts.Always (step env) (Cancelled x) s as :=
    Lts.along_iff_always (I := fun s => Owned s ∧ Locking env s) (Q := Cancelled x) hstep
      (fun hI hx h => step_cancelled_iff hI.2 hx h) hI hx
  have hresumes : Lts.Along (step env) (OnCommit env Txn.ResumesPaused) s as ↔
      Lts.Along (step env) (ResumesOnlyPaused env) s as :=
    Lts.along_congr (I := fun s => Owned s ∧ Locking env s) hstep
      (fun hI h => step_resumes_iff hI.1 h) hI
  rw [← hfinal, ← hresumes]
  constructor
  · intro h
    exact ⟨h.mono fun hP t ht => (hP t ht).1, h.mono fun hP t ht => (hP t ht).2⟩
  · rintro ⟨hx, hr⟩
    exact (hx.and hr).mono fun hP t ht => ⟨hP.1 t ht, hP.2 t ht⟩

end Sys

/-- A PATCH request that carries a status. -/
def Action.setsStatus : Action → Bool
  | request _ (.begin (.update _ body)) => body.status.isSome
  | _ => false

/-- A transaction that writes no subscription spares a CANCELLED one. -/
theorem Txn.spares_of_subs {t : Txn} (h : t.subs = []) (x : UUID) (db : Db) :
    Sys.Spares x db t ∧ t.ResumesPaused db := by
  cases t <;> first | exact ⟨fun _ _ => trivial, trivial⟩ | cases h

namespace Demo

/-- The first job is being paid when the subscription is deleted. -/
def deleted : List Action :=
  opening policy ++ [.request 1 (.begin (.delete subId)), .request 1 .commit]

/-- bunq refuses the payment, and the run is retried. -/
def refused : List Action :=
  [.execute 0 (.call false (.raised ⟨.bunqTransientError, "503"⟩)), .execute 0 (.fail 0 nextId)]

theorem refused_keeps_cancelled :
    ∃ s, Lts.run (Sys.step env) Sys.init deleted = some s ∧
      Lts.Always (Sys.step env) (Sys.Cancelled subId) s refused := by
  have heval : ((Lts.run (Sys.step env) Sys.init deleted).any fun s =>
      (s.db.sub? subId).any (fun b => b.status = .cancelled) ∧
      Lts.Along (Sys.step env) (fun s a _ => (s.txn? env a).all fun t => t.subs = []) s refused)
      = true := by decide +kernel
  obtain ⟨s, hr, hp⟩ := Lts.exists_run heval
  obtain ⟨hx, hquiet⟩ := of_decide_eq_true hp
  have hx : Sys.Cancelled subId s := Sys.cancelled_iff.mpr hx
  have hspares : Lts.Along (Sys.step env) (Sys.OnCommit env fun db t =>
      Sys.Spares subId db t ∧ t.ResumesPaused db) s refused := by
    refine hquiet.mono fun hq t ht => ?_
    rw [ht] at hq
    exact Txn.spares_of_subs (of_decide_eq_true hq) subId _
  exact ⟨s, hr, ((Sys.cancelled_final_iff env ⟨deleted, hr⟩ hx refused).mp hspares).1⟩

/-- A resume of the deleted subscription. -/
def resumed : List Action := [.request 2 (.begin (.resume subId)), .request 2 .commit]

theorem resumed_not_cancelled :
    ¬ ∀ s x as, Sys.Reachable env s → Sys.Cancelled x s → (∀ a ∈ as, a.setsStatus = false) →
      Lts.Always (Sys.step env) (Sys.Cancelled x) s as := by
  intro h
  have heval : ((Lts.run (Sys.step env) Sys.init deleted).any fun s =>
      (s.db.sub? subId).any (fun b => b.status = .cancelled) ∧
      (Lts.run (Sys.step env) s resumed).any fun s =>
        (s.db.sub? subId).all fun b => b.status = .active) = true := by decide +kernel
  obtain ⟨s, hr, hp⟩ := Lts.exists_run heval
  obtain ⟨hx, hresumed⟩ := of_decide_eq_true hp
  obtain ⟨s', hr', hactive⟩ := Lts.exists_run hresumed
  have hx : Sys.Cancelled subId s := Sys.cancelled_iff.mpr hx
  obtain ⟨b, hb, hcancelled⟩ := (h s subId resumed ⟨deleted, hr⟩ hx (by decide)).last hr'
  rw [hb] at hactive
  rw [of_decide_eq_true hactive] at hcancelled
  cases hcancelled

end Demo

end PaymentScheduler
