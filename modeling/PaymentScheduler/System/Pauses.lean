import PaymentScheduler.Db.Subscriptions
import PaymentScheduler.System.Ownership

/-!
# Pauses

`status`, `paused_at` and `consecutive_failures` of a subscription belong together
(`Subscription.Consistent`), and seven operations write some of the three. All of them keep the
relation but one: a PATCH to ACTIVE writes the status only, where `resume_subscription` resets the
other two columns with it.

- `Consistent.advance`, `Consistent.countFailure`, `Consistent.succeed`, `resume_consistent`: the
  writes of the workers and of a resume.
- `Consistent.change_iff`: a PATCH or DELETE.
- `consistent_iff`: one transaction; `along_reactivatesClean_iff`: every run of the system.
-/

namespace PaymentScheduler

namespace Subscription

/-- A PAUSED subscription has a time of its pause, and an ACTIVE one has none and is below the
threshold. -/
structure Consistent (b : Subscription) : Prop where
  paused : b.status = .paused → b.pausedAt ≠ none
  active : b.status = .active →
    b.pausedAt = none ∧ b.consecutiveFailures < consecutiveFailurePauseThreshold

instance (b : Subscription) : Decidable b.Consistent :=
  decidable_of_iff
    ((b.status = .paused → b.pausedAt ≠ none) ∧
      (b.status = .active →
        b.pausedAt = none ∧ b.consecutiveFailures < consecutiveFailurePauseThreshold))
    ⟨fun ⟨hp, ha⟩ => ⟨hp, ha⟩, fun h => ⟨h.paused, h.active⟩⟩

theorem consecutiveFailurePauseThreshold_pos : 0 < consecutiveFailurePauseThreshold := by decide

variable {b : Subscription} {c : SubscriptionChanges}

theorem Consistent.advance (h : b.Consistent) (a : Advance) : (b.advance a).Consistent := by
  cases a with
  | nextFireAt t => exact ⟨h.paused, h.active⟩
  | pause now => exact ⟨fun _ => Option.some_ne_none now, nofun⟩

theorem Consistent.advanceAll {ws : List WindowWrite} (h : b.Consistent) :
    (Db.advanceAll ws b).Consistent :=
  Db.advanceAll_keeps (fun _ a hb => hb.advance a) ws h

/-- A dead letter pauses the subscription when the counter comes to the threshold. -/
theorem Consistent.countFailure (h : b.Consistent) (now : Time) :
    (b.countFailure now).Consistent := by
  unfold Subscription.countFailure
  split
  · exact ⟨fun _ => Option.some_ne_none now, nofun⟩
  · rename_i hlt
    exact ⟨h.paused, fun ha => ⟨(h.active ha).1, not_le.mp hlt⟩⟩

/-- `_persist_success` resets the counter. -/
theorem Consistent.succeed (h : b.Consistent) :
    { b with consecutiveFailures := 0 }.Consistent :=
  ⟨h.paused, fun ha => ⟨(h.active ha).1, consecutiveFailurePauseThreshold_pos⟩⟩

/-- `resume_subscription` resets all three columns. -/
theorem resume_consistent (b : Subscription) (nextFire : Time) : (b.resume nextFire).Consistent :=
  ⟨nofun, fun _ => ⟨rfl, consecutiveFailurePauseThreshold_pos⟩⟩

/-- A PATCH or DELETE keeps the relation unless it sets a subscription ACTIVE that is paused, or at
the threshold. -/
theorem Consistent.change_iff (h : b.Consistent)
    (hc : c.pausedAt ≠ none ↔ c.status = some .paused) :
    (b.change c).Consistent ↔ (c.status = some .active →
      b.pausedAt = none ∧ b.consecutiveFailures < consecutiveFailurePauseThreshold) := by
  have hnone : c.status ≠ some .paused → c.pausedAt = none := by
    intro hne
    by_contra hp
    exact hne (hc.mp hp)
  cases hs : c.status with
  | none =>
    have hp := hnone (by rw [hs]; nofun)
    refine iff_of_true ⟨fun hpaused => ?_, fun hactive => ?_⟩ nofun
    · simp only [change, hs, hp, Option.getD_none, Option.none_or] at hpaused ⊢
      exact h.paused hpaused
    · simp only [change, hs, hp, Option.getD_none, Option.none_or] at hactive ⊢
      exact h.active hactive
  | some status =>
    cases status with
    | active =>
      have hp := hnone (by rw [hs]; nofun)
      constructor
      · intro hchange _
        have hactive := hchange.active (by simp [change, hs])
        simpa only [change, hp, Option.none_or] using hactive
      · intro hb
        refine ⟨fun hpaused => ?_, fun _ => ?_⟩
        · simp [change, hs] at hpaused
        · simpa only [change, hp, Option.none_or] using hb rfl
    | paused =>
      obtain ⟨t, ht⟩ := Option.ne_none_iff_exists'.mp (hc.mpr hs)
      refine iff_of_true ⟨fun _ => ?_, fun hactive => ?_⟩ nofun
      · simp [change, ht]
      · simp [change, hs] at hactive
    | cancelled =>
      refine iff_of_true ⟨fun hpaused => ?_, fun hactive => ?_⟩ nofun
      · simp [change, hs] at hpaused
      · simp [change, hs] at hactive

end Subscription

theorem Db.consistent_iff_sub? {db : Db} (hw : db.Wf) :
    (∀ b ∈ db.subscriptions, b.Consistent) ↔ ∀ x b, db.sub? x = some b → b.Consistent :=
  ⟨fun h _ b hb => h b (Table.get?_mem hb), fun h b hb => h b.id b (hw.sub?_mem.mp hb)⟩

namespace Txn

variable {db db' : Db} {t : Txn} {b : Subscription}

/-- A change to ACTIVE finds a subscription that is neither paused nor at the threshold. -/
def ReactivatesClean (db : Db) (t : Txn) : Prop :=
  ∀ id c b, t = .updateSubscription id c → c.status = some .active → db.sub? id = some b →
    b.pausedAt = none ∧ b.consecutiveFailures < consecutiveFailurePauseThreshold

/-- A request sets `paused_at` with PAUSED, and creates consistent subscriptions. -/
structure FromRequest (t : Txn) : Prop where
  update : ∀ id c, t = .updateSubscription id c → (c.pausedAt ≠ none ↔ c.status = some .paused)
  create : ∀ b, t = .createSubscription b → b.Consistent

/-- Every other transaction than a PATCH or DELETE of the subscription keeps it consistent. -/
theorem setSub_consistent (hb : b.Consistent) (hne : ∀ c, t ≠ .updateSubscription b.id c) :
    (t.setSub db b).Consistent := by
  cases t with
  | updateSubscription id c =>
    have hid : b.id ≠ id := by
      rintro rfl
      exact hne c rfl
    rw [setSub, if_neg hid]
    exact hb
  | persistSuccess k run s =>
    simp only [setSub]
    split
    · exact hb.succeed
    · exact hb
  | moveToDlq e clearsWorker now =>
    simp only [setSub]
    split
    · exact hb.countFailure now
    · exact hb
  | schedule ws => exact hb.advanceAll
  | resume id nextFire =>
    simp only [setSub]
    split
    · exact b.resume_consistent nextFire
    · exact hb
  | _ => exact hb

theorem setSub_consistent_iff (ht : t.FromRequest) (hb : b.Consistent) :
    (t.setSub db b).Consistent ↔ ∀ c, t = .updateSubscription b.id c → c.status = some .active →
      b.pausedAt = none ∧ b.consecutiveFailures < consecutiveFailurePauseThreshold := by
  by_cases hu : ∃ c, t = .updateSubscription b.id c
  · obtain ⟨c, rfl⟩ := hu
    rw [setSub, if_pos rfl, hb.change_iff (ht.update b.id c rfl)]
    constructor
    · intro h c' hc'
      cases hc'
      exact h
    · exact fun h => h c rfl
  · have hne : ∀ c, t ≠ .updateSubscription b.id c := fun c hc => hu ⟨c, hc⟩
    exact iff_of_true (setSub_consistent hb hne) fun c hc => absurd hc (hne c)

/-- A transaction keeps the subscriptions consistent if and only if what it changes to ACTIVE was
neither paused nor at the threshold. -/
theorem consistent_iff (ht : t.FromRequest) (hdb : ∀ x b, db.sub? x = some b → b.Consistent)
    (h : t.apply db = some db') :
    t.ReactivatesClean db ↔ ∀ x b, db'.sub? x = some b → b.Consistent := by
  constructor
  · intro hP x b hb
    obtain ⟨b₀, hb₀, rfl⟩ | ⟨-, rfl⟩ := sub?_cases h hb
    · rw [setSub_consistent_iff ht (hdb x b₀ hb₀)]
      intro c hc hs
      rw [Db.sub?_id hb₀] at hc
      exact hP x c b₀ hc hs hb₀
    · exact ht.create b rfl
  · intro hdb' id c b hc hs hb
    have hset := hdb' id _ (sub?_set h hb)
    rw [setSub_consistent_iff ht (hdb id b hb), Db.sub?_id hb] at hset
    exact hset c hc hs

end Txn

namespace Sys

variable {env : Env} {s s' : Sys} {a : Action}

/-- The requests have prepared `paused_at` with PAUSED, and without it else. -/
def Prepared (s : Sys) : Prop :=
  ∀ r id c status, s.requests r = .updating id c status →
    (c.pausedAt ≠ none ↔ c.status = some .paused)

theorem Prepared.step (hI : Prepared s) (h : s.step env a = some s') : Prepared s' := by
  intro r id c status hr
  obtain hold | ⟨b, t, rfl, hst⟩ := request_cases h r
  · rw [hold] at hr
    exact hI r id c status hr
  · rw [hr] at hst
    obtain ⟨b, body, -, -, hc⟩ | ⟨-, rfl⟩ := Api.step_updating hst
    · rw [(Api.changesOf_eq hc).pausedAt]
      split <;> simp [*]
    · exact iff_of_false (by simp) (by simp)

theorem Prepared.fromRequest (hI : Prepared s) {t : Txn} (ht : s.txn? env a = some t) :
    t.FromRequest where
  update id c he := by
    subst he
    obtain ⟨r, b, st, rfl, hst⟩ := request_of_txn? ht rfl
    obtain ⟨status, hr⟩ := Api.step_update hst
    exact hI r id c status hr
  create b he := by
    subst he
    obtain ⟨r, b', st, rfl, hst⟩ := request_of_txn? ht rfl
    obtain ⟨hactive, hzero, hnone, -⟩ := Api.step_create hst
    refine ⟨fun hp => ?_, fun _ => ⟨hnone, ?_⟩⟩
    · rw [hactive] at hp
      cases hp
    · rw [hzero]
      exact Subscription.consecutiveFailurePauseThreshold_pos

/-- All subscriptions are consistent. -/
def Consistent (s : Sys) : Prop := ∀ b ∈ s.db.subscriptions, b.Consistent

/-- A step keeps the subscriptions consistent iff its transaction changes none to ACTIVE that is
paused, or at the threshold. -/
theorem step_consistent_iff (hO : Owned s) (hI : Prepared s) (hs : s.Consistent)
    (h : s.step env a = some s') :
    OnCommit env Txn.ReactivatesClean s a s' ↔ s'.Consistent := by
  refine onCommit_iff (Q := fun db => ∀ b ∈ db.subscriptions, b.Consistent) h hs fun t ht hc => ?_
  rw [Db.consistent_iff_sub? (hO.step h).wf]
  exact Txn.consistent_iff (hI.fromRequest ht) ((Db.consistent_iff_sub? hO.wf).mp hs) hc

/-- In every run of the system: all subscriptions are consistent in every state iff no PATCH sets a
subscription ACTIVE that is paused, or at the threshold. -/
theorem along_reactivatesClean_iff (env : Env) (as : List Action) :
    Lts.Along (step env) (OnCommit env Txn.ReactivatesClean) init as ↔
      Lts.Always (step env) Consistent init as := by
  have hinit : Owned init ∧ Prepared init :=
    ⟨Owned.init, fun r id c status hr => by cases hr⟩
  have hconsistent : init.Consistent := fun b hb => by cases hb
  exact Lts.along_iff_always (I := fun s => Owned s ∧ Prepared s) (Q := Consistent)
    (fun hI h => ⟨hI.1.step h, hI.2.step h⟩) (fun hI hs h => step_consistent_iff hI.1 hI.2 hs h)
    hinit hconsistent

end Sys

namespace Demo

/-- A subscription is paused and set ACTIVE again, each by a PATCH. -/
def pausedAndReactivated : List Action :=
  [.advance start,
    .request 0 (.begin (.create (body policy) subId)),
    .request 1 (.begin (.update subId { status := some "PAUSED" })),
    .request 1 .commit,
    .request 2 (.begin (.update subId { status := some "ACTIVE" })),
    .request 2 .commit]

theorem pausedAndReactivated_inconsistent :
    ¬ Lts.Always (Sys.step env) (fun s => ∀ b ∈ s.db.subscriptions, b.Consistent) Sys.init
      pausedAndReactivated := by
  decide +kernel

end Demo

end PaymentScheduler
