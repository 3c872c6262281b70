import PaymentScheduler.Redis.Locking

/-!
# Two roles on one key

The schedulers and the recovery workers run for one leader key (`REDIS_LEADER_KEY`). So an instance
becomes the leader if and only if no instance of the other role is.
-/

namespace PaymentScheduler.Redis

/-- The worker that an instance belongs to. -/
inductive Role where
  | scheduler
  | recovery
  deriving DecidableEq

def Role.other : Role → Role
  | scheduler => recovery
  | recovery => scheduler

theorem Role.eq_or_eq_other (r q : Role) : q = r ∨ q = r.other := by
  cases r <;> cases q <;> decide

/-- The step with which a call goes on. -/
def Call.next? (i k : Nat) : Call → Option Action
  | sent _ => some (.exec i (.call k))
  | replied .. | stopping _ => some (.resume i k)
  | ended _ | raised => none

namespace Cluster

variable (dep : Deployment) (role : Nat → Role)

/-- The call `k` of the instance `i` goes on alone, for at most `n` steps. -/
def goOn (i k : Nat) : Nat → Cluster → Cluster
  | 0, s => s
  | n + 1, s =>
    match (((s.instances i).calls k).next? i k).bind (s.step dep) with
    | some s' => goOn i k n s'
    | none => s

/-- What `try_acquire` of the instance `i` returns, where no other step and no error comes in
between. -/
def tryAcquireAlone (s : Cluster) (i k : Nat) : Option Bool :=
  (s.step dep (.tryAcquire i k)).bind fun s' =>
    match ((goOn dep i k 4 s').instances i).calls k with
    | .ended result => result
    | _ => none

/-- An instance of the role `r` has the leader key. -/
def Holds (s : Cluster) (r : Role) : Prop :=
  ∃ i, role i = r ∧ s.store.heldBy (dep.token i) = true

/-- The key has the token of an instance. -/
def Tokened (s : Cluster) : Prop := ∀ v e, s.store.leader = some (v, e) → ∃ i, v = dep.token i

variable {dep role} {s s' : Cluster} {a : Action}

theorem Tokened.step (hI : Tokened dep s) (h : s.step dep a = some s') : Tokened dep s' := by
  have hT := step_leader h
  intro v e hl
  rw [hl] at hT
  generalize hg : some (v, e) = l at hT
  cases hT with
  | keep => exact hI v e hg.symm
  | win | renew =>
    cases hg
    exact ⟨_, rfl⟩
  | _ => cases hg

theorem Reachable.tokened (h : Reachable dep s) : Tokened dep s :=
  h.inv (I := Tokened dep) (fun hI hs => hI.step hs) fun _ _ he => by cases he

/-- Where no instance of the role `r` has the key, it is free or one of the other role has it. -/
theorem Reachable.free_iff (h : Reachable dep s) {r : Role} (hr : ¬ s.Holds dep role r) :
    s.store.leader = none ↔ ¬ s.Holds dep role r.other := by
  constructor
  · rintro hl ⟨i, -, hi⟩
    obtain ⟨e, he⟩ := Store.heldBy_iff.mp hi
    rw [hl] at he
    cases he
  · intro ho
    by_contra hl
    obtain ⟨⟨v, e⟩, hl⟩ := Option.ne_none_iff_exists'.mp hl
    obtain ⟨i, rfl⟩ := h.tokened v e hl
    have hi : s.store.heldBy (dep.token i) = true := Store.heldBy_iff.mpr ⟨e, hl⟩
    rcases r.eq_or_eq_other (role i) with hri | hri
    · exact hr ⟨i, hri, hi⟩
    · exact ho ⟨i, hri, hi⟩

/-- `try_acquire` returns True if and only if the flag is set or the key is free. -/
theorem tryAcquireAlone_eq {i k : Nat} (hk : ((s.instances i).calls k).isOver = true) :
    s.tryAcquireAlone dep i k =
      some (decide ((s.instances i).isLeader = true ∨ s.store.leader = none)) := by
  unfold tryAcquireAlone
  simp only [step, start, hk, if_true, Option.bind_some, Instance.tryAcquire]
  cases hL : (s.instances i).isLeader with
  | true => simp [goOn, Call.next?, setCall, set]
  | false =>
    cases hl : s.store.leader with
    | some x =>
      simp [goOn, Call.next?, setCall, set, step, Instance.pending, Store.exec, hl,
        Instance.answered, Instance.resume]
    | none =>
      simp [goOn, Call.next?, setCall, set, step, Instance.pending, Store.exec, hl,
        Instance.answered, Instance.resume]

/-- In every state that the instances of both roles reach, where no instance of a role has the key,
`try_acquire` of an instance of this role returns True if and only if its flag is still set or no
instance of the other role has the key. Otherwise it returns False. -/
theorem tryAcquire_iff_other_role_free (h : Reachable dep s) {i k : Nat}
    (hk : ((s.instances i).calls k).isOver = true) (hr : ¬ s.Holds dep role (role i)) :
    (s.tryAcquireAlone dep i k = some true ↔
      (s.instances i).isLeader = true ∨ ¬ s.Holds dep role (role i).other) ∧
    (s.tryAcquireAlone dep i k = some false ↔
      ¬ ((s.instances i).isLeader = true ∨ ¬ s.Holds dep role (role i).other)) := by
  rw [tryAcquireAlone_eq hk, ← h.free_iff hr]
  simp

end Cluster

namespace Demo

open Cluster

/-- A scheduler and a recovery worker. -/
def role : Nat → Role
  | 0 => .scheduler
  | _ => .recovery

/-- The scheduler is the leader. -/
def scheduling : Cluster := (Lts.run (step dep) init (acquire 0)).get (by decide +kernel)

theorem scheduling_reachable : Reachable dep scheduling :=
  ⟨acquire 0, (Option.some_get _).symm⟩

theorem recovery_free : ¬ scheduling.Holds dep role .recovery := by
  rintro ⟨i, hi, hh⟩
  obtain ⟨e, he⟩ := Store.heldBy_iff.mp hh
  have h₀ : scheduling.store.leader = some (dep.token 0, 15000) := by decide +kernel
  rw [h₀, Option.some.injEq, Prod.mk.injEq] at he
  rw [← token_injective he.1] at hi
  cases hi

/-- `try_acquire` of the recovery worker returns False there. -/
theorem scheduler_locks_recovery : Reachable dep scheduling ∧
    ¬ scheduling.Holds dep role .recovery ∧ scheduling.Holds dep role .scheduler ∧
    scheduling.tryAcquireAlone dep 1 0 = some false :=
  ⟨scheduling_reachable, recovery_free, ⟨0, rfl, by decide +kernel⟩, by decide +kernel⟩

/-- The key of the scheduler has expired, and its flag is still set. -/
def expiredTerm : List Action := acquire 0 ++ [.advance 15001]

/-- While the scheduler has the key, `try_acquire` of the recovery worker returns False; after the
key has expired it returns True. -/
theorem recovery_acquires : scheduling.tryAcquireAlone dep 1 0 = some false ∧
    ∃ s, Lts.run (step dep) init expiredTerm = some s ∧ (s.instances 0).isLeader = true ∧
      s.tryAcquireAlone dep 1 0 = some true := by
  constructor
  · refine (tryAcquire_iff_other_role_free scheduling_reachable rfl recovery_free).2.mpr ?_
    rintro (hL | hfree)
    · exact absurd hL (by decide +kernel)
    · exact hfree ⟨0, rfl, by decide +kernel⟩
  · have heval : (Lts.run (step dep) init expiredTerm).any (fun s =>
        ((s.instances 1).calls 0).isOver && (s.instances 0).isLeader &&
          s.store.leader.isNone) = true := by decide +kernel
    obtain ⟨s, hr, hs⟩ := Lts.exists_run heval
    simp only [Bool.and_eq_true, Option.isNone_iff_eq_none] at hs
    obtain ⟨⟨hk, hL⟩, hnone⟩ := hs
    have hn : ∀ r, ¬ s.Holds dep role r := by
      rintro r ⟨i, -, hi⟩
      obtain ⟨e, he⟩ := Store.heldBy_iff.mp hi
      rw [hnone] at he
      cases he
    exact ⟨s, hr, hL,
      (tryAcquire_iff_other_role_free ⟨expiredTerm, hr⟩ hk (hn _)).1.mpr (.inr (hn _))⟩

end Demo

end PaymentScheduler.Redis
