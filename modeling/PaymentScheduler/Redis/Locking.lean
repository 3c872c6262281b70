import PaymentScheduler.Redis.Leader

/-!
# The leader key

Each command of an instance looks at the leader key only through its own token, so it touches the
key of no other instance: `step_leader` says once what a step can do to the key, and the rest reads
it off.

- **Deposed leaders** (`deposed_leader_locked_out`): the key leaves a token by expiry or by the
  release of its instance, only that instance renews it, and an instance that does not have the key
  gets no answer but False until it wins the key again.
-/

namespace PaymentScheduler.Redis

namespace Cluster

variable {dep : Deployment} {s s' : Cluster} {a : Action} {i : Nat} {v : String} {e : Nat}

/-- What a step can do to the leader key. -/
inductive Touch (dep : Deployment) (s : Cluster) (a : Action) : Option (String × Nat) → Prop where
  | keep : Touch dep s a s.store.leader
  | expire {t : Nat} {v : String} {e : Nat} (ha : a = .advance t)
    (hl : s.store.leader = some (v, e)) (ht : e < t) : Touch dep s a none
  | win {i : Nat} (h : s.Wins a i) :
    Touch dep s a (some (dep.token i, s.store.now + dep.leaderLockTtlMs))
  | renew {i e : Nat} (h : s.executed a = some (i, .renew))
    (hl : s.store.leader = some (dep.token i, e)) :
    Touch dep s a (some (dep.token i, s.store.now + dep.leaderLockTtlMs))
  | delete {i e : Nat} (h : s.executed a = some (i, .delete))
    (hl : s.store.leader = some (dep.token i, e)) :
    Touch dep s a none

theorem step_leader (h : s.step dep a = some s') : Touch dep s a s'.store.leader := by
  rcases step_store h with ⟨t, rfl, ht⟩ | ⟨i, c, hx, hs⟩ | ⟨-, hs⟩
  · rw [Store.advance_eq ht]
    have hkeep : Touch dep s (.advance t) s.store.leader := .keep
    rcases hl : s.store.leader with _ | ⟨v, e⟩
    · simpa [hl] using hkeep
    · by_cases hte : t ≤ e
      · simpa [hl, hte, Option.filter] using hkeep
      · have hexp : Touch dep s (.advance t) none := .expire rfl hl (by omega)
        simpa [hte, Option.filter] using hexp
  · rw [hs]
    cases c with
    | set =>
      rcases Store.exec_set dep i s.store with ⟨x, -, hset⟩ | ⟨hl, hset⟩ <;> rw [hset]
      · exact .keep
      · exact .win ⟨hx, hl⟩
    | incr n => exact .keep
    | get =>
      rw [Store.exec_get]
      exact .keep
    | renew =>
      simp only [Store.exec]
      split
      · obtain ⟨e, he⟩ := Store.heldBy_iff.mp ‹_›
        exact .renew hx he
      · exact .keep
    | delete =>
      simp only [Store.exec]
      split
      · obtain ⟨e, he⟩ := Store.heldBy_iff.mp ‹_›
        exact .delete hx he
      · exact .keep
  · rw [hs]
    exact .keep

/-- The key leaves the token of an instance by expiry or by its release. -/
theorem leaves_token (htok : Function.Injective dep.token) (h : s.step dep a = some s')
    (hl : s.store.leader = some (dep.token i, e)) (hn : s'.store.heldBy (dep.token i) = false) :
    (∃ t, a = .advance t ∧ e < t) ∨ s.executed a = some (i, .delete) := by
  have hT := step_leader h
  generalize hl' : s'.store.leader = l' at hT
  have hne : ∀ e', l' ≠ some (dep.token i, e') := by
    rintro e' rfl
    rw [Store.heldBy_iff.mpr ⟨e', hl'⟩] at hn
    cases hn
  cases hT with
  | keep => exact absurd hl (hne e)
  | expire ha hl₂ ht =>
    rw [hl] at hl₂
    cases hl₂
    exact .inl ⟨_, ha, ht⟩
  | win hw =>
    rw [hw.2] at hl
    cases hl
  | renew hx hl₂ =>
    rw [hl, Option.some.injEq, Prod.mk.injEq] at hl₂
    rw [← hl₂.1] at hne
    exact absurd rfl (hne _)
  | delete hx hl₂ =>
    rw [hl, Option.some.injEq, Prod.mk.injEq] at hl₂
    rw [htok hl₂.1]
    exact .inr hx

/-- The expiry of the key of an instance is changed by its own renewal only. -/
theorem extends_ttl (htok : Function.Injective dep.token) (h : s.step dep a = some s') {e' : Nat}
    (hl : s.store.leader = some (dep.token i, e)) (hl' : s'.store.leader = some (dep.token i, e'))
    (hne : e ≠ e') : s.executed a = some (i, .renew) := by
  have hT := step_leader h
  rw [hl'] at hT
  generalize hg : some (dep.token i, e') = l' at hT
  cases hT with
  | keep =>
    rw [hl] at hg
    cases hg
    exact absurd rfl hne
  | win hw =>
    rw [hw.2] at hl
    cases hl
  | renew hx hl₂ =>
    rw [hl, Option.some.injEq, Prod.mk.injEq] at hl₂
    rw [htok hl₂.1]
    exact hx
  | _ => cases hg

/-- An instance gets the key by a `SET` only. -/
theorem not_heldBy_step (htok : Function.Injective dep.token) (h : s.step dep a = some s')
    (hn : s.store.heldBy (dep.token i) = false) (hw : ¬ s.Wins a i) :
    s'.store.heldBy (dep.token i) = false := by
  by_contra hc
  obtain ⟨e, he⟩ := Store.heldBy_iff.mp ((Bool.not_eq_false _).mp hc)
  have hT := step_leader h
  rw [he] at hT
  generalize hg : some (dep.token i, e) = l' at hT
  cases hT with
  | keep =>
    rw [Store.heldBy_iff.mpr ⟨e, hg.symm⟩] at hn
    cases hn
  | win hw' =>
    rw [Option.some.injEq, Prod.mk.injEq] at hg
    rw [htok hg.1] at hw
    exact hw hw'
  | renew hx hl =>
    rw [Option.some.injEq, Prod.mk.injEq] at hg
    rw [← hg.1] at hl
    rw [Store.heldBy_iff.mpr ⟨_, hl⟩] at hn
    cases hn
  | _ => cases hg

/-- The instance `j` wins the key, so no other instance has it. -/
theorem Wins.not_heldBy (htok : Function.Injective dep.token) {j : Nat} (hij : i ≠ j)
    (hw : s.Wins a j) (h : s.step dep a = some s') : s'.store.heldBy (dep.token i) = false := by
  refine not_heldBy_step htok h (by simp [Store.heldBy, hw.2]) fun hw' => hij ?_
  have he := hw'.1.symm.trans hw.1
  simpa using he

/-- Redis answers False to the instance `i`: its renewals fail, and what its `verify_still_leader`
reads is not its token. -/
def AnswersFalse (dep : Deployment) (i : Nat) (s : Cluster) (a : Action) (_ : Cluster) : Prop :=
  (s.executed a = some (i, .renew) → (s.store.exec dep i .renew).2.truthy = false) ∧
    (s.executed a = some (i, .get) → stillLeader (dep.token i) (s.store.exec dep i .get).2 = false)

theorem answersFalse (hn : s.store.heldBy (dep.token i) = false) : AnswersFalse dep i s a s' := by
  refine ⟨fun _ => by rw [Store.exec_renew_truthy, hn], fun _ => ?_⟩
  simp [stillLeader, Store.exec_get_bulk, hn]

/-- From any state, and so in every run of any number of instances: the key leaves the token of an
instance only by expiry or by its own release, its TTL is extended only by that instance, and once
another instance has won the key, each renewal and each read of an instance answers False until it
wins the key itself. -/
theorem deposed_leader_locked_out (htok : Function.Injective dep.token) {s s' : Cluster}
    {a : Action} (h : s.step dep a = some s') (i : Nat) :
    (∀ e, s.store.leader = some (dep.token i, e) → s'.store.heldBy (dep.token i) = false →
      (∃ t, a = .advance t ∧ e < t) ∨ s.executed a = some (i, .delete)) ∧
    (∀ e e', s.store.leader = some (dep.token i, e) → s'.store.leader = some (dep.token i, e') →
      e ≠ e' → s.executed a = some (i, .renew)) ∧
    (∀ j, i ≠ j → s.Wins a j → ∀ as, Lts.Along (step dep) (fun s a _ => ¬ s.Wins a i) s' as →
      Lts.Along (step dep) (AnswersFalse dep i) s' as) := by
  refine ⟨fun e hl hn => leaves_token htok h hl hn, fun e e' hl hl' => extends_ttl htok h hl hl',
    fun j hij hw as hA => ?_⟩
  refine Lts.Along.of_inv (I := fun s => s.store.heldBy (dep.token i) = false)
    (P := fun s a _ => ¬ s.Wins a i) ?_ ?_ (hw.not_heldBy htok hij h) hA
  · exact fun hn hw ht => not_heldBy_step htok ht hn hw
  · exact fun hn _ _ => answersFalse hn

end Cluster

/-! ## A lock that expires -/

namespace Demo

open Cluster

/-- Each instance runs in a container of its own, as process 1. -/
def dep : Deployment where
  token i := "1:" ++ String.ofList (List.replicate (i + 1) '1')

theorem token_injective : Function.Injective dep.token := by
  intro i j h
  have hl := congrArg (fun t => t.toList.length) h
  simpa [dep] using hl

/-- `try_acquire` of an instance that wins the key. -/
def acquire (i : Nat) : List Action :=
  [.tryAcquire i 0, .exec i (.call 0), .resume i 0, .exec i (.call 0), .resume i 0]

/-- Instance 0 is the leader and its heartbeat has sent a renewal, but the key expires first. -/
def lapse : List Action := acquire 0 ++ [.beat 0 0, .beat 0 0, .advance 15001, .tryAcquire 1 0]

/-- Instance 1 has sent its `SET`. -/
def expired : Cluster := (Lts.run (step dep) init lapse).get (by decide +kernel)

/-- Instance 1 has won the key. -/
def succeeded : Cluster := (expired.step dep (.exec 1 (.call 0))).get (by decide +kernel)

/-- The late renewal of instance 0 reaches Redis, and it reads the key. -/
theorem late_renewal_fails : Lts.Along (step dep) (AnswersFalse dep 0) succeeded
    [.exec 0 (.beat 0), .verifyStillLeader 0 0, .exec 0 (.call 0)] := by
  have hs : expired.step dep (.exec 1 (.call 0)) = some succeeded := (Option.some_get _).symm
  obtain ⟨-, -, hf⟩ := deposed_leader_locked_out token_injective hs 0
  exact hf 1 (by decide) (by decide +kernel) _ (by decide +kernel)

end Demo

end PaymentScheduler.Redis
