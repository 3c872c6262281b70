import PaymentScheduler.Redis.Locking
import PaymentScheduler.Redis.Terms

/-!
# Taking over

The key of a leader that has died, or hangs, expires: whatever state the instances are in, each one
can become the leader one lock time later (`LEADER_LOCK_TTL_MS`), without a step of any other. An
instance that still believes to be the leader finds out by `verify_still_leader`, and then acquires
the key again like all others.

- `Cluster.expires_within`: the key never outlives the lock time.
- `Cluster.verify_gives_up`: `verify_still_leader` of a leader whose key is gone.
- `Cluster.takes_over`: from each reachable state, the run of one instance after which it leads.
-/

namespace PaymentScheduler.Redis

/-- `GET` shows whether the key is the own one. -/
theorem Store.stillLeader_get {dep : Deployment} {i : Nat} {s : Store} {token : String} :
    stillLeader token (s.exec dep i .get).2 = s.heldBy token := by
  rw [Bool.eq_iff_iff, ← exec_get_bulk]
  exact decide_eq_true_iff

namespace Cluster

variable {dep : Deployment} {s s' : Cluster} {a : Action} {i k : Nat} {c : Call} {cmd : Command}

/-! ## What holds of every state -/

/-- The key expires within the lock time. -/
def Expires (dep : Deployment) (s : Cluster) : Prop :=
  ∀ v e, s.store.leader = some (v, e) → e ≤ s.store.now + dep.leaderLockTtlMs

/-- Only finitely many calls have been made. -/
def Finite (s : Cluster) : Prop := ∀ i, ∃ m, ∀ k, m ≤ k → (s.instances i).calls k = .ended none

theorem Expires.exec (hE : Expires dep s) (i : Nat) (c : Command) {v : String} {e : Nat}
    (h : (s.store.exec dep i c).1.leader = some (v, e)) :
    e ≤ (s.store.exec dep i c).1.now + dep.leaderLockTtlMs := by
  cases c with
  | set =>
    obtain ⟨x, hx, he⟩ | ⟨hx, he⟩ := Store.exec_set dep i s.store
    · rw [he] at h ⊢
      exact hE v e h
    · rw [he] at h ⊢
      cases h
      exact Nat.le_refl _
  | incr n => exact hE v e h
  | get =>
    rw [Store.exec_get] at h ⊢
    exact hE v e h
  | renew =>
    by_cases hown : s.store.heldBy (dep.token i) = true
    · simp only [Store.exec, hown, if_true] at h ⊢
      cases h
      exact Nat.le_refl _
    · simp only [Store.exec, hown] at h ⊢
      exact hE v e h
  | delete =>
    by_cases hown : s.store.heldBy (dep.token i) = true
    · simp only [Store.exec, hown, if_true] at h
      cases h
    · simp only [Store.exec, hown] at h ⊢
      exact hE v e h

theorem Expires.step (hE : Expires dep s) (h : s.step dep a = some s') : Expires dep s' := by
  intro v e hl
  obtain ⟨t, -, hst⟩ | ⟨j, c, -, hst⟩ | ⟨-, hst⟩ := step_store h
  · have hle : s.store.now ≤ t := by
      by_contra hlt
      rw [Store.advance, if_neg hlt] at hst
      cases hst
    rw [Store.advance_eq hst] at hl ⊢
    have hbound := hE v e (Option.eq_some_of_filter_eq_some hl)
    dsimp only
    omega
  · rw [hst] at hl ⊢
    exact hE.exec j c hl
  · rw [hst] at hl ⊢
    exact hE v e hl

/-- In every reachable state, the key expires within the lock time. -/
theorem Reachable.expires (h : Reachable dep s) : Expires dep s :=
  h.inv (fun hE hs => hE.step hs) (fun _ _ hl => by cases hl)

/-- A step changes the state of at most one call of an instance. -/
theorem step_calls (i : Nat) (h : s.step dep a = some s') : ∃ j c,
    (s'.instances i).calls = (s.instances i).calls ∨
      (s'.instances i).calls = Function.update (s.instances i).calls j c := by
  cases step_turn i h with
  | quiet hc => exact ⟨0, .raised, .inl hc⟩
  | plain hc | lead _ hc => exact ⟨_, _, .inr hc⟩
  | failed _ hy | leader _ _ hy | compete _ _ hy | verify _ hy | exec _ _ hy | won _ hy
  | confirmed _ hy =>
    exact ⟨_, _, .inr (congrArg Instance.calls hy)⟩

theorem Finite.step (hF : Finite s) (h : s.step dep a = some s') : Finite s' := by
  intro i
  obtain ⟨m, hm⟩ := hF i
  obtain ⟨j, c, hc | hc⟩ := step_calls i h
  · exact ⟨m, fun k hk => by rw [hc, hm k hk]⟩
  · refine ⟨max m (j + 1), fun k hk => ?_⟩
    have hj : k ≠ j := by omega
    rw [hc, Function.update_of_ne hj, hm k (by omega)]

/-- An instance can always make a further call. -/
theorem Reachable.exists_over (h : Reachable dep s) (i : Nat) :
    ∃ k, ((s.instances i).calls k).isOver = true := by
  have hF : Finite s := h.inv (fun hF hs => hF.step hs) (fun _ => ⟨0, fun _ _ => rfl⟩)
  obtain ⟨m, hm⟩ := hF i
  exact ⟨m, by rw [hm m le_rfl]; rfl⟩

/-! ## The run -/

/-- The time passes, or the instance `i` takes a step. -/
def Alone (i : Nat) (a : Action) : Prop := a.instance? = none ∨ a.instance? = some i

/-- What the run of one instance leaves as it is. -/
def Spares (i : Nat) (s s' : Cluster) : Prop := ∀ j, j ≠ i → s'.instances j = s.instances j

/-- Redis has run the command of the call `k`. -/
def replied (dep : Deployment) (s : Cluster) (i k : Nat) (cmd : Command) : Cluster where
  store := (s.store.exec dep i cmd).1
  instances := Function.update s.instances i
    ((s.instances i).answered cmd (s.store.exec dep i cmd).2 (.call k))

/-- A command of the call `k`, from where it is sent to where the call goes on. -/
theorem run_command {x : Instance} (hk : (s.instances i).calls k = .sent cmd)
    (hr : ((s.replied dep i k cmd).instances i).resume (dep.token i)
      (.replied cmd (s.store.exec dep i cmd).2) = some (x, c)) :
    Lts.run (step dep) s [.exec i (.call k), .resume i k] =
      some ((s.replied dep i k cmd).setCall i k x c) := by
  have hexec : s.step dep (.exec i (.call k)) = some (s.replied dep i k cmd) := by
    simp [step, Instance.pending, hk, replied]
  have hcall : ((s.replied dep i k cmd).instances i).calls k =
      .replied cmd (s.store.exec dep i cmd).2 := by
    simp [replied, Instance.answered]
  have hresume : (s.replied dep i k cmd).step dep (.resume i k) =
      some ((s.replied dep i k cmd).setCall i k x c) := by
    simp only [step, hcall, hr, Option.map_some]
  exact Lts.run_cons.mpr ⟨_, hexec, Lts.run_cons.mpr ⟨_, hresume, rfl⟩⟩

theorem leads_command {x : Instance} (hk : (s.instances i).calls k = .sent cmd)
    (hr : ((s.replied dep i k cmd).instances i).resume (dep.token i)
      (.replied cmd (s.store.exec dep i cmd).2) = some (x, c)) :
    Lts.Leads (step dep) (Alone i) s ((s.replied dep i k cmd).setCall i k x c) :=
  .of_run (by simp [Alone, Action.instance?]) (run_command hk hr)

/-- The steps of a call of `verify_still_leader` that reaches Redis. -/
def verifyCall (i k : Nat) : List Action :=
  [.verifyStillLeader i k, .exec i (.call k), .resume i k]

/-- An instance that believes to be the leader and does not hold the key gives up when it calls
`verify_still_leader`. -/
theorem verify_gives_up (dep : Deployment) (hk : ((s.instances i).calls k).isOver = true)
    (hL : (s.instances i).isLeader = true) (hlost : s.store.heldBy (dep.token i) = false) :
    ∃ s', Lts.run (step dep) s (verifyCall i k) = some s' ∧ s'.store = s.store ∧
      (s'.instances i).isLeader = false ∧ (s'.instances i).calls k = .ended (some false) ∧
      Spares i s s' := by
  let s₁ := s.setCall i k (s.instances i) (.sent .get)
  have hverify : s.step dep (.verifyStillLeader i k) = some s₁ := by
    simp only [step, start, hk, if_true, Instance.verifyStillLeader, hL, s₁]
  have hsent : (s₁.instances i).calls k = .sent .get := by simp [s₁, setCall, set]
  let s₂ := s₁.replied dep i k .get
  -- `GET`: the token is not the own one.
  have hresume : (s₂.instances i).resume (dep.token i)
      (.replied .get (s₁.store.exec dep i .get).2) =
      some ({ (s₂.instances i).cancelHeartbeat with isLeader := false }, .ended (some false)) :=
    if_neg (by simp [s₁, Store.stillLeader_get, hlost])
  refine ⟨s₂.setCall i k { (s₂.instances i).cancelHeartbeat with isLeader := false }
      (.ended (some false)), Lts.run_cons.mpr ⟨s₁, hverify, run_command hsent hresume⟩,
    ?_, ?_, ?_, ?_⟩
  · simp [s₂, s₁, replied, Store.exec_get]
  · simp [setCall, set]
  · simp [setCall, set]
  · intro j hj
    simp [setCall, set, s₂, s₁, replied, Function.update_of_ne hj]

/-- An instance that believes to be the leader finds out that the key is gone. -/
theorem leads_follower (dep : Deployment) (hk : ((s.instances i).calls k).isOver = true)
    (hfree : s.store.leader = none) :
    ∃ s', Lts.Leads (step dep) (Alone i) s s' ∧ s'.store = s.store ∧
      (s'.instances i).isLeader = false ∧ ((s'.instances i).calls k).isOver = true ∧
      Spares i s s' := by
  by_cases hL : (s.instances i).isLeader = true
  · have hlost : s.store.heldBy (dep.token i) = false := by simp [Store.heldBy, hfree]
    obtain ⟨s', hrun, hstore, hL', hk', hsp⟩ := verify_gives_up dep hk hL hlost
    refine ⟨s', .of_run (by simp [verifyCall, Alone, Action.instance?]) hrun, hstore, hL', ?_, hsp⟩
    rw [hk']
    rfl
  · exact ⟨s, .refl, rfl, (Bool.not_eq_true _).mp hL, hk, fun _ _ => rfl⟩

/-- An instance that does not believe to be the leader acquires the free key. -/
theorem leads_leader (dep : Deployment) (hk : ((s.instances i).calls k).isOver = true)
    (hfree : s.store.leader = none) (hL : (s.instances i).isLeader = false) :
    ∃ s', Lts.Leads (step dep) (Alone i) s s' ∧
      s'.store.leader = some (dep.token i, s.store.now + dep.leaderLockTtlMs) ∧
      s'.store.leaderEpoch = s.store.leaderEpoch + 1 ∧ s'.store.now = s.store.now ∧
      (s'.instances i).isLeader = true ∧ (s'.instances i).epoch = s.store.leaderEpoch + 1 ∧
      Spares i s s' := by
  let n := s.store.terms.length
  let st : Store := { s.store with
    leader := some (dep.token i, s.store.now + dep.leaderLockTtlMs)
    terms := s.store.terms ++ [{ holder := i }] }
  -- `SET`: the key is free.
  let s₁ := s.setCall i k (s.instances i) (.sent .set)
  have hstart : s.step dep (.tryAcquire i k) = some s₁ := by
    simp only [step, start, hk, if_true, Instance.tryAcquire, hL, s₁]
    rfl
  have hset : (s₁.instances i).calls k = .sent .set := by simp [s₁, setCall, set]
  have hexec : s₁.store.exec dep i .set = (st, .ok n) := by
    simp [s₁, Store.exec, hfree, n, st]
  let s₂ := s₁.replied dep i k .set
  have hwon : (s₂.instances i).resume (dep.token i) (.replied .set (s₁.store.exec dep i .set).2) =
      some (s₂.instances i, .sent (.incr n)) := by
    rw [hexec]
    rfl
  -- `INCR`: the epoch of the term.
  let s₃ := s₂.setCall i k (s₂.instances i) (.sent (.incr n))
  have hincr : (s₃.instances i).calls k = .sent (.incr n) := by simp [s₃, setCall, set]
  have hstore : s₃.store = st := congrArg Prod.fst hexec
  let s₄ := s₃.replied dep i k (.incr n)
  have hfinal : s₄.store = (st.exec dep i (.incr n)).1 := by rw [← hstore]; rfl
  have hlead : (s₄.instances i).resume (dep.token i)
      (.replied (.incr n) (s₃.store.exec dep i (.incr n)).2) =
      some ({ (s₄.instances i) with
        epoch := s.store.leaderEpoch + 1
        isLeader := true
        heartbeats := (s₄.instances i).heartbeats ++ [.created] }, .ended (some true)) := by
    rw [hstore]
    rfl
  refine ⟨s₄.setCall i k _ (.ended (some true)), .head (a := .tryAcquire i k) (.inr rfl) hstart
    (Relation.ReflTransGen.trans (leads_command hset hwon) (leads_command hincr hlead)),
    ?_, ?_, ?_, ?_, ?_, ?_⟩
  · rw [setCall_store, hfinal]
    rfl
  · rw [setCall_store, hfinal]
    rfl
  · rw [setCall_store, hfinal]
    rfl
  · simp [setCall, set]
  · simp [setCall, set]
  · intro j hj
    simp [setCall, set, s₄, s₃, s₂, s₁, replied, Function.update_of_ne hj]

theorem exists_takeover (hs : Reachable dep s) (i : Nat) :
    ∃ bs s', (∀ b ∈ bs, Alone i b) ∧ Lts.run (step dep) s bs = some s' ∧
      s'.store.now = s.store.now + dep.leaderLockTtlMs + 1 ∧
      s'.store.leader = some (dep.token i, s'.store.now + dep.leaderLockTtlMs) ∧
      (s'.instances i).isLeader = true ∧ (s'.instances i).epoch = s'.store.leaderEpoch ∧
      s'.store.leaderEpoch = s.store.leaderEpoch + 1 ∧ Spares i s s' := by
  obtain ⟨k, hk⟩ := hs.exists_over i
  let t := s.store.now + dep.leaderLockTtlMs + 1
  let s₁ : Cluster := { s with store := { s.store with now := t, leader := none } }
  have hexpired : s.store.leader.filter (fun q => decide (t ≤ q.2)) = none := by
    cases hl : s.store.leader with
    | none => rfl
    | some q =>
      have hbound := hs.expires q.1 q.2 hl
      exact Option.filter_eq_none_iff.mpr fun q' hq' => by
        cases hq'
        simp only [t, decide_eq_true_eq]
        omega
  have hadvance : s.step dep (.advance t) = some s₁ := by
    have hle : s.store.now ≤ t := by omega
    rw [step, Store.advance, if_pos hle]
    exact congrArg (fun l => some { s with store := { s.store with now := t, leader := l } })
      hexpired
  obtain ⟨s₂, h₂, hstore, hL, hk₂, hsp₂⟩ := leads_follower (s := s₁) dep hk rfl
  obtain ⟨s₃, h₃, hleader, hepoch, hnow, hL₃, hepoch₃, hsp₃⟩ :=
    leads_leader (s := s₂) dep hk₂ (by rw [hstore]) hL
  rw [hstore] at hleader hepoch hnow hepoch₃
  obtain ⟨bs, hbs, hrun⟩ := Lts.Leads.exists_run
    (.head (a := .advance t) (.inl rfl) hadvance (Relation.ReflTransGen.trans h₂ h₃))
  refine ⟨bs, s₃, hbs, hrun, hnow, ?_, hL₃, ?_, hepoch, fun j hj => ?_⟩
  · rw [hleader, hnow]
  · rw [hepoch₃, hepoch]
  · rw [hsp₃ j hj, hsp₂ j hj]

/-- From every reachable state, each instance can become the leader one lock time later, whatever it
believes itself to be and whatever its calls and tasks wait for, without a step of another: it then
holds the key for a full lock time, under the next epoch. And where it believes to be the leader and
does not hold the key, `verify_still_leader` makes it give up. -/
theorem takes_over (dep : Deployment) (as : List Action)
    (hr : Lts.run (step dep) init as = some s) (i : Nat) :
    (∃ bs s', (∀ b ∈ bs, Alone i b) ∧ Lts.run (step dep) s bs = some s' ∧
      s'.store.now = s.store.now + dep.leaderLockTtlMs + 1 ∧
      s'.store.leader = some (dep.token i, s'.store.now + dep.leaderLockTtlMs) ∧
      (s'.instances i).isLeader = true ∧ (s'.instances i).epoch = s'.store.leaderEpoch ∧
      s'.store.leaderEpoch = s.store.leaderEpoch + 1 ∧ Spares i s s') ∧
    ∀ k, ((s.instances i).calls k).isOver = true → (s.instances i).isLeader = true →
      s.store.heldBy (dep.token i) = false →
      ∃ s', Lts.run (step dep) s (verifyCall i k) = some s' ∧ s'.store = s.store ∧
        (s'.instances i).isLeader = false ∧ (s'.instances i).calls k = .ended (some false) ∧
        Spares i s s' :=
  ⟨exists_takeover ⟨as, hr⟩ i, fun _ hk hL hlost => verify_gives_up dep hk hL hlost⟩

end Cluster

namespace Demo

open Cluster

/-- Instance 0 leads and hangs with a renewal on its way; instance 1 waits for its `SET`. -/
def hung : List Action := acquire 0 ++ [.beat 0 0, .beat 0 0, .tryAcquire 1 0]

/-- Instance 1 takes over; and after the lock time, instance 0 gives up. -/
theorem hung_taken_over : (∃ s, Lts.run (step dep) init hung = some s ∧
      s.store.leader = some (dep.token 0, 15000) ∧
      ∃ bs s', (∀ b ∈ bs, Alone 1 b) ∧ Lts.run (step dep) s bs = some s' ∧
        s'.store.now = s.store.now + dep.leaderLockTtlMs + 1 ∧
        s'.store.leader = some (dep.token 1, s'.store.now + dep.leaderLockTtlMs) ∧
        (s'.instances 1).isLeader = true ∧ (s'.instances 1).epoch = s'.store.leaderEpoch ∧
        s'.store.leaderEpoch = s.store.leaderEpoch + 1 ∧ Spares 1 s s') ∧
    ∃ s s', Lts.run (step dep) init (hung ++ [.advance 15001]) = some s ∧
      (s.instances 0).isLeader = true ∧ Lts.run (step dep) s (verifyCall 0 0) = some s' ∧
      (s'.instances 0).isLeader = false := by
  constructor
  · have heval : (Lts.run (step dep) init hung).any (fun s =>
        s.store.leader = some (dep.token 0, 15000)) = true := by decide +kernel
    obtain ⟨s, hr, hs⟩ := Lts.exists_run heval
    exact ⟨s, hr, of_decide_eq_true hs, (takes_over dep hung hr 1).1⟩
  · have heval : (Lts.run (step dep) init (hung ++ [.advance 15001])).any (fun s =>
        ((s.instances 0).calls 0).isOver && (s.instances 0).isLeader &&
          !s.store.heldBy (dep.token 0)) = true := by decide +kernel
    obtain ⟨s, hr, hs⟩ := Lts.exists_run heval
    simp only [Bool.and_eq_true, Bool.not_eq_true'] at hs
    obtain ⟨⟨hk, hL⟩, hlost⟩ := hs
    obtain ⟨s', hrun, -, hL', -⟩ := (takes_over dep _ hr 0).2 0 hk hL hlost
    exact ⟨s, s', hr, hL, hrun, hL'⟩

end Demo

end PaymentScheduler.Redis
